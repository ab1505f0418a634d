import EnergyAgent.Catalog.Repository
import EnergyAgent.Lib.Tally

/-!
# The sites of the catalog

`sites` counts the devices of every site from a grouped query. What it shows accounts for every
device of the table once.
-/

namespace EnergyAgent.Catalog

open EnergyAgent.Lib

/-- What `sites` reads of a `DeviceProfileModel`. -/
structure SiteDevice where
  siteId : String
  deviceType : String
  status : String
  deriving DecidableEq

structure SiteItem where
  siteId : String
  displayName : String
  deviceCount : Nat
  activeAlarmCount : Nat
  deviceTypeCounts : List (String × Nat)
  statusCounts : List (String × Nat)
  deriving DecidableEq

/-- The dictionaries that `sites` fills. -/
structure SiteTotals where
  totals : List (String × Nat) := []
  deviceTypeCounts : List (String × List (String × Nat)) := []
  statusCounts : List (String × List (String × Nat)) := []

/-- `counts = d.setdefault(site_id, {})` and `counts[name] = counts.get(name, 0) + count` -/
def addIn (d : List (String × List (String × Nat))) (siteId name : String) (count : Nat) :
    List (String × List (String × Nat)) :=
  Tally.alter id (fun counts => Tally.add id count (counts.getD []) name) d siteId

def SiteTotals.add (t : SiteTotals) (row : SiteDevice × Nat) : SiteTotals where
  totals := Tally.add id row.2 t.totals row.1.siteId
  deviceTypeCounts := addIn t.deviceTypeCounts row.1.siteId row.1.deviceType row.2
  statusCounts := addIn t.statusCounts row.1.siteId row.1.status row.2

section sites

variable {κ : Type} [DecidableEq κ] (collation : Collation κ)

/-- The columns of the `GROUP BY`, as the database compares them. -/
def Collation.group (d : SiteDevice) : κ × κ × κ :=
  (collation.key d.siteId, collation.key d.deviceType, collation.key d.status)

/-- `status.not_in(["CLOSED", "CLEARED", "RESOLVED"])` -/
def Collation.active (alarm : AlarmEventModel) : Bool :=
  ["CLOSED", "CLEARED", "RESOLVED"].all fun status =>
    collation.key alarm.status ≠ collation.key status

/-- `{site_id: count for site_id, count in alarm_rows}` -/
def alarmCounts (alarms : List AlarmEventModel) : List (String × Nat) :=
  (Tally.groupBy collation.key ((alarms.filter collation.active).map AlarmEventModel.siteId)).foldl
    (fun d row => Tally.alter id (fun _ => row.2) d row.1) []

def siteTotals (devices : List SiteDevice) : SiteTotals :=
  (Tally.groupBy collation.group devices).foldl SiteTotals.add {}

/-- `none` for a key that a dictionary lacks. -/
def SiteTotals.item (t : SiteTotals) (alarms : List (String × Nat)) (siteId : String) :
    Option SiteItem := do
  let deviceCount ← t.totals.lookup siteId
  let deviceTypeCounts ← t.deviceTypeCounts.lookup siteId
  let statusCounts ← t.statusCounts.lookup siteId
  return {
    siteId := siteId
    displayName := siteId
    deviceCount := deviceCount
    activeAlarmCount := (alarms.lookup siteId).getD 0
    deviceTypeCounts := deviceTypeCounts
    statusCounts := statusCounts
  }

def sites (devices : List SiteDevice) (alarms : List AlarmEventModel) : Option (List SiteItem) :=
  let totals := siteTotals collation devices
  (Keyset.orderBy id (totals.totals.map Prod.fst)).mapM
    (totals.item (alarmCounts collation alarms))

end sites

/-! ## The dictionaries -/

section totals

variable (rows : List (SiteDevice × Nat)) (k : String)

/-- How many of the devices in the groups satisfy a condition. -/
def counted (p : SiteDevice → Bool) : Nat := Tally.weigh (fun d m => if p d then m else 0) rows

def totalsOf : List (String × Nat) :=
  rows.foldl (fun d row => Tally.add id row.2 d row.1.siteId) []

def countsOf (name : SiteDevice → String) : List (String × List (String × Nat)) :=
  rows.foldl (fun d row => addIn d row.1.siteId (name row.1) row.2) []

theorem foldl_add (rows : List (SiteDevice × Nat)) (t : SiteTotals) : rows.foldl SiteTotals.add t =
    ⟨rows.foldl (fun d row => Tally.add id row.2 d row.1.siteId) t.totals,
      rows.foldl (fun d row => addIn d row.1.siteId row.1.deviceType row.2) t.deviceTypeCounts,
      rows.foldl (fun d row => addIn d row.1.siteId row.1.status row.2) t.statusCounts⟩ := by
  induction rows generalizing t with
  | nil => rfl
  | cons row rows ih => exact ih (t.add row)

theorem weigh_totalsOf (p : String → Bool) :
    Tally.weigh (fun g m => if p g then m else 0) (totalsOf rows) =
      counted rows fun d => p d.siteId := by
  have hrows := @Tally.weigh_foldl _ _ _ _ _ id (fun g m => if p g then m else 0) []
    (fun row : SiteDevice × Nat => row.1.siteId) (fun row m => m.getD 0 + row.2)
    (fun row => if p row.1.siteId then row.2 else 0) rows (fun row _ => by simp)
    (fun row _ g m hkey => by
      change g = row.1.siteId at hkey
      subst hkey
      split <;> simp)
  exact hrows.trans (Nat.zero_add _)

theorem weigh_countsOf (name : SiteDevice → String) (q : String → Bool) :
    Tally.weigh (fun g c => if g = k then Tally.weigh (fun n m => if q n then m else 0) c else 0)
        (countsOf rows name) =
      counted rows fun d => d.siteId = k && q (name d) := by
  have hadd (row : SiteDevice × Nat) (c : List (String × Nat)) := @Tally.weigh_add _ _ _ id
    (name row.1) q (fun g' hkey => congrArg q hkey) row.2 c
  have hrows := @Tally.weigh_foldl _ _ _ _ _ id
    (fun g c => if g = k then Tally.weigh (fun n m => if q n then m else 0) c else 0) []
    (fun row : SiteDevice × Nat => row.1.siteId)
    (fun row c => Tally.add id row.2 (c.getD []) (name row.1))
    (fun row => if row.1.siteId = k && q (name row.1) then row.2 else 0) rows
    (fun row _ => by
      rw [hadd]
      by_cases hk : row.1.siteId = k <;> simp [hk, Tally.weigh])
    (fun row _ g c hkey => by
      change g = row.1.siteId at hkey
      subst hkey
      rw [Option.getD_some, hadd]
      by_cases hk : row.1.siteId = k <;> simp [hk])
  exact hrows.trans (Nat.zero_add _)

theorem nodup_totalsOf : ((totalsOf rows).map Prod.fst).Nodup :=
  @Tally.nodup_foldl _ _ _ _ _ id [] _ _ rows List.nodup_nil

theorem nodup_countsOf (name : SiteDevice → String) :
    ((countsOf rows name).map Prod.fst).Nodup :=
  @Tally.nodup_foldl _ _ _ _ _ id [] _ _ rows List.nodup_nil

/-- Every site has an entry in each dictionary. -/
theorem keys_countsOf (name : SiteDevice → String) :
    (countsOf rows name).map Prod.fst = (totalsOf rows).map Prod.fst :=
  @Tally.keys_foldl _ _ _ _ _ id [] _ [] _ _ _ rows rfl

theorem nodup_counts (name : SiteDevice → String) :
    ∀ p ∈ countsOf rows name, (p.2.map Prod.fst).Nodup := by
  have hrows : ∀ d : List (String × List (String × Nat)), (∀ p ∈ d, (p.2.map Prod.fst).Nodup) →
      ∀ p ∈ rows.foldl (fun d row => addIn d row.1.siteId (name row.1) row.2) d,
        (p.2.map Prod.fst).Nodup := by
    induction rows with
    | nil => exact fun d h => h
    | cons row rows ih =>
        intro d h
        refine ih _ (@Tally.forall_alter _ _ _ _ id _ d row.1.siteId
          (fun c => (c.map Prod.fst).Nodup) ?_ ?_ h)
        · exact @Tally.nodup_alter _ _ _ _ id _ [] _ List.nodup_nil
        · exact fun c hc => @Tally.nodup_alter _ _ _ _ id _ c _ hc
  exact hrows [] (by simp)

end totals

/-! ## The items -/

section items

variable {κ : Type} [DecidableEq κ] (collation : Collation κ)

/-- What an item shows of the groups: the counts of its site, and the counts by type and status. -/
structure SiteItem.Shows (rows : List (SiteDevice × Nat)) (alarms : List (String × Nat))
    (siteId : String) (item : SiteItem) : Prop where
  site : item.siteId = siteId
  name : item.displayName = siteId
  devices : item.deviceCount = counted rows fun d => d.siteId = siteId
  alarms : item.activeAlarmCount = (alarms.lookup siteId).getD 0
  types : (item.deviceTypeCounts.map Prod.snd).sum = item.deviceCount
  byType : ∀ t, (item.deviceTypeCounts.lookup t).getD 0 =
    counted rows fun d => d.siteId = siteId && d.deviceType = t
  statuses : (item.statusCounts.map Prod.snd).sum = item.deviceCount
  byStatus : ∀ t, (item.statusCounts.lookup t).getD 0 =
    counted rows fun d => d.siteId = siteId && d.status = t

theorem countsOf_lookup {rows : List (SiteDevice × Nat)} {k : String} (name : SiteDevice → String)
    (hk : k ∈ (totalsOf rows).map Prod.fst) :
    ∃ counts, (countsOf rows name).lookup k = some counts ∧
      (counts.map Prod.snd).sum = counted rows (fun d => d.siteId = k) ∧
      ∀ t, (counts.lookup t).getD 0 = counted rows fun d => d.siteId = k && name d = t := by
  rw [← keys_countsOf rows name] at hk
  obtain ⟨counts, hcounts⟩ := Tally.lookup_isSome hk
  have hnodup := nodup_countsOf rows name
  have hmem : (k, counts) ∈ countsOf rows name := by
    obtain ⟨before, after, hsplit, -⟩ := List.lookup_eq_some_iff.mp hcounts
    simp [hsplit]
  have hinner : (counts.map Prod.fst).Nodup := nodup_counts rows name (k, counts) hmem
  have hweigh (q : String → Bool) : Tally.weigh (fun n m => if q n then m else 0) counts =
      counted rows fun d => d.siteId = k && q (name d) := by
    rw [← weigh_countsOf rows k name q, Tally.weigh_lookup hnodup, hcounts]
    rfl
  refine ⟨counts, hcounts, ?_, fun t => ?_⟩
  · have hall := hweigh fun _ => true
    simpa [Tally.weigh] using hall
  · have ht := hweigh fun n => n = t
    have hlookup := @Tally.weigh_lookup _ _ counts _ (fun m => m) t hinner
    simp only [decide_eq_true_eq] at ht
    rw [← ht, hlookup]
    simp

theorem item_shows {rows : List (SiteDevice × Nat)} {k : String} (alarms : List (String × Nat))
    (hk : k ∈ (totalsOf rows).map Prod.fst) :
    ∃ item, (rows.foldl SiteTotals.add {}).item alarms k = some item ∧ item.Shows rows alarms k := by
  obtain ⟨total, htotal⟩ := Tally.lookup_isSome hk
  obtain ⟨types, htypes, hsum, hby⟩ := countsOf_lookup SiteDevice.deviceType hk
  obtain ⟨statuses, hstatuses, hsum', hby'⟩ := countsOf_lookup SiteDevice.status hk
  have hcount : total = counted rows fun d => d.siteId = k := by
    have hweigh := weigh_totalsOf rows fun s => s = k
    have hlookup := @Tally.weigh_lookup _ _ (totalsOf rows) _ (fun m => m) k (nodup_totalsOf rows)
    simp only [decide_eq_true_eq] at hweigh
    rw [← hweigh, hlookup, htotal]
    rfl
  refine ⟨⟨k, k, total, (alarms.lookup k).getD 0, types, statuses⟩, ?_, ?_⟩
  · rw [foldl_add, SiteTotals.item]
    change (totalsOf rows).lookup k >>= _ = _
    rw [htotal]
    change (countsOf rows SiteDevice.deviceType).lookup k >>= _ = _
    rw [htypes]
    change (countsOf rows SiteDevice.status).lookup k >>= _ = _
    rw [hstatuses]
    rfl
  · exact ⟨rfl, rfl, hcount, rfl, hsum.trans hcount.symm, hby, hsum'.trans hcount.symm, hby'⟩

theorem exists_mapM {α β : Type} {f : α → Option β} {Q : α → β → Prop} {l : List α}
    (h : ∀ a ∈ l, ∃ b, f a = some b ∧ Q a b) : ∃ bs, l.mapM f = some bs ∧ List.Forall₂ Q l bs := by
  induction l with
  | nil => exact ⟨[], rfl, .nil⟩
  | cons a l ih =>
      obtain ⟨⟨b, hb, hQ⟩, hl⟩ := List.forall_mem_cons.mp h
      obtain ⟨bs, hbs, hQs⟩ := ih hl
      exact ⟨b :: bs, by simp [hb, hbs], .cons hQ hQs⟩

theorem map_eq_of_forall₂ {α β γ : Type} {Q : α → β → Prop} {u : α → γ} {v : β → γ} {l : List α}
    {bs : List β} (h : List.Forall₂ Q l bs) (huv : ∀ a b, Q a b → v b = u a) :
    bs.map v = l.map u := by
  induction h with
  | nil => rfl
  | cons hQ _ ih => rw [List.map_cons, List.map_cons, huv _ _ hQ, ih]

theorem exists_of_forall₂ {α β : Type} {Q : α → β → Prop} {l : List α} {bs : List β}
    (h : List.Forall₂ Q l bs) {b : β} (hb : b ∈ bs) : ∃ a, Q a b := by
  induction h with
  | nil => simp at hb
  | cons hQ _ ih =>
      rcases List.mem_cons.mp hb with rfl | hb
      · exact ⟨_, hQ⟩
      · exact ih hb

/-- The items of the groups, in the order of their sites. -/
theorem sites_shows (devices : List SiteDevice) (alarms : List AlarmEventModel) :
    let rows := Tally.groupBy collation.group devices
    ∃ items, sites collation devices alarms = some items ∧
      List.Forall₂ (fun k item => item.Shows rows (alarmCounts collation alarms) k)
        (Keyset.orderBy id ((totalsOf rows).map Prod.fst)) items := by
  intro rows
  have htotals : (siteTotals collation devices).totals = totalsOf rows := by
    rw [siteTotals, foldl_add]
    rfl
  rw [sites, htotals]
  exact exists_mapM fun k hk => item_shows _ (Keyset.mem_orderBy.mp hk)

theorem counted_groupBy {devices : List SiteDevice} {p : SiteDevice → Bool}
    (hp : ∀ d d', collation.group d = collation.group d' → p d = p d') :
    counted (Tally.groupBy collation.group devices) p = devices.countP p :=
  Tally.weigh_groupBy hp devices

/-- The active alarms of a site, where the database takes no two texts for the same. -/
theorem alarmCounts_lookup (hkey : Function.Injective collation.key)
    (alarms : List AlarmEventModel) (k : String) :
    ((alarmCounts collation alarms).lookup k).getD 0 =
      alarms.countP fun a => a.siteId = k && collation.active a := by
  have hkeys : ((Tally.groupBy collation.key ((alarms.filter collation.active).map
      AlarmEventModel.siteId)).map fun p => collation.key p.1).Nodup :=
    @Tally.nodup_foldl _ _ _ _ _ collation.key [] id (fun _ m => m.getD 0 + 1) _ List.nodup_nil
  have hnodup : ((Tally.groupBy collation.key ((alarms.filter collation.active).map
      AlarmEventModel.siteId)).map Prod.fst).Nodup := by
    refine List.Nodup.of_map collation.key ?_
    rw [List.map_map]
    exact hkeys
  have hentries : alarmCounts collation alarms = Tally.groupBy collation.key
      ((alarms.filter collation.active).map AlarmEventModel.siteId) :=
    @Tally.foldl_entries _ _ _ _ id [] _ hnodup
  have hlookup := @Tally.weigh_lookup _ _ _ _ (fun m => m) k hnodup
  have hcount := @Tally.weigh_groupBy _ _ _ collation.key (fun s => s = k)
    (fun s s' heq => by rw [hkey heq]) ((alarms.filter collation.active).map AlarmEventModel.siteId)
  simp only [decide_eq_true_eq] at hcount
  have hsites : (alarms.filter collation.active).countP (fun a => a.siteId = k) =
      ((alarms.filter collation.active).map AlarmEventModel.siteId).countP fun s => s = k := by
    rw [List.countP_map]
    rfl
  rw [hentries, ← List.countP_filter, hsites, ← hcount, hlookup]
  simp

/-- The items come in the order of their sites, and their counts add up to all devices. Where the
database takes no two texts for the same, each count is that of the rows it stands for. -/
theorem sites_accounted (devices : List SiteDevice) (alarms : List AlarmEventModel) :
    ∃ items, sites collation devices alarms = some items ∧
      (items.map SiteItem.siteId).Pairwise (· < ·) ∧
      (items.map SiteItem.deviceCount).sum = devices.length ∧
      (∀ item ∈ items, item.displayName = item.siteId ∧
        (item.deviceTypeCounts.map Prod.snd).sum = item.deviceCount ∧
        (item.statusCounts.map Prod.snd).sum = item.deviceCount) ∧
      (Function.Injective collation.key → ∀ item ∈ items,
        item.deviceCount = devices.countP (fun d => d.siteId = item.siteId) ∧
        (∀ t, (item.deviceTypeCounts.lookup t).getD 0 =
          devices.countP fun d => d.siteId = item.siteId && d.deviceType = t) ∧
        (∀ t, (item.statusCounts.lookup t).getD 0 =
          devices.countP fun d => d.siteId = item.siteId && d.status = t) ∧
        item.activeAlarmCount =
          alarms.countP fun a => a.siteId = item.siteId && collation.active a) := by
  obtain ⟨items, hitems, hshows⟩ := sites_shows collation devices alarms
  have hnodup := nodup_totalsOf (Tally.groupBy collation.group devices)
  refine ⟨items, hitems, ?_, ?_, ?_, ?_⟩
  · rw [map_eq_of_forall₂ hshows fun k item h => h.site]
    have hsorted := @Keyset.pairwise_orderBy _ _ _ id _ (by simpa using hnodup)
    simpa using hsorted
  · rw [map_eq_of_forall₂ hshows fun k item h => h.devices,
      (Keyset.perm_orderBy.map _).sum_eq]
    have hweigh (k : String) := weigh_totalsOf (Tally.groupBy collation.group devices) fun s => s = k
    have hall := weigh_totalsOf (Tally.groupBy collation.group devices) fun _ => true
    have hkeys := @Tally.sum_weigh_keys _ _ _ _ (fun m => m) hnodup
    rw [counted_groupBy collation fun _ _ _ => rfl, List.countP_true] at hall
    simp only [decide_eq_true_eq] at hweigh
    simp only [hweigh] at hkeys
    rw [hkeys, ← hall]
    simp
  · intro item hitem
    obtain ⟨k, h⟩ := exists_of_forall₂ hshows hitem
    exact ⟨h.name.trans h.site.symm, h.types, h.statuses⟩
  · intro hkey item hitem
    obtain ⟨k, h⟩ := exists_of_forall₂ hshows hitem
    obtain rfl := h.site
    have hgroup (p : SiteDevice → Bool) := @counted_groupBy _ _ collation devices p fun d d' heq => by
      simp only [Collation.group, Prod.mk.injEq] at heq
      obtain ⟨hsite, htype, hstatus⟩ := heq
      obtain ⟨s, t, u⟩ := d
      obtain ⟨s', t', u'⟩ := d'
      obtain rfl : s = s' := hkey hsite
      obtain rfl : t = t' := hkey htype
      obtain rfl : u = u' := hkey hstatus
      rfl
    exact ⟨h.devices.trans (hgroup _), fun t => (h.byType t).trans (hgroup _),
      fun t => (h.byStatus t).trans (hgroup _),
      h.alarms.trans (alarmCounts_lookup collation hkey alarms _)⟩

/-- Three devices at two sites. -/
theorem sites_two :
    let devices : List SiteDevice :=
      [⟨"north", "inverter", "OK"⟩, ⟨"south", "meter", "OK"⟩, ⟨"north", "meter", "FAULT"⟩]
    ∃ items, sites ⟨id, fun s t => s == t⟩ devices [] = some items ∧
      (items.map SiteItem.deviceCount).sum = 3 ∧
      ∀ item ∈ items, item.deviceCount = devices.countP fun d => d.siteId = item.siteId := by
  intro devices
  obtain ⟨items, hitems, -, hsum, -, hcounts⟩ :=
    sites_accounted ⟨id, fun s t => s == t⟩ devices []
  exact ⟨items, hitems, hsum, fun item hitem => (hcounts Function.injective_id item hitem).1⟩

end items

end EnergyAgent.Catalog

import EnergyAgent.Lib.Keyset
import EnergyAgent.Lib.Lines
import EnergyAgent.Providers.Clients

/-!
# The vectors of many texts

`embed` sends the texts in batches, one after the other. A batch asks the breaker, tries again while the
service is overloaded or out of reach, and puts the vectors of an answer into the order of its texts: the
service may name them in any order. What comes of it is what the model says of each text by itself.
-/

namespace EnergyAgent.Providers

open EnergyAgent.Lib EnergyAgent.Reliability

/-! ## `embed` -/

/-- The rest of a function, behind a call that has not raised. -/
def CallEnd.andThen {α β : Type} (call : CallEnd α) (next : α → CallEnd β) : CallEnd β :=
  match call.result with
  | .ok value => ⟨call.reports ++ (next value).reports, (next value).result⟩
  | .error e => ⟨call.reports, .error e⟩

/-- `text[:16_000]` -/
def inputOf (text : String) : String := String.ofList (text.toList.take 16000)

/-- The settings of the provider; `embedding_batch_size` is `Field(ge=1)`. -/
structure EmbeddingProvider where
  dimension : Nat
  batchSize : Nat
  maxRetries : Nat
  batchSize_pos : 0 < batchSize

/-- What the batches meet, by their number: whether the breaker admits them, what comes back for the
inputs at each try, and whether they are cancelled in the sleep behind it. -/
structure EmbeddingCalls where
  admitted : Nat → Bool
  reply : Nat → Nat → List String → Reply
  interrupted : Nat → Nat → Bool

section embed

variable (parser : NumberParser) (provider : EmbeddingProvider) (calls : EmbeddingCalls)

/-- `_batch`, the `i`-th one. -/
def sendBatch (i : Nat) (texts : List String) : CallEnd (List (List Rat)) :=
  if calls.admitted i then
    embeddingBatch parser texts.length provider.dimension provider.maxRetries
      (fun k => calls.reply i k (texts.map inputOf)) (calls.interrupted i)
  else ⟨[], .error .embeddingUnavailable⟩

/-- The loop of `embed` from the `i`-th batch on, with `vectors` so far. -/
def embedFrom (i : Nat) (vectors : List (List Rat)) : List (List String) → CallEnd (List (List Rat))
  | [] => ⟨[], .ok vectors⟩
  | texts :: rest => (sendBatch parser provider calls i texts).andThen fun batch =>
      embedFrom (i + 1) (vectors ++ batch) rest

def embed (texts : List String) : CallEnd (List (List Rat)) :=
  embedFrom parser provider calls 0 [] (slices provider.batchSize texts)

end embed

/-! ## The service -/

/-- The item of an answer bears the vector of the `j`-th input. -/
structure Bears (parser : NumberParser) (vector : List Rat) (j : Nat) (item : Json) : Prop where
  index : ∃ index, item.get "index" (.int 0) = .ok index ∧ index.toInt parser = .ok (j : Int)
  embedding : ∃ numbers, item.get "embedding" = .ok (.arr numbers) ∧
    numbers.mapM (Json.toFloat parser) = .ok (vector.map .finite)

/-- The answer has one item for each input, in any order. -/
def Carries (parser : NumberParser) (vector : String → List Rat) (inputs : List String)
    (body : Json) : Prop :=
  ∃ (data : List Json) (item : Nat → Json), body.get "data" = .ok (.arr data) ∧
    data.Perm ((List.range inputs.length).map item) ∧
    ∀ j input, inputs[j]? = some input → Bears parser (vector input) j (item j)

/-- The reply is a success, with a body that is JSON. -/
def Reply.succeeds : Reply → Bool
  | .response status (some _) => 200 ≤ status ∧ status < 300
  | _ => false

/-- `_batch` tries again after the reply. -/
def Reply.triesAgain : Reply → Bool
  | .response status _ => overloaded status
  | .raised e => retried .embeddingUnavailable e

/-- The answers of the service are those of the model. -/
def Truthful (parser : NumberParser) (vector : String → List Rat) (calls : EmbeddingCalls) : Prop :=
  ∀ i k inputs status body, calls.reply i k inputs = .response status (some body) →
    200 ≤ status → status < 300 → Carries parser vector inputs body

/-- The batch is admitted, and one of its tries succeeds. -/
structure Served (provider : EmbeddingProvider) (calls : EmbeddingCalls) (i : Nat)
    (texts : List String) : Prop where
  admitted : calls.admitted i
  answered : ∃ n ≤ provider.maxRetries, (calls.reply i n (texts.map inputOf)).succeeds ∧
    ∀ k < n, (calls.reply i k (texts.map inputOf)).triesAgain ∧ calls.interrupted i k = false

/-! ## One answer -/

section answer

/-- A loop that never fails returns what each round returns. -/
theorem mapM_of_forall {m : Type → Type} [Monad m] [LawfulMonad m] {α β : Type} {f : α → m β}
    {g : α → β} {items : List α} (h : ∀ a ∈ items, f a = pure (g a)) :
    items.mapM f = pure (items.map g) := by
  induction items with
  | nil => rfl
  | cons a items ih =>
      rw [List.mapM_cons, h a List.mem_cons_self, pure_bind,
        ih fun b hb => h b (List.mem_cons_of_mem a hb), pure_bind, List.map_cons]

theorem map_range_get {α β : Type} (items : List α) (f : α → β) (default : β) :
    ((List.range items.length).map fun j => ((items[j]?).map f).getD default) = items.map f := by
  apply List.ext_getElem
  · simp
  · intro j hj hj'
    have hlt : j < items.length := by simpa using hj'
    simp [List.getElem?_eq_getElem hlt]

variable {parser : NumberParser} {vector : String → List Rat} {inputs : List String} {body : Json}
  {dimension : Nat}

/-- The items of an answer, sorted by their numbers, are in the order of the inputs. -/
theorem ordered_items {data : List Json} {item : Nat → Json} {key : Json → Int} {n : Nat}
    (hperm : data.Perm ((List.range n).map item)) (hkey : ∀ j < n, key (item j) = (j : Int)) :
    (((data.map fun item => (key item, item)).insertionSort fun a b => a.1 ≤ b.1).map Prod.snd) =
      (List.range n).map item := by
  have hmap : ((List.range n).map item).map (fun item => (key item, item)) =
      (List.range n).map fun j : Nat => ((j : Int), item j) := by
    rw [List.map_map]
    exact List.map_congr_left fun j hj => congrArg (·, item j) (hkey j (List.mem_range.mp hj))
  have hkeyed : (data.map fun item => (key item, item)).Perm
      ((List.range n).map fun j : Nat => ((j : Int), item j)) := hmap ▸ hperm.map _
  have hsorted : ((List.range n).map fun j : Nat => ((j : Int), item j)).Pairwise
      fun a b => a.1 < b.1 := by
    rw [List.pairwise_map]
    exact List.pairwise_lt_range.imp fun h => Int.ofNat_lt.mpr h
  have hnodup : ((data.map fun item => (key item, item)).map Prod.fst).Nodup := by
    refine (hkeyed.map Prod.fst).nodup_iff.mpr (List.pairwise_map.mpr ?_)
    exact hsorted.imp fun h => ne_of_lt h
  have horder : Keyset.orderBy Prod.fst (data.map fun item => (key item, item)) =
      (List.range n).map fun j : Nat => ((j : Int), item j) :=
    Keyset.eq_of_sorted (Keyset.perm_orderBy.trans hkeyed) (Keyset.pairwise_orderBy hnodup) hsorted
  show (Keyset.orderBy Prod.fst (data.map fun item => (key item, item))).map Prod.snd = _
  rw [horder, List.map_map]
  rfl

section items

variable {data : List Json} {item : Nat → Json} {vectorAt : Nat → List Rat} {n : Nat}

/-- The first loop gives each item its number. -/
theorem exists_numbers (hperm : data.Perm ((List.range n).map item))
    (hitem : ∀ j < n, Bears parser (vectorAt j) j (item j)) :
    ∃ key : Json → Int, (∀ j < n, key (item j) = (j : Int)) ∧
      data.mapM (fun item => do
        let index ← item.get "index" (.int 0)
        return (← index.toInt parser, item)) =
        (.ok (data.map fun entry => (key entry, entry)) : Except PyError (List (Int × Json))) := by
  let read : Json → Except PyError (Int × Json) := fun item => do
    let index ← item.get "index" (.int 0)
    return (← index.toInt parser, item)
  have hread : ∀ j < n, read (item j) = .ok ((j : Int), item j) := by
    intro j hj
    obtain ⟨index, hindex, hint⟩ := (hitem j hj).index
    show (do let index ← (item j).get "index" (.int 0); return (← index.toInt parser, item j)) = _
    rw [hindex]
    show (do return (← index.toInt parser, item j)) = _
    rw [hint]
    rfl
  have hall : ∀ entry ∈ data, ∃ k : Int, read entry = .ok (k, entry) := by
    intro entry hentry
    obtain ⟨j, hj, rfl⟩ := List.mem_map.mp (hperm.mem_iff.mp hentry)
    exact ⟨j, hread j (List.mem_range.mp hj)⟩
  choose! key hkey using hall
  refine ⟨key, fun j hj => ?_, mapM_of_forall hkey⟩
  have hentry : item j ∈ data :=
    hperm.mem_iff.mpr (List.mem_map.mpr ⟨j, List.mem_range.mpr hj, rfl⟩)
  have hboth := (hkey (item j) hentry).symm.trans (hread j hj)
  exact congrArg Prod.fst (Except.ok.inj hboth)

/-- The other loops read the vectors. -/
theorem exists_lists (hitem : ∀ j < n, Bears parser (vectorAt j) j (item j)) :
    ∃ lists : List (List Json),
      ((List.range n).map item).mapM (fun item => item.get "embedding") =
        (.ok (lists.map .arr) : Except PyError (List Json)) ∧
      lists.mapM (fun vector => vector.mapM fun value => value.toFloat parser) =
        (.ok (((List.range n).map vectorAt).map fun vector => vector.map .finite) :
          Except PyError (List (List PyFloat))) := by
  choose! numbers hnumbers hfloats using fun j hj => (hitem j hj).embedding
  refine ⟨(List.range n).map numbers, ?_, ?_⟩
  · rw [List.mapM_map, List.map_map]
    exact mapM_of_forall fun j hj => hnumbers j (List.mem_range.mp hj)
  · rw [List.mapM_map, List.map_map]
    exact mapM_of_forall fun j hj => hfloats j (List.mem_range.mp hj)

theorem mapM_asList (lists : List (List Json)) : (lists.map Json.arr).mapM Json.asList = some lists := by
  rw [List.mapM_map]
  exact (mapM_of_forall (g := id) fun _ _ => rfl).trans (congrArg some (List.map_id _))

theorem mapM_finite (vectors : List (List Rat)) :
    (vectors.map fun vector => vector.map PyFloat.finite).mapM
      (fun vector => vector.mapM PyFloat.value) = some vectors := by
  have hall : ∀ vector : List Rat, (vector.map PyFloat.finite).mapM PyFloat.value = some vector := by
    intro vector
    rw [List.mapM_map]
    exact (mapM_of_forall (g := id) fun _ _ => rfl).trans (congrArg some (List.map_id _))
  rw [List.mapM_map]
  exact (mapM_of_forall (g := id) fun vector _ => hall vector).trans (congrArg some (List.map_id _))

theorem any_finite (vectors : List (List Rat)) :
    ((vectors.map fun vector => vector.map PyFloat.finite).any fun vector => vector.length ≠ dimension) =
      vectors.any fun vector => vector.length ≠ dimension := by
  rw [List.any_map]
  apply congrArg (vectors.any ·)
  funext vector
  show decide ((vector.map PyFloat.finite).length ≠ dimension) = _
  rw [List.length_map]

end items

/-- **An answer of the model is read as the vectors of the inputs**, if these have the dimension. -/
theorem readEmbeddings_of_carries (h : Carries parser vector inputs body) :
    readEmbeddings parser inputs.length dimension body =
      if (inputs.map vector).any (fun vector => vector.length ≠ dimension) then
        .error .embeddingDimension
      else .ok (inputs.map vector) := by
  obtain ⟨data, item, hdata, hperm, hbears⟩ := h
  have hitem : ∀ j < inputs.length, Bears parser (((inputs[j]?).map vector).getD []) j (item j) := by
    intro j hj
    have hget := List.getElem?_eq_getElem hj
    have hbear := hbears j _ hget
    rw [hget]
    exact hbear
  obtain ⟨key, hkey, hkeyed⟩ := exists_numbers hperm hitem
  obtain ⟨lists, hlists, htyped⟩ := exists_lists hitem
  rw [map_range_get] at htyped
  have hordered := ordered_items hperm hkey
  have hcount : ¬ data.length ≠ inputs.length := not_not.mpr (by simpa using hperm.length_eq)
  have hbind : ∀ {α β : Type} (value : α) (next : α → Except ProviderError β),
      (Except.ok value >>= next) = next value := fun _ _ => rfl
  have hlist : ∀ items, (Json.arr items).asList = some items := fun _ => rfl
  have hok : ∀ {α : Type} (value : α),
      reading (.ok value : Except PyError α) = .ok value := fun _ => rfl
  unfold readEmbeddings
  simp only [hdata, hok, hbind, hlist, if_neg hcount, hkeyed, hordered, hlists, mapM_asList, htyped,
    mapM_finite, any_finite]
  by_cases hdimension : (inputs.map vector).any (fun vector => vector.length ≠ dimension)
  · rw [if_pos hdimension, if_pos hdimension]
    rfl
  · rw [if_neg hdimension, if_neg hdimension]
    rfl

end answer

/-! ## The tries of a batch -/

section tries

variable {α : Type} {unavailable : ProviderError} {invalid : List ProviderError}
  {read : Json → Except ProviderError α} {replies : Nat → Reply} {interrupted : Nat → Bool}

/-- After `n` tries that are repeated comes one that reads the value. -/
def ReadsAfter (unavailable : ProviderError) (read : Json → Except ProviderError α)
    (replies : Nat → Reply) (interrupted : Nat → Bool) (value : α) (k n : Nat) : Prop :=
  attempt unavailable read (replies (k + n)) = .ok value ∧
    ∀ j < n, interrupted (k + j) = false ∧
      ∃ e, attempt unavailable read (replies (k + j)) = .error e ∧ retried unavailable e

theorem ReadsAfter.zero {value : α} {k n : Nat} {found : α}
    (h : ReadsAfter unavailable read replies interrupted value k n)
    (hfound : attempt unavailable read (replies k) = .ok found) : found = value := by
  obtain ⟨hok, hbefore⟩ := h
  cases n with
  | zero =>
      rw [Nat.add_zero, hfound] at hok
      exact Except.ok.inj hok
  | succ n =>
      obtain ⟨-, e, herror, -⟩ := hbefore 0 (Nat.succ_pos n)
      rw [Nat.add_zero, hfound] at herror
      cases herror

theorem ReadsAfter.succ {value : α} {k n : Nat} {e : ProviderError}
    (h : ReadsAfter unavailable read replies interrupted value k n)
    (herror : attempt unavailable read (replies k) = .error e) :
    ∃ m, n = m + 1 ∧ interrupted k = false ∧ retried unavailable e ∧
      ReadsAfter unavailable read replies interrupted value (k + 1) m := by
  obtain ⟨hok, hbefore⟩ := h
  cases n with
  | zero =>
      rw [Nat.add_zero, herror] at hok
      cases hok
  | succ m =>
      obtain ⟨hawake, e', herror', hretried⟩ := hbefore 0 (Nat.succ_pos m)
      rw [Nat.add_zero] at hawake herror'
      cases herror.symm.trans herror'
      refine ⟨m, rfl, hawake, hretried, ?_, fun j hj => ?_⟩
      · rwa [Nat.add_right_comm, Nat.add_assoc]
      · have hnext := hbefore (j + 1) (Nat.succ_lt_succ hj)
        rwa [Nat.add_right_comm k 1 j, Nat.add_assoc k j 1]

theorem ReadsAfter.cons {value : α} {k m : Nat} {e : ProviderError}
    (h : ReadsAfter unavailable read replies interrupted value (k + 1) m)
    (herror : attempt unavailable read (replies k) = .error e) (hretried : retried unavailable e)
    (hawake : interrupted k = false) :
    ReadsAfter unavailable read replies interrupted value k (m + 1) := by
  obtain ⟨hok, hbefore⟩ := h
  refine ⟨by rwa [Nat.add_right_comm, Nat.add_assoc] at hok, fun j hj => ?_⟩
  cases j with
  | zero => exact ⟨hawake, e, herror, hretried⟩
  | succ j =>
      have hnext := hbefore j (Nat.lt_of_succ_lt_succ hj)
      rwa [Nat.add_right_comm k 1 j, Nat.add_assoc k j 1] at hnext

/-- A first try that reads something is not repeated. -/
theorem exists_readsAfter_of_ok {value found : α} {left k : Nat}
    (h : attempt unavailable read (replies k) = .ok found) :
    (∃ n ≤ left, ReadsAfter unavailable read replies interrupted value k n) ↔ found = value := by
  constructor
  · rintro ⟨n, -, hreads⟩
    exact hreads.zero h
  · rintro rfl
    exact ⟨0, Nat.zero_le _, h, fun j hj => absurd hj (Nat.not_lt_zero j)⟩

/-- **A loop returns what the first try that is not repeated has read**, and reports a success. -/
theorem retryLoop_ok_iff {left k : Nat} {reports : List Report} {value : α} :
    retryLoop unavailable invalid read replies interrupted left k = ⟨reports, .ok value⟩ ↔
      reports = [.success] ∧
        ∃ n ≤ left, ReadsAfter unavailable read replies interrupted value k n := by
  induction left generalizing k with
  | zero =>
      unfold retryLoop
      cases hattempt : attempt unavailable read (replies k) with
      | ok found =>
          show (⟨[.success], .ok found⟩ : CallEnd α) = _ ↔ _
          rw [exists_readsAfter_of_ok hattempt, CallEnd.mk.injEq, Except.ok.injEq]
          exact and_congr_left fun _ => eq_comm
      | error e =>
          refine iff_of_false ?_ ?_
          · by_cases hretried : retried unavailable e
            · simp [hretried]
            · by_cases hinvalid : e ∈ invalid <;> simp [hretried, hinvalid]
          · rintro ⟨-, n, hn, hreads⟩
            obtain ⟨m, rfl, -⟩ := hreads.succ hattempt
            exact absurd hn (Nat.not_succ_le_zero m)
  | succ left ih =>
      unfold retryLoop
      cases hattempt : attempt unavailable read (replies k) with
      | ok found =>
          show (⟨[.success], .ok found⟩ : CallEnd α) = _ ↔ _
          rw [exists_readsAfter_of_ok hattempt, CallEnd.mk.injEq, Except.ok.injEq]
          exact and_congr_left fun _ => eq_comm
      | error e =>
          by_cases hagain : retried unavailable e ∧ interrupted k = false
          · obtain ⟨hretried, hawake⟩ := hagain
            simp only [hretried, if_true, hawake, Bool.false_eq_true, if_false]
            rw [ih]
            refine and_congr_right fun _ => ⟨?_, ?_⟩
            · rintro ⟨n, hn, hreads⟩
              exact ⟨n + 1, Nat.succ_le_succ hn, hreads.cons hattempt hretried hawake⟩
            · rintro ⟨n, hn, hreads⟩
              obtain ⟨m, rfl, -, -, hreads⟩ := hreads.succ hattempt
              exact ⟨m, Nat.le_of_succ_le_succ hn, hreads⟩
          · -- the loop ends with this try
            refine iff_of_false ?_ ?_
            · by_cases hretried : retried unavailable e
              · have hasleep : interrupted k = true :=
                  Bool.not_eq_false _ ▸ fun hawake => hagain ⟨hretried, hawake⟩
                simp [hretried, hasleep]
              · by_cases hinvalid : e ∈ invalid <;> simp [hretried, hinvalid]
            · rintro ⟨-, n, -, hreads⟩
              obtain ⟨-, -, hawake, hretried, -⟩ := hreads.succ hattempt
              exact hagain ⟨hretried, hawake⟩

end tries

/-! ## All batches -/

section batches

variable {parser : NumberParser} {provider : EmbeddingProvider} {calls : EmbeddingCalls}
  {vector : String → List Rat}

/-- What a try comes to, as far as the loop looks at it. -/
structure TriedAs (vector : String → List Rat) (inputs : List String) (dimension : Nat)
    (reply : Reply) (tried : Except ProviderError (List (List Rat))) : Prop where
  value : ∀ vectors, tried = .ok vectors ↔ reply.succeeds ∧
    (∀ input ∈ inputs, (vector input).length = dimension) ∧ vectors = inputs.map vector
  again : (∃ e, tried = .error e ∧ retried .embeddingUnavailable e) ↔ reply.triesAgain

theorem TriedAs.of_error {inputs : List String} {dimension : Nat} {reply : Reply} {e : ProviderError}
    (hfailed : reply.succeeds = false)
    (hagain : reply.triesAgain = retried .embeddingUnavailable e) :
    TriedAs vector inputs dimension reply (.error e) where
  value := by
    intro vectors
    simp [hfailed]
  again := by
    rw [hagain]
    constructor
    · rintro ⟨e', heq, hretried⟩
      cases heq
      exact hretried
    · intro hretried
      exact ⟨e, rfl, hretried⟩

/-- The dimension of an answer is checked without another try. -/
theorem triedAs_read {inputs : List String} {dimension status : Nat} {body : Json}
    (h : Carries parser vector inputs body) (hstatus : 200 ≤ status ∧ status < 300)
    (hoverloaded : overloaded status = false) :
    TriedAs vector inputs dimension (.response status (some body))
      (readEmbeddings parser inputs.length dimension body) := by
  have hsucceeds : (Reply.response status (some body)).succeeds = true := decide_eq_true hstatus
  have hdimension : (inputs.map vector).any (fun vector => vector.length ≠ dimension) = true ↔
      ¬ ∀ input ∈ inputs, (vector input).length = dimension := by
    simp
  rw [readEmbeddings_of_carries h]
  by_cases hany : (inputs.map vector).any fun vector => vector.length ≠ dimension
  · rw [if_pos hany]
    constructor
    · intro vectors
      exact iff_of_false (by simp) fun hboth => hdimension.mp hany hboth.2.1
    · refine iff_of_false ?_ (Bool.eq_false_iff.mp hoverloaded)
      rintro ⟨e, herror, hretried⟩
      cases herror
      exact absurd hretried (by decide)
  · rw [if_neg hany]
    constructor
    · intro vectors
      rw [and_iff_right hsucceeds, and_iff_right (not_not.mp (mt hdimension.mpr hany)),
        Except.ok.injEq]
      exact eq_comm
    · refine iff_of_false ?_ (Bool.eq_false_iff.mp hoverloaded)
      rintro ⟨e, herror, -⟩
      cases herror

theorem triedAs_attempt {inputs : List String} {dimension : Nat} {reply : Reply}
    (h : ∀ status body, reply = .response status (some body) → 200 ≤ status → status < 300 →
      Carries parser vector inputs body) :
    TriedAs vector inputs dimension reply
      (attempt .embeddingUnavailable (readEmbeddings parser inputs.length dimension) reply) := by
  cases reply with
  | raised e => exact .of_error rfl rfl
  | response status body =>
      show TriedAs vector inputs dimension (.response status body)
        (if overloaded status then .error .embeddingUnavailable else do
          let json ← Reply.jsonOf status body
          readEmbeddings parser inputs.length dimension json)
      have hfailed : ¬ (200 ≤ status ∧ status < 300) →
          (Reply.response status body).succeeds = false := by
        intro hstatus
        cases body with
        | none => rfl
        | some body => exact decide_eq_false hstatus
      by_cases hoverloaded : overloaded status
      · have hstatus : status = 429 ∨ 500 ≤ status := of_decide_eq_true hoverloaded
        rw [if_pos hoverloaded]
        exact .of_error (hfailed (by omega)) hoverloaded
      · have hagain : (Reply.response status body).triesAgain = false :=
          Bool.eq_false_iff.mpr hoverloaded
        rw [if_neg hoverloaded]
        unfold Reply.jsonOf
        by_cases hstatus : status < 200 ∨ 300 ≤ status
        · rw [if_pos hstatus]
          exact .of_error (hfailed (by omega)) hagain
        · rw [if_neg hstatus]
          cases body with
          | none => exact .of_error rfl hagain
          | some body =>
              have hwithin : 200 ≤ status ∧ status < 300 := by omega
              exact triedAs_read (h status body rfl hwithin.1 hwithin.2) hwithin hagain

/-- **A batch returns the vectors of its texts exactly if it is served.** -/
theorem sendBatch_ok_iff (htruth : Truthful parser vector calls) {i : Nat} {texts : List String}
    {reports : List Report} {vectors : List (List Rat)} :
    sendBatch parser provider calls i texts = ⟨reports, .ok vectors⟩ ↔
      reports = [.success] ∧ Served provider calls i texts ∧
        (∀ text ∈ texts, (vector (inputOf text)).length = provider.dimension) ∧
        vectors = texts.map fun text => vector (inputOf text) := by
  unfold sendBatch
  by_cases hadmitted : calls.admitted i
  · rw [if_pos hadmitted]
    unfold embeddingBatch
    rw [retryLoop_ok_iff]
    refine and_congr_right fun _ => ?_
    have htried : ∀ k, TriedAs vector (texts.map inputOf) provider.dimension
        (calls.reply i k (texts.map inputOf)) (attempt .embeddingUnavailable
          (readEmbeddings parser texts.length provider.dimension)
          (calls.reply i k (texts.map inputOf))) := by
      intro k
      have hlength : texts.length = (texts.map inputOf).length := (List.length_map inputOf).symm
      rw [hlength]
      exact triedAs_attempt (htruth i k (texts.map inputOf))
    constructor
    · rintro ⟨n, hn, hok, hbefore⟩
      obtain ⟨hsucceeds, hdimension, rfl⟩ := ((htried (0 + n)).value _).mp hok
      rw [Nat.zero_add] at hsucceeds
      refine ⟨⟨hadmitted, n, hn, hsucceeds, fun k hk => ?_⟩, ?_, ?_⟩
      · obtain ⟨hawake, hretried⟩ := hbefore k hk
        rw [Nat.zero_add] at hawake
        refine ⟨(htried k).again.mp ?_, hawake⟩
        rwa [Nat.zero_add] at hretried
      · intro text htext
        exact hdimension _ (List.mem_map_of_mem htext)
      · rw [List.map_map]
        rfl
    · rintro ⟨⟨-, n, hn, hsucceeds, hbefore⟩, hdimension, rfl⟩
      refine ⟨n, hn, ?_, fun k hk => ?_⟩
      · rw [Nat.zero_add]
        refine ((htried n).value _).mpr ⟨hsucceeds, ?_, ?_⟩
        · intro input hinput
          obtain ⟨text, htext, rfl⟩ := List.mem_map.mp hinput
          exact hdimension text htext
        · rw [List.map_map]
          rfl
      · rw [Nat.zero_add]
        obtain ⟨hagain, hawake⟩ := hbefore k hk
        exact ⟨hawake, (htried k).again.mpr hagain⟩
  · rw [if_neg hadmitted]
    refine iff_of_false (by simp) ?_
    rintro ⟨-, hserved, -⟩
    exact hadmitted hserved.admitted

theorem CallEnd.andThen_ok_iff {α β : Type} {call : CallEnd α} {next : α → CallEnd β}
    {reports : List Report} {value : β} :
    call.andThen next = ⟨reports, .ok value⟩ ↔
      ∃ before found after, call = ⟨before, .ok found⟩ ∧ next found = ⟨after, .ok value⟩ ∧
        reports = before ++ after := by
  obtain ⟨before, result⟩ := call
  unfold CallEnd.andThen
  cases result with
  | error e =>
      refine iff_of_false (by simp) ?_
      rintro ⟨_, _, _, hcall, -⟩
      cases hcall
  | ok found =>
      show (⟨before ++ (next found).reports, (next found).result⟩ : CallEnd β) = _ ↔ _
      constructor
      · intro h
        injection h with hreports hresult
        refine ⟨before, found, (next found).reports, rfl, ?_, hreports.symm⟩
        rw [← hresult]
      · rintro ⟨_, _, after, hcall, hnext, rfl⟩
        cases hcall
        rw [hnext]

theorem embedFrom_ok_iff (htruth : Truthful parser vector calls) {batches : List (List String)}
    {i : Nat} {before vectors : List (List Rat)} {reports : List Report} :
    embedFrom parser provider calls i before batches = ⟨reports, .ok vectors⟩ ↔
      reports = List.replicate batches.length .success ∧
        (∀ j batch, batches[j]? = some batch → Served provider calls (i + j) batch) ∧
        (∀ text ∈ batches.flatten, (vector (inputOf text)).length = provider.dimension) ∧
        vectors = before ++ batches.flatten.map fun text => vector (inputOf text) := by
  induction batches generalizing i before reports with
  | nil =>
      unfold embedFrom
      simp [eq_comm]
  | cons texts rest ih =>
      unfold embedFrom
      rw [CallEnd.andThen_ok_iff]
      constructor
      · rintro ⟨_, _, _, hbatch, hrest, rfl⟩
        obtain ⟨rfl, hserved, hdimension, rfl⟩ := (sendBatch_ok_iff htruth).mp hbatch
        obtain ⟨rfl, hservedRest, hdimensionRest, rfl⟩ := ih.mp hrest
        refine ⟨rfl, ?_, ?_, ?_⟩
        · intro j batch hget
          cases j with
          | zero => exact Option.some.inj hget ▸ hserved
          | succ j =>
              have hindex : i + (j + 1) = i + 1 + j := by omega
              rw [hindex]
              exact hservedRest j batch hget
        · intro text htext
          rw [List.flatten_cons, List.mem_append] at htext
          exact htext.elim (hdimension text) (hdimensionRest text)
        · rw [List.flatten_cons, List.map_append, List.append_assoc]
      · rintro ⟨rfl, hserved, hdimension, rfl⟩
        refine ⟨[.success], _, _, (sendBatch_ok_iff htruth).mpr ⟨rfl, ?_, ?_, rfl⟩,
          ih.mpr ⟨rfl, ?_, ?_, ?_⟩, rfl⟩
        · exact hserved 0 texts rfl
        · intro text htext
          exact hdimension text (List.mem_append_left _ htext)
        · intro j batch hget
          have hindex : i + 1 + j = i + (j + 1) := by omega
          rw [hindex]
          exact hserved (j + 1) batch hget
        · intro text htext
          exact hdimension text (List.mem_append_right _ htext)
        · rw [List.flatten_cons, List.map_append, List.append_assoc]

end batches

/-- **Embedding texts in batches is embedding each of them.** When the answers of the service are those
of the model, `embed` returns the vector of every text in its place, however the answers are ordered and
however often a batch is sent; and it returns them exactly if each batch is served. -/
theorem embed_exact {parser : NumberParser} {provider : EmbeddingProvider} {calls : EmbeddingCalls}
    {vector : String → List Rat} (htruth : Truthful parser vector calls) (texts : List String)
    (reports : List Report) (vectors : List (List Rat)) :
    embed parser provider calls texts = ⟨reports, .ok vectors⟩ ↔
      vectors = texts.map (fun text => vector (inputOf text)) ∧
        (∀ text ∈ texts, (vector (inputOf text)).length = provider.dimension) ∧
        (∀ i batch, (slices provider.batchSize texts)[i]? = some batch →
          Served provider calls i batch) ∧
        reports = List.replicate (slices provider.batchSize texts).length .success := by
  have hflatten := flatten_slices provider.batchSize_pos texts
  unfold embed
  rw [embedFrom_ok_iff htruth, hflatten, List.nil_append]
  simp only [Nat.zero_add]
  constructor
  · rintro ⟨hreports, hserved, hdimension, hvectors⟩
    exact ⟨hvectors, hdimension, hserved, hreports⟩
  · rintro ⟨hvectors, hdimension, hserved, hreports⟩
    exact ⟨hreports, hserved, hdimension, hvectors⟩

/-! ## Three texts in two batches -/

/-- The lengths of texts for vectors. -/
def lengthVector (text : String) : List Rat := [(text.length : Rat)]

def lengthItem (inputs : List String) (j : Nat) : Json :=
  .obj [("index", .int j), ("embedding", .arr [.float (.finite ((inputs[j]?).getD "").length)])]

/-- An answer that begins with the last text. -/
def lengthAnswer (inputs : List String) : Json :=
  .obj [("data", .arr ((List.range inputs.length).map (lengthItem inputs)).reverse)]

/-- The service is overloaded at first. -/
def lengthCalls : EmbeddingCalls where
  admitted := fun _ => true
  reply := fun i k inputs =>
    if i = 0 ∧ k = 0 then .response 503 none else .response 200 (some (lengthAnswer inputs))
  interrupted := fun _ _ => false

def lengthParser : NumberParser := ⟨fun _ => none, fun _ => none⟩

theorem truthful_lengthCalls : Truthful lengthParser lengthVector lengthCalls := by
  intro i k inputs status body hreply _ _
  have hbody : body = lengthAnswer inputs := by
    change (if i = 0 ∧ k = 0 then Reply.response 503 none
      else .response 200 (some (lengthAnswer inputs))) = _ at hreply
    split at hreply
    · cases hreply
    · cases hreply
      rfl
  rw [hbody]
  refine ⟨_, lengthItem inputs, rfl, List.reverse_perm _, fun j input hget => ⟨?_, ?_⟩⟩
  · exact ⟨.int j, rfl, rfl⟩
  · refine ⟨_, rfl, ?_⟩
    rw [hget]
    rfl

def lengthProvider : EmbeddingProvider := ⟨1, 2, 2, by decide⟩

theorem embed_lengths : embed lengthParser lengthProvider lengthCalls ["a", "bb", "ccc"] =
    ⟨[.success, .success], .ok [[1], [2], [3]]⟩ := by
  refine (embed_exact truthful_lengthCalls _ _ _).mpr ⟨by decide, by decide, ?_, rfl⟩
  intro i batch hget
  rcases i with _ | _ | i
  · -- the second try is answered
    refine ⟨rfl, 1, by decide, rfl, fun k hk => ?_⟩
    rw [Nat.lt_one_iff.mp hk]
    exact ⟨rfl, rfl⟩
  · exact ⟨rfl, 0, by decide, rfl, fun k hk => absurd hk (Nat.not_lt_zero k)⟩
  · cases hget

end EnergyAgent.Providers

import EnergyAgent.Cases.History
import EnergyAgent.Cases.Reviews

/-!
# A review that is sent again

A later `review_diagnosis` with the key of one that has succeeded finds the same review for good. It
finds its case by the review that the case comes from, which is the case of the first call as long as
there is no other: a revision copies the review of its original, and from then on the lookup raises.
-/

namespace EnergyAgent.Cases

open EnergyAgent.Core EnergyAgent.Lib EnergyAgent.Persistence EnergyAgent.Indexing

variable {γ : Type}

/-! ## The condition -/

/-- A later call with the key finds what the first one has left: the latest result still supports
the payload, and the review with the key has one case, which can be read. -/
structure Replayable (d : ReviewDesk γ) (call : CaseCall) (key sessionId : String)
    (payload : DiagnosisReviewRequest) : Prop where
  truthy : key ≠ ""
  actor : call.mayReview = true
  supported : ∃ result, d.latestResult sessionId = some result ∧ result.knows payload = true ∧
    result.allows payload = true
  found : ∃ review row, d.reviewWithKey sessionId key = some review ∧
    d.casesOf review.reviewId = [row] ∧ Readable row

instance (d : ReviewDesk γ) (call : CaseCall) (key sessionId : String)
    (payload : DiagnosisReviewRequest) : Decidable (Replayable d call key sessionId payload) :=
  decidable_of_iff (key ≠ "" ∧ call.mayReview = true ∧
      (∃ result ∈ d.latestResult sessionId, result.knows payload = true ∧ result.allows payload = true) ∧
      ∃ review ∈ d.reviewWithKey sessionId key, ∃ row ∈ d.casesOf review.reviewId,
        d.casesOf review.reviewId = [row] ∧ Readable row)
    ⟨fun ⟨htruthy, hactor, hsupported, review, hreview, row, _, hone, hread⟩ =>
      ⟨htruthy, hactor, hsupported, review, row, hreview, hone, hread⟩,
    fun ⟨htruthy, hactor, hsupported, review, row, hreview, hone, hread⟩ =>
      ⟨htruthy, hactor, hsupported, review, hreview, row, by simp [hone], hone, hread⟩⟩

/-! ## What stays -/

/-- The case comes from the review. -/
def ComesFrom (caseId reviewId : String) (w : World γ) : Prop :=
  ∃ row, w.getCase caseId = some row ∧ row.sourceReviewId = reviewId

theorem stable_comesFrom (caseId reviewId : String) :
    caseWrites.Stable (ComesFrom (γ := γ) caseId reviewId) := by
  rintro w w' ⟨-, ⟨mark, hwrite⟩, -⟩ ⟨row, hrow, hreview⟩
  obtain ⟨row', hrow', hmoves⟩ := hwrite.moves hrow
  exact ⟨row', hrow', hmoves.sourceReviewId.trans hreview⟩

/-- The case ids are distinct. -/
def DistinctIds (w : World γ) : Prop := (w.cases.map (·.caseId)).Nodup

theorem stable_distinctIds : caseWrites.Stable (DistinctIds (γ := γ)) := by
  rintro w w' ⟨-, ⟨mark, hwrite⟩, -⟩ hids
  exact hwrite.ids hids

/-- What the desk has become: the accesses of the case service have kept their contract, and the
reviews are still there. -/
structure Later (d d' : ReviewDesk γ) : Prop where
  world : caseWrites.rely d.world d'.world
  reviews : d.reviews <+: d'.reviews

theorem Later.refl (d : ReviewDesk γ) : Later d d := ⟨.refl, List.prefix_refl _⟩

theorem Later.trans {d₁ d₂ d₃ : ReviewDesk γ} (h : Later d₁ d₂) (h' : Later d₂ d₃) : Later d₁ d₃ :=
  ⟨h.world.trans h'.world, h.reviews.trans h'.reviews⟩

theorem Later.reviewWithKey {d d' : ReviewDesk γ} (h : Later d d') {sessionId key : String}
    {review : DiagnosisReviewModel} (hreview : d.reviewWithKey sessionId key = some review) :
    d'.reviewWithKey sessionId key = some review :=
  h.reviews.find?_eq_some hreview

/-! ## What a review does -/

theorem later_onCases {α : Type} {x : Service γ α}
    (h : ∀ w, caseWrites.rely w (x w).2) (d : ReviewDesk γ) : Later d (onCases x d).2 := by
  unfold onCases
  have hd := h d.world
  cases hx : x d.world with
  | mk r w =>
      rw [hx] at hd
      cases r <;> exact ⟨hd, List.prefix_refl _⟩

theorem rely_createDraft (call : CaseCall) (draft : DraftValues) (w : World γ) :
    caseWrites.rely w (createDraft call draft w).2 := by
  have hrun : (Interleaved.createDraft call draft : ServiceThread γ _).run = createDraft call draft := by
    simp only [Interleaved.createDraft, createDraft, Thread.run_bind, Interleaved.run_access,
      Interleaved.draftValues]
  have hsafe := safe_request (s := w) ⟨.sync, ⟨1, by decide⟩, true⟩ call (.createDraft draft)
  have hrely := Thread.Safe.rely_run hsafe trivial
  rw [show Interleaved.request ⟨.sync, ⟨1, by decide⟩, true⟩ call (.createDraft draft) =
    Interleaved.createDraft call draft from rfl, hrun] at hrely
  exact hrely

theorem keeps_of_later {α : Type} {x : Reviewing γ α} (h : ∀ d, Later d (x d).2)
    (d₀ : ReviewDesk γ) : Prog.Keeps (Later d₀) x :=
  .of_snd fun d hd => hd.trans (h d)

theorem appendReview_eq_ok {values review : DiagnosisReviewModel} {d d' : ReviewDesk γ}
    (h : appendReview values d = .ok (review, d')) :
    ((Text.truthy values.idempotencyKey).bind (d.reviewWithKey values.sessionId) = some review ∧
      review.requestHash = values.requestHash ∧ d' = d) ∨
    (values.idempotencyKey.bind (d.reviewWithKey values.sessionId) = none ∧ review = values ∧
      d' = { d with reviews := d.reviews ++ [values] }) := by
  unfold appendReview at h
  split at h
  · next existing hexisting =>
      split at h
      · cases h
      · next hhash =>
          cases h
          exact Or.inl ⟨hexisting, not_not.mp hhash, rfl⟩
  · split at h
    · cases h
    · next hfree =>
        cases h
        rw [not_or, Option.not_isSome_iff_eq_none] at hfree
        exact Or.inr ⟨hfree.1, rfl, rfl⟩

theorem later_appendReview {values review : DiagnosisReviewModel} {d d' : ReviewDesk γ}
    (h : appendReview values d = .ok (review, d')) : Later d d' := by
  rcases appendReview_eq_ok h with ⟨-, -, rfl⟩ | ⟨-, -, rfl⟩
  · exact Later.refl _
  · exact ⟨.refl, List.prefix_append _ _⟩

theorem onCases_record (row : DiagnosisCaseModel) (d : ReviewDesk γ) :
    onCases (Prog.lift (caseRecord row)) d = ((caseRecord row).mapError .case, d) := by
  unfold onCases
  rw [Prog.lift_apply]
  cases caseRecord row <;> rfl

theorem keeps_getByReview {I : ReviewDesk γ → Prop} (reviewId : String) :
    Prog.Keeps I (getByReview reviewId) := by
  unfold getByReview
  refine .bind (.read _) (fun found => ?_)
  match found with
  | [] => exact .pure _
  | [row] =>
      refine .bind (.of_snd fun d hd => ?_) (fun _ => .pure _)
      rw [onCases_record]
      exact hd
  | _ :: _ :: _ => exact .raise _

/-- The whole of `review_diagnosis`, whatever it returns or raises. -/
theorem later_reviewDiagnosis (call : CaseCall) (newReviewId : NewId) (sessionId : String)
    (payload : DiagnosisReviewRequest) (d : ReviewDesk γ) :
    Later d (reviewDiagnosis call newReviewId sessionId payload d).2 := by
  have hsession : ∀ f : DiagnosisSessionModel → DiagnosisSessionModel,
      Prog.Keeps (Later d) (Prog.write (updateSession sessionId f) : Reviewing γ Unit) :=
    fun f => .write fun _ h => ⟨h.world, h.reviews⟩
  have hfollow : ∀ result reviewId,
      Prog.Keeps (Later d) (followReview call sessionId result reviewId payload : Reviewing γ _) := by
    intro result reviewId
    unfold followReview
    cases payload.reviewResult with
    | confirmed =>
        refine .bind (keeps_getByReview _) (fun found => ?_)
        cases found with
        | some case => exact .pure _
        | none =>
            refine .bind (.bind (.read _) (fun session => ?_)) (fun _ => .pure _)
            split
            · exact keeps_of_later (later_onCases (rely_createDraft call _)) d
            · exact .raise _
    | needsMoreInfo => exact .bind (hsession _) (fun _ => .pure _)
    | rejected => exact .bind (hsession _) (fun _ => .pure _)
  refine Prog.Keeps.snd (I := Later d) ?_ (Later.refl d)
  unfold reviewDiagnosis
  refine .bind (.read _) (fun session => .bind (.read _) (fun result => ?_))
  split
  · refine .bind .raiseIf (fun _ => .bind .raiseIf (fun _ => .bind .raiseIf (fun _ =>
      .bind .raiseIf (fun _ => .bind (.transaction fun d₁ review d₂ hd h => ?_) (fun _ =>
        .bind (hfollow _ _) (fun _ => .pure _))))))
    exact hd.trans (later_appendReview h)
  · exact .raise _

/-- `get_by_review` returns: there is no case, or one that can be read. -/
theorem getByReview_eq_ok {reviewId : String} {found : Option DiagnosisCase} {d d' : ReviewDesk γ}
    (h : getByReview reviewId d = (.ok found, d')) :
    d' = d ∧ ((found = none ∧ d.casesOf reviewId = []) ∨
      ∃ case, found = some case ∧ d.casesOf reviewId = [case.row]) := by
  unfold getByReview at h
  rw [Prog.bind_read] at h
  match hfound : d.casesOf reviewId with
  | [] =>
      rw [hfound] at h
      cases h
      exact ⟨rfl, Or.inl ⟨rfl, rfl⟩⟩
  | [row] =>
      rw [hfound] at h
      obtain ⟨case, d₁, hrecord, hend⟩ := Prog.bind_eq_ok h
      cases hend
      rw [onCases_record] at hrecord
      cases hcase : caseRecord row with
      | error e =>
          rw [hcase] at hrecord
          cases hrecord
      | ok case' =>
          rw [hcase] at hrecord
          cases hrecord
          refine ⟨rfl, Or.inr ⟨case, rfl, ?_⟩⟩
          rw [(caseRecord_eq_ok hcase).1]
  | _ :: _ :: _ =>
      rw [hfound] at h
      cases h

theorem getByReview_of_one {reviewId : String} {row : DiagnosisCaseModel} {d : ReviewDesk γ}
    (hone : d.casesOf reviewId = [row]) (hread : Readable row) :
    getByReview reviewId d = (.ok (some ⟨row, hread⟩), d) := by
  unfold getByReview
  rw [Prog.bind_read, hone]
  simp only [Prog.bind_apply, caseRecord_of_readable hread]
  rfl

/-- What a confirmed review has found and done when it returns. -/
structure Confirms (call : CaseCall) (newReviewId : NewId) (sessionId : String)
    (payload : DiagnosisReviewRequest) (response : DiagnosisReviewResponse)
    (session : DiagnosisSessionModel) (result : DiagnosisResultModel) (review : DiagnosisReviewModel)
    (case : DiagnosisCase) (d d₁ d' : ReviewDesk γ) : Prop where
  getSession : d.getSession sessionId = some session
  latestResult : d.latestResult sessionId = some result
  reviewable : session.reviewable = true
  knows : result.knows payload = true
  allows : result.allows payload = true
  actor : call.mayReview = true
  append : appendReview (reviewValues call newReviewId.val sessionId result payload) d =
    .ok (review, d₁)
  reviewId : response.reviewId = review.reviewId
  caseId : response.caseId = some case.row.caseId
  found : (d₁.casesOf review.reviewId = [case.row] ∧ d' = d₁) ∨
    (d₁.casesOf review.reviewId = [] ∧
      createReviewDraft call sessionId result review.reviewId payload d₁ = (.ok case, d'))

theorem reviewDiagnosis_eq_ok {call : CaseCall} {newReviewId : NewId} {sessionId : String}
    {payload : DiagnosisReviewRequest} {response : DiagnosisReviewResponse} {d d' : ReviewDesk γ}
    (hconfirmed : payload.reviewResult = .confirmed)
    (h : reviewDiagnosis call newReviewId sessionId payload d = (.ok response, d')) :
    ∃ session result review case d₁,
      Confirms call newReviewId sessionId payload response session result review case d d₁ d' := by
  unfold reviewDiagnosis at h
  rw [Prog.bind_read, Prog.bind_read] at h
  cases hsession : d.getSession sessionId with
  | none =>
      rw [hsession] at h
      cases h
  | some session =>
    cases hresult : d.latestResult sessionId with
    | none =>
      rw [hsession, hresult] at h
      cases h
    | some result =>
      rw [hsession, hresult] at h
      obtain ⟨_, d₁, hraise, h₁⟩ := Prog.bind_eq_ok h
      obtain ⟨rfl, ⟨-, hno⟩ | ⟨hreviewable, -⟩⟩ := Prog.raiseIf_cases hraise
      · cases hno
      obtain ⟨_, d₂, hraise, h₂⟩ := Prog.bind_eq_ok h₁
      obtain ⟨rfl, ⟨-, hno⟩ | ⟨hknows, -⟩⟩ := Prog.raiseIf_cases hraise
      · cases hno
      obtain ⟨_, d₃, hraise, h₃⟩ := Prog.bind_eq_ok h₂
      obtain ⟨rfl, ⟨-, hno⟩ | ⟨hallows, -⟩⟩ := Prog.raiseIf_cases hraise
      · cases hno
      obtain ⟨_, d₄, hraise, h₄⟩ := Prog.bind_eq_ok h₃
      obtain ⟨rfl, ⟨-, hno⟩ | ⟨hactor, -⟩⟩ := Prog.raiseIf_cases hraise
      · cases hno
      obtain ⟨review, d₅, htx, h₅⟩ := Prog.bind_eq_ok h₄
      obtain ⟨case, d₆, hfollow, hend⟩ := Prog.bind_eq_ok h₅
      cases hend
      rw [followReview, hconfirmed] at hfollow
      obtain ⟨found, d₇, hfound, hrest⟩ := Prog.bind_eq_ok hfollow
      obtain ⟨rfl, ⟨rfl, hnone⟩ | ⟨case', rfl, hone⟩⟩ := getByReview_eq_ok hfound
      · obtain ⟨case', d₈, hcreate, hend⟩ := Prog.bind_eq_ok hrest
        cases hend
        exact ⟨session, result, review, case', _, hsession, hresult, by simpa using hreviewable,
          by simpa using hknows, by simpa [hconfirmed] using hallows, by simpa using hactor,
          Prog.transaction_eq_ok htx, rfl, rfl, Or.inr ⟨hnone, hcreate⟩⟩
      · cases hrest
        exact ⟨session, result, review, case', _, hsession, hresult, by simpa using hreviewable,
          by simpa using hknows, by simpa [hconfirmed] using hallows, by simpa using hactor,
          Prog.transaction_eq_ok htx, rfl, rfl, Or.inl ⟨hone, rfl⟩⟩

/-- The draft of a review: it is new, and comes from the review. -/
theorem createReviewDraft_eq_ok {call : CaseCall} {sessionId reviewId : String}
    {result : DiagnosisResultModel} {payload : DiagnosisReviewRequest} {case : DiagnosisCase}
    {d d' : ReviewDesk γ}
    (h : createReviewDraft call sessionId result reviewId payload d = (.ok case, d')) :
    ComesFrom case.row.caseId reviewId d'.world ∧ d'.reviews = d.reviews := by
  unfold createReviewDraft at h
  rw [Prog.bind_read] at h
  cases hsession : d.getSession sessionId with
  | none =>
      rw [hsession] at h
      cases h
  | some session =>
    cases hcause : payload.rootCause with
    | none =>
      rw [hsession, hcause] at h
      cases h
    | some rootCause =>
      rw [hsession, hcause] at h
      simp only at h
      unfold onCases at h
      cases hcreate : createDraft call (reviewDraft session result reviewId rootCause payload)
        d.world with
      | mk r w =>
          rw [hcreate] at h
          cases r with
          | error e => cases h
          | ok case' =>
              cases h
              unfold createDraft create at hcreate
              rw [Prog.bind_read] at hcreate
              obtain ⟨row, w₁, htx, hrecord⟩ := Prog.bind_eq_ok hcreate
              obtain ⟨hvalues, hnew, rfl⟩ := insertCase_eq_ok (Prog.transaction_eq_ok htx)
              cases hvalues
              obtain ⟨hcase, rfl⟩ := Prog.lift_eq_ok hrecord
              have hrow := (caseRecord_eq_ok hcase).1
              refine ⟨⟨case.row, ?_, ?_⟩, rfl⟩
              · rw [hrow]
                exact Table.get_append_self hnew
              · rw [hrow]
                rfl

/-! ## The first call -/

/-- What a call that has succeeded leaves for good. -/
structure Recorded (sessionId key : String) (payload : DiagnosisReviewRequest)
    (response : DiagnosisReviewResponse) (d : ReviewDesk γ) : Prop where
  review : ∃ review, d.reviewWithKey sessionId key = some review ∧
    review.reviewId = response.reviewId ∧ review.requestHash = reviewFingerprint sessionId payload
  case : ∃ caseId, response.caseId = some caseId ∧ ComesFrom caseId response.reviewId d.world

theorem Recorded.later {sessionId key : String} {payload : DiagnosisReviewRequest}
    {response : DiagnosisReviewResponse} {d d' : ReviewDesk γ}
    (h : Recorded sessionId key payload response d) (hlater : Later d d') :
    Recorded sessionId key payload response d' := by
  obtain ⟨⟨review, hreview, hid, hhash⟩, caseId, hcase, hcomes⟩ := h
  exact ⟨⟨review, hlater.reviewWithKey hreview, hid, hhash⟩, caseId, hcase,
    (stable_comesFrom _ _).rely hlater.world hcomes⟩

theorem recorded_of_ok {call : CaseCall} {newReviewId : NewId} {sessionId key : String}
    {payload : DiagnosisReviewRequest} {response : DiagnosisReviewResponse} {d d' : ReviewDesk γ}
    (hids : DistinctIds d.world) (hkey : call.idempotencyKey = some key)
    (hconfirmed : payload.reviewResult = .confirmed)
    (h : reviewDiagnosis call newReviewId sessionId payload d = (.ok response, d')) :
    Recorded sessionId key payload response d' := by
  obtain ⟨session, result, review, case, d₁, hok⟩ := reviewDiagnosis_eq_ok hconfirmed h
  -- the review that is returned is the one with the key, an old or a new one
  have hreview : d₁.reviewWithKey sessionId key = some review ∧
      review.requestHash = reviewFingerprint sessionId payload := by
    rcases appendReview_eq_ok hok.append with ⟨hfound, hhash, rfl⟩ | ⟨hfree, rfl, rfl⟩
    · refine ⟨?_, hhash⟩
      rw [show (reviewValues call newReviewId.val sessionId result payload).idempotencyKey = some key
        from hkey] at hfound
      obtain ⟨key', hkey', hfound⟩ := Option.bind_eq_some_iff.mp hfound
      obtain ⟨hsome, -⟩ := truthy_eq_some hkey'
      obtain rfl := Option.some.inj hsome
      exact hfound
    · refine ⟨?_, rfl⟩
      rw [show (reviewValues call newReviewId.val sessionId result payload).idempotencyKey = some key
        from hkey, Option.bind_some] at hfree
      unfold ReviewDesk.reviewWithKey at hfree ⊢
      rw [List.find?_append, show d.reviews.find? (fun review => review.sessionId = sessionId ∧
        review.idempotencyKey = some key) = none from hfree, Option.none_or, List.find?_singleton]
      simp [reviewValues, hkey]
  have hids₁ : DistinctIds d₁.world := stable_distinctIds.rely (later_appendReview hok.append).world hids
  rcases hok.found with ⟨hone, rfl⟩ | ⟨-, hcreate⟩
  · refine ⟨⟨review, hreview.1, hok.reviewId.symm, hreview.2⟩, _, hok.caseId, case.row, ?_, ?_⟩
    · have hmem : case.row ∈ d'.casesOf review.reviewId := by simp [hone]
      exact Table.get_of_mem hids₁ (List.mem_of_mem_filter hmem)
    · have hmem : case.row ∈ d'.casesOf review.reviewId := by simp [hone]
      rw [hok.reviewId]
      simpa using (List.mem_filter.mp hmem).2
  · obtain ⟨hcomes, hreviews⟩ := createReviewDraft_eq_ok hcreate
    refine ⟨⟨review, ?_, hok.reviewId.symm, hreview.2⟩, _, hok.caseId, hok.reviewId ▸ hcomes⟩
    unfold ReviewDesk.reviewWithKey
    rw [hreviews]
    exact hreview.1

/-! ## What goes on meanwhile -/

/-- Every request and worker keeps its contract, and the case ids are distinct. -/
structure InOrder (s : ReviewThreads γ) : Prop where
  safe : Threads.AllSafe caseWrites s.cases
  ids : DistinctIds s.desk.world

/-- **The step lemma.** -/
theorem InOrder.step {settings : CaseSettings} {s s' : ReviewThreads γ} {label : ReviewLabel γ}
    (h : InOrder s) (hstep : (reviewing settings).step s label = some s') :
    InOrder s' ∧ Later s.desk s'.desk := by
  suffices hlater : Threads.AllSafe caseWrites s'.cases ∧ Later s.desk s'.desk from
    ⟨⟨hlater.1, stable_distinctIds.rely hlater.2.world h.ids⟩, hlater.2⟩
  cases label with
  | cases move =>
      simp only [reviewing] at hstep
      split at hstep
      · cases hstep
      · obtain ⟨q, hq, rfl⟩ := Option.map_eq_some_iff.mp hstep
        have hbody : ∀ (label : Label γ) (w : World γ), caseWrites.keeps w →
            (Interleaved.activity settings label).Safe caseWrites (fun _ _ => True) w :=
          fun label w _ => safe_activity settings label
        obtain ⟨hsafe, hsame | ⟨mark, -, hwrite⟩⟩ := h.safe.step hbody hq
        · exact ⟨hsafe, hsame ▸ .refl, List.prefix_refl _⟩
        · exact ⟨hsafe, .single ⟨trivial, ⟨mark, hwrite⟩, trivial⟩, List.prefix_refl _⟩
  | review call newReviewId sessionId payload =>
      cases hstep
      have hlater := later_reviewDiagnosis call newReviewId sessionId payload s.desk
      exact ⟨h.safe.interrupted hlater.world, hlater⟩
  | diagnosis sessions results =>
      cases hstep
      exact ⟨h.safe, .refl, List.prefix_refl _⟩

theorem inOrder_of_reachable {settings : CaseSettings} {s : ReviewThreads γ}
    (h : (reviewing settings).Reachable s) : InOrder s := by
  refine h.invariant ?_ fun s label s' hs _ hstep => (hs.step hstep).1
  rintro s ⟨⟨hstore, hthreads⟩, -⟩
  refine ⟨⟨trivial, fun t ht => ?_⟩, ?_⟩
  · rw [hthreads] at ht
    cases ht
  · rw [DistinctIds, show s.desk.world.cases = [] from hstore.1]
    exact List.nodup_nil

/-- **The run lemma.** -/
theorem InOrder.run {settings : CaseSettings} {labels : List (ReviewLabel γ)} :
    ∀ {s s' : ReviewThreads γ}, InOrder s → (reviewing settings).run s labels = some s' →
      InOrder s' ∧ Later s.desk s'.desk := by
  induction labels with
  | nil =>
      intro s s' h hrun
      cases hrun
      exact ⟨h, Later.refl _⟩
  | cons label labels ih =>
      intro s s' h hrun
      obtain ⟨t, hstep, hrest⟩ := Option.bind_eq_some_iff.mp hrun
      obtain ⟨ht, hlater⟩ := h.step hstep
      obtain ⟨hs', hlater'⟩ := ih ht hrest
      exact ⟨hs', hlater.trans hlater'⟩

/-! ## The later call -/

/-- A call that finds what the first one has left answers the same, and changes nothing. -/
theorem Recorded.replays {call : CaseCall} {newReviewId : NewId} {sessionId key : String}
    {payload : DiagnosisReviewRequest} {response : DiagnosisReviewResponse} {d : ReviewDesk γ}
    {session : DiagnosisSessionModel} (h : Recorded sessionId key payload response d)
    (hkey : call.idempotencyKey = some key) (hconfirmed : payload.reviewResult = .confirmed)
    (hsession : d.getSession sessionId = some session)
    (hreviewable : session.reviewable = true) (hreplayable : Replayable d call key sessionId payload) :
    ∃ response', reviewDiagnosis call newReviewId sessionId payload d = (.ok response', d) ∧
      response'.reviewId = response.reviewId ∧ response'.caseId = response.caseId := by
  obtain ⟨htruthy, hactor, ⟨result, hresult, hknows, hallows⟩, review, row, hreview, hone, hread⟩ :=
    hreplayable
  obtain ⟨⟨review', hreview', hid, hhash⟩, caseId, hcaseId, hcomes⟩ := h
  obtain rfl : review = review' := Option.some.inj (hreview.symm.trans hreview')
  have happend : appendReview (reviewValues call newReviewId.val sessionId result payload) d =
      .ok (review, d) := by
    have hfound : (Text.truthy (some key)).bind (d.reviewWithKey sessionId) = some review := by
      rw [show Text.truthy (some key) = some key from if_neg htruthy]
      exact hreview
    unfold appendReview reviewValues
    simp only [hkey, hfound, hhash, ne_eq, not_true_eq_false, if_false]
  have hrow : row.caseId = caseId := by
    obtain ⟨row', hrow', hfrom⟩ := hcomes
    have hmem : row' ∈ d.casesOf review.reviewId :=
      List.mem_filter.mpr ⟨(Table.get_eq_some hrow').1, by simp [hfrom, hid]⟩
    rw [hone, List.mem_singleton] at hmem
    rw [← hmem]
    exact getCase_caseId hrow'
  have hcase : response.caseId = some row.caseId := by rw [hcaseId, hrow]
  refine ⟨⟨review.reviewId, sessionId, result.runId, payload.reviewResult, some row.caseId,
    some row.reviewStatus, call.traceId⟩, ?_, hid, hcase.symm⟩
  unfold reviewDiagnosis followReview
  rw [Prog.bind_read, Prog.bind_read]
  simp only [hsession, hresult, hreviewable, hknows, hallows, hactor, hconfirmed, Prog.raiseIf,
    Bool.true_eq_false, and_false, if_false, Prog.bind_apply, Prog.transaction, happend,
    getByReview_of_one hone hread]
  rfl

/-- A call that succeeds has found what the first one has left. -/
theorem Recorded.replayable {call : CaseCall} {newReviewId : NewId} {sessionId key : String}
    {payload : DiagnosisReviewRequest} {response response' : DiagnosisReviewResponse}
    {d d' : ReviewDesk γ} (h : Recorded sessionId key payload response d)
    (hkey : call.idempotencyKey = some key) (hconfirmed : payload.reviewResult = .confirmed)
    (hcall : reviewDiagnosis call newReviewId sessionId payload d = (.ok response', d')) :
    Replayable d call key sessionId payload := by
  obtain ⟨session, result, review', case, d₁, hok⟩ := reviewDiagnosis_eq_ok hconfirmed hcall
  obtain ⟨⟨review, hreview, hid, -⟩, caseId, -, row, hrow, hfrom⟩ := h
  have hvalues : (reviewValues call newReviewId.val sessionId result payload).idempotencyKey = some key :=
    hkey
  have happend := appendReview_eq_ok hok.append
  rw [hvalues] at happend
  rcases happend with ⟨hfound, -, rfl⟩ | ⟨hfree, -, -⟩
  · obtain ⟨key', hkey', hfound⟩ := Option.bind_eq_some_iff.mp hfound
    obtain ⟨hsome, htruthy⟩ := truthy_eq_some hkey'
    obtain rfl := Option.some.inj hsome
    obtain rfl : review = review' := Option.some.inj (hreview.symm.trans hfound)
    refine ⟨htruthy, hok.actor, ⟨result, hok.latestResult, hok.knows, hok.allows⟩, review, case.row,
      hreview, ?_, case.readable⟩
    rcases hok.found with ⟨hone, -⟩ | ⟨hnone, -⟩
    · exact hone
    · have hmem : row ∈ d₁.casesOf review.reviewId :=
        List.mem_filter.mpr ⟨(Table.get_eq_some hrow).1, by simp [hfrom, hid]⟩
      rw [hnone] at hmem
      cases hmem
  · rw [Option.bind_some] at hfree
    exact absurd (hreview.symm.trans hfree) nofun

/-- **A review that is sent again** gets the same answer if and only if it finds what the first one has
left. -/
theorem review_replay_iff (settings : CaseSettings) {s₀ s₂ : ReviewThreads γ} {d₁ : ReviewDesk γ}
    {labels : List (ReviewLabel γ)} {call call' : CaseCall} {newReviewId newReviewId' : NewId}
    {sessionId key : String} {payload : DiagnosisReviewRequest} {response : DiagnosisReviewResponse}
    (hreach : (reviewing settings).Reachable s₀) (hkey : call.idempotencyKey = some key)
    (hconfirmed : payload.reviewResult = .confirmed)
    (hfirst : reviewDiagnosis call newReviewId sessionId payload s₀.desk = (.ok response, d₁))
    (hrun : (reviewing settings).run { s₀ with desk := d₁ } labels = some s₂)
    (hkey' : call'.idempotencyKey = some key)
    (hreviewable : ∃ session, s₂.desk.getSession sessionId = some session ∧ session.reviewable = true) :
    (∃ response' d', reviewDiagnosis call' newReviewId' sessionId payload s₂.desk =
        (.ok response', d') ∧
      response'.reviewId = response.reviewId ∧ response'.caseId = response.caseId ∧
      d'.world.cases = s₂.desk.world.cases) ↔
    Replayable s₂.desk call' key sessionId payload := by
  have hinOrder := inOrder_of_reachable hreach
  have hstep : (reviewing settings).step s₀ (.review call newReviewId sessionId payload) =
      some { s₀ with desk := d₁ } := by
    simp only [reviewing, hfirst]
  obtain ⟨hafter, -⟩ := hinOrder.step hstep
  obtain ⟨hlast, hlater⟩ := hafter.run hrun
  have hrecorded : Recorded sessionId key payload response s₂.desk :=
    (recorded_of_ok hinOrder.ids hkey hconfirmed hfirst).later hlater
  obtain ⟨session, hsession, hreviewable⟩ := hreviewable
  constructor
  · rintro ⟨response', d', hcall, -, -, -⟩
    exact hrecorded.replayable hkey' hconfirmed hcall
  · intro hreplayable
    obtain ⟨response', hcall, hid, hcase⟩ := hrecorded.replays hkey' hconfirmed hsession hreviewable hreplayable
    exact ⟨response', s₂.desk, hcall, hid, hcase, rfl⟩

/-! ## Runs -/

/-- A session whose diagnosis is completed. -/
def completedStart : ReviewThreads Unit where
  desk :=
    { world := World.empty ()
      reviews := []
      sessions := [⟨"session", .completed, some "over temperature", none⟩]
      results := [⟨"run", "session", "stops at noon", ["blocked fan"],
        [⟨"manual:1", "manual", "fan maintenance", none, none, none⟩,
          ⟨"device:1", "device", "inverter", some "inverter", some "X100", none⟩], []⟩] }
  threads := []

theorem completedStart_reachable (settings : CaseSettings) :
    (reviewing settings).Reachable completedStart :=
  .init ⟨⟨⟨rfl, rfl, rfl, rfl, rfl, rfl⟩, rfl⟩, rfl⟩

/-- The engineer confirms the diagnosis. -/
def confirmation : DiagnosisReviewRequest where
  reviewResult := .confirmed
  rootCause := some "blocked fan"
  resolutionSteps := ["clean the fan"]
  comments := none
  evidenceRefs := ["manual:1"]
  sourceTicketId := none
  overrideReason := none
  requestedQuestions := []
  questions := by decide
  confirmed := by decide
  rejected := nofun
  needsMoreInfo := nofun

/-- The engineer's call with the key, which creates case `id`. -/
def keyedCall (id : NewId) : CaseCall := { engineer id with idempotencyKey := some "key" }

def firstConfirmation : Except ReviewError DiagnosisReviewResponse × ReviewDesk Unit :=
  reviewDiagnosis (keyedCall caseOne) ⟨"review-1", by decide⟩ "session" confirmation
    completedStart.desk

def confirmedResponse : DiagnosisReviewResponse where
  reviewId := "review-1"
  sessionId := "session"
  runId := "run"
  reviewResult := .confirmed
  caseId := some "case-1"
  caseStatus := some .draft
  traceId := "trace"

/-- The case of the review is submitted and approved. -/
def approvalLabels : List (ReviewLabel Unit) :=
  (undisturbed 0 2 (.api (engineer noId) (.submit "case-1")) ++
   undisturbed 1 4 (.api (reviewer jobOne true) (.review "case-1" approval))).map .cases

/-- Then it is revised. -/
def revisionLabels : List (ReviewLabel Unit) :=
  approvalLabels ++
    (undisturbed 2 7 (.api (engineer caseTwo) (.revision "case-1" ⟨emptyPatch, true⟩))).map
      .cases

theorem firstConfirmation_eq : reviewDiagnosis (keyedCall ⟨"case-1", by decide⟩)
    ⟨"review-1", by decide⟩ "session" confirmation completedStart.desk =
      (.ok confirmedResponse, firstConfirmation.2) := by
  refine Prod.ext ?_ rfl
  decide +kernel

/-- A call that is sent again when the case has been approved. -/
theorem review_replayed_after_approval : ∃ s₂,
    (reviewing (sampleSettings .sync)).run { completedStart with desk := firstConfirmation.2 }
      approvalLabels = some s₂ ∧
    ∃ response' d', reviewDiagnosis (keyedCall ⟨"case-3", by decide⟩) ⟨"review-3", by decide⟩ "session"
        confirmation s₂.desk = (.ok response', d') ∧
      response'.reviewId = "review-1" ∧ response'.caseId = some "case-1" ∧
      d'.world.cases = s₂.desk.world.cases := by
  have hrun : ((reviewing (sampleSettings .sync)).run
      { completedStart with desk := firstConfirmation.2 } approvalLabels).any
      (fun s => (s.desk.getSession "session").any (·.reviewable) &&
        decide (Replayable s.desk (keyedCall ⟨"case-3", by decide⟩) "key" "session" confirmation)) =
      true := by
    decide +kernel
  obtain ⟨s₂, hs₂, hcheck⟩ := (Option.any_eq_true _ _).mp hrun
  rw [Bool.and_eq_true] at hcheck
  obtain ⟨session, hsession, hreviewable⟩ := (Option.any_eq_true _ _).mp hcheck.1
  exact ⟨s₂, hs₂, (review_replay_iff (sampleSettings .sync) (completedStart_reachable _) rfl rfl
    firstConfirmation_eq hs₂ rfl ⟨session, hsession, hreviewable⟩).mpr (of_decide_eq_true hcheck.2)⟩

/-- The revision copies the review of its original, and the call that is sent again raises. -/
theorem revision_breaks_review_replay : ∃ s₂,
    (reviewing (sampleSettings .sync)).Reachable completedStart ∧
    reviewDiagnosis (keyedCall ⟨"case-1", by decide⟩) ⟨"review-1", by decide⟩ "session" confirmation
      completedStart.desk = (.ok confirmedResponse, firstConfirmation.2) ∧
    (reviewing (sampleSettings .sync)).run { completedStart with desk := firstConfirmation.2 }
      revisionLabels = some s₂ ∧
    (∃ session, s₂.desk.getSession "session" = some session ∧ session.reviewable = true) ∧
    (reviewDiagnosis (keyedCall ⟨"case-3", by decide⟩) ⟨"review-3", by decide⟩ "session" confirmation
      s₂.desk).1 = .error .multipleResults := by
  have hrun : ((reviewing (sampleSettings .sync)).run
      { completedStart with desk := firstConfirmation.2 } revisionLabels).any
      (fun s => (s.desk.getSession "session").any (·.reviewable) &&
        decide ((reviewDiagnosis (keyedCall ⟨"case-3", by decide⟩) ⟨"review-3", by decide⟩ "session"
          confirmation s.desk).1 = .error .multipleResults)) = true := by
    decide +kernel
  obtain ⟨s₂, hs₂, hcheck⟩ := (Option.any_eq_true _ _).mp hrun
  rw [Bool.and_eq_true] at hcheck
  obtain ⟨session, hsession, hreviewable⟩ := (Option.any_eq_true _ _).mp hcheck.1
  exact ⟨s₂, completedStart_reachable _, firstConfirmation_eq, hs₂, ⟨session, hsession, hreviewable⟩,
    of_decide_eq_true hcheck.2⟩

end EnergyAgent.Cases

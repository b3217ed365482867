import BacktestEngine.Reporting.ElasticPublisher

/-! # No document is lost in bulk

What a well-formed response reports decides for every document of an attempt whether it
landed, is sent again or is a dead letter. Over the attempts of a chunk each document is
either reported accepted or dead-lettered once, and over the chunks so is the whole list.
-/

namespace BacktestEngine

namespace Elastic

open Live (Json JsonText)

variable {D : Type}

/-! ## What a response reports -/

/-- The flag and the statuses of a `_bulk` response. -/
structure BulkResponse where
  errors : Bool
  statuses : List ℤ

/-- The status of a well-formed item, an integer that a C integer can hold. -/
def reportedStatus : Json D → Option ℤ
  | .object fields =>
    match fields.lookup "index" with
    | some (.object action) =>
      match action.lookup "status" with
      | some (.integer n) => if -2 ^ 31 ≤ n ∧ n < 2 ^ 31 then some n else none
      | _ => none
    | _ => none
  | _ => none

def bulkResponse? : Json D → Option BulkResponse
  | .object fields =>
    match fields.lookup "errors", fields.lookup "items" with
    | some (.bool errors), some (.array items) =>
      (items.mapM reportedStatus).map (⟨errors, ·⟩)
    | _, _ => none
  | _ => none

/-- The status reported for the document at a place, 0 when there are too few. -/
def BulkResponse.statusAt (r : BulkResponse) (k : ℕ) : ℤ := r.statuses.getD k 0

/-- A document that landed. -/
def Landed (status : ℤ) : Prop := 200 ≤ status ∧ status < 300

/-- A document that was turned away for the moment. -/
def Busy (status : ℤ) : Prop := status = 429 ∨ status ≥ 500

instance : DecidablePred Landed := fun _ => inferInstanceAs (Decidable (_ ∧ _))

instance : DecidablePred Busy := fun _ => inferInstanceAs (Decidable (_ ∨ _))

theorem not_busy_of_landed {status : ℤ} (h : Landed status) : ¬ Busy status := by
  unfold Landed Busy at *
  omega

/-- The documents whose status from a place on has a property. -/
def sift (keep : ℤ → Bool) (r : BulkResponse) (k : ℕ) (docs : List DocRef) : List DocRef :=
  ((docs.zipIdx k).filter fun doc => keep (r.statusAt doc.2)).map Prod.fst

theorem sift_cons (keep : ℤ → Bool) (r : BulkResponse) (k : ℕ) (doc : DocRef) (docs : List DocRef) :
    sift keep r k (doc :: docs) =
      if keep (r.statusAt k) then doc :: sift keep r (k + 1) docs
      else sift keep r (k + 1) docs := by
  simp only [sift, List.zipIdx_cons, List.filter_cons]
  split_ifs <;> rfl

theorem sift_sublist (keep : ℤ → Bool) (r : BulkResponse) (k : ℕ) (docs : List DocRef) :
    (sift keep r k docs).Sublist docs := by
  have hsub := (List.filter_sublist (l := docs.zipIdx k)
    (p := fun doc => keep (r.statusAt doc.2))).map Prod.fst
  rwa [List.zipIdx_map_fst] at hsub

theorem mem_sift {keep : ℤ → Bool} {r : BulkResponse} {docs : List DocRef} {doc : DocRef} :
    doc ∈ sift keep r 0 docs ↔ ∃ k, docs[k]? = some doc ∧ keep (r.statusAt k) = true := by
  simp only [sift, List.mem_map, List.mem_filter]
  constructor
  · rintro ⟨⟨_, k⟩, ⟨hmem, hkeep⟩, rfl⟩
    exact ⟨k, List.mk_mem_zipIdx_iff_getElem?.mp hmem, hkeep⟩
  · rintro ⟨k, hdoc, hkeep⟩
    exact ⟨(doc, k), ⟨List.mk_mem_zipIdx_iff_getElem?.mpr hdoc, hkeep⟩, rfl⟩

section

variable [Decimal D]

theorem itemStatus_of_reported {item : Json D} {status : ℤ} (h : reportedStatus item = some status) :
    itemStatus (some item) = some status := by
  unfold reportedStatus at h
  split at h
  · split at h
    · next fields action hindex =>
      split at h
      · next n hstatus =>
        split_ifs at h with hrange
        cases h
        simp only [itemStatus, hindex, actionStatus, hstatus, intValue]
        rw [Int.bmod_eq_of_le (by omega) (by omega)]
      · cases h
    · cases h
  · cases h

/-- The items report their statuses, and there is nothing after them. -/
theorem itemStatus_getElem? {items : List (Json D)} {statuses : List ℤ}
    (h : items.mapM reportedStatus = some statuses) (k : ℕ) :
    itemStatus items[k]? = some (statuses.getD k 0) := by
  induction items generalizing statuses k with
  | nil =>
    cases h
    rfl
  | cons item items ih =>
    simp only [List.mapM_cons, Option.bind_eq_bind, Option.bind_eq_some_iff, Option.pure_def,
      Option.some.injEq] at h
    obtain ⟨status, hitem, rest, hrest, rfl⟩ := h
    cases k with
    | zero => exact itemStatus_of_reported hitem
    | succ k => exact ih hrest k

/-- On well-formed items the inspection sifts the documents by their statuses. -/
theorem inspectItems_eq {items : List (Json D)} {r : BulkResponse}
    (h : items.mapM reportedStatus = some r.statuses) (k : ℕ) (docs : List DocRef) :
    inspectItems (.array items) k docs =
      ⟨sift (fun status => Busy status) r k docs,
        sift (fun status => ¬ Landed status ∧ ¬ Busy status) r k docs, false⟩ := by
  induction docs generalizing k with
  | nil => rfl
  | cons doc docs ih =>
    have hstatus : (itemAt (.array items) k).bind itemStatus = some (r.statusAt k) :=
      itemStatus_getElem? h k
    rw [inspectItems, hstatus, sift_cons, sift_cons, ih]
    by_cases hlanded : Landed (r.statusAt k)
    · have hbusy := not_busy_of_landed hlanded
      simp only [hlanded, hbusy, decide_false, not_true, false_and, if_false, Bool.false_eq_true]
      exact if_pos hlanded
    · by_cases hbusy : Busy (r.statusAt k)
      · simp only [hlanded, hbusy, decide_true, decide_false, not_true, and_false, if_true, if_false,
          Bool.false_eq_true]
        exact (if_neg hlanded).trans (if_pos hbusy)
      · simp only [hlanded, hbusy, decide_true, decide_false, not_false_eq_true, and_self, if_true,
          if_false, Bool.false_eq_true]
        exact (if_neg hlanded).trans (if_neg hbusy)

/-- A well-formed response says that everything landed, or sifts the documents. -/
theorem inspectResponse_eq {json : Json D} {r : BulkResponse} (h : bulkResponse? json = some r)
    (docs : List DocRef) : inspectResponse (some json) docs =
      if r.errors then
        some ⟨sift (fun status => Busy status) r 0 docs,
          sift (fun status => ¬ Landed status ∧ ¬ Busy status) r 0 docs, false⟩
      else none := by
  unfold bulkResponse? at h
  split at h
  · split at h
    · next fields _ _ errors items herrors hitems =>
      obtain ⟨statuses, hstatuses, rfl⟩ := Option.map_eq_some_iff.mp h
      have hinspect := inspectItems_eq (r := ⟨errors, statuses⟩) hstatuses 0 docs
      cases errors <;> simp [inspectResponse, errorsFlag, herrors, hitems, hinspect]
    · cases h
  · cases h

end

/-! ## What an attempt reports -/

section

variable (D) [JsonText D]

/-- The network answers a request with success only by a well-formed response. -/
def WellFormed (wire : ℕ → Wire) : Prop :=
  ∀ n status response, wire n = .answered status response → 200 ≤ status → status < 300 →
    ∃ r, (JsonText.parse (D := D) response).bind bulkResponse? = some r

/-- The response that an attempt was given. -/
def report (sent : Sent) : Option BulkResponse :=
  match sent.wire with
  | .answered status response =>
    if 200 ≤ status ∧ status < 300 then (JsonText.parse (D := D) response).bind bulkResponse?
    else none
  | _ => none

/-- The attempt contained the document and was told that it was accepted. -/
def Accepts (sent : Sent) (doc : DocRef) : Prop :=
  ∃ r, report D sent = some r ∧ ∃ k, sent.docs[k]? = some doc ∧
    (r.errors = false ∨ Landed (r.statusAt k))

/-- The attempt contained the document and was told 429 or 5xx, for the document or as a whole. -/
def TurnsAway (sent : Sent) (doc : DocRef) : Prop :=
  doc ∈ sent.docs ∧
    ((∃ status response, sent.wire = .answered status response ∧ Busy status) ∨
      ∃ r, report D sent = some r ∧ r.errors = true ∧
        ∃ k, sent.docs[k]? = some doc ∧ Busy (r.statusAt k))

end

/-- What an attempt can come to: all accepted, some sifted out, or nothing for any document. -/
inductive Came (D : Type) [JsonText D] (sent : Sent) : PutAttempt → Option Inspection → Prop
  | accepted {r : BulkResponse} {attempt : PutAttempt} : report D sent = some r → r.errors = false →
      attempt.code = 0 → Came D sent attempt none
  | sifted {r : BulkResponse} {attempt : PutAttempt} : report D sent = some r → r.errors = true →
      attempt.code = 0 → Came D sent attempt (some
        ⟨sift (fun status => Busy status) r 0 sent.docs,
          sift (fun status => ¬ Landed status ∧ ¬ Busy status) r 0 sent.docs, false⟩)
  | failed {attempt : PutAttempt} {inspection : Option Inspection} : report D sent = none →
      attempt.code ≠ 0 →
      ((∃ status response, sent.wire = .answered status response ∧ Busy status) →
        isTransientFailure attempt = true) →
      Came D sent attempt inspection

variable [JsonText D] [Decimal D]

theorem came {wire : ℕ → Wire} (hwire : WellFormed D wire) (sent : Sent) {place : ℕ}
    (hsent : sent.wire = wire place) :
    Came D sent (attemptRequest (wire place)).1 (inspectResponse (D := D)
      (JsonText.parse (attemptRequest (wire place)).2) sent.docs) := by
  cases hplace : wire place with
  | noHandle =>
    refine .failed (by simp [report, hsent, hplace]) (by simp [attemptRequest]) ?_
    rintro ⟨status, response, hwrong, -⟩
    rw [hsent, hplace] at hwrong
    cases hwrong
  | transportError status response =>
    exact .failed (by simp [report, hsent, hplace]) (by simp [attemptRequest]) (fun _ => rfl)
  | answered status response =>
    by_cases hok : 200 ≤ status ∧ status < 300
    · obtain ⟨r, hr⟩ := hwire place status response hplace hok.1 hok.2
      obtain ⟨json, hjson, hresponse⟩ := Option.bind_eq_some_iff.mp hr
      have hreport : report D sent = some r := by simp [report, hsent, hplace, hok, hr]
      have hattempt : attemptRequest (.answered status response) = (⟨0, status⟩, response) :=
        if_neg (by omega)
      rw [hattempt, hjson, inspectResponse_eq hresponse]
      cases herrors : r.errors with
      | false => exact .accepted hreport herrors rfl
      | true => exact .sifted hreport herrors rfl
    · have hattempt : attemptRequest (.answered status response) = (⟨3, status⟩, response) :=
        if_pos (by omega)
      rw [hattempt]
      refine .failed (by simp [report, hsent, hplace, hok]) (by simp) ?_
      rintro ⟨status', response', hsame, hbusy⟩
      rw [hsent, hplace] at hsame
      cases hsame
      simpa [isTransientFailure, Busy] using hbusy

/-! ## The attempts of a chunk -/

/-- What becomes of the documents that are pending when some attempts are left. -/
structure Settled (D : Type) [JsonText D] (index : String) (left : ℕ) (anyDeadLettered : Bool)
    (pending : List DocRef) (attempts : List Sent) (letters : List DeadLetter) (code : ℤ) : Prop where
  atMost : attempts.length ≤ left
  within : ∀ sent ∈ attempts, sent.docs.Sublist pending
  indexed : ∀ letter ∈ letters, letter.index = index
  once : (letters.map DeadLetter.doc).Nodup
  pended : ∀ letter ∈ letters, letter.doc ∈ pending
  settled : ∀ doc ∈ pending,
    doc ∈ letters.map DeadLetter.doc ↔ ¬ ∃ sent ∈ attempts, Accepts D sent doc
  first : 0 < left → pending ≠ [] → ∃ sent, attempts[0]? = some sent ∧ sent.docs = pending
  retried : ∀ i doc sent, i + 1 < left → attempts[i]? = some sent → TurnsAway D sent doc →
    ∃ later, attempts[i + 1]? = some later ∧ doc ∈ later.docs
  code_eq_zero_iff : code = 0 ↔ anyDeadLettered = false ∧ letters = []

omit [Decimal D] in
theorem accepts_iff_of_report {sent : Sent} {r : BulkResponse} (h : report D sent = some r)
    {doc : DocRef} : Accepts D sent doc ↔
      ∃ k, sent.docs[k]? = some doc ∧ (r.errors = false ∨ Landed (r.statusAt k)) := by
  constructor
  · rintro ⟨r', hr', hk⟩
    rw [h] at hr'
    cases hr'
    exact hk
  · exact fun hk => ⟨r, h, hk⟩

omit [Decimal D] in
theorem not_accepts_of_report {sent : Sent} (h : report D sent = none) {doc : DocRef} :
    ¬ Accepts D sent doc := by
  rintro ⟨r, hr, -⟩
  rw [h] at hr
  cases hr

omit [Decimal D] in
theorem Accepts.mem {sent : Sent} {doc : DocRef} (h : Accepts D sent doc) : doc ∈ sent.docs := by
  obtain ⟨r, -, k, hk, -⟩ := h
  exact List.mem_of_getElem? hk

theorem map_doc (index : String) (docs : List DocRef) :
    (docs.map (⟨index, ·⟩ : DocRef → DeadLetter)).map DeadLetter.doc = docs := by
  rw [List.map_map]
  exact List.map_id docs

theorem mem_map_letters {index : String} {docs : List DocRef} {letter : DeadLetter}
    (h : letter ∈ docs.map (⟨index, ·⟩ : DocRef → DeadLetter)) :
    letter.index = index ∧ letter.doc ∈ docs := by
  obtain ⟨doc, hdoc, rfl⟩ := List.mem_map.mp h
  exact ⟨rfl, hdoc⟩

omit [Decimal D] in
/-- After a successful answer only an item can turn a document away. -/
theorem turnsAway_iff_of_report {sent : Sent} {r : BulkResponse} (h : report D sent = some r)
    {doc : DocRef} : TurnsAway D sent doc ↔
      r.errors = true ∧ doc ∈ sift (fun status => Busy status) r 0 sent.docs := by
  constructor
  · rintro ⟨-, ⟨status, response, hwire, hbusy⟩ | ⟨r', hr', herrors, k, hk, hbusy⟩⟩
    · have hnot : ¬ (200 ≤ status ∧ status < 300) := by
        unfold Busy at hbusy
        omega
      rw [report, hwire] at h
      simp only [if_neg hnot] at h
      cases h
    · rw [h] at hr'
      cases hr'
      exact ⟨herrors, mem_sift.mpr ⟨k, hk, decide_eq_true hbusy⟩⟩
  · rintro ⟨herrors, hmem⟩
    obtain ⟨k, hk, hbusy⟩ := mem_sift.mp hmem
    exact ⟨List.mem_of_getElem? hk, .inr ⟨r, h, herrors, k, hk, of_decide_eq_true hbusy⟩⟩

section

variable {index : String} {left : ℕ} {anyDeadLettered : Bool} {pending : List DocRef}
  {attempts : List Sent} {letters : List DeadLetter} {code : ℤ} {sent : Sent} {r : BulkResponse}

omit [Decimal D]

theorem resultCode_eq_zero_iff : resultCode anyDeadLettered = 0 ↔ anyDeadLettered = false := by
  cases anyDeadLettered <;> simp [resultCode]

/-- Nothing is pending. -/
theorem Settled.nothing (index : String) (left : ℕ) (anyDeadLettered : Bool) :
    Settled D index left anyDeadLettered [] [] [] (resultCode anyDeadLettered) := by
  constructor <;> simp [resultCode_eq_zero_iff]

/-- No attempt is left, and everything pending is a dead letter. -/
theorem Settled.given_up (index : String) (anyDeadLettered : Bool) (hnodup : pending.Nodup)
    (hpending : pending ≠ []) (hcode : code ≠ 0) :
    Settled D index 0 anyDeadLettered pending [] (pending.map (⟨index, ·⟩)) code := by
  constructor
  · exact le_rfl
  · simp
  · exact fun letter h => (mem_map_letters h).1
  · rwa [map_doc]
  · exact fun letter h => (mem_map_letters h).2
  · simp
  · simp
  · simp
  · simp [hcode, hpending]

/-- The last attempt failed for good. -/
theorem Settled.refused (hdocs : sent.docs = pending) (hreport : report D sent = none)
    (haway : left = 0 ∨ ∀ doc, ¬ TurnsAway D sent doc) (hnodup : pending.Nodup)
    (hpending : pending ≠ []) (hcode : code ≠ 0) :
    Settled D index (left + 1) anyDeadLettered pending [sent] (pending.map (⟨index, ·⟩)) code := by
  have hgiven := Settled.given_up (D := D) index anyDeadLettered hnodup hpending hcode
  constructor
  · simp
  · simp [hdocs]
  · exact hgiven.indexed
  · exact hgiven.once
  · exact hgiven.pended
  · intro doc hdoc
    simp [hdoc, not_accepts_of_report hreport]
  · exact fun _ _ => ⟨sent, rfl, hdocs⟩
  · intro i doc sent' hi hsent hturned
    cases i with
    | zero =>
      cases hsent
      rcases haway with rfl | hnone
      · omega
      · exact absurd hturned (hnone doc)
    | succ i => cases hsent
  · exact hgiven.code_eq_zero_iff

/-- A failed attempt changes nothing for the documents. -/
theorem Settled.after_failure
    (h : Settled D index left anyDeadLettered pending attempts letters code)
    (hdocs : sent.docs = pending) (hreport : report D sent = none) :
    Settled D index (left + 1) anyDeadLettered pending (sent :: attempts) letters code := by
  constructor
  · exact Nat.succ_le_succ h.atMost
  · exact List.forall_mem_cons.mpr ⟨hdocs ▸ List.Sublist.refl _, h.within⟩
  · exact h.indexed
  · exact h.once
  · exact h.pended
  · intro doc hdoc
    rw [h.settled doc hdoc]
    simp [not_accepts_of_report hreport]
  · exact fun _ _ => ⟨sent, rfl, hdocs⟩
  · intro i doc sent' hi hsent hturned
    cases i with
    | zero =>
      cases hsent
      have hmem := hdocs ▸ hturned.1
      obtain ⟨later, hlater, hall⟩ := h.first (by omega) (List.ne_nil_of_mem hmem)
      exact ⟨later, hlater, hall ▸ hmem⟩
    | succ i => exact h.retried i doc sent' (by omega) hsent hturned
  · exact h.code_eq_zero_iff

/-- A response without errors settles everything. -/
theorem Settled.accepted (hdocs : sent.docs = pending) (hreport : report D sent = some r)
    (herrors : r.errors = false) :
    Settled D index (left + 1) anyDeadLettered pending [sent] [] (resultCode anyDeadLettered) := by
  constructor
  · simp
  · simp [hdocs]
  · simp
  · simp
  · simp
  · intro doc hdoc
    obtain ⟨k, hk⟩ := List.mem_iff_getElem?.mp hdoc
    have haccepts : Accepts D sent doc :=
      (accepts_iff_of_report hreport).mpr ⟨k, hdocs ▸ hk, .inl herrors⟩
    simp [haccepts]
  · exact fun _ _ => ⟨sent, rfl, hdocs⟩
  · intro i doc sent' hi hsent hturned
    cases i with
    | zero =>
      cases hsent
      rw [turnsAway_iff_of_report hreport, herrors] at hturned
      cases hturned.1
    | succ i => cases hsent
  · simp [resultCode_eq_zero_iff]

theorem mem_sift_iff_of_nodup (r : BulkResponse) (keep : ℤ → Bool) (hnodup : pending.Nodup)
    {k : ℕ} {doc : DocRef} (hk : pending[k]? = some doc) :
    doc ∈ sift keep r 0 pending ↔ keep (r.statusAt k) = true := by
  rw [mem_sift]
  constructor
  · rintro ⟨k', hk', hkeep⟩
    obtain ⟨hlt, hget⟩ := List.getElem?_eq_some_iff.mp hk
    obtain ⟨hlt', hget'⟩ := List.getElem?_eq_some_iff.mp hk'
    have hsame : k' = k := hnodup.getElem_inj_iff.mp (hget'.trans hget.symm)
    rwa [hsame] at hkeep
  · exact fun hkeep => ⟨k, hk, hkeep⟩

/-- A response with errors settles what landed and what was rejected; the rest goes on. -/
theorem Settled.after_sift (hdocs : sent.docs = pending) (hreport : report D sent = some r)
    (herrors : r.errors = true) (hnodup : pending.Nodup)
    (h : Settled D index left
      (anyDeadLettered ||
        !(sift (fun status => ¬ Landed status ∧ ¬ Busy status) r 0 pending).isEmpty)
      (sift (fun status => Busy status) r 0 pending) attempts letters code) :
    Settled D index (left + 1) anyDeadLettered pending (sent :: attempts)
      ((sift (fun status => ¬ Landed status ∧ ¬ Busy status) r 0 pending).map (⟨index, ·⟩) ++
        letters) code := by
  have hretry := sift_sublist (fun status => Busy status) r 0 pending
  have hrejected := sift_sublist (fun status => ¬ Landed status ∧ ¬ Busy status) r 0 pending
  have hapart : ∀ doc ∈ sift (fun status => ¬ Landed status ∧ ¬ Busy status) r 0 pending,
      doc ∉ sift (fun status => Busy status) r 0 pending := by
    intro doc hdoc
    obtain ⟨k, hk, hkeep⟩ := mem_sift.mp hdoc
    rw [mem_sift_iff_of_nodup r _ hnodup hk]
    simp only [decide_eq_true_eq] at hkeep ⊢
    exact hkeep.2
  constructor
  · exact Nat.succ_le_succ h.atMost
  · exact List.forall_mem_cons.mpr ⟨hdocs ▸ List.Sublist.refl _,
      fun sent hsent => (h.within sent hsent).trans hretry⟩
  · intro letter hletter
    rcases List.mem_append.mp hletter with hletter | hletter
    · exact (mem_map_letters hletter).1
    · exact h.indexed letter hletter
  · rw [List.map_append, map_doc]
    refine (hnodup.sublist hrejected).append h.once fun doc hdoc hlater => ?_
    obtain ⟨letter, hletter, rfl⟩ := List.mem_map.mp hlater
    exact hapart letter.doc hdoc (h.pended letter hletter)
  · intro letter hletter
    rcases List.mem_append.mp hletter with hletter | hletter
    · exact hrejected.subset (mem_map_letters hletter).2
    · exact hretry.subset (h.pended letter hletter)
  · intro doc hdoc
    obtain ⟨k, hk⟩ := List.mem_iff_getElem?.mp hdoc
    have hlanded : Accepts D sent doc ↔ Landed (r.statusAt k) := by
      have hsift : doc ∈ sift (fun status => Landed status) r 0 pending ↔
          Landed (r.statusAt k) := by
        rw [mem_sift_iff_of_nodup r _ hnodup hk, decide_eq_true_eq]
      rw [accepts_iff_of_report hreport, hdocs, ← hsift, mem_sift]
      simp [herrors]
    have hbusy := mem_sift_iff_of_nodup r (fun status => Busy status) hnodup hk
    have hgone := mem_sift_iff_of_nodup r
      (fun status => ¬ Landed status ∧ ¬ Busy status) hnodup hk
    simp only [decide_eq_true_eq] at hbusy hgone
    have hlater : (∃ sent ∈ attempts, Accepts D sent doc) →
        doc ∈ sift (fun status => Busy status) r 0 pending := by
      rintro ⟨sent, hsent, haccepts⟩
      exact (h.within sent hsent).subset haccepts.mem
    have hletters : doc ∈ letters.map DeadLetter.doc →
        doc ∈ sift (fun status => Busy status) r 0 pending := by
      intro hmem
      obtain ⟨letter, hletter, rfl⟩ := List.mem_map.mp hmem
      exact h.pended letter hletter
    rw [List.map_append, map_doc, List.mem_append, hgone, List.exists_mem_cons_iff, hlanded]
    by_cases hb : Busy (r.statusAt k)
    · have hnot : ¬ Landed (r.statusAt k) := fun hl => not_busy_of_landed hl hb
      rw [h.settled doc (hbusy.mpr hb)]
      simp [hb, hnot]
    · have hnone := mt hlater (mt hbusy.mp hb)
      have hnoLetter := mt hletters (mt hbusy.mp hb)
      simp only [hb, hnone, hnoLetter, not_false_eq_true, and_true, or_false]
  · exact fun _ _ => ⟨sent, rfl, hdocs⟩
  · intro i doc sent' hi hsent hturned
    cases i with
    | zero =>
      cases hsent
      rw [turnsAway_iff_of_report hreport, hdocs] at hturned
      obtain ⟨later, hlater, hall⟩ := h.first (by omega) (List.ne_nil_of_mem hturned.2)
      exact ⟨later, hlater, hall ▸ hturned.2⟩
    | succ i => exact h.retried i doc sent' (by omega) hsent hturned
  · rw [h.code_eq_zero_iff]
    simp [and_assoc]

end

/-- One attempt, when those after it settle what they are given. -/
theorem postAttempts_step (settings : Settings) (index : String) {wire : ℕ → Wire}
    (hwire : WellFormed D wire) {left : ℕ} (place : ℕ) (anyDeadLettered : Bool)
    {pending : List DocRef} (hnodup : pending.Nodup) (hpending : pending ≠ [])
    (hlater : ∀ anyDeadLettered {pending : List DocRef}, left ≠ 0 → pending.Nodup → pending ≠ [] →
      Settled D index left anyDeadLettered pending
        (postAttempts D settings index wire left (place + 1) anyDeadLettered pending).1
        (postAttempts D settings index wire left (place + 1) anyDeadLettered pending).2.1
        (postAttempts D settings index wire left (place + 1) anyDeadLettered pending).2.2) :
    Settled D index (left + 1) anyDeadLettered pending
      (postAttempts D settings index wire (left + 1) place anyDeadLettered pending).1
      (postAttempts D settings index wire (left + 1) place anyDeadLettered pending).2.1
      (postAttempts D settings index wire (left + 1) place anyDeadLettered pending).2.2 := by
  have hcame := came hwire ⟨pending, bulkRequest D settings index pending, wire place⟩ rfl
  rw [postAttempts]
  revert hcame
  generalize attemptRequest (wire place) = answer
  obtain ⟨attempt, response⟩ := answer
  dsimp only
  generalize inspectResponse (D := D) (JsonText.parse response) pending = inspection
  intro hcame
  cases hcame with
  | accepted hreport herrors hcode =>
    rw [if_pos hcode]
    exact .accepted rfl hreport herrors
  | @sifted r _ hreport herrors hcode =>
    rw [if_pos hcode]
    simp only [Bool.false_eq_true, if_false]
    split_ifs with hretry hleft
    · have hnothing := Settled.nothing (D := D) index left
        (anyDeadLettered ||
          !(sift (fun status => ¬ Landed status ∧ ¬ Busy status) r 0 pending).isEmpty)
      rw [← hretry] at hnothing
      simpa using hnothing.after_sift rfl hreport herrors hnodup
    · subst hleft
      have hgiven := Settled.given_up (D := D) index
        (anyDeadLettered ||
          !(sift (fun status => ¬ Landed status ∧ ¬ Busy status) r 0 pending).isEmpty)
        (hnodup.sublist (sift_sublist (fun status => Busy status) r 0 pending)) hretry
        (show (if attempt.code ≠ 0 then attempt.code else 3) ≠ 0 by simp [hcode])
      exact hgiven.after_sift rfl hreport herrors hnodup
    · exact (hlater _ hleft (hnodup.sublist (sift_sublist _ r 0 pending)) hretry).after_sift rfl
        hreport herrors hnodup
  | failed hreport hcode htransient =>
    rw [if_neg hcode]
    split_ifs with hstop
    · rw [Bool.or_eq_true, Bool.not_eq_true', decide_eq_true_eq] at hstop
      refine .refused rfl hreport ?_ hnodup hpending (by simp [giveUp, hcode])
      rcases hstop with hpermanent | hlast
      · right
        rintro doc ⟨-, hwhole | ⟨r, hr, -⟩⟩
        · rw [htransient hwhole] at hpermanent
          cases hpermanent
        · rw [hreport] at hr
          cases hr
      · exact .inl hlast
    · rw [Bool.or_eq_true, decide_eq_true_eq, not_or] at hstop
      exact (hlater anyDeadLettered hstop.2 hnodup hpending).after_failure rfl hreport

/-- Whatever the network answers, the attempts that are left settle what is pending. -/
theorem postAttempts_settled (settings : Settings) (index : String) {wire : ℕ → Wire}
    (hwire : WellFormed D wire) (left place : ℕ) (anyDeadLettered : Bool)
    {pending : List DocRef} (hnodup : pending.Nodup) (hpending : pending ≠ []) :
    Settled D index (left + 1) anyDeadLettered pending
      (postAttempts D settings index wire (left + 1) place anyDeadLettered pending).1
      (postAttempts D settings index wire (left + 1) place anyDeadLettered pending).2.1
      (postAttempts D settings index wire (left + 1) place anyDeadLettered pending).2.2 := by
  induction left generalizing place anyDeadLettered pending with
  | zero =>
    apply postAttempts_step settings index hwire place anyDeadLettered hnodup hpending
    intro _ _ hzero
    exact absurd rfl hzero
  | succ left ih =>
    apply postAttempts_step settings index hwire place anyDeadLettered hnodup hpending
    intro anyDeadLettered pending _ hnodup hpending
    exact ih (place + 1) anyDeadLettered hnodup hpending

/-! ## The chunks of a list -/

/-- What holds while the documents are put into chunks. -/
structure Batched (D : Type) [JsonText D] (index : String) (processed : List DocRef)
    (state : Batching) : Prop where
  parts : state.logs.flatMap ChunkLog.docs ++ state.chunk = processed
  settled : ∀ log ∈ state.logs, log.docs ≠ [] ∧
    Settled D index kMaxRetryAttempts false log.docs log.attempts log.deadLetters log.code
  worst_eq_zero_iff : state.worst = 0 ↔ ∀ log ∈ state.logs, log.code = 0

section

variable {settings : Settings} {index : String} {wire : ℕ → Wire} {processed : List DocRef}
  {state : Batching}

theorem Batched.flush (hwire : WellFormed D wire) (h : Batched D index processed state)
    (hnodup : processed.Nodup) :
    Batched D index processed (flush D settings index wire state) ∧
      (Elastic.flush D settings index wire state).chunk = [] := by
  unfold Elastic.flush
  split_ifs with hempty
  · exact ⟨h, hempty⟩
  · have hchunk : state.chunk.Nodup := by
      rw [← h.parts] at hnodup
      exact (List.nodup_append.mp hnodup).2.1
    have hposted := postAttempts_settled settings index hwire 2 (exchanged state.logs) false hchunk
      hempty
    refine ⟨⟨?_, ?_, ?_⟩, rfl⟩
    · rw [← h.parts]
      simp [postBulkChunk]
    · intro log hlog
      rcases List.mem_append.mp hlog with hold | hnew
      · exact h.settled log hold
      · rw [List.mem_singleton.mp hnew]
        exact ⟨hempty, hposted⟩
    · have hworst := h.worst_eq_zero_iff
      simp only [List.mem_append, List.mem_singleton]
      split_ifs with hcode
      · refine ⟨fun hzero => absurd hzero hcode, fun hall => hall _ (.inr rfl)⟩
      · rw [hworst]
        constructor
        · rintro hold log (hlog | rfl)
          · exact hold log hlog
          · exact not_not.mp hcode
        · exact fun hall log hlog => hall log (.inl hlog)

theorem Batched.addDoc (hwire : WellFormed D wire) (h : Batched D index processed state)
    {doc : DocRef} (hnodup : (processed ++ [doc]).Nodup) :
    Batched D index (processed ++ [doc]) (addDoc D settings index wire state doc) := by
  have hadded : Batched D index (processed ++ [doc]) { state with
      chunk := state.chunk ++ [doc]
      chunkBytes := state.chunkBytes + (doc.1.id.utf8ByteSize + doc.1.body.utf8ByteSize + 32) } :=
    ⟨by rw [← h.parts, List.append_assoc], h.settled, h.worst_eq_zero_iff⟩
  unfold Elastic.addDoc
  dsimp only
  split_ifs
  · exact (hadded.flush hwire hnodup).1
  · exact hadded

theorem Batched.addDocs (hwire : WellFormed D wire) {docs : List DocRef}
    (h : Batched D index processed state) (hnodup : (processed ++ docs).Nodup) :
    Batched D index (processed ++ docs)
      (docs.foldl (Elastic.addDoc D settings index wire) state) := by
  induction docs generalizing processed state with
  | nil => simpa using h
  | cons doc docs ih =>
    rw [List.append_cons] at hnodup ⊢
    exact ih (h.addDoc hwire (hnodup.sublist (List.sublist_append_left _ _))) hnodup

end

/-! ## What became of a list -/

/-- Some attempt of a chunk contained the document and was told that it was accepted. -/
def ReportedAccepted (D : Type) [JsonText D] (logs : List ChunkLog) (doc : DocRef) : Prop :=
  ∃ log ∈ logs, ∃ sent ∈ log.attempts, Accepts D sent doc

/-- What was dead-lettered, in the order of the dead letters. -/
def deadLettered (logs : List ChunkLog) : List DocRef :=
  logs.flatMap fun log => log.deadLetters.map DeadLetter.doc

/-- No document of a list is lost, and none is filed twice. -/
structure Published (D : Type) [JsonText D] (index : String) (docs : List DocRef) (code : ℤ)
    (logs : List ChunkLog) : Prop where
  parts : logs.flatMap ChunkLog.docs = docs
  nonempty : ∀ log ∈ logs, log.docs ≠ []
  atMost : ∀ log ∈ logs, log.attempts.length ≤ kMaxRetryAttempts
  within : ∀ log ∈ logs, ∀ sent ∈ log.attempts, sent.docs.Sublist log.docs
  indexed : ∀ log ∈ logs, ∀ letter ∈ log.deadLetters, letter.index = index ∧ letter.doc ∈ log.docs
  accounted : ∀ doc ∈ docs,
    (ReportedAccepted D logs doc ∧ (deadLettered logs).count doc = 0) ∨
      (¬ ReportedAccepted D logs doc ∧ (deadLettered logs).count doc = 1)
  retried : ∀ log ∈ logs, ∀ i doc sent, i + 1 < kMaxRetryAttempts → log.attempts[i]? = some sent →
    TurnsAway D sent doc → ∃ later, log.attempts[i + 1]? = some later ∧ doc ∈ later.docs
  code_eq_zero_iff : code = 0 ↔ deadLettered logs = []

section

variable {index : String} {docs : List DocRef} {state : Batching}

omit [Decimal D]

theorem Published.nothing (index : String) : Published D index [] 0 [] := by
  constructor <;> simp [deadLettered]

/-- Two chunks that hold one document are the same chunk. -/
theorem eq_of_mem_docs {logs : List ChunkLog} (hnodup : (logs.flatMap ChunkLog.docs).Nodup)
    {log log' : ChunkLog} (hlog : log ∈ logs) (hlog' : log' ∈ logs) {doc : DocRef}
    (hdoc : doc ∈ log.docs) (hdoc' : doc ∈ log'.docs) : log = log' := by
  by_contra hne
  have hdisjoint := (List.nodup_flatMap.mp hnodup).2
  have : Std.Symm (Function.onFun List.Disjoint ChunkLog.docs) :=
    ⟨fun _ _ hapart _ hright hleft => hapart hleft hright⟩
  exact (hdisjoint.forall hlog hlog' hne) hdoc hdoc'

theorem nodup_deadLettered {logs : List ChunkLog} (hnodup : (logs.flatMap ChunkLog.docs).Nodup)
    (honce : ∀ log ∈ logs, (log.deadLetters.map DeadLetter.doc).Nodup)
    (hpended : ∀ log ∈ logs, ∀ letter ∈ log.deadLetters, letter.doc ∈ log.docs) :
    (deadLettered logs).Nodup := by
  refine List.nodup_flatMap.mpr ⟨honce, ?_⟩
  have hdisjoint := (List.nodup_flatMap.mp hnodup).2
  refine hdisjoint.imp_of_mem ?_
  intro log log' hlog hlog' hapart doc hdoc hdoc'
  obtain ⟨letter, hletter, rfl⟩ := List.mem_map.mp hdoc
  obtain ⟨letter', hletter', hsame⟩ := List.mem_map.mp hdoc'
  refine hapart (hpended log hlog letter hletter) ?_
  rw [← hsame]
  exact hpended log' hlog' letter' hletter'

/-- Once every chunk has been posted the whole list is accounted for. -/
theorem Batched.published (h : Batched D index docs state) (hempty : state.chunk = [])
    (hnodup : docs.Nodup) : Published D index docs state.worst state.logs := by
  have hparts : state.logs.flatMap ChunkLog.docs = docs := by
    rw [← h.parts, hempty, List.append_nil]
  rw [← hparts] at hnodup
  have hletters := nodup_deadLettered hnodup (fun log hlog => (h.settled log hlog).2.once)
    fun log hlog => (h.settled log hlog).2.pended
  constructor
  · exact hparts
  · exact fun log hlog => (h.settled log hlog).1
  · exact fun log hlog => (h.settled log hlog).2.atMost
  · exact fun log hlog => (h.settled log hlog).2.within
  · intro log hlog letter hletter
    have hsettled := (h.settled log hlog).2
    exact ⟨hsettled.indexed letter hletter, hsettled.pended letter hletter⟩
  · intro doc hdoc
    rw [← hparts] at hdoc
    obtain ⟨log, hlog, hmem⟩ := List.mem_flatMap.mp hdoc
    have hsettled := (h.settled log hlog).2
    -- the attempts and the dead letters of a document are those of its own chunk
    have haccepted : ReportedAccepted D state.logs doc ↔ ∃ sent ∈ log.attempts, Accepts D sent doc := by
      constructor
      · rintro ⟨log', hlog', sent, hsent, haccepts⟩
        have hdoc' := ((h.settled log' hlog').2.within sent hsent).subset haccepts.mem
        rw [eq_of_mem_docs hnodup hlog hlog' hmem hdoc']
        exact ⟨sent, hsent, haccepts⟩
      · rintro ⟨sent, hsent, haccepts⟩
        exact ⟨log, hlog, sent, hsent, haccepts⟩
    have hfiled : doc ∈ deadLettered state.logs ↔ doc ∈ log.deadLetters.map DeadLetter.doc := by
      constructor
      · intro hin
        obtain ⟨log', hlog', hletter⟩ := List.mem_flatMap.mp hin
        obtain ⟨letter, hletter', rfl⟩ := List.mem_map.mp hletter
        have hdoc' := (h.settled log' hlog').2.pended letter hletter'
        rw [eq_of_mem_docs hnodup hlog hlog' hmem hdoc']
        exact hletter
      · exact fun hin => List.mem_flatMap.mpr ⟨log, hlog, hin⟩
    rw [haccepted]
    by_cases hin : doc ∈ deadLettered state.logs
    · exact .inr ⟨(hsettled.settled doc hmem).mp (hfiled.mp hin), List.count_eq_one_of_mem hletters hin⟩
    · left
      refine ⟨?_, List.count_eq_zero.mpr hin⟩
      by_contra hnot
      exact hin (hfiled.mpr ((hsettled.settled doc hmem).mpr hnot))
  · exact fun log hlog => (h.settled log hlog).2.retried
  · rw [h.worst_eq_zero_iff, deadLettered, List.flatMap_eq_nil_iff]
    refine forall₂_congr fun log hlog => ?_
    have hcode := (h.settled log hlog).2.code_eq_zero_iff
    simp only [true_and] at hcode
    rw [hcode, List.map_eq_nil_iff]

end

/-- Bulk publishing loses no document and files none twice, whatever the network answers, as long
as its successful answers are well-formed. -/
theorem bulkIndexDocuments_published (settings : Settings) (index : String) {wire : ℕ → Wire}
    (hwire : WellFormed D wire) (henabled : settings.enabled = true) (docs : List BulkDoc) :
    Published D index docs.zipIdx (bulkIndexDocuments D settings index wire docs).1
      (bulkIndexDocuments D settings index wire docs).2 := by
  have hnodup : docs.zipIdx.Nodup := by
    apply List.Nodup.of_map Prod.snd
    rw [List.zipIdx_map_snd]
    exact List.nodup_range'
  unfold bulkIndexDocuments
  split_ifs with hnone hdisabled
  · rw [hnone]
    exact Published.nothing index
  · rw [henabled] at hdisabled
    cases hdisabled
  · have hstart : Batched D index [] ⟨[], 0, 0, []⟩ := ⟨rfl, by simp, by simp⟩
    have hall : Batched D index docs.zipIdx
        (docs.zipIdx.foldl (addDoc D settings index wire) ⟨[], 0, 0, []⟩) :=
      hstart.addDocs hwire hnodup
    obtain ⟨hflushed, hempty⟩ := hall.flush hwire hnodup
    exact hflushed.published hempty hnodup

/-! ## One document that is taken at the second attempt -/

/-- The text of the one response that the sample network gives. -/
@[reducible] def sampleText : JsonText ℚ where
  parse body :=
    if body = "accepted" then
      some (.object [("errors", .bool false), ("items", .array [])])
    else none
  dump _ := "\x7b\"index\":\x7b\"_id\":\"1\"\x7d\x7d"

/-- The first request is answered 503, and the second with success. -/
def busyOnce : ℕ → Wire
  | 0 => .answered 503 ""
  | _ => .answered 200 "accepted"

theorem busyOnce_wellFormed : @WellFormed ℚ sampleText busyOnce := by
  intro n status response hwire hlow hhigh
  cases n with
  | zero =>
    cases hwire
    omega
  | succ n =>
    cases hwire
    exact ⟨⟨false, []⟩, rfl⟩

theorem bulkIndexDocuments_published_busyOnce :
    @Published ℚ sampleText "trades" [(⟨"1", "\x7b\x7d"⟩, 0)]
      (@bulkIndexDocuments ℚ sampleText _ {} "trades" busyOnce [⟨"1", "\x7b\x7d"⟩]).1
      (@bulkIndexDocuments ℚ sampleText _ {} "trades" busyOnce [⟨"1", "\x7b\x7d"⟩]).2 :=
  @bulkIndexDocuments_published ℚ sampleText _ {} "trades" busyOnce busyOnce_wellFormed rfl
    [⟨"1", "\x7b\x7d"⟩]

end Elastic

end BacktestEngine

import BacktestEngine.Positions.Store

/-! # The calls of one client

A client makes its calls one after another. Every store command of a call has an instant and a
way to end of its own, so a call may fail at any of its steps, and a record may expire between
any two of them.
-/

namespace BacktestEngine

namespace Positions

open Lease (Reply)

/-- The store, how many commands were issued, and those of the call in progress. -/
structure Session (D : Type) where
  store : PositionStore D
  issued : ℕ
  log : List (Command D × Reply)

inductive BookCall (D : Type)
  | savePosition (dealId : String) (payload : Payload D) (ttl : ℤ)
  | addPosition (strategyId dealId : String)
  | removePosition (strategyId dealId : String)
  | refreshPositionList (strategyId : String)
  | getPositionPayloads (strategyId : String)

variable {D : Type}

namespace BookCall

abbrev Result : BookCall D → Type
  | .getPositionPayloads _ => Option (List (String × Payload D))
  | .savePosition _ _ _ | .addPosition _ _ | .removePosition _ _ | .refreshPositionList _ => Bool

def program : (call : BookCall D) → StoreProgram D call.Result
  | .savePosition dealId payload ttl => Positions.savePosition dealId payload ttl
  | .addPosition strategyId dealId => Positions.addPosition strategyId dealId
  | .removePosition strategyId dealId => Positions.removePosition strategyId dealId
  | .refreshPositionList strategyId => Positions.refreshPositionList strategyId
  | .getPositionPayloads strategyId => Positions.getPositionPayloads strategyId

/-- Whether the caller is told that the call did what it should. -/
def succeeds : (call : BookCall D) → call.Result → Bool
  | .getPositionPayloads _, payloads => payloads.isSome
  | .savePosition _ _ _, result | .addPosition _ _, result | .removePosition _ _, result
  | .refreshPositionList _, result => result

end BookCall

/-- A call that was made, the commands it issued and how they ended. -/
structure Performed (D : Type) where
  call : BookCall D
  before : Session D
  after : Session D
  succeeded : Bool

section

variable (clock : ℕ → ℤ) (replies : ℕ → Reply)

def Session.exec (c : Command D) (s : Session D) : c.Answer × Session D :=
  let ended := PositionStore.exec (clock s.issued) [] (replies s.issued) c s.store
  (ended.1, ⟨ended.2, s.issued + 1, s.log ++ [(c, replies s.issued)]⟩)

def perform (call : BookCall D) (s : Session D) : call.Result × Session D :=
  call.program.run (Session.exec clock replies) { s with log := [] }

def performed (s : Session D) (call : BookCall D) : Performed D :=
  let ended := perform clock replies call s
  ⟨call, s, ended.2, call.succeeds ended.1⟩

end

/-- The command writes the list of the strategy. -/
def Command.WritesList (strategyId : String) : Command D → Prop
  | .setList id _ | .deleteList id => id = strategyId
  | _ => False

instance (strategyId : String) : (c : Command D) → Decidable (c.WritesList strategyId)
  | .setList id _ | .deleteList id => inferInstanceAs (Decidable (id = strategyId))
  | .getList _ | .scanLists | .getPosition _ | .getMultiple _ | .setPosition _ _ _ | .getDelete _
  | .setHistory _ _ | .getReceipt _ _ | .setReceipt _ _ _ | .fetchPositions | .readClock =>
    inferInstanceAs (Decidable False)

namespace Performed

variable (p : Performed D) (strategyId dealId : String)

/-- A write of the list reached the store, and the store ran it. -/
def Wrote : Prop := ∃ c r, (c, r) ∈ p.after.log ∧ c.WritesList strategyId ∧ r.runs = true

instance : Decidable (p.Wrote strategyId) :=
  decidable_of_iff (∃ entry ∈ p.after.log, entry.1.WritesList strategyId ∧ entry.2.runs = true) <|
    Prod.exists.trans Iff.rfl

/-- The call left the lists alone. -/
structure Keeps : Prop where
  silent : ∀ strategyId, ¬ p.Wrote strategyId
  lists : p.after.store.lists = p.before.store.lists

/-- The call made one list what it is to be, and left the others alone. -/
structure Writes (text : Option (Stored (List String))) : Prop where
  wrote : p.Wrote strategyId
  only : ∀ id, p.Wrote id → id = strategyId
  written : p.after.store.lists.lookup strategyId = text
  others : ∀ id, id ≠ strategyId →
    p.after.store.lists.lookup id = p.before.store.lists.lookup id

end Performed

/-! ## What each call does -/

variable {clock : ℕ → ℤ} {replies : ℕ → Reply} {s : Session D} {strategyId dealId : String}

theorem run_command_bind {α : Type} (c : Command D) (f : c.Answer → StoreProgram D α) :
    (command c >>= f).run (Session.exec clock replies) s =
      (f (Session.exec clock replies c s).1).run (Session.exec clock replies)
        (Session.exec clock replies c s).2 := rfl

theorem run_fetchList_bind {α : Type} (f : ListState → StoreProgram D α) :
    (fetchList strategyId >>= f).run (Session.exec clock replies) s =
      (f (.ofAnswer ((replies s.issued).answer (s.store.lists.lookup strategyId)))).run
        (Session.exec clock replies) (Session.exec clock replies (.getList strategyId) s).2 := rfl

/-- A read leaves the store alone. -/
theorem store_getList : (Session.exec clock replies (.getList strategyId) s).2.store = s.store := by
  change (if _ then _ else _) = _
  split_ifs <;> rfl

/-- What a list that was read tells. -/
theorem listState_answer (hreadable : s.store.Readable) (strategyId : String) (r : Reply) :
    ListState.ofAnswer (r.answer (s.store.lists.lookup strategyId)) = .failed ∧ r ≠ .answered ∨
    ListState.ofAnswer (r.answer (s.store.lists.lookup strategyId)) = .missing ∧ r = .answered ∧
      s.store.lists.lookup strategyId = none ∨
    ListState.ofAnswer (r.answer (s.store.lists.lookup strategyId)) =
      .ok (s.store.listed strategyId) ∧ r = .answered ∧
      s.store.lists.lookup strategyId = some (.value (s.store.listed strategyId)) := by
  cases r with
  | answered =>
    cases hlookup : s.store.lists.lookup strategyId with
    | none => exact .inr (.inl ⟨rfl, rfl, rfl⟩)
    | some text =>
      cases text with
      | malformed => exact absurd hlookup (hreadable strategyId)
      | value dealIds =>
        have hlisted : s.store.listed strategyId = dealIds := by
          rw [PositionStore.listed, hlookup]
          rfl
        rw [hlisted]
        exact .inr (.inr ⟨rfl, rfl, rfl⟩)
  | lost => exact .inl ⟨rfl, by decide⟩
  | unreached => exact .inl ⟨rfl, by decide⟩

/-- The commands so far write no list. -/
def Silent (log : List (Command D × Reply)) : Prop :=
  ∀ entry ∈ log, ∀ strategyId, ¬ entry.1.WritesList strategyId

theorem Silent.concat {log : List (Command D × Reply)} (h : Silent log) {c : Command D}
    (hc : ∀ strategyId, ¬ c.WritesList strategyId) (r : Reply) : Silent (log ++ [(c, r)]) := by
  intro entry hentry
  obtain hentry | hentry := List.mem_append.mp hentry
  · exact h entry hentry
  · rw [List.mem_singleton.mp hentry]
    exact hc

section Ends

variable {t u : Session D} {call : BookCall D} {succeeded : Bool}
  {text : Option (Stored (List String))}

theorem Performed.Keeps.of_silent (hsilent : Silent t.log)
    (hlists : t.store.lists = s.store.lists) :
    (⟨call, s, t, succeeded⟩ : Performed D).Keeps := by
  refine ⟨?_, hlists⟩
  rintro id ⟨c, r, hmem, hwrites, -⟩
  exact hsilent _ hmem id hwrites

/-- The last command of a call writes a list, or does not reach the store. -/
theorem ends_with_write {c : Command D} (hsilent : Silent u.log)
    (hlists : u.store.lists = s.store.lists) (hwrites : ∀ id, c.WritesList id ↔ id = strategyId)
    (hlookup : (u.store.effect (clock u.issued) c).lists.lookup strategyId = text)
    (hothers : ∀ id, id ≠ strategyId →
      (u.store.effect (clock u.issued) c).lists.lookup id = u.store.lists.lookup id) :
    let p : Performed D := ⟨call, s, (Session.exec clock replies c u).2, succeeded⟩
    ((replies u.issued).runs = true ∧ p.Writes strategyId text) ∨
      ((replies u.issued).runs = false ∧ p.Keeps) := by
  cases hruns : (replies u.issued).runs with
  | true =>
    have hstore : (Session.exec clock replies c u).2.store =
        u.store.effect (clock u.issued) c := if_pos hruns
    refine .inl ⟨rfl, ⟨c, _, List.mem_append_right _ List.mem_cons_self,
      (hwrites _).mpr rfl, hruns⟩, ?_, ?_, ?_⟩
    · rintro id ⟨c', r, hmem, hid, -⟩
      obtain hmem | hmem := List.mem_append.mp hmem
      · exact absurd hid (hsilent _ hmem id)
      · cases List.mem_singleton.mp hmem
        exact (hwrites id).mp hid
    · change (Session.exec clock replies c u).2.store.lists.lookup strategyId = _
      rw [hstore]
      exact hlookup
    · intro id hid
      change (Session.exec clock replies c u).2.store.lists.lookup id = s.store.lists.lookup id
      rw [hstore, hothers id hid, hlists]
  | false =>
    have hstore : (Session.exec clock replies c u).2.store = u.store :=
      if_neg (by rw [hruns]; decide)
    refine .inr ⟨rfl, ?_, ?_⟩
    · rintro id ⟨c', r, hmem, hid, hr⟩
      obtain hmem | hmem := List.mem_append.mp hmem
      · exact hsilent _ hmem id hid
      · cases List.mem_singleton.mp hmem
        rw [hruns] at hr
        cases hr
    · change (Session.exec clock replies c u).2.store.lists = s.store.lists
      rw [hstore, hlists]

theorem ends_with_setList (hsilent : Silent u.log) (hlists : u.store.lists = s.store.lists)
    (dealIds : List String) :
    let p : Performed D := ⟨call, s,
      (Session.exec clock replies (.setList strategyId dealIds) u).2, succeeded⟩
    ((replies u.issued).runs = true ∧ p.Writes strategyId (some (.value dealIds))) ∨
      ((replies u.issued).runs = false ∧ p.Keeps) := by
  refine ends_with_write hsilent hlists (fun id => ?_) ?_ ?_
  · exact eq_comm
  · exact AList.lookup_insert _
  · exact fun id hid => AList.lookup_insert_ne hid

theorem ends_with_deleteList (hsilent : Silent u.log) (hlists : u.store.lists = s.store.lists) :
    let p : Performed D := ⟨call, s,
      (Session.exec clock replies (.deleteList strategyId) u).2, succeeded⟩
    ((replies u.issued).runs = true ∧ p.Writes strategyId none) ∨
      ((replies u.issued).runs = false ∧ p.Keeps) := by
  refine ends_with_write hsilent hlists (fun id => ?_) ?_ ?_
  · exact eq_comm
  · exact AList.lookup_erase _ _
  · exact fun id hid => AList.lookup_erase_ne hid

end Ends

/-- No reply is lost behind the command it answers. -/
def NoneLost (replies : ℕ → Reply) : Prop := ∀ n, replies n ≠ .lost

theorem NoneLost.answered {n : ℕ} (h : NoneLost replies) (hruns : (replies n).runs = true) :
    replies n = .answered := by
  have hlost := h n
  revert hruns hlost
  cases replies n <;> simp [Reply.runs]

/-- A call keeps every list, or writes that of one strategy, and its caller is told so unless the
reply is lost. Told of a success without a write, the caller knows why there was none. -/
def Performed.Ends (p : Performed D) (replies : ℕ → Reply) (strategyId : String)
    (text : Option (Stored (List String))) (needless : Prop) : Prop :=
  (p.Keeps ∧ (p.succeeded = true → needless)) ∨
    (p.Writes strategyId text ∧ (NoneLost replies → p.succeeded = true))

theorem performed_eq {call : BookCall D} {result : call.Result} {t : Session D}
    (h : perform clock replies call s = (result, t)) :
    performed clock replies s call = ⟨call, s, t, call.succeeds result⟩ := by
  rw [performed, h]

section Calls

variable {needless : Prop} {call : BookCall D} {u : Session D} {dealIds : List String}
  {text : Option (Stored (List String))}

theorem ends_of_write {c : Command D} {succeeded : Bool}
    (hended : let p : Performed D := ⟨call, s, (Session.exec clock replies c u).2, succeeded⟩
      ((replies u.issued).runs = true ∧ p.Writes strategyId text) ∨
        ((replies u.issued).runs = false ∧ p.Keeps))
    (hsucceeded : succeeded = true ↔ replies u.issued = .answered) :
    (⟨call, s, (Session.exec clock replies c u).2, succeeded⟩ : Performed D).Ends replies
      strategyId text needless := by
  obtain ⟨hruns, hwrites⟩ | ⟨hruns, hkeeps⟩ := hended
  · exact .inr ⟨hwrites, fun hnone => hsucceeded.mpr (hnone.answered hruns)⟩
  · refine .inl ⟨hkeeps, fun hdone => ?_⟩
    have hanswered := hsucceeded.mp hdone
    rw [hanswered] at hruns
    cases hruns

theorem stored_answer (r : Reply) : stored (r.answer true) = true ↔ r = .answered := by
  cases r <;> decide

theorem isSome_answer (r : Reply) : (r.answer ()).isSome = true ↔ r = .answered := by
  cases r <;> decide

/-- The session behind the read of a list, the first command of a call. -/
def afterRead (clock : ℕ → ℤ) (replies : ℕ → Reply) (strategyId : String) (u : Session D) :
    Session D := (Session.exec clock replies (.getList strategyId) u).2

theorem store_afterRead : (afterRead clock replies strategyId u).store = u.store := store_getList

theorem silent_afterRead (h : Silent u.log) :
    Silent (afterRead clock replies strategyId u).log := h.concat (fun _ => id) _

theorem silent_nil : Silent ([] : List (Command D × Reply)) := nofun

theorem performed_addPosition (hreadable : s.store.Readable) (clock : ℕ → ℤ)
    (replies : ℕ → Reply) (strategyId dealId : String) :
    (performed clock replies s (.addPosition strategyId dealId)).Ends replies strategyId
      (some (.value (s.store.listed strategyId ++ [dealId]))) (dealId ∈ s.store.listed strategyId) ∧
    (dealId ∈ s.store.listed strategyId →
      (performed clock replies s (.addPosition strategyId dealId)).Keeps) := by
  have hsilent : Silent (afterRead clock replies strategyId { s with log := [] }).log :=
    silent_afterRead silent_nil
  have hlists : (afterRead clock replies strategyId { s with log := [] }).store.lists =
      s.store.lists := by rw [store_afterRead]
  -- a list that is written gets the deal at its end
  have hwrites {dealIds : List String} (hdealIds : dealIds = s.store.listed strategyId)
      (hnew : dealId ∉ s.store.listed strategyId)
      (hended : perform clock replies (.addPosition strategyId dealId) s =
        (stored ((replies (s.issued + 1)).answer true),
          (Session.exec clock replies (.setList strategyId (dealIds ++ [dealId]))
            (afterRead clock replies strategyId { s with log := [] })).2)) :
      (performed clock replies s (.addPosition strategyId dealId)).Ends replies strategyId
        (some (.value (s.store.listed strategyId ++ [dealId])))
        (dealId ∈ s.store.listed strategyId) ∧
      (dealId ∈ s.store.listed strategyId →
        (performed clock replies s (.addPosition strategyId dealId)).Keeps) := by
    refine ⟨?_, fun hmem => absurd hmem hnew⟩
    rw [performed_eq hended, ← hdealIds]
    exact ends_of_write (ends_with_setList hsilent hlists _) (stored_answer _)
  obtain ⟨hstate, -⟩ | ⟨hstate, -, hlookup⟩ | ⟨hstate, -, -⟩ :=
    listState_answer hreadable strategyId (replies s.issued)
  · have hended : perform clock replies (.addPosition strategyId dealId) s =
        (false, afterRead clock replies strategyId { s with log := [] }) := by
      refine (run_fetchList_bind _).trans ?_
      dsimp only
      rw [hstate]
      rfl
    rw [performed_eq hended]
    exact ⟨.inl ⟨.of_silent hsilent hlists, fun h => absurd h Bool.false_ne_true⟩,
      fun _ => .of_silent hsilent hlists⟩
  · have hnone : s.store.listed strategyId = [] := by
      rw [PositionStore.listed, hlookup]
      rfl
    apply hwrites hnone.symm (by rw [hnone]; exact List.not_mem_nil)
    refine (run_fetchList_bind _).trans ?_
    dsimp only
    rw [hstate]
    rfl
  · by_cases hmem : dealId ∈ s.store.listed strategyId
    · have hended : perform clock replies (.addPosition strategyId dealId) s =
          (true, afterRead clock replies strategyId { s with log := [] }) := by
        refine (run_fetchList_bind _).trans ?_
        dsimp only
        rw [hstate]
        dsimp only
        rw [if_pos hmem]
        rfl
      rw [performed_eq hended]
      exact ⟨.inl ⟨.of_silent hsilent hlists, fun _ => hmem⟩, fun _ => .of_silent hsilent hlists⟩
    · apply hwrites rfl hmem
      refine (run_fetchList_bind _).trans ?_
      dsimp only
      rw [hstate]
      dsimp only
      rw [if_neg hmem]
      rfl

theorem positions_exec {c : Command D}
    (h : (u.store.effect (clock u.issued) c).positions = u.store.positions) :
    (Session.exec clock replies c u).2.store.positions = u.store.positions := by
  change (if _ then _ else _ : PositionStore D).positions = _
  split_ifs
  · exact h
  · rfl

/-- What a refresh leaves behind under the key of a list. -/
def rewritten (survivors : List String) : Option (Stored (List String)) :=
  if survivors = [] then none else some (.value survivors)

theorem dealsOf_rewritten (survivors : List String) :
    dealsOf (rewritten survivors) = survivors := by
  rw [rewritten]
  split_ifs with h
  · exact h.symm
  · rfl

variable (clock replies strategyId call needless) in
/-- The survivors are written, or the list is deleted if there are none. -/
theorem ends_rewriteList (hsilent : Silent u.log) (hlists : u.store.lists = s.store.lists)
    (survivors : List String) :
    let r := (rewriteList strategyId survivors).run (Session.exec clock replies) u
    r.2.store.positions = u.store.positions ∧
      (⟨call, s, r.2, r.1⟩ : Performed D).Ends replies strategyId (rewritten survivors)
        needless := by
  by_cases hsurvivors : survivors = []
  · have hrun : (rewriteList strategyId survivors).run (Session.exec clock replies) u =
        (((replies u.issued).answer ()).isSome,
          (Session.exec clock replies (.deleteList strategyId) u).2) := by
      rw [rewriteList, if_pos hsurvivors]
      rfl
    rw [hrun, rewritten, if_pos hsurvivors]
    refine ⟨positions_exec (c := .deleteList strategyId) rfl, ?_⟩
    exact ends_of_write (ends_with_deleteList hsilent hlists) (isSome_answer _)
  · have hrun : (rewriteList strategyId survivors).run (Session.exec clock replies) u =
        (stored ((replies u.issued).answer true),
          (Session.exec clock replies (.setList strategyId survivors) u).2) := by
      rw [rewriteList, if_neg hsurvivors]
      rfl
    rw [hrun, rewritten, if_neg hsurvivors]
    refine ⟨positions_exec (c := .setList strategyId survivors) rfl, ?_⟩
    exact ends_of_write (ends_with_setList hsilent hlists survivors) (stored_answer _)

/-- The session behind the read of the records, the second command of a refresh. -/
def afterRecords (clock : ℕ → ℤ) (replies : ℕ → Reply) (dealIds : List String) (u : Session D) :
    Session D := (Session.exec clock replies (.getMultiple dealIds) u).2

theorem store_afterRecords : (afterRecords clock replies dealIds u).store = u.store := by
  change (if _ then _ else _) = _
  split_ifs <;> rfl

theorem run_getMultiple_bind {α : Type} {n : ℕ} (hstore : u.store = s.store)
    (hissued : u.issued = n) (dealIds : List String)
    (f : Option (String → Option (Payload D)) → StoreProgram D α) :
    (command (.getMultiple dealIds) >>= f).run (Session.exec clock replies) u =
      (f ((replies n).answer fun id => if id ∈ dealIds then
        s.store.positions.get (clock n) id else none)).run (Session.exec clock replies)
        (afterRecords clock replies dealIds u) := by
  rw [run_command_bind, ← hstore, ← hissued]
  rfl

theorem silent_afterRecords (h : Silent u.log) :
    Silent (afterRecords clock replies dealIds u).log := h.concat (fun _ => id) _

/-- The deals whose records are found are those whose records are alive. -/
theorem liveDeals_held (store : PositionStore D) (now : ℤ) (dealIds : List String) :
    liveDeals dealIds (fun id => if id ∈ dealIds then store.positions.get now id else none) =
      dealIds.filter fun id => decide (store.positions.Held now id) := by
  apply List.filter_congr
  intro id hid
  dsimp only
  rw [if_pos hid, Bool.eq_iff_iff, decide_eq_true_eq]
  exact Iff.rfl

/-- A refresh keeps of the list the deals whose records are alive when they are read. -/
theorem performed_refreshPositionList (hreadable : s.store.Readable) (clock : ℕ → ℤ)
    (replies : ℕ → Reply) (strategyId : String) :
    (performed clock replies s (.refreshPositionList strategyId)).after.store.positions =
        s.store.positions ∧
    (performed clock replies s (.refreshPositionList strategyId)).Ends replies strategyId
      (rewritten ((s.store.listed strategyId).filter fun id =>
        decide (s.store.positions.Held (clock (s.issued + 1)) id)))
      (s.store.lists.lookup strategyId = none) := by
  have hsilent : Silent (afterRead clock replies strategyId { s with log := [] }).log :=
    silent_afterRead silent_nil
  have hlists : (afterRead clock replies strategyId { s with log := [] }).store.lists =
      s.store.lists := by rw [store_afterRead]
  have hpositions : (afterRead clock replies strategyId { s with log := [] }).store.positions =
      s.store.positions := by rw [store_afterRead]
  obtain ⟨hstate, -⟩ | ⟨hstate, -, hlookup⟩ | ⟨hstate, -, -⟩ :=
    listState_answer hreadable strategyId (replies s.issued)
  · have hended : perform clock replies (.refreshPositionList strategyId) s =
        (false, afterRead clock replies strategyId { s with log := [] }) := by
      refine (run_fetchList_bind _).trans ?_
      dsimp only
      rw [hstate]
      rfl
    rw [performed_eq hended]
    exact ⟨hpositions,
      .inl ⟨.of_silent hsilent hlists, fun h => absurd h Bool.false_ne_true⟩⟩
  · have hended : perform clock replies (.refreshPositionList strategyId) s =
        (true, afterRead clock replies strategyId { s with log := [] }) := by
      refine (run_fetchList_bind _).trans ?_
      dsimp only
      rw [hstate]
      rfl
    rw [performed_eq hended]
    exact ⟨hpositions, .inl ⟨.of_silent hsilent hlists, fun _ => hlookup⟩⟩
  · cases hlisted : s.store.listed strategyId with
    | nil =>
      have hended : perform clock replies (.refreshPositionList strategyId) s =
          (rewriteList strategyId []).run (Session.exec clock replies)
            (afterRead clock replies strategyId { s with log := [] }) := by
        refine (run_fetchList_bind _).trans ?_
        dsimp only
        rw [hstate, hlisted]
        rfl
      obtain ⟨hsame, hends⟩ := ends_rewriteList clock replies strategyId
        (s.store.lists.lookup strategyId = none) (.refreshPositionList strategyId) hsilent hlists []
      rw [performed, hended]
      exact ⟨hsame.trans hpositions, hends⟩
    | cons first rest =>
      have hstore' : (afterRead clock replies strategyId { s with log := [] }).store = s.store :=
        store_afterRead
      have hsilent' : Silent (afterRecords clock replies (first :: rest)
          (afterRead clock replies strategyId { s with log := [] })).log :=
        silent_afterRecords hsilent
      have hstore : (afterRecords clock replies (first :: rest)
          (afterRead clock replies strategyId { s with log := [] })).store = s.store := by
        rw [store_afterRecords, store_afterRead]
      have hlists' := congrArg PositionStore.lists hstore
      have hpositions' := congrArg PositionStore.positions hstore
      by_cases hanswered : replies (s.issued + 1) = .answered
      · have hended : perform clock replies (.refreshPositionList strategyId) s =
            (rewriteList strategyId ((first :: rest).filter fun id =>
              decide (s.store.positions.Held (clock (s.issued + 1)) id))).run
              (Session.exec clock replies) (afterRecords clock replies (first :: rest)
                (afterRead clock replies strategyId { s with log := [] })) := by
          refine (run_fetchList_bind _).trans ?_
          dsimp only
          rw [hstate, hlisted]
          refine (run_getMultiple_bind (n := s.issued + 1) hstore' rfl _ _).trans ?_
          rw [hanswered, ← liveDeals_held]
          rfl
        obtain ⟨hsame, hends⟩ := ends_rewriteList clock replies strategyId
          (s.store.lists.lookup strategyId = none) (.refreshPositionList strategyId) hsilent'
          hlists'
          ((first :: rest).filter fun id =>
            decide (s.store.positions.Held (clock (s.issued + 1)) id))
        rw [performed, hended]
        exact ⟨hsame.trans hpositions', hends⟩
      · have hended : perform clock replies (.refreshPositionList strategyId) s =
            (false, afterRecords clock replies (first :: rest)
              (afterRead clock replies strategyId { s with log := [] })) := by
          refine (run_fetchList_bind _).trans ?_
          dsimp only
          rw [hstate, hlisted]
          refine (run_getMultiple_bind (n := s.issued + 1) hstore' rfl _ _).trans ?_
          cases hreply : replies (s.issued + 1) with
          | answered => exact absurd hreply hanswered
          | lost => rfl
          | unreached => rfl
        rw [performed_eq hended]
        exact ⟨hpositions',
          .inl ⟨.of_silent hsilent' hlists', fun h => absurd h Bool.false_ne_true⟩⟩

/-- What is left of a removal once the record is taken: the deal is struck from the list. -/
theorem ends_strikeDeal (hreadable : s.store.Readable) (hsilent : Silent u.log)
    (hlists : u.store.lists = s.store.lists) (clock : ℕ → ℤ) (replies : ℕ → Reply)
    (call : BookCall D) (strategyId dealId : String) :
    let r := (strikeDeal strategyId dealId).run (Session.exec clock replies) u
    (⟨call, s, r.2, r.1⟩ : Performed D).Ends replies strategyId
      (some (.value ((s.store.listed strategyId).filter (· ≠ dealId))))
      (s.store.lists.lookup strategyId = none) := by
  have hreadable' : u.store.Readable := by
    intro id
    rw [hlists]
    exact hreadable id
  have hlisted : u.store.listed strategyId = s.store.listed strategyId := by
    rw [PositionStore.listed, PositionStore.listed, hlists]
  have hsilent' : Silent (afterRead clock replies strategyId u).log := silent_afterRead hsilent
  have hlists' : (afterRead clock replies strategyId u).store.lists = s.store.lists := by
    rw [store_afterRead, hlists]
  obtain ⟨hstate, -⟩ | ⟨hstate, -, hlookup⟩ | ⟨hstate, -, -⟩ :=
    listState_answer hreadable' strategyId (replies u.issued)
  · have hended : (strikeDeal strategyId dealId).run (Session.exec clock replies) u =
        (false, afterRead clock replies strategyId u) := by
      refine (run_fetchList_bind _).trans ?_
      rw [hstate]
      rfl
    rw [hended]
    exact .inl ⟨.of_silent hsilent' hlists', fun h => absurd h Bool.false_ne_true⟩
  · have hended : (strikeDeal strategyId dealId).run (Session.exec clock replies) u =
        (true, afterRead clock replies strategyId u) := by
      refine (run_fetchList_bind _).trans ?_
      rw [hstate]
      rfl
    rw [hended]
    exact .inl ⟨.of_silent hsilent' hlists', fun _ => by rwa [hlists] at hlookup⟩
  · have hended : (strikeDeal strategyId dealId).run (Session.exec clock replies) u =
        (stored ((replies (u.issued + 1)).answer true), (Session.exec clock replies (.setList
          strategyId ((u.store.listed strategyId).filter (· ≠ dealId)))
            (afterRead clock replies strategyId u)).2) := by
      refine (run_fetchList_bind _).trans ?_
      rw [hstate]
      rfl
    rw [hended, hlisted]
    exact ends_of_write (ends_with_setList hsilent' hlists' _) (stored_answer _)

theorem lists_exec {c : Command D}
    (h : (u.store.effect (clock u.issued) c).lists = u.store.lists) :
    (Session.exec clock replies c u).2.store.lists = u.store.lists := by
  change (if _ then _ else _ : PositionStore D).lists = _
  split_ifs
  · exact h
  · rfl

theorem run_getDelete_bind {α : Type} (f : Option (Option (Payload D)) → StoreProgram D α) :
    (command (.getDelete dealId) >>= f).run (Session.exec clock replies) u =
      (f ((replies u.issued).answer (u.store.positions.get (clock u.issued) dealId))).run
        (Session.exec clock replies) (Session.exec clock replies (.getDelete dealId) u).2 := rfl

theorem performed_removePosition (hreadable : s.store.Readable) (clock : ℕ → ℤ)
    (replies : ℕ → Reply) (strategyId dealId : String) :
    (performed clock replies s (.removePosition strategyId dealId)).Ends replies strategyId
      (some (.value ((s.store.listed strategyId).filter (· ≠ dealId))))
      (s.store.lists.lookup strategyId = none) := by
  have hsilent : Silent (Session.exec clock replies (.getDelete dealId)
      { s with log := [] }).2.log := silent_nil.concat (fun _ => id) _
  have hlists : (Session.exec clock replies (.getDelete dealId)
      { s with log := [] }).2.store.lists = s.store.lists :=
    lists_exec (c := .getDelete dealId) (u := { s with log := [] }) rfl
  have htaken : perform clock replies (.removePosition strategyId dealId) s = _ :=
    run_getDelete_bind _
  dsimp only at htaken
  by_cases hanswered : replies s.issued = .answered
  · cases hpayload : s.store.positions.get (clock s.issued) dealId with
    | none =>
      have hended : perform clock replies (.removePosition strategyId dealId) s =
          (strikeDeal strategyId dealId).run (Session.exec clock replies)
            (Session.exec clock replies (.getDelete dealId) { s with log := [] }).2 := by
        refine htaken.trans ?_
        rw [hanswered, hpayload]
        rfl
      rw [performed, hended]
      exact ends_strikeDeal hreadable hsilent hlists clock replies _ _ _
    | some payload =>
      have hended : perform clock replies (.removePosition strategyId dealId) s =
          (strikeDeal strategyId dealId).run (Session.exec clock replies)
            (Session.exec clock replies (.setHistory dealId payload)
              (Session.exec clock replies (.getDelete dealId) { s with log := [] }).2).2 := by
        refine htaken.trans ?_
        rw [hanswered, hpayload]
        rfl
      rw [performed, hended]
      refine ends_strikeDeal hreadable (hsilent.concat (fun _ => id) _) ?_ clock replies _ _ _
      exact (lists_exec (c := .setHistory dealId payload) rfl).trans hlists
  · have hended : perform clock replies (.removePosition strategyId dealId) s =
        (false, (Session.exec clock replies (.getDelete dealId) { s with log := [] }).2) := by
      refine htaken.trans ?_
      cases hreply : replies s.issued with
      | answered => exact absurd hreply hanswered
      | lost => rfl
      | unreached => rfl
    rw [performed_eq hended]
    exact .inl ⟨.of_silent hsilent hlists, fun h => absurd h Bool.false_ne_true⟩

theorem performed_savePosition (clock : ℕ → ℤ) (replies : ℕ → Reply) (dealId : String)
    (payload : Payload D) (ttl : ℤ) :
    (performed clock replies s (.savePosition dealId payload ttl)).Keeps := by
  have hended : perform clock replies (.savePosition dealId payload ttl) s = (_,
      (Session.exec clock replies (.setPosition dealId payload ttl) { s with log := [] }).2) := rfl
  rw [performed_eq hended]
  exact .of_silent (silent_nil.concat (fun _ => id) _)
    (lists_exec (c := .setPosition dealId payload ttl) (u := { s with log := [] }) rfl)

/-- What a reader of the payloads is given is what the store holds when the records are read. -/
theorem performed_getPositionPayloads (hreadable : s.store.Readable) (clock : ℕ → ℤ)
    (replies : ℕ → Reply) (strategyId : String) :
    (performed clock replies s (.getPositionPayloads strategyId)).Keeps ∧
    ∀ payloads, (perform clock replies (.getPositionPayloads strategyId) s).1 = some payloads →
      s.store.payloads (clock (s.issued + 1)) strategyId = some payloads := by
  have hsilent : Silent (afterRead clock replies strategyId { s with log := [] }).log :=
    silent_afterRead silent_nil
  have hstore : (afterRead clock replies strategyId { s with log := [] }).store = s.store :=
    store_afterRead
  have hlists := congrArg PositionStore.lists hstore
  have hpayloads : s.store.payloads (clock (s.issued + 1)) strategyId =
      some ((s.store.listed strategyId).filterMap fun id =>
        (s.store.positions.get (clock (s.issued + 1)) id).map (id, ·)) :=
    if_neg (hreadable strategyId)
  obtain ⟨hstate, -⟩ | ⟨hstate, -, hlookup⟩ | ⟨hstate, -, -⟩ :=
    listState_answer hreadable strategyId (replies s.issued)
  · have hended : perform clock replies (.getPositionPayloads strategyId) s =
        ((none : Option (List (String × Payload D))),
          afterRead clock replies strategyId { s with log := [] }) := by
      refine (run_fetchList_bind _).trans ?_
      dsimp only
      rw [hstate]
      rfl
    rw [performed_eq hended, hended]
    exact ⟨.of_silent hsilent hlists, fun _ h => by cases h⟩
  · have hended : perform clock replies (.getPositionPayloads strategyId) s =
        (some ([] : List (String × Payload D)),
          afterRead clock replies strategyId { s with log := [] }) := by
      refine (run_fetchList_bind _).trans ?_
      dsimp only
      rw [hstate]
      rfl
    have hnone : s.store.listed strategyId = [] := by
      rw [PositionStore.listed, hlookup]
      rfl
    rw [performed_eq hended, hended, hpayloads, hnone]
    exact ⟨.of_silent hsilent hlists, fun payloads h => h⟩
  · cases hlisted : s.store.listed strategyId with
    | nil =>
      have hended : perform clock replies (.getPositionPayloads strategyId) s =
          (some ([] : List (String × Payload D)),
            afterRead clock replies strategyId { s with log := [] }) := by
        refine (run_fetchList_bind _).trans ?_
        dsimp only
        rw [hstate, hlisted]
        rfl
      rw [performed_eq hended, hended, hpayloads, hlisted]
      exact ⟨.of_silent hsilent hlists, fun payloads h => h⟩
    | cons first rest =>
      have hsilent' : Silent (afterRecords clock replies (first :: rest)
          (afterRead clock replies strategyId { s with log := [] })).log :=
        silent_afterRecords hsilent
      have hlists' : (afterRecords clock replies (first :: rest)
          (afterRead clock replies strategyId { s with log := [] })).store.lists =
          s.store.lists := by rw [store_afterRecords, store_afterRead]
      by_cases hanswered : replies (s.issued + 1) = .answered
      · have hended : perform clock replies (.getPositionPayloads strategyId) s =
            (some ((first :: rest).filterMap fun id =>
              (s.store.positions.get (clock (s.issued + 1)) id).map (id, ·)),
              afterRecords clock replies (first :: rest)
                (afterRead clock replies strategyId { s with log := [] })) := by
          refine (run_fetchList_bind _).trans ?_
          dsimp only
          rw [hstate, hlisted]
          refine (run_getMultiple_bind (n := s.issued + 1) hstore rfl _ _).trans ?_
          rw [hanswered]
          refine congrArg (fun found => (some found, _)) (List.filterMap_congr fun id hid => ?_)
          dsimp only
          rw [if_pos hid]
        rw [performed_eq hended, hended, hpayloads, hlisted]
        exact ⟨.of_silent hsilent' hlists', fun payloads h => h⟩
      · have hended : perform clock replies (.getPositionPayloads strategyId) s =
            ((none : Option (List (String × Payload D))),
              afterRecords clock replies (first :: rest)
                (afterRead clock replies strategyId { s with log := [] })) := by
          refine (run_fetchList_bind _).trans ?_
          dsimp only
          rw [hstate, hlisted]
          refine (run_getMultiple_bind (n := s.issued + 1) hstore rfl _ _).trans ?_
          cases hreply : replies (s.issued + 1) with
          | answered => exact absurd hreply hanswered
          | lost => rfl
          | unreached => rfl
        rw [performed_eq hended, hended]
        exact ⟨.of_silent hsilent' hlists', fun _ h => by cases h⟩

end Calls

end Positions

end BacktestEngine

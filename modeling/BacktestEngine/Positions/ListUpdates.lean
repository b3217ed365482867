import BacktestEngine.Library.Transition
import BacktestEngine.Positions.Store

/-! # Concurrent updates of one list

Any number of clients append to, strike from and refresh the list of one strategy,
one store command at a time. An operation reads the list, and writes it back from what
it has read; a write that covers the deals listed by then loses none of them.
-/

namespace BacktestEngine

namespace Positions

/-- The operations on the list of a strategy. -/
inductive ListCall
  | addPosition (dealId : String)
  | removePosition (dealId : String)
  | refreshPositionList
  deriving DecidableEq

def ListCall.program {D : Type} (strategyId : String) : ListCall → StoreProgram D Bool
  | .addPosition dealId => Positions.addPosition strategyId dealId
  | .removePosition dealId => Positions.removePosition strategyId dealId
  | .refreshPositionList => Positions.refreshPositionList strategyId

/-- The command writes a list or drops it. -/
def Command.isWrite {D : Type} : Command D → Bool
  | .setList _ _ | .deleteList _ => true
  | _ => false

/-- The store, the call of each client with what is left of it and the list it last read or wrote,
and the deals whose append has returned true. -/
structure UpdateState (ι D : Type) where
  store : PositionStore D
  clients : ι → Option (ListCall × StoreProgram D Bool)
  lastRead : ι → List String
  added : List String

inductive UpdateAction (ι : Type)
  | call (i : ι) (c : ListCall)
  | step (i : ι)
  deriving DecidableEq

/-- The list a client knows after a command, where it read or wrote one. -/
def knownAfter {D : Type} : (c : Command D) → c.Answer → List String → List String
  | .getList _, answer, known => (answer.map dealsOf).getD known
  | .setList _ dealIds, _, _ => dealIds
  | .deleteList _, _, _ => []
  | _, _, known => known

namespace UpdateState

variable {ι D : Type} [DecidableEq ι] (now : ℤ) (strategyId : String) (s : UpdateState ι D)

/-- The client goes on with what is left of its call, or returns. -/
def goOn (i : ι) (c : ListCall) (store : PositionStore D) (known : List String) :
    StoreProgram D Bool → UpdateState ι D
  | .call cmd k =>
    { s with
      store := store
      clients := Function.update s.clients i (some (c, .call cmd k))
      lastRead := Function.update s.lastRead i known }
  | .done result =>
    let added := match c with
      | .addPosition dealId => if result then dealId :: s.added else s.added
      | _ => s.added
    { store := store
      clients := Function.update s.clients i none
      lastRead := Function.update s.lastRead i known
      added := added }

/-- No command fails and nothing expires meanwhile. -/
def step (s : UpdateState ι D) : UpdateAction ι → Option (UpdateState ι D)
  | .call i c =>
    match s.clients i with
    | none =>
      some { s with clients := Function.update s.clients i (some (c, c.program strategyId)) }
    | some _ => none
  | .step i =>
    match s.clients i with
    | some (c, .call cmd k) =>
      let (answer, store) := PositionStore.exec now [] .answered cmd s.store
      some (s.goOn i c store (knownAfter cmd answer (s.lastRead i)) (k answer))
    | _ => none

/-- Clients that have not called yet, over keys that may be left from before. -/
def fresh (store : PositionStore D) : UpdateState ι D where
  store := store
  clients _ := none
  lastRead _ := []
  added := []

/-- The client's next command writes the list or drops it. -/
def writes (i : ι) : Bool :=
  match s.clients i with
  | some (_, .call cmd _) => cmd.isWrite
  | _ => false

/-- The client is appending the deal. -/
def appends (i : ι) (dealId : String) : Bool :=
  match s.clients i with
  | some (c, _) => c = .addPosition dealId
  | none => false

/-- A write starts from a list that had every deal listed by now whose record is there, but for the
deal it appends itself. -/
def Guarded : UpdateAction ι → Prop
  | .step i => s.writes i → ∀ dealId ∈ s.store.listed strategyId,
      s.store.positions.Held now dealId → dealId ∈ s.lastRead i ∨ s.appends i dealId
  | .call _ _ => True

instance (s : UpdateState ι D) : DecidablePred (s.Guarded now strategyId)
  | .step i => inferInstanceAs (Decidable (s.writes i → ∀ dealId ∈ s.store.listed strategyId,
      s.store.positions.Held now dealId → dealId ∈ s.lastRead i ∨ s.appends i dealId))
  | .call _ _ => isTrue trivial

/-! ## What a client knows -/

/-- The list a client last read or wrote, whether nothing came after that, and the deals it has
found or made to have no record. -/
structure Knowledge where
  list : List String
  current : Bool
  gone : String → Prop

/-- What each command of a call needs and gives: a write leaves out only deals without a record, and
has the deal that the call appends. -/
def rule (call : ListCall) : (c : Command D) → (c.Answer → Knowledge → Prop) → Knowledge → Prop
  | .getList id, post, kn => id = strategyId ∧
    ∀ list, post (some list) ⟨dealsOf list, true, kn.gone⟩
  | .setList id dealIds, post, kn => id = strategyId ∧
    (∀ dealId ∈ kn.list, dealId ∈ dealIds ∨ kn.gone dealId) ∧
    (∀ dealId, call = .addPosition dealId → dealId ∈ dealIds) ∧
    post (some true) ⟨dealIds, true, kn.gone⟩
  | .deleteList id, post, kn => id = strategyId ∧ (∀ dealId ∈ kn.list, kn.gone dealId) ∧
    (∀ dealId, call ≠ .addPosition dealId) ∧ post (some ()) ⟨[], true, kn.gone⟩
  | .getMultiple dealIds, post, kn => ∀ found, post (some found)
    ⟨kn.list, false, fun dealId => kn.gone dealId ∨ dealId ∈ dealIds ∧ found dealId = none⟩
  | .getDelete taken, post, kn => ∀ payload, post (some payload)
    ⟨kn.list, false, fun dealId => kn.gone dealId ∨ dealId = taken⟩
  | .setHistory _ _, post, kn => ∀ result, post (some result) { kn with current := false }
  | _, _, _ => False

/-- An append that returns true has just seen or written its deal. -/
def Ends (c : ListCall) (result : Bool) (kn : Knowledge) : Prop :=
  ∀ dealId, c = .addPosition dealId → result = true → kn.current = true ∧ dealId ∈ kn.list

theorem wp_addPosition (dealId : String) (kn : Knowledge) :
    (addPosition (D := D) strategyId dealId).wp (rule strategyId (.addPosition dealId))
      (Ends (.addPosition dealId)) kn := by
  simp only [addPosition, fetchList, command, Program.call_bind, Program.done_bind,
    Program.pure_eq, Program.wp_call]
  refine ⟨rfl, fun list => ?_⟩
  rcases list with - | (dealIds | -)
  · refine ⟨rfl, fun _ h => (List.not_mem_nil h).elim, ?_, ?_⟩
    · rintro d ⟨⟩
      simp
    · rintro d ⟨⟩ -
      simp
  · by_cases hmem : dealId ∈ dealIds
    · simp only [ListState.ofAnswer, if_pos hmem]
      rintro d ⟨⟩ -
      exact ⟨rfl, hmem⟩
    · simp only [ListState.ofAnswer, if_neg hmem]
      refine ⟨rfl, fun d hd => .inl (List.mem_append_left _ hd), ?_, ?_⟩
      · rintro d ⟨⟩
        simp
      · rintro d ⟨⟩ -
        simp
  · rintro d - ⟨⟩

theorem wp_rewriteList (c : ListCall) {survivors : List String} {kn : Knowledge}
    (h : ∀ dealId ∈ kn.list, dealId ∈ survivors ∨ kn.gone dealId)
    (hc : ∀ dealId, c ≠ .addPosition dealId) :
    (rewriteList (D := D) strategyId survivors).wp (rule strategyId c) (Ends c) kn := by
  unfold rewriteList
  split
  · rename_i hnil
    simp only [command, Program.call_bind, Program.done_bind, Program.pure_eq, Program.wp_call]
    refine ⟨rfl, fun d hd => ?_, hc, fun d hd => absurd hd (hc d)⟩
    rcases h d hd with hmem | hgone
    · rw [hnil] at hmem
      cases hmem
    · exact hgone
  · simp only [command, Program.call_bind, Program.done_bind, Program.pure_eq, Program.wp_call]
    exact ⟨rfl, h, fun d hd => absurd hd (hc d), fun d hd => absurd hd (hc d)⟩

theorem wp_refreshPositionList (kn : Knowledge) :
    (refreshPositionList (D := D) strategyId).wp (rule strategyId .refreshPositionList)
      (Ends .refreshPositionList) kn := by
  simp only [refreshPositionList, fetchList, command, Program.call_bind, Program.done_bind,
    Program.pure_eq, Program.wp_call]
  refine ⟨rfl, fun list => ?_⟩
  rcases list with - | (dealIds | -)
  · rintro d ⟨⟩
  · cases dealIds with
    | nil => exact wp_rewriteList strategyId _ (fun _ h => (List.not_mem_nil h).elim) (by simp)
    | cons dealId dealIds =>
      intro found
      refine wp_rewriteList strategyId _ (fun d hd => ?_) (by simp)
      by_cases hfound : found d = none
      · exact .inr (.inr ⟨hd, hfound⟩)
      · exact .inl (List.mem_filter.mpr ⟨hd, Option.isSome_iff_ne_none.mpr hfound⟩)
  · rintro d ⟨⟩

theorem wp_removePosition (dealId : String) (kn : Knowledge) :
    (removePosition (D := D) strategyId dealId).wp (rule strategyId (.removePosition dealId))
      (Ends (.removePosition dealId)) kn := by
  have hrest : ∀ kn' : Knowledge, kn'.gone dealId →
      (strikeDeal (D := D) strategyId dealId).wp (rule strategyId (.removePosition dealId))
        (Ends (.removePosition dealId)) kn' := by
    intro kn' hgone
    simp only [strikeDeal, fetchList, command, Program.call_bind, Program.done_bind,
      Program.pure_eq, Program.wp_call]
    refine ⟨rfl, fun list => ?_⟩
    rcases list with - | (dealIds | -)
    · rintro d ⟨⟩
    · refine ⟨rfl, fun d hd => ?_, ?_, ?_⟩
      · by_cases heq : d = dealId
        · exact .inr (heq ▸ hgone)
        · exact .inl (List.mem_filter.mpr ⟨hd, by simpa using heq⟩)
      · rintro d ⟨⟩
      · rintro d ⟨⟩
    · rintro d ⟨⟩
  simp only [removePosition, archivePosition, command, Program.call_bind, Program.done_bind,
    Program.wp_call]
  intro payload
  cases payload with
  | none => exact hrest _ (.inr rfl)
  | some payload => exact fun result => hrest _ (.inr rfl)

theorem wp_program (c : ListCall) (kn : Knowledge) :
    (c.program (D := D) strategyId).wp (rule strategyId c) (Ends c) kn := by
  cases c with
  | addPosition dealId => exact wp_addPosition strategyId dealId kn
  | removePosition dealId => exact wp_removePosition strategyId dealId kn
  | refreshPositionList => exact wp_refreshPositionList strategyId kn

variable {now strategyId} {s s' : UpdateState ι D}

/-- A command that its rule allows: what the client knows afterwards is so, no record is made, and
the list is as it was unless the command wrote it, from what the client knew. -/
theorem rule_exec {call : ListCall} {c : Command D} {post : c.Answer → Knowledge → Prop} {kn : Knowledge}
    {store : PositionStore D} (h : rule strategyId call c post kn)
    (hgone : ∀ dealId, kn.gone dealId → ¬ store.positions.Held now dealId) :
    let r := PositionStore.exec now [] .answered c store
    (∀ dealId, r.2.positions.Held now dealId → store.positions.Held now dealId) ∧
    (r.2.listed strategyId = store.listed strategyId ∨ c.isWrite ∧
      (∀ dealId ∈ kn.list, dealId ∈ r.2.listed strategyId ∨ kn.gone dealId) ∧
      ∀ dealId, call = .addPosition dealId → dealId ∈ r.2.listed strategyId) ∧
    ∃ kn', post r.1 kn' ∧ kn'.list = knownAfter c r.1 kn.list ∧
      (∀ dealId, kn'.gone dealId → ¬ r.2.positions.Held now dealId) ∧
      (kn'.current = true → r.2.listed strategyId = kn'.list) := by
  intro r
  cases c with
  | getList id =>
    obtain ⟨rfl, hpost⟩ := h
    exact ⟨fun _ h => h, .inl rfl, _, hpost _, rfl, hgone, fun _ => rfl⟩
  | setList id dealIds =>
    obtain ⟨rfl, hkept, happend, hpost⟩ := h
    have hlisted : r.2.listed id = dealIds := by
      simp [r, PositionStore.effect, PositionStore.listed, dealsOf]
    refine ⟨fun _ h => h, .inr ⟨rfl, ?_⟩, _, hpost, rfl, hgone, fun _ => hlisted⟩
    rw [hlisted]
    exact ⟨hkept, happend⟩
  | deleteList id =>
    obtain ⟨rfl, hkept, hcall, hpost⟩ := h
    have hlisted : r.2.listed id = [] := by
      simp [r, PositionStore.effect, PositionStore.listed, dealsOf]
    exact ⟨fun _ h => h, .inr ⟨rfl, fun d hd => .inr (hkept d hd), fun d hd => absurd hd (hcall d)⟩,
      _, hpost, rfl, hgone, fun _ => hlisted⟩
  | getMultiple dealIds =>
    refine ⟨fun _ h => h, .inl rfl, _, h _, rfl, ?_, fun h => by cases h⟩
    rintro d (hd | ⟨hd, hnone⟩)
    · exact hgone d hd
    · have hget : store.positions.get now d = none := by
        simpa [hd] using hnone
      simp [r, PositionStore.effect, Expiring.Store.Held, hget]
  | getDelete taken =>
    have hdelete : ∀ d, r.2.positions.Held now d → d ≠ taken ∧ store.positions.Held now d := by
      intro d hheld
      simp only [r, PositionStore.exec_answered, PositionStore.effect, Expiring.Store.delete,
        Expiring.Store.Held, Expiring.Store.get] at hheld
      by_cases hd : d = taken
      · subst hd
        simp at hheld
      · rw [Function.update_of_ne hd] at hheld
        exact ⟨hd, hheld⟩
    refine ⟨fun d hd => (hdelete d hd).2, .inl rfl, _, h _, rfl, ?_, fun h => by cases h⟩
    rintro d (hd | rfl) hheld
    · exact hgone d hd (hdelete d hheld).2
    · exact (hdelete d hheld).1 rfl
  | setHistory id payload =>
    exact ⟨fun _ h => h, .inl rfl, _, h _, rfl, hgone, fun h => by cases h⟩
  | scanLists | getPosition | setPosition | getReceipt | setReceipt | fetchPositions | readClock =>
    exact h.elim

/-- What every client knows is so, and every deal whose append has returned true is listed while
its record is there. -/
structure Inv (now : ℤ) (strategyId : String) (s : UpdateState ι D) : Prop where
  clients : ∀ i c p, s.clients i = some (c, p) → ∃ kn, kn.list = s.lastRead i ∧
    (∀ dealId, kn.gone dealId → ¬ s.store.positions.Held now dealId) ∧
    p.wp (rule strategyId c) (Ends c) kn
  added : ∀ dealId ∈ s.added, s.store.positions.Held now dealId →
    dealId ∈ s.store.listed strategyId

omit [DecidableEq ι] in
theorem Inv.fresh (store : PositionStore D) :
    Inv now strategyId (UpdateState.fresh store : UpdateState ι D) where
  clients _ _ _ h := by cases h
  added _ h := (List.not_mem_nil h).elim

theorem Inv.call (hi : Inv now strategyId s) {i : ι} {c : ListCall}
    (h : s.step now strategyId (.call i c) = some s') : Inv now strategyId s' := by
  simp only [step] at h
  split at h
  · cases h
    refine ⟨fun j c' p hj => ?_, hi.added⟩
    by_cases hji : j = i
    · subst hji
      simp only [Function.update_self, Option.some.injEq, Prod.mk.injEq] at hj
      obtain ⟨rfl, rfl⟩ := hj
      exact ⟨⟨s.lastRead j, false, fun _ => False⟩, rfl, fun _ h => h.elim,
        wp_program strategyId c _⟩
    · simp only [Function.update_of_ne hji] at hj
      exact hi.clients j c' p hj
  · cases h

/-- A step of a client keeps the invariant when its writes cover what is listed by now. -/
theorem Inv.step (hi : Inv now strategyId s) {i : ι} (hg : s.Guarded now strategyId (.step i))
    (h : s.step now strategyId (.step i) = some s') : Inv now strategyId s' := by
  simp only [UpdateState.step] at h
  split at h
  · rename_i c cmd k hclient
    obtain ⟨kn, hlist, hgone, hwp⟩ := hi.clients i c _ hclient
    obtain ⟨hheld, hlisted, kn', hpost, hlist', hgone', hcurrent⟩ := rule_exec hwp hgone
    set r := PositionStore.exec now [] .answered cmd s.store
    have hkept : ∀ d ∈ s.added, r.2.positions.Held now d → d ∈ r.2.listed strategyId := by
      intro d hd hheld'
      have hmem := hi.added d hd (hheld d hheld')
      rcases hlisted with heq | ⟨hwrite, hcover, happend⟩
      · rwa [heq]
      · have hwrites : s.writes i := by
          unfold writes
          rw [hclient]
          exact hwrite
        rcases hg hwrites d hmem (hheld d hheld') with hread | happends
        · rcases hcover d (hlist ▸ hread) with hd' | hd'
          · exact hd'
          · exact absurd (hheld d hheld') (hgone d hd')
        · refine happend d ?_
          simpa [appends, hclient] using happends
    have hothers : ∀ j ≠ i, ∀ c' p, s.clients j = some (c', p) → ∃ kn, kn.list = s.lastRead j ∧
        (∀ d, kn.gone d → ¬ r.2.positions.Held now d) ∧ p.wp (rule strategyId c') (Ends c') kn := by
      intro j hj c' p hp
      obtain ⟨kn₁, h₁, h₂, h₃⟩ := hi.clients j c' p hp
      exact ⟨kn₁, h₁, fun d hd hheld' => h₂ d hd (hheld d hheld'), h₃⟩
    cases h
    cases hk : k r.1 with
    | call cmd' k' =>
      refine ⟨fun j c' p hj => ?_, hkept⟩
      by_cases hji : j = i
      · subst hji
        simp only [goOn, Function.update_self, Option.some.injEq, Prod.mk.injEq] at hj ⊢
        obtain ⟨rfl, rfl⟩ := hj
        rw [hk] at hpost
        exact ⟨kn', hlist ▸ hlist', hgone', hpost⟩
      · simp only [goOn, Function.update_of_ne hji] at hj ⊢
        exact hothers j hji c' p hj
    | done result =>
      refine ⟨fun j c' p hj => ?_, ?_⟩
      · by_cases hji : j = i
        · subst hji
          simp [goOn] at hj
        · simp only [goOn, Function.update_of_ne hji] at hj ⊢
          exact hothers j hji c' p hj
      · rw [hk] at hpost
        intro d hd hheld'
        cases c with
        | addPosition dealId =>
          cases result with
          | true =>
            rcases List.mem_cons.mp hd with rfl | hd
            · obtain ⟨hcur, hmem⟩ := hpost d rfl rfl
              exact (hcurrent hcur).symm ▸ hmem
            · exact hkept d hd hheld'
          | false => exact hkept d hd hheld'
        | removePosition dealId => exact hkept d hd hheld'
        | refreshPositionList => exact hkept d hd hheld'
  · cases h

theorem run_inv {store : PositionStore D} {actions : List (UpdateAction ι)}
    (hguard : Transition.Along (step now strategyId) (Guarded now strategyId)
      (UpdateState.fresh store) actions)
    (h : Transition.exec (step now strategyId) (UpdateState.fresh store) actions = some s) :
    Inv now strategyId s := by
  refine Transition.exec_invariant_along ?_ (.fresh store) hguard h
  intro t a t' hi hg hstep
  cases a with
  | call i c => exact hi.call hstep
  | step i => exact hi.step hg hstep

/-! ## Lost updates -/

/-- When every write covers what is listed by then, a deal whose append has returned true and whose
record is there is among the payloads and in the count. -/
theorem no_lost_update (now : ℤ) (strategyId : String) {store : PositionStore D}
    {actions : List (UpdateAction ι)} {s : UpdateState ι D}
    (hrun : Transition.exec (step now strategyId) (fresh store) actions = some s)
    (hguard : Transition.Along (step now strategyId) (Guarded now strategyId) (fresh store) actions)
    {dealId : String} (hadded : dealId ∈ s.added) (hrecord : s.store.positions.Held now dealId) :
    ∃ payloads, (getPositionPayloads strategyId).run (PositionStore.exec now [] .answered) s.store =
        (some payloads, s.store) ∧ dealId ∈ payloads.map Prod.fst ∧
      (getPositionCount strategyId).run (PositionStore.exec now [] .answered) s.store =
        (some payloads.length, s.store) := by
  have hlisted := (run_inv hguard hrun).added dealId hadded hrecord
  obtain ⟨payloads, hp⟩ := PositionStore.payloads_of_mem now hlisted
  refine ⟨payloads, ?_, (PositionStore.mem_payloads hp).mpr ⟨hlisted, hrecord⟩, ?_⟩
  · rw [PositionStore.run_getPositionPayloads, hp]
  · rw [PositionStore.run_getPositionCount, hp]
    rfl

/-- A store with live records and no lists. -/
def recorded (dealIds : List String) : PositionStore Unit where
  lists := ∅
  positions dealId :=
    if dealId ∈ dealIds then
      some (.value ⟨dealId, dealId, "EURUSD", "CS.D.EURUSD.MINI.IP", "BUY", (), 110000, 109000,
        112000, "alpha", "alpha", 0⟩, second)
    else none
  history := .empty
  receipts := .empty

/-- Two clients append at the same time: both find no list, and the second write drops the deal of
the first. -/
theorem no_lost_update_two_appends :
    ∃ s, Transition.exec (step 0 "alpha") (fresh (recorded ["d1", "d2"])) [
        .call false (.addPosition "d1"), .call true (.addPosition "d2"),
        .step false, .step true, .step false, .step true] = some s ∧
      s.added = ["d2", "d1"] ∧ s.store.positions.Held 0 "d1" ∧
      s.clients false = none ∧ s.clients true = none ∧
      ∃ payloads, (getPositionPayloads "alpha").run (PositionStore.exec 0 [] .answered) s.store =
        (some payloads, s.store) ∧ payloads.map Prod.fst = ["d2"] := by
  refine ⟨_, rfl, rfl, ?_, rfl, rfl, _, rfl, rfl⟩
  decide

theorem no_lost_update_in_turn :
    ∃ s, Transition.exec (step 0 "alpha") (fresh (recorded ["d1", "d2"])) [
        .call false (.addPosition "d1"), .step false, .step false,
        .call true (.addPosition "d2"), .step true, .step true] = some s ∧
      ∃ payloads, (getPositionPayloads "alpha").run (PositionStore.exec 0 [] .answered) s.store =
          (some payloads, s.store) ∧ "d1" ∈ payloads.map Prod.fst ∧
        (getPositionCount "alpha").run (PositionStore.exec 0 [] .answered) s.store =
          (some payloads.length, s.store) := by
  let actions : List (UpdateAction Bool) := [
    .call false (.addPosition "d1"), .step false, .step false,
    .call true (.addPosition "d2"), .step true, .step true]
  have hrun : Transition.exec (step 0 "alpha") (fresh (recorded ["d1", "d2"])) actions =
      some _ := rfl
  refine ⟨_, hrun, no_lost_update 0 "alpha" hrun ?_ ?_ ?_⟩
  · decide
  · decide
  · decide

end UpdateState

end Positions

end BacktestEngine

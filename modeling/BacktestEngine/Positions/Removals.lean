import BacktestEngine.Positions.ListUpdates

/-! # Removals of closed deals

A closed deal is removed by the strategy that closes it, and by whoever hears from the
broker that it is gone. Each removal takes the record, archives it, and writes the list
back without the deal; the removals of a strategy come in any order and mix as they like.
-/

namespace BacktestEngine

namespace Positions

/-- Where a removal stands: before it takes the record, with the record it has taken, before it
reads the list, and with the list it has read. -/
inductive RemovalStage (D : Type)
  | taking
  | archiving (payload : Payload D)
  | reading
  | writing (dealIds : List String)

/-! ## What is left of a list -/

/-- The list is what was there at first without some of the deals that are removed. -/
structure Remains (orig called dealIds : List String) : Prop where
  order : dealIds = orig.filter (· ∈ dealIds)
  kept : ∀ dealId ∈ orig, dealId ∉ called → dealId ∈ dealIds

section Remains

variable {orig called called' dealIds : List String} {dealId : String}

theorem Remains.refl (orig called : List String) : Remains orig called orig where
  order := (List.filter_eq_self.mpr fun _ h => decide_eq_true h).symm
  kept _ h _ := h

theorem Remains.mono (h : Remains orig called dealIds) (hsub : ∀ d ∈ called, d ∈ called') :
    Remains orig called' dealIds where
  order := h.order
  kept d hd hnot := h.kept d hd fun hcalled => hnot (hsub d hcalled)

theorem Remains.strike (h : Remains orig called dealIds) (hd : dealId ∈ called) :
    Remains orig called (dealIds.filter (· ≠ dealId)) := by
  constructor
  · conv_lhs => rw [h.order, List.filter_filter]
    apply List.filter_congr
    intro d _
    simp [and_comm]
  · intro d horig hnot
    refine List.mem_filter.mpr ⟨h.kept d horig hnot, decide_eq_true ?_⟩
    rintro rfl
    exact hnot hd

theorem Remains.eq (h : Remains orig called dealIds) (hstruck : ∀ d ∈ called, d ∉ dealIds) :
    dealIds = orig.filter (· ∉ called) := by
  conv_lhs => rw [h.order]
  apply List.filter_congr
  intro d hd
  rw [decide_eq_decide]
  exact ⟨fun hmem hcalled => hstruck d hcalled hmem, h.kept d hd⟩

end Remains

namespace RemovalStage

variable {D : Type} (now : ℤ) (strategyId dealId : String)

/-- What is left of a removal. -/
def program : RemovalStage D → StoreProgram D Bool
  | taking => removePosition strategyId dealId
  | archiving payload => .call (.setHistory dealId payload) fun _ => strikeDeal strategyId dealId
  | reading => strikeDeal strategyId dealId
  | writing dealIds =>
    .call (.setList strategyId (dealIds.filter (· ≠ dealId))) fun answer => .done (stored answer)

/-- The command that comes next. -/
def command : RemovalStage D → Command D
  | taking => .getDelete dealId
  | archiving payload => .setHistory dealId payload
  | reading => .getList strategyId
  | writing dealIds => .setList strategyId (dealIds.filter (· ≠ dealId))

/-- Where the removal goes on a store; none when it returns. -/
def next (store : PositionStore D) : RemovalStage D → Option (RemovalStage D)
  | taking =>
    match store.positions.get now dealId with
    | some payload => some (archiving payload)
    | none => some reading
  | archiving _ => some reading
  | reading =>
    match store.lists.lookup strategyId with
    | some (.value dealIds) => some (writing dealIds)
    | _ => none
  | writing _ => none

/-- The list a removal knows after its command. -/
def known (store : PositionStore D) (before : List String) : RemovalStage D → List String
  | taking | archiving _ => before
  | reading => store.listed strategyId
  | writing dealIds => dealIds.filter (· ≠ dealId)

/-- What a removal has in hand comes from the store as it was before. -/
def Sound (before : PositionStore D) (called known : List String) : RemovalStage D → Prop
  | archiving payload => before.positions.get now dealId = some payload
  | writing dealIds => known = dealIds ∧ (before.lists.lookup strategyId).isSome ∧
      Remains (before.listed strategyId) called dealIds
  | taking | reading => True

variable {now strategyId dealId} {stage : RemovalStage D}

theorem Sound.mono {before : PositionStore D} {called called' known : List String}
    (h : stage.Sound now strategyId dealId before called known)
    (hsub : ∀ d ∈ called, d ∈ called') :
    stage.Sound now strategyId dealId before called' known := by
  cases stage with
  | taking | archiving | reading => exact h
  | writing => exact ⟨h.1, h.2.1, h.2.2.mono hsub⟩

theorem eq_taking (h : stage.program strategyId dealId = taking.program strategyId dealId) :
    stage = taking := by
  cases stage with
  | taking => rfl
  | archiving | reading | writing => cases h

theorem eq_archiving {payload : Payload D}
    (h : stage.program strategyId dealId = (archiving payload).program strategyId dealId) :
    stage = archiving payload := by
  cases stage with
  | archiving payload' =>
    cases h
    rfl
  | taking | reading | writing => cases h

end RemovalStage

namespace UpdateState

variable {ι D : Type} [DecidableEq ι] {now : ℤ} {strategyId : String} {s s' : UpdateState ι D}

/-- The client's removal of the deal stands there. -/
def At (strategyId : String) (s : UpdateState ι D) (i : ι) (dealId : String)
    (stage : RemovalStage D) : Prop :=
  s.clients i = some (.removePosition dealId, stage.program strategyId dealId)

/-- The client's removal goes to a stage, or returns. -/
def enter (strategyId : String) (s : UpdateState ι D) (i : ι) (dealId : String)
    (store : PositionStore D) (known : List String) (stage : Option (RemovalStage D)) :
    UpdateState ι D :=
  { s with
    store
    clients := Function.update s.clients i
      (stage.map fun stage => (.removePosition dealId, stage.program strategyId dealId))
    lastRead := Function.update s.lastRead i known }

theorem goOn_program (stage : RemovalStage D) {i : ι} {dealId : String}
    {store : PositionStore D} {known : List String} :
    s.goOn i (.removePosition dealId) store known (stage.program strategyId dealId) =
      s.enter strategyId i dealId store known (some stage) := by
  cases stage <;> rfl

theorem step_call {i : ι} {c : ListCall} {cmd : Command D} {k : cmd.Answer → StoreProgram D Bool}
    (h : s.clients i = some (c, .call cmd k)) : s.step now strategyId (.step i) =
      some (s.goOn i c (s.store.effect now cmd)
        (knownAfter cmd (s.store.answer now [] .answered cmd) (s.lastRead i))
        (k (s.store.answer now [] .answered cmd))) := by
  simp [step, h]

/-- A step of a removal is its command, and the stage that this leads to. -/
theorem step_removal {i : ι} {dealId : String} {stage : RemovalStage D}
    (hat : s.At strategyId i dealId stage) :
    s.step now strategyId (.step i) = some (s.enter strategyId i dealId
      (s.store.effect now (stage.command strategyId dealId))
      (stage.known strategyId dealId s.store (s.lastRead i))
      (stage.next now strategyId dealId s.store)) := by
  cases stage with
  | taking =>
    rw [step_call hat]
    cases hget : s.store.positions.get now dealId with
    | some payload =>
      simp only [RemovalStage.next, PositionStore.answer, Lease.Reply.answer, hget]
      exact congrArg some (goOn_program (.archiving payload))
    | none =>
      simp only [RemovalStage.next, PositionStore.answer, Lease.Reply.answer, hget]
      exact congrArg some (goOn_program .reading)
  | archiving payload => exact step_call hat
  | reading =>
    rw [step_call hat]
    cases hlist : s.store.lists.lookup strategyId with
    | none =>
      simp only [RemovalStage.next, RemovalStage.known, PositionStore.answer,
        PositionStore.listed, Lease.Reply.answer, hlist]
      rfl
    | some list =>
      cases list with
      | malformed =>
        simp only [RemovalStage.next, RemovalStage.known, PositionStore.answer,
          PositionStore.listed, Lease.Reply.answer, hlist]
        rfl
      | value dealIds =>
        simp only [RemovalStage.next, RemovalStage.known, PositionStore.answer,
          PositionStore.listed, Lease.Reply.answer, hlist]
        exact congrArg some (goOn_program (.writing dealIds))
  | writing dealIds => exact step_call hat

/-! ## Removals beside each other -/

/-! ## Removals beside each other -/

/-- The client is removing the deal. -/
def removes (s : UpdateState ι D) (i : ι) (dealId : String) : Bool :=
  match s.clients i with
  | some (c, _) => c = .removePosition dealId
  | none => false

variable (strategyId) in
/-- A removal writes the list when what it has read, but for its own deal, is still there. -/
def Current (s : UpdateState ι D) : UpdateAction ι → Prop
  | .step i => s.writes i → ∀ dealId ∈ s.lastRead i,
      dealId ∈ s.store.listed strategyId ∨ s.removes i dealId
  | .call _ _ => True

instance (s : UpdateState ι D) : DecidablePred (Current strategyId s)
  | .step i => inferInstanceAs (Decidable (s.writes i → ∀ dealId ∈ s.lastRead i,
      dealId ∈ s.store.listed strategyId ∨ s.removes i dealId))
  | .call _ _ => isTrue trivial

/-- The list of the store, if there is one, is what remains of the one before. -/
def ListSound (strategyId : String) (before : PositionStore D) (called : List String)
    (store : PositionStore D) : Prop :=
  (before.lists.lookup strategyId = none ∧ store.lists.lookup strategyId = none) ∨
    (before.lists.lookup strategyId).isSome ∧
      ∃ dealIds, store.lists.lookup strategyId = some (.value dealIds) ∧
        Remains (before.listed strategyId) called dealIds

variable (now strategyId) in
/-- Every removal stands at a stage of its own, and what it has not done yet is still to be done. -/
structure Removing (before : PositionStore D) (called : List String) (s : UpdateState ι D) :
    Prop where
  clients : ∀ i call, s.clients i = some call → ∃ dealId ∈ called, ∃ stage,
    s.At strategyId i dealId stage ∧ stage.Sound now strategyId dealId before called (s.lastRead i)
  list : ListSound strategyId before called s.store
  record : ∀ dealId, s.store.positions.get now dealId = before.positions.get now dealId ∨
    dealId ∈ called ∧ s.store.positions.get now dealId = none
  taken : ∀ dealId ∈ called, s.store.positions.get now dealId = none ∨
    ∃ i, s.At strategyId i dealId .taking
  archived : ∀ dealId ∈ called, ∀ payload, before.positions.get now dealId = some payload →
    s.store.positions.get now dealId = some payload ∨
      (∃ i, s.At strategyId i dealId (.archiving payload)) ∨
        s.store.history.get now dealId = some payload
  struck : ∀ dealId ∈ called, dealId ∉ s.store.listed strategyId ∨
    ∃ i stage, s.At strategyId i dealId stage

omit [DecidableEq ι] in
theorem Removing.fresh {before : PositionStore D}
    (h : before.lists.lookup strategyId ≠ some .malformed) :
    Removing now strategyId before [] (fresh before : UpdateState ι D) where
  clients _ _ h := by cases h
  list := by
    cases hlist : before.lists.lookup strategyId with
    | none => exact .inl ⟨hlist, hlist⟩
    | some list =>
      cases list with
      | malformed => exact absurd hlist h
      | value dealIds =>
        refine .inr ⟨by rw [hlist]; rfl, dealIds, hlist, ?_⟩
        rw [PositionStore.listed, hlist]
        exact .refl dealIds []
  record _ := .inl rfl
  taken _ h := (List.not_mem_nil h).elim
  archived _ h := (List.not_mem_nil h).elim
  struck _ h := (List.not_mem_nil h).elim

section Enter

variable {i j : ι} {dealId dealId' : String} {stage stage' : RemovalStage D}
  {store : PositionStore D} {known : List String} {next : Option (RemovalStage D)}

theorem at_enter_of_ne (hj : j ≠ i) :
    (s.enter strategyId i dealId store known next).At strategyId j dealId' stage ↔
      s.At strategyId j dealId' stage := by
  simp only [At, enter, Function.update_of_ne hj]

theorem at_enter_self :
    (s.enter strategyId i dealId store known (some stage)).At strategyId i dealId stage :=
  Function.update_self ..

omit [DecidableEq ι] in
theorem At.deal_eq (h : s.At strategyId i dealId stage) (h' : s.At strategyId i dealId' stage') :
    dealId' = dealId := by
  unfold At at h h'
  rw [h] at h'
  obtain ⟨hcall, -⟩ := Prod.mk.inj (Option.some.inj h')
  exact (ListCall.removePosition.inj hcall).symm

omit [DecidableEq ι] in
theorem At.program_eq (h : s.At strategyId i dealId stage)
    (h' : s.At strategyId i dealId stage') :
    stage.program strategyId dealId = stage'.program strategyId dealId := by
  unfold At at h h'
  rw [h] at h'
  exact (Prod.mk.inj (Option.some.inj h')).2

variable {before : PositionStore D} {called : List String}

/-- A step of one removal keeps the others where they are; what it leaves to be done for its own
deal is done, or is what comes next. -/
theorem Removing.enter (hr : Removing now strategyId before called s)
    (hat : s.At strategyId i dealId stage) (hd : dealId ∈ called)
    (hsound : ∀ stage' ∈ next, stage'.Sound now strategyId dealId before called known)
    (hlist : ListSound strategyId before called store)
    (hrecord : ∀ d, store.positions.get now d = s.store.positions.get now d ∨
      d = dealId ∧ store.positions.get now d = none)
    (htaken : stage = .taking → store.positions.get now dealId = none)
    (harchived : ∀ payload, before.positions.get now dealId = some payload →
      s.store.positions.get now dealId = some payload ∨ stage = .archiving payload →
        store.positions.get now dealId = some payload ∨ next = some (.archiving payload) ∨
          store.history.get now dealId = some payload)
    (hhistory : ∀ d payload, before.positions.get now d = some payload →
      s.store.history.get now d = some payload → store.history.get now d = some payload)
    (hlisted : ∀ d, d ∉ s.store.listed strategyId → d ∉ store.listed strategyId)
    (hstruck : dealId ∉ store.listed strategyId ∨ next.isSome) :
    Removing now strategyId before called (s.enter strategyId i dealId store known next) := by
  have hkeep (d : String) (hne : d ≠ dealId) :
      store.positions.get now d = s.store.positions.get now d := by
    obtain h | ⟨heq, -⟩ := hrecord d
    · exact h
    · exact absurd heq hne
  constructor
  · intro j call hj
    by_cases hji : j = i
    · subst hji
      obtain ⟨stage', hnext, rfl⟩ := Option.map_eq_some_iff.mp
        ((Function.update_self (f := s.clients) ..).symm.trans hj)
      subst hnext
      refine ⟨dealId, hd, stage', at_enter_self, ?_⟩
      rw [show (s.enter strategyId j dealId store known (some stage')).lastRead j = known from
        Function.update_self ..]
      exact hsound stage' rfl
    · obtain ⟨d, hmem, stage', hat', hsound'⟩ := hr.clients j call
        ((Function.update_of_ne hji ..).symm.trans hj)
      refine ⟨d, hmem, stage', (at_enter_of_ne hji).mpr hat', ?_⟩
      rwa [show (s.enter strategyId i dealId store known next).lastRead j = s.lastRead j from
        Function.update_of_ne hji ..]
  · exact hlist
  · intro d
    obtain h | ⟨rfl, hnone⟩ := hrecord d
    · rw [show (s.enter strategyId i dealId store known next).store = store from rfl, h]
      exact hr.record d
    · exact .inr ⟨hd, hnone⟩
  · intro d hmem
    by_cases hne : d = dealId
    · subst hne
      obtain hnone | ⟨j, hj⟩ := hr.taken d hmem
      · obtain h | ⟨-, h⟩ := hrecord d
        · exact .inl (h.trans hnone)
        · exact .inl h
      · by_cases hji : j = i
        · subst hji
          exact .inl (htaken (RemovalStage.eq_taking (hat.program_eq hj)))
        · exact .inr ⟨j, (at_enter_of_ne hji).mpr hj⟩
    · obtain hnone | ⟨j, hj⟩ := hr.taken d hmem
      · exact .inl ((hkeep d hne).trans hnone)
      · refine .inr ⟨j, (at_enter_of_ne ?_).mpr hj⟩
        rintro rfl
        exact hne (hat.deal_eq hj)
  · intro d hmem payload hbefore
    obtain hlive | ⟨j, hj⟩ | hdone := hr.archived d hmem payload hbefore
    · by_cases hne : d = dealId
      · subst hne
        obtain h | rfl | h := harchived payload hbefore (.inl hlive)
        · exact .inl h
        · exact .inr (.inl ⟨i, at_enter_self⟩)
        · exact .inr (.inr h)
      · exact .inl ((hkeep d hne).trans hlive)
    · by_cases hji : j = i
      · subst hji
        obtain rfl := hat.deal_eq hj
        obtain h | rfl | h := harchived payload hbefore
          (.inr (RemovalStage.eq_archiving (hat.program_eq hj)))
        · exact .inl h
        · exact .inr (.inl ⟨j, at_enter_self⟩)
        · exact .inr (.inr h)
      · exact .inr (.inl ⟨j, (at_enter_of_ne hji).mpr hj⟩)
    · exact .inr (.inr (hhistory d payload hbefore hdone))
  · intro d hmem
    obtain hnot | ⟨j, stage', hj⟩ := hr.struck d hmem
    · exact .inl (hlisted d hnot)
    · by_cases hji : j = i
      · subst hji
        obtain rfl := hat.deal_eq hj
        obtain hgone | hnext := hstruck
        · exact .inl hgone
        · obtain ⟨stage'', rfl⟩ := Option.isSome_iff_exists.mp hnext
          exact .inr ⟨j, stage'', at_enter_self⟩
      · exact .inr ⟨j, stage', (at_enter_of_ne hji).mpr hj⟩

/-- A removal that begins has everything still to do, but what an earlier one has done. -/
theorem Removing.call (hr : Removing now strategyId before called s)
    (hidle : s.clients i = none) : Removing now strategyId before (dealId :: called)
      (s.enter strategyId i dealId s.store (s.lastRead i) (some .taking)) := by
  have hmono : ∀ d ∈ called, d ∈ dealId :: called := fun d => List.mem_cons_of_mem dealId
  have hother {j : ι} {d : String} {stage : RemovalStage D} (hj : s.At strategyId j d stage) :
      (s.enter strategyId i dealId s.store (s.lastRead i) (some .taking)).At strategyId j d
        stage := by
    refine (at_enter_of_ne ?_).mpr hj
    rintro rfl
    cases hidle.symm.trans hj
  constructor
  · intro j call hj
    by_cases hji : j = i
    · subst hji
      cases (Function.update_self (f := s.clients) ..).symm.trans hj
      exact ⟨dealId, List.mem_cons_self, .taking, at_enter_self, trivial⟩
    · obtain ⟨d, hmem, stage', hat', hsound'⟩ := hr.clients j call
        ((Function.update_of_ne hji ..).symm.trans hj)
      refine ⟨d, hmono d hmem, stage', hother hat', ?_⟩
      rw [show (s.enter strategyId i dealId s.store (s.lastRead i) (some .taking)).lastRead j =
        s.lastRead j from Function.update_of_ne hji ..]
      exact hsound'.mono hmono
  · obtain hnone | ⟨hbefore, dealIds, hlist, hremains⟩ := hr.list
    · exact .inl hnone
    · exact .inr ⟨hbefore, dealIds, hlist, hremains.mono hmono⟩
  · intro d
    obtain h | ⟨hmem, hnone⟩ := hr.record d
    · exact .inl h
    · exact .inr ⟨hmono d hmem, hnone⟩
  · intro d hmem
    obtain rfl | hold := List.mem_cons.mp hmem
    · exact .inr ⟨i, at_enter_self⟩
    · obtain hnone | ⟨j, hj⟩ := hr.taken d hold
      · exact .inl hnone
      · exact .inr ⟨j, hother hj⟩
  · intro d _ payload hbefore
    have hold (hd : d ∈ called) :
        s.store.positions.get now d = some payload ∨
          (∃ j, (s.enter strategyId i dealId s.store (s.lastRead i) (some .taking)).At strategyId
            j d (.archiving payload)) ∨ s.store.history.get now d = some payload := by
      obtain hlive | ⟨j, hj⟩ | hdone := hr.archived d hd payload hbefore
      · exact .inl hlive
      · exact .inr (.inl ⟨j, hother hj⟩)
      · exact .inr (.inr hdone)
    obtain h | ⟨hd, -⟩ := hr.record d
    · exact .inl (h.trans hbefore)
    · exact hold hd
  · intro d hmem
    obtain rfl | hold := List.mem_cons.mp hmem
    · exact .inr ⟨i, .taking, at_enter_self⟩
    · obtain hnot | ⟨j, stage', hj⟩ := hr.struck d hold
      · exact .inl hnot
      · exact .inr ⟨j, stage', hother hj⟩

theorem step_removal_call (hidle : s.clients i = none) :
    s.step now strategyId (.call i (.removePosition dealId)) =
      some (s.enter strategyId i dealId s.store (s.lastRead i) (some .taking)) := by
  simp only [UpdateState.step, hidle, UpdateState.enter, Function.update_eq_self]
  rfl

theorem Removing.step (hr : Removing now strategyId before called s)
    (hcurrent : Current strategyId s (.step i))
    (h : s.step now strategyId (.step i) = some s') :
    Removing now strategyId before called s' := by
  have hbusy : ∃ call, s.clients i = some call := by
    cases hclient : s.clients i with
    | none => simp [UpdateState.step, hclient] at h
    | some call => exact ⟨call, rfl⟩
  obtain ⟨call, hclient⟩ := hbusy
  obtain ⟨d, hd, stage, hat, hsound⟩ := hr.clients i call hclient
  rw [step_removal hat, Option.some.injEq] at h
  subst h
  cases stage with
  | taking =>
    apply hr.enter hat hd
    · intro stage' hnext
      cases hget : s.store.positions.get now d with
      | some payload =>
        simp only [RemovalStage.next, hget, Option.mem_def, Option.some.injEq] at hnext
        subst hnext
        obtain hbefore | ⟨-, hnone⟩ := hr.record d
        · exact hbefore.symm.trans hget
        · rw [hget] at hnone
          cases hnone
      | none =>
        simp only [RemovalStage.next, hget, Option.mem_def, Option.some.injEq] at hnext
        subst hnext
        trivial
    · exact hr.list
    · intro d'
      by_cases hne : d' = d
      · exact .inr ⟨hne, hne ▸ Expiring.Store.get_delete_self⟩
      · exact .inl (Expiring.Store.get_delete_of_ne hne)
    · exact fun _ => Expiring.Store.get_delete_self
    · rintro payload - (hlive | hstage)
      · right
        left
        simp only [RemovalStage.next, hlive]
      · cases hstage
    · exact fun _ _ _ h => h
    · exact fun _ h => h
    · right
      unfold RemovalStage.next
      cases s.store.positions.get now d <;> rfl
  | archiving payload =>
    apply hr.enter hat hd
    · rintro stage' ⟨⟩
      trivial
    · exact hr.list
    · exact fun _ => .inl rfl
    · rintro ⟨⟩
    · rintro payload' hbefore (hlive | hstage)
      · exact .inl hlive
      · cases hstage
        refine .inr (.inr (Expiring.Store.get_set_self ?_))
        have hpos : 0 < kHistoryTtl := by decide
        omega
    · intro d' payload' hbefore' hdone
      by_cases hne : d' = d
      · subst hne
        cases hsound.symm.trans hbefore'
        refine Expiring.Store.get_set_self ?_
        have hpos : 0 < kHistoryTtl := by decide
        omega
      · exact (Expiring.Store.get_set_of_ne hne ..).trans hdone
    · exact fun _ h => h
    · exact .inr rfl
  | reading =>
    apply hr.enter hat hd
    · intro stage' hnext
      obtain ⟨-, hnone⟩ | ⟨hbefore, dealIds, hlist, hremains⟩ := hr.list
      · simp only [RemovalStage.next, hnone, Option.mem_def, reduceCtorEq] at hnext
      · simp only [RemovalStage.next, hlist, Option.mem_def, Option.some.injEq] at hnext
        subst hnext
        refine ⟨?_, hbefore, hremains⟩
        simp only [RemovalStage.known, PositionStore.listed, hlist, dealsOf]
    · exact hr.list
    · exact fun _ => .inl rfl
    · rintro ⟨⟩
    · rintro payload - (hlive | hstage)
      · exact .inl hlive
      · cases hstage
    · exact fun _ _ _ h => h
    · exact fun _ h => h
    · obtain ⟨-, hnone⟩ | ⟨-, dealIds, hlist, -⟩ := hr.list
      · left
        simp only [RemovalStage.command, PositionStore.effect, PositionStore.listed, hnone,
          dealsOf, List.not_mem_nil, not_false_iff]
      · right
        simp only [RemovalStage.next, hlist, Option.isSome_some]
  | writing dealIds =>
    obtain ⟨hread, hbefore, hremains⟩ := hsound
    have hlist : (s.store.effect now (.setList strategyId (dealIds.filter (· ≠ d)))).lists.lookup
        strategyId = some (.value (dealIds.filter (· ≠ d))) := AList.lookup_insert _
    have hlisted : (s.store.effect now (.setList strategyId (dealIds.filter (· ≠ d)))).listed
        strategyId = dealIds.filter (· ≠ d) := by
      rw [PositionStore.listed, hlist]
      rfl
    apply hr.enter hat hd
    · rintro stage' ⟨⟩
    · exact .inr ⟨hbefore, _, hlist, hremains.strike hd⟩
    · exact fun _ => .inl rfl
    · rintro ⟨⟩
    · rintro payload - (hlive | hstage)
      · exact .inl hlive
      · cases hstage
    · exact fun _ _ _ h => h
    · intro d' hnot hmem
      rw [RemovalStage.command, hlisted, List.mem_filter, decide_eq_true_eq] at hmem
      have hwrites : s.writes i = true := by
        unfold writes
        rw [hat]
        rfl
      obtain hstill | hremoves := hcurrent hwrites d' (hread ▸ hmem.1)
      · exact hnot hstill
      · unfold removes at hremoves
        rw [hat] at hremoves
        exact hmem.2 (ListCall.removePosition.inj (of_decide_eq_true hremoves)).symm
    · left
      rw [RemovalStage.command, hlisted]
      simp

end Enter

/-- The deals whose removal a run begins. -/
def removed (actions : List (UpdateAction ι)) : List String :=
  actions.filterMap fun
    | .call _ (.removePosition dealId) => some dealId
    | _ => none

/-- Nothing but removals is called. -/
def OnlyRemovals (actions : List (UpdateAction ι)) : Prop :=
  ∀ i c, .call i c ∈ actions → ∃ dealId, c = .removePosition dealId

theorem Removing.run {before : PositionStore D} {called : List String}
    {actions : List (UpdateAction ι)} (hr : Removing now strategyId before called s)
    (honly : OnlyRemovals actions)
    (hcurrent : Transition.Along (UpdateState.step now strategyId) (Current strategyId) s actions)
    (hrun : Transition.exec (UpdateState.step now strategyId) s actions = some s') :
    Removing now strategyId before ((removed actions).reverse ++ called) s' := by
  induction actions generalizing s called with
  | nil =>
    cases hrun
    exact hr
  | cons action actions ih =>
    obtain ⟨t, hstep, hrest⟩ := Transition.exec_cons.mp hrun
    have honly' : OnlyRemovals actions := fun i c h => honly i c (List.mem_cons_of_mem _ h)
    cases action with
    | call i c =>
      obtain ⟨dealId, rfl⟩ := honly i c List.mem_cons_self
      cases hclient : s.clients i with
      | some call => simp [UpdateState.step, hclient] at hstep
      | none =>
        rw [step_removal_call hclient, Option.some.injEq] at hstep
        have hlater := hcurrent.2 t (by rw [step_removal_call hclient, hstep])
        subst hstep
        have hr' := ih (hr.call hclient) honly' hlater hrest
        have hlist : (removed (.call i (.removePosition dealId) :: actions)).reverse ++ called =
            (removed actions).reverse ++ dealId :: called := by
          simp [removed]
        rwa [hlist]
    | step i => exact ih (hr.step hcurrent.1 hstep) honly' (hcurrent.2 t hstep) hrest

/-- When every removal that writes the list still finds there what it has read, any number of
removals, however they mix, take the records, archive them, and leave the list without the deals
that were removed, in the order it had. -/
theorem removals_commute {before : PositionStore D} {actions : List (UpdateAction ι)}
    (hreadable : before.lists.lookup strategyId ≠ some .malformed)
    (honly : OnlyRemovals actions)
    (hcurrent : Transition.Along (step now strategyId) (Current strategyId) (fresh before) actions)
    (hrun : Transition.exec (step now strategyId) (fresh before) actions = some s)
    (hdone : ∀ i, s.clients i = none) :
    (∀ dealId ∈ removed actions, s.store.positions.get now dealId = none ∧
      ∀ payload, before.positions.get now dealId = some payload →
        s.store.history.get now dealId = some payload) ∧
    s.store.lists.lookup strategyId = (before.lists.lookup strategyId).map fun _ =>
      .value ((before.listed strategyId).filter (· ∉ removed actions)) := by
  have hr := (Removing.fresh hreadable).run honly hcurrent hrun
  rw [List.append_nil] at hr
  have hidle {i : ι} {dealId : String} {stage : RemovalStage D} :
      ¬ s.At strategyId i dealId stage := by
    intro hat
    cases (hdone i).symm.trans hat
  have htaken : ∀ dealId ∈ removed actions, s.store.positions.get now dealId = none := by
    intro dealId hmem
    obtain hnone | ⟨i, hat⟩ := hr.taken dealId (List.mem_reverse.mpr hmem)
    · exact hnone
    · exact absurd hat hidle
  constructor
  · intro dealId hmem
    refine ⟨htaken dealId hmem, fun payload hbefore => ?_⟩
    obtain hlive | ⟨i, hat⟩ | harchived :=
      hr.archived dealId (List.mem_reverse.mpr hmem) payload hbefore
    · cases (htaken dealId hmem).symm.trans hlive
    · exact absurd hat hidle
    · exact harchived
  · obtain ⟨hbefore, hnone⟩ | ⟨hbefore, dealIds, hlist, hremains⟩ := hr.list
    · rw [hnone, hbefore]
      rfl
    · obtain ⟨list, hlist'⟩ := Option.isSome_iff_exists.mp hbefore
      have hstruck : ∀ d ∈ (removed actions).reverse, d ∉ dealIds := by
        intro d hmem
        obtain hnot | ⟨i, stage, hat⟩ := hr.struck d hmem
        · rwa [PositionStore.listed, hlist] at hnot
        · exact absurd hat hidle
      have heq := hremains.eq hstruck
      simp only [List.mem_reverse] at heq
      rw [hlist, heq, hlist']
      rfl

/-- A store with a list of deals, each with its record. -/
def booked (dealIds : List String) : PositionStore Unit where
  lists := AList.insert "alpha" (.value dealIds) ∅
  positions := (recorded dealIds).positions
  history := .empty
  receipts := .empty

/-- One removal after the other. -/
theorem removals_commute_in_turn :
    ∃ s, Transition.exec (step 0 "alpha") (fresh (booked ["d1", "d2", "d3"])) [
        .call false (.removePosition "d1"), .step false, .step false, .step false, .step false,
        .call true (.removePosition "d2"), .step true, .step true, .step true, .step true] =
          some s ∧
      s.store.lists.lookup "alpha" = some (.value ["d3"]) := by
  let actions : List (UpdateAction Bool) := [
    .call false (.removePosition "d1"), .step false, .step false, .step false, .step false,
    .call true (.removePosition "d2"), .step true, .step true, .step true, .step true]
  have hrun : Transition.exec (step 0 "alpha") (fresh (booked ["d1", "d2", "d3"])) actions =
      some _ := rfl
  have honly : OnlyRemovals actions := by
    intro i c h
    simp only [actions, List.mem_cons, List.not_mem_nil, or_false, UpdateAction.call.injEq,
      reduceCtorEq, false_or] at h
    obtain ⟨-, rfl⟩ | ⟨-, rfl⟩ := h
    · exact ⟨"d1", rfl⟩
    · exact ⟨"d2", rfl⟩
  exact ⟨_, hrun, (removals_commute (by decide) honly (by decide) hrun (by decide)).2⟩

/-- Both removals read the list before either has written it: the second to write puts the deal of
the first back. -/
theorem removals_commute_crossed :
    ∃ s, Transition.exec (step 0 "alpha") (fresh (booked ["d1", "d2", "d3"])) [
        .call false (.removePosition "d1"), .call true (.removePosition "d2"), .step false,
        .step false, .step false, .step true, .step true, .step true, .step false,
        .step true] = some s ∧
      (∀ i, s.clients i = none) ∧ s.store.lists.lookup "alpha" = some (.value ["d1", "d3"]) := by
  refine ⟨_, rfl, ?_, rfl⟩
  decide

end UpdateState

end Positions

end BacktestEngine

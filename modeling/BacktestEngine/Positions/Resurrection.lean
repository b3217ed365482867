import BacktestEngine.Library.Transition
import BacktestEngine.Positions.Sync

/-! # A removal beside the producer's cycles

The broker closes a deal, and then one removal takes it from the store while the
producer runs its cycles, each a command at a time and each command with its own luck.
A cycle that fetched the book before the close may still owe the deal's record a write;
when the removal takes the record at a moment without such a debt, it stays gone.
-/

namespace BacktestEngine

namespace Positions

open Lease (Reply)

/-- The broker's book, the store, the cycle in progress and the removal of the deal. -/
structure RemovalState (D : Type) where
  now : ℤ
  book : List (IgPosition D)
  closed : Bool
  store : PositionStore D
  sync : StoreProgram D Unit
  removal : Option (StoreProgram D Bool)

inductive RemovalAction (D : Type)
  | advance (elapsed : ℕ)
  | book (positions : List (IgPosition D))
  | brokerCloses
  | startSync
  | sync (reply : Reply)
  | removePosition (strategyId : String)
  | remove (reply : Reply)

namespace RemovalState

variable {D : Type} (dealId : String) (s : RemovalState D)

/-- The broker's book does not name the deal. -/
def Unbooked (positions : List (IgPosition D)) : Prop := ∀ p ∈ positions, p.dealReference ≠ dealId

instance (positions : List (IgPosition D)) : Decidable (Unbooked dealId positions) :=
  inferInstanceAs (Decidable (∀ p ∈ positions, p.dealReference ≠ dealId))

/-- A closed deal does not come back into the book, and is removed only when it is closed. -/
def step [Rounding D] (s : RemovalState D) : RemovalAction D → Option (RemovalState D)
  | .advance elapsed => some { s with now := s.now + elapsed }
  | .book positions =>
    if s.closed → Unbooked dealId positions then some { s with book := positions } else none
  | .brokerCloses =>
    some { s with
      closed := true
      book := s.book.filter fun p => p.dealReference ≠ dealId }
  | .startSync =>
    match s.sync with
    | .done _ => some { s with sync := syncOnce }
    | .call _ _ => none
  | .sync reply =>
    match s.sync with
    | .call c k =>
      let (answer, store) := PositionStore.exec s.now s.book reply c s.store
      some { s with store := store, sync := k answer }
    | .done _ => none
  | .removePosition strategyId =>
    match s.closed, s.removal with
    | true, none => some { s with removal := some (Positions.removePosition strategyId dealId) }
    | _, _ => none
  | .remove reply =>
    match s.removal with
    | some (.call c k) =>
      let (answer, store) := PositionStore.exec s.now s.book reply c s.store
      some { s with store := store, removal := some (k answer) }
    | _ => none

/-- No cycle and no removal yet, over any book and any keys. -/
def fresh (now : ℤ) (book : List (IgPosition D)) (store : PositionStore D) : RemovalState D where
  now := now
  book := book
  closed := false
  store := store
  sync := .done ()
  removal := none

/-- What a command asks of a program that must not set the record of the deal, while the broker's
book does not name it. -/
def spares : (c : Command D) → (c.Answer → Unit → Prop) → Unit → Prop
  | .setPosition id _ _, post, _ => id ≠ dealId ∧ ∀ answer, post answer ()
  | .fetchPositions, post, _ =>
    post none () ∧ ∀ positions, Unbooked dealId positions → post (some positions) ()
  | .getList _, post, _ | .scanLists, post, _ | .getPosition _, post, _ | .getMultiple _, post, _
  | .getDelete _, post, _ | .getReceipt _ _, post, _ | .deleteList _, post, _
  | .setList _ _, post, _ | .setHistory _ _, post, _ | .setReceipt _ _ _, post, _
  | .readClock, post, _ => ∀ answer, post answer ()

/-- Whatever the program is answered, it does not set the record of the deal any more. -/
def Spares {α : Type} (p : StoreProgram D α) : Prop := p.wp (spares dealId) (fun _ _ => True) ()

/-- The removal is about to take the record. -/
def takes : Bool :=
  match s.removal with
  | some (.call (.getDelete id) _) => id = dealId
  | _ => false

/-- The removal takes the record, in a command that runs, when the cycle does not owe it a write. -/
def Guarded : RemovalAction D → Prop
  | .remove reply => s.takes dealId → reply.runs ∧ Spares dealId s.sync
  | _ => True

/-! ## Programs that spare the deal -/

variable {dealId}

theorem spares_monotone : Program.Monotone (spares (D := D) dealId) := by
  intro c Q Q' g hQ h
  cases c with
  | setPosition id payload ttl => exact ⟨h.1, fun answer => hQ _ _ (h.2 answer)⟩
  | fetchPositions => exact ⟨hQ _ _ h.1, fun positions hp => hQ _ _ (h.2 positions hp)⟩
  | getList | scanLists | getPosition | getMultiple | getDelete | getReceipt | deleteList | setList
  | setHistory | setReceipt | readClock => exact fun answer => hQ _ _ (h answer)

theorem spares_addPosition (strategyId id : String) :
    (addPosition (D := D) strategyId id).wp (spares dealId) (fun _ _ => True) () := by
  simp only [addPosition, fetchList, command, Program.call_bind, Program.done_bind, Program.pure_eq,
    Program.wp_call]
  intro answer
  cases ListState.ofAnswer answer with
  | failed => trivial
  | missing => exact fun _ => trivial
  | ok dealIds =>
    by_cases hmem : id ∈ dealIds
    · simp only [if_pos hmem]
      trivial
    · simp only [if_neg hmem]
      exact fun _ => trivial

theorem spares_refreshPositionList (strategyId : String) :
    (refreshPositionList (D := D) strategyId).wp (spares dealId) (fun _ _ => True) () := by
  have hrewrite : ∀ survivors, (rewriteList (D := D) strategyId survivors).wp (spares dealId)
      (fun _ _ => True) () := by
    intro survivors
    unfold rewriteList
    split <;> exact fun _ => trivial
  simp only [refreshPositionList, fetchList, command, Program.call_bind, Program.done_bind,
    Program.pure_eq, Program.wp_call]
  intro answer
  cases ListState.ofAnswer answer with
  | failed => trivial
  | missing => trivial
  | ok dealIds =>
    cases dealIds with
    | nil => exact hrewrite []
    | cons id dealIds =>
      intro found
      cases found with
      | none => trivial
      | some found => exact hrewrite _

theorem spares_applyPosition [Rounding D] {position : IgPosition D} (h : position.dealReference ≠ dealId) :
    (applyPosition position).wp (spares dealId) (fun _ _ => True) () := by
  unfold applyPosition
  split
  · trivial
  · split
    · trivial
    · simp only [getDealReceipt, getPositionPayload, savePosition, command, Program.call_bind,
        Program.done_bind, Program.pure_eq, Program.wp_call]
      intro receipt payload
      cases payload with
      | none => trivial
      | some payload =>
        refine fun now => ⟨h, fun _ => ?_⟩
        simp only [Program.wp_bind]
        exact Program.wp_mono spares_monotone (fun _ _ _ => trivial) (spares_addPosition _ _)

/-- A cycle that is still to fetch its book spares a deal that is not in it. -/
theorem spares_syncOnce [Rounding D] : Spares dealId (syncOnce (D := D)) := by
  simp only [Spares, syncOnce, command, Program.call_bind, Program.done_bind, Program.pure_eq,
    Program.wp_call]
  refine ⟨trivial, fun positions hunbooked => ?_⟩
  simp only [Program.wp_bind]
  have happly : (Program.each applyPosition positions).wp (spares dealId) (fun _ _ => True) () :=
    Program.wp_each spares_monotone (fun p hp _ _ => spares_applyPosition (hunbooked p hp)) trivial
  refine Program.wp_mono spares_monotone (fun _ _ _ => ?_) happly
  intro answer
  cases answer with
  | none => trivial
  | some strategyIds =>
    refine Program.wp_each spares_monotone (fun strategyId _ _ _ => ?_) trivial
    rw [Program.wp_bind]
    exact Program.wp_mono spares_monotone (fun _ _ _ => trivial) (spares_refreshPositionList _)

/-- The removal asks for nothing but the record first, and then spares it. -/
theorem removePosition_eq (strategyId : String) : ∃ k, removePosition (D := D) strategyId dealId =
    .call (.getDelete dealId) k ∧ ∀ answer, Spares dealId (k answer) := by
  refine ⟨_, rfl, fun answer => ?_⟩
  cases answer with
  | none => trivial
  | some payload =>
    have hrest : (strikeDeal (D := D) strategyId dealId).wp (spares dealId)
        (fun _ _ => True) () := by
      simp only [strikeDeal, fetchList, command, Program.call_bind, Program.done_bind,
        Program.pure_eq, Program.wp_call]
      intro answer
      cases ListState.ofAnswer answer with
      | failed => trivial
      | missing => trivial
      | ok dealIds => exact fun _ => trivial
    cases payload with
    | none => exact hrest
    | some payload => exact fun _ => hrest

/-- A command of a program that spares the deal does not set its record, and leaves such a
program. -/
theorem spares_exec {α : Type} {c : Command D} {k : c.Answer → StoreProgram D α} (now : ℤ)
    {positions : List (IgPosition D)} (reply : Reply) (store : PositionStore D)
    (h : Spares dealId (.call c k)) (hunbooked : Unbooked dealId positions) :
    (store.positions dealId = none →
      (PositionStore.exec now positions reply c store).2.positions dealId = none) ∧
    Spares dealId (k (PositionStore.exec now positions reply c store).1) := by
  cases c with
  | setPosition id payload ttl =>
    refine ⟨fun hnone => ?_, h.2 _⟩
    cases reply with
    | answered | lost => exact (Function.update_of_ne (Ne.symm h.1) ..).trans hnone
    | unreached => exact hnone
  | getDelete id =>
    refine ⟨fun hnone => ?_, h _⟩
    cases reply with
    | answered | lost =>
      by_cases hid : dealId = id
      · subst hid
        exact Function.update_self ..
      · exact (Function.update_of_ne hid ..).trans hnone
    | unreached => exact hnone
  | fetchPositions =>
    refine ⟨fun hnone => by cases reply <;> exact hnone, ?_⟩
    cases reply with
    | answered => exact h.2 positions hunbooked
    | lost | unreached => exact h.1
  | getList | scanLists | getPosition | getMultiple | getReceipt | deleteList | setList | setHistory
  | setReceipt | readClock =>
    exact ⟨fun hnone => by cases reply <;> exact hnone, h _⟩

/-- What the state of the removal says: before it has taken the record it is about to, and after
that the record is gone and nobody will set it. -/
structure Inv (dealId : String) (s : RemovalState D) : Prop where
  unbooked : s.closed → Unbooked dealId s.book
  closed : s.removal ≠ none → s.closed
  removal : ∀ p, s.removal = some p → (∃ k, p = .call (.getDelete dealId) k ∧
      ∀ answer, Spares dealId (k answer)) ∨
    s.store.positions dealId = none ∧ Spares dealId s.sync ∧ Spares dealId p

variable {s s' : RemovalState D}

theorem Inv.fresh (now : ℤ) (book : List (IgPosition D)) (store : PositionStore D) :
    Inv dealId (RemovalState.fresh now book store) :=
  ⟨fun h => (by cases h), fun h => absurd rfl h, fun _ h => by cases h⟩

theorem inv_step [Rounding D] {a : RemovalAction D} (hi : Inv dealId s) (hg : s.Guarded dealId a)
    (h : s.step dealId a = some s') : Inv dealId s' := by
  cases a with
  | advance elapsed =>
    cases h
    exact ⟨hi.unbooked, hi.closed, hi.removal⟩
  | book positions =>
    simp only [step] at h
    split at h
    · rename_i hbook
      cases h
      exact ⟨hbook, hi.closed, hi.removal⟩
    · cases h
  | brokerCloses =>
    cases h
    refine ⟨fun _ p hp => ?_, fun _ => rfl, hi.removal⟩
    simpa using (List.mem_filter.mp hp).2
  | startSync =>
    simp only [step] at h
    split at h
    · cases h
      refine ⟨hi.unbooked, hi.closed, fun p hp => (hi.removal p hp).imp_right ?_⟩
      exact fun ⟨hnone, _, hp⟩ => ⟨hnone, spares_syncOnce, hp⟩
    · cases h
  | sync reply =>
    simp only [step] at h
    split at h
    · rename_i c k hsync
      cases h
      refine ⟨hi.unbooked, hi.closed, fun p hp => (hi.removal p hp).imp_right ?_⟩
      rintro ⟨hnone, hspares, hp'⟩
      have hbook := hi.unbooked (hi.closed (by rw [hp]; simp))
      rw [hsync] at hspares
      obtain ⟨hnone', hspares'⟩ := spares_exec s.now reply s.store hspares hbook
      exact ⟨hnone' hnone, hspares', hp'⟩
    · cases h
  | removePosition strategyId =>
    simp only [step] at h
    split at h
    · rename_i hclosed hremoval
      cases h
      refine ⟨hi.unbooked, fun _ => hclosed, fun p hp => .inl ?_⟩
      cases hp
      exact removePosition_eq strategyId
    · cases h
  | remove reply =>
    simp only [step] at h
    split at h
    · rename_i c k hremoval
      cases h
      have hclosed : s.closed := hi.closed (by rw [hremoval]; simp)
      refine ⟨hi.unbooked, fun _ => hclosed, fun p hp => .inr ?_⟩
      cases hp
      rcases hi.removal _ hremoval with ⟨k', hcall, hk'⟩ | ⟨hnone, hsync, hspares⟩
      · cases hcall
        obtain ⟨hruns, hsync⟩ := hg (by simp [takes, hremoval])
        refine ⟨?_, hsync, hk' _⟩
        simp only [PositionStore.exec, if_pos hruns]
        exact Function.update_self ..
      · obtain ⟨hnone', hspares'⟩ := spares_exec s.now reply s.store hspares
          (hi.unbooked hclosed)
        exact ⟨hnone' hnone, hsync, hspares'⟩
    · cases h

/-! ## Closed deals -/

/-- When the removal takes the record at a moment at which the cycle does not owe it a write, the
deal has no record once the removal is over, and no strategy's payloads name it. -/
theorem closed_deal_stays_gone [Rounding D] (dealId : String) {now : ℤ} {book : List (IgPosition D)}
    {store : PositionStore D} {actions : List (RemovalAction D)} {s : RemovalState D} {result : Bool}
    (hrun : Transition.exec (step dealId) (fresh now book store) actions = some s)
    (hguard : Transition.Along (step dealId) (Guarded dealId) (fresh now book store) actions)
    (hremoved : s.removal = some (.done result)) :
    s.store.positions.get s.now dealId = none ∧
    ∀ strategyId payloads, ((getPositionPayloads strategyId).run
      (PositionStore.exec s.now s.book .answered) s.store).1 = some payloads →
      dealId ∉ payloads.map Prod.fst := by
  have hi : Inv dealId s := Transition.exec_invariant_along
    (fun _ _ _ hi hg hstep => inv_step hi hg hstep) (.fresh now book store) hguard hrun
  have hnone : s.store.positions dealId = none := by
    rcases hi.removal _ hremoved with ⟨k, hcall, -⟩ | ⟨hnone, -⟩
    · cases hcall
    · exact hnone
  have hget : s.store.positions.get s.now dealId = none := by simp [Expiring.Store.get, hnone]
  refine ⟨hget, fun strategyId payloads hp hmem => ?_⟩
  rw [PositionStore.run_getPositionPayloads] at hp
  have hheld := ((PositionStore.mem_payloads hp).mp hmem).2
  rw [Expiring.Store.Held, hget] at hheld
  cases hheld

/-- A deal as the broker reports it. -/
def closing : IgPosition ℚ :=
  ⟨"CS.D.EURUSD.MINI.IP", "deal", "DIAAAA", "BUY", "2026/01/05 10:00:00:000", 1, 1, 0, 0⟩

/-- A store in which the deal is booked. -/
def booked : PositionStore ℚ where
  lists := (∅ : AList fun _ => Stored (List String)).insert "alpha" (.value ["deal"])
  positions := Expiring.Store.empty.set "deal" (.value (makeFreshRecord closing "EURUSD" "alpha"
    "alpha" 100000 0)) (300 * second)
  history := .empty
  receipts := Expiring.Store.empty.set ("deal", "EURUSD") (.value ⟨"alpha", "DIAAAA", "alpha"⟩)
    kReceiptTtl

/-- The cycle fetches the book, the broker closes the deal and the removal runs, and the cycle then
finds no record and writes a new one. -/
theorem closed_deal_comes_back :
    let actions : List (RemovalAction ℚ) := [.startSync, .sync .answered, .brokerCloses,
      .removePosition "alpha", .remove .answered, .remove .answered, .remove .answered,
      .remove .answered] ++ List.replicate 10 (.sync .answered)
    ∃ s, Transition.exec (step "deal") (fresh 0 [closing] booked) actions = some s ∧
      s.removal = some (.done true) ∧ s.sync = .done () ∧ s.closed = true ∧
      s.store.positions.Held s.now "deal" ∧
      ∃ payloads, ((getPositionPayloads "alpha").run (PositionStore.exec s.now s.book .answered)
        s.store).1 = some payloads ∧ payloads.map Prod.fst = ["deal"] := by
  intro actions
  refine ⟨_, rfl, rfl, rfl, rfl, ?_, _, rfl, rfl⟩
  decide

/-- The removal takes the record before the cycle has fetched its book. -/
theorem closed_deal_stays_gone_before_fetch :
    let actions : List (RemovalAction ℚ) := [.startSync, .brokerCloses, .removePosition "alpha",
      .remove .answered, .sync .answered, .remove .answered, .remove .answered, .remove .answered,
      .sync .answered, .sync .answered, .sync .answered]
    ∃ s, Transition.exec (step "deal") (fresh 0 [closing] booked) actions = some s ∧
      s.store.positions.get s.now "deal" = none ∧
      ∀ strategyId payloads, ((getPositionPayloads strategyId).run
        (PositionStore.exec s.now s.book .answered) s.store).1 = some payloads →
        "deal" ∉ payloads.map Prod.fst := by
  intro actions
  have hrun : Transition.exec (step "deal") (fresh 0 [closing] booked) actions = some _ := rfl
  refine ⟨_, hrun, closed_deal_stays_gone "deal" hrun ?_ rfl⟩
  refine Transition.along_cons rfl trivial (Transition.along_cons rfl trivial ?_)
  refine Transition.along_cons rfl trivial ?_
  refine Transition.along_cons rfl (fun _ => ⟨rfl, spares_syncOnce⟩) ?_
  refine Transition.along_cons rfl trivial ?_
  refine Transition.along_cons rfl (fun h => (Bool.false_ne_true h).elim) ?_
  refine Transition.along_cons rfl (fun h => (Bool.false_ne_true h).elim) ?_
  refine Transition.along_cons rfl (fun h => (Bool.false_ne_true h).elim) ?_
  refine Transition.along_cons rfl trivial (Transition.along_cons rfl trivial ?_)
  exact Transition.along_cons rfl trivial trivial

end RemovalState

end Positions

end BacktestEngine

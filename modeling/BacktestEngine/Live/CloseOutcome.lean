import BacktestEngine.Live.BookConsistency

/-! # What becomes of a strategy's close

Closes are read off the log once the strategy has returned. When it throws after
closing, the tick ends before the log is read and the next tick starts from the
longer log, so that close is neither sent nor counted as dropped.
-/

namespace BacktestEngine

namespace Live

namespace StrategyRunner

open TradeManager

variable {σ B : Type} (r : StrategyRunner B) (spec : WorkerSpec σ B)

/-- The trades the strategy closes on a tick: none when the tick does not reach it. -/
def strategyClosed (w : Worker σ B) (event : TickEvent) : List Trade :=
  if (r.beforeDuring spec w event).2 then []
  else closedByStrategy spec (r.beforeDuring spec w event).1 event

/-- The tick handed the close of the deal to the sink, once, and dropped nothing. -/
def Sent (w w' : Worker σ B) (intent : CloseIntent) : Prop :=
  w'.closes = w.closes ++ [intent] ∧ w'.stats.closeDropped = w.stats.closeDropped

/-- The tick counted one dropped close and sent nothing. -/
def Dropped (w w' : Worker σ B) : Prop :=
  w'.closes = w.closes ∧ w'.stats.closeDropped = w.stats.closeDropped + 1

/-- The tick closed nothing, and sent and dropped nothing; or it closed the trade of the booked
deal, and either sent that one close or dropped it. -/
def Accounted (w : Worker σ B) (event : TickEvent) : Prop :=
  let w' := (r.processTick spec w event).1
  (r.strategyClosed spec w event = [] ∧ SameOutbox w w') ∨
    ∃ closed deal, r.strategyClosed spec w event = [closed] ∧
      (r.beforeDuring spec w event).1.sideMap.lookup spec.symbol = some deal ∧
      Mirrors deal closed ∧
      (Sent w w' (closeIntent spec deal closed event.tick) ∨ Dropped w w')

/-- The strategy closes the booked trade and then throws. -/
def ThrowsAfterClose (w : Worker σ B) (event : TickEvent) : Prop :=
  r.strategyClosed spec w event ≠ [] ∧
    (duringCalls spec (r.beforeDuring spec w event).1 event).2 = true

variable {r spec} {w : Worker σ B} {event : TickEvent}

/-! ## One tick -/

theorem SameOutbox.sent {w' w'' : Worker σ B} {intent : CloseIntent} (h : SameOutbox w w')
    (hs : Sent w' w'' intent) : Sent w w'' intent :=
  ⟨h.closes ▸ hs.1, h.closeDropped ▸ hs.2⟩

theorem SameOutbox.dropped {w' w'' : Worker σ B} (h : SameOutbox w w') (hd : Dropped w' w'') :
    Dropped w w'' :=
  ⟨h.closes ▸ hd.1, h.closeDropped ▸ hd.2⟩

variable (r spec event) in
/-- Once the strategy has returned, its close is sent or dropped, also when the sink throws. -/
theorem emitClose_outcome {closed : Trade} {deal : BookedPosition}
    (h : w.sideMap.lookup closed.symbol = some deal) :
    Sent w (r.emitClose spec w event closed).1 (closeIntent spec deal closed event.tick) ∨
      Dropped w (r.emitClose spec w event closed).1 := by
  rcases emitClose_cases r spec event h with
    ⟨-, he⟩ | ⟨-, -, he⟩ | ⟨-, -, he⟩
  · rw [he]
    exact .inr ⟨rfl, rfl⟩
  · rw [he]
    exact .inl ⟨rfl, rfl⟩
  · rw [he]
    exact .inl ⟨rfl, rfl⟩

/-- Every close of a tick has its one outcome unless the strategy throws after it. -/
theorem accounted_iff (hn : spec.strategy.NeverOpens) (hb : Backs spec w) (event : TickEvent) :
    r.Accounted spec w event ↔ ¬ r.ThrowsAfterClose spec w event := by
  have hbefore := beforeDuring_upkeep r spec w event
  cases hthrow : (r.beforeDuring spec w event).2 with
  | true =>
    have hnone : r.strategyClosed spec w event = [] := if_pos hthrow
    have htick : (r.processTick spec w event).1 = (r.beforeDuring spec w event).1 := by
      simp only [processTick, Worker.andThen, hthrow, ↓reduceIte]
    refine iff_of_true (.inl ⟨hnone, ?_⟩) fun h => h.1 hnone
    rw [htick]
    exact hbefore.outbox
  | false =>
    have hclosed : r.strategyClosed spec w event =
        closedByStrategy spec (r.beforeDuring spec w event).1 event := by
      simp only [strategyClosed, hthrow, Bool.false_eq_true, ↓reduceIte]
    have htick : (r.processTick spec w event).1 =
        (r.duringPhase spec (r.beforeDuring spec w event).1 event).1 := by
      simp only [processTick, Worker.andThen, hthrow, Bool.false_eq_true, ↓reduceIte]
    simp only [Accounted, ThrowsAfterClose, hclosed, htick]
    generalize r.beforeDuring spec w event = before at hbefore
    rcases managed_cases hn (hbefore.backs hb) event with ⟨hnothing, -⟩ | ⟨closed, deal, h⟩
    · refine iff_of_true (.inl ⟨hnothing, ?_⟩) fun h => h.1 hnothing
      rw [duringPhase_nothing hnothing]
      exact ⟨hbefore.outbox.closes, hbefore.outbox.closeDropped⟩
    · have hsome : closedByStrategy spec before.1 event ≠ [] := by
        rw [h.log]
        exact List.cons_ne_nil _ _
      rw [duringPhase_closed h]
      split
      · rename_i hthrows
        refine iff_of_false ?_ fun hno => hno ⟨hsome, hthrows⟩
        rintro (⟨hnothing, -⟩ | ⟨_, _, -, -, -, hsent | hdropped⟩)
        · exact hsome hnothing
        · have hlen := congrArg List.length hsent.1
          rw [show (managed spec before.1 event).closes = before.1.closes from rfl,
            hbefore.outbox.closes, List.length_append, List.length_singleton] at hlen
          omega
        · have hcount := hdropped.2
          rw [show (managed spec before.1 event).stats = before.1.stats from rfl,
            hbefore.outbox.closeDropped] at hcount
          omega
      · rename_i hreturn
        have hdeal : (managed spec before.1 event).sideMap.lookup closed.symbol = some deal :=
          h.symbol ▸ h.booked
        have hkept : SameOutbox w (managed spec before.1 event) :=
          ⟨hbefore.outbox.closes, hbefore.outbox.closeDropped⟩
        refine iff_of_true (.inr ⟨closed, deal, h.log, h.booked, h.mirrors, ?_⟩)
          fun hlost => hreturn hlost.2
        rcases emitClose_outcome r spec event hdeal with hs | hd
        · exact .inl (hkept.sent hs)
        · exact .inr (hkept.dropped hd)

/-! ## A whole run -/

/-- Every close of every tick has its one outcome, and no sync sends a close. -/
structure NoCloseLost (r : StrategyRunner B) (spec : WorkerSpec σ B) (start : Worker σ B)
    (events : List TickEvent) : Prop where
  accounted : ∀ pre event, pre ++ [event] <+: events →
    r.Accounted spec (r.workerLoop spec start pre) event
  syncSilent : ∀ pre event, pre ++ [event] <+: events →
    SameOutbox (r.workerLoop spec start pre)
      (r.syncBookIfDue spec (r.workerLoop spec start pre) event).1

/-- No close of a run is lost exactly when the strategy never throws after closing. -/
theorem no_close_lost_iff (hn : spec.strategy.NeverOpens) (store : B) (state : σ)
    (events : List TickEvent) :
    NoCloseLost r spec (.start store state) events ↔
      ∀ pre event, pre ++ [event] <+: events →
        ¬ r.ThrowsAfterClose spec (r.workerLoop spec (.start store state) pre) event := by
  constructor
  · intro h pre event hpre
    exact (accounted_iff hn (workerLoop_backs hn store state pre) event).mp
      (h.accounted pre event hpre)
  · intro h
    refine ⟨fun pre event hpre => ?_, fun pre event _ => (syncBookIfDue_upkeep _ event).outbox⟩
    exact (accounted_iff hn (workerLoop_backs hn store state pre) event).mpr (h pre event hpre)

theorem no_close_lost_returns : NoCloseLost plainRunner (plainSpec "EURUSD" (closesFrom 10 false))
    (.start () ()) [calm 0 [plainDeal], calm 10 [plainDeal]] := by
  rw [no_close_lost_iff (closesFrom_neverOpens 10 false)]
  rintro pre event - ⟨-, hthrow⟩
  simp only [duringCalls, plainSpec, closesFrom] at hthrow
  split at hthrow <;> exact Bool.false_ne_true hthrow

/-- A strategy that closes the booked trade and then throws loses the close for good: nothing is
sent, nothing is counted, and the trade is gone from the manager. -/
theorem no_close_lost_throws :
    let spec := plainSpec "EURUSD" (closesFrom 10 true)
    let events := [calm 0 [plainDeal], calm 10 [plainDeal], calm 20 [plainDeal]]
    let final := plainRunner.workerLoop spec (.start () ()) events
    spec.strategy.NeverOpens ∧ ¬ NoCloseLost plainRunner spec (.start () ()) events ∧
      final.tradeManager.closedTrades.length = 1 ∧ final.closes = [] ∧
      final.stats.closeDropped = 0 := by
  refine ⟨closesFrom_neverOpens 10 true, fun h => ?_, by decide, by decide, by decide⟩
  have hlost := h.accounted [calm 0 [plainDeal]] (calm 10 [plainDeal]) ⟨[calm 20 [plainDeal]], rfl⟩
  rw [accounted_iff (closesFrom_neverOpens 10 true)
    (workerLoop_backs (closesFrom_neverOpens 10 true) () () _)] at hlost
  exact hlost ⟨by decide, by decide⟩

end StrategyRunner

end Live

end BacktestEngine

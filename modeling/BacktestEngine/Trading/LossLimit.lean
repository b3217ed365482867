import BacktestEngine.Trading.Accounting
import BacktestEngine.Trading.RunLoop

/-! # The loss limit

Equity is compared with the floor after each exit review and once after the last
tick. The first check point at the floor ends the run, and the sweep that follows
realizes the equity it finds there.
-/

namespace BacktestEngine

open TradeManager

theorem reviewStopAndLimit_eq_call (tm : TradeManager) (tick : PriceData) :
    reviewStopAndLimit tm tick = tm ∨ ∃ exitPrice,
      reviewStopAndLimit tm tick = (tm.closeTrade tick.symbol exitPrice tick false).1 := by
  unfold reviewStopAndLimit
  split
  · exact .inl rfl
  · split
    · exact .inl rfl
    · exact .inr ⟨_, rfl⟩

theorem TradeManager.Consistent.reviewStopAndLimit {tm : TradeManager} (c : Consistent tm)
    (tick : PriceData) : Consistent (reviewStopAndLimit tm tick) := by
  rcases reviewStopAndLimit_eq_call tm tick with h | ⟨exitPrice, h⟩ <;> rw [h]
  · exact c
  · exact c.closeTrade _ _ _ _

/-- The strategy only closes and revalues; it never opens. -/
def Strategy.NeverOpens {σ B : Type} (strategy : Strategy σ B) : Prop :=
  ∀ state tick store tm, ∀ c ∈ (strategy.during state tick store tm).1,
    ∀ tick size direction stop limit, c ≠ .openTrade tick size direction stop limit

namespace Backtest

variable {σ B D : Type} [Decimal D] (b : Backtest σ B D) {st : RunState σ B}

/-- The states at the check points of a run that none of them stops. -/
def checkPoints : RunState σ B → List PriceData → List (RunState σ B)
  | st, [] => [st]
  | st, tick :: ticks => b.exitPhase st tick :: checkPoints (b.step st tick) ticks

/-- The first check point at the floor, or else the end of the run. -/
def cutOff (st : RunState σ B) (ticks : List PriceData) : RunState σ B :=
  ((b.checkPoints st ticks).find? fun p => b.lossLimitBreached p.tradeManager).getD
    (b.after st ticks)

variable {b}

theorem lossLimitBreached_iff (h : b.lossLimitActive = true) {tm : TradeManager} :
    b.lossLimitBreached tm = true ↔ tm.equity ≤ b.pnlFloorPoints := by
  simp only [lossLimitBreached, h, Bool.true_and, decide_eq_true_eq, equity]

/-! ## The accounts along a run -/

theorem evictOpens_tradeManager (st : RunState σ B) (tick : PriceData) :
    (b.evictOpens st tick).tradeManager = st.tradeManager := by
  unfold evictOpens
  split <;> rfl

theorem exitPhase_consistent (c : Consistent st.tradeManager) (tick : PriceData) :
    Consistent (b.exitPhase st tick).tradeManager :=
  (c.markToMarket tick).reviewStopAndLimit tick

theorem tradePhase_consistent (c : Consistent st.tradeManager) (tick : PriceData) :
    Consistent (b.tradePhase st tick).tradeManager := by
  refine Consistent.calls ?_ _
  rcases entryPhase_cases (b := b) (b.evictOpens st tick) tick with ⟨h, -⟩ | ⟨-, _, _, _, _, h, -⟩
  · rwa [h, evictOpens_tradeManager]
  · rw [h, evictOpens_tradeManager]
    exact c.openTrade _ _ _ _ _

theorem step_consistent (c : Consistent st.tradeManager) (tick : PriceData) :
    Consistent (b.step st tick).tradeManager :=
  tradePhase_consistent (exitPhase_consistent c tick) tick

theorem after_consistent (c : Consistent st.tradeManager) (ticks : List PriceData) :
    Consistent (b.after st ticks).tradeManager := by
  induction ticks generalizing st with
  | nil => exact c
  | cons tick ticks ih => exact ih (step_consistent c tick)

theorem checkPoints_consistent {ticks : List PriceData} (c : Consistent st.tradeManager) :
    ∀ p ∈ b.checkPoints st ticks, Consistent p.tradeManager := by
  induction ticks generalizing st with
  | nil =>
    intro p hp
    rwa [List.mem_singleton.mp hp]
  | cons tick ticks ih =>
    intro p hp
    rcases List.mem_cons.mp hp with rfl | hp
    · exact exitPhase_consistent c tick
    · exact ih (step_consistent c tick) p hp

theorem cutOff_consistent (st : RunState σ B) (c : Consistent st.tradeManager) (ticks : List PriceData) :
    Consistent (b.cutOff st ticks).tradeManager := by
  unfold cutOff
  cases h : (b.checkPoints st ticks).find? fun p => b.lossLimitBreached p.tradeManager with
  | none => exact after_consistent c ticks
  | some p => exact checkPoints_consistent c p (List.mem_of_find?_eq_some h)

/-! ## Where the loop stops -/

theorem cutOff_cons_breached {tick : PriceData} {ticks : List PriceData}
    (h : b.lossLimitBreached (b.exitPhase st tick).tradeManager = true) :
    b.cutOff st (tick :: ticks) = b.exitPhase st tick := by
  simp only [cutOff, checkPoints, List.find?_cons, h, Option.getD_some]

theorem cutOff_cons_passed {tick : PriceData} {ticks : List PriceData}
    (h : ¬ b.lossLimitBreached (b.exitPhase st tick).tradeManager = true) :
    b.cutOff st (tick :: ticks) = b.cutOff (b.step st tick) ticks := by
  simp only [cutOff, checkPoints, List.find?_cons, Bool.eq_false_iff.mpr h]
  rfl

theorem cutOff_nil : b.cutOff st [] = st := by
  unfold cutOff checkPoints after
  by_cases h : b.lossLimitBreached st.tradeManager = true <;> simp [h]

/-- The loop stops in the state of the cut-off; without a tick there only the end is left. -/
theorem loop_cutOff (st : RunState σ B) (ticks : List PriceData) :
    (b.loop st ticks).1 = b.cutOff st ticks ∧
    (∀ tick, (b.loop st ticks).2 = some tick → tick ∈ ticks ∧
      b.lossLimitBreached (b.cutOff st ticks).tradeManager = true) ∧
    ((b.loop st ticks).2 = none → ∀ p ∈ b.checkPoints st ticks,
      b.lossLimitBreached p.tradeManager = true →
        b.lossLimitBreached (b.cutOff st ticks).tradeManager = true) := by
  induction ticks generalizing st with
  | nil =>
    refine ⟨cutOff_nil.symm, ?_, fun _ p hp hb => ?_⟩
    · intro tick h
      cases h
    · rwa [cutOff_nil, ← List.mem_singleton.mp hp]
  | cons tick ticks ih =>
    by_cases hb : b.lossLimitBreached (b.exitPhase st tick).tradeManager = true
    · rw [cutOff_cons_breached hb, loop, if_pos hb]
      refine ⟨rfl, fun t ht => ⟨?_, hb⟩, fun h => absurd h (Option.some_ne_none _)⟩
      rw [← Option.some.inj ht]
      exact List.mem_cons_self
    · rw [cutOff_cons_passed hb, loop, if_neg hb]
      obtain ⟨hfst, hsome, hnone⟩ := ih (b.step st tick)
      refine ⟨hfst, fun t ht => ?_, fun h p hp hp' => ?_⟩
      · obtain ⟨hm, hbr⟩ := hsome t ht
        exact ⟨List.mem_cons_of_mem _ hm, hbr⟩
      · rcases List.mem_cons.mp hp with rfl | hp
        · exact absurd hp' hb
        · exact hnone h p hp hp'

theorem cutOff_breached_mem {ticks : List PriceData}
    (h : b.lossLimitBreached (b.cutOff st ticks).tradeManager = true) :
    ∃ p ∈ b.checkPoints st ticks, b.lossLimitBreached p.tradeManager = true := by
  induction ticks generalizing st with
  | nil =>
    rw [cutOff_nil] at h
    exact ⟨st, List.mem_singleton_self st, h⟩
  | cons tick ticks ih =>
    by_cases hb : b.lossLimitBreached (b.exitPhase st tick).tradeManager = true
    · exact ⟨_, List.mem_cons_self, hb⟩
    · rw [cutOff_cons_passed hb] at h
      obtain ⟨p, hp, hbr⟩ := ih h
      exact ⟨p, List.mem_cons_of_mem _ hp, hbr⟩

theorem runTicks_stopped {tm : TradeManager} {strategy : σ} {store : B} {ticks : List PriceData}
    {tick : PriceData} (h : b.loop (start tm strategy store) ticks = (st, some tick)) :
    b.runTicks tm strategy store ticks = (.lossLimitBreached, b.closeAll st tick true) := by
  simp only [runTicks, h]

theorem runTicks_ended {tm : TradeManager} {strategy : σ} {store : B} {ticks : List PriceData}
    (h : b.loop (start tm strategy store) ticks = (st, none)) :
    ((b.runTicks tm strategy store ticks).1 = .lossLimitBreached ↔
      b.lossLimitBreached st.tradeManager = true) ∧
    ∃ liquidated, (b.runTicks tm strategy store ticks).2 = b.closeAtEnd st ticks liquidated := by
  simp only [runTicks, h]
  by_cases hbr : b.lossLimitBreached st.tradeManager = true
  · simp only [hbr, ↓reduceIte, true_and]
    exact ⟨true, rfl⟩
  · simp only [hbr, Bool.false_eq_true, ↓reduceIte, iff_false]
    refine ⟨?_, false, rfl⟩
    split <;> exact fun h => by cases h

theorem closeAtEnd_eq {ticks : List PriceData} (liquidated : Bool) (h : ticks ≠ []) :
    b.closeAtEnd st ticks liquidated = b.closeAll st (ticks.getLast h) liquidated := by
  rw [closeAtEnd, List.getLast?_eq_some_getLast h]

/-- What a run returns: the cut-off state, swept at one of its ticks when there is one. -/
theorem runTicks_cutOff (tm : TradeManager) (strategy : σ) (store : B) (ticks : List PriceData) :
    let st := start tm strategy store
    ((b.runTicks tm strategy store ticks).1 = .lossLimitBreached ↔
      b.lossLimitBreached (b.cutOff st ticks).tradeManager = true) ∧
    (ticks = [] → (b.runTicks tm strategy store ticks).2 = b.cutOff st ticks) ∧
    (ticks ≠ [] → ∃ tick ∈ ticks, ∃ liquidated,
      (b.runTicks tm strategy store ticks).2 = b.closeAll (b.cutOff st ticks) tick liquidated) := by
  intro st
  obtain ⟨hfst, hsome, -⟩ := loop_cutOff (b := b) st ticks
  have hloop : b.loop st ticks = (b.cutOff st ticks, (b.loop st ticks).2) := Prod.ext hfst rfl
  cases hstop : (b.loop st ticks).2 with
  | some tick =>
    rw [hstop] at hloop
    obtain ⟨hm, hbr⟩ := hsome tick hstop
    rw [runTicks_stopped hloop]
    refine ⟨⟨fun _ => hbr, fun _ => rfl⟩, fun h => ?_, fun _ => ⟨tick, hm, true, rfl⟩⟩
    rw [h] at hm
    cases hm
  | none =>
    rw [hstop] at hloop
    obtain ⟨hstatus, liquidated, heq⟩ := runTicks_ended hloop
    rw [heq]
    refine ⟨hstatus, fun h => ?_, fun h => ⟨ticks.getLast h, List.getLast_mem h, liquidated, ?_⟩⟩
    · rw [h]
      rfl
    · exact closeAtEnd_eq liquidated h

theorem loop_of_breached {before : List PriceData} {tick : PriceData} (later : List PriceData)
    (h : b.lossLimitBreached (b.exitPhase (b.after st before) tick).tradeManager = true) :
    b.loop st (before ++ tick :: later) = b.loop st (before ++ [tick]) ∧
      (b.loop st (before ++ [tick])).2.isSome := by
  induction before generalizing st with
  | nil =>
    simp only [List.nil_append, loop, after, List.foldl_nil] at h ⊢
    simp only [h, ↓reduceIte, Option.isSome_some, and_self]
  | cons first before ih =>
    simp only [List.cons_append, loop]
    split
    · exact ⟨rfl, rfl⟩
    · exact ih h

/-- The ticks after a breached check point are not processed. -/
theorem runTicks_of_breached (tm : TradeManager) (strategy : σ) (store : B)
    {before : List PriceData} {tick : PriceData} (later : List PriceData)
    (h : b.lossLimitBreached
      (b.exitPhase (b.after (start tm strategy store) before) tick).tradeManager = true) :
    b.runTicks tm strategy store (before ++ tick :: later) =
      b.runTicks tm strategy store (before ++ [tick]) := by
  obtain ⟨heq, hstop⟩ := loop_of_breached later h
  unfold runTicks
  rw [heq]
  cases hloop : b.loop (start tm strategy store) (before ++ [tick]) with
  | mk final stop =>
    rw [hloop] at hstop
    cases stop with
    | none => cases hstop
    | some t => rfl

/-- The loss limit over a whole run. The status says whether some check point reached the
floor; the first that does ends the run; and the sweep keeps the equity found there, in
whatever order it walks the open trades. -/
theorem loss_limit (slip : ℤ) (ks : List Call) (strategy : σ) (store : B) (ticks : List PriceData)
    (hactive : b.lossLimitActive = true) :
    let tm := (fresh slip).calls ks
    let st := start tm strategy store
    let cut := b.cutOff st ticks
    let result := b.runTicks tm strategy store ticks
    (result.1 = .lossLimitBreached ↔
      ∃ p ∈ b.checkPoints st ticks, p.tradeManager.equity ≤ b.pnlFloorPoints) ∧
    (∀ before tick later, ticks = before ++ tick :: later →
      (b.exitPhase (b.after st before) tick).tradeManager.equity ≤ b.pnlFloorPoints →
        result = b.runTicks tm strategy store (before ++ [tick])) ∧
    (ticks = [] → result.2 = cut) ∧
    (ticks ≠ [] →
      (∃ tick ∈ ticks, ∃ liquidated, result.2 = b.closeAll cut tick liquidated) ∧
      result.2.tradeManager.activeList = [] ∧
      result.2.tradeManager.equity = cut.tradeManager.equity ∧
      result.2.tradeManager.calculatePnl = cut.tradeManager.equity ∧
      result.2.tradeManager.maxDrawdownPoints = cut.tradeManager.maxDrawdownPoints) := by
  intro tm st cut result
  have c : Consistent tm := (fresh_consistent slip).calls ks
  obtain ⟨hstatus, hnil, hswept⟩ := runTicks_cutOff (b := b) tm strategy store ticks
  refine ⟨?_, ?_, hnil, fun hne => ?_⟩
  · rw [hstatus]
    constructor
    · intro h
      obtain ⟨p, hp, hbr⟩ := cutOff_breached_mem h
      exact ⟨p, hp, (lossLimitBreached_iff hactive).mp hbr⟩
    · rintro ⟨p, hp, hle⟩
      have hbr := (lossLimitBreached_iff hactive).mpr hle
      obtain ⟨-, hsome, hnone⟩ := loop_cutOff (b := b) st ticks
      cases hstop : (b.loop st ticks).2 with
      | none => exact hnone hstop p hp hbr
      | some tick => exact (hsome tick hstop).2
  · rintro before tick later rfl hle
    exact runTicks_of_breached tm strategy store later ((lossLimitBreached_iff hactive).mpr hle)
  · obtain ⟨tick, hm, liquidated, heq⟩ := hswept hne
    obtain ⟨he, hp, hd⟩ :=
      (cutOff_consistent (b := b) st c ticks).closeAllTrades tick liquidated b.order
    refine ⟨⟨tick, hm, liquidated, heq⟩, ?_⟩
    change (b.runTicks tm strategy store ticks).2 = _ at heq
    simp only [result, heq, closeAll]
    exact ⟨closeAllTrades_active _ _ _ _, he, hp, hd⟩

/-- The check points that belong to a tick: the exit reviews and the end of the last tick. -/
def tickCheckPoints (b : Backtest σ B D) (st : RunState σ B) (ticks : List PriceData) :
    List (RunState σ B) :=
  if ticks.isEmpty then [] else b.checkPoints st ticks

/-- Without a tick the check after the loop still reports a floor that is not below zero. -/
theorem loss_limit_no_ticks :
    ¬ ∀ (b : Backtest Unit Unit ℚ) (ticks : List PriceData), b.lossLimitActive = true →
      b.strategy.NeverOpens →
        ((b.runTicks (fresh 0) () () ticks).1 = .lossLimitBreached ↔
          ∃ p ∈ b.tickCheckPoints (start (fresh 0) () ()) ticks,
            p.tradeManager.equity ≤ b.pnlFloorPoints) := by
  intro h
  have hb := (h (plain .long { startingBalance := 0, maxLossPercent := 5 }) [] (by decide)
    (fun _ _ _ _ c hc => by cases hc)).mp (by decide +kernel)
  obtain ⟨p, hp, -⟩ := hb
  cases hp

/-- A long from the first tick is cut off when the bid has lost the whole budget. -/
theorem loss_limit_falling :
    let b := plain (D := ℚ) .long { startingBalance := 100, maxLossPercent := 5 }
    let ticks : List PriceData := [⟨110, 100, 0, "EURUSD"⟩, ⟨90, 80, 1, "EURUSD"⟩]
    b.lossLimitActive = true ∧
    (b.runTicks (fresh 0) () () ticks).1 = .lossLimitBreached ∧
    (b.runTicks (fresh 0) () () ticks).2.tradeManager.activeList = [] := by
  intro b ticks
  have hactive : b.lossLimitActive = true := by decide
  exact ⟨hactive, by decide +kernel,
    ((loss_limit (b := b) 0 [] () () ticks hactive).2.2.2 (by decide)).2.1⟩

end Backtest

end BacktestEngine

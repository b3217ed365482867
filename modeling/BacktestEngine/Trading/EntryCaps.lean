import BacktestEngine.Trading.LossLimit

/-! # The entry caps

The rate queue holds the open times that may still lie in the one-minute window,
and every trade ever opened is either open or closed. An entry admitted below both
caps therefore keeps the number of open trades and every window within its cap.
-/

namespace BacktestEngine

open TradeManager

namespace TradeManager

/-- The open times of every trade opened so far. -/
def openTimes (tm : TradeManager) : List ℤ :=
  (tm.activeList ++ tm.closedTrades).map Trade.openTime

/-- The same trades, and no more of them open. -/
def Settles (tm tm' : TradeManager) : Prop :=
  tm'.openTimes.Perm tm.openTimes ∧ tm'.reviewAccount ≤ tm.reviewAccount

variable {tm tm' tm'' : TradeManager} {tick : PriceData}

theorem Settles.refl (tm : TradeManager) : Settles tm tm := ⟨.refl _, le_rfl⟩

theorem Settles.trans (h : Settles tm tm') (h' : Settles tm' tm'') : Settles tm tm'' :=
  ⟨h'.1.trans h.1, h'.2.trans h.2⟩

theorem reviewAccount_eq (tm : TradeManager) : tm.reviewAccount = tm.activeList.length :=
  (List.length_map _).symm

theorem markToMarket_settles (tm : TradeManager) (tick : PriceData) :
    Settles tm (tm.markToMarket tick) := by
  cases h : tm.activeTrades.lookup tick.symbol with
  | none =>
    rw [markToMarket_none h]
    exact .refl tm
  | some trade =>
    rw [markToMarket_some h]
    have hperm := activeList_perm h
    refine ⟨?_, ?_⟩
    · exact ((hperm.append_right tm.closedTrades).map Trade.openTime).symm
    · rw [reviewAccount_eq tm, hperm.length_eq]
      simp only [reviewAccount, updateDrawdown_activeTrades, Keyed.entries_insert,
        List.length_cons, List.length_map, le_refl]

theorem closeTrade_settles (tm : TradeManager) (symbol : String) (price : ℤ) (tick : PriceData)
    (liquidated : Bool) : Settles tm (tm.closeTrade symbol price tick liquidated).1 := by
  cases h : tm.activeTrades.lookup symbol with
  | none =>
    rw [closeTrade_none h]
    exact .refl tm
  | some trade =>
    rw [closeTrade_some h]
    have hperm := activeList_perm h
    refine ⟨?_, ?_⟩
    · have hmove := (hperm.append_right tm.closedTrades).map Trade.openTime
      refine List.Perm.trans ?_ hmove.symm
      rw [openTimes, List.cons_append, List.map_cons, ← List.append_assoc, List.map_append]
      exact List.perm_append_singleton _ _
    · rw [reviewAccount_eq tm, hperm.length_eq]
      simp [reviewAccount]

theorem closeEach_settles (liquidated : Bool) (tick : PriceData) :
    ∀ (pairs : List (String × ℤ)) (tm : TradeManager),
      Settles tm (closeEach tick liquidated tm pairs)
  | [], tm => .refl tm
  | (symbol, price) :: pairs, tm =>
    (closeTrade_settles tm symbol price tick liquidated).trans
      (closeEach_settles liquidated tick pairs _)

/-- A call that is not an open settles. -/
theorem call_settles (tm : TradeManager) {c : Call}
    (hc : ∀ tick size direction stop limit, c ≠ .openTrade tick size direction stop limit) :
    Settles tm (tm.call c) := by
  cases c with
  | openTrade tick size direction stop limit => exact absurd rfl (hc _ _ _ _ _)
  | markToMarket tick => exact markToMarket_settles tm tick
  | closeTrade symbol price tick liquidated => exact closeTrade_settles tm symbol price tick liquidated
  | closeAllTrades tick liquidated order => exact closeEach_settles liquidated tick _ tm

theorem calls_settles (tm : TradeManager) {cs : List Call} (hcs : ∀ c ∈ cs,
    ∀ tick size direction stop limit, c ≠ .openTrade tick size direction stop limit) :
    Settles tm (tm.calls cs) := by
  induction cs generalizing tm with
  | nil => exact .refl tm
  | cons c cs ih =>
    exact (call_settles tm (hcs c List.mem_cons_self)).trans
      (ih _ fun k hk => hcs k (List.mem_cons_of_mem _ hk))

theorem reviewStopAndLimit_settles (tm : TradeManager) (tick : PriceData) :
    Settles tm (reviewStopAndLimit tm tick) := by
  rcases reviewStopAndLimit_eq_call tm tick with h | ⟨exitPrice, h⟩ <;> rw [h]
  · exact .refl tm
  · exact closeTrade_settles tm _ _ _ _

/-- An accepted open is one more open trade, with the time of its tick. -/
theorem openTrade_opens (h : tm.activeTrades.lookup tick.symbol = none) (size : ℤ)
    (direction : Direction) (stop limit : ℤ) :
    (tm.openTrade tick size direction stop limit).1.openTimes = tick.timestamp :: tm.openTimes ∧
      (tm.openTrade tick size direction stop limit).1.reviewAccount = tm.reviewAccount + 1 := by
  rw [openTrade_fresh h]
  constructor
  · simp only [openTimes, activeList, updateDrawdown_activeTrades, updateDrawdown_closedTrades,
      activeList_insert h, List.cons_append, List.map_cons, newTrade_openTime]
  · simp only [reviewAccount, updateDrawdown_activeTrades, Keyed.entries_insert_fresh h,
      List.length_cons]

end TradeManager

namespace Backtest

variable {σ B D : Type} [Decimal D] (b : Backtest σ B D) {st st' : RunState σ B}
variable {tick : PriceData} {now : ℤ}

/-- The states after each call the strategy makes on a tick. -/
def duringStates (st : RunState σ B) (tick : PriceData) : List (RunState σ B) :=
  (b.strategy.during st.strategy tick st.barStore st.tradeManager).1.inits.map fun calls =>
    { st with tradeManager := st.tradeManager.calls calls }

/-- The states of a tick: after the mark, the review, the eviction, the entry and each call. -/
def tickPoints (st : RunState σ B) (tick : PriceData) : List (RunState σ B) :=
  let reviewed := b.exitPhase st tick
  let evicted := b.evictOpens reviewed tick
  let entered := b.entryPhase evicted tick
  { st with tradeManager := st.tradeManager.markToMarket tick } :: reviewed :: evicted :: entered ::
    b.duringStates entered tick

/-- The states of a run in order, had the loss limit not stopped it. -/
def points : RunState σ B → List PriceData → List (RunState σ B)
  | st, [] => [st]
  | st, tick :: ticks => st :: b.tickPoints st tick ++ points (b.step st tick) ticks

/-- The caps hold, and the rate queue is the recent part of the log of opens. -/
structure Capped (now : ℤ) (st : RunState σ B) : Prop where
  held : b.limits.maxOpenTrades > 0 →
    (st.tradeManager.reviewAccount : ℤ) ≤ b.limits.maxOpenTrades
  paced : b.tradeRateCapActive = true → ∃ log,
    log.Perm st.tradeManager.openTimes ∧ Window.Keeps minute now log st.recentOpens ∧
      Window.Paced minute b.limits.maxTradesPerMinute.toNat log
  short : b.tradeRateCapActive = true → st.recentOpens.length ≤ b.limits.maxTradesPerMinute.toNat

variable {b}

theorem tradeRateCapActive_iff :
    b.tradeRateCapActive = true ↔ 0 < b.limits.maxTradesPerMinute := by
  simp [tradeRateCapActive]

/-- Nothing is opened and the rate queue is left alone. -/
theorem Capped.settle (c : b.Capped now st) (hq : st'.recentOpens = st.recentOpens)
    (hs : Settles st.tradeManager st'.tradeManager) : b.Capped now st' := by
  refine ⟨fun h => ?_, fun h => ?_, fun h => hq ▸ c.short h⟩
  · have := c.held h
    have := hs.2
    omega
  · obtain ⟨log, hlog, hk, hp⟩ := c.paced h
    exact ⟨log, hlog.trans hs.1.symm, hq ▸ hk, hp⟩

theorem Capped.mark (c : b.Capped now st) (tick : PriceData) :
    b.Capped now { st with tradeManager := st.tradeManager.markToMarket tick } :=
  c.settle rfl (markToMarket_settles _ tick)

theorem Capped.exitPhase (c : b.Capped now st) (tick : PriceData) :
    b.Capped now (b.exitPhase st tick) :=
  c.settle rfl ((markToMarket_settles _ tick).trans (reviewStopAndLimit_settles _ tick))

theorem Capped.evictOpens (c : b.Capped now st) (hle : now ≤ tick.timestamp) :
    b.Capped tick.timestamp (b.evictOpens st tick) := by
  by_cases h : b.tradeRateCapActive = true
  · rw [Backtest.evictOpens, if_pos h]
    obtain ⟨log, hlog, hk, hp⟩ := c.paced h
    refine ⟨c.held, fun _ => ⟨log, hlog, hk.evict hle, hp⟩, fun _ => ?_⟩
    exact ((List.dropWhile_sublist _).length_le).trans (c.short h)
  · rw [Backtest.evictOpens, if_neg h]
    exact ⟨c.held, fun h' => absurd h' h, fun h' => absurd h' h⟩

/-- After the eviction the queue is as long as the window is full. -/
theorem Capped.length_evictOpens (c : b.Capped now st) (hle : now ≤ tick.timestamp)
    (h : b.tradeRateCapActive = true) :
    (b.evictOpens st tick).recentOpens.length =
      Window.count minute tick.timestamp (b.evictOpens st tick).tradeManager.openTimes := by
  obtain ⟨log, hlog, hk, -⟩ := c.paced h
  rw [Backtest.evictOpens, if_pos h]
  exact (hk.length_evict hle).trans (Window.count_perm hlog)

theorem entryGates_spec (h : b.entryGates st tick = true) :
    b.belowOpenTradeCap st.tradeManager = true ∧ b.belowTradeRateCap st = true ∧
      st.tradeManager.activeTrades.lookup tick.symbol = none := by
  simp only [entryGates, Bool.and_eq_true, Bool.not_eq_true', hasActiveTradeForSymbol,
    findActiveTrade, Option.isSome_eq_false_iff, Option.isNone_iff_eq_none] at h
  exact ⟨h.1.1.2, h.1.2, h.2⟩

theorem Capped.entryPhase (c : b.Capped tick.timestamp st)
    (hlen : b.tradeRateCapActive = true → st.recentOpens.length =
      Window.count minute tick.timestamp st.tradeManager.openTimes) :
    b.Capped tick.timestamp (b.entryPhase st tick) := by
  rcases entryPhase_cases (b := b) st tick with ⟨htm, hq⟩ | ⟨hg, size, direction, stop, limit, htm, hq⟩
  · exact c.settle hq (htm ▸ Settles.refl _)
  · obtain ⟨hopen, hrate, hnone⟩ := entryGates_spec hg
    obtain ⟨htimes, hcount⟩ := openTrade_opens hnone size direction stop limit
    rw [← htm] at htimes hcount
    have hbelow : b.tradeRateCapActive = true →
        st.recentOpens.length < b.limits.maxTradesPerMinute.toNat := by
      intro h
      simp only [belowTradeRateCap, h, Bool.not_true, Bool.false_or, decide_eq_true_eq] at hrate
      omega
    refine ⟨fun h => ?_, fun h => ?_, fun h => ?_⟩
    · simp only [belowOpenTradeCap, Bool.or_eq_true, decide_eq_true_eq] at hopen
      rw [hcount]
      omega
    · obtain ⟨log, hlog, hk, hp⟩ := c.paced h
      refine ⟨log ++ [tick.timestamp], ?_, ?_, hp.snoc hk.past ?_⟩
      · rw [htimes]
        exact (List.perm_append_singleton _ _).trans (hlog.cons _)
      · rw [hq, if_pos h]
        exact hk.push
      · rw [Window.count_perm hlog, ← hlen h]
        exact hbelow h
    · rw [hq, if_pos h, List.length_append, List.length_singleton]
      exact hbelow h

theorem Capped.duringStates (c : b.Capped now st) (hopens : b.strategy.NeverOpens) :
    ∀ p ∈ b.duringStates st tick, b.Capped now p := by
  intro p hp
  obtain ⟨calls, hcalls, rfl⟩ := List.mem_map.mp hp
  refine c.settle rfl (calls_settles _ fun k hk => ?_)
  exact hopens _ _ _ _ k (((List.mem_inits _ _).mp hcalls).subset hk)

theorem Capped.duringPhase (c : b.Capped now st) (hopens : b.strategy.NeverOpens) :
    b.Capped now (b.duringPhase st tick) :=
  c.settle rfl (calls_settles _ fun k hk => hopens _ _ _ _ k hk)

theorem Capped.closeAll (c : b.Capped now st) (tick : PriceData) (liquidated : Bool) :
    b.Capped now (b.closeAll st tick liquidated) :=
  c.settle rfl (closeEach_settles liquidated tick _ _)

theorem Capped.tickPoints (c : b.Capped now st) (hle : now ≤ tick.timestamp)
    (hopens : b.strategy.NeverOpens) :
    (∀ p ∈ b.tickPoints st tick, ∃ now, b.Capped now p) ∧
      b.Capped tick.timestamp (b.step st tick) := by
  have hr := c.exitPhase tick
  have hv := hr.evictOpens hle
  have he := hv.entryPhase (hr.length_evictOpens hle)
  refine ⟨fun p hp => ?_, he.duringPhase hopens⟩
  rcases List.mem_cons.mp hp with rfl | hp
  · exact ⟨now, c.mark tick⟩
  rcases List.mem_cons.mp hp with rfl | hp
  · exact ⟨now, hr⟩
  rcases List.mem_cons.mp hp with rfl | hp
  · exact ⟨_, hv⟩
  rcases List.mem_cons.mp hp with rfl | hp
  · exact ⟨_, he⟩
  · exact ⟨_, he.duringStates hopens p hp⟩

/-- The caps hold at every point of a run over ticks in time order. -/
theorem Capped.points {ticks : List PriceData} (c : b.Capped now st)
    (hopens : b.strategy.NeverOpens) (hfrom : ∀ tick ∈ ticks, now ≤ tick.timestamp)
    (hsorted : ticks.Pairwise fun s t => s.timestamp ≤ t.timestamp) :
    ∀ p ∈ b.points st ticks, ∃ now, b.Capped now p := by
  induction ticks generalizing st now with
  | nil =>
    intro p hp
    exact ⟨now, List.mem_singleton.mp hp ▸ c⟩
  | cons tick ticks ih =>
    intro p hp
    obtain ⟨htick, hrest⟩ := List.pairwise_cons.mp hsorted
    obtain ⟨hpoints, hstep⟩ := c.tickPoints (hfrom tick List.mem_cons_self) hopens
    rcases List.mem_append.mp hp with hp | hp
    · rcases List.mem_cons.mp hp with rfl | hp
      · exact ⟨now, c⟩
      · exact hpoints p hp
    · exact ih hstep htick hrest p hp

theorem Capped.after {ticks : List PriceData} (c : b.Capped now st)
    (hopens : b.strategy.NeverOpens) (hfrom : ∀ tick ∈ ticks, now ≤ tick.timestamp)
    (hsorted : ticks.Pairwise fun s t => s.timestamp ≤ t.timestamp) (later : ℤ)
    (hnow : now ≤ later) (hlater : ∀ tick ∈ ticks, tick.timestamp ≤ later) :
    ∃ now ≤ later, b.Capped now (b.after st ticks) := by
  induction ticks generalizing st now with
  | nil => exact ⟨now, hnow, c⟩
  | cons tick ticks ih =>
    obtain ⟨htick, hrest⟩ := List.pairwise_cons.mp hsorted
    obtain ⟨-, hstep⟩ := c.tickPoints (hfrom tick List.mem_cons_self) hopens
    exact ih hstep htick hrest (hlater tick List.mem_cons_self)
      fun t ht => hlater t (List.mem_cons_of_mem _ ht)

/-- Every check point is a point of the run. -/
theorem checkPoints_subset_points {ticks : List PriceData} :
    ∀ p ∈ b.checkPoints st ticks, p ∈ b.points st ticks := by
  induction ticks generalizing st with
  | nil => exact fun p hp => hp
  | cons tick ticks ih =>
    intro p hp
    rcases List.mem_cons.mp hp with rfl | hp
    · exact List.mem_append_left _ (by simp [tickPoints])
    · exact List.mem_append_right _ (ih p hp)

theorem cutOff_mem_points {ticks : List PriceData} : b.cutOff st ticks ∈ b.points st ticks := by
  unfold cutOff
  cases h : (b.checkPoints st ticks).find? fun p => b.lossLimitBreached p.tradeManager with
  | some p => exact checkPoints_subset_points p (List.mem_of_find?_eq_some h)
  | none =>
    have hend : ∀ {ticks : List PriceData} {st : RunState σ B},
        b.after st ticks ∈ b.points st ticks := by
      intro ticks
      induction ticks with
      | nil => exact fun {st} => List.mem_singleton_self _
      | cons tick ticks ih => exact fun {st} => List.mem_append_right _ ih
    exact hend

theorem fresh_capped (slip now : ℤ) (strategy : σ) (store : B) :
    b.Capped now (start (fresh slip) strategy store) where
  held h := by
    change (0 : ℤ) ≤ _
    omega
  paced _ := ⟨[], .refl _, Window.Keeps.nil, fun _ => Nat.zero_le _⟩
  short _ := Nat.zero_le _

theorem Capped.bounds (c : b.Capped now st) :
    (b.limits.maxOpenTrades > 0 →
      (st.tradeManager.reviewAccount : ℤ) ≤ b.limits.maxOpenTrades) ∧
    (b.limits.maxTradesPerMinute > 0 →
      (∀ t, (Window.count minute t st.tradeManager.openTimes : ℤ) ≤ b.limits.maxTradesPerMinute) ∧
      (st.recentOpens.length : ℤ) ≤ b.limits.maxTradesPerMinute) := by
  refine ⟨c.held, fun h => ?_⟩
  have hactive := tradeRateCapActive_iff.mpr h
  refine ⟨fun t => ?_, ?_⟩
  · obtain ⟨log, hlog, -, hp⟩ := c.paced hactive
    have := hp t
    rw [Window.count_perm hlog] at this
    omega
  · have := c.short hactive
    omega

/-- The entry caps hold at every point of a run and in its result, and the rate gate refuses
only when its window is full. -/
theorem entry_caps (slip : ℤ) (strategy : σ) (store : B) (ticks : List PriceData)
    (hsorted : ticks.Pairwise fun s t => s.timestamp ≤ t.timestamp)
    (hopens : b.strategy.NeverOpens) :
    let st := start (fresh slip) strategy store
    (∀ p ∈ (b.runTicks (fresh slip) strategy store ticks).2 :: b.points st ticks,
      (b.limits.maxOpenTrades > 0 →
        (p.tradeManager.reviewAccount : ℤ) ≤ b.limits.maxOpenTrades) ∧
      (b.limits.maxTradesPerMinute > 0 →
        (∀ t, (Window.count minute t p.tradeManager.openTimes : ℤ) ≤
          b.limits.maxTradesPerMinute) ∧
        (p.recentOpens.length : ℤ) ≤ b.limits.maxTradesPerMinute)) ∧
    (∀ before tick later, ticks = before ++ tick :: later →
      let gate := b.evictOpens (b.exitPhase (b.after st before) tick) tick
      b.belowTradeRateCap gate = false →
        (Window.count minute tick.timestamp gate.tradeManager.openTimes : ℤ) =
          b.limits.maxTradesPerMinute) := by
  intro st
  obtain ⟨first, hfirst⟩ : ∃ first, ∀ tick ∈ ticks, first ≤ tick.timestamp := by
    cases ticks with
    | nil => exact ⟨0, fun _ h => by cases h⟩
    | cons tick ticks =>
      refine ⟨tick.timestamp, fun t ht => ?_⟩
      rcases List.mem_cons.mp ht with rfl | ht
      · exact le_rfl
      · exact (List.pairwise_cons.mp hsorted).1 t ht
  have c : b.Capped first st := fresh_capped slip first strategy store
  have hpoints := c.points hopens hfirst hsorted
  refine ⟨fun p hp => ?_, ?_⟩
  · rcases List.mem_cons.mp hp with rfl | hp
    · obtain ⟨now, hcut⟩ := hpoints _ (cutOff_mem_points (b := b))
      obtain ⟨-, hnil, hswept⟩ := runTicks_cutOff (b := b) (fresh slip) strategy store ticks
      by_cases hne : ticks = []
      · rw [hnil hne]
        exact hcut.bounds
      · obtain ⟨tick, -, liquidated, heq⟩ := hswept hne
        rw [heq]
        exact (hcut.closeAll tick liquidated).bounds
    · obtain ⟨now, hp⟩ := hpoints p hp
      exact hp.bounds
  · rintro before tick later rfl gate hfull
    obtain ⟨hbefore, hrest, hcross⟩ := List.pairwise_append.mp hsorted
    obtain ⟨now, hle, hc⟩ := c.after hopens
      (fun t ht => hfirst t (List.mem_append_left _ ht)) hbefore tick.timestamp
      (hfirst tick (List.mem_append_right _ List.mem_cons_self))
      (fun t ht => hcross t ht tick List.mem_cons_self)
    simp only [belowTradeRateCap, Bool.or_eq_false_iff, Bool.not_eq_false', decide_eq_false_iff_not]
      at hfull
    have hr := hc.exitPhase tick
    have hlen : gate.recentOpens.length = Window.count minute tick.timestamp
        gate.tradeManager.openTimes := hr.length_evictOpens hle hfull.1
    have hshort : gate.recentOpens.length ≤ b.limits.maxTradesPerMinute.toNat :=
      (hr.evictOpens hle).short hfull.1
    have hpos := tradeRateCapActive_iff.mp hfull.1
    rw [← hlen]
    omega

/-- Two longs within a minute fill a cap of two, and a third tick opens nothing. -/
theorem entry_caps_two :
    let b := plain (D := ℚ) .long { maxOpenTrades := 2, maxTradesPerMinute := 2 }
    let ticks : List PriceData :=
      [⟨110, 100, 0, "EURUSD"⟩, ⟨110, 100, 5, "GBPUSD"⟩, ⟨110, 100, 5, "USDCAD"⟩]
    (b.after (start (fresh 0) () ()) ticks).tradeManager.reviewAccount = 2 ∧
      ∀ p ∈ b.points (start (fresh 0) () ()) ticks,
        (p.tradeManager.reviewAccount : ℤ) ≤ 2 ∧ (p.recentOpens.length : ℤ) ≤ 2 := by
  intro b ticks
  refine ⟨by decide +kernel, fun p hp => ?_⟩
  have h := (entry_caps (b := b) 0 () () ticks (by decide) (fun _ _ _ _ c hc => by cases hc)).1 p
    (List.mem_cons_of_mem _ hp)
  exact ⟨h.1 (by decide), (h.2 (by decide)).2⟩

end Backtest

end BacktestEngine

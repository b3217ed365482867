import BacktestEngine.Trading.LossLimit

/-! # First passage of stop and limit

An open trade keeps everything but its mark until a tick of its symbol takes the
close side to the stop or to the limit. That tick closes it at its own price; a
trade that no tick takes out is closed at its last mark.
-/

namespace BacktestEngine

open TradeManager

/-- How far a close-side price has moved in favour of a direction. -/
def gain (direction : Direction) (reference price : ℤ) : ℤ :=
  match direction with
  | .long => price - reference
  | .short => reference - price

/-- The tick takes a trade entered at the given tick to its stop or to its limit. -/
def Passes (entry : PriceData) (direction : Direction) (stop limit : ℤ) (tick : PriceData) : Prop :=
  tick.symbol = entry.symbol ∧
    (gain direction (entry.closeSide direction) (tick.closeSide direction) ≤
        -(stop * SymbolScale.get entry.symbol) ∨
      limit * SymbolScale.get entry.symbol ≤
        gain direction (entry.closeSide direction) (tick.closeSide direction))

instance (entry : PriceData) (direction : Direction) (stop limit : ℤ) (tick : PriceData) :
    Decidable (Passes entry direction stop limit tick) :=
  inferInstanceAs (Decidable (_ ∧ (_ ∨ _)))

/-- The mark of a trade after ticks that only revalue it. -/
def requote (symbol : String) (direction : Direction) (mark : ℤ) (ticks : List PriceData) : ℤ :=
  ticks.foldl (fun mark tick =>
    if tick.symbol = symbol then tick.closeSide direction else mark) mark

/-- The strategy only opens and revalues; it never closes. -/
def Strategy.NeverCloses {σ B : Type} (strategy : Strategy σ B) : Prop :=
  ∀ state tick store tm, ∀ c ∈ (strategy.during state tick store tm).1,
    (∃ tick size direction stop limit, c = .openTrade tick size direction stop limit) ∨
      ∃ tick, c = .markToMarket tick

/-- The strategy never revalues a trade itself. -/
def Strategy.NeverMarks {σ B : Type} (strategy : Strategy σ B) : Prop :=
  ∀ state tick store tm, ∀ c ∈ (strategy.during state tick store tm).1,
    ∀ tick, c ≠ .markToMarket tick

/-- The integer comparisons against the stored trigger prices decide the passage. -/
theorem checkExit_marked (tm : TradeManager) {entry tick : PriceData} {direction : Direction}
    {stop limit : ℤ} (size mark : ℤ) (hknown : SymbolScale.get entry.symbol ≠ SymbolScale.kUnknown)
    (hstop : 0 < stop) (hlimit : 0 < limit) (hsymbol : tick.symbol = entry.symbol) :
    (Passes entry direction stop limit tick →
      checkExit (marked (tm.newTrade entry size direction stop limit) mark) tick =
        some (tick.closeSide direction)) ∧
    (¬ Passes entry direction stop limit tick →
      checkExit (marked (tm.newTrade entry size direction stop limit) mark) tick = none) := by
  have hscale : SymbolScale.get entry.symbol ≠ 0 := hknown
  have hne : stop ≠ 0 ∧ limit ≠ 0 := by omega
  cases direction with
  | long =>
    simp only [Passes, hsymbol, gain, PriceData.closeSide, checkExit, marked, newTrade, Trade.make,
      hscale, hne, true_and, ne_eq, not_false_eq_true, if_false]
    constructor <;> intro h <;> split_ifs <;> first | rfl | omega
  | short =>
    simp only [Passes, hsymbol, gain, PriceData.closeSide, checkExit, marked, newTrade, Trade.make,
      hscale, hne, true_and, ne_eq, not_false_eq_true, if_false]
    constructor <;> intro h <;> split_ifs <;> first | rfl | omega

namespace TradeManager

/-- The trade is open on its symbol, as it was entered and valued at the mark. -/
def Holds (tm : TradeManager) (symbol : String) (trade : Trade) (mark : ℤ) : Prop :=
  tm.activeTrades.lookup symbol = some (marked trade mark)

variable {tm : TradeManager} {tick : PriceData} {symbol : String} {trade : Trade} {mark : ℤ}

theorem openTrade_lookup_ne (hne : tick.symbol ≠ symbol) (size : ℤ) (direction : Direction)
    (stop limit : ℤ) :
    (tm.openTrade tick size direction stop limit).1.activeTrades.lookup symbol =
      tm.activeTrades.lookup symbol := by
  cases h : tm.activeTrades.lookup tick.symbol with
  | some held => rw [openTrade_held h]
  | none =>
    rw [openTrade_fresh h]
    exact AList.lookup_insert_ne (Ne.symm hne)

theorem markToMarket_lookup_ne (hne : tick.symbol ≠ symbol) :
    (tm.markToMarket tick).activeTrades.lookup symbol = tm.activeTrades.lookup symbol := by
  cases h : tm.activeTrades.lookup tick.symbol with
  | none => rw [markToMarket_none h]
  | some held =>
    rw [markToMarket_some h]
    exact AList.lookup_insert_ne (Ne.symm hne)

theorem markToMarket_closedTrades (tm : TradeManager) (tick : PriceData) :
    (tm.markToMarket tick).closedTrades = tm.closedTrades := by
  cases h : tm.activeTrades.lookup tick.symbol with
  | none => rw [markToMarket_none h]
  | some held => rw [markToMarket_some h, updateDrawdown_closedTrades]

theorem Holds.openTrade (h : Holds tm symbol trade mark) (tick : PriceData) (size : ℤ)
    (direction : Direction) (stop limit : ℤ) :
    Holds (tm.openTrade tick size direction stop limit).1 symbol trade mark := by
  by_cases hs : tick.symbol = symbol
  · subst hs
    rw [openTrade_held h]
    exact h
  · rw [Holds, openTrade_lookup_ne hs]
    exact h

theorem Holds.markToMarket (h : Holds tm symbol trade mark) (tick : PriceData) :
    Holds (tm.markToMarket tick) symbol trade
      (if tick.symbol = symbol then tick.closeSide trade.direction else mark) := by
  split
  · rename_i hs
    subst hs
    rw [markToMarket_some h]
    exact AList.lookup_insert _
  · rename_i hs
    rw [Holds, markToMarket_lookup_ne hs]
    exact h

theorem Holds.calls {cs : List Call} (h : Holds tm symbol trade mark) (hcs : ∀ c ∈ cs,
    (∃ tick size direction stop limit, c = .openTrade tick size direction stop limit) ∨
      ∃ tick, c = .markToMarket tick) :
    ∃ mark', Holds (tm.calls cs) symbol trade mark' ∧
      ((∀ c ∈ cs, ∀ tick, c ≠ .markToMarket tick) → mark' = mark) := by
  induction cs generalizing tm mark with
  | nil => exact ⟨mark, h, fun _ => rfl⟩
  | cons c cs ih =>
    have hrest := fun k hk => hcs k (List.mem_cons_of_mem c hk)
    rcases hcs c List.mem_cons_self with ⟨tick, size, direction, stop, limit, rfl⟩ | ⟨tick, rfl⟩
    · obtain ⟨mark', hh, hm⟩ := ih (h.openTrade tick size direction stop limit) hrest
      exact ⟨mark', hh, fun hn => hm fun k hk => hn k (List.mem_cons_of_mem _ hk)⟩
    · obtain ⟨mark', hh, -⟩ := ih (h.markToMarket tick) hrest
      exact ⟨mark', hh, fun hn => absurd rfl (hn _ List.mem_cons_self tick)⟩

/-! ## The log of closed trades -/

theorem closeTrade_closedTrades (tm : TradeManager) (symbol : String) (price : ℤ)
    (tick : PriceData) (liquidated : Bool) :
    tm.closedTrades <+: (tm.closeTrade symbol price tick liquidated).1.closedTrades := by
  cases h : tm.activeTrades.lookup symbol with
  | none => rw [closeTrade_none h]
  | some trade =>
    rw [closeTrade_some h]
    exact List.prefix_append _ _

theorem closeEach_closedTrades (liquidated : Bool) (tick : PriceData) :
    ∀ (pairs : List (String × ℤ)) (tm : TradeManager),
      tm.closedTrades <+: (closeEach tick liquidated tm pairs).closedTrades
  | [], _ => List.prefix_rfl
  | (symbol, price) :: pairs, tm =>
    (closeTrade_closedTrades tm symbol price tick liquidated).trans
      (closeEach_closedTrades liquidated tick pairs _)

theorem openTrade_closedTrades (tm : TradeManager) (tick : PriceData) (size : ℤ)
    (direction : Direction) (stop limit : ℤ) :
    (tm.openTrade tick size direction stop limit).1.closedTrades = tm.closedTrades := by
  cases h : tm.activeTrades.lookup tick.symbol with
  | some held => rw [openTrade_held h]
  | none => rw [openTrade_fresh h, updateDrawdown_closedTrades]

theorem calls_closedTrades (cs : List Call) (tm : TradeManager) :
    tm.closedTrades <+: (tm.calls cs).closedTrades := by
  induction cs generalizing tm with
  | nil => exact List.prefix_rfl
  | cons c cs ih =>
    refine List.IsPrefix.trans ?_ (ih (tm.call c))
    cases c with
    | openTrade tick size direction stop limit =>
      rw [call, openTrade_closedTrades]
    | markToMarket tick => rw [call, markToMarket_closedTrades]
    | closeTrade symbol price tick liquidated => exact closeTrade_closedTrades _ _ _ _ _
    | closeAllTrades tick liquidated order => exact closeEach_closedTrades _ _ _ _

/-- The sweep logs each trade at the price it was listed with. -/
theorem closeEach_closes (liquidated : Bool) (tick : PriceData) :
    ∀ {pairs : List (String × ℤ)} {tm : TradeManager}, Sweeps tm pairs →
      ∀ p ∈ pairs, ∀ t, tm.activeTrades.lookup p.1 = some t →
        closedAt t p.2 tick liquidated ∈ (closeEach tick liquidated tm pairs).closedTrades
  | (symbol, price) :: pairs, tm, hs, p, hp, t, ht => by
    rcases List.mem_cons.mp hp with rfl | hp
    · refine (closeEach_closedTrades liquidated tick pairs _).subset ?_
      rw [closeTrade_some ht]
      exact List.mem_append_right _ (List.mem_singleton_self _)
    · refine closeEach_closes liquidated tick hs.tail p hp t ?_
      rw [closeTrade_lookup, if_neg, ht]
      exact fun he => (List.nodup_cons.mp hs.1).1 (List.mem_map.mpr ⟨p, hp, he⟩)

theorem Holds.closeAllTrades (h : Holds tm symbol trade mark) (tick : PriceData)
    (liquidated : Bool) (order : WalkOrder) :
    closedAt (marked trade mark) mark tick liquidated ∈
      (tm.closeAllTrades tick liquidated order).closedTrades :=
  closeEach_closes liquidated tick (toClose_sweeps tm order) (symbol, mark)
    (mem_toClose.mpr ⟨_, h, rfl⟩) _ h

/-! ## The slippage setting -/

@[simp] theorem closeTrade_slip (tm : TradeManager) (symbol : String) (price : ℤ)
    (tick : PriceData) (liquidated : Bool) :
    (tm.closeTrade symbol price tick liquidated).1.entrySlippageTenthPips =
      tm.entrySlippageTenthPips := by
  cases h : tm.activeTrades.lookup symbol with
  | none => rw [closeTrade_none h]
  | some trade => rw [closeTrade_some h]; rfl

@[simp] theorem closeEach_slip (liquidated : Bool) (tick : PriceData) :
    ∀ (pairs : List (String × ℤ)) (tm : TradeManager),
      (closeEach tick liquidated tm pairs).entrySlippageTenthPips = tm.entrySlippageTenthPips
  | [], _ => rfl
  | (symbol, price) :: pairs, tm => by
    rw [closeEach, closeEach_slip liquidated tick pairs, closeTrade_slip]

@[simp] theorem openTrade_slip (tm : TradeManager) (tick : PriceData) (size : ℤ)
    (direction : Direction) (stop limit : ℤ) :
    (tm.openTrade tick size direction stop limit).1.entrySlippageTenthPips =
      tm.entrySlippageTenthPips := by
  cases h : tm.activeTrades.lookup tick.symbol with
  | some held => rw [openTrade_held h]
  | none => rw [openTrade_fresh h]; rfl

@[simp] theorem markToMarket_slip (tm : TradeManager) (tick : PriceData) :
    (tm.markToMarket tick).entrySlippageTenthPips = tm.entrySlippageTenthPips := by
  cases h : tm.activeTrades.lookup tick.symbol with
  | none => rw [markToMarket_none h]
  | some held => rw [markToMarket_some h]; rfl

@[simp] theorem calls_slip (cs : List Call) (tm : TradeManager) :
    (tm.calls cs).entrySlippageTenthPips = tm.entrySlippageTenthPips := by
  induction cs generalizing tm with
  | nil => rfl
  | cons c cs ih =>
    refine (ih (tm.call c)).trans ?_
    cases c <;> simp [call, TradeManager.closeAllTrades]

end TradeManager

section Review

variable {tm : TradeManager} {tick : PriceData} {trade : Trade}

theorem reviewStopAndLimit_stays (h : tm.activeTrades.lookup tick.symbol = some trade)
    (hexit : checkExit trade tick = none) : reviewStopAndLimit tm tick = tm := by
  simp only [reviewStopAndLimit, findActiveTrade, h, hexit]

theorem reviewStopAndLimit_exits (h : tm.activeTrades.lookup tick.symbol = some trade) {price : ℤ}
    (hexit : checkExit trade tick = some price) :
    reviewStopAndLimit tm tick = (tm.closeTrade tick.symbol price tick false).1 := by
  simp only [reviewStopAndLimit, findActiveTrade, h, hexit]

theorem reviewStopAndLimit_lookup_ne {symbol : String} (hne : tick.symbol ≠ symbol) :
    (reviewStopAndLimit tm tick).activeTrades.lookup symbol = tm.activeTrades.lookup symbol := by
  rcases reviewStopAndLimit_eq_call tm tick with h | ⟨exitPrice, h⟩ <;> rw [h]
  rw [closeTrade_lookup, if_neg (Ne.symm hne)]

theorem reviewStopAndLimit_closedTrades :
    tm.closedTrades <+: (reviewStopAndLimit tm tick).closedTrades := by
  rcases reviewStopAndLimit_eq_call tm tick with h | ⟨exitPrice, h⟩ <;> rw [h]
  exact closeTrade_closedTrades _ _ _ _ _

theorem reviewStopAndLimit_slip :
    (reviewStopAndLimit tm tick).entrySlippageTenthPips = tm.entrySlippageTenthPips := by
  rcases reviewStopAndLimit_eq_call tm tick with h | ⟨exitPrice, h⟩ <;> rw [h]
  exact closeTrade_slip _ _ _ _ _

end Review

namespace Backtest

variable {σ B D : Type} [Decimal D] {b : Backtest σ B D} {st : RunState σ B}

/-! ## What a tick leaves alone -/

theorem entryPhase_lookup_ne {symbol : String} {tick : PriceData} (hne : tick.symbol ≠ symbol) :
    (b.entryPhase st tick).tradeManager.activeTrades.lookup symbol =
      st.tradeManager.activeTrades.lookup symbol := by
  rcases entryPhase_cases (b := b) st tick with ⟨h, -⟩ | ⟨-, _, _, _, _, h, -⟩ <;> rw [h]
  exact openTrade_lookup_ne hne _ _ _ _

/-- The review and the entry of a tick leave the trades of other symbols alone. -/
theorem other_symbol {symbol : String} {tick : PriceData} (hne : tick.symbol ≠ symbol) :
    (b.entryPhase (b.evictOpens (b.exitPhase st tick) tick) tick).tradeManager.activeTrades.lookup
      symbol = st.tradeManager.activeTrades.lookup symbol := by
  rw [entryPhase_lookup_ne hne, evictOpens_tradeManager, exitPhase,
    reviewStopAndLimit_lookup_ne hne, markToMarket_lookup_ne hne]

theorem tradePhase_closedTrades (st : RunState σ B) (tick : PriceData) :
    st.tradeManager.closedTrades <+: (b.tradePhase st tick).tradeManager.closedTrades := by
  refine List.IsPrefix.trans ?_ (calls_closedTrades _ _)
  rcases entryPhase_cases (b := b) (b.evictOpens st tick) tick with ⟨h, -⟩ | ⟨-, _, _, _, _, h, -⟩
  · rw [h, evictOpens_tradeManager]
  · rw [h, openTrade_closedTrades, evictOpens_tradeManager]

theorem exitPhase_closedTrades (st : RunState σ B) (tick : PriceData) :
    st.tradeManager.closedTrades <+: (b.exitPhase st tick).tradeManager.closedTrades := by
  refine List.IsPrefix.trans ?_ reviewStopAndLimit_closedTrades
  rw [markToMarket_closedTrades]

theorem after_closedTrades (ticks : List PriceData) (st : RunState σ B) :
    st.tradeManager.closedTrades <+: (b.after st ticks).tradeManager.closedTrades := by
  induction ticks generalizing st with
  | nil => exact List.prefix_rfl
  | cons tick ticks ih =>
    exact ((exitPhase_closedTrades st tick).trans (tradePhase_closedTrades _ tick)).trans
      (ih (b.step st tick))

theorem exitPhase_slip (st : RunState σ B) (tick : PriceData) :
    (b.exitPhase st tick).tradeManager.entrySlippageTenthPips =
      st.tradeManager.entrySlippageTenthPips := by
  rw [exitPhase, reviewStopAndLimit_slip, markToMarket_slip]

theorem tradePhase_slip (st : RunState σ B) (tick : PriceData) :
    (b.tradePhase st tick).tradeManager.entrySlippageTenthPips =
      st.tradeManager.entrySlippageTenthPips := by
  refine (calls_slip _ _).trans ?_
  rcases entryPhase_cases (b := b) (b.evictOpens st tick) tick with ⟨h, -⟩ | ⟨-, _, _, _, _, h, -⟩
  · rw [h, evictOpens_tradeManager]
  · rw [h, openTrade_slip, evictOpens_tradeManager]

theorem after_slip (ticks : List PriceData) (st : RunState σ B) :
    (b.after st ticks).tradeManager.entrySlippageTenthPips =
      st.tradeManager.entrySlippageTenthPips := by
  induction ticks generalizing st with
  | nil => rfl
  | cons tick ticks ih =>
    exact (ih (b.step st tick)).trans ((tradePhase_slip _ tick).trans (exitPhase_slip st tick))

/-! ## An open trade along the ticks -/

theorem entryPhase_holds {symbol : String} {trade : Trade} {mark : ℤ} (tick : PriceData)
    (h : Holds st.tradeManager symbol trade mark) :
    Holds (b.entryPhase st tick).tradeManager symbol trade mark := by
  rcases entryPhase_cases (b := b) st tick with ⟨he, -⟩ | ⟨-, _, _, _, _, he, -⟩ <;> rw [he]
  · exact h
  · exact h.openTrade _ _ _ _ _

theorem duringPhase_holds {symbol : String} {trade : Trade} {mark : ℤ} (tick : PriceData)
    (hcloses : b.strategy.NeverCloses) (h : Holds st.tradeManager symbol trade mark) :
    ∃ mark', Holds (b.duringPhase st tick).tradeManager symbol trade mark' ∧
      (b.strategy.NeverMarks → mark' = mark) := by
  obtain ⟨mark', hh, hm⟩ := h.calls (hcloses st.strategy tick st.barStore st.tradeManager)
  exact ⟨mark', hh, fun hn => hm fun c hc => hn _ _ _ _ c hc⟩

section Entered

variable {tm : TradeManager} {entry tick : PriceData} {size stop limit mark : ℤ}
  {direction : Direction}

theorem exitPhase_holds (hknown : SymbolScale.get entry.symbol ≠ SymbolScale.kUnknown)
    (hstop : 0 < stop) (hlimit : 0 < limit) (hpass : ¬ Passes entry direction stop limit tick)
    (h : Holds st.tradeManager entry.symbol (tm.newTrade entry size direction stop limit) mark) :
    Holds (b.exitPhase st tick).tradeManager entry.symbol
      (tm.newTrade entry size direction stop limit)
      (if tick.symbol = entry.symbol then tick.closeSide direction else mark) := by
  have hm := h.markToMarket tick
  rw [newTrade_direction] at hm
  by_cases hs : tick.symbol = entry.symbol
  · rw [if_pos hs] at hm ⊢
    have hexit := (checkExit_marked tm size (tick.closeSide direction) hknown hstop hlimit hs).2 hpass
    rw [exitPhase, reviewStopAndLimit_stays (hs ▸ hm) hexit]
    exact hm
  · rw [if_neg hs] at hm ⊢
    rw [Holds, exitPhase, reviewStopAndLimit_lookup_ne hs]
    exact hm

/-- The tick of the passage closes the trade at its own close side. -/
theorem exitPhase_exits (hknown : SymbolScale.get entry.symbol ≠ SymbolScale.kUnknown)
    (hstop : 0 < stop) (hlimit : 0 < limit) (hpass : Passes entry direction stop limit tick)
    (h : Holds st.tradeManager entry.symbol (tm.newTrade entry size direction stop limit) mark) :
    (b.exitPhase st tick).tradeManager.activeTrades.lookup entry.symbol = none ∧
    closedAt (marked (tm.newTrade entry size direction stop limit) (tick.closeSide direction))
      (tick.closeSide direction) tick false ∈ (b.exitPhase st tick).tradeManager.closedTrades := by
  have hm := h.markToMarket tick
  have hs := hpass.1
  have hexit := (checkExit_marked tm size (tick.closeSide direction) hknown hstop hlimit hs).1 hpass
  rw [if_pos hs, newTrade_direction] at hm
  rw [exitPhase, reviewStopAndLimit_exits (hs ▸ hm) hexit]
  constructor
  · rw [closeTrade_lookup, if_pos hs.symm]
  · rw [closeTrade_some (hs ▸ hm)]
    exact List.mem_append_right _ (List.mem_singleton_self _)

theorem step_holds (hcloses : b.strategy.NeverCloses)
    (hknown : SymbolScale.get entry.symbol ≠ SymbolScale.kUnknown)
    (hstop : 0 < stop) (hlimit : 0 < limit) (hpass : ¬ Passes entry direction stop limit tick)
    (h : Holds st.tradeManager entry.symbol (tm.newTrade entry size direction stop limit) mark) :
    ∃ mark', Holds (b.step st tick).tradeManager entry.symbol
        (tm.newTrade entry size direction stop limit) mark' ∧
      (b.strategy.NeverMarks →
        mark' = if tick.symbol = entry.symbol then tick.closeSide direction else mark) := by
  have hx := exitPhase_holds (b := b) hknown hstop hlimit hpass h
  rw [← evictOpens_tradeManager (b := b) _ tick] at hx
  exact duringPhase_holds tick hcloses (entryPhase_holds tick hx)

/-- The trade stays open over ticks that do not take it out. -/
theorem after_holds (hcloses : b.strategy.NeverCloses)
    (hknown : SymbolScale.get entry.symbol ≠ SymbolScale.kUnknown) (hstop : 0 < stop)
    (hlimit : 0 < limit) {ticks : List PriceData}
    (hpass : ∀ tick ∈ ticks, ¬ Passes entry direction stop limit tick)
    (h : Holds st.tradeManager entry.symbol (tm.newTrade entry size direction stop limit) mark) :
    ∃ mark', Holds (b.after st ticks).tradeManager entry.symbol
        (tm.newTrade entry size direction stop limit) mark' ∧
      (b.strategy.NeverMarks → mark' = requote entry.symbol direction mark ticks) := by
  induction ticks generalizing st mark with
  | nil => exact ⟨mark, h, fun _ => rfl⟩
  | cons tick ticks ih =>
    obtain ⟨mark₁, h₁, hm₁⟩ := step_holds hcloses hknown hstop hlimit
      (hpass tick List.mem_cons_self) h
    obtain ⟨mark₂, h₂, hm₂⟩ := ih (fun t ht => hpass t (List.mem_cons_of_mem _ ht)) h₁
    refine ⟨mark₂, h₂, fun hn => ?_⟩
    rw [hm₂ hn, hm₁ hn]
    rfl

end Entered

/-! ## The whole run -/

theorem loop_off (hoff : b.lossLimitActive = false) (ticks : List PriceData) (st : RunState σ B) :
    b.loop st ticks = (b.after st ticks, none) := by
  induction ticks generalizing st with
  | nil => rfl
  | cons tick ticks ih =>
    rw [loop, if_neg (by simp [lossLimitBreached, hoff])]
    exact ih (b.step st tick)

/-- With the loss limit off a run ends with the ordinary closes. -/
theorem runTicks_off (hoff : b.lossLimitActive = false) (tm : TradeManager) (strategy : σ)
    (store : B) {ticks : List PriceData} (hne : ticks ≠ []) :
    (b.runTicks tm strategy store ticks).2 =
      b.closeAll (b.after (start tm strategy store) ticks) (ticks.getLast hne) false := by
  simp only [runTicks, loop_off hoff, lossLimitBreached, hoff, Bool.false_and, Bool.false_eq_true,
    ↓reduceIte, closeAtEnd_eq false hne]

theorem runTicks_off_consistent (hoff : b.lossLimitActive = false) {tm : TradeManager}
    (c : Consistent tm) (strategy : σ) (store : B) {ticks : List PriceData} (hne : ticks ≠ []) :
    Consistent (b.runTicks tm strategy store ticks).2.tradeManager := by
  have hstart : Consistent (start tm strategy store).tradeManager := c
  rw [runTicks_off hoff tm strategy store hne]
  exact (after_consistent hstart ticks).closeEach false _

/-- The log has one trade with the id: the given trade, closed at the price and the time. -/
def ClosedOnce (log : List Trade) (trade : Trade) (price time : ℤ) : Prop :=
  ∃ closed ∈ log, (∀ t ∈ log, t.id = trade.id → t = closed) ∧ closed.id = trade.id ∧
    closed.closePrice = price ∧ closed.closeTime = time ∧ closed.liquidated = false ∧
    closed.pnl = floatingPnlAt trade price

theorem closedOnce_of_mem {tm : TradeManager} (c : Consistent tm) {trade : Trade}
    (mark : ℤ) {price : ℤ} {tick : PriceData}
    (h : closedAt (marked trade mark) price tick false ∈ tm.closedTrades) :
    ClosedOnce tm.closedTrades trade price tick.timestamp := by
  refine ⟨_, h, fun t ht hid => ?_, rfl, rfl, rfl, rfl, rfl⟩
  have hnodup := List.Nodup.of_append_right (List.map_append ▸ c.distinct)
  exact List.inj_on_of_nodup_map hnodup ht h hid

/-- The trade an entry opened, as the manager built it from the tick. -/
theorem opened_eq_newTrade {tick : PriceData} {trade : Trade}
    (hgate : st.tradeManager.activeTrades.lookup tick.symbol = none)
    (hopen : (b.entryPhase st tick).tradeManager.activeTrades.lookup tick.symbol = some trade) :
    ∃ size, trade = st.tradeManager.newTrade tick size trade.direction trade.stopDistancePips
      trade.limitDistancePips := by
  rcases entryPhase_cases (b := b) st tick with ⟨he, -⟩ | ⟨-, size, direction, stop, limit, he, -⟩
  · rw [he, hgate] at hopen
    cases hopen
  · rw [he, openTrade_fresh hgate] at hopen
    obtain rfl := Option.some.inj ((AList.lookup_insert _).symm.trans hopen)
    exact ⟨size, rfl⟩

end Backtest

end BacktestEngine

import BacktestEngine.Library.Drawdown
import BacktestEngine.Trading.TradeManager

/-! # Accounting over whole runs

The running sums agree with the trades they stand for, and the peak and the
drawdown with every equity sampled so far. Each operation preserves both, hence
so does every sequence of calls on a fresh manager.
-/

namespace BacktestEngine

namespace TradeManager

/-- The running values agree with the open and the closed trades. -/
structure Consistent (tm : TradeManager) : Prop where
  keyed : ∀ s t, tm.activeTrades.lookup s = some t → t.symbol = s
  valued : ∀ s t, tm.activeTrades.lookup s = some t →
    t.floatingPnl = floatingPnlAt t t.lastMarkPrice
  open_sum : tm.openPnl = (tm.activeList.map Trade.floatingPnl).sum
  closed_sum : tm.closedPnl = (tm.closedTrades.map Trade.pnl).sum
  issued : ∀ t ∈ tm.activeList ++ tm.closedTrades, ∃ n < tm.tradeCounter, t.id = tradeId n
  distinct : ((tm.activeList ++ tm.closedTrades).map Trade.id).Nodup
  sampled : tm.equity ≤ tm.peakEquity ∧ tm.peakEquity - tm.equity ≤ tm.maxDrawdown

/-- The peak and the drawdown belong to a history that ends at the present equity. -/
structure Tracked (tm : TradeManager) (history : List ℤ) : Prop where
  tracks : Drawdown.Tracks history tm.peakEquity tm.maxDrawdown
  last : history.getLast? = some tm.equity

/-- The extremes after an operation: unchanged with the equity, or moved by its new sample. -/
def Sampled (tm tm' : TradeManager) : Prop :=
  (tm'.equity = tm.equity ∧ tm'.peakEquity = tm.peakEquity ∧ tm'.maxDrawdown = tm.maxDrawdown) ∨
  (tm'.peakEquity = max tm.peakEquity tm'.equity ∧
    tm'.maxDrawdown = max tm.maxDrawdown (tm'.peakEquity - tm'.equity))

variable {tm tm' : TradeManager} {tick : PriceData} {symbol : String} {trade held : Trade}
variable {history : List ℤ}

theorem tradeId_injective : Function.Injective tradeId := by
  intro m n h
  have := congrArg String.toList h
  simp only [tradeId, String.toList_append, List.append_cancel_left_eq] at this
  exact Nat.repr_inj.mp (String.toList_inj.mp this)

theorem Tracked.step (t : Tracked tm history) (h : Sampled tm tm') :
    Tracked tm' (history ++ [tm'.equity]) := by
  refine ⟨?_, by simp⟩
  rcases h with ⟨he, hp, hd⟩ | ⟨hp, hd⟩
  · rw [he, hp, hd]
    exact t.tracks.snoc_last t.last
  · rw [hd, hp]
    exact t.tracks.snoc tm'.equity

theorem activeList_insert (h : tm.activeTrades.lookup symbol = none) :
    ((tm.activeTrades.insert symbol trade).entries.map fun entry => entry.2) =
      trade :: tm.activeList := by
  rw [Keyed.entries_insert_fresh h]
  rfl

theorem activeList_perm (h : tm.activeTrades.lookup symbol = some trade) :
    tm.activeList.Perm (trade :: (tm.activeTrades.erase symbol).entries.map fun entry => entry.2) :=
  (Keyed.entries_perm h).map fun entry : Sigma fun _ : String => Trade => entry.2

theorem mem_activeList {t : Trade} :
    t ∈ tm.activeList ↔ ∃ s, tm.activeTrades.lookup s = some t := by
  simp only [activeList, List.mem_map]
  constructor
  · rintro ⟨⟨s, t'⟩, he, rfl⟩
    exact ⟨s, Keyed.mem_entries.mp he⟩
  · rintro ⟨s, hs⟩
    exact ⟨⟨s, t⟩, Keyed.mem_entries.mpr hs, rfl⟩

/-! ## Opening -/

theorem openTrade_sampled (tm : TradeManager) (tick : PriceData) (size : ℤ)
    (direction : Direction) (stop limit : ℤ) :
    Sampled tm (tm.openTrade tick size direction stop limit).1 := by
  cases h : tm.activeTrades.lookup tick.symbol with
  | some held =>
    rw [openTrade_held h]
    exact .inl ⟨rfl, rfl, rfl⟩
  | none =>
    rw [openTrade_fresh h]
    exact .inr ⟨by simp [equity, calculatePnl, unrealizedPnl],
      by simp [equity, calculatePnl, unrealizedPnl]⟩

theorem Consistent.openTrade (c : Consistent tm) (tick : PriceData) (size : ℤ)
    (direction : Direction) (stop limit : ℤ) :
    Consistent (tm.openTrade tick size direction stop limit).1 := by
  cases h : tm.activeTrades.lookup tick.symbol with
  | some held =>
    rw [openTrade_held h]
    refine { c with issued := fun t ht => ?_ }
    obtain ⟨n, hn, he⟩ := c.issued t ht
    exact ⟨n, Nat.lt_succ_of_lt hn, he⟩
  | none =>
    rw [openTrade_fresh h]
    have hlookup : ∀ s t, (tm.activeTrades.insert tick.symbol
        (tm.newTrade tick size direction stop limit)).lookup s = some t →
        (s = tick.symbol ∧ t = tm.newTrade tick size direction stop limit) ∨
          tm.activeTrades.lookup s = some t := by
      intro s t ht
      by_cases hs : s = tick.symbol
      · subst hs
        rw [AList.lookup_insert] at ht
        exact .inl ⟨rfl, (Option.some.inj ht).symm⟩
      · rw [AList.lookup_insert_ne hs] at ht
        exact .inr ht
    refine ⟨fun s t ht => ?_, fun s t ht => ?_, ?_, c.closed_sum, fun t ht => ?_, ?_, ?_⟩
    · rcases hlookup s t ht with ⟨rfl, rfl⟩ | ht
      · rfl
      · exact c.keyed s t ht
    · rcases hlookup s t ht with ⟨-, rfl⟩ | ht
      · rfl
      · exact c.valued s t ht
    · simp only [activeList, updateDrawdown_openPnl, updateDrawdown_activeTrades,
        activeList_insert h, List.map_cons, List.sum_cons, c.open_sum]
      exact Int.add_comm _ _
    · simp only [activeList, updateDrawdown_activeTrades, updateDrawdown_closedTrades,
        activeList_insert h, List.cons_append, List.mem_cons] at ht
      rcases ht with rfl | ht
      · exact ⟨tm.tradeCounter, Nat.lt_succ_self _, rfl⟩
      · obtain ⟨n, hn, he⟩ := c.issued t ht
        exact ⟨n, Nat.lt_succ_of_lt hn, he⟩
    · simp only [activeList, updateDrawdown_activeTrades, updateDrawdown_closedTrades,
        activeList_insert h, List.cons_append, List.map_cons, List.nodup_cons]
      refine ⟨fun hm => ?_, c.distinct⟩
      obtain ⟨t, ht, he⟩ := List.mem_map.mp hm
      obtain ⟨n, hn, hid⟩ := c.issued t ht
      rw [newTrade_id, hid] at he
      exact hn.ne (tradeId_injective he)
    · simp only [equity, calculatePnl, unrealizedPnl, updateDrawdown_closedPnl,
        updateDrawdown_openPnl, updateDrawdown_peakEquity, updateDrawdown_maxDrawdown]
      omega

/-! ## Revaluing -/

theorem markToMarket_sampled (tm : TradeManager) (tick : PriceData) :
    Sampled tm (tm.markToMarket tick) := by
  cases h : tm.activeTrades.lookup tick.symbol with
  | none =>
    rw [markToMarket_none h]
    exact .inl ⟨rfl, rfl, rfl⟩
  | some trade =>
    rw [markToMarket_some h]
    exact .inr ⟨by simp [equity, calculatePnl, unrealizedPnl],
      by simp [equity, calculatePnl, unrealizedPnl]⟩

theorem Consistent.markToMarket (c : Consistent tm) (tick : PriceData) :
    Consistent (tm.markToMarket tick) := by
  cases h : tm.activeTrades.lookup tick.symbol with
  | none => rwa [markToMarket_none h]
  | some trade =>
    rw [markToMarket_some h]
    have hperm := activeList_perm h
    have hids : ((marked trade (tick.closeSide trade.direction) ::
        (tm.activeTrades.erase tick.symbol).entries.map fun entry => entry.2) ++
          tm.closedTrades).map Trade.id =
        ((trade :: (tm.activeTrades.erase tick.symbol).entries.map fun entry => entry.2) ++
          tm.closedTrades).map Trade.id := rfl
    refine ⟨fun s t ht => ?_, fun s t ht => ?_, ?_, c.closed_sum, fun t ht => ?_, ?_, ?_⟩
    · dsimp only [updateDrawdown_activeTrades] at ht
      by_cases hs : s = tick.symbol
      · subst hs
        rw [AList.lookup_insert] at ht
        cases ht
        exact c.keyed _ trade h
      · rw [AList.lookup_insert_ne hs] at ht
        exact c.keyed s t ht
    · dsimp only [updateDrawdown_activeTrades] at ht
      by_cases hs : s = tick.symbol
      · subst hs
        rw [AList.lookup_insert] at ht
        cases ht
        rfl
      · rw [AList.lookup_insert_ne hs] at ht
        exact c.valued s t ht
    · have hsum := (hperm.map Trade.floatingPnl).sum_eq
      simp only [activeList, List.map_cons, List.sum_cons] at hsum
      simp only [activeList, updateDrawdown_openPnl, updateDrawdown_activeTrades,
        Keyed.entries_insert, List.map_cons, List.sum_cons, c.open_sum, hsum, marked]
      omega
    · simp only [activeList, updateDrawdown_activeTrades, updateDrawdown_closedTrades,
        Keyed.entries_insert, List.map_cons, List.cons_append, List.mem_cons] at ht
      rcases ht with rfl | ht
      · exact c.issued trade (List.mem_append_left _ (hperm.mem_iff.mpr List.mem_cons_self))
      · exact c.issued t ((hperm.append_right _).mem_iff.mpr (List.mem_cons_of_mem _ ht))
    · have := (((hperm.append_right tm.closedTrades).map Trade.id).nodup_iff).mp c.distinct
      exact hids ▸ this
    · simp only [equity, calculatePnl, unrealizedPnl, updateDrawdown_closedPnl,
        updateDrawdown_openPnl, updateDrawdown_peakEquity, updateDrawdown_maxDrawdown]
      omega

/-! ## Closing -/

theorem closeTrade_sampled (tm : TradeManager) (symbol : String) (price : ℤ) (tick : PriceData)
    (liquidated : Bool) : Sampled tm (tm.closeTrade symbol price tick liquidated).1 := by
  cases h : tm.activeTrades.lookup symbol with
  | none =>
    rw [closeTrade_none h]
    exact .inl ⟨rfl, rfl, rfl⟩
  | some trade =>
    rw [closeTrade_some h]
    exact .inr ⟨by simp [equity, calculatePnl, unrealizedPnl],
      by simp [equity, calculatePnl, unrealizedPnl]⟩

theorem Consistent.closeTrade (c : Consistent tm) (symbol : String) (price : ℤ)
    (tick : PriceData) (liquidated : Bool) :
    Consistent (tm.closeTrade symbol price tick liquidated).1 := by
  have hlookup := closeTrade_lookup tm symbol price tick liquidated
  cases h : tm.activeTrades.lookup symbol with
  | none => rwa [closeTrade_none h]
  | some trade =>
    have hperm := activeList_perm h
    have hmove : ((((tm.activeTrades.erase symbol).entries.map fun entry => entry.2) ++
        (tm.closedTrades ++ [closedAt trade price tick liquidated])).map Trade.id).Perm
          ((tm.activeList ++ tm.closedTrades).map Trade.id) := by
      rw [← List.append_assoc, List.map_append, List.map_singleton]
      refine (List.perm_append_singleton _ _).trans ?_
      exact ((hperm.append_right tm.closedTrades).map Trade.id).symm
    rw [closeTrade_some h] at hlookup ⊢
    refine ⟨fun s t ht => ?_, fun s t ht => ?_, ?_, ?_, fun t ht => ?_, ?_, ?_⟩
    · rw [hlookup s] at ht
      split at ht
      · cases ht
      · exact c.keyed s t ht
    · rw [hlookup s] at ht
      split at ht
      · cases ht
      · exact c.valued s t ht
    · have hsum := (hperm.map Trade.floatingPnl).sum_eq
      simp only [activeList, List.map_cons, List.sum_cons] at hsum
      simp only [activeList, updateDrawdown_openPnl, updateDrawdown_activeTrades, c.open_sum, hsum]
      omega
    · simp only [updateDrawdown_closedPnl, List.map_append, List.map_singleton, List.sum_append,
        List.sum_singleton, c.closed_sum]
    · simp only [activeList, updateDrawdown_activeTrades, List.mem_append,
        List.mem_singleton] at ht
      rcases ht with ht | ht | rfl
      · exact c.issued t (List.mem_append_left _ (hperm.mem_iff.mpr (List.mem_cons_of_mem _ ht)))
      · exact c.issued t (List.mem_append_right _ ht)
      · exact c.issued trade (List.mem_append_left _ (hperm.mem_iff.mpr List.mem_cons_self))
    · exact hmove.nodup_iff.mpr c.distinct
    · simp only [equity, calculatePnl, unrealizedPnl, updateDrawdown_closedPnl,
        updateDrawdown_openPnl, updateDrawdown_peakEquity, updateDrawdown_maxDrawdown]
      omega

/-! ## Whole runs -/

theorem fresh_consistent (slip : ℤ) : Consistent (fresh slip) where
  keyed s t h := by cases h
  valued s t h := by cases h
  open_sum := rfl
  closed_sum := rfl
  issued t h := by cases h
  distinct := List.nodup_nil
  sampled := ⟨le_rfl, le_rfl⟩

theorem fresh_tracked (slip : ℤ) : Tracked (fresh slip) [0] :=
  ⟨Drawdown.Tracks.singleton 0, rfl⟩

theorem Consistent.closeEach (liquidated : Bool) (tick : PriceData) :
    ∀ {pairs : List (String × ℤ)} {tm : TradeManager}, Consistent tm →
      Consistent (TradeManager.closeEach tick liquidated tm pairs)
  | [], _, c => c
  | (symbol, price) :: _, _, c =>
    (c.closeTrade symbol price tick liquidated).closeEach liquidated tick

theorem Consistent.call (c : Consistent tm) (k : Call) : Consistent (tm.call k) := by
  cases k with
  | openTrade tick size direction stop limit => exact c.openTrade tick size direction stop limit
  | markToMarket tick => exact c.markToMarket tick
  | closeTrade symbol price tick liquidated => exact c.closeTrade symbol price tick liquidated
  | closeAllTrades tick liquidated order => exact c.closeEach liquidated tick

theorem Consistent.calls (c : Consistent tm) (ks : List Call) : Consistent (tm.calls ks) := by
  induction ks generalizing tm with
  | nil => exact c
  | cons k ks ih => exact ih (c.call k)

theorem Tracked.closeEach (liquidated : Bool) (tick : PriceData) :
    ∀ (pairs : List (String × ℤ)) {tm : TradeManager} {history : List ℤ}, Tracked tm history →
      Tracked (TradeManager.closeEach tick liquidated tm pairs)
        (history ++ (closeStates tick liquidated tm pairs).map equity)
  | [], _, _, t => by simpa [TradeManager.closeEach, closeStates] using t
  | (symbol, price) :: pairs, tm, history, t => by
    have := Tracked.closeEach liquidated tick pairs
      (t.step (closeTrade_sampled tm symbol price tick liquidated))
    simpa only [TradeManager.closeEach, closeStates, List.map_cons, List.append_assoc,
      List.singleton_append] using this

theorem Tracked.call (t : Tracked tm history) (k : Call) :
    Tracked (tm.call k) (history ++ (tm.callStates k).map equity) := by
  cases k with
  | openTrade tick size direction stop limit =>
    exact t.step (openTrade_sampled tm tick size direction stop limit)
  | markToMarket tick => exact t.step (markToMarket_sampled tm tick)
  | closeTrade symbol price tick liquidated =>
    exact t.step (closeTrade_sampled tm symbol price tick liquidated)
  | closeAllTrades tick liquidated order => exact t.closeEach liquidated tick _

theorem Tracked.calls (t : Tracked tm history) (ks : List Call) :
    Tracked (tm.calls ks) (history ++ equityHistory tm ks) := by
  induction ks generalizing tm history with
  | nil => simpa [TradeManager.calls, equityHistory] using t
  | cons k ks ih =>
    have := ih (t.call k)
    rwa [List.append_assoc] at this

theorem Consistent.symbols_nodup (c : Consistent tm) : (tm.activeList.map Trade.symbol).Nodup := by
  have hkeys : tm.activeList.map Trade.symbol = tm.activeTrades.keys := by
    rw [activeList, AList.keys, List.keys, List.map_map]
    refine List.map_congr_left fun entry he => ?_
    exact c.keyed entry.1 entry.2 (Keyed.mem_entries.mp he)
  rw [hkeys]
  exact tm.activeTrades.keys_nodup

theorem Consistent.floatingPnl_eq (c : Consistent tm) (h : trade ∈ tm.activeList) :
    trade.floatingPnl = floatingPnlAt trade trade.lastMarkPrice := by
  obtain ⟨s, hs⟩ := mem_activeList.mp h
  exact c.valued s trade hs

/-- Every sequence of calls on a fresh manager keeps the accounts: the floating and realized
profits are the sums over the trades, the drawdown is the greatest of the sampled equity
history, symbols are open at most once and ids never repeat. -/
theorem accounting (slip : ℤ) (ks : List Call) :
    let tm := (fresh slip).calls ks
    tm.unrealizedPnl = (tm.activeList.map Trade.floatingPnl).sum ∧
    (∀ t ∈ tm.activeList, t.floatingPnl = match t.direction with
      | .long => (t.lastMarkPrice - t.entryPrice) * t.size
      | .short => -(t.lastMarkPrice - t.entryPrice) * t.size) ∧
    tm.calculatePnl = (tm.closedTrades.map Trade.pnl).sum ∧
    Drawdown.IsMaxDrawdown (0 :: equityHistory (fresh slip) ks) tm.maxDrawdownPoints ∧
    (tm.activeList.map Trade.symbol).Nodup ∧
    ((tm.activeList ++ tm.closedTrades).map Trade.id).Nodup := by
  intro tm
  have c : Consistent tm := (fresh_consistent slip).calls ks
  have t : Tracked tm ([0] ++ equityHistory (fresh slip) ks) := (fresh_tracked slip).calls ks
  refine ⟨c.open_sum, fun t ht => ?_, c.closed_sum, t.tracks.drawdown_greatest,
    c.symbols_nodup, c.distinct⟩
  rw [c.floatingPnl_eq ht, floatingPnlAt]
  cases t.direction <;> rfl

/-! ## The closing sweep -/

/-- Every pair names an open trade and its last mark, and no symbol comes twice. -/
def Sweeps (tm : TradeManager) (pairs : List (String × ℤ)) : Prop :=
  (pairs.map Prod.fst).Nodup ∧
    ∀ p ∈ pairs, ∃ t, tm.activeTrades.lookup p.1 = some t ∧ t.lastMarkPrice = p.2

theorem Consistent.sweep_one (c : Consistent tm) (h : tm.activeTrades.lookup symbol = some trade)
    (tick : PriceData) (liquidated : Bool) :
    let tm' := (tm.closeTrade symbol trade.lastMarkPrice tick liquidated).1
    tm'.equity = tm.equity ∧ tm'.peakEquity = tm.peakEquity ∧ tm'.maxDrawdown = tm.maxDrawdown := by
  have hv := c.valued symbol trade h
  have hs := c.sampled
  rw [closeTrade_some h]
  simp only [equity, calculatePnl, unrealizedPnl, updateDrawdown_closedPnl, updateDrawdown_openPnl,
    updateDrawdown_peakEquity, updateDrawdown_maxDrawdown, closedAt, ← hv] at hs ⊢
  omega

theorem closeEach_lookup (liquidated : Bool) (tick : PriceData) (s : String) :
    ∀ {pairs : List (String × ℤ)} {tm : TradeManager},
      (closeEach tick liquidated tm pairs).activeTrades.lookup s =
        if s ∈ pairs.map Prod.fst then none else tm.activeTrades.lookup s
  | [], _ => by simp [TradeManager.closeEach]
  | (symbol, price) :: pairs, tm => by
    rw [TradeManager.closeEach, closeEach_lookup liquidated tick s, closeTrade_lookup]
    simp only [List.map_cons, List.mem_cons]
    by_cases hs : s = symbol
    · simp only [hs, true_or, ↓reduceIte, ite_self]
    · simp only [hs, false_or, ↓reduceIte]

theorem Sweeps.tail {price : ℤ} {pairs : List (String × ℤ)} {tick : PriceData} {liquidated : Bool}
    (h : Sweeps tm ((symbol, price) :: pairs)) :
    Sweeps (tm.closeTrade symbol price tick liquidated).1 pairs := by
  have hn := List.nodup_cons.mp h.1
  refine ⟨hn.2, fun p hp => ?_⟩
  obtain ⟨t, ht, hl⟩ := h.2 p (List.mem_cons_of_mem _ hp)
  refine ⟨t, ?_, hl⟩
  rw [closeTrade_lookup, if_neg, ht]
  exact fun hs => hn.1 (List.mem_map.mpr ⟨p, hp, hs⟩)

/-- Closing at the last marks realizes exactly the floating profit. -/
theorem Consistent.sweep (liquidated : Bool) (tick : PriceData) :
    ∀ {pairs : List (String × ℤ)} {tm : TradeManager}, Consistent tm → Sweeps tm pairs →
      (TradeManager.closeEach tick liquidated tm pairs).equity = tm.equity ∧
      (TradeManager.closeEach tick liquidated tm pairs).maxDrawdown = tm.maxDrawdown
  | [], _, _, _ => ⟨rfl, rfl⟩
  | (symbol, price) :: pairs, tm, c, h => by
    obtain ⟨t, ht, rfl⟩ := h.2 (symbol, price) List.mem_cons_self
    obtain ⟨he, -, hd⟩ := c.sweep_one ht tick liquidated
    obtain ⟨he', hd'⟩ := (c.closeTrade symbol t.lastMarkPrice tick liquidated).sweep liquidated
      tick h.tail
    exact ⟨he'.trans he, hd'.trans hd⟩

theorem mem_toClose {order : WalkOrder} {p : String × ℤ} :
    p ∈ tm.toClose order ↔ ∃ t, tm.activeTrades.lookup p.1 = some t ∧ t.lastMarkPrice = p.2 := by
  simp only [toClose, List.mem_map, (order.perm _).mem_iff]
  constructor
  · rintro ⟨⟨s, t⟩, he, rfl⟩
    exact ⟨t, Keyed.mem_entries.mp he, rfl⟩
  · rintro ⟨t, ht, hl⟩
    exact ⟨⟨p.1, t⟩, Keyed.mem_entries.mpr ht, by rw [hl]⟩

theorem toClose_sweeps (tm : TradeManager) (order : WalkOrder) : Sweeps tm (tm.toClose order) := by
  refine ⟨?_, fun p hp => mem_toClose.mp hp⟩
  rw [toClose, List.map_map]
  exact (((order.perm tm.activeTrades.entries).map _).nodup_iff).mpr tm.activeTrades.keys_nodup

theorem closeAllTrades_lookup (tm : TradeManager) (tick : PriceData) (liquidated : Bool)
    (order : WalkOrder) (s : String) :
    (tm.closeAllTrades tick liquidated order).activeTrades.lookup s = none := by
  rw [closeAllTrades, closeEach_lookup]
  split
  · rfl
  · rename_i hs
    rw [Option.eq_none_iff_forall_ne_some]
    exact fun t ht => hs (List.mem_map.mpr ⟨(s, t.lastMarkPrice), mem_toClose.mpr ⟨t, ht, rfl⟩, rfl⟩)

/-- Nothing is open after the sweep. -/
theorem closeAllTrades_active (tm : TradeManager) (tick : PriceData) (liquidated : Bool)
    (order : WalkOrder) : (tm.closeAllTrades tick liquidated order).activeList = [] := by
  rw [activeList, List.map_eq_nil_iff, Keyed.entries_eq_nil_iff]
  exact closeAllTrades_lookup tm tick liquidated order

theorem Consistent.openPnl_of_empty (c : Consistent tm) (h : tm.activeList = []) :
    tm.openPnl = 0 := by
  rw [c.open_sum, h]
  rfl

/-- In whatever order the open trades are walked, the sweep keeps the equity, realizes all of
it and leaves the drawdown alone. -/
theorem Consistent.closeAllTrades (c : Consistent tm) (tick : PriceData) (liquidated : Bool)
    (order : WalkOrder) :
    (tm.closeAllTrades tick liquidated order).equity = tm.equity ∧
    (tm.closeAllTrades tick liquidated order).calculatePnl = tm.equity ∧
    (tm.closeAllTrades tick liquidated order).maxDrawdownPoints = tm.maxDrawdownPoints := by
  obtain ⟨he, hd⟩ := c.sweep liquidated tick (toClose_sweeps tm order)
  have hc : Consistent (tm.closeAllTrades tick liquidated order) := c.closeEach liquidated tick
  have ho := hc.openPnl_of_empty (closeAllTrades_active tm tick liquidated order)
  refine ⟨he, ?_, hd⟩
  rw [← he, equity, unrealizedPnl, TradeManager.closeAllTrades] at *
  rw [ho, Int.add_zero]

end TradeManager

end BacktestEngine

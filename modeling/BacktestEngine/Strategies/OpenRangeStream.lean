import BacktestEngine.Strategies.OpenRange

/-! # The range over a stream of ticks

Bars start at ticks and not at the clock, so the bar in progress may have started in the
window. The range has every other bar of the window, and that one alone is missing.
-/

namespace BacktestEngine

namespace OpenRange

open BarStore (timeBars own duration Spaced)
open RangeBar (toInt32 toInt32_of_small)

/-- A symbol's prices come in order of time, and are 32-bit numbers. -/
structure Stream (ticks : List PriceData) : Prop where
  ordered : ticks.Pairwise fun a b => a.timestamp ≤ b.timestamp
  prices : ∀ tick ∈ ticks, ∀ price ∈ [tick.ask, tick.bid], -2 ^ 31 ≤ price ∧ price < 2 ^ 31

/-- The store after the ticks and one more, without warm-up. -/
structure Fed (registrations : List BarStore.Registration) (warmUp : WarmUp)
    (ticks : List PriceData) (tick : PriceData) (store : BarStore) : Prop where
  run : ∃ registered, BarStore.fresh.registerAll registrations = .ok registered ∧
    registered.feed warmUp (ticks ++ [tick]) = .ok store
  off : warmUp.prepopulate = false
  stream : Stream (own tick.symbol (ticks ++ [tick]))

/-- All the bars of the symbol, none of them evicted. -/
def unbounded (setup : Setup) (ticks : List PriceData) (tick : PriceData) : List OhlcObject :=
  timeBars setup.signal.minutes (own tick.symbol (ticks ++ [tick]))

namespace Setup

variable (setup : Setup) (tick : PriceData)

/-- The buffer in points. -/
def buffer : ℤ := setup.bufferPips * SymbolScale.get tick.symbol

/-- The bar started in today's window. -/
def Started (bar : OhlcObject) : Prop := Inside (setup.rangeStart tick) (setup.rangeEnd tick) bar

/-- The bid is above all bars that started in the window by more than the buffer. -/
def AboveAll (bars : List OhlcObject) : Prop :=
  ∀ bar ∈ bars, setup.Started tick bar → bar.high + setup.buffer tick < tick.bid

/-- The ask is below all bars that started in the window by more than the buffer. -/
def BelowAll (bars : List OhlcObject) : Prop :=
  ∀ bar ∈ bars, setup.Started tick bar → tick.ask < bar.low - setup.buffer tick

/-- The level above every closed bar of the window is a 32-bit number, and a bar in progress that
started in the window is itself under the bid. -/
def SoundAbove (bars : List OhlcObject) : Prop :=
  (∀ bar ∈ bars.dropLast, setup.Started tick bar → bar.high + setup.buffer tick < 2 ^ 31) ∧
    ∀ last ∈ bars.getLast?, setup.Started tick last → last.high + setup.buffer tick < tick.bid

/-- The level below every closed bar of the window is a 32-bit number, and the bar in progress did
not start in the window. -/
def SoundBelow (bars : List OhlcObject) : Prop :=
  (∀ bar ∈ bars.dropLast, setup.Started tick bar → -2 ^ 31 ≤ bar.low - setup.buffer tick) ∧
    ∀ last ∈ bars.getLast?, ¬ setup.Started tick last

/-- A series as long as the strategy asks for reaches back to the start of the range whenever the
range is traded. -/
def Covers (store : BarStore) : Prop :=
  ∀ series ∈ store.find tick.symbol setup.signal.minutes, ∀ front ∈ series.head?,
    setup.signal.count ≤ series.length → setup.InEntryWindow tick → ¬ setup.Uncovered tick front

end Setup

variable {config : TradingDefinitions.StrategyConfig} {setup : Setup}
  {registrations : List BarStore.Registration} {warmUp : WarmUp} {ticks : List PriceData}
  {tick : PriceData} {store : BarStore} {series bars : List OhlcObject} {front : OhlcObject}
  {direction : Direction}

/-! ## What a decision says -/

/-- A direction comes of a series that covers the range and a break of it. -/
theorem decide_eq_some (h : setup.decide tick store = some direction) : ∃ series front,
    store.find tick.symbol setup.signal.minutes = some series ∧ series.head? = some front ∧
      ¬ setup.Uncovered tick front ∧ (setup.extent tick series).seen = true ∧
      setup.breakout tick (setup.extent tick series) = some direction := by
  unfold Setup.decide at h
  split_ifs at h with hwindow
  split at h
  · cases h
  · rename_i series hseries
    by_cases hshort : series.length < 2
    · rw [if_pos hshort] at h
      cases h
    · rw [if_neg hshort] at h
      split at h
      · cases h
      · rename_i front hfront
        split_ifs at h with hcovered hseen
        refine ⟨series, front, hseries, hfront, hcovered, ?_, h⟩
        simpa using hseen

theorem toInt32_add (a b : ℤ) : toInt32 (a + toInt32 b) = toInt32 (a + b) := Int.add_bmod_bmod

theorem toInt32_sub (a b : ℤ) : toInt32 (a - toInt32 b) = toInt32 (a - b) := Int.sub_bmod_bmod

theorem breakout_long {extent : Extent} (h : setup.breakout tick extent = some .long) :
    toInt32 (extent.high + setup.buffer tick) < tick.bid := by
  unfold Setup.breakout at h
  dsimp only at h
  rw [toInt32_add] at h
  split_ifs at h with hlong hshort
  · exact hlong
  · cases h

theorem breakout_short {extent : Extent} (h : setup.breakout tick extent = some .short) :
    tick.ask < toInt32 (extent.low - setup.buffer tick) := by
  unfold Setup.breakout at h
  dsimp only at h
  rw [toInt32_sub] at h
  split_ifs at h with hlong hshort
  · cases h
  · exact hshort

/-! ## The levels of the range -/

/-- The prices of the bars are 32-bit numbers. -/
def Narrow (bars : List OhlcObject) : Prop :=
  ∀ bar ∈ bars, -2 ^ 31 ≤ bar.high ∧ bar.high < 2 ^ 31 ∧ -2 ^ 31 ≤ bar.low ∧ bar.low < 2 ^ 31

theorem exists_started (hseen : (setup.extent tick series).seen = true) :
    ∃ bar ∈ series.dropLast, setup.Started tick bar :=
  (seen_iff.mp hseen).resolve_left Bool.false_ne_true

/-- A level above the highest bar of the window is one above each of them. -/
theorem extent_high_lt_iff {bound : ℤ} (hnarrow : Narrow series.dropLast)
    (hseen : (setup.extent tick series).seen = true) :
    (setup.extent tick series).high < bound ↔
      ∀ bar ∈ series.dropLast, setup.Started tick bar → bar.high < bound := by
  refine high_lt_iff.trans (and_iff_right_of_imp fun hbelow => ?_)
  obtain ⟨bar, hbar, hinside⟩ := exists_started hseen
  exact (hnarrow bar hbar).1.trans_lt (hbelow bar hbar hinside)

/-- A level below the lowest bar of the window is one below each of them. -/
theorem lt_extent_low_iff {bound : ℤ} (hnarrow : Narrow series.dropLast)
    (hseen : (setup.extent tick series).seen = true) :
    bound < (setup.extent tick series).low ↔
      ∀ bar ∈ series.dropLast, setup.Started tick bar → bound < bar.low := by
  refine lt_low_iff.trans (and_iff_right_of_imp fun habove => ?_)
  obtain ⟨bar, hbar, hinside⟩ := exists_started hseen
  have hlow := habove bar hbar hinside
  have hprice := (hnarrow bar hbar).2.2.2
  change bound < priceMax
  unfold priceMax
  omega

theorem extent_high_range (hnarrow : Narrow series.dropLast)
    (hseen : (setup.extent tick series).seen = true) :
    -2 ^ 31 ≤ (setup.extent tick series).high ∧ (setup.extent tick series).high < 2 ^ 31 := by
  constructor
  · rw [← not_lt, Setup.extent, high_lt_iff]
    exact fun h => lt_irrefl priceMin h.1
  · exact (extent_high_lt_iff hnarrow hseen).mpr fun bar hbar _ => (hnarrow bar hbar).2.1

theorem extent_low_range (hnarrow : Narrow series.dropLast)
    (hseen : (setup.extent tick series).seen = true) :
    -2 ^ 31 ≤ (setup.extent tick series).low ∧ (setup.extent tick series).low < 2 ^ 31 := by
  constructor
  · rw [← Int.sub_one_lt_iff, lt_extent_low_iff hnarrow hseen]
    intro bar hbar _
    have hlow := (hnarrow bar hbar).2.2.1
    omega
  · have hlow : ¬ priceMax < (setup.extent tick series).low := by
      rw [Setup.extent, lt_low_iff]
      exact fun h => lt_irrefl priceMax h.1
    unfold priceMax at hlow
    omega

theorem Setup.Accepted.buffer_nonneg (h : setup.Accepted) (tick : PriceData) :
    0 ≤ setup.buffer tick :=
  mul_nonneg h.buffer (SymbolScale.get_nonneg _)

/-- A long break is one of the closed bars if the levels above them do not wrap. -/
theorem above_closed_iff (haccepted : setup.Accepted) (hnarrow : Narrow series.dropLast)
    (hbid : tick.bid < 2 ^ 31) (hseen : (setup.extent tick series).seen = true)
    (h : setup.breakout tick (setup.extent tick series) = some .long) :
    setup.AboveAll tick series.dropLast ↔
      ∀ bar ∈ series.dropLast, setup.Started tick bar → bar.high + setup.buffer tick < 2 ^ 31 := by
  have hbuffer := haccepted.buffer_nonneg tick
  have hrange := extent_high_range hnarrow hseen
  constructor
  · intro habove bar hbar hstarted
    exact (habove bar hbar hstarted).trans hbid
  · intro hfits bar hbar hstarted
    -- the highest bar fits as well, so its level is the one compared
    have hhighest : (setup.extent tick series).high < 2 ^ 31 - setup.buffer tick := by
      refine (extent_high_lt_iff hnarrow hseen).mpr fun other hother hinside => ?_
      have hfit := hfits other hother hinside
      omega
    have hbreak := breakout_long h
    rw [toInt32_of_small (by omega) (by omega)] at hbreak
    have hbelow := (extent_high_lt_iff hnarrow hseen).mp (lt_sub_iff_add_lt.mpr hbreak)
    exact lt_sub_iff_add_lt.mp (hbelow bar hbar hstarted)

/-- A short break is one of the closed bars if the levels below them do not wrap. -/
theorem below_closed_iff (haccepted : setup.Accepted) (hnarrow : Narrow series.dropLast)
    (hask : -2 ^ 31 ≤ tick.ask) (hseen : (setup.extent tick series).seen = true)
    (h : setup.breakout tick (setup.extent tick series) = some .short) :
    setup.BelowAll tick series.dropLast ↔
      ∀ bar ∈ series.dropLast, setup.Started tick bar → -2 ^ 31 ≤ bar.low - setup.buffer tick := by
  have hbuffer := haccepted.buffer_nonneg tick
  have hrange := extent_low_range hnarrow hseen
  constructor
  · intro hbelow bar hbar hstarted
    exact hask.trans (hbelow bar hbar hstarted).le
  · intro hfits bar hbar hstarted
    have hlowest : setup.buffer tick - 2 ^ 31 - 1 < (setup.extent tick series).low := by
      refine (lt_extent_low_iff hnarrow hseen).mpr fun other hother hinside => ?_
      have hfit := hfits other hother hinside
      omega
    have hbreak := breakout_short h
    rw [toInt32_of_small (by omega) (by omega)] at hbreak
    have habove := (lt_extent_low_iff hnarrow hseen).mp (lt_sub_iff_add_lt.mp hbreak)
    exact lt_sub_iff_add_lt.mpr (habove bar hbar hstarted)

/-! ## What the series lost -/

/-- Bars before the front of a series that covers the range did not start in the window. -/
theorem started_dropLast_iff {evicted : List OhlcObject} (haccepted : setup.Accepted)
    (hspaced : Spaced setup.signal.minutes (evicted ++ series)) (hfront : series.head? = some front)
    (hcovered : ¬ setup.Uncovered tick front) {P : OhlcObject → Prop} :
    (∀ bar ∈ (evicted ++ series).dropLast, setup.Started tick bar → P bar) ↔
      ∀ bar ∈ series.dropLast, setup.Started tick bar → P bar := by
  have hseries : series ≠ [] := by
    rintro rfl
    cases hfront
  have hearly (bar : OhlcObject) (hbar : bar ∈ evicted) : ¬ setup.Started tick bar := by
    intro hstarted
    have hdate := (List.pairwise_append.mp hspaced).2.2 bar hbar front (List.mem_of_head? hfront)
    have hduration := BarStore.duration_pos haccepted.minutes
    have hstart := not_lt.mp hcovered
    have hinside := hstarted.1
    omega
  rw [List.dropLast_append_of_ne_nil hseries, List.forall_mem_append]
  exact and_iff_right fun bar hbar hstarted => (hearly bar hbar hstarted).elim

theorem forall_mem_iff_dropLast {α : Type} {P : α → Prop} (l : List α) :
    (∀ a ∈ l, P a) ↔ (∀ a ∈ l.dropLast, P a) ∧ ∀ a ∈ l.getLast?, P a := by
  induction l using List.reverseRecOn with
  | nil => simp
  | append_singleton l a => simp [or_imp, forall_and]

/-! ## What the store has -/

/-- The series found is the end of the unbounded one. -/
theorem Fed.find (h : Fed registrations warmUp ticks tick store)
    (hfind : store.find tick.symbol setup.signal.minutes = some series) :
    ∃ evicted, unbounded setup ticks tick = evicted ++ series := by
  obtain ⟨registered, hregistered, hfeed⟩ := h.run
  obtain ⟨store', hfeed', htime, -⟩ :=
    (BarStore.registered_of_registerAll hregistered).feed h.off (ticks ++ [tick])
  rw [hfeed] at hfeed'
  cases hfeed'
  rw [htime, BarStore.own_concat_self,
    if_neg (List.append_ne_nil_of_right_ne_nil _ (List.cons_ne_nil _ _))] at hfind
  obtain ⟨count, -, rfl⟩ := Option.map_eq_some_iff.mp hfind
  rw [unbounded, BarStore.own_concat_self]
  exact ⟨_, (List.take_append_drop _ _).symm⟩

theorem Fed.narrow (setup : Setup) (h : Fed registrations warmUp ticks tick store) :
    Narrow (unbounded setup ticks tick) :=
  BarStore.bounds_timeBars fun t ht => h.stream.prices t ht t.ask List.mem_cons_self

theorem Fed.tick_mem (_ : Fed registrations warmUp ticks tick store) :
    tick ∈ own tick.symbol (ticks ++ [tick]) := by
  rw [BarStore.own_concat_self]
  exact List.mem_append_right _ List.mem_cons_self

/-- The last bar has taken in the tick. -/
theorem Fed.last (setup : Setup) (_ : Fed registrations warmUp ticks tick store) :
    ∃ last, (unbounded setup ticks tick).getLast? = some last ∧ last.low ≤ tick.ask := by
  obtain ⟨last, hlast, hlow, -⟩ := BarStore.getLast?_timeBars_concat
    setup.signal.minutes (own tick.symbol ticks) tick
  rw [unbounded, BarStore.own_concat_self]
  exact ⟨last, hlast, hlow⟩

/-- No bar starts after the tick. -/
theorem Fed.date_le (setup : Setup) (h : Fed registrations warmUp ticks tick store)
    {bar : OhlcObject} (hbar : bar ∈ unbounded setup ticks tick) : bar.date ≤ tick.timestamp := by
  obtain ⟨t, ht, hdate⟩ := BarStore.date_mem_timeBars bar hbar
  have hordered := h.stream.ordered
  rw [BarStore.own_concat_self] at ht hordered
  rw [hdate]
  obtain ht | ht := List.mem_append.mp ht
  · exact (List.pairwise_append.mp hordered).2.2 t ht tick List.mem_cons_self
  · rw [List.mem_singleton.mp ht]

theorem Fed.covers (haccepted : setup.Accepted)
    (h : Fed registrations warmUp ticks tick store) : setup.Covers tick store := by
  intro series hfind front hfront hlong hwindow
  obtain ⟨evicted, hbars⟩ := h.find hfind
  have hspaced : Spaced setup.signal.minutes (unbounded setup ticks tick) :=
    BarStore.spaced_timeBars haccepted.minutes
  rw [hbars] at hspaced
  obtain ⟨last, hlast⟩ : ∃ last, series.getLast? = some last := by
    rw [← Option.isSome_iff_exists, List.getLast?_isSome]
    rintro rfl
    cases hfront
  have hreaches := Spaced.reaches (List.pairwise_append.mp hspaced).2.1 hfront hlast
  have hdate : last.date ≤ tick.timestamp := by
    apply h.date_le setup
    rw [hbars]
    exact List.mem_append_right _ (List.mem_of_getLast? hlast)
  have hduration := BarStore.duration_pos haccepted.minutes
  have hdepth := mul_le_mul_of_nonneg_right hlong hduration.le
  have hspan := haccepted.window (Setup.day tick)
  have hclose := hwindow.2
  unfold Setup.Uncovered Setup.rangeStart
  unfold Setup.openTime at hclose
  linarith

/-! ## The result -/

/-- A long or a short goes beyond every bar of the window, evicted ones too, exactly when the levels
of the closed bars do not wrap and the bar in progress does not belong to the window, or is under
the bid as well; and a full series always covers the range. -/
theorem beyond_all_iff (hsetup : Constructed config setup)
    (h : Fed registrations warmUp ticks tick store) :
    (setup.decide tick store = some .long →
      (setup.AboveAll tick (unbounded setup ticks tick) ↔
        setup.SoundAbove tick (unbounded setup ticks tick))) ∧
    (setup.decide tick store = some .short →
      (setup.BelowAll tick (unbounded setup ticks tick) ↔
        setup.SoundBelow tick (unbounded setup ticks tick))) ∧
    setup.Covers tick store := by
  have haccepted := hsetup.accepted
  have hspaced : Spaced setup.signal.minutes (unbounded setup ticks tick) :=
    BarStore.spaced_timeBars haccepted.minutes
  have hnarrow := h.narrow setup
  have hprices := h.stream.prices tick h.tick_mem
  refine ⟨fun hlong => ?_, fun hshort => ?_, h.covers haccepted⟩
  · obtain ⟨series, front, hfind, hfront, hcovered, hseen, hbreak⟩ := decide_eq_some hlong
    obtain ⟨evicted, hbars⟩ := h.find hfind
    rw [hbars] at hspaced hnarrow ⊢
    have hclosed := above_closed_iff haccepted
      (fun bar hbar => hnarrow bar (List.mem_append_right _ (List.dropLast_subset _ hbar)))
      (hprices tick.bid (List.mem_cons_of_mem _ List.mem_cons_self)).2 hseen hbreak
    unfold Setup.AboveAll Setup.SoundAbove
    rw [forall_mem_iff_dropLast, started_dropLast_iff haccepted hspaced hfront hcovered,
      started_dropLast_iff haccepted hspaced hfront hcovered]
    exact and_congr_left fun _ => hclosed
  · obtain ⟨series, front, hfind, hfront, hcovered, hseen, hbreak⟩ := decide_eq_some hshort
    obtain ⟨evicted, hbars⟩ := h.find hfind
    obtain ⟨last, hlast, hlow⟩ := h.last setup
    have hbuffer := haccepted.buffer_nonneg tick
    rw [hbars] at hspaced hnarrow hlast ⊢
    have hclosed := below_closed_iff haccepted
      (fun bar hbar => hnarrow bar (List.mem_append_right _ (List.dropLast_subset _ hbar)))
      (hprices tick.ask List.mem_cons_self).1 hseen hbreak
    -- the bar in progress has taken in the ask, which cannot be below it
    have hprogress : ¬ tick.ask < last.low - setup.buffer tick := by omega
    unfold Setup.BelowAll Setup.SoundBelow
    rw [forall_mem_iff_dropLast, started_dropLast_iff haccepted hspaced hfront hcovered,
      started_dropLast_iff haccepted hspaced hfront hcovered, hlast]
    simp only [Option.mem_some_iff, forall_eq', imp_iff_not hprogress]
    exact and_congr_left fun _ => hclosed

/-! ## Two mornings -/

/-- A range of one hour before the New York open, in bars of half an hour. -/
def nyConfig : TradingDefinitions.StrategyConfig where
  uuid := "ny"
  tradingVariables := { strategy := "NyOpenRangeBreakoutStrategy" }
  ohlcVariables := [⟨6, 30⟩]
  rangeVariables := []
  strategyVariables := { nyOpenRangeBreakoutVariables := some ⟨1, 0, 60, 0⟩ }

/-- The Asian session in bars of two hours. -/
def londonConfig : TradingDefinitions.StrategyConfig where
  uuid := "london"
  tradingVariables := { strategy := "SessionRangeBreakoutStrategy" }
  ohlcVariables := [⟨7, 120⟩]
  rangeVariables := []
  strategyVariables := { sessionRangeBreakoutVariables := some ⟨0, 60, 0⟩ }

/-- A quote of the euro at a time of a day. -/
def quote (ask bid year month day hours minutes : ℤ) : PriceData :=
  ⟨ask, bid, CivilDate.daysFromCivil year month day * dayLength + hours * hour + minutes * minute,
    "EURUSD"⟩

/-- On a winter day the New York range ends at half past two, and a bar that started a minute past
two is in progress. On a summer day London opens at seven, and a bar of two hours that started at
half past five is. Both strategies buy below the high of that bar. -/
theorem beyond_all_fails :
    (∃ strategy store, NyOpenRangeBreakoutStrategy.make nyConfig = .ok strategy ∧
      Fed [.series ⟨30, 6⟩] .off [quote 100 99 2026 1 5 13 30, quote 200 199 2026 1 5 14 1]
        (quote 151 150 2026 1 5 14 30) store ∧
      strategy.decide (quote 151 150 2026 1 5 14 30) store = some .long ∧
      ¬ strategy.setup.AboveAll (quote 151 150 2026 1 5 14 30) (unbounded strategy.setup
        [quote 100 99 2026 1 5 13 30, quote 200 199 2026 1 5 14 1]
        (quote 151 150 2026 1 5 14 30))) ∧
    ∃ strategy store, SessionRangeBreakoutStrategy.make londonConfig = .ok strategy ∧
      Fed [.series ⟨120, 7⟩] .off [quote 100 99 2026 7 6 0 0, quote 200 199 2026 7 6 5 30]
        (quote 151 150 2026 7 6 7 10) store ∧
      strategy.decide (quote 151 150 2026 7 6 7 10) store = some .long ∧
      ¬ strategy.setup.AboveAll (quote 151 150 2026 7 6 7 10) (unbounded strategy.setup
        [quote 100 99 2026 7 6 0 0, quote 200 199 2026 7 6 5 30]
        (quote 151 150 2026 7 6 7 10)) := by
  constructor
  · refine ⟨_, _, rfl, ⟨⟨_, rfl, rfl⟩, rfl, by decide, by decide⟩, by decide, ?_⟩
    unfold Setup.AboveAll Setup.Started
    decide
  · refine ⟨_, _, rfl, ⟨⟨_, rfl, rfl⟩, rfl, by decide, by decide⟩, by decide, ?_⟩
    unfold Setup.AboveAll Setup.Started
    decide

/-- Two minutes later the bar of half an hour is closed, and the bid is above it. -/
theorem beyond_all_later : ∃ strategy store,
    NyOpenRangeBreakoutStrategy.make nyConfig = .ok strategy ∧
      strategy.setup.decide (quote 251 250 2026 1 5 14 32) store = some .long ∧
      strategy.setup.AboveAll (quote 251 250 2026 1 5 14 32) (unbounded strategy.setup
        [quote 100 99 2026 1 5 13 30, quote 200 199 2026 1 5 14 1]
        (quote 251 250 2026 1 5 14 32)) := by
  obtain ⟨strategy, store, hmake, hfed, hlong, hsound⟩ : ∃ strategy store,
      NyOpenRangeBreakoutStrategy.make nyConfig = .ok strategy ∧
      Fed [.series ⟨30, 6⟩] .off [quote 100 99 2026 1 5 13 30, quote 200 199 2026 1 5 14 1]
        (quote 251 250 2026 1 5 14 32) store ∧
      strategy.setup.decide (quote 251 250 2026 1 5 14 32) store = some .long ∧
      strategy.setup.SoundAbove (quote 251 250 2026 1 5 14 32) (unbounded strategy.setup
        [quote 100 99 2026 1 5 13 30, quote 200 199 2026 1 5 14 1]
        (quote 251 250 2026 1 5 14 32)) := by
    refine ⟨_, _, rfl, ⟨⟨_, rfl, rfl⟩, rfl, by decide, by decide⟩, by decide, ?_⟩
    unfold Setup.SoundAbove Setup.Started
    decide
  exact ⟨strategy, store, hmake, hlong, ((beyond_all_iff (.ny hmake) hfed).1 hlong).mpr hsound⟩

end OpenRange

end BacktestEngine

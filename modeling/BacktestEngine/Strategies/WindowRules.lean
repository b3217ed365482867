import Mathlib.Tactic.Linarith
import BacktestEngine.Strategies.GapRule
import BacktestEngine.Strategies.TrendFilter

/-! # The rules of the fade and of the breaks

They read the newest closed bars only. A fade is taken beyond a band that is computed without
division: on the rational numbers it is the mean close and a multiple of the mean range. A break is
taken of a contracted bar among the newest ones, or of all the closed bars of a window, in the
direction of the trend.
-/

namespace BacktestEngine

open Endings
open RangeBar (toInt32 toInt32_of_small)

theorem bind_window_eq_some_iff {β : Type} {store : BarStore} {symbol : String} {spec : SeriesSpec}
    {f : List OhlcObject → Option β} {b : β} : (store.window symbol spec).bind f = some b ↔
      ∃ series, store.find symbol spec.minutes = some series ∧ spec.count.toNat ≤ series.length ∧
        f (series.rtake spec.count.toNat) = some b := by
  rw [Option.bind_eq_some_iff]
  constructor
  · rintro ⟨bars, hwindow, hf⟩
    obtain ⟨series, hfind, hlength, rfl⟩ := window_eq_some_iff.mp hwindow
    exact ⟨series, hfind, hlength, hf⟩
  · rintro ⟨series, hfind, hlength, hf⟩
    exact ⟨_, window_eq_some_iff.mpr ⟨series, hfind, hlength, rfl⟩, hf⟩

/-! ## The fade -/

namespace KeltnerFadeStrategy

variable (strategy : KeltnerFadeStrategy)

/-- The store has the bars for a verdict: these are the closed ones. -/
def Warm (store : BarStore) (symbol : String) (closed : List OhlcObject) : Prop :=
  ∃ series, store.find symbol strategy.signalCfg.minutes = some series ∧
    strategy.signalCfg.count.toNat ≤ series.length ∧ series.dropLast = closed

/-- The mean range of the last bars. -/
def meanRange (closed : List OhlcObject) : ℤ := Atr.calculate closed strategy.bandSmaPeriod.toNat

/-- How far the ends of the band are from its middle. -/
def halfWidth (closed : List OhlcObject) : ℚ :=
  strategy.bandAtrMultTenths / 10 * strategy.meanRange closed

variable {strategy} {tick : PriceData} {store : BarStore} {bars : List OhlcObject}

/-- A deeper window has the same band. -/
theorem band_rtake {m : ℕ} (hperiod : 1 ≤ strategy.bandSmaPeriod)
    (hwide : strategy.bandSmaPeriod + 1 ≤ m) (henough : m ≤ bars.length) :
    strategy.closeSum (bars.rtake m) = strategy.closeSum bars ∧
      strategy.meanRange (bars.rtake m) = strategy.meanRange bars := by
  constructor
  · rw [closeSum, closeSum, rtake_rtake (by omega)]
  · rw [meanRange, meanRange, Atr.calculate, Atr.calculate, rtake_rtake (by omega),
      length_rtake henough, if_neg (by omega), if_neg (by omega)]

/-- The scaled comparisons are those with the ends of the band. -/
theorem beyond_iff (hperiod : 1 ≤ strategy.bandSmaPeriod) (price : ℤ) :
    (price * strategy.bandSmaPeriod * 10 < strategy.centre bars - strategy.offset bars ↔
        (price : ℚ) < meanClose bars strategy.bandSmaPeriod - strategy.halfWidth bars) ∧
      (strategy.centre bars + strategy.offset bars < price * strategy.bandSmaPeriod * 10 ↔
        meanClose bars strategy.bandSmaPeriod + strategy.halfWidth bars < price) := by
  have hpos : (0 : ℚ) < strategy.bandSmaPeriod := by exact_mod_cast hperiod
  have hcentre : (strategy.centre bars : ℚ) =
      meanClose bars strategy.bandSmaPeriod * (strategy.bandSmaPeriod * 10) := by
    unfold centre closeSum meanClose
    push_cast
    field_simp
  have hoffset : (strategy.offset bars : ℚ) =
      strategy.halfWidth bars * (strategy.bandSmaPeriod * 10) := by
    unfold offset halfWidth meanRange
    push_cast
    ring
  have hscale : (0 : ℚ) < strategy.bandSmaPeriod * 10 := by positivity
  constructor
  · rw [← Int.cast_lt (R := ℚ)]
    push_cast
    rw [hcentre, hoffset, ← sub_mul, mul_assoc, mul_lt_mul_iff_left₀ hscale]
  · rw [← Int.cast_lt (R := ℚ)]
    push_cast
    rw [hcentre, hoffset, ← add_mul, mul_assoc, mul_lt_mul_iff_left₀ hscale]

/-- The verdict on a window, by the band of the closed bars that the store has. -/
theorem fade_rtake {n : ℕ} (hperiod : 1 ≤ strategy.bandSmaPeriod)
    (hmult : 1 ≤ strategy.bandAtrMultTenths) (hwide : strategy.bandSmaPeriod + 2 ≤ n)
    (henough : n ≤ bars.length) (hcomputes : strategy.Computes tick (bars.rtake n).dropLast)
    (hquote : tick.bid ≤ tick.ask) :
    (strategy.fade tick (bars.rtake n).dropLast = some .long ↔
        0 < strategy.meanRange bars.dropLast ∧ (tick.ask : ℚ) <
          meanClose bars.dropLast strategy.bandSmaPeriod - strategy.halfWidth bars.dropLast) ∧
      (strategy.fade tick (bars.rtake n).dropLast = some .short ↔
        0 < strategy.meanRange bars.dropLast ∧
          meanClose bars.dropLast strategy.bandSmaPeriod + strategy.halfWidth bars.dropLast <
            tick.bid) := by
  obtain ⟨m, rfl⟩ : ∃ m, n = m + 1 := ⟨n - 1, by omega⟩
  have henoughClosed : m ≤ bars.dropLast.length := by
    rw [List.length_dropLast]
    omega
  obtain ⟨hsum, hrange⟩ := band_rtake hperiod (by omega) henoughClosed
  have hcentre : strategy.centre (bars.dropLast.rtake m) = strategy.centre bars.dropLast := by
    rw [centre, centre, hsum]
  have hoffset : strategy.offset (bars.dropLast.rtake m) = strategy.offset bars.dropLast :=
    congrArg (strategy.bandAtrMultTenths * · * strategy.bandSmaPeriod) hrange
  rw [dropLast_rtake] at hcomputes ⊢
  have hbelow := below_iff hcomputes
  have habove := above_iff hcomputes
  rw [hcentre, hoffset, (beyond_iff hperiod _).1] at hbelow
  rw [hcentre, hoffset, (beyond_iff hperiod _).2] at habove
  have hrange' : Atr.calculate (bars.dropLast.rtake m) strategy.bandSmaPeriod.toNat =
      strategy.meanRange bars.dropLast := hrange
  rw [hrange'] at hbelow habove
  have hapart : ¬ (strategy.Below tick (bars.dropLast.rtake m) ∧
      strategy.Above tick (bars.dropLast.rtake m)) := by
    rw [hbelow, habove]
    rintro ⟨⟨hpositive, hask⟩, -, hbid⟩
    have hwidth : 0 ≤ strategy.halfWidth bars.dropLast := by
      unfold halfWidth
      have hmult' : (0 : ℚ) ≤ strategy.bandAtrMultTenths := by exact_mod_cast (by omega)
      have hpositive' : (0 : ℚ) ≤ strategy.meanRange bars.dropLast := by exact_mod_cast hpositive.le
      positivity
    have hquote' : (tick.bid : ℚ) ≤ tick.ask := by exact_mod_cast hquote
    linarith
  rw [fade_eq, ← hbelow, ← habove]
  unfold longFirst
  constructor
  · split_ifs <;> simp_all
  · split_ifs <;> simp_all

end KeltnerFadeStrategy

/-! ## The contracted bar -/

namespace SqueezeBreakoutStrategy

variable (strategy : SqueezeBreakoutStrategy)

/-- The store has the bars for a verdict: the closed ones of the signal, and the window of the
trend. -/
def Warm (store : BarStore) (symbol : String) (closed trendBars : List OhlcObject) : Prop :=
  ∃ series trendSeries, store.find symbol strategy.signalCfg.minutes = some series ∧
    store.find symbol strategy.trendCfg.minutes = some trendSeries ∧
      strategy.signalCfg.count.toNat ≤ series.length ∧
        strategy.trendCfg.count.toNat ≤ trendSeries.length ∧ series.dropLast = closed ∧
          trendSeries.rtake strategy.trendCfg.count.toNat = trendBars

/-- An inside bar, or one that is narrower than each of the bars before it that count. -/
def Contracted (earlier : List OhlcObject) (bar : OhlcObject) : Prop :=
  if strategy.nrLookback = 0 then
    ∃ mother ∈ earlier.getLast?, bar.high ≤ mother.high ∧ mother.low ≤ bar.low
  else
    ∀ other ∈ earlier.rtake (strategy.nrLookback.toNat - 1), bar.high - bar.low <
      other.high - other.low

/-- A contracted bar among the newest ones that the bid is above by more than the buffer. -/
def LongSetup (tick : PriceData) (closed : List OhlcObject) : Prop :=
  ∃ earlier bar later, earlier ++ bar :: later = closed ∧ later.length < strategy.validBars ∧
    strategy.Contracted earlier bar ∧ bar.high + strategy.buffer tick < tick.bid

def ShortSetup (tick : PriceData) (closed : List OhlcObject) : Prop :=
  ∃ earlier bar later, earlier ++ bar :: later = closed ∧ later.length < strategy.validBars ∧
    strategy.Contracted earlier bar ∧ tick.ask < bar.low - strategy.buffer tick

/-- The ranges of the bars are 32-bit numbers. -/
def Narrow (bars : List OhlcObject) : Prop :=
  ∀ bar ∈ bars, -2 ^ 31 ≤ bar.high - bar.low ∧ bar.high - bar.low < 2 ^ 31

variable {strategy} {tick : PriceData} {store : BarStore} {bars earlier later : List OhlcObject}
  {bar : OhlcObject} {up down : Bool}

theorem mem_rtake_iff {other : OhlcObject} {k : ℕ} (h : k ≤ earlier.length) :
    other ∈ earlier.rtake k ↔
      ∃ back ∈ List.range' 1 k, barAt earlier (earlier.length - back) = other := by
  simp only [List.rtake, List.mem_drop_iff_getElem, List.mem_range'_1]
  constructor
  · rintro ⟨j, hj, rfl⟩
    refine ⟨k - j, by omega, ?_⟩
    rw [barAt_eq (by omega)]
    congr 1
    omega
  · rintro ⟨back, hback, rfl⟩
    refine ⟨k - back, by omega, ?_⟩
    rw [barAt_eq (by omega)]
    congr 1
    omega

theorem barAt_length : barAt (earlier ++ bar :: later) earlier.length = bar := by
  rw [barAt_eq (by simp)]
  simp

theorem barAt_earlier {back : ℕ} (hback : 1 ≤ back) (hle : back ≤ earlier.length) :
    barAt (earlier ++ bar :: later) (earlier.length - back) =
      barAt earlier (earlier.length - back) :=
  barAt_append (by omega)

theorem isPatternAt_iff (hnarrow : Narrow (earlier ++ bar :: later)) (hfirst : 1 ≤ earlier.length)
    (hlookback : strategy.nrLookback.toNat - 1 ≤ earlier.length) :
    strategy.isPatternAt (earlier ++ bar :: later) earlier.length = true ↔
      strategy.Contracted earlier bar := by
  unfold isPatternAt Contracted
  split
  · rw [barAt_length, barAt_earlier le_rfl hfirst, List.getLast?_eq_getElem?,
      List.getElem?_eq_getElem (by omega), barAt_eq (by omega)]
    simp
  · have hrange (other : OhlcObject) (hmem : other ∈ earlier ++ bar :: later) :
        toInt32 (other.high - other.low) = other.high - other.low :=
      toInt32_of_small (hnarrow other hmem).1 (hnarrow other hmem).2
    rw [barAt_length, hrange bar (by simp)]
    simp only [List.all_eq_true, decide_eq_true_eq, mem_rtake_iff hlookback]
    constructor
    · rintro h _ ⟨back, hback, rfl⟩
      have hsmaller := h back hback
      rw [List.mem_range'_1] at hback
      have hmem := barAt_mem (by omega : earlier.length - back < earlier.length)
      rwa [barAt_earlier hback.1 (by omega), hrange _ (List.mem_append_left _ hmem)] at hsmaller
    · intro h back hback
      have hsmaller := h _ ⟨back, hback, rfl⟩
      rw [List.mem_range'_1] at hback
      have hmem := barAt_mem (by omega : earlier.length - back < earlier.length)
      rwa [barAt_earlier hback.1 (by omega), hrange _ (List.mem_append_left _ hmem)]

/-- A list around the element so many places from its end. -/
theorem exists_back_iff {n : ℕ} (hn : n ≤ bars.length)
    {P : List OhlcObject → OhlcObject → Prop} {Q : ℕ → Prop}
    (hQ : ∀ earlier bar later, earlier ++ bar :: later = bars → later.length < n →
      (Q earlier.length ↔ P earlier bar)) :
    (∃ back ∈ List.range n, Q (bars.length - 1 - back)) ↔
      ∃ earlier bar later, earlier ++ bar :: later = bars ∧ later.length < n ∧ P earlier bar := by
  constructor
  · rintro ⟨back, hback, hq⟩
    rw [List.mem_range] at hback
    have hi : bars.length - 1 - back < bars.length := by omega
    have hsplit : bars.take (bars.length - 1 - back) ++ bars[bars.length - 1 - back] ::
        bars.drop (bars.length - 1 - back + 1) = bars := by
      rw [List.getElem_cons_drop, List.take_append_drop]
    have hlater : (bars.drop (bars.length - 1 - back + 1)).length < n := by
      rw [List.length_drop]
      omega
    refine ⟨_, _, _, hsplit, hlater, (hQ _ _ _ hsplit hlater).mp ?_⟩
    rwa [List.length_take, Nat.min_eq_left hi.le]
  · rintro ⟨earlier, bar, later, rfl, hlater, hp⟩
    refine ⟨later.length, List.mem_range.mpr hlater, ?_⟩
    have hindex : (earlier ++ bar :: later).length - 1 - later.length = earlier.length := by
      simp only [List.length_append, List.length_cons]
      omega
    rw [hindex]
    exact (hQ _ _ _ rfl hlater).mpr hp

/-- The bars before those that count do not. -/
theorem contracted_append (before : List OhlcObject) (hfirst : 1 ≤ earlier.length)
    (hlookback : strategy.nrLookback.toNat - 1 ≤ earlier.length) :
    strategy.Contracted (before ++ earlier) bar ↔ strategy.Contracted earlier bar := by
  unfold Contracted
  have hrtake : (before ++ earlier).rtake (strategy.nrLookback.toNat - 1) =
      earlier.rtake (strategy.nrLookback.toNat - 1) := by
    rw [List.rtake, List.rtake, List.length_append,
      Nat.add_sub_assoc hlookback, List.drop_length_add_append]
  rw [List.getLast?_append_of_ne_nil _ (List.ne_nil_of_length_pos hfirst), hrtake]

/-- The bars that a strategy looks at, and those that each of them is compared with. -/
def Wide (strategy : SqueezeBreakoutStrategy) (n : ℕ) : Prop :=
  strategy.validBars + max 1 (strategy.nrLookback - 1) ≤ n

theorem Wide.enough {n : ℕ} (h : strategy.Wide n) (hlater : later.length < strategy.validBars)
    (hlength : earlier.length + 1 + later.length = n) :
    1 ≤ earlier.length ∧ strategy.nrLookback.toNat - 1 ≤ earlier.length := by
  unfold Wide at h
  omega

theorem length_around (hsplit : earlier ++ bar :: later = bars) :
    earlier.length + 1 + later.length = bars.length := by
  rw [← hsplit, List.length_append, List.length_cons]
  omega

theorem patternScan_iff (hvalid : 1 ≤ strategy.validBars) (hwide : strategy.Wide bars.length)
    (hnarrow : Narrow bars) (hcomputes : strategy.Computes tick bars) (htrend : ¬ (up ∧ down)) :
    (strategy.patternScan up down tick bars = some .long ↔
        up = true ∧ strategy.LongSetup tick bars) ∧
      (strategy.patternScan up down tick bars = some .short ↔
        down = true ∧ strategy.ShortSetup tick bars) := by
  have hscan : strategy.patternScan up down tick bars =
      (List.range strategy.validBars.toNat).findSome? fun back =>
        longFirst
          (strategy.isPatternAt bars (bars.length - 1 - back) ∧ up ∧
            toInt32 ((barAt bars (bars.length - 1 - back)).high + strategy.buffer tick) < tick.bid)
          (strategy.isPatternAt bars (bars.length - 1 - back) ∧ down ∧
            tick.ask <
              toInt32 ((barAt bars (bars.length - 1 - back)).low - strategy.buffer tick)) := by
    unfold patternScan
    simp only [signalAt_eq]
  have hplace (earlier : List OhlcObject) (bar : OhlcObject) (later : List OhlcObject)
      (hsplit : earlier ++ bar :: later = bars) (hlater : later.length < strategy.validBars.toNat) :
      (strategy.isPatternAt bars earlier.length = true ↔ strategy.Contracted earlier bar) ∧
        toInt32 ((barAt bars earlier.length).high + strategy.buffer tick) =
          bar.high + strategy.buffer tick ∧
        toInt32 ((barAt bars earlier.length).low - strategy.buffer tick) =
          bar.low - strategy.buffer tick := by
    obtain ⟨hfirst, hlookback⟩ := hwide.enough (by omega) (length_around hsplit)
    have hlevels := hcomputes bar (by rw [← hsplit]; simp)
    simp only [List.forall_mem_cons] at hlevels
    obtain ⟨hhigh, hlow, -⟩ := hlevels
    subst hsplit
    rw [barAt_length, toInt32_of_small hhigh.1 hhigh.2, toInt32_of_small hlow.1 hlow.2]
    exact ⟨isPatternAt_iff hnarrow hfirst hlookback, rfl, rfl⟩
  have henough : strategy.validBars.toNat ≤ bars.length := by
    unfold Wide at hwide
    omega
  obtain ⟨hlong, hshort⟩ := findSome?_longFirst
    (fun back => strategy.isPatternAt bars (bars.length - 1 - back) ∧ up ∧
      toInt32 ((barAt bars (bars.length - 1 - back)).high + strategy.buffer tick) < tick.bid)
    (fun back => strategy.isPatternAt bars (bars.length - 1 - back) ∧ down ∧
      tick.ask < toInt32 ((barAt bars (bars.length - 1 - back)).low - strategy.buffer tick))
    (List.range strategy.validBars.toNat) fun _ _ _ _ hl hs => htrend ⟨hl.2.1, hs.2.1⟩
  rw [hscan, hlong, hshort]
  constructor
  · rw [exists_back_iff henough
      (P := fun earlier bar => up = true ∧ strategy.Contracted earlier bar ∧
        bar.high + strategy.buffer tick < tick.bid)
      (Q := fun i => strategy.isPatternAt bars i ∧ up ∧
        toInt32 ((barAt bars i).high + strategy.buffer tick) < tick.bid)]
    · constructor
      · rintro ⟨earlier, bar, later, hsplit, hlater, hup, hrest⟩
        exact ⟨hup, earlier, bar, later, hsplit, Int.lt_toNat.mp hlater, hrest⟩
      · rintro ⟨hup, earlier, bar, later, hsplit, hlater, hrest⟩
        exact ⟨earlier, bar, later, hsplit, Int.lt_toNat.mpr hlater, hup, hrest⟩
    · intro earlier bar later hsplit hlater
      obtain ⟨hpattern, hhigh, -⟩ := hplace earlier bar later hsplit hlater
      rw [hpattern, hhigh, and_left_comm]
  · rw [exists_back_iff henough
      (P := fun earlier bar => down = true ∧ strategy.Contracted earlier bar ∧
        tick.ask < bar.low - strategy.buffer tick)
      (Q := fun i => strategy.isPatternAt bars i ∧ down ∧
        tick.ask < toInt32 ((barAt bars i).low - strategy.buffer tick))]
    · constructor
      · rintro ⟨earlier, bar, later, hsplit, hlater, hdown, hrest⟩
        exact ⟨hdown, earlier, bar, later, hsplit, Int.lt_toNat.mp hlater, hrest⟩
      · rintro ⟨hdown, earlier, bar, later, hsplit, hlater, hrest⟩
        exact ⟨earlier, bar, later, hsplit, Int.lt_toNat.mpr hlater, hdown, hrest⟩
    · intro earlier bar later hsplit hlater
      obtain ⟨hpattern, -, hlow⟩ := hplace earlier bar later hsplit hlater
      rw [hpattern, hlow, and_left_comm]

/-- The setups of a list are those of its last bars. -/
theorem exists_rtake_iff {m : ℕ} (hwide : strategy.Wide m) (henough : m ≤ bars.length)
    {P : OhlcObject → Prop} :
    (∃ earlier bar later, earlier ++ bar :: later = bars.rtake m ∧
        later.length < strategy.validBars ∧ strategy.Contracted earlier bar ∧ P bar) ↔
      ∃ earlier bar later, earlier ++ bar :: later = bars ∧
        later.length < strategy.validBars ∧ strategy.Contracted earlier bar ∧ P bar := by
  constructor
  · rintro ⟨earlier, bar, later, hsplit, hlater, hcontracted, hp⟩
    obtain ⟨hfirst, hlookback⟩ := hwide.enough hlater
      ((length_around hsplit).trans (length_rtake henough))
    refine ⟨bars.take (bars.length - m) ++ earlier, bar, later, ?_, hlater,
      (contracted_append _ hfirst hlookback).mpr hcontracted, hp⟩
    rw [List.append_assoc, hsplit]
    exact List.take_append_drop _ _
  · rintro ⟨earlier, bar, later, rfl, hlater, hcontracted, hp⟩
    have hlength : earlier.length + 1 + later.length = (earlier ++ bar :: later).length :=
      length_around rfl
    have hreach : later.length < m := by
      unfold Wide at hwide
      omega
    have hdrop : (earlier ++ bar :: later).length - m ≤ earlier.length := by omega
    have hkept : (earlier.drop ((earlier ++ bar :: later).length - m)).length + 1 + later.length =
        m := by
      rw [List.length_drop]
      omega
    obtain ⟨hfirst, hlookback⟩ := hwide.enough hlater hkept
    refine ⟨_, bar, later, (List.drop_append_of_le_length hdrop).symm, hlater, ?_, hp⟩
    apply (contracted_append (earlier.take ((earlier ++ bar :: later).length - m)) hfirst
      hlookback).mp
    rwa [List.take_append_drop]

/-- The last close and the average of the trend. -/
def trendOf (trendBars : List OhlcObject) : ℤ × ℤ :=
  (lastClose trendBars, Ema.roundToPoints
    (Ema.stateQ (trendBars.map OhlcObject.close) (trendBars.length / 2)))

theorem decide_warm (haccepted : strategy.Accepted) {series trendSeries : List OhlcObject}
    (hfind : store.find tick.symbol strategy.signalCfg.minutes = some series)
    (hfindTrend : store.find tick.symbol strategy.trendCfg.minutes = some trendSeries)
    (hlength : strategy.signalCfg.count.toNat ≤ series.length)
    (hlengthTrend : strategy.trendCfg.count.toNat ≤ trendSeries.length)
    (hnarrow : Narrow series) (hcomputes : strategy.Computes tick series) :
    (strategy.decide tick store = .ok (some .long) ↔
        (trendOf (trendSeries.rtake strategy.trendCfg.count.toNat)).2 <
            (trendOf (trendSeries.rtake strategy.trendCfg.count.toNat)).1 ∧
          strategy.LongSetup tick series.dropLast) ∧
      (strategy.decide tick store = .ok (some .short) ↔
        (trendOf (trendSeries.rtake strategy.trendCfg.count.toNat)).1 <
            (trendOf (trendSeries.rtake strategy.trendCfg.count.toNat)).2 ∧
          strategy.ShortSetup tick series.dropLast) := by
  obtain ⟨hlookback, hvalid, htrend, hwide⟩ := haccepted
  obtain ⟨m, hm⟩ : ∃ m, strategy.signalCfg.count.toNat = m + 1 :=
    ⟨strategy.signalCfg.count.toNat - 1, by omega⟩
  have hread : TrendFilter.read
      ((trendSeries.rtake strategy.trendCfg.count.toNat).map OhlcObject.close) =
        .ok (trendOf (trendSeries.rtake strategy.trendCfg.count.toNat)) := by
    rw [TrendFilter.read_eq (by rw [List.length_map, length_rtake hlengthTrend]; omega),
      List.length_map]
    rfl
  have hcount : (series.rtake strategy.signalCfg.count.toNat).dropLast =
      series.dropLast.rtake m := by
    rw [hm, dropLast_rtake]
  have henough : m ≤ series.dropLast.length := by
    rw [List.length_dropLast]
    omega
  have hreach : strategy.Wide m := by
    unfold Wide
    omega
  have hmem (bar : OhlcObject) (hbar : bar ∈ series.dropLast.rtake m) : bar ∈ series :=
    List.dropLast_subset _ (List.mem_of_mem_drop hbar)
  generalize htrendOf : trendOf (trendSeries.rtake strategy.trendCfg.count.toNat) = verdict at *
  have hapart : ¬ (Decidable.decide (verdict.2 < verdict.1) ∧
      Decidable.decide (verdict.1 < verdict.2)) := by
    simp only [decide_eq_true_eq]
    omega
  obtain ⟨hlong, hshort⟩ := patternScan_iff hvalid (by rwa [length_rtake henough])
    (fun bar hbar => hnarrow bar (hmem bar hbar)) (fun bar hbar => hcomputes bar (hmem bar hbar))
    hapart
  have hdecide : strategy.decide tick store =
      if !Decidable.decide (verdict.2 < verdict.1) && !Decidable.decide (verdict.1 < verdict.2) then
        .ok none
      else .ok (strategy.patternScan (verdict.2 < verdict.1) (verdict.1 < verdict.2) tick
        (series.dropLast.rtake m)) := by
    unfold decide
    simp only [hfind, hfindTrend]
    rw [if_neg (by omega), hread, hcount]
    rfl
  rw [hdecide]
  constructor
  · split_ifs with hlevel
    · simp_all
    · rw [Except.ok.injEq, hlong, decide_eq_true_eq]
      exact and_congr_right fun _ => exists_rtake_iff hreach henough
  · split_ifs with hlevel
    · simp_all
    · rw [Except.ok.injEq, hshort, decide_eq_true_eq]
      exact and_congr_right fun _ => exists_rtake_iff hreach henough

end SqueezeBreakoutStrategy

/-! ## The break of a range -/

namespace OhlcBreakoutStrategy

variable (strategy : OhlcBreakoutStrategy)

/-- The store has the bars for a verdict: the closed ones of the breakout window, and the window of
the trend. -/
def Warm (store : BarStore) (symbol : String) (closed trendBars : List OhlcObject) : Prop :=
  ∃ series trendSeries, store.find symbol strategy.breakoutCfg.minutes = some series ∧
    store.find symbol strategy.trendCfg.minutes = some trendSeries ∧
      strategy.breakoutCfg.count.toNat ≤ series.length ∧
        strategy.trendCfg.count.toNat ≤ trendSeries.length ∧
          (series.rtake strategy.breakoutCfg.count.toNat).dropLast = closed ∧
            trendSeries.rtake strategy.trendCfg.count.toNat = trendBars

def buffer (tick : PriceData) : ℤ := toInt32 (strategy.bufferPips * SymbolScale.get tick.symbol)

/-- Prices are 32-bit numbers, and so are the levels beside every bar. -/
def Computes (tick : PriceData) (bars : List OhlcObject) : Prop :=
  ∀ bar ∈ bars, ∀ level ∈
      [bar.high, bar.low, bar.high + strategy.buffer tick, bar.low - strategy.buffer tick],
    -2 ^ 31 ≤ level ∧ level < 2 ^ 31

/-- The price is beyond every closed bar by more than the buffer, and the trend goes there. -/
def Breaks (tick : PriceData) (closed : List OhlcObject) (trend : ℤ × ℤ) : Direction → Prop
  | .long => (∀ bar ∈ closed, bar.high + strategy.buffer tick < tick.bid) ∧ trend.2 < trend.1
  | .short => (∀ bar ∈ closed, tick.ask < bar.low - strategy.buffer tick) ∧ trend.1 < trend.2

variable {strategy} {tick : PriceData} {store : BarStore} {bars : List OhlcObject}

theorem foldl_max_lt {init x : ℤ} :
    bars.foldl (fun high bar => max high bar.high) init < x ↔
      init < x ∧ ∀ bar ∈ bars, bar.high < x := by
  induction bars generalizing init with
  | nil => simp
  | cons bar bars ih => simp [ih, and_assoc]

theorem lt_foldl_min {init x : ℤ} :
    x < bars.foldl (fun low bar => min low bar.low) init ↔
      x < init ∧ ∀ bar ∈ bars, x < bar.low := by
  induction bars generalizing init with
  | nil => simp
  | cons bar bars ih => simp [ih, and_assoc]

/-- The level above the range is passed when the level above each bar is. -/
theorem above_iff (hne : bars ≠ []) (hcomputes : strategy.Computes tick bars) {price : ℤ} :
    toInt32 (highestHigh bars + strategy.buffer tick) < price ↔
      ∀ bar ∈ bars, bar.high + strategy.buffer tick < price := by
  obtain ⟨first, hfirst⟩ := List.exists_mem_of_ne_nil _ hne
  have hlevels := hcomputes first hfirst
  simp only [List.forall_mem_cons] at hlevels
  obtain ⟨hhigh, -, hlevel, -⟩ := hlevels
  have hlow : ¬ highestHigh bars < first.high := fun h =>
    lt_irrefl _ ((foldl_max_lt.mp h).2 first hfirst)
  have hlt : highestHigh bars < 2 ^ 31 - strategy.buffer tick := by
    refine foldl_max_lt.mpr ⟨by omega, fun bar hbar => ?_⟩
    have h := (hcomputes bar hbar _ (by simp : bar.high + strategy.buffer tick ∈ _)).2
    omega
  rw [toInt32_of_small (by omega) (by omega), ← Int.lt_sub_right_iff_add_lt, highestHigh,
    foldl_max_lt]
  simp only [Int.lt_sub_right_iff_add_lt]
  constructor
  · exact fun h => h.2
  · intro h
    have habove := h first hfirst
    exact ⟨by omega, h⟩

theorem below_iff (hne : bars ≠ []) (hcomputes : strategy.Computes tick bars) {price : ℤ} :
    price < toInt32 (lowestLow bars - strategy.buffer tick) ↔
      ∀ bar ∈ bars, price < bar.low - strategy.buffer tick := by
  obtain ⟨first, hfirst⟩ := List.exists_mem_of_ne_nil _ hne
  have hlevels := hcomputes first hfirst
  simp only [List.forall_mem_cons] at hlevels
  obtain ⟨-, hlow, -, hlevel, -⟩ := hlevels
  have hhigh : ¬ first.low < lowestLow bars := fun h =>
    lt_irrefl _ ((lt_foldl_min.mp h).2 first hfirst)
  have hlt : -2 ^ 31 + strategy.buffer tick - 1 < lowestLow bars := by
    refine lt_foldl_min.mpr ⟨by omega, fun bar hbar => ?_⟩
    have h := (hcomputes bar hbar _ (by simp : bar.low - strategy.buffer tick ∈ _)).1
    omega
  rw [toInt32_of_small (by omega) (by omega), Int.lt_sub_right_iff_add_lt, lowestLow,
    lt_foldl_min]
  simp only [Int.lt_sub_right_iff_add_lt]
  constructor
  · exact fun h => h.2
  · intro h
    have hbelow := h first hfirst
    exact ⟨by omega, h⟩

theorem make_accepted {config : TradingDefinitions.StrategyConfig}
    (h : make config = .ok strategy) :
    2 ≤ strategy.breakoutCfg.count ∧ 2 ≤ strategy.trendCfg.count := by
  unfold make at h
  split at h
  · split_ifs at h with hcounts
    split at h
    · cases h
    · cases h
      dsimp only
      omega
  · cases h

/-- With both windows there, what is decided is read off the bars. -/
theorem decide_warm (hbreakout : 2 ≤ strategy.breakoutCfg.count)
    (htrend : 2 ≤ strategy.trendCfg.count) {series trendSeries : List OhlcObject}
    (hfind : store.find tick.symbol strategy.breakoutCfg.minutes = some series)
    (hfindTrend : store.find tick.symbol strategy.trendCfg.minutes = some trendSeries)
    (hlength : strategy.breakoutCfg.count.toNat ≤ series.length)
    (hlengthTrend : strategy.trendCfg.count.toNat ≤ trendSeries.length)
    (hcomputes : strategy.Computes tick series) (direction : Direction) :
    strategy.decide tick store = .ok (some direction) ↔
      strategy.Breaks tick (series.rtake strategy.breakoutCfg.count.toNat).dropLast
        (SqueezeBreakoutStrategy.trendOf (trendSeries.rtake strategy.trendCfg.count.toNat))
        direction := by
  have hread : TrendFilter.read
      ((trendSeries.rtake strategy.trendCfg.count.toNat).map OhlcObject.close) =
        .ok (SqueezeBreakoutStrategy.trendOf
          (trendSeries.rtake strategy.trendCfg.count.toNat)) := by
    rw [TrendFilter.read_eq (by rw [List.length_map, length_rtake hlengthTrend]; omega),
      List.length_map]
    rfl
  have hne : (series.rtake strategy.breakoutCfg.count.toNat).dropLast ≠ [] := by
    apply List.ne_nil_of_length_pos
    rw [List.length_dropLast, length_rtake hlength]
    omega
  have hclosed : strategy.Computes tick
      (series.rtake strategy.breakoutCfg.count.toNat).dropLast := fun bar hbar =>
    hcomputes bar (List.mem_of_mem_drop (List.dropLast_subset _ hbar))
  generalize SqueezeBreakoutStrategy.trendOf _ = verdict at *
  have hdecide : strategy.decide tick store =
      if toInt32 (highestHigh (series.rtake strategy.breakoutCfg.count.toNat).dropLast +
          strategy.buffer tick) < tick.bid ∧ verdict.2 < verdict.1 then .ok (some .long)
      else if tick.ask < toInt32 (lowestLow
          (series.rtake strategy.breakoutCfg.count.toNat).dropLast - strategy.buffer tick) ∧
          verdict.1 < verdict.2 then .ok (some .short)
      else .ok none := by
    unfold decide
    simp only [hfind, hfindTrend]
    rw [if_neg (by omega), hread]
    rfl
  rw [hdecide]
  simp only [above_iff hne hclosed, below_iff hne hclosed]
  cases direction with
  | long =>
    rw [Breaks]
    split_ifs with hlong hshort
    · exact iff_of_true rfl hlong
    · exact iff_of_false (fun h => (by cases h)) hlong
    · exact iff_of_false (fun h => (by cases h)) hlong
  | short =>
    rw [Breaks]
    split_ifs with hlong hshort
    · exact iff_of_false (fun h => (by cases h)) fun hshort => lt_asymm hlong.2 hshort.2
    · exact iff_of_true rfl hshort
    · exact iff_of_false (fun h => (by cases h)) hshort

/-- A strategy that the constructor accepts goes with the trend when the price has left every closed
bar of its window, the buffer included, however deep the store is. -/
theorem decide_iff_clear {config : TradingDefinitions.StrategyConfig}
    (hmake : make config = .ok strategy)
    (hprices : ∀ series, store.find tick.symbol strategy.breakoutCfg.minutes = some series →
      strategy.Computes tick series) (direction : Direction) :
    strategy.decide tick store = .ok (some direction) ↔ ∃ closed trendBars,
      strategy.Warm store tick.symbol closed trendBars ∧
        strategy.Breaks tick closed (SqueezeBreakoutStrategy.trendOf trendBars) direction := by
  obtain ⟨hbreakout, htrend⟩ := make_accepted hmake
  constructor
  · intro h
    have hwarm := h
    unfold decide at hwarm
    split at hwarm
    · rename_i series trendSeries hfind hfindTrend
      dsimp only at hwarm
      split at hwarm
      · cases hwarm
      · rename_i henough
        rw [not_or, not_lt, not_lt] at henough
        exact ⟨_, _, ⟨series, trendSeries, hfind, hfindTrend, henough.1, henough.2, rfl, rfl⟩,
          (decide_warm hbreakout htrend hfind hfindTrend henough.1 henough.2 (hprices _ hfind)
            direction).mp h⟩
    · cases hwarm
  · rintro ⟨_, _, ⟨series, trendSeries, hfind, hfindTrend, hlength, hlengthTrend, rfl, rfl⟩, h⟩
    exact (decide_warm hbreakout htrend hfind hfindTrend hlength hlengthTrend (hprices _ hfind)
      direction).mpr h

end OhlcBreakoutStrategy

/-! ## Samples -/

section Sample

def bandFade : KeltnerFadeStrategy := ⟨⟨480, 4⟩, 1, 1, 0⟩

def breakSqueeze : SqueezeBreakoutStrategy := ⟨⟨480, 4⟩, ⟨480, 4⟩, 2, 1, 0, 0⟩

/-- Two wide bars, a narrow one, and a rise out of it. -/
def breakStore : BarStore where
  specs := [⟨480, 4⟩]
  bySymbol := (∅ : AList fun _ : String => List (List OhlcObject)).insert "EURUSD"
    [narrowing ++ [⟨3, 100, 130, 130, 100, false⟩]]
  rangeSpecs := []
  rangeBySymbol := ∅

def breakConfig : TradingDefinitions.StrategyConfig :=
  { mirrorConfig with strategyVariables.ohlcBreakoutVariables := some ⟨1, 0⟩ }

def breakOhlc : OhlcBreakoutStrategy := ⟨⟨480, 4⟩, ⟨480, 4⟩, 1, 0⟩

theorem decide_iff_clear_rise :
    breakOhlc.decide (openTick 130 125) breakStore = .ok (some .long) ∧
      ∀ direction, breakOhlc.decide (openTick 130 125) breakStore = .ok (some direction) ↔
        ∃ closed trendBars, breakOhlc.Warm breakStore "EURUSD" closed trendBars ∧
          breakOhlc.Breaks (openTick 130 125) closed
            (SqueezeBreakoutStrategy.trendOf trendBars) direction := by
  refine ⟨by decide, ?_⟩
  apply @OhlcBreakoutStrategy.decide_iff_clear breakOhlc (openTick 130 125) breakStore
    breakConfig rfl
  rintro series ⟨⟩
  unfold OhlcBreakoutStrategy.Computes
  decide

end Sample

end BacktestEngine

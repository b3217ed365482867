import BacktestEngine.Strategies.CheckedIndicators
import BacktestEngine.Strategies.FairValueGap
import BacktestEngine.Strategies.KeltnerFade
import BacktestEngine.Strategies.SweptScan
import BacktestEngine.Strategies.TrendBreakouts
import BacktestEngine.Strategies.VelocityRule

/-! # Windows with checked access

Five strategies once more, with every read of their windows checked. What the constructors ask
of the windows keeps all the reads legal, whatever the store holds.
-/

namespace BacktestEngine

open Checked (Fault read readAt back sub require)
open RangeBar (toInt32 toInt32_of_small)

theorem length_rtake {α : Type} {xs : List α} {n : ℕ} (h : n ≤ xs.length) :
    (xs.rtake n).length = n := by
  rw [List.rtake, List.length_drop]
  omega

/-! ## The gap -/

namespace FvgStrategy

variable (strategy : FvgStrategy)

def checkedTrend (htfBars : List OhlcObject) : Except Fault (ℤ × ℤ) := do
  let htfStartIdx : ℤ := htfBars.length - 2
  let htfCloseSum ← (List.range strategy.htfSmaPeriod.toNat).foldlM (fun sum (back : ℕ) => do
    return sum + (← readAt htfBars (htfStartIdx - back)).close) 0
  let newest ← readAt htfBars htfStartIdx
  return (newest.close * strategy.htfSmaPeriod, htfCloseSum)

/-- Some later closed bar has the property. -/
def checkedLater (p : OhlcObject → Bool) (fvgBars : List OhlcObject) (i : ℤ) : Except Fault Bool :=
  let totalBars : ℤ := fvgBars.length
  (List.range (totalBars - 2 - i).toNat).anyM fun (k : ℕ) => do
    return p (← readAt fvgBars (i + 1 + k))

def checkedGapAt (isHtfUptrend isHtfDowntrend : Bool) (tick : PriceData)
    (fvgBars : List OhlcObject) (i : ℤ) : Except Fault (Option Direction) := do
  let minGapPoints := toInt32 (strategy.minGapPips * SymbolScale.get tick.symbol)
  let lastClosedClose := (← readAt fvgBars ((fvgBars.length : ℤ) - 2)).close
  let c3 ← readAt fvgBars i
  let c1 ← readAt fvgBars (i - 2)
  let long : Bool ← (if isHtfUptrend ∧ c1.high < c3.low ∧
      minGapPoints ≤ toInt32 (c3.low - c1.high) then do
    let mitigated ← checkedLater (fun bar => bar.low ≤ c1.high) fvgBars i
    pure (!mitigated && (c3.low < lastClosedClose ∧ tick.ask ≤ c3.low ∧ c1.high ≤ tick.ask))
    else pure false)
  if long then return some .long
  let short : Bool ← (if isHtfDowntrend ∧ c3.high < c1.low ∧
      minGapPoints ≤ toInt32 (c1.low - c3.high) then do
    let mitigated ← checkedLater (fun bar => c1.low ≤ bar.high) fvgBars i
    pure (!mitigated && (lastClosedClose < c3.high ∧ c3.high ≤ tick.bid ∧ tick.bid ≤ c1.low))
    else pure false)
  return if short then some .short else none

def checkedGapScan (isHtfUptrend isHtfDowntrend : Bool) (tick : PriceData)
    (fvgBars : List OhlcObject) : Except Fault (Option Direction) :=
  let totalBars : ℤ := fvgBars.length
  let startSearchIdx := totalBars - 2
  let endSearchIdx := max 2 (totalBars - strategy.lookbackBars)
  let maxAgeIdx := max endSearchIdx (totalBars - 2 - strategy.minGapAgeBars)
  (List.range (startSearchIdx + 1 - maxAgeIdx).toNat).findSomeM? fun (back : ℕ) =>
    strategy.checkedGapAt isHtfUptrend isHtfDowntrend tick fvgBars (startSearchIdx - back)

def checkedDecide (tick : PriceData) (barStore : BarStore) : Except Fault (Option Direction) :=
  match barStore.find tick.symbol strategy.fvgCfg.minutes,
      barStore.find tick.symbol strategy.htfCfg.minutes with
  | some fvgSeries, some htfSeries =>
    let fvgCount := strategy.fvgCfg.count.toNat
    let htfCount := strategy.htfCfg.count.toNat
    if fvgSeries.length < fvgCount ∨ htfSeries.length < htfCount then return none
    else do
      let fvgBars ← Checked.last fvgSeries fvgCount
      let htfBars ← Checked.last htfSeries htfCount
      let (lastHtfCloseScaled, htfCloseSum) ← strategy.checkedTrend htfBars
      strategy.checkedGapScan (htfCloseSum < lastHtfCloseScaled)
        (lastHtfCloseScaled < htfCloseSum) tick fvgBars
  | _, _ => return none

/-- The sums of the constructor do not overflow. -/
structure Fits (strategy : FvgStrategy) : Prop where
  lookback : strategy.lookbackBars + 3 < 2 ^ 31
  period : strategy.htfSmaPeriod + 2 < 2 ^ 31

/-- The windows are long enough for every index that is read. -/
structure Accepted (strategy : FvgStrategy) : Prop where
  lookback : 1 ≤ strategy.lookbackBars
  period : 1 ≤ strategy.htfSmaPeriod
  age : 0 ≤ strategy.minGapAgeBars
  wide : strategy.lookbackBars + 3 ≤ strategy.fvgCfg.count
  wideHtf : strategy.htfSmaPeriod + 2 ≤ strategy.htfCfg.count

variable {strategy} {tick : PriceData} {barStore : BarStore} {bars : List OhlcObject}

theorem make_accepted {config : TradingDefinitions.StrategyConfig}
    (h : make config = .ok strategy) (hfits : strategy.Fits) : strategy.Accepted := by
  unfold make at h
  split at h
  · split_ifs at h with hminutes
    split at h
    · cases h
    · dsimp only at h
      split_ifs at h with hvars hage hduration hcount hcountHtf
      cases h
      obtain ⟨hlookback, hperiod⟩ := hfits
      dsimp only at *
      rw [not_or, not_or] at hvars
      rw [toInt32_of_small (by omega) (by omega)] at hcount hcountHtf
      constructor <;> dsimp only <;> omega
  · cases h

theorem readAt_bar {i : ℕ} (h : i < bars.length) {j : ℤ} (hj : j = i) :
    readAt bars j = .ok (barAt bars i) := by
  rw [hj, Checked.readAt_natCast, read_bar h]

theorem checkedTrend_eq (hperiod : 1 ≤ strategy.htfSmaPeriod)
    (hwide : strategy.htfSmaPeriod + 2 ≤ bars.length) :
    strategy.checkedTrend bars = .ok (strategy.trend bars) := by
  have hread (back : ℕ) (hback : back ∈ List.range strategy.htfSmaPeriod.toNat) (sum : ℤ) :
      (do return sum + (← readAt bars ((bars.length : ℤ) - 2 - back)).close : Except Fault ℤ) =
        .ok (sum + (barAt bars (bars.length - 2 - back)).close) := by
    rw [List.mem_range] at hback
    rw [readAt_bar (i := bars.length - 2 - back) (by omega) (by omega)]
    rfl
  unfold checkedTrend
  dsimp only
  rw [Checked.foldlM_eq hread, Checked.ok_bind,
    readAt_bar (i := bars.length - 2) (by omega) (by omega), trend, List.sum_eq_foldl,
    List.foldl_map]
  rfl

theorem checkedLater_eq {p : OhlcObject → Bool} {i : ℕ} :
    checkedLater p bars i =
      .ok (((List.range' (i + 1) (bars.length - 2 - i)).map (barAt bars)).any p) := by
  have hread (k : ℕ) (hk : k ∈ List.range ((bars.length : ℤ) - 2 - i).toNat) :
      (do return p (← readAt bars (i + 1 + k)) : Except Fault Bool) =
        .ok (p (barAt bars (i + 1 + k))) := by
    rw [List.mem_range] at hk
    rw [readAt_bar (i := i + 1 + k) (by omega) (by omega)]
    rfl
  unfold checkedLater
  dsimp only
  rw [Checked.anyM_eq hread, List.any_map, List.range'_eq_map_range, List.any_map,
    show ((bars.length : ℤ) - 2 - i).toNat = bars.length - 2 - i by omega]
  rfl

/-- A side of the scan, whose later bars are read only when there is a gap. -/
theorem guarded_eq {p : Prop} [Decidable p] {later : Except Fault Bool} {mitigated entered : Bool}
    (hlater : later = .ok mitigated) :
    (if p then (do let mitigated ← later; pure (!mitigated && entered)) else pure false) =
      (Except.ok (Decidable.decide p && (!mitigated && entered)) : Except Fault Bool) := by
  rw [hlater]
  by_cases hp : p
  · rw [if_pos hp, decide_eq_true hp, Bool.true_and]
    rfl
  · rw [if_neg hp, decide_eq_false hp, Bool.false_and]
    rfl

theorem checkedGapAt_eq {isHtfUptrend isHtfDowntrend : Bool} {i : ℕ} (hlow : 2 ≤ i)
    (hhigh : i + 2 ≤ bars.length) :
    strategy.checkedGapAt isHtfUptrend isHtfDowntrend tick bars i =
      .ok (strategy.gapAt isHtfUptrend isHtfDowntrend tick bars i) := by
  unfold checkedGapAt gapAt
  dsimp only
  rw [readAt_bar (i := bars.length - 2) (by omega) (by omega), Checked.ok_bind,
    readAt_bar (i := i) (by omega) rfl, Checked.ok_bind,
    readAt_bar (i := i - 2) (by omega) (by omega), Checked.ok_bind, guarded_eq checkedLater_eq,
    Checked.ok_bind, guarded_eq checkedLater_eq, Checked.ok_bind]
  simp only [Bool.and_eq_true, decide_eq_true_eq, Bool.not_eq_true', Bool.not_eq_true, and_assoc]
  split_ifs <;> rfl

theorem checkedGapScan_eq {isHtfUptrend isHtfDowntrend : Bool}
    (hwide : strategy.lookbackBars + 3 ≤ bars.length) (hlookback : 1 ≤ strategy.lookbackBars)
    (hage : 0 ≤ strategy.minGapAgeBars) :
    strategy.checkedGapScan isHtfUptrend isHtfDowntrend tick bars =
      .ok (strategy.gapScan isHtfUptrend isHtfDowntrend tick bars) := by
  have hcount : ((bars.length : ℤ) - 2 + 1 - max (max 2 (bars.length - strategy.lookbackBars))
      (bars.length - 2 - strategy.minGapAgeBars)).toNat =
      bars.length - 2 + 1 - strategy.maxAgeIdx bars.length := by
    unfold maxAgeIdx
    omega
  have hgap (back : ℕ) (hback : back ∈ List.range (bars.length - 2 + 1 -
      strategy.maxAgeIdx bars.length)) :
      strategy.checkedGapAt isHtfUptrend isHtfDowntrend tick bars ((bars.length : ℤ) - 2 - back) =
        .ok (strategy.gapAt isHtfUptrend isHtfDowntrend tick bars (bars.length - 2 - back)) := by
    have hback := List.mem_range.mp hback
    unfold maxAgeIdx at hback
    rw [show (bars.length : ℤ) - 2 - back = (bars.length - 2 - back : ℕ) by omega]
    exact checkedGapAt_eq (by omega) (by omega)
  unfold checkedGapScan
  dsimp only
  rw [hcount, Checked.findSomeM?_eq hgap]
  rfl

theorem checkedDecide_eq (haccepted : strategy.Accepted) :
    strategy.checkedDecide tick barStore = .ok (strategy.decide tick barStore) := by
  obtain ⟨hlookback, hperiod, hage, hwide, hwideHtf⟩ := haccepted
  unfold checkedDecide decide
  cases barStore.find tick.symbol strategy.fvgCfg.minutes with
  | none => rfl
  | some fvgSeries =>
    cases barStore.find tick.symbol strategy.htfCfg.minutes with
    | none => rfl
    | some htfSeries =>
      dsimp only
      split_ifs with hwarm
      · rfl
      · rw [not_or, not_lt, not_lt] at hwarm
        have hlength := length_rtake hwarm.1
        have hlengthHtf := length_rtake hwarm.2
        rw [Checked.last_eq hwarm.1, Checked.ok_bind, Checked.last_eq hwarm.2, Checked.ok_bind,
          checkedTrend_eq hperiod (by omega), Checked.ok_bind]
        exact checkedGapScan_eq (by omega) hlookback hage

end FvgStrategy

/-! ## The contracted bar -/

namespace TrendFilter

def checkedRead (closes : List ℤ) : Except Fault (ℤ × ℤ) := do
  let emaPeriod := closes.length / 2
  let ema ← Ema.checkedCalculate closes emaPeriod
  let currentClose ← back closes
  let currentEma ← back ema
  return (currentClose, currentEma)

theorem checkedRead_eq {closes : List ℤ} (henough : 2 ≤ closes.length) :
    ∃ reading, checkedRead closes = .ok reading ∧ read closes = .ok reading := by
  have hperiod : (1 : ℤ) ≤ (closes.length / 2 : ℕ) := by omega
  obtain ⟨ema, hchecked, hema⟩ := Ema.checkedCalculate_eq hperiod closes
  have hne : closes ≠ [] := List.ne_nil_of_length_pos (by omega)
  have hne' : ema ≠ [] := by
    apply List.ne_nil_of_length_pos
    rw [Ema.length_calculate hema]
    omega
  refine ⟨(closes.getLastD 0, ema.getLastD 0), ?_, ?_⟩
  · unfold checkedRead
    dsimp only
    rw [hchecked, Checked.ok_bind, Checked.back_eq 0 hne, Checked.ok_bind, Checked.back_eq 0 hne']
    rfl
  · unfold read
    dsimp only
    rw [hema]
    rfl

end TrendFilter

namespace SqueezeBreakoutStrategy

variable (strategy : SqueezeBreakoutStrategy)

def checkedPatternAt (closedBars : List OhlcObject) (index : ℕ) : Except Fault Bool :=
  if strategy.nrLookback = 0 then do
    let bar ← read closedBars index
    let mother ← read closedBars (← sub index 1)
    return bar.high ≤ mother.high && mother.low ≤ bar.low
  else do
    let bar ← read closedBars index
    let range := toInt32 (bar.high - bar.low)
    (List.range' 1 (strategy.nrLookback.toNat - 1)).allM fun back => do
      let other ← read closedBars (← sub index back)
      return range < toInt32 (other.high - other.low)

def checkedSignalAt (uptrend downtrend : Bool) (tick : PriceData) (closedBars : List OhlcObject)
    (index : ℕ) : Except Fault (Option Direction) := do
  let bufferPoints := toInt32 (strategy.bufferPips * SymbolScale.get tick.symbol)
  if !(← strategy.checkedPatternAt closedBars index) then return none
  let pattern ← read closedBars index
  if uptrend ∧ toInt32 (pattern.high + bufferPoints) < tick.bid then return some .long
  else if downtrend ∧ tick.ask < toInt32 (pattern.low - bufferPoints) then return some .short
  else return none

def checkedScan (uptrend downtrend : Bool) (tick : PriceData) (closedBars : List OhlcObject) :
    Except Fault (Option Direction) :=
  (List.range strategy.validBars.toNat).findSomeM? fun back => do
    let index ← sub (← sub closedBars.length 1) back
    strategy.checkedSignalAt uptrend downtrend tick closedBars index

def checkedDecide (tick : PriceData) (barStore : BarStore) : Except Fault (Option Direction) :=
  match barStore.find tick.symbol strategy.signalCfg.minutes,
      barStore.find tick.symbol strategy.trendCfg.minutes with
  | some signalSeries, some trendSeries =>
    let signalCount := strategy.signalCfg.count.toNat
    let trendCount := strategy.trendCfg.count.toNat
    if signalSeries.length < signalCount ∨ trendSeries.length < trendCount then return none
    else do
      let signalBars ← Checked.last signalSeries signalCount
      let trendBars ← Checked.last trendSeries trendCount
      let (currentClose, currentEma) ← TrendFilter.checkedRead (trendBars.map OhlcObject.close)
      let uptrend : Bool := currentEma < currentClose
      let downtrend : Bool := currentClose < currentEma
      if !uptrend && !downtrend then return none
      let closedBars ← Checked.first signalBars (← sub signalBars.length 1)
      strategy.checkedScan uptrend downtrend tick closedBars
  | _, _ => return none

/-- The sum of the constructor does not overflow. -/
def Fits (strategy : SqueezeBreakoutStrategy) : Prop :=
  strategy.validBars + max 1 (strategy.nrLookback - 1) + 1 < 2 ^ 31

/-- The windows are long enough for every index that is read. -/
structure Accepted (strategy : SqueezeBreakoutStrategy) : Prop where
  lookback : 0 ≤ strategy.nrLookback
  valid : 1 ≤ strategy.validBars
  trend : 2 ≤ strategy.trendCfg.count
  wide : strategy.validBars + max 1 (strategy.nrLookback - 1) + 1 ≤ strategy.signalCfg.count

variable {strategy} {tick : PriceData} {barStore : BarStore} {bars : List OhlcObject}
  {uptrend downtrend : Bool} {index : ℕ}

theorem make_accepted {config : TradingDefinitions.StrategyConfig}
    (h : make config = .ok strategy) (hfits : strategy.Fits) : strategy.Accepted := by
  unfold make at h
  split at h
  · split_ifs at h with hminutes htrend
    split at h
    · cases h
    · dsimp only at h
      split_ifs at h with hlookback hvalid hbuffer hduration hcount
      cases h
      unfold Fits at hfits
      dsimp only at *
      rw [not_or] at hlookback
      rw [toInt32_of_small (by omega) hfits] at hcount
      constructor <;> dsimp only <;> omega
  · cases h

theorem checkedPatternAt_eq (hfirst : 1 ≤ index) (hlookback : strategy.nrLookback - 1 ≤ index)
    (hindex : index < bars.length) :
    strategy.checkedPatternAt bars index = .ok (strategy.isPatternAt bars index) := by
  unfold checkedPatternAt isPatternAt
  split_ifs with hinside
  · rw [read_bar hindex, Checked.ok_bind, Checked.sub_eq hfirst, Checked.ok_bind,
      read_bar (by omega)]
    rfl
  · have hother (back : ℕ) (hback : back ∈ List.range' 1 (strategy.nrLookback.toNat - 1)) :
        (do let other ← read bars (← sub index back)
            return Decidable.decide (toInt32 ((barAt bars index).high - (barAt bars index).low) <
              toInt32 (other.high - other.low)) : Except Fault Bool) =
          .ok (Decidable.decide (toInt32 ((barAt bars index).high - (barAt bars index).low) <
            toInt32 ((barAt bars (index - back)).high - (barAt bars (index - back)).low))) := by
      rw [List.mem_range'_1] at hback
      rw [Checked.sub_eq (by omega), Checked.ok_bind, read_bar (by omega)]
      rfl
    rw [read_bar hindex, Checked.ok_bind]
    exact Checked.allM_eq hother

theorem checkedSignalAt_eq (hfirst : 1 ≤ index) (hlookback : strategy.nrLookback - 1 ≤ index)
    (hindex : index < bars.length) :
    strategy.checkedSignalAt uptrend downtrend tick bars index =
      .ok (strategy.signalAt uptrend downtrend tick bars index) := by
  unfold checkedSignalAt signalAt
  dsimp only
  rw [checkedPatternAt_eq hfirst hlookback hindex, Checked.ok_bind, read_bar hindex]
  cases strategy.isPatternAt bars index with
  | false => rfl
  | true =>
    rw [Bool.not_true, if_neg Bool.false_ne_true, if_neg Bool.false_ne_true, Checked.ok_bind]
    split_ifs <;> rfl

theorem checkedScan_eq (hvalid : 1 ≤ strategy.validBars)
    (hwide : strategy.validBars + max 1 (strategy.nrLookback - 1) ≤ bars.length) :
    strategy.checkedScan uptrend downtrend tick bars =
      .ok (strategy.patternScan uptrend downtrend tick bars) := by
  apply Checked.findSomeM?_eq
  intro back hback
  have hback := List.mem_range.mp hback
  rw [Checked.sub_eq (by omega), Checked.ok_bind, Checked.sub_eq (by omega), Checked.ok_bind]
  exact checkedSignalAt_eq (by omega) (by omega) (by omega)

theorem checkedDecide_eq (haccepted : strategy.Accepted) :
    ∃ direction, strategy.checkedDecide tick barStore = .ok direction ∧
      strategy.decide tick barStore = .ok direction := by
  obtain ⟨hlookback, hvalid, htrend, hwide⟩ := haccepted
  unfold checkedDecide decide
  cases barStore.find tick.symbol strategy.signalCfg.minutes with
  | none => exact ⟨none, rfl, rfl⟩
  | some signalSeries =>
    cases barStore.find tick.symbol strategy.trendCfg.minutes with
    | none => exact ⟨none, rfl, rfl⟩
    | some trendSeries =>
      dsimp only
      split_ifs with hwarm
      · exact ⟨none, rfl, rfl⟩
      · rw [not_or, not_lt, not_lt] at hwarm
        have hlength := length_rtake hwarm.1
        have hlengthTrend := length_rtake hwarm.2
        have hclosed : (signalSeries.rtake strategy.signalCfg.count.toNat).dropLast.length =
            strategy.signalCfg.count.toNat - 1 := by rw [List.length_dropLast, hlength]
        have hcloses : 2 ≤ ((trendSeries.rtake strategy.trendCfg.count.toNat).map
            OhlcObject.close).length := by
          rw [List.length_map]
          omega
        obtain ⟨reading, hreading, hread⟩ := TrendFilter.checkedRead_eq hcloses
        rw [Checked.last_eq hwarm.1, Checked.ok_bind, Checked.last_eq hwarm.2, Checked.ok_bind,
          hreading, Checked.ok_bind, hread, Checked.ok_bind, Checked.sub_eq (by omega),
          Checked.ok_bind, Checked.first_sub_one]
        split_ifs with hflat
        · exact ⟨none, rfl, rfl⟩
        · exact ⟨_, checkedScan_eq hvalid (by omega), rfl⟩

end SqueezeBreakoutStrategy

/-! ## The band -/

namespace KeltnerFadeStrategy

variable (strategy : KeltnerFadeStrategy)

def checkedFade (tick : PriceData) (closedBars : List OhlcObject) :
    Except Fault (Option Direction) := do
  let start ← sub closedBars.length strategy.bandSmaPeriod.toNat
  let closeSum ← (List.range' start (closedBars.length - start)).foldlM (fun sum i => do
    let bar ← read closedBars i
    return sum + bar.close) 0
  let atrPoints ← Atr.checkedCalculate closedBars strategy.bandSmaPeriod
  if atrPoints ≤ 0 then return none
  let bandOffset := toInt64 (strategy.bandAtrMultTenths * atrPoints * strategy.bandSmaPeriod)
  let centreScaled := toInt64 (closeSum * 10)
  if strategy.scaled tick.ask < toInt64 (centreScaled - bandOffset) then return some .long
  else if toInt64 (centreScaled + bandOffset) < strategy.scaled tick.bid then return some .short
  else return none

def checkedDecide (tick : PriceData) (barStore : BarStore) : Except Fault (Option Direction) :=
  match barStore.find tick.symbol strategy.signalCfg.minutes with
  | none => return none
  | some signalSeries =>
    let signalCount := strategy.signalCfg.count.toNat
    if signalSeries.length < signalCount then return none
    else do
      let signalBars ← Checked.last signalSeries signalCount
      let closedBars ← Checked.first signalBars (← sub signalBars.length 1)
      strategy.checkedFade tick closedBars

/-- The sum of the constructor does not overflow. -/
def Fits (strategy : KeltnerFadeStrategy) : Prop := strategy.bandSmaPeriod + 2 < 2 ^ 31

/-- The window is long enough for every index that is read. -/
structure Accepted (strategy : KeltnerFadeStrategy) : Prop where
  period : 1 ≤ strategy.bandSmaPeriod
  wide : strategy.bandSmaPeriod + 2 ≤ strategy.signalCfg.count

variable {strategy} {tick : PriceData} {barStore : BarStore} {bars : List OhlcObject}

theorem make_accepted {config : TradingDefinitions.StrategyConfig}
    (h : make config = .ok strategy) (hfits : strategy.Fits) : strategy.Accepted := by
  unfold make at h
  split at h
  · cases h
  · split_ifs at h with hminutes
    split at h
    · cases h
    · dsimp only at h
      split_ifs at h with hvars hcount
      cases h
      unfold Fits at hfits
      dsimp only at *
      rw [not_or] at hvars
      rw [toInt32_of_small (by omega) hfits] at hcount
      constructor <;> dsimp only <;> omega

theorem checkedFade_eq (hperiod : 1 ≤ strategy.bandSmaPeriod)
    (hwide : strategy.bandSmaPeriod ≤ bars.length) :
    strategy.checkedFade tick bars = .ok (strategy.fade tick bars) := by
  have hsum : (bars.drop (bars.length - strategy.bandSmaPeriod.toNat)).foldl
      (fun sum bar => sum + bar.close) 0 = strategy.closeSum bars := by
    rw [closeSum, List.sum_eq_foldl, List.foldl_map]
    rfl
  unfold checkedFade fade
  rw [Checked.sub_eq (by omega), Checked.ok_bind, Checked.foldlM_read, Checked.ok_bind, hsum,
    Atr.checkedCalculate_eq hperiod, Checked.ok_bind]
  dsimp only
  split_ifs <;> rfl

theorem checkedDecide_eq (haccepted : strategy.Accepted) :
    strategy.checkedDecide tick barStore = .ok (strategy.decide tick barStore) := by
  obtain ⟨hperiod, hwide⟩ := haccepted
  unfold checkedDecide decide
  cases barStore.find tick.symbol strategy.signalCfg.minutes with
  | none => rfl
  | some signalSeries =>
    dsimp only
    split_ifs with hwarm
    · rfl
    · rw [not_lt] at hwarm
      have hlength := length_rtake hwarm
      have hclosed : (signalSeries.rtake strategy.signalCfg.count.toNat).dropLast.length =
          strategy.signalCfg.count.toNat - 1 := by rw [List.length_dropLast, hlength]
      rw [Checked.last_eq hwarm, Checked.ok_bind, Checked.sub_eq (by omega), Checked.ok_bind,
        Checked.first_sub_one, Checked.ok_bind]
      exact checkedFade_eq hperiod (by omega)

end KeltnerFadeStrategy

/-! ## The swept level -/

namespace LiquiditySweepReversalStrategy

variable (strategy : LiquiditySweepReversalStrategy)

def checkedDisplacementOk (closedBars : List OhlcObject) (rejection : ℕ) (extreme : Extreme) :
    Except Fault Bool :=
  if strategy.displacementAtrTenths = 0 then return true
  else do
    let body := extreme.body (← read closedBars rejection)
    if body ≤ 0 then return false
    let upTo ← Checked.first closedBars (rejection + 1)
    let atrPoints ← Atr.checkedCalculate upTo kAtrPeriod
    if atrPoints ≤ 0 then return false
    else return strategy.displacementAtrTenths * atrPoints ≤ body * 10

def checkedRejectionOf (extreme : Extreme) (closedBars : List OhlcObject) (sweepPoints : ℤ)
    (i : ℕ) : Except Fault (Option Setup) := do
  let n := closedBars.length
  let level := extreme.price (← read closedBars i)
  let j ← Checked.seek (fun bar => extreme.Beyond (extreme.price bar) level) closedBars n (i + 1)
  if n ≤ j then return none
  let bar ← read closedBars j
  if extreme.Beyond bar.close level then return none
  else if toInt32 (extreme.depth (extreme.price bar) level) < sweepPoints then return none
  else if j + strategy.validBars.toNat < n then return none
  else if !(← strategy.checkedDisplacementOk closedBars j extreme) then return none
  else
    let invalidated ← (List.range' (j + 1) (n - (j + 1))).anyM fun k => do
      let later ← read closedBars k
      return extreme.Beyond later.close level
    if invalidated then return none else return some ⟨j, level⟩

def checkedCandidate (extreme : Extreme) (closedBars : List OhlcObject) (sweepPoints : ℤ) (i : ℕ) :
    Except Fault (Option Setup) := do
  if ← SwingPivots.checkedSwingAt extreme closedBars i strategy.pivotBars then
    strategy.checkedRejectionOf extreme closedBars sweepPoints i
  else return none

def checkedPivotScan (closedBars : List OhlcObject) (sweepPoints : ℤ) :
    Except Fault (Option Setup × Option Setup) := do
  let n := closedBars.length
  let wing := strategy.pivotBars.toNat
  let scanStart := max wing (← sub n strategy.lookbackBars.toNat)
  (List.range' scanStart (n - wing - scanStart)).foldlM
    (fun best i => do
      let short ← strategy.checkedCandidate .high closedBars sweepPoints i
      let long ← strategy.checkedCandidate .low closedBars sweepPoints i
      return (keepNewest best.1 short, keepNewest best.2 long))
    (none, none)

def checkedDecide (tick : PriceData) (barStore : BarStore) : Except Fault (Option Direction) :=
  match barStore.find tick.symbol strategy.signalCfg.minutes with
  | none => return none
  | some signalSeries =>
    let signalCount := strategy.signalCfg.count.toNat
    if signalSeries.length < signalCount then return none
    else do
      let signalBars ← Checked.last signalSeries signalCount
      let closedBars ← Checked.first signalBars (← sub signalBars.length 1)
      let sweepPoints := toInt32 (strategy.minSweepPips * SymbolScale.get tick.symbol)
      let best ← strategy.checkedPivotScan closedBars sweepPoints
      return verdict tick best.1 best.2

variable {strategy} {tick : PriceData} {barStore : BarStore} {bars : List OhlcObject}
  {extreme : Extreme} {sweepPoints : ℤ} {i : ℕ}

theorem checkedDisplacementOk_eq (hi : i < bars.length) :
    strategy.checkedDisplacementOk bars i extreme = .ok (strategy.displacementOk bars i extreme) := by
  unfold checkedDisplacementOk displacementOk
  split_ifs with hnone
  · rfl
  · rw [read_bar hi, Checked.ok_bind]
    dsimp only
    rw [Checked.first_eq (by omega), Checked.ok_bind, Atr.checkedCalculate_eq (by decide),
      Checked.ok_bind, Int.toNat_natCast]
    split_ifs <;> rfl

theorem checkedRejectionOf_eq (hi : i < bars.length) :
    strategy.checkedRejectionOf extreme bars sweepPoints i =
      .ok (strategy.rejectionOf extreme bars sweepPoints i) := by
  have hseek : Checked.seek
      (fun bar => extreme.Beyond (extreme.price bar) (extreme.price (barAt bars i))) bars
        bars.length (i + 1) = _ := Checked.seek_eq hi (by omega)
  unfold checkedRejectionOf rejectionOf
  dsimp only
  rw [read_bar hi, Checked.ok_bind, hseek, Checked.ok_bind]
  generalize i + 1 + (bars.drop (i + 1)).findIdx _ = j
  by_cases htouched : j < bars.length
  · rw [if_neg (not_le.mpr htouched), read_bar htouched, Checked.ok_bind,
      checkedDisplacementOk_eq htouched, Checked.ok_bind, Checked.anyM_read, Checked.ok_bind]
    by_cases hclose : extreme.Beyond (barAt bars j).close (extreme.price (barAt bars i))
    · rw [if_pos hclose, if_neg fun h => h.2.1 hclose]
      rfl
    by_cases hdepth : toInt32 (extreme.depth (extreme.price (barAt bars j))
        (extreme.price (barAt bars i))) < sweepPoints
    · rw [if_neg hclose, if_pos hdepth, if_neg fun h => hdepth.not_ge h.2.2.1]
      rfl
    by_cases hfresh : j + strategy.validBars.toNat < bars.length
    · rw [if_neg hclose, if_neg hdepth, if_pos hfresh, if_neg fun h => hfresh.not_ge h.2.2.2.1]
      rfl
    rw [if_neg hclose, if_neg hdepth, if_neg hfresh]
    cases hdisplaced : strategy.displacementOk bars j extreme with
    | false =>
      rw [Bool.not_false, if_pos rfl,
        if_neg fun h : _ ∧ _ ∧ _ ∧ _ ∧ _ => Bool.false_ne_true h.2.2.2.2]
      rfl
    | true =>
      rw [Bool.not_true, if_neg Bool.false_ne_true, if_pos (show _ ∧ _ ∧ _ ∧ _ ∧ true = true from
          ⟨htouched, hclose, not_lt.mp hdepth, not_lt.mp hfresh, rfl⟩)]
      cases (bars.drop (j + 1)).any fun later =>
        Decidable.decide (extreme.Beyond later.close (extreme.price (barAt bars i))) <;> rfl
  · rw [if_pos (not_lt.mp htouched), if_neg fun h => htouched h.1]
    rfl

theorem checkedCandidate_eq (hpivot : 1 ≤ strategy.pivotBars) (hleft : strategy.pivotBars ≤ i)
    (hright : i + strategy.pivotBars < bars.length) :
    ∃ setup, strategy.checkedCandidate extreme bars sweepPoints i = .ok setup ∧
      strategy.candidate extreme bars sweepPoints i = .ok setup := by
  obtain ⟨swing, hchecked, hswing⟩ : ∃ swing, SwingPivots.checkedSwingAt extreme bars i
      strategy.pivotBars = .ok swing ∧
        SwingPivots.isPivotAt extreme bars i strategy.pivotBars = .ok swing :=
    SwingPivots.checkedSwingAt_eq hpivot (by omega) (by omega)
  unfold checkedCandidate candidate
  rw [hchecked, Checked.ok_bind, hswing]
  cases swing
  · exact ⟨none, rfl, rfl⟩
  · exact ⟨_, checkedRejectionOf_eq (by omega), rfl⟩

theorem checkedPivotScan_eq (hpivot : 1 ≤ strategy.pivotBars)
    (hlookback : strategy.pivotBars < strategy.lookbackBars)
    (hwide : strategy.lookbackBars + strategy.pivotBars ≤ bars.length) :
    ∃ best, strategy.checkedPivotScan bars sweepPoints = .ok best ∧
      strategy.pivotScan bars sweepPoints = .ok best := by
  unfold checkedPivotScan pivotScan
  dsimp only
  rw [Checked.sub_eq (by omega), Checked.ok_bind]
  apply Checked.foldlM_agree
  intro i hi best
  rw [List.mem_range'_1] at hi
  have hleft : strategy.pivotBars ≤ i := by omega
  have hright : i + strategy.pivotBars < bars.length := by omega
  have hcandidate (extreme : Extreme) :
      ∃ setup, strategy.checkedCandidate extreme bars sweepPoints i = .ok setup ∧
        strategy.candidate extreme bars sweepPoints i = .ok setup :=
    checkedCandidate_eq hpivot hleft hright
  obtain ⟨short, hchecked, hshort⟩ := hcandidate .high
  obtain ⟨long, hchecked', hlong⟩ := hcandidate .low
  rw [hchecked, hchecked', hshort, hlong]
  exact ⟨_, rfl, rfl⟩

theorem checkedDecide_eq (haccepted : strategy.Accepted) :
    ∃ direction, strategy.checkedDecide tick barStore = .ok direction ∧
      strategy.decide tick barStore = .ok direction := by
  obtain ⟨hpivot, -, -, hwide, -, hlookback⟩ := haccepted
  unfold checkedDecide decide
  cases barStore.find tick.symbol strategy.signalCfg.minutes with
  | none => exact ⟨none, rfl, rfl⟩
  | some signalSeries =>
    dsimp only
    split_ifs with hwarm
    · exact ⟨none, rfl, rfl⟩
    · rw [not_lt] at hwarm
      have hlength := length_rtake hwarm
      have hclosed : (signalSeries.rtake strategy.signalCfg.count.toNat).dropLast.length =
          strategy.signalCfg.count.toNat - 1 := by rw [List.length_dropLast, hlength]
      have henough : strategy.lookbackBars + strategy.pivotBars ≤
          (signalSeries.rtake strategy.signalCfg.count.toNat).dropLast.length := by omega
      obtain ⟨best, hchecked, hbest⟩ := checkedPivotScan_eq hpivot hlookback henough
      rw [Checked.last_eq hwarm, Checked.ok_bind, Checked.sub_eq (by omega), Checked.ok_bind,
        Checked.first_sub_one, Checked.ok_bind, hchecked, Checked.ok_bind, hbest]
      exact ⟨_, rfl, rfl⟩

end LiquiditySweepReversalStrategy

/-! ## The fast run -/

namespace RangeVelocityStrategy

variable (strategy : RangeVelocityStrategy)

def checkedOpenToOpen (bars : List OhlcObject) (i : ℕ) : Except Fault ℤ := do
  let next ← read bars (i + 1)
  let bar ← read bars i
  return next.date - bar.date

def checkedJudge (tick : PriceData) (bars : List OhlcObject) :
    Except Fault (Option Direction) := do
  let n := bars.length
  let k := strategy.runBars.toNat
  let m := strategy.speedLookbackBars.toNat
  if n < k + m then return none
  let newest ← read bars (← sub n 1)
  let dir := barDirection newest
  if dir = 0 then return none
  let runStart ← sub n k
  let runEnd ← sub n 1
  let broken ← (List.range' runStart (runEnd - runStart)).anyM fun i => do
    let bar ← read bars i
    return barDirection bar ≠ dir
  if broken then return none
  let baseline ← sub runStart m
  let durations ← (List.range' baseline (runStart - baseline)).mapM (checkedOpenToOpen bars)
  match OrderStatistic.nthElement durations (m / 2) with
  | none => .error .outOfRange
  | some median =>
    if median ≤ 0 then return none
    let allowance := toInt64 (median * strategy.speedRatioPercent)
    let slow ← (List.range' runStart (runEnd - runStart)).anyM fun i => do
      let duration ← checkedOpenToOpen bars i
      return allowance < toInt64 (duration * 100)
    if slow then return none
    let newestDuration := tick.timestamp - newest.date
    if allowance < toInt64 (newestDuration * 100) then return none
    else return some (if 0 < dir then .long else .short)

def checkedDecide (tick : PriceData) (barStore : BarStore) : Except Fault (Option Direction) :=
  match barStore.findRange tick.symbol strategy.spec with
  | none => return none
  | some series =>
    if series = [] then return none
    else do
      let newest ← back series
      if !newest.complete then return none
      strategy.checkedJudge tick series

def checkedOpposed (direction : Direction) (series : List OhlcObject) : Except Fault Bool := do
  let n := series.length
  let e := strategy.exitRunBars.toNat
  let against := match direction with
    | .long => -1
    | .short => 1
  if n < e then return false
  let start ← sub n e
  (List.range' start (n - start)).allM fun i => do
    let bar ← read series i
    return barDirection bar = against

def checkedDuring (price : PriceData) (barStore : BarStore) (tradeManager : TradeManager) :
    Except Fault TradeManager :=
  let (tradeManager, closed) :=
    StrategyExits.closeIfPastCap price tradeManager strategy.maxTradeDuration
  if closed then return tradeManager
  else
    match tradeManager.findActiveTrade price.symbol with
    | none => return tradeManager
    | some trade =>
      let exitPrice := price.closeSide trade.direction
      match barStore.findRange price.symbol strategy.spec with
      | none => return tradeManager
      | some series =>
        if series = [] then return tradeManager
        else do
          let newest ← back series
          if !newest.complete then return tradeManager
          if ← strategy.checkedOpposed trade.direction series then
            return (tradeManager.closeTrade price.symbol exitPrice price false).1
          else return tradeManager

variable {strategy} {tick : PriceData} {barStore : BarStore} {bars : List OhlcObject}

theorem checkedOpenToOpen_eq {i : ℕ} (h : i + 1 < bars.length) :
    checkedOpenToOpen bars i = .ok (openToOpen bars i) := by
  unfold checkedOpenToOpen
  rw [read_bar h, Checked.ok_bind, read_bar (by omega)]
  rfl

theorem checkedJudge_eq (hrun : 1 ≤ strategy.runBars) (hlookback : 1 ≤ strategy.speedLookbackBars) :
    strategy.checkedJudge tick bars = .ok (strategy.judge tick bars) := by
  unfold checkedJudge judge
  dsimp only
  by_cases hwarm : bars.length < strategy.runBars.toNat + strategy.speedLookbackBars.toNat
  · rw [if_pos hwarm, if_pos hwarm]
    rfl
  have hmiddle : bars.length - 1 - (bars.length - strategy.runBars.toNat) =
      strategy.runBars.toNat - 1 := by omega
  have hbase : bars.length - strategy.runBars.toNat -
      (bars.length - strategy.runBars.toNat - strategy.speedLookbackBars.toNat) =
        strategy.speedLookbackBars.toNat := by omega
  have hbroken (i : ℕ) (hi : i ∈ List.range' (bars.length - strategy.runBars.toNat)
      (strategy.runBars.toNat - 1)) :
      (do let bar ← read bars i
          return Decidable.decide
            (barDirection bar ≠ barDirection (barAt bars (bars.length - 1))) : Except Fault Bool) =
        .ok (Decidable.decide
          (barDirection (barAt bars i) ≠ barDirection (barAt bars (bars.length - 1)))) := by
    rw [List.mem_range'_1] at hi
    rw [read_bar (by omega)]
    rfl
  have hdurations (i : ℕ) (hi : i ∈ List.range'
      (bars.length - strategy.runBars.toNat - strategy.speedLookbackBars.toNat)
      strategy.speedLookbackBars.toNat) :
      checkedOpenToOpen bars i = .ok (openToOpen bars i) := by
    rw [List.mem_range'_1] at hi
    exact checkedOpenToOpen_eq (by omega)
  have hslow (allowance : ℤ) (i : ℕ) (hi : i ∈ List.range' (bars.length - strategy.runBars.toNat)
      (strategy.runBars.toNat - 1)) :
      (do let duration ← checkedOpenToOpen bars i
          return Decidable.decide (allowance < toInt64 (duration * 100)) : Except Fault Bool) =
        .ok (Decidable.decide (allowance < toInt64 (openToOpen bars i * 100))) := by
    rw [List.mem_range'_1] at hi
    rw [checkedOpenToOpen_eq (by omega)]
    rfl
  rw [if_neg hwarm, if_neg hwarm, Checked.sub_eq (by omega), Checked.ok_bind,
    read_bar (by omega), Checked.ok_bind, Checked.sub_eq (by omega), Checked.ok_bind,
    Checked.ok_bind, hmiddle, Checked.anyM_eq hbroken, Checked.ok_bind,
    Checked.sub_eq (by omega), Checked.ok_bind, hbase, Checked.mapM_eq hdurations, Checked.ok_bind]
  obtain ⟨median, hmedian⟩ : ∃ median, OrderStatistic.nthElement ((List.range'
      (bars.length - strategy.runBars.toNat - strategy.speedLookbackBars.toNat)
      strategy.speedLookbackBars.toNat).map (openToOpen bars))
        (strategy.speedLookbackBars.toNat / 2) = some median := by
    refine ⟨_, List.getElem?_eq_getElem ?_⟩
    rw [List.length_insertionSort, List.length_map, List.length_range']
    omega
  rw [hmedian]
  dsimp only
  rw [Checked.anyM_eq (hslow _), Checked.ok_bind]
  split_ifs <;> rfl

theorem checkedDecide_eq (haccepted : strategy.Accepted) :
    strategy.checkedDecide tick barStore = .ok (strategy.decide tick barStore) := by
  unfold checkedDecide decide
  cases barStore.findRange tick.symbol strategy.spec with
  | none => rfl
  | some series =>
    dsimp only
    cases hlast : series.getLast? with
    | none =>
      rw [if_pos (List.getLast?_eq_none_iff.mp hlast)]
      rfl
    | some newest =>
      have hne : series ≠ [] := by
        rintro rfl
        cases hlast
      rw [if_neg hne, back, hlast, Checked.ok_bind]
      dsimp only
      split_ifs with hcomplete
      · rfl
      · exact checkedJudge_eq haccepted.run haccepted.lookback

theorem checkedOpposed_eq (direction : Direction) :
    strategy.checkedOpposed direction bars = .ok (strategy.opposed direction bars) := by
  unfold checkedOpposed opposed
  dsimp only
  by_cases hshort : bars.length < strategy.exitRunBars.toNat
  · rw [if_pos hshort, if_pos hshort]
    rfl
  · have hagainst (against : ℤ) (i : ℕ) (hi : i ∈ List.range'
        (bars.length - strategy.exitRunBars.toNat) strategy.exitRunBars.toNat) :
        (do let bar ← read bars i
            return Decidable.decide (barDirection bar = against) : Except Fault Bool) =
          .ok (Decidable.decide (barDirection (barAt bars i) = against)) := by
      rw [List.mem_range'_1] at hi
      rw [read_bar (by omega)]
      rfl
    rw [if_neg hshort, if_neg hshort, Checked.sub_eq (by omega), Checked.ok_bind,
      show bars.length - (bars.length - strategy.exitRunBars.toNat) =
        strategy.exitRunBars.toNat by omega]
    exact Checked.allM_eq (hagainst _)

theorem checkedDuring_eq (price : PriceData) (tradeManager : TradeManager) :
    strategy.checkedDuring price barStore tradeManager =
      .ok (strategy.during price barStore tradeManager) := by
  unfold checkedDuring during
  dsimp only
  split_ifs with hclosed
  · rfl
  · cases (StrategyExits.closeIfPastCap price tradeManager
        strategy.maxTradeDuration).1.findActiveTrade price.symbol with
    | none => rfl
    | some trade =>
      cases barStore.findRange price.symbol strategy.spec with
      | none => rfl
      | some series =>
        dsimp only
        cases hlast : series.getLast? with
        | none =>
          rw [if_pos (List.getLast?_eq_none_iff.mp hlast)]
          rfl
        | some newest =>
          have hne : series ≠ [] := by
            rintro rfl
            cases hlast
          rw [if_neg hne, back, hlast, Checked.ok_bind, checkedOpposed_eq, Checked.ok_bind]
          dsimp only
          split_ifs <;> rfl

end RangeVelocityStrategy

/-! ## The result -/

/-- Whatever the store holds, a strategy that was constructed reads its windows without a fault and
decides what it decides without the checks; the one that reads its bars to close a trade does
so without a fault as well. -/
theorem reads_legal (config : TradingDefinitions.StrategyConfig) (tick : PriceData)
    (barStore : BarStore) :
    (∀ strategy, FvgStrategy.make config = .ok strategy → strategy.Fits →
      strategy.checkedDecide tick barStore = .ok (strategy.decide tick barStore)) ∧
    (∀ strategy, LiquiditySweepReversalStrategy.make config = .ok strategy → strategy.Fits →
      ∃ direction, strategy.checkedDecide tick barStore = .ok direction ∧
        strategy.decide tick barStore = .ok direction) ∧
    (∀ strategy, SqueezeBreakoutStrategy.make config = .ok strategy → strategy.Fits →
      ∃ direction, strategy.checkedDecide tick barStore = .ok direction ∧
        strategy.decide tick barStore = .ok direction) ∧
    (∀ strategy, KeltnerFadeStrategy.make config = .ok strategy → strategy.Fits →
      strategy.checkedDecide tick barStore = .ok (strategy.decide tick barStore)) ∧
    ∀ strategy, RangeVelocityStrategy.make config = .ok strategy →
      strategy.checkedDecide tick barStore = .ok (strategy.decide tick barStore) ∧
      ∀ tradeManager, strategy.checkedDuring tick barStore tradeManager =
        .ok (strategy.during tick barStore tradeManager) := by
  refine ⟨?_, ?_, ?_, ?_, ?_⟩
  · intro strategy hmake hfits
    exact FvgStrategy.checkedDecide_eq (FvgStrategy.make_accepted hmake hfits)
  · intro strategy hmake hfits
    exact LiquiditySweepReversalStrategy.checkedDecide_eq
      (LiquiditySweepReversalStrategy.make_accepted hmake hfits)
  · intro strategy hmake hfits
    exact SqueezeBreakoutStrategy.checkedDecide_eq
      (SqueezeBreakoutStrategy.make_accepted hmake hfits)
  · intro strategy hmake hfits
    exact KeltnerFadeStrategy.checkedDecide_eq (KeltnerFadeStrategy.make_accepted hmake hfits)
  · intro strategy hmake
    exact ⟨RangeVelocityStrategy.checkedDecide_eq (RangeVelocityStrategy.make_accepted hmake),
      RangeVelocityStrategy.checkedDuring_eq tick⟩

/-- A config that all five constructors accept. -/
def windowConfig : TradingDefinitions.StrategyConfig where
  uuid := "windows"
  tradingVariables := { strategy := "FvgStrategy" }
  ohlcVariables := [⟨20, 1⟩, ⟨20, 5⟩]
  rangeVariables := [⟨2, 100, 2⟩]
  strategyVariables :=
    { fvgStrategyVariables := some ⟨5, 1, 5, 0, 0⟩
      keltnerFadeVariables := some ⟨5, 10, 0⟩
      squeezeBreakoutVariables := some ⟨4, 3, 1, 0⟩
      liquiditySweepReversalVariables := some ⟨1, 5, 1, 1, 5, 0⟩
      rangeVelocityVariables := some ⟨1, 1, 100, 1, 0⟩ }

theorem reads_legal_windows : ∃ fvg sweep squeeze fade velocity,
    FvgStrategy.make windowConfig = .ok fvg ∧
    LiquiditySweepReversalStrategy.make windowConfig = .ok sweep ∧
    SqueezeBreakoutStrategy.make windowConfig = .ok squeeze ∧
    KeltnerFadeStrategy.make windowConfig = .ok fade ∧
    RangeVelocityStrategy.make windowConfig = .ok velocity ∧
    fvg.checkedDecide ⟨1, 1, 0, "EURUSD"⟩ .fresh = .ok none ∧
    (∃ direction, sweep.checkedDecide ⟨1, 1, 0, "EURUSD"⟩ .fresh = .ok direction) ∧
    (∃ direction, squeeze.checkedDecide ⟨1, 1, 0, "EURUSD"⟩ .fresh = .ok direction) ∧
    fade.checkedDecide ⟨1, 1, 0, "EURUSD"⟩ .fresh = .ok none ∧
    velocity.checkedDecide ⟨1, 1, 0, "EURUSD"⟩ .fresh = .ok none := by
  obtain ⟨hfvg, hsweep, hsqueeze, hfade, hvelocity⟩ :=
    reads_legal windowConfig ⟨1, 1, 0, "EURUSD"⟩ .fresh
  refine ⟨_, _, _, _, _, rfl, rfl, rfl, rfl, rfl, ?_, ?_, ?_, ?_, ?_⟩
  · exact hfvg _ rfl ⟨by decide, by decide⟩
  · obtain ⟨direction, hdirection, -⟩ := hsweep _ rfl ⟨by decide, by decide⟩
    exact ⟨direction, hdirection⟩
  · have hfits : SqueezeBreakoutStrategy.Fits ⟨⟨1, 20⟩, ⟨5, 20⟩, 4, 3, 1, 0⟩ := by
      unfold SqueezeBreakoutStrategy.Fits
      decide
    obtain ⟨direction, hdirection, -⟩ := hsqueeze _ rfl hfits
    exact ⟨direction, hdirection⟩
  · exact hfade _ rfl (by unfold KeltnerFadeStrategy.Fits; decide)
  · exact (hvelocity _ rfl).1

end BacktestEngine

import BacktestEngine.Strategies.CheckedWindows
import BacktestEngine.Strategies.OpenRangeStream
import BacktestEngine.Trading.Mirror

/-! # Decisions on mirrored prices

Reflect every bar and the tick about a constant. A strategy that asks two questions, one for
each side, finds them exchanged, and answers with the other side. Where both are answered
with yes, it takes the long one in either run.
-/

namespace BacktestEngine

open RangeBar (toInt32 toInt32_of_small)

/-- A bar reflected about a constant. -/
def OhlcObject.mirrored (c : ℤ) (bar : OhlcObject) : OhlcObject :=
  { bar with
    openPrice := c - bar.openPrice
    close := c - bar.close
    high := c - bar.low
    low := c - bar.high }

def BarStore.mirrored (c : ℤ) (store : BarStore) : BarStore :=
  { store with
    bySymbol := Keyed.mapValues (fun _ => List.map (List.map (OhlcObject.mirrored c)))
      store.bySymbol }

/-- The last bars of a series, when there are as many as the strategy asks for. -/
def BarStore.window (store : BarStore) (symbol : String) (spec : SeriesSpec) :
    Option (List OhlcObject) :=
  match store.find symbol spec.minutes with
  | none => none
  | some series =>
    if series.length < spec.count.toNat then none else some (series.rtake spec.count.toNat)

/-- The long side of a rule is asked first. -/
def longFirst (long short : Prop) [Decidable long] [Decidable short] : Option Direction :=
  if long then some .long else if short then some .short else none

/-- The second signal takes the side that the first one does not take, unless both sides
hold. Then both signals are long. -/
structure Mirrors (both : Prop) (signal signal' : Option Direction) : Prop where
  opposite : ¬ both → signal' = signal.map .opposite
  clash : both → signal = some .long ∧ signal' = some .long

section General

variable {c : ℤ} {tick : PriceData} {store : BarStore} {bars : List OhlcObject} {i : ℕ}
  {symbol : String} {spec : SeriesSpec} {long short : Prop} [Decidable long] [Decidable short]

theorem mirrors_longFirst : Mirrors (long ∧ short) (longFirst long short) (longFirst short long) := by
  constructor
  · intro hapart
    unfold longFirst
    by_cases hlong : long
    · have hshort : ¬ short := fun hshort => hapart ⟨hlong, hshort⟩
      rw [if_neg hshort, if_pos hlong, if_pos hlong]
      rfl
    · rw [if_neg hlong, if_neg hlong]
      split_ifs <;> rfl
  · rintro ⟨hlong, hshort⟩
    exact ⟨if_pos hlong, if_pos hshort⟩

theorem Mirrors.none {both : Prop} (h : ¬ both) : Mirrors both none none :=
  ⟨fun _ => rfl, fun hboth => absurd hboth h⟩

theorem findSome?_opposite {α : Type} {xs : List α} {f g : α → Option Direction}
    (h : ∀ x ∈ xs, g x = (f x).map .opposite) :
    xs.findSome? g = (xs.findSome? f).map .opposite := by
  induction xs with
  | nil => rfl
  | cons x xs ih =>
    rw [List.findSome?_cons, List.findSome?_cons, h x List.mem_cons_self]
    cases f x with
    | none => exact ih fun y hy => h y (List.mem_cons_of_mem x hy)
    | some direction => rfl

theorem sum_map_sub {α : Type} (xs : List α) (c : ℤ) (f : α → ℤ) :
    (xs.map fun x => c - f x).sum = c * xs.length - (xs.map f).sum := by
  induction xs with
  | nil => simp
  | cons x xs ih =>
    rw [List.map_cons, List.sum_cons, ih, List.map_cons, List.sum_cons, List.length_cons]
    push_cast
    ring

@[simp] theorem PriceData.mirrored_ask : (tick.mirrored c).ask = c - tick.bid := rfl

@[simp] theorem PriceData.mirrored_bid : (tick.mirrored c).bid = c - tick.ask := rfl

theorem PriceData.mirrored_mirrored : (tick.mirrored c).mirrored c = tick := by
  simp [PriceData.mirrored]

/-! ## Mirrored bars -/

@[simp] theorem OhlcObject.mirrored_high (bar : OhlcObject) :
    (bar.mirrored c).high = c - bar.low := rfl

@[simp] theorem OhlcObject.mirrored_low (bar : OhlcObject) :
    (bar.mirrored c).low = c - bar.high := rfl

theorem OhlcObject.mirrored_mirrored (bar : OhlcObject) : (bar.mirrored c).mirrored c = bar := by
  simp [OhlcObject.mirrored]

theorem bars_mirrored_mirrored :
    (bars.map (OhlcObject.mirrored c)).map (OhlcObject.mirrored c) = bars := by
  rw [List.map_map]
  exact List.map_id'' OhlcObject.mirrored_mirrored bars

theorem barAt_mirrored (h : i < bars.length) :
    barAt (bars.map (OhlcObject.mirrored c)) i = (barAt bars i).mirrored c := by
  rw [barAt_eq h, barAt_eq (by rwa [List.length_map]), List.getElem_map]

theorem rtake_mirrored (n : ℕ) : (bars.map (OhlcObject.mirrored c)).rtake n =
    (bars.rtake n).map (OhlcObject.mirrored c) := by
  rw [List.rtake, List.rtake, List.length_map, List.map_drop]

theorem find_mirrored (symbol : String) (minutes : ℤ) : (store.mirrored c).find symbol minutes =
    (store.find symbol minutes).map (List.map (OhlcObject.mirrored c)) := by
  unfold BarStore.find BarStore.mirrored
  cases store.specs.findIdx? fun spec => spec.minutes = minutes with
  | none => rfl
  | some index =>
    simp only [Option.bind_eq_bind, Option.bind_some, Keyed.lookup_mapValues]
    cases store.bySymbol.lookup symbol with
    | none => rfl
    | some histories => simp

theorem window_mirrored : (store.mirrored c).window symbol spec =
    (store.window symbol spec).map (List.map (OhlcObject.mirrored c)) := by
  unfold BarStore.window
  rw [find_mirrored]
  cases store.find symbol spec.minutes with
  | none => rfl
  | some series =>
    simp only [Option.map_some, List.length_map, rtake_mirrored]
    split_ifs <;> rfl

theorem length_of_window (h : store.window symbol spec = some bars) :
    bars.length = spec.count.toNat := by
  unfold BarStore.window at h
  split at h
  · cases h
  · split_ifs at h with hshort
    obtain rfl := Option.some.inj h
    exact length_rtake (not_lt.mp hshort)

end General

/-! ## The gap -/

namespace FvgStrategy

variable {strategy : FvgStrategy} {c : ℤ} {tick : PriceData} {store : BarStore}
  {bars : List OhlcObject} {i : ℕ} {trend : Bool}

/-- The third bar opens a gap upwards that no later bar has closed, and the ask is back in it. -/
def LongAt (strategy : FvgStrategy) (isHtfUptrend : Bool) (tick : PriceData)
    (fvgBars : List OhlcObject) (i : ℕ) : Prop :=
  let c3 := barAt fvgBars i
  let c1 := barAt fvgBars (i - 2)
  isHtfUptrend ∧ c1.high < c3.low ∧
    toInt32 (strategy.minGapPips * SymbolScale.get tick.symbol) ≤ toInt32 (c3.low - c1.high) ∧
    ¬ (((List.range' (i + 1) (fvgBars.length - 2 - i)).map (barAt fvgBars)).any
      fun bar => bar.low ≤ c1.high) ∧
    c3.low < (barAt fvgBars (fvgBars.length - 2)).close ∧ tick.ask ≤ c3.low ∧ c1.high ≤ tick.ask

def ShortAt (strategy : FvgStrategy) (isHtfDowntrend : Bool) (tick : PriceData)
    (fvgBars : List OhlcObject) (i : ℕ) : Prop :=
  let c3 := barAt fvgBars i
  let c1 := barAt fvgBars (i - 2)
  isHtfDowntrend ∧ c3.high < c1.low ∧
    toInt32 (strategy.minGapPips * SymbolScale.get tick.symbol) ≤ toInt32 (c1.low - c3.high) ∧
    ¬ (((List.range' (i + 1) (fvgBars.length - 2 - i)).map (barAt fvgBars)).any
      fun bar => c1.low ≤ bar.high) ∧
    (barAt fvgBars (fvgBars.length - 2)).close < c3.high ∧ c3.high ≤ tick.bid ∧ tick.bid ≤ c1.low

instance : Decidable (strategy.LongAt trend tick bars i) := inferInstanceAs (Decidable (_ ∧ _))

instance : Decidable (strategy.ShortAt trend tick bars i) := inferInstanceAs (Decidable (_ ∧ _))

theorem gapAt_eq (isHtfUptrend isHtfDowntrend : Bool) :
    strategy.gapAt isHtfUptrend isHtfDowntrend tick bars i =
      longFirst (strategy.LongAt isHtfUptrend tick bars i)
        (strategy.ShortAt isHtfDowntrend tick bars i) := rfl

theorem later_mirrored : (List.range' (i + 1) (bars.length - 2 - i)).map
    (barAt (bars.map (OhlcObject.mirrored c))) =
      ((List.range' (i + 1) (bars.length - 2 - i)).map (barAt bars)).map (OhlcObject.mirrored c) := by
  rw [List.map_map]
  apply List.map_congr_left
  intro j hj
  rw [List.mem_range'_1] at hj
  exact barAt_mirrored (by omega)

theorem longAt_mirrored (hi : i < bars.length) (henough : 2 ≤ bars.length) :
    strategy.LongAt trend (tick.mirrored c) (bars.map (OhlcObject.mirrored c)) i ↔
      strategy.ShortAt trend tick bars i := by
  have hlater (c1 : OhlcObject) : ((fun bar => Decidable.decide (bar.low ≤ (c1.mirrored c).high)) ∘
      OhlcObject.mirrored c) = fun bar => Decidable.decide (c1.low ≤ bar.high) := by
    funext bar
    exact decide_eq_decide.mpr (sub_le_sub_iff_left c)
  unfold LongAt ShortAt
  dsimp only
  rw [List.length_map, later_mirrored, List.any_map, barAt_mirrored hi,
    barAt_mirrored (by omega : i - 2 < bars.length), hlater,
    barAt_mirrored (by omega : bars.length - 2 < bars.length)]
  have hgap : ((barAt bars i).mirrored c).low - ((barAt bars (i - 2)).mirrored c).high =
      (barAt bars (i - 2)).low - (barAt bars i).high := sub_sub_sub_cancel_left _ _ c
  rw [hgap]
  simp only [OhlcObject.mirrored, PriceData.mirrored_symbol, PriceData.mirrored_ask,
    sub_lt_sub_iff_left, sub_le_sub_iff_left]

theorem shortAt_mirrored (hi : i < bars.length) (henough : 2 ≤ bars.length) :
    strategy.ShortAt trend (tick.mirrored c) (bars.map (OhlcObject.mirrored c)) i ↔
      strategy.LongAt trend tick bars i := by
  have hback : strategy.LongAt trend ((tick.mirrored c).mirrored c)
      ((bars.map (OhlcObject.mirrored c)).map (OhlcObject.mirrored c)) i ↔
        strategy.ShortAt trend (tick.mirrored c) (bars.map (OhlcObject.mirrored c)) i :=
    longAt_mirrored (by rwa [List.length_map]) (by rwa [List.length_map])
  rw [PriceData.mirrored_mirrored, bars_mirrored_mirrored] at hback
  exact hback.symm

theorem gapAt_mirrored {up down : Bool} (hi : i < bars.length) (henough : 2 ≤ bars.length)
    (htrend : ¬ (up ∧ down)) :
    strategy.gapAt down up (tick.mirrored c) (bars.map (OhlcObject.mirrored c)) i =
      (strategy.gapAt up down tick bars i).map .opposite := by
  rw [gapAt_eq, gapAt_eq, ← mirrors_longFirst.opposite]
  · simp only [longFirst, longAt_mirrored hi henough, shortAt_mirrored hi henough]
  · rintro ⟨hlong, hshort⟩
    exact htrend ⟨hlong.1, hshort.1⟩

theorem gapScan_mirrored {up down : Bool} (henough : 2 ≤ bars.length) (htrend : ¬ (up ∧ down)) :
    strategy.gapScan down up (tick.mirrored c) (bars.map (OhlcObject.mirrored c)) =
      (strategy.gapScan up down tick bars).map .opposite := by
  unfold gapScan
  dsimp only
  rw [List.length_map]
  apply findSome?_opposite
  intro back hback
  exact gapAt_mirrored (by omega) henough htrend

/-- The scaled close and the sum of the closes are reflected about the same number. -/
theorem trend_mirrored (hperiod : 1 ≤ strategy.htfSmaPeriod)
    (henough : strategy.htfSmaPeriod + 2 ≤ bars.length) :
    strategy.trend (bars.map (OhlcObject.mirrored c)) =
      (c * strategy.htfSmaPeriod - (strategy.trend bars).1,
        c * strategy.htfSmaPeriod - (strategy.trend bars).2) := by
  unfold trend
  dsimp only
  rw [List.length_map, barAt_mirrored (by omega)]
  have hcloses : ((List.range strategy.htfSmaPeriod.toNat).map fun (back : ℕ) =>
      (barAt (bars.map (OhlcObject.mirrored c)) (bars.length - 2 - back)).close) =
        (List.range strategy.htfSmaPeriod.toNat).map fun (back : ℕ) =>
          c - (barAt bars (bars.length - 2 - back)).close := by
    apply List.map_congr_left
    intro back _
    rw [barAt_mirrored (by omega)]
    rfl
  rw [hcloses, sum_map_sub, List.length_range, Int.toNat_of_nonneg (by omega)]
  exact Prod.ext (sub_mul _ _ _) rfl

theorem decide_eq : strategy.decide tick store =
    (store.window tick.symbol strategy.fvgCfg).bind fun fvgBars =>
      (store.window tick.symbol strategy.htfCfg).bind fun htfBars =>
        strategy.gapScan ((strategy.trend htfBars).2 < (strategy.trend htfBars).1)
          ((strategy.trend htfBars).1 < (strategy.trend htfBars).2) tick fvgBars := by
  unfold decide BarStore.window
  cases store.find tick.symbol strategy.fvgCfg.minutes with
  | none => rfl
  | some fvgSeries =>
    cases store.find tick.symbol strategy.htfCfg.minutes with
    | none =>
      dsimp only
      split_ifs <;> rfl
    | some htfSeries =>
      dsimp only
      by_cases hfvg : fvgSeries.length < strategy.fvgCfg.count.toNat
      · rw [if_pos (.inl hfvg), if_pos hfvg]
        rfl
      · by_cases hhtf : htfSeries.length < strategy.htfCfg.count.toNat
        · rw [if_pos (.inr hhtf), if_neg hfvg, if_pos hhtf]
          rfl
        · rw [if_neg (not_or.mpr ⟨hfvg, hhtf⟩), if_neg hfvg, if_neg hhtf]
          rfl

theorem decide_mirrored (haccepted : strategy.Accepted) :
    strategy.decide (tick.mirrored c) (store.mirrored c) =
      (strategy.decide tick store).map .opposite := by
  obtain ⟨hlookback, hperiod, -, hwide, hwideHtf⟩ := haccepted
  rw [decide_eq, decide_eq, PriceData.mirrored_symbol, window_mirrored, window_mirrored]
  cases hfvg : store.window tick.symbol strategy.fvgCfg with
  | none => rfl
  | some fvgBars =>
    cases hhtf : store.window tick.symbol strategy.htfCfg with
    | none => rfl
    | some htfBars =>
      have hlength := length_of_window hfvg
      have hlengthHtf := length_of_window hhtf
      simp only [Option.map_some, Option.bind_some]
      rw [trend_mirrored hperiod (by omega)]
      simp only [sub_lt_sub_iff_left]
      apply gapScan_mirrored (by omega)
      simp only [decide_eq_true_eq]
      omega

end FvgStrategy

/-! ## The fade -/

namespace Atr

variable {c : ℤ}

theorem trueRange_mirrored (prevClose : ℤ) (candle : OhlcObject) :
    trueRange (c - prevClose) (candle.mirrored c) = trueRange prevClose candle := by
  simp only [trueRange, OhlcObject.mirrored]
  omega

theorem trueRanges_mirrored (candles : List OhlcObject) :
    trueRanges (candles.map (OhlcObject.mirrored c)) = trueRanges candles := by
  induction candles with
  | nil => rfl
  | cons previous candles ih =>
    cases candles with
    | nil => rfl
    | cons candle candles =>
      rw [trueRanges, ← ih, ← trueRange_mirrored previous.close candle]
      rfl

theorem calculate_mirrored (candles : List OhlcObject) (period : ℕ) :
    calculate (candles.map (OhlcObject.mirrored c)) period = calculate candles period := by
  unfold calculate
  rw [List.length_map, rtake_mirrored, trueRanges_mirrored]

end Atr

namespace KeltnerFadeStrategy

variable (strategy : KeltnerFadeStrategy)

/-- The middle of the band, times the period and ten. -/
def centre (closedBars : List OhlcObject) : ℤ := strategy.closeSum closedBars * 10

/-- Half the width of the band, on the same scale. -/
def offset (closedBars : List OhlcObject) : ℤ :=
  strategy.bandAtrMultTenths * Atr.calculate closedBars strategy.bandSmaPeriod.toNat *
    strategy.bandSmaPeriod

/-- The ask is below the band. -/
def Below (tick : PriceData) (closedBars : List OhlcObject) : Prop :=
  0 < Atr.calculate closedBars strategy.bandSmaPeriod.toNat ∧
    strategy.scaled tick.ask <
      toInt64 (toInt64 (strategy.centre closedBars) - toInt64 (strategy.offset closedBars))

/-- The bid is above the band. -/
def Above (tick : PriceData) (closedBars : List OhlcObject) : Prop :=
  0 < Atr.calculate closedBars strategy.bandSmaPeriod.toNat ∧
    toInt64 (toInt64 (strategy.centre closedBars) + toInt64 (strategy.offset closedBars)) <
      strategy.scaled tick.bid

/-- Every number that is computed is a 64-bit one. -/
def Computes (tick : PriceData) (closedBars : List OhlcObject) : Prop :=
  ∀ value ∈ [tick.ask * strategy.bandSmaPeriod * 10, tick.bid * strategy.bandSmaPeriod * 10,
    strategy.centre closedBars, strategy.offset closedBars,
    strategy.centre closedBars - strategy.offset closedBars,
    strategy.centre closedBars + strategy.offset closedBars], -2 ^ 63 ≤ value ∧ value < 2 ^ 63

/-- On the strategy's window of a store. -/
def ComputesOn (tick : PriceData) (store : BarStore) : Prop :=
  ∀ bars ∈ store.window tick.symbol strategy.signalCfg, strategy.Computes tick bars.dropLast

/-- The quote is beyond both ends of the band. -/
def Clash (tick : PriceData) (store : BarStore) : Prop :=
  ∃ bars ∈ store.window tick.symbol strategy.signalCfg,
    strategy.Below tick bars.dropLast ∧ strategy.Above tick bars.dropLast

variable {strategy} {c : ℤ} {tick : PriceData} {store : BarStore} {bars : List OhlcObject}

instance : Decidable (strategy.Below tick bars) := inferInstanceAs (Decidable (_ ∧ _))

instance : Decidable (strategy.Above tick bars) := inferInstanceAs (Decidable (_ ∧ _))

theorem fade_eq : strategy.fade tick bars =
    longFirst (strategy.Below tick bars) (strategy.Above tick bars) := by
  unfold fade longFirst
  dsimp only
  by_cases hflat : Atr.calculate bars strategy.bandSmaPeriod.toNat ≤ 0
  · rw [if_pos hflat, if_neg fun h : strategy.Below tick bars => not_lt.mpr hflat h.1,
      if_neg fun h : strategy.Above tick bars => not_lt.mpr hflat h.1]
  · have hbelow : strategy.Below tick bars ↔ _ := and_iff_right (not_le.mp hflat)
    have habove : strategy.Above tick bars ↔ _ := and_iff_right (not_le.mp hflat)
    rw [if_neg hflat]
    simp only [hbelow, habove]
    rfl

theorem below_iff (h : strategy.Computes tick bars) : strategy.Below tick bars ↔
    0 < Atr.calculate bars strategy.bandSmaPeriod.toNat ∧
      tick.ask * strategy.bandSmaPeriod * 10 < strategy.centre bars - strategy.offset bars := by
  simp only [Computes, List.forall_mem_cons] at h
  obtain ⟨hask, -, hcentre, hoffset, hlower, -, -⟩ := h
  rw [Below, scaled, toInt64_of_small hask.1 hask.2, toInt64_of_small hcentre.1 hcentre.2,
    toInt64_of_small hoffset.1 hoffset.2, toInt64_of_small hlower.1 hlower.2]

theorem above_iff (h : strategy.Computes tick bars) : strategy.Above tick bars ↔
    0 < Atr.calculate bars strategy.bandSmaPeriod.toNat ∧
      strategy.centre bars + strategy.offset bars < tick.bid * strategy.bandSmaPeriod * 10 := by
  simp only [Computes, List.forall_mem_cons] at h
  obtain ⟨-, hbid, hcentre, hoffset, -, hupper, -⟩ := h
  rw [Above, scaled, toInt64_of_small hbid.1 hbid.2, toInt64_of_small hcentre.1 hcentre.2,
    toInt64_of_small hoffset.1 hoffset.2, toInt64_of_small hupper.1 hupper.2]

theorem offset_mirrored :
    strategy.offset (bars.map (OhlcObject.mirrored c)) = strategy.offset bars := by
  rw [offset, Atr.calculate_mirrored, offset]

theorem centre_mirrored (hperiod : 1 ≤ strategy.bandSmaPeriod)
    (henough : strategy.bandSmaPeriod ≤ bars.length) :
    strategy.centre (bars.map (OhlcObject.mirrored c)) =
      c * strategy.bandSmaPeriod * 10 - strategy.centre bars := by
  have hcloses : OhlcObject.close ∘ OhlcObject.mirrored c = fun bar => c - bar.close := rfl
  rw [centre, closeSum, rtake_mirrored, List.map_map, hcloses, sum_map_sub,
    length_rtake (by omega), Int.toNat_of_nonneg (by omega), sub_mul]
  rfl

theorem fade_mirrored (hperiod : 1 ≤ strategy.bandSmaPeriod)
    (henough : strategy.bandSmaPeriod ≤ bars.length) (h : strategy.Computes tick bars)
    (h' : strategy.Computes (tick.mirrored c) (bars.map (OhlcObject.mirrored c))) :
    Mirrors (strategy.Below tick bars ∧ strategy.Above tick bars) (strategy.fade tick bars)
      (strategy.fade (tick.mirrored c) (bars.map (OhlcObject.mirrored c))) := by
  have hbelow : strategy.Below (tick.mirrored c) (bars.map (OhlcObject.mirrored c)) ↔
      strategy.Above tick bars := by
    rw [below_iff h', above_iff h, Atr.calculate_mirrored, offset_mirrored,
      centre_mirrored hperiod henough, PriceData.mirrored_ask, sub_mul, sub_mul]
    omega
  have habove : strategy.Above (tick.mirrored c) (bars.map (OhlcObject.mirrored c)) ↔
      strategy.Below tick bars := by
    rw [above_iff h', below_iff h, Atr.calculate_mirrored, offset_mirrored,
      centre_mirrored hperiod henough, PriceData.mirrored_bid, sub_mul, sub_mul]
    omega
  rw [fade_eq, fade_eq]
  simp only [hbelow, habove]
  exact mirrors_longFirst

theorem decide_eq : strategy.decide tick store =
    (store.window tick.symbol strategy.signalCfg).bind fun bars =>
      strategy.fade tick bars.dropLast := by
  unfold decide BarStore.window
  cases store.find tick.symbol strategy.signalCfg.minutes with
  | none => rfl
  | some series =>
    dsimp only
    split_ifs <;> rfl

theorem decide_mirrored (haccepted : strategy.Accepted) (h : strategy.ComputesOn tick store)
    (h' : strategy.ComputesOn (tick.mirrored c) (store.mirrored c)) :
    Mirrors (strategy.Clash tick store) (strategy.decide tick store)
      (strategy.decide (tick.mirrored c) (store.mirrored c)) := by
  obtain ⟨hperiod, hwide⟩ := haccepted
  unfold ComputesOn at h h'
  rw [PriceData.mirrored_symbol, window_mirrored] at h'
  rw [decide_eq, decide_eq, PriceData.mirrored_symbol, window_mirrored, Clash]
  cases hwindow : store.window tick.symbol strategy.signalCfg with
  | none => exact .none (by simp)
  | some bars =>
    rw [hwindow] at h h'
    have hlength := length_of_window hwindow
    have hcomputes := h' _ rfl
    rw [← List.map_dropLast] at hcomputes
    simp only [Option.map_some, Option.bind_some, Option.mem_some_iff, exists_eq_left',
      ← List.map_dropLast]
    refine fade_mirrored hperiod ?_ (h bars rfl) hcomputes
    rw [List.length_dropLast]
    omega

/-- A quote whose bid is at most its ask is beyond one end of the band at most. -/
theorem not_clash (hperiod : 1 ≤ strategy.bandSmaPeriod) (hmult : 1 ≤ strategy.bandAtrMultTenths)
    (h : strategy.ComputesOn tick store) (hquote : tick.bid ≤ tick.ask) :
    ¬ strategy.Clash tick store := by
  rintro ⟨bars, hbars, hbelow, habove⟩
  have hcomputes := h bars hbars
  rw [below_iff hcomputes] at hbelow
  rw [above_iff hcomputes] at habove
  have hoffset : 0 ≤ strategy.offset bars.dropLast :=
    mul_nonneg (mul_nonneg (by omega) hbelow.1.le) (by omega)
  have hscaled : tick.bid * strategy.bandSmaPeriod ≤ tick.ask * strategy.bandSmaPeriod :=
    mul_le_mul_of_nonneg_right hquote (by omega)
  omega

theorem make_multiplier {config : TradingDefinitions.StrategyConfig}
    (h : make config = .ok strategy) : 1 ≤ strategy.bandAtrMultTenths := by
  unfold make at h
  split at h
  · cases h
  · split_ifs at h with hminutes
    split at h
    · cases h
    · dsimp only at h
      split_ifs at h with hpositive hcount
      cases h
      exact not_lt.mp (not_or.mp hpositive).2

end KeltnerFadeStrategy

/-! ## The contracted bar -/

namespace SqueezeBreakoutStrategy

variable (strategy : SqueezeBreakoutStrategy)

/-- The buffer in points. -/
def buffer (tick : PriceData) : ℤ := toInt32 (strategy.bufferPips * SymbolScale.get tick.symbol)

/-- The levels beside every bar are 32-bit numbers. -/
def Computes (tick : PriceData) (closedBars : List OhlcObject) : Prop :=
  ∀ bar ∈ closedBars, ∀ level ∈ [bar.high + strategy.buffer tick, bar.low - strategy.buffer tick],
    -2 ^ 31 ≤ level ∧ level < 2 ^ 31

variable {strategy} {c : ℤ} {tick : PriceData} {bars : List OhlcObject} {index : ℕ}
  {up down : Bool}

theorem isPatternAt_mirrored (hindex : index < bars.length) :
    strategy.isPatternAt (bars.map (OhlcObject.mirrored c)) index =
      strategy.isPatternAt bars index := by
  have hrange (i : ℕ) (hi : i < bars.length) :
      (barAt (bars.map (OhlcObject.mirrored c)) i).high -
        (barAt (bars.map (OhlcObject.mirrored c)) i).low =
          (barAt bars i).high - (barAt bars i).low := by
    rw [barAt_mirrored hi]
    exact sub_sub_sub_cancel_left _ _ c
  unfold isPatternAt
  split_ifs with hinside
  · rw [barAt_mirrored hindex, barAt_mirrored (by omega), Bool.and_comm]
    simp only [OhlcObject.mirrored, sub_le_sub_iff_left]
  · simp only [hrange index hindex, hrange _ (lt_of_le_of_lt (Nat.sub_le index _) hindex)]

theorem signalAt_eq : strategy.signalAt up down tick bars index =
    longFirst
      (strategy.isPatternAt bars index ∧ up ∧
        toInt32 ((barAt bars index).high + strategy.buffer tick) < tick.bid)
      (strategy.isPatternAt bars index ∧ down ∧
        tick.ask < toInt32 ((barAt bars index).low - strategy.buffer tick)) := by
  unfold signalAt longFirst
  cases strategy.isPatternAt bars index
  · simp
  · simp [buffer]

theorem signalAt_mirrored (hindex : index < bars.length) (htrend : ¬ (up ∧ down))
    (h : strategy.Computes tick bars)
    (h' : strategy.Computes (tick.mirrored c) (bars.map (OhlcObject.mirrored c))) :
    strategy.signalAt down up (tick.mirrored c) (bars.map (OhlcObject.mirrored c)) index =
      (strategy.signalAt up down tick bars index).map .opposite := by
  have hlevels := h (barAt bars index) (barAt_mem hindex)
  have hlevels' := h' ((barAt bars index).mirrored c) (List.mem_map_of_mem (barAt_mem hindex))
  simp only [List.forall_mem_cons] at hlevels hlevels'
  obtain ⟨hhigh, hlow, -⟩ := hlevels
  obtain ⟨hhigh', hlow', -⟩ := hlevels'
  have hbuffer : strategy.buffer (tick.mirrored c) = strategy.buffer tick := rfl
  rw [hbuffer] at hhigh' hlow'
  have hlong : toInt32 (((barAt bars index).mirrored c).high + strategy.buffer tick) <
      c - tick.ask ↔ tick.ask < toInt32 ((barAt bars index).low - strategy.buffer tick) := by
    rw [toInt32_of_small hhigh'.1 hhigh'.2, toInt32_of_small hlow.1 hlow.2,
      OhlcObject.mirrored_high]
    omega
  have hshort : c - tick.bid < toInt32 (((barAt bars index).mirrored c).low - strategy.buffer tick) ↔
      toInt32 ((barAt bars index).high + strategy.buffer tick) < tick.bid := by
    rw [toInt32_of_small hhigh.1 hhigh.2, toInt32_of_small hlow'.1 hlow'.2,
      OhlcObject.mirrored_low]
    omega
  rw [signalAt_eq, signalAt_eq, ← mirrors_longFirst.opposite]
  · simp only [isPatternAt_mirrored hindex, barAt_mirrored hindex, hbuffer,
      PriceData.mirrored_ask, PriceData.mirrored_bid, hlong, hshort]
  · rintro ⟨hlong, hshort⟩
    exact htrend ⟨hlong.2.1, hshort.2.1⟩

theorem patternScan_mirrored (haccepted : strategy.Accepted)
    (henough : bars.length + 1 = strategy.signalCfg.count) (htrend : ¬ (up ∧ down))
    (h : strategy.Computes tick bars)
    (h' : strategy.Computes (tick.mirrored c) (bars.map (OhlcObject.mirrored c))) :
    strategy.patternScan down up (tick.mirrored c) (bars.map (OhlcObject.mirrored c)) =
      (strategy.patternScan up down tick bars).map .opposite := by
  obtain ⟨hlookback, hvalid, -, hwide⟩ := haccepted
  unfold patternScan
  rw [List.length_map]
  apply findSome?_opposite
  intro back _
  exact signalAt_mirrored (by omega) htrend h h'

end SqueezeBreakoutStrategy

/-! ## The opening range -/

namespace OpenRange

attribute [ext] Extent

def Extent.mirrored (c : ℤ) (extent : Extent) : Extent :=
  ⟨c - extent.low, c - extent.high, extent.seen⟩

namespace Setup

variable (setup : Setup) (tick : PriceData)

/-- The range that is traded, at a tick at which one is. -/
def range (store : BarStore) : Option Extent :=
  if ¬ setup.InEntryWindow tick then none
  else
    match store.find tick.symbol setup.signal.minutes with
    | none => none
    | some series =>
      if series.length < 2 then none
      else
        match series.head? with
        | none => none
        | some front =>
          if setup.Uncovered tick front then none
          else if !(setup.extent tick series).seen then none
          else some (setup.extent tick series)

def Above (extent : Extent) : Prop := toInt32 (extent.high + setup.buffer tick) < tick.bid

def Below (extent : Extent) : Prop := tick.ask < toInt32 (extent.low - setup.buffer tick)

/-- The prices of the closed bars and the levels beside the range are 32-bit numbers. -/
structure Computes (store : BarStore) : Prop where
  prices : ∀ series ∈ store.find tick.symbol setup.signal.minutes, Narrow series.dropLast
  levels : ∀ extent ∈ setup.range tick store,
    ∀ level ∈ [extent.high + setup.buffer tick, extent.low - setup.buffer tick],
      -2 ^ 31 ≤ level ∧ level < 2 ^ 31

/-- The quote is beyond both ends of the range. -/
def Clash (store : BarStore) : Prop :=
  ∃ extent ∈ setup.range tick store, setup.Above tick extent ∧ setup.Below tick extent

variable {setup} {tick} {c : ℤ} {store : BarStore} {series : List OhlcObject} {extent : Extent}

instance : Decidable (setup.Above tick extent) := inferInstanceAs (Decidable (_ < _))

instance : Decidable (setup.Below tick extent) := inferInstanceAs (Decidable (_ < _))

theorem breakout_eq : setup.breakout tick extent =
    longFirst (setup.Above tick extent) (setup.Below tick extent) := by
  unfold breakout longFirst
  dsimp only
  rw [toInt32_add, toInt32_sub]
  rfl

theorem decide_eq : setup.decide tick store =
    (setup.range tick store).bind (setup.breakout tick) := by
  unfold Setup.decide range
  split_ifs with hwindow
  · cases store.find tick.symbol setup.signal.minutes with
    | none => rfl
    | some series =>
      dsimp only
      by_cases hshort : series.length < 2
      · rw [if_pos hshort, if_pos hshort]
        rfl
      · rw [if_neg hshort, if_neg hshort]
        cases series.head? with
        | none => rfl
        | some front =>
          dsimp only
          split_ifs <;> rfl
  · rfl

theorem seen_mirrored :
    (setup.extent (tick.mirrored c) (series.map (OhlcObject.mirrored c))).seen =
      (setup.extent tick series).seen := by
  rw [Bool.eq_iff_iff, Setup.extent, Setup.extent, seen_iff, seen_iff, ← List.map_dropLast]
  simp only [List.mem_map, exists_exists_and_eq_and]
  exact Iff.rfl

theorem extent_mirrored (h : Narrow series.dropLast)
    (h' : Narrow (series.map (OhlcObject.mirrored c)).dropLast)
    (hseen : (setup.extent tick series).seen = true) :
    setup.extent (tick.mirrored c) (series.map (OhlcObject.mirrored c)) =
      (setup.extent tick series).mirrored c := by
  have hseen' : (setup.extent (tick.mirrored c)
      (series.map (OhlcObject.mirrored c))).seen = true := seen_mirrored.trans hseen
  have hhigh : (setup.extent (tick.mirrored c) (series.map (OhlcObject.mirrored c))).high =
      c - (setup.extent tick series).low := by
    apply eq_of_forall_gt_iff
    intro bound
    rw [extent_high_lt_iff h' hseen', sub_lt_comm, lt_extent_low_iff h hseen, ← List.map_dropLast,
      List.forall_mem_map]
    simp only [OhlcObject.mirrored_high, sub_lt_comm]
    exact Iff.rfl
  have hlow : (setup.extent (tick.mirrored c) (series.map (OhlcObject.mirrored c))).low =
      c - (setup.extent tick series).high := by
    apply eq_of_forall_lt_iff
    intro bound
    rw [lt_extent_low_iff h' hseen', lt_sub_comm, extent_high_lt_iff h hseen, ← List.map_dropLast,
      List.forall_mem_map]
    simp only [OhlcObject.mirrored_low, lt_sub_comm]
    exact Iff.rfl
  exact Extent.ext hhigh hlow seen_mirrored

theorem range_mirrored (h : setup.Computes tick store)
    (h' : setup.Computes (tick.mirrored c) (store.mirrored c)) :
    setup.range (tick.mirrored c) (store.mirrored c) =
      (setup.range tick store).map (Extent.mirrored c) := by
  have hprices := h.prices
  have hprices' := h'.prices
  rw [PriceData.mirrored_symbol, find_mirrored] at hprices'
  unfold range
  rw [PriceData.mirrored_symbol, find_mirrored]
  have hwindow : setup.InEntryWindow (tick.mirrored c) ↔ setup.InEntryWindow tick := Iff.rfl
  simp only [hwindow]
  split_ifs with hopen
  · cases hfind : store.find tick.symbol setup.signal.minutes with
    | none => rfl
    | some series =>
      rw [hfind] at hprices hprices'
      simp only [Option.map_some, List.length_map, List.head?_map, seen_mirrored]
      by_cases hshort : series.length < 2
      · rw [if_pos hshort, if_pos hshort]
        rfl
      · rw [if_neg hshort, if_neg hshort]
        cases series.head? with
        | none => rfl
        | some front =>
          have hcovered : setup.Uncovered (tick.mirrored c) (front.mirrored c) ↔
              setup.Uncovered tick front := Iff.rfl
          simp only [Option.map_some, hcovered]
          split_ifs with huncovered hseen
          · rfl
          · rfl
          · rw [extent_mirrored (hprices _ rfl) (hprices' _ rfl) (by simpa using hseen)]
            rfl
  · rfl

theorem decide_mirrored (h : setup.Computes tick store)
    (h' : setup.Computes (tick.mirrored c) (store.mirrored c)) :
    Mirrors (setup.Clash tick store) (setup.decide tick store)
      (setup.decide (tick.mirrored c) (store.mirrored c)) := by
  have hlevels := h.levels
  have hlevels' := h'.levels
  rw [range_mirrored h h'] at hlevels'
  rw [decide_eq, decide_eq, range_mirrored h h', Clash]
  cases hrange : setup.range tick store with
  | none => exact .none (by simp)
  | some extent =>
    rw [hrange] at hlevels hlevels'
    have hfits := hlevels _ rfl
    have hfits' := hlevels' _ rfl
    simp only [List.forall_mem_cons] at hfits hfits'
    obtain ⟨hhigh, hlow, -⟩ := hfits
    obtain ⟨hhigh', hlow', -⟩ := hfits'
    have hbuffer : setup.buffer (tick.mirrored c) = setup.buffer tick := rfl
    have habove : setup.Above (tick.mirrored c) (extent.mirrored c) ↔ setup.Below tick extent := by
      unfold Above Below
      rw [toInt32_of_small hhigh'.1 hhigh'.2, toInt32_of_small hlow.1 hlow.2, hbuffer,
        PriceData.mirrored_bid]
      simp only [Extent.mirrored]
      omega
    have hbelow : setup.Below (tick.mirrored c) (extent.mirrored c) ↔ setup.Above tick extent := by
      unfold Above Below
      rw [toInt32_of_small hhigh.1 hhigh.2, toInt32_of_small hlow'.1 hlow'.2, hbuffer,
        PriceData.mirrored_ask]
      simp only [Extent.mirrored]
      omega
    simp only [Option.map_some, Option.bind_some, Option.mem_some_iff, exists_eq_left',
      breakout_eq, habove, hbelow]
    exact mirrors_longFirst

theorem range_eq_some (h : setup.range tick store = some extent) :
    ∃ series, store.find tick.symbol setup.signal.minutes = some series ∧
      (setup.extent tick series).seen = true ∧ setup.extent tick series = extent := by
  unfold range at h
  split_ifs at h with hwindow
  split at h
  · cases h
  · rename_i series hseries
    by_cases hshort : series.length < 2
    · rw [if_pos hshort] at h
      cases h
    · rw [if_neg hshort] at h
      split at h
      · cases h
      · split_ifs at h with hcovered hseen
        exact ⟨series, hseries, by simpa using hseen, Option.some.inj h⟩

/-- The lows of a range are not above its highs, so a quote whose bid is at most its ask is beyond
one end at most. -/
theorem not_clash (haccepted : setup.Accepted) (h : setup.Computes tick store)
    (hquote : tick.bid ≤ tick.ask)
    (hbars : ∀ series ∈ store.find tick.symbol setup.signal.minutes, ∀ bar ∈ series,
      bar.low ≤ bar.high) : ¬ setup.Clash tick store := by
  rintro ⟨extent, hextent, habove, hbelow⟩
  obtain ⟨series, hseries, hseen, rfl⟩ := range_eq_some hextent
  have hnarrow := h.prices series hseries
  have hfits := h.levels _ hextent
  simp only [List.forall_mem_cons] at hfits
  obtain ⟨hhigh, hlow, -⟩ := hfits
  rw [Above, toInt32_of_small hhigh.1 hhigh.2, ← lt_sub_iff_add_lt,
    extent_high_lt_iff hnarrow hseen] at habove
  rw [Below, toInt32_of_small hlow.1 hlow.2, lt_sub_iff_add_lt,
    lt_extent_low_iff hnarrow hseen] at hbelow
  obtain ⟨bar, hbar, hstarted⟩ := exists_started hseen
  have hbuffer := haccepted.buffer_nonneg tick
  have hbar_high := habove bar hbar hstarted
  have hbar_low := hbelow bar hbar hstarted
  have hordered := hbars series hseries bar (List.mem_of_mem_dropLast hbar)
  omega

end Setup

end OpenRange

/-! ## The strategies -/

/-- A quote and bars as the market has them. -/
structure Uncrossed (tick : PriceData) (store : BarStore) (minutes : ℤ) : Prop where
  quote : tick.bid ≤ tick.ask
  bars : ∀ series ∈ store.find tick.symbol minutes, ∀ bar ∈ series, bar.low ≤ bar.high

/-- The gap strategy and the scan for contracted bars take the other side on mirrored prices. So
do the fade and the two breakouts of an opening range, unless the quote is beyond both of their
levels. Then they are long in either run, and the quote or the bars are crossed. -/
theorem decisions_mirrored (config : TradingDefinitions.StrategyConfig) (tick : PriceData)
    (store : BarStore) (c : ℤ) :
    (∀ fvg, FvgStrategy.make config = .ok fvg → fvg.Fits →
      fvg.decide (tick.mirrored c) (store.mirrored c) = (fvg.decide tick store).map .opposite) ∧
    (∀ squeeze, SqueezeBreakoutStrategy.make config = .ok squeeze → squeeze.Fits →
      ∀ (closedBars : List OhlcObject) (close ema : ℤ),
        closedBars.length + 1 = squeeze.signalCfg.count → squeeze.Computes tick closedBars →
        squeeze.Computes (tick.mirrored c) (closedBars.map (OhlcObject.mirrored c)) →
          squeeze.patternScan (close < ema) (ema < close) (tick.mirrored c)
            (closedBars.map (OhlcObject.mirrored c)) =
              (squeeze.patternScan (ema < close) (close < ema) tick closedBars).map .opposite) ∧
    (∀ fade, KeltnerFadeStrategy.make config = .ok fade → fade.Fits →
      fade.ComputesOn tick store → fade.ComputesOn (tick.mirrored c) (store.mirrored c) →
        Mirrors (fade.Clash tick store) (fade.decide tick store)
          (fade.decide (tick.mirrored c) (store.mirrored c)) ∧
        (tick.bid ≤ tick.ask → ¬ fade.Clash tick store)) ∧
    (∀ setup, OpenRange.Constructed config setup → setup.Computes tick store →
      setup.Computes (tick.mirrored c) (store.mirrored c) →
        Mirrors (setup.Clash tick store) (setup.decide tick store)
          (setup.decide (tick.mirrored c) (store.mirrored c)) ∧
        (Uncrossed tick store setup.signal.minutes → ¬ setup.Clash tick store)) := by
  refine ⟨?_, ?_, ?_, ?_⟩
  · intro fvg hmake hfits
    exact FvgStrategy.decide_mirrored (FvgStrategy.make_accepted hmake hfits)
  · intro squeeze hmake hfits closedBars close ema henough h h'
    apply SqueezeBreakoutStrategy.patternScan_mirrored
      (SqueezeBreakoutStrategy.make_accepted hmake hfits) henough _ h h'
    simp only [decide_eq_true_eq]
    omega
  · intro fade hmake hfits h h'
    have haccepted := KeltnerFadeStrategy.make_accepted hmake hfits
    refine ⟨KeltnerFadeStrategy.decide_mirrored haccepted h h', ?_⟩
    exact KeltnerFadeStrategy.not_clash haccepted.period
      (KeltnerFadeStrategy.make_multiplier hmake) h
  · intro setup hconstructed h h'
    refine ⟨OpenRange.Setup.decide_mirrored h h', ?_⟩
    rintro ⟨hquote, hbars⟩
    exact OpenRange.Setup.not_clash hconstructed.accepted h hquote hbars

/-- A config that all the constructors accept. -/
def mirrorConfig : TradingDefinitions.StrategyConfig where
  uuid := "mirror"
  tradingVariables := { strategy := "KeltnerFadeStrategy" }
  ohlcVariables := [⟨4, 480⟩, ⟨4, 480⟩]
  rangeVariables := []
  strategyVariables :=
    { fvgStrategyVariables := some ⟨1, 1, 1, 0, 0⟩
      squeezeBreakoutVariables := some ⟨2, 1, 0, 0⟩
      keltnerFadeVariables := some ⟨1, 1, 0⟩
      sessionRangeBreakoutVariables := some ⟨0, 60, 0⟩ }

/-- A flat market up to the London open of a winter day. -/
def flatStore : BarStore where
  specs := [⟨480, 4⟩]
  bySymbol := (∅ : AList fun _ : String => List (List OhlcObject)).insert "EURUSD"
    [[-16, -8, 0, 8].map fun hours => ⟨hours * OpenRange.hour, 100, 100, 110, 90, true⟩]
  rangeSpecs := []
  rangeBySymbol := ∅

def openTick (ask bid : ℤ) : PriceData := ⟨ask, bid, 8 * OpenRange.hour, "EURUSD"⟩

/-- Two wide bars and a narrow one. -/
def narrowing : List OhlcObject := [⟨0, 100, 100, 110, 90, true⟩, ⟨1, 100, 100, 110, 90, true⟩,
  ⟨2, 100, 100, 105, 95, true⟩]

set_option maxRecDepth 4000 in
theorem decisions_mirrored_open :
    (∃ fvg, FvgStrategy.make mirrorConfig = .ok fvg ∧
      fvg.decide ((openTick 125 120).mirrored 200) (flatStore.mirrored 200) = none) ∧
    (∃ squeeze, SqueezeBreakoutStrategy.make mirrorConfig = .ok squeeze ∧
      squeeze.patternScan true false (openTick 125 120) narrowing = some .long ∧
      squeeze.patternScan false true ((openTick 125 120).mirrored 200)
        (narrowing.map (OhlcObject.mirrored 200)) = some .short) ∧
    (∃ fade, KeltnerFadeStrategy.make mirrorConfig = .ok fade ∧
      fade.decide (openTick 125 120) flatStore = some .short ∧
      fade.decide ((openTick 125 120).mirrored 200) (flatStore.mirrored 200) = some .long) ∧
    (∃ session, SessionRangeBreakoutStrategy.make mirrorConfig = .ok session ∧
      session.decide (openTick 125 120) flatStore = some .long ∧
      session.decide ((openTick 125 120).mirrored 200) (flatStore.mirrored 200) = some .short) := by
  obtain ⟨hfvg, hsqueeze, hfade, hsetup⟩ :=
    decisions_mirrored mirrorConfig (openTick 125 120) flatStore 200
  refine ⟨⟨_, rfl, hfvg _ rfl ⟨by decide, by decide⟩⟩, ⟨_, rfl, by decide, ?_⟩,
    ⟨_, rfl, by decide, ?_⟩, ⟨_, rfl, by decide, ?_⟩⟩
  · exact hsqueeze _ rfl (by unfold SqueezeBreakoutStrategy.Fits; decide) narrowing 1 0 rfl
      (by unfold SqueezeBreakoutStrategy.Computes; decide)
      (by unfold SqueezeBreakoutStrategy.Computes; decide)
  · have hcomputes : KeltnerFadeStrategy.ComputesOn ⟨⟨480, 4⟩, 1, 1, 0⟩ (openTick 125 120)
        flatStore := by
      rintro bars ⟨⟩
      unfold KeltnerFadeStrategy.Computes
      decide
    have hcomputes' : KeltnerFadeStrategy.ComputesOn ⟨⟨480, 4⟩, 1, 1, 0⟩
        ((openTick 125 120).mirrored 200) (flatStore.mirrored 200) := by
      rintro bars ⟨⟩
      unfold KeltnerFadeStrategy.Computes
      decide
    obtain ⟨hmirrors, hclash⟩ := hfade _ rfl (by unfold KeltnerFadeStrategy.Fits; decide)
      hcomputes hcomputes'
    exact hmirrors.opposite (hclash (by decide))
  · have hcomputes : OpenRange.Setup.Computes (SessionRangeBreakoutStrategy.setup ⟨⟨480, 4⟩, 0, 60⟩)
        (openTick 125 120) flatStore := by
      constructor
      · rintro series ⟨⟩
        unfold OpenRange.Narrow
        decide
      · rintro extent ⟨⟩
        decide
    have hcomputes' : OpenRange.Setup.Computes
        (SessionRangeBreakoutStrategy.setup ⟨⟨480, 4⟩, 0, 60⟩)
        ((openTick 125 120).mirrored 200) (flatStore.mirrored 200) := by
      constructor
      · rintro series ⟨⟩
        unfold OpenRange.Narrow
        decide
      · rintro extent ⟨⟩
        decide
    obtain ⟨hmirrors, hclash⟩ := hsetup _ (.session rfl) hcomputes hcomputes'
    refine hmirrors.opposite (hclash ⟨by decide, ?_⟩)
    rintro series ⟨⟩
    decide

/-- A crossed quote is beyond both ends of the band, and is bought in either run. -/
theorem crossed_bought_twice : ∃ fade, KeltnerFadeStrategy.make mirrorConfig = .ok fade ∧
    fade.ComputesOn (openTick 90 110) flatStore ∧
    fade.ComputesOn ((openTick 90 110).mirrored 200) (flatStore.mirrored 200) ∧
    fade.decide ((openTick 90 110).mirrored 200) (flatStore.mirrored 200) ≠
      (fade.decide (openTick 90 110) flatStore).map .opposite := by
  refine ⟨_, rfl, ?_, ?_, by decide⟩
  · rintro bars ⟨⟩
    unfold KeltnerFadeStrategy.Computes
    decide
  · rintro bars ⟨⟩
    unfold KeltnerFadeStrategy.Computes
    decide

end BacktestEngine

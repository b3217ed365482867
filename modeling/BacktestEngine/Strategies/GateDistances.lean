import BacktestEngine.Strategies.EntryConditions
import Mathlib.Algebra.Order.BigOperators.Group.List

/-! # The distances of the gate

The distances are cast to 32 bits before they are limited, and so is the mean range. The gate
computes what it says whenever these casts keep the numbers, or what they make of them is
limited to the same.
-/

namespace BacktestEngine

open RangeBar (toInt32 toInt32_of_small)

namespace Atr

/-- A price is a 32-bit number. -/
def Int32Price (price : ℤ) : Prop := -2 ^ 31 ≤ price ∧ price < 2 ^ 31

/-- The prices of a bar that the range reads are 32-bit numbers. -/
structure Int32Bar (bar : OhlcObject) : Prop where
  high : Int32Price bar.high
  low : Int32Price bar.low
  close : Int32Price bar.close

theorem trueRange_mem_Icc {prevClose : ℤ} {candle : OhlcObject} (hclose : Int32Price prevClose)
    (hbar : Int32Bar candle) : trueRange prevClose candle ∈ Set.Icc 0 (2 ^ 32 - 1) := by
  obtain ⟨hlow, hhigh⟩ := hclose
  obtain ⟨⟨hlow₁, hhigh₁⟩, ⟨hlow₂, hhigh₂⟩, -⟩ := hbar
  unfold trueRange
  constructor <;> omega

theorem trueRanges_mem_Icc {candles : List OhlcObject}
    (hbars : ∀ bar ∈ candles, Int32Bar bar) :
    ∀ range ∈ trueRanges candles, range ∈ Set.Icc 0 (2 ^ 32 - 1) := by
  induction candles using trueRanges.induct with
  | case1 => exact fun range hrange => absurd hrange List.not_mem_nil
  | case2 => exact fun range hrange => absurd hrange List.not_mem_nil
  | case3 previous candle candles ih =>
    obtain ⟨hprevious, hbars⟩ := List.forall_mem_cons.mp hbars
    intro range hrange
    rcases List.mem_cons.mp hrange with rfl | hrange
    · exact trueRange_mem_Icc hprevious.close (hbars candle List.mem_cons_self)
    · exact ih hbars range hrange

theorem length_trueRanges (candles : List OhlcObject) :
    (trueRanges candles).length = candles.length - 1 := by
  induction candles using trueRanges.induct with
  | case1 => rfl
  | case2 => rfl
  | case3 previous candle candles ih =>
    rw [trueRanges, List.length_cons, ih]
    rfl

end Atr

namespace Conditions

/-- The mean of the last true ranges, rounded to nearest. -/
def meanRange (candles : List OhlcObject) : ℤ :=
  ((Atr.trueRanges (candles.rtake (kAtrPeriod + 1))).sum + kAtrPeriod / 2) / kAtrPeriod

variable {candles : List OhlcObject}

theorem meanRange_mem_Icc (hbars : ∀ bar ∈ candles, Atr.Int32Bar bar) :
    meanRange candles ∈ Set.Icc 0 (2 ^ 32 - 1) := by
  have hranges := Atr.trueRanges_mem_Icc
    fun bar (hbar : bar ∈ candles.rtake (kAtrPeriod + 1)) => hbars bar (List.mem_of_mem_drop hbar)
  have hlength : (Atr.trueRanges (candles.rtake (kAtrPeriod + 1))).length ≤ 10 := by
    rw [Atr.length_trueRanges, List.rtake, List.length_drop, kAtrPeriod]
    omega
  have hlow := List.sum_nonneg fun range hrange => (hranges range hrange).1
  have hhigh := List.sum_le_card_nsmul _ (2 ^ 32 - 1) fun range hrange => (hranges range hrange).2
  rw [nsmul_eq_mul] at hhigh
  unfold meanRange kAtrPeriod at *
  constructor <;> omega

theorem calculate_eq (henough : kAtrPeriod + 1 ≤ candles.length)
    (hbars : ∀ bar ∈ candles, Atr.Int32Bar bar) :
    Atr.calculate candles kAtrPeriod = toInt32 (meanRange candles) := by
  have hranges := Atr.trueRanges_mem_Icc
    fun bar (hbar : bar ∈ candles.rtake (kAtrPeriod + 1)) => hbars bar (List.mem_of_mem_drop hbar)
  have hsum := List.sum_nonneg fun range hrange => (hranges range hrange).1
  rw [Atr.calculate, if_neg (by omega)]
  dsimp only
  rw [Int.tdiv_eq_ediv_of_nonneg (by omega), meanRange]

/-! ## The gate in exact numbers -/

variable (atr : ℤ) (tick : PriceData) (stopMultiplier limitMultiplier : ℤ)

/-- The range is positive, the spread is small and the distances reach their floors. -/
structure Admitted : Prop where
  moving : 0 < atr
  spread : (tick.ask - tick.bid) * kMaxSpreadDen ≤ atr * kMaxSpreadNum
  stop : kMinStopPips * SymbolScale.get tick.symbol ≤ atr * stopMultiplier
  limit : kMinLimitPips * SymbolScale.get tick.symbol ≤ atr * limitMultiplier

/-- A distance in pips. -/
def pips (multiplier : ℤ) : ℤ := atr * multiplier / SymbolScale.get tick.symbol

/-- The distances of the gate, from the floor to the cap. -/
def distances : Distances where
  stopPips := max kMinStopPips (min (pips atr tick stopMultiplier) kMaxStopPips)
  limitPips := max kMinLimitPips (min (pips atr tick limitMultiplier) kMaxLimitPips)

/-- The gate does what it says with this range and these multipliers. -/
structure Exact (store : BarStore) (gateSeries : SeriesSpec) : Prop where
  admits : (check store gateSeries tick stopMultiplier limitMultiplier).isSome ↔
    Admitted atr tick stopMultiplier limitMultiplier
  returns : ∀ result, check store gateSeries tick stopMultiplier limitMultiplier = some result →
    result = distances atr tick stopMultiplier limitMultiplier

/-- A cast to 32 bits leaves what is limited to the cap the same. -/
def Kept (value cap : ℤ) : Prop := value < 2 ^ 31 ∨ cap ≤ toInt32 value

/-- The casts of an entry that is let through leave its distances the same. -/
def Fits : Prop :=
  Admitted atr tick stopMultiplier limitMultiplier → atr < 2 ^ 31 ∧
    Kept (pips atr tick stopMultiplier) kMaxStopPips ∧
    Kept (pips atr tick limitMultiplier) kMaxLimitPips

variable {atr tick stopMultiplier limitMultiplier} {store : BarStore} {gateSeries : SeriesSpec}

/-- What the gate computes, with the range that it reads. -/
theorem check_eq_some_iff {result : Distances}
    (hknown : SymbolScale.get tick.symbol ≠ SymbolScale.kUnknown)
    (hfind : store.find tick.symbol gateSeries.minutes = some candles)
    (hatr : Atr.calculate candles kAtrPeriod = atr) :
    check store gateSeries tick stopMultiplier limitMultiplier = some result ↔
      Admitted atr tick stopMultiplier limitMultiplier ∧ result =
        { stopPips := clamp (toInt32 (pips atr tick stopMultiplier)) kMinStopPips kMaxStopPips
          limitPips := clamp (toInt32 (pips atr tick limitMultiplier)) kMinLimitPips
            kMaxLimitPips } := by
  have hpos := SymbolScale.get_pos hknown
  have hraw (hadmitted : Admitted atr tick stopMultiplier limitMultiplier) :
      0 ≤ atr * stopMultiplier ∧ 0 ≤ atr * limitMultiplier :=
    ⟨le_trans (mul_nonneg (by decide) hpos.le) hadmitted.stop,
      le_trans (mul_nonneg (by decide) hpos.le) hadmitted.limit⟩
  unfold check
  dsimp only
  rw [if_neg hknown, hfind]
  dsimp only
  rw [hatr]
  constructor
  · intro h
    split_ifs at h with hmoving hspread hfloors
    obtain ⟨hstop, hlimit⟩ := not_or.mp hfloors
    have hadmitted : Admitted atr tick stopMultiplier limitMultiplier :=
      ⟨not_le.mp hmoving, not_lt.mp hspread, not_lt.mp hstop, not_lt.mp hlimit⟩
    refine ⟨hadmitted, ?_⟩
    rw [Option.some.injEq] at h
    rw [← h, pips, pips, Int.tdiv_eq_ediv_of_nonneg (hraw hadmitted).1,
      Int.tdiv_eq_ediv_of_nonneg (hraw hadmitted).2]
  · rintro ⟨hadmitted, rfl⟩
    rw [if_neg (not_le.mpr hadmitted.moving), if_neg (not_lt.mpr hadmitted.spread),
      if_neg (not_or.mpr ⟨not_lt.mpr hadmitted.stop, not_lt.mpr hadmitted.limit⟩),
      Int.tdiv_eq_ediv_of_nonneg (hraw hadmitted).1,
      Int.tdiv_eq_ediv_of_nonneg (hraw hadmitted).2]
    rfl

/-- The limited cast is the limited number just when the cast keeps it. -/
theorem clamp_toInt32_eq_iff {value floor cap : ℤ} (hfloor : 0 ≤ floor) (hcap : floor < cap)
    (hcap' : cap < 2 ^ 31) (hvalue : floor ≤ value) :
    clamp (toInt32 value) floor cap = max floor (min value cap) ↔ Kept value cap := by
  unfold Kept
  by_cases hsmall : value < 2 ^ 31
  · rw [toInt32_of_small (by omega) hsmall]
    unfold clamp
    split_ifs <;> omega
  · rw [min_eq_right (by omega), max_eq_right hcap.le]
    unfold clamp
    split_ifs <;> omega

/-- In exact numbers a larger multiplier makes no distance smaller and refuses no entry. -/
theorem Admitted.mono {stopMultiplier' limitMultiplier' : ℤ}
    (hadmitted : Admitted atr tick stopMultiplier limitMultiplier)
    (hstop : stopMultiplier ≤ stopMultiplier') (hlimit : limitMultiplier ≤ limitMultiplier') :
    Admitted atr tick stopMultiplier' limitMultiplier' := by
  have hnonneg := hadmitted.moving.le
  exact ⟨hadmitted.moving, hadmitted.spread,
    hadmitted.stop.trans (mul_le_mul_of_nonneg_left hstop hnonneg),
    hadmitted.limit.trans (mul_le_mul_of_nonneg_left hlimit hnonneg)⟩

theorem pips_mono (hknown : SymbolScale.get tick.symbol ≠ SymbolScale.kUnknown) (hatr : 0 ≤ atr)
    {multiplier multiplier' : ℤ} (hle : multiplier ≤ multiplier') :
    pips atr tick multiplier ≤ pips atr tick multiplier' :=
  Int.ediv_le_ediv (SymbolScale.get_pos hknown) (mul_le_mul_of_nonneg_left hle hatr)

section Gate

variable (hknown : SymbolScale.get tick.symbol ≠ SymbolScale.kUnknown)
  (hfind : store.find tick.symbol gateSeries.minutes = some candles)
  (henough : kAtrPeriod + 1 ≤ candles.length) (hbars : ∀ bar ∈ candles, Atr.Int32Bar bar)
include hknown hfind henough hbars

theorem exact_iff_fits :
    Exact (meanRange candles) tick stopMultiplier limitMultiplier store gateSeries ↔
      Fits (meanRange candles) tick stopMultiplier limitMultiplier := by
  obtain ⟨hnonneg, hhigh⟩ := meanRange_mem_Icc hbars
  have hatr := calculate_eq henough hbars
  have hpos := SymbolScale.get_pos hknown
  by_cases hsmall : meanRange candles < 2 ^ 31
  · rw [toInt32_of_small (by omega) hsmall] at hatr
    have hcheck (result : Distances) :
        check store gateSeries tick stopMultiplier limitMultiplier = some result ↔ _ :=
      check_eq_some_iff hknown hfind hatr
    have hstopKept (hadmitted : Admitted (meanRange candles) tick stopMultiplier limitMultiplier) :
        _ ↔ Kept (pips (meanRange candles) tick stopMultiplier) kMaxStopPips :=
      clamp_toInt32_eq_iff (show 0 ≤ kMinStopPips by decide) (by decide) (by decide)
        (Int.le_ediv_of_mul_le hpos hadmitted.stop)
    have hlimitKept (hadmitted : Admitted (meanRange candles) tick stopMultiplier limitMultiplier) :
        _ ↔ Kept (pips (meanRange candles) tick limitMultiplier) kMaxLimitPips :=
      clamp_toInt32_eq_iff (show 0 ≤ kMinLimitPips by decide) (by decide) (by decide)
        (Int.le_ediv_of_mul_le hpos hadmitted.limit)
    constructor
    · intro hexact hadmitted
      have hresult := hexact.returns _ ((hcheck _).mpr ⟨hadmitted, rfl⟩)
      rw [distances, Distances.mk.injEq] at hresult
      exact ⟨hsmall, (hstopKept hadmitted).mp hresult.1, (hlimitKept hadmitted).mp hresult.2⟩
    · intro hfits
      constructor
      · constructor
        · intro hsome
          obtain ⟨result, hresult⟩ := Option.isSome_iff_exists.mp hsome
          exact ((hcheck result).mp hresult).1
        · intro hadmitted
          exact Option.isSome_iff_exists.mpr ⟨_, (hcheck _).mpr ⟨hadmitted, rfl⟩⟩
      · intro result hresult
        obtain ⟨hadmitted, rfl⟩ := (hcheck result).mp hresult
        obtain ⟨-, hstop, hlimit⟩ := hfits hadmitted
        rw [distances, (hstopKept hadmitted).mpr hstop, (hlimitKept hadmitted).mpr hlimit]
  · -- the range itself does not fit in 32 bits, and comes out negative
    have hnegative : Atr.calculate candles kAtrPeriod ≤ 0 := by
      rw [hatr, toInt32, Int.bmod_def]
      split_ifs <;> omega
    have hnone : check store gateSeries tick stopMultiplier limitMultiplier = none := by
      rw [Option.eq_none_iff_forall_ne_some]
      intro result hresult
      have hmoving := ((check_eq_some_iff hknown hfind rfl).mp hresult).1.moving
      omega
    constructor
    · intro hexact hadmitted
      have hsome := hexact.admits.mpr hadmitted
      rw [hnone] at hsome
      cases hsome
    · intro hfits
      constructor
      · rw [hnone]
        exact ⟨fun hsome => Bool.noConfusion hsome, fun hadmitted =>
          absurd (hfits hadmitted).1 hsmall⟩
      · intro result hresult
        rw [hnone] at hresult
        cases hresult

/-! ## The result -/

/-- For two pairs of multipliers of which one is at least the other, the gate does what it says with
both, and so the larger gives no smaller distance and refuses no entry of the other, just when
the casts keep the distances of both. -/
theorem gate_iff {stopMultiplier' limitMultiplier' : ℤ} (hstop : stopMultiplier ≤ stopMultiplier')
    (hlimit : limitMultiplier ≤ limitMultiplier') :
    (Exact (meanRange candles) tick stopMultiplier limitMultiplier store gateSeries ∧
      Exact (meanRange candles) tick stopMultiplier' limitMultiplier' store gateSeries ∧
      ∀ result, check store gateSeries tick stopMultiplier limitMultiplier = some result →
        ∃ result', check store gateSeries tick stopMultiplier' limitMultiplier' = some result' ∧
          result.stopPips ≤ result'.stopPips ∧ result.limitPips ≤ result'.limitPips) ↔
    Fits (meanRange candles) tick stopMultiplier limitMultiplier ∧
      Fits (meanRange candles) tick stopMultiplier' limitMultiplier' := by
  rw [← exact_iff_fits hknown hfind henough hbars, ← exact_iff_fits hknown hfind henough hbars]
  constructor
  · rintro ⟨hexact, hexact', -⟩
    exact ⟨hexact, hexact'⟩
  · rintro ⟨hexact, hexact'⟩
    refine ⟨hexact, hexact', ?_⟩
    intro result hresult
    have hadmitted := hexact.admits.mp (Option.isSome_iff_exists.mpr ⟨result, hresult⟩)
    obtain ⟨result', hresult'⟩ :=
      Option.isSome_iff_exists.mp (hexact'.admits.mpr (hadmitted.mono hstop hlimit))
    refine ⟨result', hresult', ?_⟩
    rw [hexact.returns result hresult, hexact'.returns result' hresult']
    have hnonneg := hadmitted.moving.le
    exact ⟨max_le_max le_rfl (min_le_min (pips_mono hknown hnonneg hstop) le_rfl),
      max_le_max le_rfl (min_le_min (pips_mono hknown hnonneg hlimit) le_rfl)⟩

end Gate

/-! ## A market that moves 200 pips a bar -/

/-- Eleven bars of fifteen minutes, each 2000 points above the one before. -/
def steps : List PriceData :=
  (List.range 11).map fun (i : ℕ) =>
    ⟨110000 + 2000 * i, 110000 + 2000 * i, 16 * (60 * second) * i, "EURUSD"⟩

def quote : PriceData := ⟨130000, 130000, 16 * (60 * second) * 11, "EURUSD"⟩

/-- The bars of the ticks. -/
def stepBars : List OhlcObject :=
  (List.range 11).map fun (i : ℕ) =>
    { date := 16 * (60 * second) * i
      openPrice := 110000 + 2000 * i
      high := 110000 + 2000 * i
      low := 110000 + 2000 * i
      close := 110000 + 2000 * i
      complete := Decidable.decide (i < 10) }

theorem feed_steps : ∃ store store', BarStore.fresh.registerAll [.series ⟨15, 11⟩] = .ok store ∧
    store.feed .off steps = .ok store' ∧ store'.find "EURUSD" 15 = some stepBars :=
  ⟨_, _, rfl, rfl, rfl⟩

/-- A small multiplier is let through with its distance, a larger one with a larger. -/
theorem gate_steps : ∃ store, store.find "EURUSD" 15 = some stepBars ∧
    Exact (meanRange stepBars) quote 1 1 store ⟨15, 11⟩ ∧
    Exact (meanRange stepBars) quote 2 3 store ⟨15, 11⟩ := by
  obtain ⟨-, store, -, -, hfind⟩ := feed_steps
  have hmean : meanRange stepBars = 2000 := by decide
  have hscale : SymbolScale.get "EURUSD" = 10 := by decide
  have hbars : ∀ bar ∈ stepBars, Atr.Int32Bar bar := by
    intro bar hbar
    obtain ⟨i, hi, rfl⟩ := List.mem_map.mp hbar
    have hi := List.mem_range.mp hi
    constructor <;> constructor <;> dsimp only <;> omega
  have hfits : Fits (meanRange stepBars) quote 1 1 ∧ Fits (meanRange stepBars) quote 2 3 := by
    rw [hmean]
    exact ⟨fun _ => ⟨by decide, .inl (by decide), .inl (by decide)⟩,
      fun _ => ⟨by decide, .inl (by decide), .inl (by decide)⟩⟩
  have hfind' : store.find quote.symbol (SeriesSpec.mk 15 11).minutes = some stepBars := hfind
  obtain ⟨hexact, hexact', -⟩ :=
    (gate_iff (by decide) hfind' (by decide) hbars (by decide) (by decide)).mpr hfits
  exact ⟨store, hfind, hexact, hexact'⟩

/-- The largest multiplier gives the smallest stop, a small one the largest. -/
theorem stop_wraps : ∃ store store', BarStore.fresh.registerAll [.series ⟨15, 11⟩] = .ok store ∧
    store.feed .off steps = .ok store' ∧
    check store' ⟨15, 11⟩ quote 2 1 = some ⟨80, 200⟩ ∧
    check store' ⟨15, 11⟩ quote (2 ^ 31 - 1) 1 = some ⟨10, 200⟩ := by
  exact ⟨_, _, rfl, rfl, rfl, rfl⟩

end Conditions

end BacktestEngine

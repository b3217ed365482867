import BacktestEngine.Bars.RangeBarBuilder
import BacktestEngine.Library.FixedPoint

/-! # The exponential moving average

The average is kept in 64-bit integers with sixteen fraction bits, and its multiplier has as
many. It stays among the prices it is of and close to the average that is not rounded.
-/

namespace BacktestEngine

open RangeBar (toInt32 toInt32_of_small)

namespace Ema

def kFractionBits : ℕ := 16

def kHalf : ℤ := 2 ^ (kFractionBits - 1)

def toQ (points : ℤ) : ℤ := points * 2 ^ kFractionBits

def roundToPoints (q : ℤ) : ℤ := toInt32 ((q + kHalf) / 2 ^ kFractionBits)

/-- The mean of the first prices, with fraction bits; the shift wraps. -/
def seedQ (prices : List ℤ) (period : ℕ) : ℤ :=
  (toInt64 (prices.sum * 2 ^ kFractionBits + period / 2)).tdiv period

def alphaQ (period : ℕ) : ℤ := (2 * 2 ^ kFractionBits + (period + 1) / 2) / (period + 1)

def stepQ (alpha emaQ price : ℤ) : ℤ :=
  toInt64 (emaQ + toInt64 (alpha * (toQ price - emaQ) + kHalf) / 2 ^ kFractionBits)

/-- What the loop ends with. -/
def stateQ (prices : List ℤ) (period : ℕ) : ℤ :=
  (prices.drop period).foldl (stepQ (alphaQ period)) (seedQ (prices.take period) period)

/-- One output for each price; 0 before there are as many as the period. -/
def calculate (prices : List ℤ) (period : ℤ) : Except String (List ℤ) :=
  if period < 1 then throw "ema::calculate: period must be >= 1"
  else
    let n := period.toNat
    if prices.length < n then return List.replicate prices.length 0
    else
      return List.replicate (n - 1) 0 ++
        ((prices.drop n).scanl (stepQ (alphaQ n)) (seedQ (prices.take n) n)).map roundToPoints

/-- The average without rounding. -/
def exactEma (prices : List ℤ) (period : ℕ) : ℚ :=
  FixedPoint.trackAll (2 / (period + 1)) ((prices.take period).sum / period) (prices.drop period)

variable {prices : List ℤ} {period : ℕ}

/-! ## What is emitted -/

theorem calculate_eq {period : ℤ} (hperiod : 1 ≤ period) (henough : period.toNat ≤ prices.length) :
    calculate prices period = .ok (List.replicate (period.toNat - 1) 0 ++
      ((prices.drop period.toNat).scanl (stepQ (alphaQ period.toNat))
        (seedQ (prices.take period.toNat) period.toNat)).map roundToPoints) := by
  rw [calculate, if_neg (by omega), if_neg (by omega)]
  rfl

theorem calculate_short {period : ℤ} (hperiod : 1 ≤ period)
    (hshort : prices.length < period.toNat) :
    calculate prices period = .ok (List.replicate prices.length 0) := by
  rw [calculate, if_neg (by omega), if_pos hshort]
  rfl

/-- The outputs before the period is full are 0. -/
theorem getElem?_calculate_zero {period : ℤ} {out : List ℤ} (hperiod : 1 ≤ period)
    (hcalculate : calculate prices period = .ok out) {i : ℕ} (hlow : i < period - 1)
    (hhigh : i < prices.length) : out[i]? = some 0 := by
  by_cases henough : period.toNat ≤ prices.length
  · rw [calculate_eq hperiod henough, Except.ok.injEq] at hcalculate
    rw [← hcalculate, List.getElem?_append_left (by rw [List.length_replicate]; omega),
      List.getElem?_replicate, if_pos (by omega)]
  · rw [calculate_short hperiod (by omega), Except.ok.injEq] at hcalculate
    rw [← hcalculate, List.getElem?_replicate, if_pos hhigh]

theorem length_calculate {period : ℤ} {out : List ℤ}
    (hcalculate : calculate prices period = .ok out) : out.length = prices.length := by
  by_cases hperiod : 1 ≤ period
  · by_cases henough : period.toNat ≤ prices.length
    · rw [calculate_eq hperiod henough, Except.ok.injEq] at hcalculate
      rw [← hcalculate, List.length_append, List.length_replicate, List.length_map,
        List.length_scanl, List.length_drop]
      omega
    · rw [calculate_short hperiod (by omega), Except.ok.injEq] at hcalculate
      rw [← hcalculate, List.length_replicate]
  · rw [calculate, if_pos (by omega)] at hcalculate
    cases hcalculate

theorem exists_calculate (prices : List ℤ) {period : ℤ} (hperiod : 1 ≤ period) :
    ∃ out, calculate prices period = .ok out := by
  by_cases henough : period.toNat ≤ prices.length
  · exact ⟨_, calculate_eq hperiod henough⟩
  · exact ⟨_, calculate_short hperiod (by omega)⟩

/-- An output is the state of the prices up to its own, rounded. -/
theorem getElem?_calculate {period : ℤ} {out : List ℤ} (hperiod : 1 ≤ period)
    (hcalculate : calculate prices period = .ok out) {i : ℕ} (hlow : period - 1 ≤ i)
    (hhigh : i < prices.length) :
    out[i]? = some (roundToPoints (stateQ (prices.take (i + 1)) period.toNat)) := by
  rw [calculate_eq hperiod (by omega), Except.ok.injEq] at hcalculate
  have hlength : (List.replicate (period.toNat - 1) (0 : ℤ)).length ≤ i := by
    rw [List.length_replicate]
    omega
  rw [← hcalculate, List.getElem?_append_right hlength, List.length_replicate, List.getElem?_map,
    List.getElem?_scanl, if_pos (by rw [List.length_drop]; omega), Option.map_some, stateQ,
    List.take_take, List.drop_take, show i - (period.toNat - 1) = i + 1 - period.toNat by omega,
    show min period.toNat (i + 1) = period.toNat by omega]

/-! ## Without wraps -/

theorem kHalf_eq : kHalf = 2 ^ kFractionBits / 2 := by decide

theorem unit_pos : (0 : ℤ) < 2 ^ kFractionBits := by decide

theorem alphaQ_nonneg : 0 ≤ alphaQ period := Int.ediv_nonneg (by positivity) (by positivity)

theorem alphaQ_le (hperiod : 1 ≤ period) : alphaQ period ≤ 2 ^ kFractionBits := by
  have hpos : (0 : ℤ) < period + 1 := by omega
  have hmem : FixedPoint.nearestDiv (2 * 2 ^ 16) (period + 1) ∈ Set.Icc 0 (2 ^ 16) :=
    FixedPoint.nearestDiv_mem_Icc hpos (by norm_num) (by omega)
  exact hmem.2

theorem alphaQ_pos (hperiod : period ≤ 100000) : 1 ≤ alphaQ period := by
  have hpos : (0 : ℤ) < period + 1 := by omega
  have hone : (1 : ℤ) * (period + 1) ≤ 2 * 2 ^ 16 + (period + 1) / 2 := by omega
  exact (FixedPoint.le_nearestDiv_iff hpos).mpr hone

/-- The multiplier is the share rounded to nearest. -/
theorem abs_alphaQ_sub_le (period : ℕ) :
    |(alphaQ period / 2 ^ 16 : ℚ) - 2 / (period + 1)| * 2 ^ 16 ≤ 1 / 2 := by
  have h := FixedPoint.abs_nearestDiv_sub_le (show (0 : ℤ) < period + 1 by omega) (2 * 2 ^ 16)
  have hpos : (0 : ℚ) < 2 ^ 16 := by norm_num
  rw [← abs_of_pos hpos, ← abs_mul, abs_of_pos hpos]
  calc |((alphaQ period / 2 ^ 16 : ℚ) - 2 / (period + 1)) * 2 ^ 16|
      = |(alphaQ period : ℚ) - (2 * 2 ^ 16 : ℤ) / ((period + 1 : ℤ) : ℚ)| := by
        push_cast
        ring_nf
    _ ≤ 1 / 2 := h

theorem toQ_le_toQ {low high : ℤ} (h : low ≤ high) : toQ low ≤ toQ high :=
  mul_le_mul_of_nonneg_right h (by positivity)

theorem toQ_mul (count price : ℤ) : toQ (count * price) = count * toQ price := mul_assoc _ _ _

theorem toQ_cast (price : ℤ) : (toQ price : ℚ) = price * (2 ^ 16 : ℤ) := Int.cast_mul _ _

theorem toQ_mem_Icc {price low high : ℤ} (h : price ∈ Set.Icc low high) :
    toQ price ∈ Set.Icc (toQ low) (toQ high) := ⟨toQ_le_toQ h.1, toQ_le_toQ h.2⟩

theorem stepQ_eq {alpha emaQ price : ℤ} (hlow : -2 ^ 63 ≤ alpha * (toQ price - emaQ))
    (hhigh : alpha * (toQ price - emaQ) < 2 ^ 63 - 2 ^ 15)
    (hlow' : -2 ^ 63 ≤ FixedPoint.step (2 ^ kFractionBits) alpha emaQ (toQ price))
    (hhigh' : FixedPoint.step (2 ^ kFractionBits) alpha emaQ (toQ price) < 2 ^ 63) :
    stepQ alpha emaQ price = FixedPoint.step (2 ^ kFractionBits) alpha emaQ (toQ price) := by
  have hhalf : kHalf = 2 ^ 15 := rfl
  unfold stepQ
  have hproduct : toInt64 (alpha * (toQ price - emaQ) + kHalf) =
      alpha * (toQ price - emaQ) + kHalf := toInt64_of_small (by omega) (by omega)
  rw [hproduct, kHalf_eq]
  exact toInt64_of_small hlow' hhigh'

/-- The loop over a segment that its products fit in. -/
theorem foldl_stepQ_eq {alpha low high : ℤ} (hnonneg : 0 ≤ alpha) (hle : alpha ≤ 2 ^ kFractionBits)
    (hlow : -2 ^ 63 ≤ low) (hhigh : high < 2 ^ 63)
    (hgap : alpha * (high - low) < 2 ^ 63 - 2 ^ 15)
    (hprices : ∀ price ∈ prices, toQ price ∈ Set.Icc low high) {emaQ : ℤ}
    (hema : emaQ ∈ Set.Icc low high) :
    prices.foldl (stepQ alpha) emaQ =
      (prices.map toQ).foldl (FixedPoint.step (2 ^ kFractionBits) alpha) emaQ := by
  induction prices generalizing emaQ with
  | nil => rfl
  | cons price prices ih =>
    obtain ⟨hprice, hprices⟩ := List.forall_mem_cons.mp hprices
    have hmem := FixedPoint.step_mem_Icc unit_pos hnonneg hle hema
      hprice
    have hup : alpha * (toQ price - emaQ) ≤ alpha * (high - low) :=
      mul_le_mul_of_nonneg_left (by linarith [hprice.2, hema.1]) hnonneg
    have hdown : alpha * (low - high) ≤ alpha * (toQ price - emaQ) :=
      mul_le_mul_of_nonneg_left (by linarith [hprice.1, hema.2]) hnonneg
    have hneg : alpha * (low - high) = -(alpha * (high - low)) := by ring
    have hstep : stepQ alpha emaQ price =
        FixedPoint.step (2 ^ kFractionBits) alpha emaQ (toQ price) :=
      stepQ_eq (by omega) (by omega) (hlow.trans hmem.1) (hmem.2.trans_lt hhigh)
    rw [List.foldl_cons, List.map_cons, List.foldl_cons, hstep]
    exact ih hprices hmem

/-- The prices are not negative, and their scaled sum is a 64-bit number. -/
structure Fits (bound : ℤ) (prices : List ℤ) (period : ℕ) : Prop where
  prices : ∀ price ∈ prices, price ∈ Set.Icc 0 bound
  nonneg : 0 ≤ bound
  int32 : bound < 2 ^ 31
  sum : period * toQ bound + period / 2 < 2 ^ 63

theorem Fits.take {bound : ℤ} (hfits : Fits bound prices period) (n : ℕ) :
    Fits bound (prices.take n) period :=
  ⟨fun price hprice => hfits.prices price (List.mem_of_mem_take hprice), hfits.nonneg,
    hfits.int32, hfits.sum⟩

theorem sum_mem_Icc {low high : ℤ} (hprices : ∀ price ∈ prices, price ∈ Set.Icc low high) :
    prices.sum ∈ Set.Icc (prices.length * low) (prices.length * high) := by
  have hlow := List.card_nsmul_le_sum prices low fun price hprice => (hprices price hprice).1
  have hhigh := List.sum_le_card_nsmul prices high fun price hprice => (hprices price hprice).2
  rw [nsmul_eq_mul] at hlow hhigh
  exact ⟨hlow, hhigh⟩

theorem seedQ_eq {bound : ℤ} (hfits : Fits bound prices period) (hlength : prices.length = period) :
    seedQ prices period = FixedPoint.nearestDiv (toQ prices.sum) period := by
  obtain ⟨hlow, hhigh⟩ := sum_mem_Icc hfits.prices
  rw [hlength, mul_zero] at hlow
  have hscaled : toQ prices.sum ≤ period * toQ bound := by
    rw [← toQ_mul, ← hlength]
    exact toQ_le_toQ hhigh
  have hnonneg : 0 ≤ toQ prices.sum := by
    unfold toQ
    positivity
  have hsum := hfits.sum
  have hunfold : prices.sum * 2 ^ kFractionBits = toQ prices.sum := rfl
  rw [seedQ, hunfold, toInt64_of_small (by omega) (by omega), Int.tdiv_eq_ediv_of_nonneg (by omega)]
  rfl

theorem nearestDiv_sum_mem_Icc {low high : ℤ} (hperiod : 1 ≤ period)
    (hlength : prices.length = period) (hprices : ∀ price ∈ prices, price ∈ Set.Icc low high) :
    FixedPoint.nearestDiv (toQ prices.sum) period ∈ Set.Icc (toQ low) (toQ high) := by
  obtain ⟨hlow, hhigh⟩ := sum_mem_Icc hprices
  rw [hlength] at hlow hhigh
  apply FixedPoint.nearestDiv_mem_Icc (by omega)
  · rw [mul_comm, ← toQ_mul]
    exact toQ_le_toQ hlow
  · rw [mul_comm, ← toQ_mul]
    exact toQ_le_toQ hhigh

section Run

variable {bound : ℤ} (hfits : Fits bound prices period) (hperiod : 1 ≤ period)
  (henough : period ≤ prices.length)
include hfits hperiod henough

/-- The state, as the loop over whole numbers has it. -/
theorem stateQ_eq : stateQ prices period =
    ((prices.drop period).map toQ).foldl (FixedPoint.step (2 ^ kFractionBits) (alphaQ period))
      (FixedPoint.nearestDiv (toQ (prices.take period).sum) period) := by
  have hlength : (prices.take period).length = period := List.length_take_of_le henough
  have htake (price : ℤ) (hprice : price ∈ prices.take period) : price ∈ Set.Icc 0 bound :=
    hfits.prices price (List.mem_of_mem_take hprice)
  have hbound : bound < 2 ^ 31 := hfits.int32
  have htoQ : toQ bound = bound * 2 ^ 16 := rfl
  have hzero : toQ 0 = 0 := rfl
  rw [stateQ, seedQ_eq (hfits.take period) hlength]
  have hgap : alphaQ period * (toQ bound - toQ 0) < 2 ^ 63 - 2 ^ 15 := by
    calc alphaQ period * (toQ bound - toQ 0) ≤ 2 ^ 16 * (toQ (2 ^ 31 - 1) - toQ 0) := by
          apply mul_le_mul (alphaQ_le hperiod)
          · exact sub_le_sub_right (toQ_le_toQ (by omega)) _
          · rw [hzero, sub_zero, htoQ]
            exact mul_nonneg hfits.nonneg (by norm_num)
          · norm_num
      _ < 2 ^ 63 - 2 ^ 15 := by decide
  apply foldl_stepQ_eq alphaQ_nonneg (alphaQ_le hperiod) (by decide) (by omega) hgap
  · intro price hprice
    exact toQ_mem_Icc (hfits.prices price (List.mem_of_mem_drop hprice))
  · exact nearestDiv_sum_mem_Icc hperiod hlength htake

/-- The state stays among the prices. -/
theorem stateQ_mem_Icc {low high : ℤ} (hprices : ∀ price ∈ prices, price ∈ Set.Icc low high) :
    stateQ prices period ∈ Set.Icc (toQ low) (toQ high) := by
  rw [stateQ_eq hfits hperiod henough]
  apply FixedPoint.foldl_step_mem_Icc unit_pos alphaQ_nonneg (alphaQ_le hperiod)
  · intro target htarget
    obtain ⟨price, hprice, rfl⟩ := List.mem_map.mp htarget
    exact toQ_mem_Icc (hprices price (List.mem_of_mem_drop hprice))
  · exact nearestDiv_sum_mem_Icc hperiod (List.length_take_of_le henough) fun price hprice =>
      hprices price (List.mem_of_mem_take hprice)

theorem roundToPoints_stateQ : roundToPoints (stateQ prices period) =
    FixedPoint.nearestDiv (stateQ prices period) (2 ^ kFractionBits) := by
  have hmem := stateQ_mem_Icc hfits hperiod henough hfits.prices
  have hround := FixedPoint.nearestDiv_mem_Icc unit_pos hmem.1 hmem.2
  have hbound := hfits.int32
  rw [roundToPoints, kHalf_eq]
  exact toInt32_of_small (le_trans (by decide) hround.1) (hround.2.trans_lt hbound)

theorem roundToPoints_stateQ_mem_Icc {low high : ℤ}
    (hprices : ∀ price ∈ prices, price ∈ Set.Icc low high) :
    roundToPoints (stateQ prices period) ∈ Set.Icc low high := by
  have hmem := stateQ_mem_Icc hfits hperiod henough hprices
  rw [roundToPoints_stateQ hfits hperiod henough]
  exact FixedPoint.nearestDiv_mem_Icc unit_pos hmem.1 hmem.2

/-- A larger price makes no later state smaller. -/
theorem stateQ_mono {prices' : List ℤ} (hfits' : Fits bound prices' period)
    (hle : List.Forall₂ (· ≤ ·) prices prices') :
    stateQ prices period ≤ stateQ prices' period := by
  rw [stateQ_eq hfits hperiod henough, stateQ_eq hfits' hperiod (hle.length_eq ▸ henough)]
  apply FixedPoint.foldl_step_mono unit_pos alphaQ_nonneg (alphaQ_le hperiod)
  · exact List.forall₂_map_left_iff.mpr (List.forall₂_map_right_iff.mpr
      ((List.forall₂_drop period hle).imp fun _ _ => toQ_le_toQ))
  · apply FixedPoint.nearestDiv_mono (by omega)
    exact toQ_le_toQ (List.Forall₂.sum_le_sum (List.forall₂_take period hle))

/-! ## The average without rounding -/

/-- The two averages differ by what the multiplier's rounding and the state's leave. -/
theorem abs_stateQ_sub_le (hlimit : period ≤ 100000) {low high : ℤ}
    (hprices : ∀ price ∈ prices, price ∈ Set.Icc low high) :
    |(stateQ prices period : ℚ) - exactEma prices period * (2 ^ 16 : ℤ)| ≤
      ((high - low : ℤ) + 1) / (2 * alphaQ period) * (2 ^ 16 : ℤ) := by
  have hlength : (prices.take period).length = period := List.length_take_of_le henough
  have htake (price : ℤ) (hprice : price ∈ prices.take period) : price ∈ Set.Icc low high :=
    hprices price (List.mem_of_mem_take hprice)
  have hpos : (0 : ℚ) < period := by exact_mod_cast hperiod
  have halpha : (1 : ℚ) ≤ alphaQ period := by exact_mod_cast alphaQ_pos hlimit
  have halpha' : (alphaQ period : ℚ) ≤ 2 ^ 16 := by exact_mod_cast alphaQ_le hperiod
  have hspread : (0 : ℚ) ≤ (high - low : ℤ) := by
    obtain ⟨price, hprice⟩ := List.exists_mem_of_length_pos (l := prices) (by omega)
    exact_mod_cast sub_nonneg.mpr ((hprices price hprice).1.trans (hprices price hprice).2)
  have hmean := FixedPoint.abs_nearestDiv_sub_le (show (0 : ℤ) < period by omega)
    (toQ (prices.take period).sum)
  have hsum := sum_mem_Icc htake
  rw [hlength] at hsum
  rw [stateQ_eq hfits hperiod henough, exactEma, ← FixedPoint.trackAll_map_mul]
  have hshare : (2 / (period + 1) : ℚ) ≤ 1 := by
    rw [div_le_one (by positivity)]
    have : (1 : ℚ) ≤ period := by exact_mod_cast hperiod
    linarith
  have htargets (target : ℤ) (htarget : target ∈ (prices.drop period).map toQ) :
      target ∈ Set.Icc (toQ low) (toQ high) := by
    obtain ⟨price, hprice, rfl⟩ := List.mem_map.mp htarget
    exact toQ_mem_Icc (hprices price (List.mem_of_mem_drop hprice))
  refine FixedPoint.abs_foldl_step_sub_le unit_pos (alphaQ_le hperiod) (by positivity) hshare ?_
    htargets ?_ ?_
  · have hgap : (toQ high - toQ low : ℚ) = 2 ^ 16 * (high - low : ℤ) := by
      unfold toQ kFractionBits
      push_cast
      ring
    have hweight := mul_le_mul_of_nonneg_right (abs_alphaQ_sub_le period) hspread
    have hunit : ((2 ^ kFractionBits : ℤ) : ℚ) = 2 ^ 16 := by norm_num [kFractionBits]
    have hhalf : (alphaQ period / 2 ^ 16 : ℚ) *
        (((high - low : ℤ) + 1) / (2 * alphaQ period) * (2 ^ 16 : ℤ)) =
          1 / 2 * (high - low : ℤ) + 1 / 2 := by
      field_simp
      push_cast
      ring
    rw [hunit, hgap, ← mul_assoc, hhalf]
    exact add_le_add_left hweight _
  · have hlow : (period * low : ℚ) ≤ (prices.take period).sum := by exact_mod_cast hsum.1
    have hhigh : ((prices.take period).sum : ℚ) ≤ period * high := by exact_mod_cast hsum.2
    rw [toQ_cast, toQ_cast]
    constructor
    · apply mul_le_mul_of_nonneg_right _ (by positivity)
      rwa [le_div_iff₀ hpos, mul_comm]
    · apply mul_le_mul_of_nonneg_right _ (by positivity)
      rwa [div_le_iff₀ hpos, mul_comm]
  · have hscale : ((prices.take period).sum / period * (2 ^ 16 : ℤ) : ℚ) =
        (toQ (prices.take period).sum : ℤ) / (period : ℤ) := by
      rw [toQ_cast, Int.cast_natCast]
      ring
    rw [hscale]
    refine hmean.trans ?_
    rw [div_mul_eq_mul_div, le_div_iff₀ (by positivity)]
    push_cast at hspread ⊢
    linarith

end Run

/-! ## The 64-bit numbers -/

/-- The numbers of one turn of the loop, before any wrap. -/
def stepIntermediates (alpha emaQ price : ℤ) : List ℤ :=
  let deltaQ := toQ price - emaQ
  let moved := (alpha * deltaQ + kHalf) / 2 ^ kFractionBits
  [toQ price, deltaQ, alpha * deltaQ, alpha * deltaQ + kHalf, moved, emaQ + moved,
    emaQ + moved + kHalf]

def loopIntermediates (alpha : ℤ) : ℤ → List ℤ → List ℤ
  | _, [] => []
  | emaQ, price :: prices =>
    stepIntermediates alpha emaQ price ++
      loopIntermediates alpha (stepQ alpha emaQ price) prices

/-- All the 64-bit numbers of a call, before any wrap. -/
def intermediates (prices : List ℤ) (period : ℕ) : List ℤ :=
  if prices.length < period then []
  else
    let first := prices.take period
    let emaQ := seedQ first period
    first.scanl (· + ·) 0 ++
      [first.sum * 2 ^ kFractionBits, first.sum * 2 ^ kFractionBits + period / 2, emaQ,
        emaQ + kHalf, 2 * 2 ^ kFractionBits, 2 * 2 ^ kFractionBits + (period + 1) / 2,
        alphaQ period] ++
      loopIntermediates (alphaQ period) emaQ (prices.drop period)

variable {bound : ℤ}

theorem toQ_lt (hbound : bound < 2 ^ 31) : toQ bound ≤ 2 ^ 47 - 2 ^ 16 := by
  unfold toQ kFractionBits
  omega

theorem stepIntermediates_fit {alpha emaQ price : ℤ} (hnonneg : 0 ≤ alpha)
    (hle : alpha ≤ 2 ^ kFractionBits) (hbound : bound < 2 ^ 31) (hprice : price ∈ Set.Icc 0 bound)
    (hema : emaQ ∈ Set.Icc 0 (toQ bound)) :
    (∀ value ∈ stepIntermediates alpha emaQ price, -2 ^ 63 ≤ value ∧ value < 2 ^ 63) ∧
      stepQ alpha emaQ price ∈ Set.Icc 0 (toQ bound) := by
  have hzero : toQ 0 = 0 := rfl
  have htarget := toQ_mem_Icc hprice
  have hlarge := toQ_lt hbound
  have hhalf : kHalf = 2 ^ 15 := rfl
  rw [hzero] at htarget
  have hup : alpha * (toQ price - emaQ) ≤ alpha * toQ bound :=
    mul_le_mul_of_nonneg_left (by linarith [htarget.2, hema.1]) hnonneg
  have hdown : -(alpha * toQ bound) ≤ alpha * (toQ price - emaQ) := by
    rw [← mul_neg]
    exact mul_le_mul_of_nonneg_left (by linarith [htarget.1, hema.2]) hnonneg
  have hmost : alpha * toQ bound ≤ 2 ^ 16 * (2 ^ 47 - 2 ^ 16) :=
    mul_le_mul hle hlarge (htarget.1.trans htarget.2) (by norm_num)
  have hmem := FixedPoint.step_mem_Icc unit_pos hnonneg hle hema
    htarget
  have hstep : FixedPoint.step (2 ^ kFractionBits) alpha emaQ (toQ price) =
      emaQ + (alpha * (toQ price - emaQ) + kHalf) / 2 ^ kFractionBits := rfl
  have hsame : stepQ alpha emaQ price =
      FixedPoint.step (2 ^ kFractionBits) alpha emaQ (toQ price) :=
    stepQ_eq (by omega) (by omega) (le_trans (by decide) hmem.1) (hmem.2.trans_lt (by omega))
  rw [hsame]
  refine ⟨?_, hmem⟩
  rw [hstep] at hmem
  obtain ⟨hmem, hmem'⟩ := hmem
  obtain ⟨hema, hema'⟩ := hema
  obtain ⟨htarget, htarget'⟩ := htarget
  simp only [stepIntermediates, List.mem_cons, List.not_mem_nil, or_false]
  rintro value (rfl | rfl | rfl | rfl | rfl | rfl | rfl) <;> constructor <;> omega

theorem loopIntermediates_fit {alpha : ℤ} (hnonneg : 0 ≤ alpha) (hle : alpha ≤ 2 ^ kFractionBits)
    (hbound : bound < 2 ^ 31) (hprices : ∀ price ∈ prices, price ∈ Set.Icc 0 bound) {emaQ : ℤ}
    (hema : emaQ ∈ Set.Icc 0 (toQ bound)) :
    ∀ value ∈ loopIntermediates alpha emaQ prices, -2 ^ 63 ≤ value ∧ value < 2 ^ 63 := by
  induction prices generalizing emaQ with
  | nil => exact fun value hvalue => absurd hvalue List.not_mem_nil
  | cons price prices ih =>
    obtain ⟨hprice, hprices⟩ := List.forall_mem_cons.mp hprices
    obtain ⟨hfit, hnext⟩ := stepIntermediates_fit hnonneg hle hbound hprice hema
    intro value hvalue
    rw [loopIntermediates, List.mem_append] at hvalue
    rcases hvalue with hvalue | hvalue
    · exact hfit value hvalue
    · exact ih hprices hnext value hvalue

/-- Every partial sum is that of a prefix. -/
theorem partialSum_mem_Icc (hfits : Fits bound prices period) (hlength : prices.length ≤ period)
    {value : ℤ} (hvalue : value ∈ prices.scanl (· + ·) 0) :
    value ∈ Set.Icc 0 (period * bound) := by
  obtain ⟨i, hi⟩ := List.mem_iff_getElem?.mp hvalue
  rw [List.getElem?_scanl] at hi
  split_ifs at hi with hlt
  rw [Option.some.injEq, ← List.sum_eq_foldl] at hi
  have hpart (price : ℤ) (hprice : price ∈ prices.take i) : price ∈ Set.Icc 0 bound :=
    hfits.prices price (List.mem_of_mem_take hprice)
  obtain ⟨hlow, hhigh⟩ := sum_mem_Icc hpart
  rw [hi, mul_zero] at hlow
  rw [hi] at hhigh
  refine ⟨hlow, hhigh.trans (mul_le_mul_of_nonneg_right ?_ hfits.nonneg)⟩
  rw [List.length_take]
  omega

theorem intermediates_fit (hfits : Fits bound prices period) (hperiod : 1 ≤ period)
    (hint : period < 2 ^ 31) :
    ∀ value ∈ intermediates prices period, -2 ^ 63 ≤ value ∧ value < 2 ^ 63 := by
  unfold intermediates
  split_ifs with hshort
  · exact fun value hvalue => absurd hvalue List.not_mem_nil
  · have hlength : (prices.take period).length = period := List.length_take_of_le (by omega)
    have hsums {value : ℤ} : value ∈ (prices.take period).scanl (· + ·) 0 → _ :=
      partialSum_mem_Icc (hfits.take period) hlength.le
    have hlast : (prices.take period).sum ∈ Set.Icc 0 (period * bound) := by
      have hmem := sum_mem_Icc (hfits.take period).prices
      rwa [hlength, mul_zero] at hmem
    have hscaled := toQ_mem_Icc hlast
    rw [toQ_mul] at hscaled
    have hseed := nearestDiv_sum_mem_Icc hperiod hlength (hfits.take period).prices
    rw [← seedQ_eq (hfits.take period) hlength] at hseed
    have hzero : toQ 0 = 0 := rfl
    have hhalf : kHalf = 2 ^ 15 := rfl
    have hbits : kFractionBits = 16 := rfl
    have htoQ : (prices.take period).sum * 2 ^ kFractionBits = toQ (prices.take period).sum := rfl
    have hlarge := toQ_lt hfits.int32
    have hsum := hfits.sum
    have halpha : 0 ≤ alphaQ period := alphaQ_nonneg
    have halpha' := alphaQ_le hperiod
    have hproduct : period * bound ≤ period * toQ bound :=
      mul_le_mul_of_nonneg_left (le_mul_of_one_le_right hfits.nonneg (by decide)) (by positivity)
    rw [hzero] at hscaled hseed
    intro value hvalue
    rw [List.mem_append, List.mem_append] at hvalue
    rcases hvalue with (hvalue | hvalue) | hvalue
    · obtain ⟨hmem, hmem'⟩ := hsums hvalue
      constructor <;> omega
    · obtain ⟨hscaled, hscaled'⟩ := hscaled
      obtain ⟨hseed, hseed'⟩ := hseed
      rw [htoQ] at hvalue
      simp only [List.mem_cons, List.not_mem_nil, or_false, hbits] at hvalue halpha'
      rcases hvalue with rfl | rfl | rfl | rfl | rfl | rfl | rfl <;> constructor <;> omega
    · exact loopIntermediates_fit alphaQ_nonneg (alphaQ_le hperiod) hfits.int32
        (fun price hprice => hfits.prices price (List.mem_of_mem_drop hprice)) hseed value hvalue

/-! ## The result -/

/-- Prices below 2^23 and periods up to 100000 leave all the headroom that is needed. -/
theorem fits_of_small (hlimit : period ≤ 100000)
    (hprices : ∀ price ∈ prices, 0 ≤ price ∧ price < 2 ^ 23) : Fits (2 ^ 23 - 1) prices period where
  prices price hprice := ⟨(hprices price hprice).1, by linarith [(hprices price hprice).2]⟩
  nonneg := by norm_num
  int32 := by norm_num
  sum := by
    have hlarge : toQ (2 ^ 23 - 1) = 549755748352 := rfl
    rw [hlarge]
    omega

/-- What is emitted is close to the average without rounding. -/
theorem abs_roundToPoints_sub_le (hfits : Fits bound prices period) (hperiod : 1 ≤ period)
    (henough : period ≤ prices.length) (hlimit : period ≤ 100000) {low high : ℤ}
    (hprices : ∀ price ∈ prices, price ∈ Set.Icc low high) :
    |(roundToPoints (stateQ prices period) : ℚ) - exactEma prices period| ≤
      1 / 2 + ((high - low : ℤ) + 1) / (2 * alphaQ period) := by
  have hround := FixedPoint.abs_nearestDiv_sub_le unit_pos (stateQ prices period)
  have hunit : ((2 ^ kFractionBits : ℤ) : ℚ) = (2 ^ 16 : ℤ) := by norm_num [kFractionBits]
  have hpos : (0 : ℚ) < (2 ^ 16 : ℤ) := by norm_num
  have hstate := abs_stateQ_sub_le hfits hperiod henough hlimit hprices
  have hscaled : |(stateQ prices period / (2 ^ 16 : ℤ) : ℚ) - exactEma prices period| ≤
      ((high - low : ℤ) + 1) / (2 * alphaQ period) := by
    rw [← mul_le_mul_iff_of_pos_right hpos]
    calc |(stateQ prices period / (2 ^ 16 : ℤ) : ℚ) - exactEma prices period| * (2 ^ 16 : ℤ)
        = |(stateQ prices period : ℚ) - exactEma prices period * (2 ^ 16 : ℤ)| := by
          rw [← abs_of_pos hpos, ← abs_mul, abs_of_pos hpos, sub_mul, div_mul_cancel₀ _ hpos.ne']
      _ ≤ _ := hstate
  rw [roundToPoints_stateQ hfits hperiod henough]
  rw [hunit] at hround
  exact (abs_sub_le _ _ _).trans (add_le_add hround hscaled)

/-- The outputs are among the prices up to theirs and close to the average that is not rounded; none
falls when a price rises, all are the price of a constant series, and no number of the call is
too large for 64 bits. -/
theorem accurate {period : ℤ} {prices : List ℤ} (hperiod : 1 ≤ period) (hlimit : period ≤ 100000)
    (hprices : ∀ price ∈ prices, 0 ≤ price ∧ price < 2 ^ 23) :
    ∃ out, calculate prices period = .ok out ∧ out.length = prices.length ∧
      (∀ (i : ℕ) value, period - 1 ≤ i → out[i]? = some value →
        (∃ price ∈ prices.take (i + 1), price ≤ value) ∧
        (∃ price ∈ prices.take (i + 1), value ≤ price) ∧
        ∀ low high, (∀ price ∈ prices, low ≤ price ∧ price ≤ high) →
          |(value : ℚ) - exactEma (prices.take (i + 1)) period.toNat| ≤
            1 / 2 + ((high - low : ℤ) + 1) / (2 * alphaQ period.toNat)) ∧
      (∀ prices' out', List.Forall₂ (· ≤ ·) prices prices' → (∀ price ∈ prices', price < 2 ^ 23) →
        calculate prices' period = .ok out' → List.Forall₂ (· ≤ ·) out out') ∧
      (∀ price, (∀ other ∈ prices, other = price) →
        ∀ (i : ℕ) value, period - 1 ≤ i → out[i]? = some value → value = price) ∧
      ∀ value ∈ intermediates prices period.toNat, -2 ^ 63 ≤ value ∧ value < 2 ^ 63 := by
  have hsmall : period.toNat ≤ 100000 := by omega
  have hpart (i : ℕ) := (fits_of_small hsmall hprices).take (i + 1)
  have hpositive : 1 ≤ period.toNat := by omega
  obtain ⟨out, hout⟩ := exists_calculate prices hperiod
  have hemitted {i : ℕ} {value : ℤ} (hlow : period - 1 ≤ i) (hvalue : out[i]? = some value) :
      period.toNat ≤ (prices.take (i + 1)).length ∧
        value = roundToPoints (stateQ (prices.take (i + 1)) period.toNat) := by
    have hhigh : i < prices.length :=
      length_calculate hout ▸ (List.getElem?_eq_some_iff.mp hvalue).1
    rw [getElem?_calculate hperiod hout hlow hhigh, Option.some.injEq] at hvalue
    refine ⟨?_, hvalue.symm⟩
    rw [List.length_take]
    omega
  have hwithin {i : ℕ} {value low high : ℤ} (hlow : period - 1 ≤ i) (hvalue : out[i]? = some value)
      (hbounds : ∀ price ∈ prices.take (i + 1), price ∈ Set.Icc low high) :
      value ∈ Set.Icc low high := by
    obtain ⟨henough, rfl⟩ := hemitted hlow hvalue
    exact roundToPoints_stateQ_mem_Icc (hpart i) hpositive henough hbounds
  refine ⟨out, hout, length_calculate hout, ?_, ?_, ?_, ?_⟩
  · intro i value hlow hvalue
    refine ⟨?_, ?_, ?_⟩
    · -- a value below all the prices would be among those above it
      by_contra! hbelow
      have hmem := hwithin hlow hvalue fun price hprice =>
        ⟨show value + 1 ≤ price from hbelow price hprice, ((hpart i).prices price hprice).2⟩
      have := hmem.1
      omega
    · by_contra! habove
      have hmem := hwithin hlow hvalue fun price hprice =>
        ⟨((hpart i).prices price hprice).1, Int.le_sub_one_of_lt (habove price hprice)⟩
      have := hmem.2
      omega
    · intro low high hbounds
      obtain ⟨henough, rfl⟩ := hemitted hlow hvalue
      exact abs_roundToPoints_sub_le (hpart i) hpositive henough (by omega) fun price hprice =>
        hbounds price (List.mem_of_mem_take hprice)
  · intro prices' out' hle hbelow hout'
    have hlength := hle.length_eq
    have hprices' (price : ℤ) (hprice : price ∈ prices') : 0 ≤ price ∧ price < 2 ^ 23 := by
      obtain ⟨i, hi, rfl⟩ := List.mem_iff_getElem.mp hprice
      exact ⟨(hprices _ (List.getElem_mem (hlength ▸ hi))).1.trans (hle.get (hlength ▸ hi) hi),
        hbelow _ hprice⟩
    refine List.forall₂_iff_get.mpr ⟨by rw [length_calculate hout, length_calculate hout', hlength],
      ?_⟩
    intro i hi hi'
    have hhigh : i < prices.length := length_calculate hout ▸ hi
    have hhigh' : i < prices'.length := length_calculate hout' ▸ hi'
    rw [List.get_eq_getElem, List.get_eq_getElem, ← Option.some_le_some,
      ← List.getElem?_eq_getElem hi, ← List.getElem?_eq_getElem hi']
    by_cases hlow : period - 1 ≤ i
    · have hfits' := (fits_of_small hsmall hprices').take (i + 1)
      have henough : period.toNat ≤ (prices.take (i + 1)).length := by
        rw [List.length_take]
        omega
      have hparts := List.forall₂_take (i + 1) hle
      rw [getElem?_calculate hperiod hout hlow hhigh, getElem?_calculate hperiod hout' hlow hhigh',
        Option.some_le_some, roundToPoints_stateQ (hpart i) hpositive henough,
        roundToPoints_stateQ hfits' hpositive (hparts.length_eq ▸ henough)]
      exact FixedPoint.nearestDiv_mono unit_pos
        (stateQ_mono (hpart i) hpositive henough hfits' hparts)
    · rw [getElem?_calculate_zero hperiod hout (by omega) hhigh,
        getElem?_calculate_zero hperiod hout' (by omega) hhigh', Option.some_le_some]
  · intro price hconstant i value hlow hvalue
    have hmem := hwithin hlow hvalue fun other hother =>
      ⟨(hconstant other (List.mem_of_mem_take hother)).ge,
        (hconstant other (List.mem_of_mem_take hother)).le⟩
    exact le_antisymm hmem.2 hmem.1
  · exact intermediates_fit (fits_of_small hsmall hprices) hpositive (by omega)

theorem accurate_rise : ∃ out, calculate [100, 200, 400] 2 = .ok out ∧ out.length = 3 ∧
    ∀ value : ℤ, out[2]? = some value →
      |(value : ℚ) - exactEma [100, 200, 400] 2| ≤ 1 / 2 + ((400 - 100 : ℤ) + 1) / (2 * alphaQ 2) := by
  obtain ⟨out, hout, hlength, hclose, -⟩ :=
    @accurate 2 [100, 200, 400] (by decide) (by decide) (by decide)
  exact ⟨out, hout, hlength, fun value hvalue =>
    (hclose 2 value (by decide) hvalue).2.2 100 400 (by decide)⟩

end Ema

end BacktestEngine

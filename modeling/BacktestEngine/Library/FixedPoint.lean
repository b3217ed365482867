import Mathlib

/-! # Fixed-point tracking

A state that moves a share of its gap to each target, in whole units with the move rounded to
nearest, follows the state that moves without rounding.
-/

namespace FixedPoint

/-- The quotient rounded to nearest. -/
def nearestDiv (value unit : ℤ) : ℤ := (value + unit / 2) / unit

variable {unit : ℤ}

theorem two_mul_nearestDiv_le (hunit : 0 < unit) (value : ℤ) :
    2 * (nearestDiv value unit * unit) ≤ 2 * value + unit := by
  have h := Int.ediv_mul_le (value + unit / 2) hunit.ne'
  unfold nearestDiv
  omega

theorem le_two_mul_nearestDiv (hunit : 0 < unit) (value : ℤ) :
    2 * value ≤ 2 * (nearestDiv value unit * unit) + unit := by
  have h := Int.lt_ediv_add_one_mul_self (value + unit / 2) hunit
  rw [add_mul, one_mul] at h
  unfold nearestDiv
  omega

theorem le_nearestDiv_iff (hunit : 0 < unit) {value bound : ℤ} :
    bound ≤ nearestDiv value unit ↔ bound * unit ≤ value + unit / 2 :=
  Int.le_ediv_iff_mul_le hunit

theorem nearestDiv_lt_iff (hunit : 0 < unit) {value bound : ℤ} :
    nearestDiv value unit < bound ↔ value + unit / 2 < bound * unit :=
  Int.ediv_lt_iff_lt_mul hunit

theorem nearestDiv_mono (hunit : 0 < unit) {value value' : ℤ} (h : value ≤ value') :
    nearestDiv value unit ≤ nearestDiv value' unit :=
  Int.ediv_le_ediv hunit (by omega)

theorem nearestDiv_mul (hunit : 0 < unit) (quotient : ℤ) :
    nearestDiv (quotient * unit) unit = quotient := by
  rw [nearestDiv, add_comm, Int.add_mul_ediv_right _ _ hunit.ne',
    Int.ediv_eq_zero_of_lt (by omega) (by omega), zero_add]

/-- Rounding stays within bounds that are whole quotients. -/
theorem nearestDiv_mem_Icc (hunit : 0 < unit) {value low high : ℤ}
    (hlow : low * unit ≤ value) (hhigh : value ≤ high * unit) :
    nearestDiv value unit ∈ Set.Icc low high := by
  constructor
  · rw [← nearestDiv_mul hunit low]
    exact nearestDiv_mono hunit hlow
  · rw [← nearestDiv_mul hunit high]
    exact nearestDiv_mono hunit hhigh

theorem abs_nearestDiv_sub_le (hunit : 0 < unit) (value : ℤ) :
    |(nearestDiv value unit : ℚ) - value / unit| ≤ 1 / 2 := by
  have hpos : (0 : ℚ) < unit := by exact_mod_cast hunit
  have hle : (2 : ℚ) * (nearestDiv value unit * unit) ≤ 2 * value + unit := by
    exact_mod_cast two_mul_nearestDiv_le hunit value
  have hge : (2 : ℚ) * value ≤ 2 * (nearestDiv value unit * unit) + unit := by
    exact_mod_cast le_two_mul_nearestDiv hunit value
  rw [abs_le]
  constructor
  · rw [le_sub_iff_add_le, neg_add_eq_sub, sub_le_iff_le_add, div_le_iff₀ hpos]
    linarith
  · rw [sub_le_iff_le_add, ← sub_le_iff_le_add', le_div_iff₀ hpos]
    linarith

/-! ## One step -/

/-- Moves the state by its share of the gap, in whole units. -/
def step (unit weight state target : ℤ) : ℤ :=
  state + nearestDiv (weight * (target - state)) unit

/-- Moves the state by its share of the gap. -/
def track (weight state target : ℚ) : ℚ := state + weight * (target - state)

section Step

variable {weight : ℤ} (hunit : 0 < unit) (hnonneg : 0 ≤ weight) (hle : weight ≤ unit)
include hunit hnonneg hle

/-- The state does not leave the segment to its target. -/
theorem step_mem_Icc {state target low high : ℤ} (hstate : state ∈ Set.Icc low high)
    (htarget : target ∈ Set.Icc low high) : step unit weight state target ∈ Set.Icc low high := by
  obtain ⟨hlow, hhigh⟩ := hstate
  obtain ⟨hlow', hhigh'⟩ := htarget
  rcases le_total state target with h | h
  · have hgap : 0 ≤ target - state := by omega
    have hmove : nearestDiv (weight * (target - state)) unit ∈ Set.Icc 0 (target - state) := by
      apply nearestDiv_mem_Icc hunit
      · rw [zero_mul]
        exact mul_nonneg hnonneg hgap
      · rw [mul_comm]
        exact mul_le_mul_of_nonneg_left hle hgap
    obtain ⟨hmove, hmove'⟩ := hmove
    constructor <;> unfold step <;> omega
  · have hgap : target - state ≤ 0 := by omega
    have hmove : nearestDiv (weight * (target - state)) unit ∈ Set.Icc (target - state) 0 := by
      apply nearestDiv_mem_Icc hunit
      · rw [mul_comm]
        exact mul_le_mul_of_nonpos_right hle hgap
      · rw [zero_mul]
        exact mul_nonpos_of_nonneg_of_nonpos hnonneg hgap
    obtain ⟨hmove, hmove'⟩ := hmove
    constructor <;> unfold step <;> omega

theorem step_mono {state state' target target' : ℤ} (hstate : state ≤ state')
    (htarget : target ≤ target') :
    step unit weight state target ≤ step unit weight state' target' := by
  have hshift (state target : ℤ) : step unit weight state target =
      nearestDiv (state * (unit - weight) + weight * target) unit := by
    have hadd : state * (unit - weight) + weight * target + unit / 2 =
        weight * (target - state) + unit / 2 + state * unit := by ring
    rw [step, nearestDiv, nearestDiv, hadd, Int.add_mul_ediv_right _ _ hunit.ne', add_comm]
  rw [hshift, hshift]
  apply nearestDiv_mono hunit
  have hkept := mul_le_mul_of_nonneg_right hstate (show 0 ≤ unit - weight by omega)
  have hmoved := mul_le_mul_of_nonneg_left htarget hnonneg
  omega

end Step

/-- The rounded state is below a whole target when what is left of the gap rounds to one or more. -/
theorem nearestDiv_step_lt_iff (hunit : 0 < unit) {weight state whole : ℤ} :
    nearestDiv (step unit weight state (whole * unit)) unit < whole ↔
      weight * (whole * unit - state) + unit / 2 < (whole * unit - state - unit / 2) * unit := by
  calc nearestDiv (step unit weight state (whole * unit)) unit < whole
      ↔ step unit weight state (whole * unit) + unit / 2 < whole * unit := nearestDiv_lt_iff hunit
    _ ↔ nearestDiv (weight * (whole * unit - state)) unit < whole * unit - state - unit / 2 := by
      unfold step
      omega
    _ ↔ _ := nearestDiv_lt_iff hunit

theorem lt_nearestDiv_step_iff (hunit : 0 < unit) {weight state whole : ℤ} :
    whole < nearestDiv (step unit weight state (whole * unit)) unit ↔
      (whole * unit - state + (unit - unit / 2)) * unit ≤
        weight * (whole * unit - state) + unit / 2 := by
  calc whole < nearestDiv (step unit weight state (whole * unit)) unit
      ↔ (whole + 1) * unit ≤ step unit weight state (whole * unit) + unit / 2 :=
        le_nearestDiv_iff hunit
    _ ↔ whole * unit - state + (unit - unit / 2) ≤
        nearestDiv (weight * (whole * unit - state)) unit := by
      rw [add_mul, one_mul]
      unfold step
      omega
    _ ↔ _ := le_nearestDiv_iff hunit

section Track

variable {weight : ℚ} (hnonneg : 0 ≤ weight) (hle : weight ≤ 1)
include hnonneg hle

theorem track_mem_Icc {state target low high : ℚ} (hstate : state ∈ Set.Icc low high)
    (htarget : target ∈ Set.Icc low high) : track weight state target ∈ Set.Icc low high := by
  have hsplit : track weight state target = (1 - weight) * state + weight * target := by
    unfold track
    ring
  have hrest : 0 ≤ 1 - weight := by linarith
  rw [hsplit]
  constructor
  · calc low = (1 - weight) * low + weight * low := by ring
      _ ≤ (1 - weight) * state + weight * target :=
        add_le_add (mul_le_mul_of_nonneg_left hstate.1 hrest)
          (mul_le_mul_of_nonneg_left htarget.1 hnonneg)
  · calc (1 - weight) * state + weight * target ≤ (1 - weight) * high + weight * high :=
        add_le_add (mul_le_mul_of_nonneg_left hstate.2 hrest)
          (mul_le_mul_of_nonneg_left htarget.2 hnonneg)
      _ = high := by ring

end Track

/-! ## Runs -/

/-- The two errors of a step, that of the weight and that of the rounding, add to what is left of
the error before it. -/
theorem abs_step_sub_track_le (hunit : 0 < unit) {weight state target : ℤ} {share exact : ℚ}
    (hle : weight ≤ unit) :
    |(step unit weight state target : ℚ) - track share exact target| ≤
      (1 - weight / unit) * |(state : ℚ) - exact| +
        (|(weight / unit : ℚ) - share| * |(target : ℚ) - exact| + 1 / 2) := by
  have hpos : (0 : ℚ) < unit := by exact_mod_cast hunit
  have hshare : (weight / unit : ℚ) ≤ 1 := by
    rw [div_le_one hpos]
    exact_mod_cast hle
  have hround := abs_nearestDiv_sub_le hunit (weight * (target - state))
  push_cast at hround
  have hsplit : (step unit weight state target : ℚ) - track share exact target =
      (1 - weight / unit) * (state - exact) + ((weight / unit - share) * (target - exact) +
        (nearestDiv (weight * (target - state)) unit - weight * (target - state) / unit)) := by
    unfold step track
    push_cast
    ring
  rw [hsplit]
  calc |(1 - weight / unit) * ((state : ℚ) - exact) + ((weight / unit - share) *
        (target - exact) + (nearestDiv (weight * (target - state)) unit -
          weight * (target - state) / unit))|
      ≤ |(1 - weight / unit) * ((state : ℚ) - exact)| +
        (|(weight / unit - share) * ((target : ℚ) - exact)| +
          |nearestDiv (weight * (target - state)) unit -
            (weight : ℚ) * (target - state) / unit|) :=
        (abs_add_le _ _).trans (add_le_add_right (abs_add_le _ _) _)
    _ ≤ _ := by
      rw [abs_mul, abs_mul, abs_of_nonneg (show (0 : ℚ) ≤ 1 - weight / unit by linarith)]
      exact add_le_add_right (add_le_add_right hround _) _

variable {weight low high : ℤ} {targets : List ℤ}

theorem foldl_step_mem_Icc (hunit : 0 < unit) (hnonneg : 0 ≤ weight) (hle : weight ≤ unit)
    (htargets : ∀ target ∈ targets, target ∈ Set.Icc low high) {state : ℤ}
    (hstate : state ∈ Set.Icc low high) :
    targets.foldl (step unit weight) state ∈ Set.Icc low high := by
  induction targets generalizing state with
  | nil => exact hstate
  | cons target targets ih =>
    obtain ⟨htarget, htargets⟩ := List.forall_mem_cons.mp htargets
    exact ih htargets (step_mem_Icc hunit hnonneg hle hstate htarget)

theorem foldl_step_mono (hunit : 0 < unit) (hnonneg : 0 ≤ weight) (hle : weight ≤ unit)
    {targets' : List ℤ} (htargets : List.Forall₂ (· ≤ ·) targets targets') {state state' : ℤ}
    (hstate : state ≤ state') :
    targets.foldl (step unit weight) state ≤ targets'.foldl (step unit weight) state' := by
  induction htargets generalizing state state' with
  | nil => exact hstate
  | cons htarget _ ih => exact ih (step_mono hunit hnonneg hle hstate htarget)

/-- The exact states over a list of whole targets. -/
def trackAll (share state : ℚ) (targets : List ℤ) : ℚ :=
  targets.foldl (fun state target => track share state target) state

theorem trackAll_map_mul (share state : ℚ) (unit : ℤ) (targets : List ℤ) :
    trackAll share (state * unit) (targets.map (· * unit)) = trackAll share state targets * unit := by
  induction targets generalizing state with
  | nil => rfl
  | cons target targets ih =>
    have hscale : track share (state * unit) (target * unit : ℤ) =
        track share state target * unit := by
      unfold track
      push_cast
      ring
    calc trackAll share (state * unit) ((target :: targets).map (· * unit))
        = trackAll share (track share (state * unit) (target * unit : ℤ))
            (targets.map (· * unit)) := rfl
      _ = trackAll share (track share state target) targets * unit := by rw [hscale, ih]

/-- An error bound that covers the start and one step covers the run. -/
theorem abs_foldl_step_sub_le (hunit : 0 < unit) (hle : weight ≤ unit)
    {share bound : ℚ} (hshare : 0 ≤ share) (hshare' : share ≤ 1)
    (hbound : |(weight / unit : ℚ) - share| * (high - low) + 1 / 2 ≤ weight / unit * bound)
    (htargets : ∀ target ∈ targets, target ∈ Set.Icc low high) {state : ℤ} {exact : ℚ}
    (hexact : exact ∈ Set.Icc (low : ℚ) high) (hstart : |(state : ℚ) - exact| ≤ bound) :
    |((targets.foldl (step unit weight) state : ℤ) : ℚ) - trackAll share exact targets| ≤ bound := by
  induction targets generalizing state exact with
  | nil => exact hstart
  | cons target targets ih =>
    obtain ⟨htarget, htargets⟩ := List.forall_mem_cons.mp htargets
    have hlow : (low : ℚ) ≤ target := by exact_mod_cast htarget.1
    have hhigh : (target : ℚ) ≤ high := by exact_mod_cast htarget.2
    apply ih htargets (track_mem_Icc hshare hshare' hexact ⟨hlow, hhigh⟩)
    have hpos : (0 : ℚ) < unit := by exact_mod_cast hunit
    have hone : (weight / unit : ℚ) ≤ 1 := by
      rw [div_le_one hpos]
      exact_mod_cast hle
    have hgap : |(target : ℚ) - exact| ≤ high - low := by
      rw [abs_le]
      constructor <;> linarith [hexact.1, hexact.2]
    have hkept := mul_le_mul_of_nonneg_left hstart (show (0 : ℚ) ≤ 1 - weight / unit by linarith)
    have hmoved := mul_le_mul_of_nonneg_left hgap (abs_nonneg ((weight / unit : ℚ) - share))
    calc |(step unit weight state target : ℚ) - track share exact target|
        ≤ (1 - weight / unit) * |(state : ℚ) - exact| +
          (|(weight / unit : ℚ) - share| * |(target : ℚ) - exact| + 1 / 2) :=
          abs_step_sub_track_le hunit hle
      _ ≤ bound := by linarith

end FixedPoint

import BacktestEngine.Library.Binary64Bits

/-! # Arithmetic of doubles

The exact result, rounded once. What is infinite or no number follows the standard.
-/

namespace Binary64

def neg : Binary64 → Binary64
  | .finite q => .finite (-q)
  | .infinite negative => .infinite (!negative)
  | .nan => .nan

def sub : Binary64 → Binary64 → Binary64
  | .finite a, .finite b => nearest (a - b)
  | .infinite negative, .finite _ => .infinite negative
  | .finite _, .infinite negative => .infinite (!negative)
  | .infinite negative, .infinite negative' =>
    if negative = negative' then .nan else .infinite negative
  | .nan, _ | _, .nan => .nan

def mul : Binary64 → Binary64 → Binary64
  | .finite a, .finite b => nearest (a * b)
  | .infinite negative, .finite q | .finite q, .infinite negative =>
    if q = 0 then .nan else .infinite (negative ^^ decide (q < 0))
  | .infinite negative, .infinite negative' => .infinite (negative ^^ negative')
  | .nan, _ | _, .nan => .nan

/-- The quotient by a whole number above zero. -/
def divBy (n : ℤ) : Binary64 → Binary64
  | .finite q => nearest (q / n)
  | .infinite negative => .infinite negative
  | .nan => .nan

/-- A whole number as a double. -/
def ofInt (n : ℤ) : Binary64 := nearest n

theorem ofInt_eq {n : ℤ} (h : n.natAbs < 2 ^ 53) : ofInt n = .finite n := nearest_intCast h

/-! ## Signs -/

/-- Rounding knows no direction. -/
theorem roundHalfEven_neg (x : ℚ) : roundHalfEven (-x) = -roundHalfEven x := by
  have hlow := Int.floor_le x
  have hhigh := Int.lt_floor_add_one x
  rcases eq_or_lt_of_le hlow with hint | hfrac
  · have hneg := roundHalfEven_intCast (-⌊x⌋)
    rw [Int.cast_neg, hint] at hneg
    have hpos := roundHalfEven_intCast ⌊x⌋
    rw [hint] at hpos
    rw [hneg, hpos]
  · have hfloor : ⌊-x⌋ = -⌊x⌋ - 1 := by
      rw [Int.floor_eq_iff]
      push_cast
      constructor <;> linarith
    unfold roundHalfEven
    rw [hfloor]
    generalize ⌊x⌋ = n at *
    push_cast
    rcases lt_trichotomy (x - n) (1 / 2) with hlt | heq | hgt
    · rw [if_neg (by linarith), if_pos (by linarith), if_pos hlt]
      ring
    · have hmirror : -x - (-(n : ℚ) - 1) = 1 / 2 := by linarith
      rw [heq, hmirror]
      simp only [lt_self_iff_false, if_false]
      split_ifs <;> omega
    · rw [if_pos (by linarith), if_neg (by linarith), if_pos (by linarith)]
      ring

theorem quantum_neg (q : ℚ) : quantum (-q) = quantum q := by
  unfold quantum
  rw [magnitude_eq_abs, magnitude_eq_abs, abs_neg]

theorem rounded_neg (q : ℚ) : rounded (-q) = -rounded q := by
  unfold rounded
  rw [quantum_neg, neg_div, roundHalfEven_neg]
  push_cast
  ring

theorem nearest_neg (q : ℚ) : nearest (-q) = (nearest q).neg := by
  rw [nearest_eq, nearest_eq, rounded_neg, magnitude_eq_abs, magnitude_eq_abs, abs_neg]
  split_ifs with h
  · have hne : rounded q ≠ 0 := by
      rintro hzero
      rw [hzero, abs_zero] at h
      exact absurd h (not_le.mpr (by positivity))
    rcases lt_or_gt_of_ne hne with hneg | hpos
    · simp [neg, hneg, hneg.le]
    · simp [neg, hpos, hpos.le]
  · rfl

theorem mul_neg_left (x y : Binary64) : x.neg.mul y = (x.mul y).neg := by
  have hsign {q : ℚ} (hq : q ≠ 0) : decide (-q < 0) = !decide (q < 0) := by
    rcases lt_or_gt_of_ne hq with hneg | hpos
    · simp [hneg, hneg.le]
    · simp [hpos, hpos.le]
  cases x with
  | nan => cases y <;> rfl
  | infinite negative =>
    cases y with
    | nan => rfl
    | infinite negative' => cases negative <;> cases negative' <;> rfl
    | finite q =>
      simp only [neg, mul]
      split_ifs
      · rfl
      · cases negative <;> simp
  | finite a =>
    cases y with
    | nan => rfl
    | finite b =>
      simp only [neg, mul]
      rw [neg_mul, nearest_neg]
      rfl
    | infinite negative =>
      simp only [neg, mul, neg_eq_zero]
      split_ifs with hzero
      · rfl
      · rw [hsign hzero]
        cases negative <;> simp

/-! ## Exact steps and near ones -/

theorem nearest_zero : nearest 0 = .finite 0 := by
  have h := nearest_intCast (n := 0) (by norm_num)
  rwa [Int.cast_zero] at h

/-- A double is its own nearest. -/
theorem nearest_of_representable {q : ℚ} (h : Representable (.finite q)) :
    nearest q = .finite q := by
  obtain ⟨hrange, k, hk⟩ := h
  have hround : rounded q = q := by
    have hquanta : q / quantum q = k := by
      rw [div_eq_iff (quantum_pos q).ne']
      exact hk
    rw [rounded, hquanta, roundHalfEven_intCast]
    exact hk.symm
  rw [nearest_eq, hround, magnitude_eq_abs, if_neg (not_le.mpr hrange)]

theorem mul_finite_one {x : Binary64} (h : Representable x) : x.mul (.finite 1) = x := by
  cases x with
  | nan => rfl
  | infinite negative =>
    have hpos : ¬ (1 : ℚ) < 0 := by norm_num
    simp [mul, hpos]
  | finite q =>
    rw [mul, mul_one]
    exact nearest_of_representable h

theorem mul_finite_neg_one {x : Binary64} (h : Representable x) :
    x.mul (.finite (-1)) = x.neg := by
  cases x with
  | nan => rfl
  | infinite negative => simp [mul, neg]
  | finite q =>
    rw [mul, mul_neg_one, nearest_neg, nearest_of_representable h]

/-- Zero, or what is neither too small nor too large, has a double that is close to it. -/
theorem exists_nearest_of_zero_or {q : ℚ} (hlow : q = 0 ∨ (2 : ℚ) ^ (-1022 : ℤ) ≤ |q|)
    (hhigh : |q| < 2 ^ 1000) : ∃ r, nearest q = .finite r ∧ |r - q| ≤ |q| / 2 ^ 53 := by
  rcases hlow with rfl | hlow
  · exact ⟨0, nearest_zero, by simp⟩
  · exact exists_nearest hlow hhigh

/-- Two roundings move a product by less than one part in two to the 51. -/
theorem abs_sub_le_of_roundings {value first second size : ℚ}
    (hfirst : |first - value| ≤ |value| / 2 ^ 53)
    (hsecond : |second - first * size| ≤ |first * size| / 2 ^ 53) :
    |second - value * size| ≤ |value * size| / 2 ^ 51 := by
  have hstep : |first * size - value * size| ≤ |value * size| / 2 ^ 53 := by
    rw [← sub_mul, abs_mul, abs_mul, mul_div_right_comm]
    exact mul_le_mul_of_nonneg_right hfirst (abs_nonneg size)
  have hgrown : |first * size| ≤ |value * size| + |value * size| / 2 ^ 53 := by
    calc |first * size| = |value * size + (first * size - value * size)| := by
          rw [add_sub_cancel]
      _ ≤ |value * size| + |first * size - value * size| := abs_add_le _ _
      _ ≤ |value * size| + |value * size| / 2 ^ 53 := by gcongr
  have hnonneg := abs_nonneg (value * size)
  calc |second - value * size|
      = |(second - first * size) + (first * size - value * size)| := by rw [sub_add_sub_cancel]
    _ ≤ |second - first * size| + |first * size - value * size| := abs_add_le _ _
    _ ≤ (|value * size| + |value * size| / 2 ^ 53) / 2 ^ 53 + |value * size| / 2 ^ 53 := by
        apply add_le_add _ hstep
        exact hsecond.trans (by gcongr)
    _ ≤ |value * size| / 2 ^ 51 := by linarith

/-- The quotient of whole numbers times a whole number, in doubles. -/
theorem exists_divBy_mul {d m n : ℤ} (hd : |d| ≤ 2 ^ 32) (hm : 0 < m) (hm' : m ≤ 2 ^ 20)
    (hn : 0 < n) (hn' : n < 2 ^ 31) :
    ∃ p, ((ofInt d).divBy m).mul (.ofInt n) = .finite p ∧
      |p - (d / m : ℚ) * n| ≤ |(d / m : ℚ) * n| / 2 ^ 51 := by
  have hmq : (0 : ℚ) < m := by exact_mod_cast hm
  have hmq' : (m : ℚ) ≤ 2 ^ 20 := by exact_mod_cast hm'
  have hnq : (1 : ℚ) ≤ n := by exact_mod_cast hn
  have hnq' : (n : ℚ) ≤ 2 ^ 31 := by exact_mod_cast hn'.le
  have hdq : |(d : ℚ)| ≤ 2 ^ 32 := by exact_mod_cast hd
  have hhigh : |(d / m : ℚ)| ≤ 2 ^ 32 := by
    rw [abs_div, abs_of_pos hmq, div_le_iff₀ hmq]
    have hone : (1 : ℚ) ≤ m := by exact_mod_cast hm
    nlinarith
  have hlow : (d / m : ℚ) = 0 ∨ 1 / 2 ^ 20 ≤ |(d / m : ℚ)| := by
    rcases eq_or_ne d 0 with rfl | hne
    · exact .inl (by simp)
    · right
      have hone : (1 : ℚ) ≤ |(d : ℚ)| := by exact_mod_cast Int.one_le_abs hne
      rw [abs_div, abs_of_pos hmq]
      exact div_le_div₀ (by positivity) hone hmq hmq'
  generalize hexact : (d / m : ℚ) = value at hhigh hlow
  have htiny : ∀ q : ℚ, 1 / 2 ^ 21 ≤ |q| → (2 : ℚ) ^ (-1022 : ℤ) ≤ |q| := fun q hq =>
    calc (2 : ℚ) ^ (-1022 : ℤ) ≤ 2 ^ (-21 : ℤ) := zpow_le_zpow_right₀ (by norm_num) (by norm_num)
      _ = 1 / 2 ^ 21 := by norm_num
      _ ≤ |q| := hq
  have habs : |(n : ℚ)| = n := abs_of_pos (by linarith)
  obtain ⟨first, hfirst, herror⟩ := exists_nearest_of_zero_or
    (hlow.imp_right fun h => htiny value (le_trans (by norm_num) h))
    (hhigh.trans_lt (pow_lt_pow_right₀ (by norm_num) (by norm_num)))
  obtain ⟨herrorLow, herrorHigh⟩ := abs_le.mp herror
  have hfirstHigh : |first * n| < 2 ^ 1000 := by
    have hgrown : |first| ≤ 2 ^ 33 := by
      have := abs_add_le (first - value) value
      rw [sub_add_cancel] at this
      linarith
    rw [abs_mul, habs]
    calc |first| * n ≤ 2 ^ 33 * 2 ^ 31 := by gcongr
      _ = 2 ^ 64 := by norm_num
      _ < 2 ^ 1000 := pow_lt_pow_right₀ (by norm_num) (by norm_num)
  have hfirstLow : first * n = 0 ∨ (2 : ℚ) ^ (-1022 : ℤ) ≤ |first * n| := by
    rcases hlow with hzero | hlarge
    · left
      rw [hzero, abs_zero, zero_div] at herror
      rw [sub_eq_zero.mp (abs_nonpos_iff.mp herror), zero_mul]
    · right
      apply htiny
      have hshrunk : |value| ≤ |first| + |value| / 2 ^ 53 := by
        have := abs_add_le first (value - first)
        rw [add_sub_cancel, abs_sub_comm] at this
        linarith
      rw [abs_mul, habs]
      calc 1 / 2 ^ 21 ≤ |first| := by linarith
        _ ≤ |first| * n := le_mul_of_one_le_right (abs_nonneg first) hnq
  obtain ⟨second, hsecond, herror'⟩ := exists_nearest_of_zero_or hfirstLow hfirstHigh
  refine ⟨second, ?_, abs_sub_le_of_roundings herror herror'⟩
  have hd' := abs_le.mp hd
  rw [ofInt_eq (by omega), ofInt_eq (by omega), divBy, hexact, hfirst, mul, hsecond]

theorem sign_iff_of_near {near value : ℚ} (h : |near - value| ≤ |value| / 2 ^ 51) :
    (0 < near ↔ 0 < value) ∧ (near < 0 ↔ value < 0) := by
  obtain ⟨hlow, hhigh⟩ := abs_le.mp h
  rcases lt_trichotomy value 0 with hneg | rfl | hpos
  · rw [abs_of_neg hneg] at hlow hhigh
    have : near < 0 := by linarith
    constructor <;> constructor <;> intro <;> linarith
  · simp only [abs_zero, zero_div] at hlow hhigh
    have : near = 0 := by linarith
    simp [this]
  · rw [abs_of_pos hpos] at hlow hhigh
    have : 0 < near := by linarith
    constructor <;> constructor <;> intro <;> linarith

end Binary64

import Mathlib.Algebra.Order.Field.Power
import Mathlib.Tactic.Positivity
import Mathlib.Tactic.Ring
import BacktestEngine.Library.Binary64

/-! # The bits of a double, and how far rounding goes

A double is a whole number of quanta, which its 64 bits spell: a sign, eleven bits of exponent and
the fraction. Rounding moves a normal fraction by at most one part in two to the 53.
-/

namespace Binary64

/-! ## Rounding -/

theorem abs_roundHalfEven_sub_le (x : ℚ) : |(roundHalfEven x : ℚ) - x| ≤ 1 / 2 := by
  have hlow := Int.floor_le x
  have hhigh := Int.lt_floor_add_one x
  unfold roundHalfEven
  dsimp only
  rw [abs_le]
  split_ifs <;> push_cast <;> constructor <;> linarith

theorem lround_eq {x : ℚ} {n : ℤ} (h : |x - n| < 1 / 2) : lround x = n := by
  obtain ⟨hlow, hhigh⟩ := abs_lt.mp h
  unfold lround
  split_ifs
  · rw [Int.floor_eq_iff]
    constructor <;> linarith
  · rw [neg_eq_iff_eq_neg, Int.floor_eq_iff]
    push_cast
    constructor <;> linarith

theorem magnitude_eq_abs (q : ℚ) : magnitude q = |q| := by
  unfold magnitude
  split_ifs with h
  · rw [abs_of_nonneg h]
  · rw [abs_of_neg (not_le.mp h)]

theorem quantum_pos (q : ℚ) : 0 < quantum q := by
  unfold quantum
  positivity

/-- What the bits of the exponent tell. -/
def scale (q : ℚ) : ℤ := max (Int.log 2 (magnitude q) - 52) (-1074)

theorem quantum_eq (q : ℚ) : quantum q = 2 ^ scale q := rfl

/-- A fraction is less than two to the 53 quanta. -/
theorem abs_lt_quanta (q : ℚ) : |q| < 2 ^ (53 : ℤ) * quantum q := by
  have hlog : |q| < 2 ^ (Int.log 2 |q| + 1) := Int.lt_zpow_succ_log_self (by norm_num) |q|
  apply hlog.trans_le
  rw [quantum, magnitude_eq_abs, ← zpow_add₀ (by norm_num)]
  apply zpow_le_zpow_right₀ (by norm_num)
  omega

/-- A normal fraction is at least two to the 52 quanta. -/
theorem quanta_le_abs {q : ℚ} (h : (2 : ℚ) ^ (-1022 : ℤ) ≤ |q|) :
    2 ^ (52 : ℤ) * quantum q ≤ |q| := by
  have hpos : 0 < |q| := lt_of_lt_of_le (by positivity) h
  have hlog : -1022 ≤ Int.log 2 |q| := (Int.zpow_le_iff_le_log (by norm_num) hpos).mp h
  have hfloor : (2 : ℚ) ^ Int.log 2 |q| ≤ |q| := Int.zpow_log_le_self (by norm_num) hpos
  rw [quantum, magnitude_eq_abs, ← zpow_add₀ (by norm_num), max_eq_left (by omega)]
  rwa [add_sub_cancel]

/-- The nearest multiple of the quantum. -/
def rounded (q : ℚ) : ℚ := roundHalfEven (q / quantum q) * quantum q

theorem nearest_eq (q : ℚ) :
    nearest q = if 2 ^ 1024 ≤ magnitude (rounded q) then .infinite (decide (rounded q < 0))
      else .finite (rounded q) := rfl

theorem abs_rounded_sub_le (q : ℚ) : |rounded q - q| ≤ quantum q / 2 := by
  have hpos := quantum_pos q
  have hround := abs_roundHalfEven_sub_le (q / quantum q)
  have hfactor : rounded q - q = (roundHalfEven (q / quantum q) - q / quantum q) * quantum q := by
    rw [sub_mul, div_mul_cancel₀ _ hpos.ne']
    rfl
  rw [hfactor, abs_mul, abs_of_pos hpos]
  linarith [mul_le_mul_of_nonneg_right hround hpos.le]

/-- Rounding a normal fraction moves it by at most one part in two to the 53. -/
theorem abs_rounded_sub_le_of_normal {q : ℚ} (h : (2 : ℚ) ^ (-1022 : ℤ) ≤ |q|) :
    |rounded q - q| ≤ |q| / 2 ^ 53 := by
  have hround := abs_rounded_sub_le q
  have hquanta := quanta_le_abs h
  have hpow : ((2 : ℚ) ^ (52 : ℤ)) = 2 ^ 52 := by norm_num
  rw [hpow] at hquanta
  rw [le_div_iff₀ (by positivity)]
  linarith

/-- A normal fraction that is not too large has a double, which is close to it. -/
theorem exists_nearest {q : ℚ} (hlow : (2 : ℚ) ^ (-1022 : ℤ) ≤ |q|) (hhigh : |q| < 2 ^ 1000) :
    ∃ r, nearest q = .finite r ∧ |r - q| ≤ |q| / 2 ^ 53 := by
  have hround := abs_rounded_sub_le_of_normal hlow
  refine ⟨rounded q, ?_, hround⟩
  rw [nearest_eq, if_neg]
  rw [magnitude_eq_abs, not_le]
  calc |rounded q| ≤ |rounded q - q| + |q| := by
        simpa using abs_add_le (rounded q - q) q
    _ ≤ |q| / 2 ^ 53 + |q| := by gcongr
    _ ≤ |q| + |q| := by
        gcongr
        apply div_le_self (abs_nonneg q)
        norm_num
    _ < 2 ^ 1000 + 2 ^ 1000 := by gcongr
    _ = 2 ^ 1001 := by rw [← two_mul, ← pow_succ']
    _ ≤ 2 ^ 1024 := pow_le_pow_right₀ (by norm_num) (by norm_num)

theorem nearest_nonneg {q r : ℚ} (hq : 0 ≤ q) (h : nearest q = .finite r) : 0 ≤ r := by
  rw [nearest_eq] at h
  split_ifs at h
  cases h
  have hround := abs_roundHalfEven_sub_le (q / quantum q)
  have hpos := quantum_pos q
  have hquanta : 0 ≤ q / quantum q := by positivity
  have hnonneg : 0 ≤ roundHalfEven (q / quantum q) := by
    rw [← Int.lt_add_one_iff, ← Int.cast_lt (R := ℚ)]
    push_cast
    linarith [(abs_le.mp hround).1]
  exact mul_nonneg (by exact_mod_cast hnonneg) hpos.le

/-! ## Doubles among the fractions -/

/-- A fraction that is a double: a whole number of its quanta, and in range. -/
def Representable : Binary64 → Prop
  | .finite q => |q| < 2 ^ 1024 ∧ ∃ k : ℤ, q = k * quantum q
  | _ => True

theorem scale_le {q : ℚ} {e : ℤ} (hq : q ≠ 0) (hlt : |q| < 2 ^ (53 + e)) (he : -1074 ≤ e) :
    scale q ≤ e := by
  have hlog : Int.log 2 |q| < 53 + e :=
    (Int.lt_zpow_iff_log_lt (by norm_num) (abs_pos.mpr hq)).mp hlt
  unfold scale
  rw [magnitude_eq_abs]
  omega

/-- Fewer than two to the 53 of a unit that is not too small are whole quanta. -/
theorem exists_quanta {q : ℚ} {k e : ℤ} (hq : q = k * 2 ^ e) (hk : |k| < 2 ^ 53)
    (he : -1074 ≤ e) : ∃ k' : ℤ, q = k' * quantum q := by
  rcases eq_or_ne q 0 with rfl | hq0
  · exact ⟨0, by simp⟩
  have hscale : scale q ≤ e := by
    apply scale_le hq0 _ he
    have hunit : (0 : ℚ) < 2 ^ e := zpow_pos (by norm_num) e
    rw [hq, abs_mul, zpow_add₀ (by norm_num), abs_of_pos hunit]
    apply mul_lt_mul_of_pos_right _ hunit
    exact_mod_cast hk
  obtain ⟨n, hn⟩ : ∃ n : ℕ, e = n + scale q := ⟨(e - scale q).toNat, by omega⟩
  refine ⟨k * 2 ^ n, ?_⟩
  rw [quantum_eq]
  nth_rewrite 1 [hq]
  rw [hn, zpow_add₀ (by norm_num), zpow_natCast]
  push_cast
  ring

theorem abs_roundHalfEven_le (q : ℚ) : |roundHalfEven (q / quantum q)| ≤ 2 ^ 53 := by
  have hpos := quantum_pos q
  have hquanta : |q / quantum q| < 2 ^ 53 := by
    rw [abs_div, abs_of_pos hpos, div_lt_iff₀ hpos]
    exact_mod_cast abs_lt_quanta q
  have hround := abs_roundHalfEven_sub_le (q / quantum q)
  rw [← Int.lt_add_one_iff]
  rw [abs_lt] at hquanta ⊢
  rw [abs_le] at hround
  constructor
  · have hlow : (-(2 ^ 53 + 1) : ℚ) < roundHalfEven (q / quantum q) := by linarith
    exact_mod_cast hlow
  · have hhigh : (roundHalfEven (q / quantum q) : ℚ) < 2 ^ 53 + 1 := by linarith
    exact_mod_cast hhigh

/-- What rounding gives is a double. -/
theorem representable_nearest (q : ℚ) : Representable (nearest q) := by
  rw [nearest_eq]
  split_ifs with h
  · trivial
  · rw [magnitude_eq_abs, not_le] at h
    refine ⟨h, ?_⟩
    have hscale : -1074 ≤ scale q := le_max_right _ _
    rcases lt_or_eq_of_le (abs_roundHalfEven_le q) with hlt | heq
    · exact exists_quanta rfl hlt hscale
    · -- two to the 53 quanta are half as many of twice the size
      obtain ⟨k, hk⟩ : ∃ k : ℤ, roundHalfEven (q / quantum q) = k * 2 := by
        rcases abs_eq (by norm_num) |>.mp heq with heq | heq
        · exact ⟨2 ^ 52, by rw [heq]; norm_num⟩
        · exact ⟨-2 ^ 52, by rw [heq]; norm_num⟩
      rw [hk, abs_mul] at heq
      refine exists_quanta (k := k) (e := scale q + 1) ?_ ?_ (by omega)
      · rw [rounded, hk, quantum_eq, zpow_add_one₀ (by norm_num)]
        push_cast
        ring
      · norm_num at heq
        omega

/-! ## Bits -/

/-- The double of a sign, an exponent and a fraction. -/
def spelled (negative : Bool) (exponent fraction : ℕ) : Binary64 :=
  if exponent = 2047 then
    if fraction = 0 then .infinite negative else .nan
  else
    let m : ℚ := if exponent = 0 then fraction * 2 ^ (-1074 : ℤ)
      else (2 ^ 52 + fraction) * 2 ^ ((exponent : ℤ) - 1075)
    .finite (if negative then -m else m)

/-- The double that 64 bits spell. -/
def ofBits (bits : ℕ) : Binary64 :=
  spelled (bits / 2 ^ 63 % 2 = 1) (bits / 2 ^ 52 % 2 ^ 11) (bits % 2 ^ 52)

/-- The bits of a magnitude. The leading one of a normal fraction counts to the exponent. -/
def magnitudeBits (q : ℚ) : ℕ :=
  if q = 0 then 0 else (scale q + 1074).toNat * 2 ^ 52 + ⌊magnitude q / quantum q⌋.toNat

def toBits : Binary64 → ℕ
  | .finite q => (if q < 0 then 2 ^ 63 else 0) + magnitudeBits q
  | .infinite negative => (if negative then 2 ^ 63 else 0) + 2047 * 2 ^ 52
  | .nan => 2047 * 2 ^ 52 + 2 ^ 51

theorem ofBits_eq_spelled (negative : Bool) {exponent fraction : ℕ} (hexponent : exponent < 2048)
    (hfraction : fraction < 2 ^ 52) :
    ofBits ((if negative then 2 ^ 63 else 0) + (exponent * 2 ^ 52 + fraction)) =
      spelled negative exponent fraction := by
  unfold ofBits
  congr 1
  · cases negative
    · simp only [Bool.false_eq_true, if_false, decide_eq_false_iff_not]
      omega
    · simp only [if_true, decide_eq_true_eq]
      omega
  · split_ifs <;> omega
  · split_ifs <;> omega

/-- A magnitude in quanta: the subnormal ones have the smallest quantum and no leading one. -/
theorem exists_magnitude {q : ℚ} (hq : q ≠ 0) (h : Representable (.finite q)) :
    ∃ m : ℕ, |q| = m * quantum q ∧ m < 2 ^ 53 ∧ (m < 2 ^ 52 → scale q = -1074) ∧
      scale q ≤ 971 ∧ magnitudeBits q = (scale q + 1074).toNat * 2 ^ 52 + m := by
  obtain ⟨hrange, k, hk⟩ := h
  have hpos := quantum_pos q
  have habs : |q| = k.natAbs * quantum q := by
    nth_rewrite 1 [hk]
    rw [abs_mul, abs_of_pos hpos, Nat.cast_natAbs, Int.cast_abs]
  refine ⟨k.natAbs, habs, ?_, ?_, ?_, ?_⟩
  · have hlt := abs_lt_quanta q
    rw [habs] at hlt
    exact_mod_cast lt_of_mul_lt_mul_right hlt hpos.le
  · intro hsmall
    by_contra hscale
    have hlog : -1022 ≤ Int.log 2 |q| := by
      unfold scale at hscale
      rw [magnitude_eq_abs] at hscale
      omega
    have hquanta := quanta_le_abs
      ((Int.zpow_le_iff_le_log (by norm_num) (abs_pos.mpr hq)).mpr hlog)
    rw [habs] at hquanta
    have hle : 2 ^ 52 ≤ k.natAbs := by exact_mod_cast le_of_mul_le_mul_right hquanta hpos
    omega
  · apply scale_le hq _ (by norm_num)
    rwa [show (53 + 971 : ℤ) = (1024 : ℕ) from rfl, zpow_natCast]
  · have hdiv : magnitude q / quantum q = (k.natAbs : ℤ) := by
      rw [magnitude_eq_abs, habs, mul_div_cancel_right₀ _ hpos.ne']
      rfl
    rw [magnitudeBits, if_neg hq, hdiv, Int.floor_intCast, Int.toNat_natCast]

theorem magnitudeBits_lt {q : ℚ} (h : Representable (.finite q)) :
    magnitudeBits q < 2047 * 2 ^ 52 := by
  rcases eq_or_ne q 0 with rfl | hq
  · simp [magnitudeBits]
  · obtain ⟨m, -, hm, hsub, hscale, hmagnitude⟩ := exists_magnitude hq h
    have hlow : -1074 ≤ scale q := le_max_right _ _
    rw [hmagnitude]
    omega

theorem toBits_lt {x : Binary64} (h : Representable x) : toBits x < 2 ^ 64 := by
  cases x with
  | nan => norm_num [toBits]
  | infinite negative => cases negative <;> norm_num [toBits]
  | finite q =>
    have hmagnitude := magnitudeBits_lt h
    simp only [toBits]
    split_ifs <;> omega

theorem signed_eq {q m : ℚ} (hm : |q| = m) : (if q < 0 then -m else m) = q := by
  split_ifs with hneg
  · rw [← hm, abs_of_neg hneg, neg_neg]
  · rw [← hm, abs_of_nonneg (not_lt.mp hneg)]

/-- A double is read back from its bits. -/
theorem ofBits_toBits {x : Binary64} (h : Representable x) : ofBits (toBits x) = x := by
  cases x with
  | nan => rfl
  | infinite negative => cases negative <;> rfl
  | finite q =>
    have hbits (exponent fraction : ℕ) (he : exponent < 2047) (hf : fraction < 2 ^ 52)
        (hmagnitude : magnitudeBits q = exponent * 2 ^ 52 + fraction) :
        ofBits (toBits (.finite q)) = spelled (decide (q < 0)) exponent fraction := by
      rw [← ofBits_eq_spelled _ (by omega) hf, toBits, hmagnitude]
      simp
    rcases eq_or_ne q 0 with rfl | hq
    · rw [hbits 0 0 (by norm_num) (by norm_num) (by simp [magnitudeBits])]
      simp [spelled]
    obtain ⟨m, habs, hm, hsub, hscale, hmagnitude⟩ := exists_magnitude hq h
    have hlow : -1074 ≤ scale q := le_max_right _ _
    rcases Nat.lt_or_ge m (2 ^ 52) with hsmall | hlarge
    · have hvalue : |q| = m * 2 ^ (-1074 : ℤ) := by rw [habs, quantum_eq, hsub hsmall]
      rw [hbits 0 m (by norm_num) hsmall (by rw [hmagnitude, hsub hsmall]; simp)]
      simp only [spelled, decide_eq_true_eq, if_true]
      rw [signed_eq hvalue]
      rfl
    · obtain ⟨n, hn⟩ : ∃ n : ℕ, scale q + 1074 = n := ⟨(scale q + 1074).toNat, by omega⟩
      obtain ⟨f, rfl⟩ := Nat.exists_eq_add_of_le hlarge
      rw [hbits (n + 1) f (by omega) (by omega) (by rw [hmagnitude, hn, Int.toNat_natCast]; ring)]
      have hvalue : |q| = (2 ^ 52 + f) * 2 ^ (((n + 1 : ℕ) : ℤ) - 1075) := by
        rw [habs, quantum_eq]
        push_cast
        congr 2
        omega
      simp only [spelled, Nat.add_one_ne_zero, if_false, decide_eq_true_eq]
      rw [if_neg (by omega), signed_eq hvalue]

/-- Fewer than two to the 53 of a unit in range are a double. -/
theorem representable_units {q : ℚ} {k e : ℤ} (hq : q = k * 2 ^ e) (hk : |k| < 2 ^ 53)
    (hlow : -1074 ≤ e) (hhigh : e ≤ 971) : Representable (.finite q) := by
  refine ⟨?_, exists_quanta hq hk hlow⟩
  have hunit : (0 : ℚ) < 2 ^ e := zpow_pos (by norm_num) e
  have hcast : |(k : ℚ)| < 2 ^ (53 : ℤ) := by exact_mod_cast hk
  rw [hq, abs_mul, abs_of_pos hunit]
  calc |(k : ℚ)| * 2 ^ e < 2 ^ (53 : ℤ) * 2 ^ e := mul_lt_mul_of_pos_right hcast hunit
    _ = 2 ^ (53 + e) := by rw [zpow_add₀ (by norm_num)]
    _ ≤ 2 ^ ((1024 : ℕ) : ℤ) := zpow_le_zpow_right₀ (by norm_num) (by push_cast; omega)
    _ = 2 ^ 1024 := zpow_natCast _ _

/-- Whatever 64 bits spell is a double. -/
theorem representable_ofBits (bits : ℕ) : Representable (ofBits bits) := by
  have hsigned {m : ℕ} {e : ℤ} (hm : m < 2 ^ 53) (hlow : -1074 ≤ e) (hhigh : e ≤ 971)
      (negative : Bool) :
      Representable (.finite (if negative then -((m : ℚ) * 2 ^ e) else m * 2 ^ e)) := by
    cases negative with
    | true =>
      refine representable_units (k := -m) (e := e) ?_ ?_ hlow hhigh
      · push_cast
        rw [if_pos rfl]
        ring
      · rw [abs_neg, abs_of_nonneg (by omega)]
        omega
    | false =>
      refine representable_units (k := m) (e := e) ?_ ?_ hlow hhigh
      · push_cast
        rfl
      · rw [abs_of_nonneg (by omega)]
        omega
  have hfraction : bits % 2 ^ 52 < 2 ^ 52 := Nat.mod_lt _ (by norm_num)
  have hexponent : bits / 2 ^ 52 % 2 ^ 11 < 2 ^ 11 := Nat.mod_lt _ (by norm_num)
  unfold ofBits
  generalize bits % 2 ^ 52 = fraction at hfraction
  generalize bits / 2 ^ 52 % 2 ^ 11 = exponent at hexponent
  unfold spelled
  by_cases htop : exponent = 2047
  · rw [if_pos htop]
    split_ifs <;> trivial
  rw [if_neg htop]
  by_cases hsubnormal : exponent = 0
  · simp only [if_pos hsubnormal]
    exact hsigned (by omega) le_rfl (by norm_num) _
  · simp only [if_neg hsubnormal]
    have hnormal := hsigned (m := 2 ^ 52 + fraction) (e := (exponent : ℤ) - 1075) (by omega)
      (by omega) (by omega) (decide (bits / 2 ^ 63 % 2 = 1))
    push_cast at hnormal
    exact hnormal

end Binary64

import Mathlib.Data.Int.Log
import Mathlib.Data.Rat.Floor
import Mathlib.Tactic.Linarith

/-! # Doubles and their text

A finite double is the fraction it stands for. Text is read exactly and then rounded to the
nearest double, to even in the middle; what has no digits is no number, and what rounds out
of range is an error.
-/

/-- A double, with one zero. -/
inductive Binary64
  | finite (q : ℚ)
  | infinite (negative : Bool)
  | nan
  deriving DecidableEq, Repr

namespace Binary64

/-- The nearest integer, away from zero in the middle. -/
def lround (q : ℚ) : ℤ := if 0 ≤ q then ⌊q + 1 / 2⌋ else -⌊1 / 2 - q⌋

/-- The nearest integer, the even one in the middle. -/
def roundHalfEven (q : ℚ) : ℤ :=
  let n := ⌊q⌋
  if q - n < 1 / 2 then n
  else if 1 / 2 < q - n then n + 1
  else if n % 2 = 0 then n else n + 1

def magnitude (q : ℚ) : ℚ := if 0 ≤ q then q else -q

/-- What the doubles near a fraction are multiples of. -/
def quantum (q : ℚ) : ℚ := 2 ^ max (Int.log 2 (magnitude q) - 52) (-1074)

/-- The nearest double. -/
def nearest (q : ℚ) : Binary64 :=
  let r := roundHalfEven (q / quantum q) * quantum q
  if 2 ^ 1024 ≤ magnitude r then .infinite (decide (r < 0)) else .finite r

theorem lround_intCast (n : ℤ) : lround n = n := by
  have hhalf (m : ℤ) : ⌊(m : ℚ) + 1 / 2⌋ = m := by
    rw [Int.floor_intCast_add]
    norm_num
  unfold lround
  split_ifs
  · exact hhalf n
  · have hneg := hhalf (-n)
    rw [Int.cast_neg, neg_add_eq_sub] at hneg
    rw [hneg, neg_neg]

theorem roundHalfEven_intCast (n : ℤ) : roundHalfEven n = n := by
  unfold roundHalfEven
  rw [Int.floor_intCast]
  dsimp only
  rw [sub_self]
  exact if_pos (by norm_num)

theorem magnitude_intCast (n : ℤ) : magnitude n = (n.natAbs : ℚ) := by
  unfold magnitude
  rcases le_or_gt 0 n with h | h
  · rw [if_pos (by exact_mod_cast h), Nat.cast_natAbs, abs_of_nonneg h]
  · rw [if_neg (by exact_mod_cast h.not_ge), Nat.cast_natAbs, abs_of_neg h]
    push_cast
    rfl

/-- An integer of at most 53 bits is a double. -/
theorem nearest_intCast {n : ℤ} (h : n.natAbs < 2 ^ 53) : nearest n = .finite n := by
  have hlog : Int.log 2 (magnitude n) ≤ 52 := by
    rw [magnitude_intCast, Int.log_natCast]
    have := Nat.log_lt_of_lt_pow' (by norm_num) h
    omega
  obtain ⟨k, hk⟩ : ∃ k : ℕ, max (Int.log 2 (magnitude n) - 52) (-1074) = -(k : ℤ) :=
    ⟨(-max (Int.log 2 (magnitude n) - 52) (-1074)).toNat, by omega⟩
  have hquantum : quantum n = (2 ^ k)⁻¹ := by
    rw [quantum, hk, zpow_neg, zpow_natCast]
  have hrounded : (roundHalfEven (n / quantum n) : ℚ) * quantum n = n := by
    have hdiv : (n : ℚ) / quantum n = ((n * 2 ^ k : ℤ) : ℚ) := by
      rw [hquantum, div_inv_eq_mul]
      push_cast
      rfl
    rw [hdiv, roundHalfEven_intCast, hquantum]
    push_cast
    rw [mul_assoc, mul_inv_cancel₀ (by positivity), mul_one]
  have hbound : magnitude (n : ℚ) < 2 ^ 1024 := by
    rw [magnitude_intCast]
    calc (n.natAbs : ℚ) < 2 ^ 53 := by exact_mod_cast h
      _ ≤ 2 ^ 1024 := pow_le_pow_right₀ (by norm_num) (by norm_num)
  unfold nearest
  dsimp only
  rw [hrounded, if_neg hbound.not_ge]

/-! ## Text -/

/-- What a numeral stands for, before its sign and before it is rounded. -/
inductive Numeral
  | number (q : ℚ)
  | infinity
  | nan

inductive StodError
  | invalidArgument
  | outOfRange
  deriving DecidableEq, Repr

def isSpace (c : Char) : Bool := c = ' ' || (9 ≤ c.toNat && c.toNat ≤ 13)

/-- Whether a minus stands in front, and what comes after the sign. -/
def sign : List Char → Bool × List Char
  | c :: text => if c = '-' then (true, text) else if c = '+' then (false, text) else (false, c :: text)
  | [] => (false, [])

def decimalDigit (c : Char) : Option ℕ := if c.isDigit then some (c.toNat - '0'.toNat) else none

def hexDigit (c : Char) : Option ℕ :=
  if c.isDigit then some (c.toNat - '0'.toNat)
  else if 'a' ≤ c ∧ c ≤ 'f' then some (c.toNat - 'a'.toNat + 10)
  else if 'A' ≤ c ∧ c ≤ 'F' then some (c.toNat - 'A'.toNat + 10)
  else none

/-- The value and the number of the digits read so far and next, and the text after them. -/
def scan (digit : Char → Option ℕ) (base : ℕ) : List Char → ℕ → ℕ → ℕ × ℕ × List Char
  | [], value, count => (value, count, [])
  | c :: text, value, count =>
    match digit c with
    | some d => scan digit base text (base * value + d) (count + 1)
    | none => (value, count, c :: text)

/-- Digits with at most one point among them, and at least one digit. -/
def mantissa (digit : Char → Option ℕ) (base : ℕ) (text : List Char) : Option (ℚ × List Char) :=
  let (whole, count, rest) := scan digit base text 0 0
  if rest.head? = some '.' then
    let (value, count', rest') := scan digit base rest.tail whole 0
    if count + count' = 0 then none else some (value / base ^ count', rest')
  else if count = 0 then none
  else some (whole, rest)

/-- The factor of an exponent, if one follows. -/
def exponent (mark : Char) (base : ℚ) : List Char → ℚ
  | [] => 1
  | c :: text =>
    if c.toLower = mark then
      let (negative, digits) := sign text
      let (e, count, _) := scan decimalDigit 10 digits 0 0
      if count = 0 then 1 else if negative then (base ^ e)⁻¹ else base ^ e
    else 1

def decimal (text : List Char) : Option Numeral :=
  (mantissa decimalDigit 10 text).map fun (m, rest) => .number (m * exponent 'e' 10 rest)

/-- A numeral: the words for what is no fraction, hexadecimal after `0x`, or decimal. -/
def numeral (text : List Char) : Option Numeral :=
  let start := (text.take 3).map Char.toLower
  if start = ['i', 'n', 'f'] then some .infinity
  else if start = ['n', 'a', 'n'] then some .nan
  else if start.take 2 = ['0', 'x'] then
    match mantissa hexDigit 16 (text.drop 2) with
    | some (m, rest) => some (.number (m * exponent 'p' 2 rest))
    | none => some (.number 0)
  else decimal text

/-- The double that a text begins with. Below the normal doubles only what is exact is in range. -/
def stod (s : String) : Except StodError Binary64 :=
  let (negative, text) := sign (s.toList.dropWhile isSpace)
  match numeral text with
  | none => .error .invalidArgument
  | some .nan => .ok .nan
  | some .infinity => .ok (.infinite negative)
  | some (.number m) =>
    let q := if negative then -m else m
    match nearest q with
    | .finite r => if r ≠ q ∧ m < (2 ^ 1022)⁻¹ then .error .outOfRange else .ok (.finite r)
    | _ => .error .outOfRange

/-! ## Printed integers -/

/-- Digits alone are scanned to their end. -/
theorem scan_digits {text : List Char} (h : ∀ c ∈ text, c.isDigit = true) (value count : ℕ) :
    scan decimalDigit 10 text value count =
      (Nat.ofDigitChars 10 text value, count + text.length, []) := by
  induction text generalizing value count with
  | nil => rfl
  | cons c text ih =>
    obtain ⟨hc, htext⟩ := List.forall_mem_cons.mp h
    rw [scan, decimalDigit, if_pos hc]
    dsimp only
    rw [ih htext, Nat.ofDigitChars_cons, List.length_cons]
    congr 2
    omega

theorem decimal_digits {text : List Char} (h : ∀ c ∈ text, c.isDigit = true) (hne : text ≠ []) :
    decimal text = some (.number (Nat.ofDigitChars 10 text 0)) := by
  have hcount : 0 + text.length ≠ 0 := by
    have := List.length_pos_iff.mpr hne
    omega
  simp [decimal, mantissa, scan_digits h, exponent, hne]

theorem toLower_of_isDigit {c : Char} (h : c.isDigit = true) : c.toLower = c := by
  unfold Char.toLower
  apply dif_neg
  rintro ⟨hlow, -⟩
  simp only [Char.isDigit, Bool.and_eq_true, decide_eq_true_eq] at h
  exact absurd (UInt32.le_trans hlow h.2) (by decide)

/-- Digits do not spell a word or a hexadecimal prefix. -/
theorem numeral_digits {text : List Char} (h : ∀ c ∈ text, c.isDigit = true) (hne : text ≠ []) :
    numeral text = some (.number (Nat.ofDigitChars 10 text 0)) := by
  have hlower : ∀ c ∈ (text.take 3).map Char.toLower, c.isDigit = true := by
    intro c hc
    obtain ⟨d, hd, rfl⟩ := List.mem_map.mp hc
    have hdigit := h d (List.mem_of_mem_take hd)
    rw [toLower_of_isDigit hdigit]
    exact hdigit
  have hword (a b c : Char) (ha : a.isDigit = false) :
      (text.take 3).map Char.toLower ≠ [a, b, c] := by
    intro heq
    rw [heq] at hlower
    rw [hlower a List.mem_cons_self] at ha
    cases ha
  have hprefix : ((text.take 3).map Char.toLower).take 2 ≠ ['0', 'x'] := by
    intro heq
    have hx : 'x' ∈ ((text.take 3).map Char.toLower).take 2 := by
      rw [heq]
      decide
    have := hlower 'x' (List.mem_of_mem_take hx)
    revert this
    decide
  unfold numeral
  dsimp only
  rw [if_neg (hword 'i' 'n' 'f' (by decide)), if_neg (hword 'n' 'a' 'n' (by decide)),
    if_neg hprefix, decimal_digits h hne]

theorem stod_digits {text : List Char} (h : ∀ c ∈ text, c.isDigit = true) (hne : text ≠ [])
    (negative : Bool) {s : String} (hs : sign (s.toList.dropWhile isSpace) = (negative, text))
    (hbound : Nat.ofDigitChars 10 text 0 < 2 ^ 53) :
    stod s = .ok (.finite (if negative then -(Nat.ofDigitChars 10 text 0 : ℤ)
      else (Nat.ofDigitChars 10 text 0 : ℤ))) := by
  unfold stod
  rw [hs]
  dsimp only
  rw [numeral_digits h hne]
  generalize Nat.ofDigitChars 10 text 0 = m at hbound
  dsimp only
  cases negative with
  | false =>
    have hnearest : nearest m = .finite m := nearest_intCast (n := m) hbound
    simp only [Bool.false_eq_true, if_false, hnearest]
    simp
  | true =>
    have hnearest : nearest (-m) = .finite (-m) := by
      have := nearest_intCast (n := -m) (by rwa [Int.natAbs_neg, Int.natAbs_natCast])
      push_cast at this
      exact this
    simp only [if_true, hnearest]
    simp

/-- Neither a space nor a sign comes before digits. -/
theorem sign_digits {text : List Char} (h : ∀ c ∈ text, c.isDigit = true) :
    sign (text.dropWhile isSpace) = (false, text) := by
  cases text with
  | nil => rfl
  | cons c text =>
    have hc := h c List.mem_cons_self
    have hspace : isSpace c = false := by
      rw [Bool.eq_false_iff]
      intro hspace
      simp only [isSpace, Bool.or_eq_true, Bool.and_eq_true, decide_eq_true_eq] at hspace
      simp only [Char.isDigit, Bool.and_eq_true, decide_eq_true_eq] at hc
      rcases hspace with rfl | hspace
      · revert hc
        decide
      · have hlow : 48 ≤ c.toNat := UInt32.le_iff_toNat_le.mp hc.1
        omega
    have hminus : c ≠ '-' := by
      rintro rfl
      revert hc
      decide
    have hplus : c ≠ '+' := by
      rintro rfl
      revert hc
      decide
    rw [List.dropWhile_cons_of_neg (by rw [hspace]; decide), sign, if_neg hminus, if_neg hplus]

/-- A printed integer is read back. -/
theorem stod_toString {n : ℤ} (h : n.natAbs < 2 ^ 53) : stod (toString n) = .ok (.finite n) := by
  have hdigits (m : ℕ) : ∀ c ∈ Nat.toDigits 10 m, c.isDigit = true := fun c hc =>
    Nat.isDigit_of_mem_toDigits (by decide) (by decide) hc
  cases n with
  | ofNat m =>
    have htext : (toString (Int.ofNat m)).toList = Nat.toDigits 10 m := Nat.toList_repr
    have hs : sign ((toString (Int.ofNat m)).toList.dropWhile isSpace) =
        (false, Nat.toDigits 10 m) := by
      rw [htext]
      exact sign_digits (hdigits m)
    rw [stod_digits (hdigits m) Nat.toDigits_ne_nil false hs
      (by rw [Nat.ofDigitChars_ten_toDigits]; exact h), Nat.ofDigitChars_ten_toDigits]
    rfl
  | negSucc m =>
    have htext : toString (Int.negSucc m) = "-" ++ Nat.repr (m + 1) := rfl
    have hs : sign ((toString (Int.negSucc m)).toList.dropWhile isSpace) =
        (true, Nat.toDigits 10 (m + 1)) := by
      rw [htext]
      simp [isSpace, sign]
    rw [stod_digits (hdigits (m + 1)) Nat.toDigits_ne_nil true hs
      (by rw [Nat.ofDigitChars_ten_toDigits]; exact h), Nat.ofDigitChars_ten_toDigits]
    rfl

end Binary64

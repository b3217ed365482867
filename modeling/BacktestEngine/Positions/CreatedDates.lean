import BacktestEngine.Positions.Sync

/-! # Dates of the broker's positions

A date has fixed width, digits and separators. The reader of its numbers also takes a minus sign,
and most numbers are only checked from above.
-/

namespace BacktestEngine

namespace Positions

open CivilDate

/-- The numbers of a date. -/
structure DateFields where
  year : ℤ
  month : ℤ
  day : ℤ
  hour : ℤ
  minute : ℤ
  sec : ℤ
  millis : ℤ
  deriving DecidableEq

namespace DateFields

variable (f : DateFields)

/-- The date exists, and the time of day is within its bounds from above. -/
def InRange : Prop := Valid f.year f.month f.day ∧ f.hour ≤ 23 ∧ f.minute ≤ 59 ∧ f.sec ≤ 59

instance : Decidable f.InRange := inferInstanceAs (Decidable (_ ∧ _))

/-- Epoch microseconds. -/
def instant : ℤ :=
  (((daysFromCivil f.year f.month f.day * 24 + f.hour) * 60 + f.minute) * 60 + f.sec) * second +
    f.millis * 1000

end DateFields

def slice (chars : List Char) (pos len : ℕ) : List Char := (chars.drop pos).take len

/-- Twenty-three characters with the separators in their places. -/
def Separated (chars : List Char) : Prop :=
  chars.length = 23 ∧ chars[4]? = some '/' ∧ chars[7]? = some '/' ∧ chars[10]? = some ' ' ∧
    chars[13]? = some ':' ∧ chars[16]? = some ':' ∧ chars[19]? = some ':'

instance (chars : List Char) : Decidable (Separated chars) := inferInstanceAs (Decidable (_ ∧ _))

/-- Where the numbers stand, and how many characters they have. -/
def dateSlices : List (ℕ × ℕ) := [(0, 4), (5, 2), (8, 2), (11, 2), (14, 2), (17, 2), (20, 3)]

/-- The value of digits. -/
def digitsValue (chars : List Char) : ℤ := chars.foldl (fun n c => 10 * n + ((c.toNat : ℤ) - 48)) 0

/-- What the characters say when all numbers are digits. -/
def digitFields (chars : List Char) : DateFields where
  year := digitsValue (slice chars 0 4)
  month := digitsValue (slice chars 5 2)
  day := digitsValue (slice chars 8 2)
  hour := digitsValue (slice chars 11 2)
  minute := digitsValue (slice chars 14 2)
  sec := digitsValue (slice chars 17 2)
  millis := digitsValue (slice chars 20 3)

/-- A date as the format has it. -/
def IsCreatedDate (chars : List Char) : Prop :=
  Separated chars ∧ (∀ place ∈ dateSlices, (slice chars place.1 place.2).all Char.isDigit = true) ∧
    (digitFields chars).InRange

instance (chars : List Char) : Decidable (IsCreatedDate chars) :=
  inferInstanceAs (Decidable (_ ∧ _))

/-- What the contract promises of a text. -/
def contractMicros (createdDate : String) (fallbackMicros : ℤ) : ℤ :=
  if IsCreatedDate createdDate.toList then (digitFields createdDate.toList).instant
  else fallbackMicros

/-- The numbers as they are read, with their signs. -/
def readFields (chars : List Char) : Option DateFields := do
  let year ← readInt (slice chars 0 4)
  let month ← readInt (slice chars 5 2)
  let day ← readInt (slice chars 8 2)
  let hour ← readInt (slice chars 11 2)
  let minute ← readInt (slice chars 14 2)
  let sec ← readInt (slice chars 17 2)
  let millis ← readInt (slice chars 20 3)
  return ⟨year, month, day, hour, minute, sec, millis⟩

/-- The text has a minus sign before a number, and is a date but for that. -/
def HasMinus (chars : List Char) : Prop :=
  Separated chars ∧ (∃ f, readFields chars = some f ∧ f.InRange) ∧
    ∃ place ∈ dateSlices, (slice chars place.1 place.2).head? = some '-'

/-! ## The reader -/

theorem readInt_of_digits {chars : List Char} (hne : chars ≠ [])
    (h : chars.all Char.isDigit = true) : readInt chars = some (digitsValue chars) := by
  unfold readInt
  split
  · cases List.all_eq_true.mp h '-' List.mem_cons_self
  · exact if_pos ⟨hne, h⟩

theorem digits_of_readInt {chars : List Char} {n : ℤ} (h : readInt chars = some n)
    (hminus : chars.head? ≠ some '-') :
    chars.all Char.isDigit = true ∧ n = digitsValue chars := by
  unfold readInt at h
  split at h
  · exact absurd rfl hminus
  · dsimp only at h
    split_ifs at h with hdigits
    exact ⟨hdigits.2, (Option.some.inj h).symm⟩

theorem parseCreatedDateMicros_eq (createdDate : String) (fallbackMicros : ℤ) :
    parseCreatedDateMicros createdDate fallbackMicros =
      if Separated createdDate.toList then
        (readFields createdDate.toList).elim fallbackMicros fun f =>
          if f.InRange then f.instant else fallbackMicros
      else fallbackMicros := by
  unfold parseCreatedDateMicros
  dsimp only
  by_cases hseparated : Separated createdDate.toList
  · rw [if_pos hseparated]
    refine (if_pos hseparated).trans ?_
    unfold readFields slice
    generalize readInt (List.take 4 (List.drop 0 createdDate.toList)) = year
    generalize readInt (List.take 2 (List.drop 5 createdDate.toList)) = month
    generalize readInt (List.take 2 (List.drop 8 createdDate.toList)) = day
    generalize readInt (List.take 2 (List.drop 11 createdDate.toList)) = hour
    generalize readInt (List.take 2 (List.drop 14 createdDate.toList)) = minute
    generalize readInt (List.take 2 (List.drop 17 createdDate.toList)) = sec
    generalize readInt (List.take 3 (List.drop 20 createdDate.toList)) = millis
    cases year with
    | none => rfl
    | some year =>
    cases month with
    | none => rfl
    | some month =>
    cases day with
    | none => rfl
    | some day =>
    cases hour with
    | none => rfl
    | some hour =>
    cases minute with
    | none => rfl
    | some minute =>
    cases sec with
    | none => rfl
    | some sec =>
    cases millis with
    | none => rfl
    | some millis => rfl
  · rw [if_neg hseparated]
    exact if_neg hseparated

variable {chars : List Char}

/-- A date as the format has it is read as what its digits say. -/
theorem readFields_of_digits (hseparated : Separated chars)
    (hdigits : ∀ place ∈ dateSlices, (slice chars place.1 place.2).all Char.isDigit = true) :
    readFields chars = some (digitFields chars) := by
  have hread (pos len : ℕ) (hplace : (pos, len) ∈ dateSlices) (hlen : 0 < len)
      (hpos : pos < 23) :
      readInt (slice chars pos len) = some (digitsValue (slice chars pos len)) := by
    refine readInt_of_digits ?_ (hdigits _ hplace)
    rw [slice, ← List.length_pos_iff, List.length_take, List.length_drop, hseparated.1]
    omega
  rw [readFields, hread 0 4 (by decide) (by decide) (by decide),
    hread 5 2 (by decide) (by decide) (by decide), hread 8 2 (by decide) (by decide) (by decide),
    hread 11 2 (by decide) (by decide) (by decide),
    hread 14 2 (by decide) (by decide) (by decide),
    hread 17 2 (by decide) (by decide) (by decide),
    hread 20 3 (by decide) (by decide) (by decide)]
  rfl

/-- Numbers that are read and have no minus sign are digits. -/
theorem digits_of_readFields {f : DateFields} (h : readFields chars = some f)
    (hminus : ∀ place ∈ dateSlices, (slice chars place.1 place.2).head? ≠ some '-') :
    (∀ place ∈ dateSlices, (slice chars place.1 place.2).all Char.isDigit = true) ∧
      f = digitFields chars := by
  unfold readFields at h
  simp only [Option.bind_eq_bind, Option.bind_eq_some_iff, Option.pure_def, Option.some.injEq] at h
  obtain ⟨year, hyear, month, hmonth, day, hday, hour, hhour, minute, hminute, sec, hsec, millis,
    hmillis, rfl⟩ := h
  have hdigit (pos len : ℕ) {n : ℤ} (hplace : (pos, len) ∈ dateSlices)
      (hread : readInt (slice chars pos len) = some n) :
      (slice chars pos len).all Char.isDigit = true ∧ n = digitsValue (slice chars pos len) :=
    digits_of_readInt hread (hminus _ hplace)
  obtain ⟨hyearDigits, rfl⟩ := hdigit 0 4 (by decide) hyear
  obtain ⟨hmonthDigits, rfl⟩ := hdigit 5 2 (by decide) hmonth
  obtain ⟨hdayDigits, rfl⟩ := hdigit 8 2 (by decide) hday
  obtain ⟨hhourDigits, rfl⟩ := hdigit 11 2 (by decide) hhour
  obtain ⟨hminuteDigits, rfl⟩ := hdigit 14 2 (by decide) hminute
  obtain ⟨hsecDigits, rfl⟩ := hdigit 17 2 (by decide) hsec
  obtain ⟨hmillisDigits, rfl⟩ := hdigit 20 3 (by decide) hmillis
  refine ⟨?_, rfl⟩
  simp only [dateSlices, List.forall_mem_cons]
  exact ⟨hyearDigits, hmonthDigits, hdayDigits, hhourDigits, hminuteDigits, hsecDigits,
    hmillisDigits, nofun⟩

/-! ## The order of dates -/

theorem foldl_digits_bounds (h : chars.all Char.isDigit = true) {n : ℤ} :
    n * 10 ^ chars.length ≤ chars.foldl (fun n c => 10 * n + ((c.toNat : ℤ) - 48)) n ∧
      chars.foldl (fun n c => 10 * n + ((c.toNat : ℤ) - 48)) n < (n + 1) * 10 ^ chars.length := by
  induction chars generalizing n with
  | nil => simp
  | cons c chars ih =>
    rw [List.all_cons, Bool.and_eq_true] at h
    obtain ⟨hlow, hhigh⟩ := ih h.2 (n := 10 * n + ((c.toNat : ℤ) - 48))
    have hdigit : 48 ≤ c.toNat ∧ c.toNat ≤ 57 := by
      have hc := h.1
      simp only [Char.isDigit, Bool.and_eq_true, decide_eq_true_eq] at hc
      exact ⟨UInt32.le_iff_toNat_le.mp hc.1, UInt32.le_iff_toNat_le.mp hc.2⟩
    rw [List.foldl_cons, List.length_cons, pow_succ]
    constructor
    · refine le_trans ?_ hlow
      nlinarith [pow_pos (show (0 : ℤ) < 10 by decide) chars.length]
    · refine hhigh.trans_le ?_
      nlinarith [pow_pos (show (0 : ℤ) < 10 by decide) chars.length]

theorem digitsValue_bounds (h : chars.all Char.isDigit = true) :
    0 ≤ digitsValue chars ∧ digitsValue chars < 10 ^ chars.length := by
  have hbounds := foldl_digits_bounds h (n := 0)
  rw [zero_mul, zero_add, one_mul] at hbounds
  exact hbounds

namespace DateFields

def toList (f : DateFields) : List ℤ :=
  [f.year, f.month, f.day, f.hour, f.minute, f.sec, f.millis]

/-- The times of day are those of a clock. -/
structure OnClock (f : DateFields) : Prop where
  date : Valid f.year f.month f.day
  hour : 0 ≤ f.hour ∧ f.hour ≤ 23
  minute : 0 ≤ f.minute ∧ f.minute ≤ 59
  sec : 0 ≤ f.sec ∧ f.sec ≤ 59
  millis : 0 ≤ f.millis ∧ f.millis ≤ 999

/-- Later fields make a later instant. -/
theorem OnClock.instant_lt {f g : DateFields} (hf : f.OnClock) (hg : g.OnClock)
    (h : f.toList < g.toList) : f.instant < g.instant := by
  obtain ⟨hdate, hhour, hminute, hsec, hmillis⟩ := hf
  obtain ⟨hdate', hhour', hminute', hsec', hmillis'⟩ := hg
  simp only [toList, List.cons_lt_cons_iff, List.not_lt_nil, and_false, or_false] at h
  have hday : daysFromCivil f.year f.month f.day < daysFromCivil g.year g.month g.day ∨
      f.year = g.year ∧ f.month = g.month ∧ f.day = g.day := by
    by_cases heq : f.year = g.year ∧ f.month = g.month ∧ f.day = g.day
    · exact .inr heq
    · exact .inl (daysFromCivil_lt hdate hdate' (by omega))
  simp only [instant, second]
  obtain hlt | ⟨hyear, hmonth, hdayEq⟩ := hday
  · omega
  · rw [hyear, hmonth, hdayEq]
    omega

end DateFields

theorem onClock_digitFields (h : IsCreatedDate chars) : (digitFields chars).OnClock := by
  obtain ⟨hseparated, hdigits, hvalid, hhour, hminute, hsec⟩ := h
  have hbounds (pos len : ℕ) (hplace : (pos, len) ∈ dateSlices) (hend : pos + len ≤ 23) :
      0 ≤ digitsValue (slice chars pos len) ∧ digitsValue (slice chars pos len) < 10 ^ len := by
    have hvalue := digitsValue_bounds (hdigits _ hplace)
    have hlength : (slice chars pos len).length = len := by
      rw [slice, List.length_take, List.length_drop, hseparated.1]
      omega
    rw [hlength] at hvalue
    exact hvalue
  refine ⟨hvalid, ⟨(hbounds 11 2 (by decide) (by decide)).1, hhour⟩,
    ⟨(hbounds 14 2 (by decide) (by decide)).1, hminute⟩,
    ⟨(hbounds 17 2 (by decide) (by decide)).1, hsec⟩, ?_⟩
  have hmillis := hbounds 20 3 (by decide) (by decide)
  exact ⟨hmillis.1, Int.lt_add_one_iff.mp hmillis.2⟩

theorem parse_of_isCreatedDate {createdDate : String} (h : IsCreatedDate createdDate.toList)
    (fallbackMicros : ℤ) : parseCreatedDateMicros createdDate fallbackMicros =
      (digitFields createdDate.toList).instant := by
  rw [parseCreatedDateMicros_eq, if_pos h.1, readFields_of_digits h.1 h.2.1]
  exact if_pos h.2.2

/-- A text with a minus sign is no date. -/
theorem not_isCreatedDate_of_minus {place : ℕ × ℕ} (hplace : place ∈ dateSlices)
    (hminus : (slice chars place.1 place.2).head? = some '-') : ¬ IsCreatedDate chars := by
  rintro ⟨-, hdigits, -⟩
  cases List.all_eq_true.mp (hdigits place hplace) '-' (List.mem_of_mem_head? hminus)

/-- What is read without a minus sign, and is within the bounds, is a date. -/
theorem isCreatedDate_of_readFields (hseparated : Separated chars) {f : DateFields}
    (hread : readFields chars = some f) (hrange : f.InRange) (hminus : ¬ HasMinus chars) :
    IsCreatedDate chars := by
  obtain ⟨hdigits, rfl⟩ := digits_of_readFields hread fun place hplace hhead =>
    hminus ⟨hseparated, ⟨f, hread, hrange⟩, place, hplace, hhead⟩
  exact ⟨hseparated, hdigits, hrange⟩

theorem contract_met_iff (createdDate : String) :
    (∀ fallbackMicros, parseCreatedDateMicros createdDate fallbackMicros =
      contractMicros createdDate fallbackMicros) ↔ ¬ HasMinus createdDate.toList := by
  constructor
  · rintro hmeets ⟨hseparated, ⟨f, hread, hrange⟩, place, hplace, hminus⟩
    have hparse := hmeets (f.instant + 1)
    rw [contractMicros, if_neg (not_isCreatedDate_of_minus hplace hminus),
      parseCreatedDateMicros_eq, if_pos hseparated, hread] at hparse
    have heq : f.instant = f.instant + 1 := (if_pos hrange).symm.trans hparse
    omega
  · intro hminus fallbackMicros
    by_cases hdate : IsCreatedDate createdDate.toList
    · rw [parse_of_isCreatedDate hdate, contractMicros, if_pos hdate]
    · rw [contractMicros, if_neg hdate, parseCreatedDateMicros_eq]
      split_ifs with hseparated
      · cases hread : readFields createdDate.toList with
        | none => rfl
        | some f =>
          refine if_neg fun hrange => hdate ?_
          exact isCreatedDate_of_readFields hseparated hread hrange hminus
      · rfl

/-- A text is read as the contract has it, whatever the fallback is, exactly if it is not a date
but for a minus sign; and of two dates the later one is read as the later instant. -/
theorem created_date_iff (createdDate : String) :
    ((∀ fallbackMicros, parseCreatedDateMicros createdDate fallbackMicros =
      contractMicros createdDate fallbackMicros) ↔ ¬ HasMinus createdDate.toList) ∧
    (IsCreatedDate createdDate.toList → ∀ later : String, IsCreatedDate later.toList →
      (digitFields createdDate.toList).toList < (digitFields later.toList).toList →
        ∀ fallback fallback', parseCreatedDateMicros createdDate fallback <
          parseCreatedDateMicros later fallback') := by
  refine ⟨contract_met_iff createdDate, fun hearlier later hlater hlt fallback fallback' => ?_⟩
  rw [parse_of_isCreatedDate hearlier, parse_of_isCreatedDate hlater]
  exact (onClock_digitFields hearlier).instant_lt (onClock_digitFields hlater) hlt

/-- An hour of minus nine is taken for nine hours before the day. -/
theorem minus_hour_accepted :
    parseCreatedDateMicros "2026/01/05 -9:00:00:000" 0 = 1767538800000000 ∧
      contractMicros "2026/01/05 -9:00:00:000" 0 = 0 := by
  decide

end Positions

end BacktestEngine

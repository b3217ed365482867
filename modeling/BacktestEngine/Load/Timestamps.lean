import BacktestEngine.Library.CivilDate
import Mathlib.Data.List.TakeWhile
import Mathlib.Data.String.Basic

/-! # Timestamps of the tick database

Texts are written with the full fraction and read with as many digits as there are. The reader
keeps the last date with its epoch, under the ten characters that it was read from.
-/

namespace BacktestEngine

namespace Timestamps

open CivilDate

/-! ## Writing -/

/-- Decimal, with zeros up to a width. -/
def padded (width n : ℕ) : List Char := (Nat.toDigits 10 n).leftpad width '0'

/-- Years of fewer than four digits are padded. -/
def formatYear (year : ℤ) : List Char :=
  if year < 0 then '-' :: padded 4 year.natAbs else padded 4 year.natAbs

/-- Instants are nanoseconds since the epoch, written to the microsecond. -/
def formatTimestamp (tp : ℤ) : String :=
  let micros := tp / 1000
  let secs := micros / 1000000
  let date := civilFromDays (secs / 86400)
  let time := (secs % 86400).toNat
  String.ofList (formatYear date.1 ++ '-' :: padded 2 date.2.1.natAbs ++
    '-' :: padded 2 date.2.2.natAbs ++ 'T' :: padded 2 (time / 3600) ++
    ':' :: padded 2 (time / 60 % 60) ++ ':' :: padded 2 (time % 60) ++
    '.' :: padded 6 (micros % 1000000).toNat ++ ['Z'])

/-! ## Reading -/

def isspace (c : Char) : Bool :=
  c = ' ' || c = '\t' || c = '\n' || c = '\x0b' || c = '\x0c' || c = '\r'

/-- The digits at the front, no more than a number of them. -/
def frontDigits (width : ℕ) (text : List Char) : List Char :=
  (text.take width).takeWhile Char.isDigit

def scanDigits (width : ℕ) (text : List Char) : Option (ℤ × List Char) :=
  let digits := frontDigits width text
  if digits = [] then none
  else some (Nat.ofDigitChars 10 digits 0, text.drop digits.length)

/-- The conversion of an integer: blanks are skipped, and a sign counts for the width. -/
def scanInt (width : ℕ) (text : List Char) : Option (ℤ × List Char) :=
  match text.dropWhile isspace with
  | '-' :: rest => (scanDigits (width - 1) rest).map fun (n, rest) => (-n, rest)
  | '+' :: rest => scanDigits (width - 1) rest
  | rest => scanDigits width rest

/-- One character of a set. -/
def scanChar (set : List Char) : List Char → Option (List Char)
  | [] => none
  | c :: rest => if c ∈ set then some rest else none

structure DateTime where
  year : ℤ
  month : ℤ
  day : ℤ
  hour : ℤ
  min : ℤ
  sec : ℤ
  deriving DecidableEq

/-- The six numbers, and the text after them. -/
def scanTimestamp (ts : List Char) : Option (DateTime × List Char) := do
  let (year, ts) ← scanInt 4 ts
  let ts ← scanChar ['-'] ts
  let (month, ts) ← scanInt 2 ts
  let ts ← scanChar ['-'] ts
  let (day, ts) ← scanInt 2 ts
  let ts ← scanChar ['T', ' '] ts
  let (hour, ts) ← scanInt 2 ts
  let ts ← scanChar [':'] ts
  let (min, ts) ← scanInt 2 ts
  let ts ← scanChar [':'] ts
  let (sec, ts) ← scanInt 2 ts
  pure (⟨year, month, day, hour, min, sec⟩, ts)

/-- Microseconds, from the digits that are there. A point without digits is an error. -/
def scanFraction : List Char → Option ℤ
  | '.' :: p =>
    let digits := frontDigits 6 p
    if digits = [] then none
    else some (Nat.ofDigitChars 10 digits 0 * 10 ^ (6 - digits.length))
  | _ => some 0

/-- Seconds since the epoch. Months and days beyond their ends are carried on. -/
def timegm (year month day : ℤ) : ℤ :=
  (daysFromCivil (year + (month - 1) / 12) ((month - 1) % 12 + 1) 1 + day - 1) * 86400

structure DateCache where
  date : List Char := []
  epoch : ℤ := 0
  deriving DecidableEq

def fastParseTimestamp (ts : String) (cache : DateCache) : Except String ℤ × DateCache :=
  match scanTimestamp ts.toList with
  | none => (.error ("Invalid timestamp format: " ++ ts), cache)
  | some (tm, rest) =>
    match scanFraction rest with
    | none => (.error ("Invalid fractional seconds in timestamp: " ++ ts), cache)
    | some usec =>
      let date := ts.toList.take 10
      let cache := if cache.date ≠ date then ⟨date, timegm tm.year tm.month tm.day⟩ else cache
      let t := cache.epoch + tm.hour * 3600 + tm.min * 60 + tm.sec
      (.ok (t * 1000000000 + usec * 1000), cache)

example : (fastParseTimestamp "2026-01-05 09:00:00.5" {}).1 = .ok 1767603600500000000 := by decide

/-- The results of texts that are read one after another with the same cache. -/
def parseAll : List String → DateCache → List (Except String ℤ)
  | [], _ => []
  | ts :: texts, cache =>
    (fastParseTimestamp ts cache).1 :: parseAll texts (fastParseTimestamp ts cache).2

def cacheAfter (texts : List String) (cache : DateCache) : DateCache :=
  texts.foldl (fun cache ts => (fastParseTimestamp ts cache).2) cache

/-! ## Numbers of a fixed width -/

section Padded

variable {width n : ℕ}

theorem length_padded (hwidth : 0 < width) (hn : n < 10 ^ width) :
    (padded width n).length = width := by
  have hle := (Nat.length_toDigits_le_iff (by decide) hwidth).mpr hn
  rw [padded, List.length_leftpad]
  exact Nat.max_eq_left hle

theorem isDigit_of_mem_padded {c : Char} (h : c ∈ padded width n) : c.isDigit = true := by
  rcases List.mem_append.mp h with h | h
  · rw [List.eq_of_mem_replicate h]
    rfl
  · exact Nat.isDigit_of_mem_toDigits (by decide) (by decide) h

theorem ofDigitChars_padded : Nat.ofDigitChars 10 (padded width n) 0 = n := by
  rw [padded, List.leftpad, Nat.ofDigitChars_append, Nat.ofDigitChars_replicate_zero, Nat.mul_zero,
    Nat.ofDigitChars_ten_toDigits]

/-- Digits that fill the width are read to their end, whatever follows. -/
theorem frontDigits_append {digits : List Char} (hlen : digits.length = width)
    (hdigits : ∀ c ∈ digits, c.isDigit = true) (rest : List Char) :
    frontDigits width (digits ++ rest) = digits := by
  rw [frontDigits, ← hlen, List.take_left]
  exact List.takeWhile_eq_self_iff.mpr hdigits

theorem not_isspace_of_isDigit {c : Char} (h : c.isDigit = true) : isspace c = false := by
  rw [Bool.eq_false_iff]
  intro hspace
  simp only [isspace, Bool.or_eq_true, decide_eq_true_eq] at hspace
  rcases hspace with ((((rfl | rfl) | rfl) | rfl) | rfl) | rfl <;> exact absurd h (by decide)

theorem scanInt_digits {digits : List Char} (hwidth : 0 < width) (hlen : digits.length = width)
    (hdigits : ∀ c ∈ digits, c.isDigit = true) (rest : List Char) :
    scanInt width (digits ++ rest) = some ((Nat.ofDigitChars 10 digits 0 : ℤ), rest) := by
  have hscan : scanDigits width (digits ++ rest) =
      some ((Nat.ofDigitChars 10 digits 0 : ℤ), rest) := by
    have hne : digits ≠ [] := List.ne_nil_of_length_pos (by omega)
    rw [scanDigits, frontDigits_append hlen hdigits, if_neg hne, List.drop_left]
  obtain ⟨c, cs, rfl⟩ : ∃ c cs, digits = c :: cs :=
    List.exists_cons_of_length_pos (hlen.symm ▸ hwidth)
  have hc := hdigits c List.mem_cons_self
  rw [List.cons_append] at hscan ⊢
  rw [scanInt, List.dropWhile_cons_of_neg (Bool.eq_false_iff.mp (not_isspace_of_isDigit hc))]
  split
  · next heq =>
    rw [(List.cons.inj heq).1] at hc
    exact absurd hc (by decide)
  · next heq =>
    rw [(List.cons.inj heq).1] at hc
    exact absurd hc (by decide)
  · exact hscan

theorem scanInt_padded (hwidth : 0 < width) (hn : n < 10 ^ width) (rest : List Char) :
    scanInt width (padded width n ++ rest) = some ((n : ℤ), rest) := by
  rw [scanInt_digits hwidth (length_padded hwidth hn) (fun _ h => isDigit_of_mem_padded h),
    ofDigitChars_padded]

theorem scanChar_cons {c : Char} {set : List Char} (h : c ∈ set) (rest : List Char) :
    scanChar set (c :: rest) = some rest := if_pos h

end Padded

/-! ## Dates and times of day -/

section Scan

variable {y m d h mi s : ℕ}

/-- A date in ten characters. -/
def dateText (y m d : ℕ) : List Char :=
  padded 4 y ++ '-' :: padded 2 m ++ '-' :: padded 2 d

def clockText (h mi s : ℕ) : List Char := padded 2 h ++ ':' :: padded 2 mi ++ ':' :: padded 2 s

/-- A text that begins with a date in ten characters has that date. -/
theorem date_of_scan (hy : y < 10000) (hm : m < 100) (hd : d < 100) {rest rest' : List Char}
    {tm : DateTime} (hscan : scanTimestamp (dateText y m d ++ rest) = some (tm, rest')) :
    tm.year = y ∧ tm.month = m ∧ tm.day = d := by
  simp only [scanTimestamp, dateText, List.append_assoc, List.cons_append,
    scanInt_padded (by decide : 0 < 4) hy, scanInt_padded (by decide : 0 < 2) hm,
    scanInt_padded (by decide : 0 < 2) hd, scanChar_cons (List.mem_singleton_self _),
    Option.bind_eq_bind, Option.bind_some, Option.bind_eq_some_iff, Option.pure_def] at hscan
  obtain ⟨_, _, ⟨_, _⟩, _, _, _, ⟨_, _⟩, _, _, _, ⟨_, _⟩, _, heq⟩ := hscan
  obtain ⟨rfl, -⟩ := Prod.mk.inj (Option.some_inj.mp heq)
  exact ⟨rfl, rfl, rfl⟩

/-- A date, a separator and a time of day are read. -/
theorem scan_text (hy : y < 10000) (hm : m < 100) (hd : d < 100) (hh : h < 100) (hmi : mi < 100)
    (hs : s < 100) {sep : Char} (hsep : sep ∈ ['T', ' ']) (rest : List Char) :
    scanTimestamp (dateText y m d ++ sep :: clockText h mi s ++ rest) =
      some (⟨y, m, d, h, mi, s⟩, rest) := by
  simp only [scanTimestamp, dateText, clockText, List.append_assoc, List.cons_append,
    scanInt_padded (by decide : 0 < 4) hy, scanInt_padded (by decide : 0 < 2) hm,
    scanInt_padded (by decide : 0 < 2) hd, scanInt_padded (by decide : 0 < 2) hh,
    scanInt_padded (by decide : 0 < 2) hmi, scanInt_padded (by decide : 0 < 2) hs,
    scanChar_cons (List.mem_singleton_self _), scanChar_cons hsep,
    Option.bind_eq_bind, Option.bind_some, Option.pure_def]

theorem length_dateText (hy : y < 10000) (hm : m < 100) (hd : d < 100) :
    (dateText y m d).length = 10 := by
  simp only [dateText, List.length_append, List.length_cons,
    length_padded (by decide : 0 < 4) hy, length_padded (by decide : 0 < 2) hm,
    length_padded (by decide : 0 < 2) hd]

theorem length_clockText (hh : h < 100) (hmi : mi < 100) (hs : s < 100) :
    (clockText h mi s).length = 8 := by
  simp only [clockText, List.length_append, List.length_cons,
    length_padded (by decide : 0 < 2) hh, length_padded (by decide : 0 < 2) hmi,
    length_padded (by decide : 0 < 2) hs]

end Scan

/-! ## The cache -/

/-- What a cache holds under a date in ten characters is the epoch of that date. -/
def Sound (cache : DateCache) : Prop :=
  ∀ y m d : ℕ, y < 10000 → m < 100 → d < 100 → cache.date = dateText y m d →
    cache.epoch = timegm y m d

theorem sound_empty : Sound {} := by
  intro y m d hy hm hd hdate
  have hlen := length_dateText hy hm hd
  rw [← hdate] at hlen
  cases hlen

variable {ts : String} {cache : DateCache}

/-- The epoch of a date is computed when the cache holds another date. -/
def DateCache.lookup (cache : DateCache) (date : List Char) (tm : DateTime) : DateCache :=
  if cache.date ≠ date then ⟨date, timegm tm.year tm.month tm.day⟩ else cache

theorem fastParse_of_scan {tm : DateTime} {rest : List Char} {usec : ℤ}
    (hscan : scanTimestamp ts.toList = some (tm, rest))
    (hfraction : scanFraction rest = some usec) :
    fastParseTimestamp ts cache =
      (.ok (((cache.lookup (ts.toList.take 10) tm).epoch + tm.hour * 3600 + tm.min * 60 + tm.sec) *
        1000000000 + usec * 1000), cache.lookup (ts.toList.take 10) tm) := by
  simp only [fastParseTimestamp, hscan, hfraction]
  rfl

/-- A text is refused and leaves the cache as it is, or it is read and its date looked up. -/
theorem fastParse_cases (ts : String) (cache : DateCache) :
    (∃ message, fastParseTimestamp ts cache = (.error message, cache)) ∨
      ∃ tm rest usec, scanTimestamp ts.toList = some (tm, rest) ∧
        scanFraction rest = some usec := by
  cases hscan : scanTimestamp ts.toList with
  | none =>
    refine Or.inl ⟨"Invalid timestamp format: " ++ ts, ?_⟩
    simp only [fastParseTimestamp, hscan]
  | some found =>
    obtain ⟨tm, rest⟩ := found
    cases hfraction : scanFraction rest with
    | none =>
      refine Or.inl ⟨"Invalid fractional seconds in timestamp: " ++ ts, ?_⟩
      simp only [fastParseTimestamp, hscan, hfraction]
    | some usec => exact Or.inr ⟨tm, rest, usec, rfl, hfraction⟩

theorem cache_of_error {message : String} (h : (fastParseTimestamp ts cache).1 = .error message) :
    (fastParseTimestamp ts cache).2 = cache := by
  obtain ⟨_, herror⟩ | ⟨tm, rest, usec, hscan, hfraction⟩ := fastParse_cases ts cache
  · rw [herror]
  · rw [fastParse_of_scan hscan hfraction] at h
    cases h

/-- Whatever is read, and whether it is refused or not, the cache stays sound. -/
theorem sound_fastParseTimestamp (h : Sound cache) : Sound (fastParseTimestamp ts cache).2 := by
  obtain ⟨_, herror⟩ | ⟨tm, rest, usec, hscan, hfraction⟩ := fastParse_cases ts cache
  · rw [herror]
    exact h
  · rw [fastParse_of_scan hscan hfraction]
    dsimp only
    unfold DateCache.lookup
    split_ifs with hmiss
    · intro y m d hy hm hd hdate
      have hscan' : scanTimestamp (dateText y m d ++ ts.toList.drop 10) = some (tm, rest) := by
        rw [← hdate, List.take_append_drop, hscan]
      obtain ⟨hyear, hmonth, hday⟩ := date_of_scan hy hm hd hscan'
      rw [hyear, hmonth, hday]
    · exact h

theorem sound_cacheAfter (texts : List String) (h : Sound cache) :
    Sound (cacheAfter texts cache) := by
  induction texts generalizing cache with
  | nil => exact h
  | cons ts texts ih => exact ih (sound_fastParseTimestamp h)

theorem getElem?_parseAll (texts : List String) (cache : DateCache) (i : ℕ) :
    (parseAll texts cache)[i]? =
      texts[i]?.map fun ts => (fastParseTimestamp ts (cacheAfter (texts.take i) cache)).1 := by
  induction texts generalizing cache i with
  | nil => rfl
  | cons ts texts ih =>
    cases i with
    | zero => rfl
    | succ i => exact ih _ i

/-- A date and a time of day with a fraction that is read are that instant, in a sound cache. -/
theorem fastParse_of_text (h : Sound cache) {y m d hour mi s : ℕ} (hy : y < 10000) (hm : m < 100)
    (hd : d < 100) (hh : hour < 100) (hmi : mi < 100) (hs : s < 100) {sep : Char}
    (hsep : sep ∈ ['T', ' ']) {rest : List Char} {usec : ℤ} (hrest : scanFraction rest = some usec)
    (hts : ts.toList = dateText y m d ++ sep :: clockText hour mi s ++ rest) :
    (fastParseTimestamp ts cache).1 =
      .ok ((timegm y m d + hour * 3600 + mi * 60 + s) * 1000000000 + usec * 1000) := by
  have hscan := scan_text hy hm hd hh hmi hs hsep rest
  rw [← hts] at hscan
  have hkey : ts.toList.take 10 = dateText y m d := by
    rw [hts, List.append_assoc, ← length_dateText hy hm hd, List.take_left]
  rw [fastParse_of_scan hscan hrest, hkey, DateCache.lookup]
  split_ifs with hmiss
  · rfl
  · rw [h y m d hy hm hd (not_not.mp hmiss)]

/-! ## The texts of an instant -/

/-- What may stand for a fraction: its digits without some of the zeros at the end, or nothing when
it is zero. -/
inductive Fraction (digits : List Char) : List Char → Prop
  | kept {front : List Char} (zeros : ℕ) (hne : front ≠ [])
      (h : digits = front ++ List.replicate zeros '0') : Fraction digits ('.' :: front)
  | dropped (h : ∀ c ∈ digits, c = '0') : Fraction digits []

/-- The text says what is written of an instant: with a blank or a letter between the date and the
time, zeros of the fraction or all of it left out, and with the zone or without it. -/
def Spells (tp : ℤ) (text : String) : Prop :=
  ∃ date clock digits fraction zone : List Char, ∃ sep ∈ ['T', ' '],
    (formatTimestamp tp).toList = date ++ 'T' :: clock ++ '.' :: digits ++ ['Z'] ∧
      date.length = 10 ∧ clock.length = 8 ∧ Fraction digits fraction ∧
      (zone = [] ∨ zone = ['Z']) ∧
      text.toList = date ++ sep :: clock ++ fraction ++ zone

theorem frontDigits_append_zone {front zone : List Char} (hlen : front.length ≤ 6)
    (hfront : ∀ c ∈ front, c.isDigit = true) (hzone : zone = [] ∨ zone = ['Z']) :
    frontDigits 6 (front ++ zone) = front := by
  have hnone : (zone.take (6 - front.length)).takeWhile Char.isDigit = [] := by
    rcases hzone with rfl | rfl
    · rw [List.take_nil, List.takeWhile_nil]
    · cases 6 - front.length with
      | zero => rfl
      | succ n => rw [List.take_succ_cons, List.take_nil]; rfl
  rw [frontDigits, List.take_append, List.take_of_length_le hlen,
    List.takeWhile_append_of_pos hfront, hnone, List.append_nil]

/-- However the fraction is spelt, the same microseconds are read. -/
theorem scanFraction_of_fraction {digits fraction zone : List Char} (hlen : digits.length = 6)
    (hdigits : ∀ c ∈ digits, c.isDigit = true) (hfraction : Fraction digits fraction)
    (hzone : zone = [] ∨ zone = ['Z']) :
    scanFraction (fraction ++ zone) = some (Nat.ofDigitChars 10 digits 0 : ℤ) := by
  cases hfraction with
  | @kept front zeros hne h =>
    subst h
    rw [List.length_append, List.length_replicate] at hlen
    have hfront := frontDigits_append_zone (by omega)
      (fun c hc => hdigits c (List.mem_append_left _ hc)) hzone
    have hzeros : 6 - front.length = zeros := by omega
    rw [List.cons_append, scanFraction, hfront, if_neg hne, Nat.ofDigitChars_append,
      Nat.ofDigitChars_replicate_zero, hzeros, Nat.mul_comm]
    push_cast
    rfl
  | dropped h =>
    rw [List.eq_replicate_of_mem h, Nat.ofDigitChars_replicate_zero, Nat.mul_zero]
    rcases hzone with rfl | rfl <;> rfl

/-! ## The round trip -/

/-- The year of an instant. -/
def yearOf (tp : ℤ) : ℤ := (civilFromDays (tp / 86400000000000)).1

theorem timegm_of_valid {y m d : ℤ} (h : Valid y m d) :
    timegm y m d = daysFromCivil y m d * 86400 := by
  obtain ⟨hlow, hhigh, -, -⟩ := h
  have hcarry : (m - 1) / 12 = 0 := by omega
  have hmonth : (m - 1) % 12 + 1 = m := by omega
  rw [timegm, hcarry, hmonth, add_zero, daysFromCivil_eq, daysFromCivil_eq]
  omega

theorem lastDay_le (year month : ℤ) : lastDay year month ≤ 31 := by
  unfold lastDay
  split_ifs <;> omega

/-- What is written of an instant in a year of four digits, and that the numbers written are its. -/
theorem formatTimestamp_text {tp : ℤ} (hlow : 0 ≤ yearOf tp) (hhigh : yearOf tp ≤ 9999) :
    ∃ y m d hour mi s usec : ℕ, y < 10000 ∧ m < 100 ∧ d < 100 ∧ hour < 100 ∧ mi < 100 ∧ s < 100 ∧
      usec < 1000000 ∧
      (formatTimestamp tp).toList =
        dateText y m d ++ 'T' :: clockText hour mi s ++ '.' :: padded 6 usec ++ ['Z'] ∧
      (timegm y m d + hour * 3600 + mi * 60 + s) * 1000000000 + (usec : ℤ) * 1000 =
        tp / 1000 * 1000 := by
  have hdays : tp / 1000 / 1000000 / 86400 = tp / 86400000000000 := by omega
  obtain ⟨hvalid, hdate⟩ := valid_civilFromDays (tp / 86400000000000)
  obtain ⟨hmonth, hmonth', hday, hday'⟩ := id hvalid
  have hlast := lastDay_le (civilFromDays (tp / 86400000000000)).1
    (civilFromDays (tp / 86400000000000)).2.1
  have htimegm := timegm_of_valid hvalid
  rw [hdate] at htimegm
  unfold yearOf at hlow hhigh
  have hy := Int.natAbs_of_nonneg hlow
  have hm := Int.natAbs_of_nonneg (show 0 ≤ (civilFromDays (tp / 86400000000000)).2.1 by omega)
  have hd := Int.natAbs_of_nonneg (show 0 ≤ (civilFromDays (tp / 86400000000000)).2.2 by omega)
  refine ⟨(civilFromDays (tp / 86400000000000)).1.natAbs,
    (civilFromDays (tp / 86400000000000)).2.1.natAbs,
    (civilFromDays (tp / 86400000000000)).2.2.natAbs,
    (tp / 1000 / 1000000 % 86400).toNat / 3600, (tp / 1000 / 1000000 % 86400).toNat / 60 % 60,
    (tp / 1000 / 1000000 % 86400).toNat % 60, (tp / 1000 % 1000000).toNat,
    by omega, by omega, by omega, by omega, by omega, by omega, by omega, ?_, ?_⟩
  · simp only [formatTimestamp, formatYear, hdays, if_neg (not_lt.mpr hlow), String.toList_ofList,
      dateText, clockText, List.append_assoc, List.cons_append]
  · rw [hy, hm, hd, htimegm]
    omega

theorem fastParse_of_spells {cache : DateCache} (h : Sound cache) {tp : ℤ} (hlow : 0 ≤ yearOf tp)
    (hhigh : yearOf tp ≤ 9999) {text : String} (hspells : Spells tp text) :
    (fastParseTimestamp text cache).1 = .ok (tp / 1000 * 1000) := by
  obtain ⟨y, m, d, hour, mi, s, usec, hy, hm, hd, hh, hmi, hs, husec, hformat, hinstant⟩ :=
    formatTimestamp_text hlow hhigh
  obtain ⟨date, clock, digits, fraction, zone, sep, hsep, hspelt, hdate, hclock, hfraction, hzone,
    htext⟩ := hspells
  rw [hformat] at hspelt
  simp only [List.append_assoc, List.cons_append] at hspelt
  obtain ⟨rfl, hafter⟩ := List.append_inj hspelt ((length_dateText hy hm hd).trans hdate.symm)
  obtain ⟨rfl, hend⟩ := List.append_inj (List.cons.inj hafter).2
    ((length_clockText hh hmi hs).trans hclock.symm)
  obtain rfl := List.append_cancel_right (List.cons.inj hend).2
  have hlen : (padded 6 usec).length = 6 := length_padded (by decide) husec
  have hread := scanFraction_of_fraction hlen (fun _ hc => isDigit_of_mem_padded hc) hfraction hzone
  rw [ofDigitChars_padded] at hread
  rw [List.append_assoc] at htext
  rw [fastParse_of_text h hy hm hd hh hmi hs hsep hread htext, hinstant]

theorem spells_formatTimestamp {tp : ℤ} (hlow : 0 ≤ yearOf tp) (hhigh : yearOf tp ≤ 9999) :
    Spells tp (formatTimestamp tp) := by
  obtain ⟨y, m, d, hour, mi, s, usec, hy, hm, hd, hh, hmi, hs, husec, hformat, -⟩ :=
    formatTimestamp_text hlow hhigh
  refine ⟨dateText y m d, clockText hour mi s, padded 6 usec, '.' :: padded 6 usec, ['Z'], 'T',
    by decide, hformat, length_dateText hy hm hd, length_clockText hh hmi hs, ?_, Or.inr rfl,
    hformat⟩
  refine Fraction.kept 0 (List.ne_nil_of_length_pos ?_) (List.append_nil _).symm
  rw [length_padded (by decide) husec]
  decide

/-- Texts are read one after another with one cache, whatever they are. Each that says what is
written of an instant is read as that instant to the microsecond, and one that is refused leaves the
cache as it was. -/
theorem timestamps_round_trip (texts : List String) :
    (∀ (i : ℕ) (tp : ℤ) (text : String), 0 ≤ yearOf tp → yearOf tp ≤ 9999 → Spells tp text →
      texts[i]? = some text → (parseAll texts {})[i]? = some (.ok (tp / 1000 * 1000))) ∧
    (∀ tp : ℤ, 0 ≤ yearOf tp → yearOf tp ≤ 9999 → Spells tp (formatTimestamp tp)) ∧
    ∀ text message, (fastParseTimestamp text (cacheAfter texts {})).1 = .error message →
      cacheAfter (texts ++ [text]) {} = cacheAfter texts {} := by
  refine ⟨fun i tp text hlow hhigh hspells htext => ?_,
    fun tp hlow hhigh => spells_formatTimestamp hlow hhigh, fun text message herror => ?_⟩
  · rw [getElem?_parseAll, htext, Option.map_some,
      fastParse_of_spells (sound_cacheAfter _ sound_empty) hlow hhigh hspells]
  · rw [cacheAfter, List.foldl_append]
    exact cache_of_error herror

end Timestamps

end BacktestEngine

import BacktestEngine.Bars.RangeBarBuilder
import BacktestEngine.Library.FlatObject
import BacktestEngine.Live.ClosePruning
import BacktestEngine.Live.StrategyRunner
import BacktestEngine.Models.SymbolScale

/-! # A position, from the intent to the book and back

An accepted order is written to the store as text by hand, and read back by the JSON
library. Sizes are exact numbers; how they are printed, and how text is parsed, is left
to the libraries.
-/

namespace BacktestEngine

namespace Live

open Positions (PositionRecord)
open RangeBar (toInt32)
open MarketDefinition (findMarket)

/-! ## From the intent to the order -/

def isAlphanumeric (c : Char) : Bool :=
  ('0' ≤ c && c ≤ '9') || ('a' ≤ c && c ≤ 'z') || ('A' ≤ c && c ≤ 'Z')

/-- The reference of a placement: eight characters of the strategy, the side, and the tick's
time in whole milliseconds. -/
def makeDealReference (strategyUuid : String) (direction : Direction) (timestamp : ℤ) : String :=
  String.ofList ((strategyUuid.toList.filter isAlphanumeric).take 8) ++ "-" ++
    (match direction with
    | .long => "L"
    | .short => "S") ++ toString (timestamp.tdiv 1000)

/-- The request for an intent, with the levels in points; the products wrap as the machine's do. -/
def makeOrderRequest (intent : OrderIntent) : Option OrderRequest :=
  let pointsPerPip := SymbolScale.get intent.symbol
  if pointsPerPip = SymbolScale.kUnknown then none
  else
    let stopPoints := toInt32 (intent.stopDistancePips * pointsPerPip)
    let limitPoints := toInt32 (intent.limitDistancePips * pointsPerPip)
    let (level, stopLevel, limitLevel) :=
      match intent.direction with
      | .long => (intent.ask, toInt32 (intent.ask - stopPoints), toInt32 (intent.ask + limitPoints))
      | .short =>
        (intent.bid, toInt32 (intent.bid + stopPoints), toInt32 (intent.bid - limitPoints))
    some
      { symbol := intent.symbol
        strategyUuid := intent.strategyUuid
        strategyName := intent.strategyName
        dealReference := makeDealReference intent.strategyUuid intent.direction intent.timestamp
        direction := intent.direction
        timestamp := intent.timestamp
        size := intent.size
        stopDistancePips := intent.stopDistancePips
        limitDistancePips := intent.limitDistancePips
        level
        stopLevel
        limitLevel }

/-! ## The text of a position -/

section Text

variable (format : ℚ → String)

def textField (key s : String) : String := "\"" ++ key ++ "\":\"" ++ s ++ "\""

def numberField (key s : String) : String := "\"" ++ key ++ "\":" ++ s

/-- The fields of a position, one after another, as both writers have them. -/
def formatPosition (dealId dealReference symbol epic direction : String) (size : ℚ)
    (level stopLevel limitLevel : ℤ) (strategyId strategyName : String) (openedAt : ℤ) : String :=
  "\x7b" ++ textField "dealId" dealId ++ "," ++ textField "dealReference" dealReference ++ "," ++
    textField "symbol" symbol ++ "," ++ textField "epic" epic ++ "," ++
    textField "direction" direction ++ "," ++ numberField "size" (format size) ++ "," ++
    numberField "level" (toString level) ++ "," ++ numberField "stopLevel" (toString stopLevel) ++
    "," ++ numberField "limitLevel" (toString limitLevel) ++ "," ++
    textField "strategyId" strategyId ++ "," ++ textField "strategyName" strategyName ++ "," ++
    numberField "openedAt" (toString openedAt) ++ "\x7d"

/-- What the channel writes for an accepted order. The clock of the ticks is in microseconds. -/
def positionPayload (request : OrderRequest) (order : TradeOpenObj ℚ)
    (dealReference dealId : String) : String :=
  formatPosition format dealId dealReference request.symbol order.epic order.direction order.size
    request.level request.stopLevel request.limitLevel request.strategyUuid request.strategyName
    request.timestamp

/-- What the producer writes for a record. -/
def encodePositionRecord (record : PositionRecord ℚ) : String :=
  formatPosition format record.dealId record.dealReference record.symbol record.epic
    record.direction record.size record.level record.stopLevel record.limitLevel record.strategyId
    record.strategyName record.openedAtMicros

end Text

/-! ## Reading it -/

/-- A number field, cut to 32 bits; zero when it is absent or no number. -/
def readInt32 (fields : List (String × Json ℚ)) (key : String) : ℤ :=
  match fields.lookup key with
  | some (.integer n) => toInt32 n
  | some (.float x) => toInt32 (x.num.tdiv x.den)
  | _ => 0

/-- A number field, cut to 64 bits; zero when it is absent or no number. -/
def readInt64 (fields : List (String × Json ℚ)) (key : String) : ℤ :=
  match fields.lookup key with
  | some (.integer n) => n.bmod (2 ^ 64)
  | some (.float x) => (x.num.tdiv x.den).bmod (2 ^ 64)
  | _ => 0

/-- A number field as it is; zero when it is absent or no number. -/
def readDouble (fields : List (String × Json ℚ)) (key : String) : ℚ :=
  match fields.lookup key with
  | some (.integer n) => n
  | some (.float x) => x
  | _ => 0

/-- A text field; empty when it is absent or no text. -/
def readString (fields : List (String × Json ℚ)) (key : String) : String :=
  (stringField fields key).getD ""

/-- The record of a text: an object with a reference, a symbol and a direction. -/
def decodePositionRecord [JsonText ℚ] (json : String) : Option (PositionRecord ℚ) := do
  let fields ← parseObject ℚ json
  let record : PositionRecord ℚ :=
    { dealId := readString fields "dealId"
      dealReference := readString fields "dealReference"
      symbol := readString fields "symbol"
      epic := readString fields "epic"
      direction := readString fields "direction"
      size := readDouble fields "size"
      level := readInt32 fields "level"
      stopLevel := readInt32 fields "stopLevel"
      limitLevel := readInt32 fields "limitLevel"
      strategyId := readString fields "strategyId"
      strategyName := readString fields "strategyName"
      openedAtMicros := readInt64 fields "openedAt" }
  if record.dealReference.isEmpty || record.symbol.isEmpty || record.direction.isEmpty then none
  else some record

/-- The position for the book; a record whose direction is neither side has none. -/
def toBookedPosition (record : PositionRecord ℚ) (market : Option MarketDefinition) :
    Option BookedPosition := do
  let direction ←
    if record.direction = "BUY" then some Direction.long
    else if record.direction = "SELL" then some Direction.short
    else none
  let modifier :=
    match market with
    | some market => market.sizeModifier ℚ
    | none => 1
  pure
    { dealId := record.dealId
      dealReference := record.dealReference
      direction
      brokerSize := record.size
      engineSize := toInt32 (Rounding.llround (record.size / modifier))
      level := record.level
      openedAt := record.openedAtMicros }

/-- What the sink asks of the channel for a close. -/
def closeRequest (intent : CloseIntent) : CloseRequest ℚ where
  strategyUuid := intent.strategyUuid
  strategyName := intent.strategyName
  symbol := intent.symbol
  direction := intent.direction
  size := intent.brokerSize
  dealId := intent.dealId
  dealReference := intent.dealReference

/-! ## The libraries -/

/-- A value of a flat object. -/
inductive Scalar
  | text (s : String)
  | integer (n : ℤ)
  | number (x : ℚ)

namespace Scalar

def write (format : ℚ → String) : Scalar → List Char
  | text s => FlatObject.quoted s.toList
  | integer n => (toString n).toList
  | number x => (format x).toList

/-- A text that needs no escape, or an integer of 64 bits. -/
def Plain : Scalar → Prop
  | text s => ∀ c ∈ s.toList, FlatObject.Plain c
  | integer n => -2 ^ 63 ≤ n ∧ n < 2 ^ 63
  | number _ => True

/-- A number may be read as an integer, when it is one. -/
def ReadAs : Scalar → Json ℚ → Prop
  | text s, j => j = .string s
  | integer n, j => j = .integer n
  | number x, j => j = .float x ∨ ∃ n : ℤ, j = .integer n ∧ x = n

end Scalar

/-- The text of an object without nesting. -/
def objectText (format : ℚ → String) (fields : List (String × Scalar)) : String :=
  String.ofList (FlatObject.text (fields.map fun f => (f.1.toList, f.2.write format)))

/-- The JSON library parses objects of plain texts and numbers, and what a number is printed as is
read as that number. -/
def ParsesObjects [JsonText ℚ] (format : ℚ → String) : Prop :=
  ∀ fields : List (String × Scalar), fields ≠ [] → (fields.map Prod.fst).Nodup →
    (∀ f ∈ fields, (∀ c ∈ f.1.toList, FlatObject.Plain c) ∧ f.2.Plain) →
      ∃ parsed, JsonText.parse (objectText format fields) = some (.object parsed) ∧
        List.Forall₂ (fun f p => f.1 = p.1 ∧ f.2.ReadAs p.2) fields parsed

/-- The fields of the intent are of the widths of their types. -/
structure OrderIntent.Typed (intent : OrderIntent) : Prop where
  size : -2 ^ 31 ≤ intent.size ∧ intent.size < 2 ^ 31
  bid : -2 ^ 31 ≤ intent.bid ∧ intent.bid < 2 ^ 31
  ask : -2 ^ 31 ≤ intent.ask ∧ intent.ask < 2 ^ 31
  timestamp : -2 ^ 63 ≤ intent.timestamp ∧ intent.timestamp < 2 ^ 63

/-! ## The text has the fields -/

/-- The fields of a record, as they are written. -/
def positionFields (record : PositionRecord ℚ) : List (String × Scalar) :=
  [("dealId", .text record.dealId), ("dealReference", .text record.dealReference),
   ("symbol", .text record.symbol), ("epic", .text record.epic),
   ("direction", .text record.direction), ("size", .number record.size),
   ("level", .integer record.level), ("stopLevel", .integer record.stopLevel),
   ("limitLevel", .integer record.limitLevel), ("strategyId", .text record.strategyId),
   ("strategyName", .text record.strategyName), ("openedAt", .integer record.openedAtMicros)]

theorem textField_toList (key s : String) : (textField key s).toList =
    FlatObject.field (key.toList, FlatObject.quoted s.toList) := by
  simp [textField, FlatObject.field, FlatObject.quoted, FlatObject.quote]

theorem numberField_toList (key s : String) :
    (numberField key s).toList = FlatObject.field (key.toList, s.toList) := by
  simp [numberField, FlatObject.field, FlatObject.quoted, FlatObject.quote]

/-- Both writers write an object, whatever the texts are. -/
theorem encodePositionRecord_eq (format : ℚ → String) (record : PositionRecord ℚ) :
    encodePositionRecord format record = objectText format (positionFields record) := by
  have hbrace : "\x7b".toList = ['{'] := by simp
  have hbrace' : "\x7d".toList = ['}'] := by simp
  have hcomma : ",".toList = [','] := by simp
  apply String.toList_inj.mp
  unfold encodePositionRecord formatPosition objectText
  simp only [String.toList_ofList, String.toList_append, textField_toList, numberField_toList,
    hbrace, hbrace', hcomma, positionFields, List.map_cons, List.map_nil, FlatObject.text,
    FlatObject.rest, Scalar.write, List.append_assoc, List.cons_append, List.nil_append]

/-- A record whose texts need no escape, and whose numbers are of their widths. -/
structure Writable (record : PositionRecord ℚ) : Prop where
  texts : ∀ s ∈ [record.dealId, record.dealReference, record.symbol, record.epic, record.direction,
    record.strategyId, record.strategyName], ∀ c ∈ s.toList, FlatObject.Plain c
  levels : ∀ n ∈ [record.level, record.stopLevel, record.limitLevel], -2 ^ 31 ≤ n ∧ n < 2 ^ 31
  openedAt : -2 ^ 63 ≤ record.openedAtMicros ∧ record.openedAtMicros < 2 ^ 63
  needed : record.dealReference ≠ "" ∧ record.symbol ≠ "" ∧ record.direction ≠ ""

section Reading

variable {fields : List (String × Scalar)} {parsed : List (String × Json ℚ)}

theorem lookup_parsed {key : String} {value : Scalar}
    (h : List.Forall₂ (fun f p => f.1 = p.1 ∧ f.2.ReadAs p.2) fields parsed)
    (hkey : fields.lookup key = some value) :
    ∃ j, parsed.lookup key = some j ∧ value.ReadAs j := by
  induction h with
  | nil => cases hkey
  | @cons f p fields parsed hhead _ ih =>
    obtain ⟨k, v⟩ := f
    obtain ⟨k', j⟩ := p
    obtain ⟨rfl, hread⟩ := hhead
    rw [List.lookup_cons] at hkey ⊢
    cases hk : key == k with
    | true =>
      rw [hk] at hkey
      cases hkey
      exact ⟨j, rfl, hread⟩
    | false =>
      rw [hk] at hkey
      exact ih hkey

variable (h : List.Forall₂ (fun f p => f.1 = p.1 ∧ f.2.ReadAs p.2) fields parsed) {key : String}

include h

theorem readString_parsed {s : String} (hkey : fields.lookup key = some (.text s)) :
    readString parsed key = s := by
  obtain ⟨j, hj, rfl⟩ := lookup_parsed h hkey
  simp [readString, stringField, hj]

theorem readInt32_parsed {n : ℤ} (hkey : fields.lookup key = some (.integer n))
    (hn : -2 ^ 31 ≤ n ∧ n < 2 ^ 31) : readInt32 parsed key = n := by
  obtain ⟨j, hj, rfl⟩ := lookup_parsed h hkey
  simp only [readInt32, hj]
  exact RangeBar.toInt32_of_small hn.1 hn.2

theorem readInt64_parsed {n : ℤ} (hkey : fields.lookup key = some (.integer n))
    (hn : -2 ^ 63 ≤ n ∧ n < 2 ^ 63) : readInt64 parsed key = n := by
  obtain ⟨j, hj, rfl⟩ := lookup_parsed h hkey
  simp only [readInt64, hj]
  exact Int.bmod_eq_of_le (by omega) (by omega)

theorem readDouble_parsed {x : ℚ} (hkey : fields.lookup key = some (.number x)) :
    readDouble parsed key = x := by
  obtain ⟨j, hj, rfl | ⟨n, rfl, rfl⟩⟩ := lookup_parsed h hkey
  · simp only [readDouble, hj]
  · simp only [readDouble, hj]

end Reading

def positionKeys : List String :=
  ["dealId", "dealReference", "symbol", "epic", "direction", "size", "level", "stopLevel",
   "limitLevel", "strategyId", "strategyName", "openedAt"]

theorem positionKeys_plain : ∀ key ∈ positionKeys, ∀ c ∈ key.toList, FlatObject.Plain c := by
  simp [positionKeys, FlatObject.Plain]

theorem positionFields_plain {record : PositionRecord ℚ} (h : Writable record) :
    ∀ f ∈ positionFields record, (∀ c ∈ f.1.toList, FlatObject.Plain c) ∧ f.2.Plain := by
  have hkeys := positionKeys_plain
  have htexts := h.texts
  have hlevels := h.levels
  simp only [positionKeys, List.forall_mem_cons, List.not_mem_nil, false_imp_iff, implies_true,
    and_true] at hkeys htexts hlevels
  obtain ⟨k1, k2, k3, k4, k5, k6, k7, k8, k9, k10, k11, k12⟩ := hkeys
  obtain ⟨t1, t2, t3, t4, t5, t6, t7⟩ := htexts
  obtain ⟨n1, n2, n3⟩ := hlevels
  have hwide {n : ℤ} (hn : -2 ^ 31 ≤ n ∧ n < 2 ^ 31) : -2 ^ 63 ≤ n ∧ n < 2 ^ 63 := by omega
  simp only [positionFields, List.forall_mem_cons, List.not_mem_nil, false_imp_iff, implies_true,
    and_true, Scalar.Plain]
  exact ⟨⟨k1, t1⟩, ⟨k2, t2⟩, ⟨k3, t3⟩, ⟨k4, t4⟩, ⟨k5, t5⟩, k6, ⟨k7, hwide n1⟩, ⟨k8, hwide n2⟩,
    ⟨k9, hwide n3⟩, ⟨k10, t6⟩, ⟨k11, t7⟩, k12, h.openedAt⟩

/-- A record that is written is read back. -/
theorem decodePositionRecord_encode [JsonText ℚ] {format : ℚ → String}
    (hjson : ParsesObjects format) {record : PositionRecord ℚ} (h : Writable record) :
    decodePositionRecord (encodePositionRecord format record) = some record := by
  have hnodup : ((positionFields record).map Prod.fst).Nodup := by
    change positionKeys.Nodup
    decide
  obtain ⟨parsed, hparse, hfields⟩ :=
    hjson (positionFields record) (List.cons_ne_nil _ _) hnodup (positionFields_plain h)
  have hobject : parseObject ℚ (encodePositionRecord format record) = some parsed := by
    rw [encodePositionRecord_eq, parseObject, hparse]
  have hlevels := h.levels
  simp only [List.forall_mem_cons, List.not_mem_nil, false_imp_iff, implies_true, and_true]
    at hlevels
  have hdealId : readString parsed "dealId" = record.dealId := readString_parsed hfields rfl
  have hdealReference : readString parsed "dealReference" = record.dealReference :=
    readString_parsed hfields rfl
  have hsymbol : readString parsed "symbol" = record.symbol := readString_parsed hfields rfl
  have hepic : readString parsed "epic" = record.epic := readString_parsed hfields rfl
  have hdirection : readString parsed "direction" = record.direction :=
    readString_parsed hfields rfl
  have hstrategyId : readString parsed "strategyId" = record.strategyId :=
    readString_parsed hfields rfl
  have hstrategyName : readString parsed "strategyName" = record.strategyName :=
    readString_parsed hfields rfl
  have hsize : readDouble parsed "size" = record.size := readDouble_parsed hfields rfl
  have hlevel : readInt32 parsed "level" = record.level := readInt32_parsed hfields rfl hlevels.1
  have hstopLevel : readInt32 parsed "stopLevel" = record.stopLevel :=
    readInt32_parsed hfields rfl hlevels.2.1
  have hlimitLevel : readInt32 parsed "limitLevel" = record.limitLevel :=
    readInt32_parsed hfields rfl hlevels.2.2
  have hopenedAt : readInt64 parsed "openedAt" = record.openedAtMicros :=
    readInt64_parsed hfields rfl h.openedAt
  obtain ⟨href, hsym, hdir⟩ := h.needed
  unfold decodePositionRecord
  rw [hobject]
  simp only [Option.bind_eq_bind, Option.bind_some, hdealId, hdealReference, hsymbol, hepic,
    hdirection, hstrategyId, hstrategyName, hsize, hlevel, hstopLevel, hlimitLevel, hopenedAt]
  simp [href, hsym, hdir]

/-! ## Numbers as fractions

A library that prints a number as a fraction, and reads what is written as an object back.
-/

/-- An integer as it is, another number as a fraction in lowest terms. -/
def fractionText (x : ℚ) : String :=
  if x.den = 1 then toString x.num else toString x.num ++ "/" ++ toString x.den

def Scalar.toJson : Scalar → Json ℚ
  | text s => .string s
  | integer n => .integer n
  | number x => if x.den = 1 then .integer x.num else .float x

theorem readAs_toJson (v : Scalar) : v.ReadAs v.toJson := by
  cases v with
  | text s => rfl
  | integer n => rfl
  | number x =>
    by_cases hx : x.den = 1
    · exact .inr ⟨x.num, if_pos hx, (Rat.coe_int_num_of_den_eq_one hx).symm⟩
    · exact .inl (if_neg hx)

theorem toString_nat_chars {n : ℕ} : ∀ c ∈ (toString n).toList, c.isDigit := by
  intro c hc
  rw [show (toString n).toList = Nat.toDigits 10 n from Nat.toList_repr] at hc
  exact Nat.isDigit_of_mem_toDigits (by decide) (by decide) hc

theorem toString_int_chars {n : ℤ} : ∀ c ∈ (toString n).toList, c.isDigit ∨ c = '-' := by
  intro c hc
  cases n with
  | ofNat m => exact .inl (toString_nat_chars (n := m) c hc)
  | negSucc m =>
    have htext : toString (Int.negSucc m) = "-" ++ toString (m + 1) := rfl
    rw [htext, String.toList_append] at hc
    rcases List.mem_append.mp hc with hminus | hdigit
    · exact .inr (by simpa using hminus)
    · exact .inl (toString_nat_chars c hdigit)

theorem toString_int_ne {n : ℤ} : (toString n).toList ≠ [] := by
  cases n with
  | ofNat m => exact fun h => Nat.repr_ne_empty (n := m) (String.toList_inj.mp h)
  | negSucc m =>
    have htext : toString (Int.negSucc m) = "-" ++ toString (m + 1) := rfl
    simp [htext]

theorem isDigit_not_slash {c : Char} (h : c.isDigit ∨ c = '-') : c ≠ '/' := by
  rintro rfl
  revert h
  decide

theorem isDigit_numeric {c : Char} (h : c.isDigit ∨ c = '-' ∨ c = '/') : FlatObject.Numeric c := by
  have hof (n : ℕ) (hn : c.toNat = n) : c = Char.ofNat n := by rw [← hn, Char.ofNat_toNat]
  refine ⟨?_, ?_, ?_⟩
  · intro hc
    rw [hof 34 hc] at h
    revert h
    decide
  · intro hc
    rw [hof 44 hc] at h
    revert h
    decide
  · intro hc
    rw [hof 125 hc] at h
    revert h
    decide

theorem fractionText_chars (x : ℚ) :
    ∀ c ∈ (fractionText x).toList, c.isDigit ∨ c = '-' ∨ c = '/' := by
  intro c hc
  have hnum : c ∈ (toString x.num).toList → c.isDigit ∨ c = '-' ∨ c = '/' := by
    intro h
    rcases toString_int_chars c h with hdigit | hminus
    · exact .inl hdigit
    · exact .inr (.inl hminus)
  unfold fractionText at hc
  split_ifs at hc with hden
  · exact hnum hc
  · rw [String.toList_append, String.toList_append, List.append_assoc] at hc
    rcases List.mem_append.mp hc with h | h
    · exact hnum h
    · rcases List.mem_cons.mp h with hslash | hdigit
      · exact .inr (.inr hslash)
      · exact .inl (toString_nat_chars c hdigit)

theorem fractionText_ne (x : ℚ) : (fractionText x).toList ≠ [] := by
  unfold fractionText
  split_ifs with hden
  · exact toString_int_ne
  · simp

/-- The slash comes after the numerator. -/
theorem fractionText_injective {x y : ℚ} (h : fractionText x = fractionText y) : x = y := by
  have hslash (n : ℤ) : ∀ c ∈ (toString n).toList, c ≠ '/' := by
    intro c hc
    exact isDigit_not_slash (toString_int_chars c hc)
  have hmem (x : ℚ) (hx : x.den ≠ 1) : '/' ∈ (fractionText x).toList := by
    simp [fractionText, hx]
  have hnot (x : ℚ) (hx : x.den = 1) : '/' ∉ (fractionText x).toList := by
    rw [fractionText, if_pos hx]
    exact fun hc => hslash x.num '/' hc rfl
  by_cases hx : x.den = 1
  · by_cases hy : y.den = 1
    · rw [fractionText, fractionText, if_pos hx, if_pos hy] at h
      exact Rat.ext (Int.repr_injective h) (hx.trans hy.symm)
    · exact absurd (h ▸ hmem y hy) (hnot x hx)
  · by_cases hy : y.den = 1
    · exact absurd (h ▸ hmem x hx) (hnot y hy)
    · have hlist := congrArg String.toList h
      rw [fractionText, fractionText, if_neg hx, if_neg hy] at hlist
      simp only [String.toList_append, List.append_assoc] at hlist
      obtain ⟨hnum, -, hden⟩ := FlatObject.span_unique (hslash x.num) (hslash y.num)
        (not_not.mpr rfl) (not_not.mpr rfl) hlist
      exact Rat.ext (Int.repr_injective (String.toList_inj.mp hnum))
        (Nat.repr_injective (String.toList_inj.mp hden))

theorem number_token (x : ℚ) : FlatObject.Token (fractionText x).toList :=
  .number (fun c hc => isDigit_numeric (fractionText_chars x c hc)) (fractionText_ne x)

/-- An integer is printed, and read, as the number it is. -/
theorem write_integer (n : ℤ) : (Scalar.integer n).write fractionText =
    (Scalar.number n).write fractionText := by
  simp [Scalar.write, fractionText]

theorem toJson_integer (n : ℤ) : (Scalar.integer n).toJson = (Scalar.number n).toJson := by
  simp [Scalar.toJson]

theorem write_token {v : Scalar} (h : v.Plain) : FlatObject.Token (v.write fractionText) := by
  cases v with
  | text s => exact .quoted h
  | integer n =>
    rw [write_integer]
    exact number_token n
  | number x => exact number_token x

theorem quoted_ne_number {s : List Char} {x : ℚ} :
    FlatObject.quoted s ≠ (fractionText x).toList := by
  intro h
  have hne : (fractionText x).toList ++ [] ≠ FlatObject.quoted s :=
    FlatObject.number_append_ne (fun c hc => isDigit_numeric (fractionText_chars x c hc))
      (fractionText_ne x)
  rw [List.append_nil] at hne
  exact hne h.symm

theorem write_injective {v v' : Scalar} (h : v.write fractionText = v'.write fractionText) :
    v.toJson = v'.toJson := by
  have hnumber {x : ℚ} {v : Scalar}
      (h : (Scalar.number x).write fractionText = v.write fractionText) :
      (Scalar.number x).toJson = v.toJson := by
    cases v with
    | text s => exact absurd h.symm quoted_ne_number
    | integer n =>
      rw [write_integer] at h
      rw [toJson_integer, fractionText_injective (String.toList_inj.mp h)]
    | number y => rw [fractionText_injective (String.toList_inj.mp h)]
  cases v with
  | text s =>
    cases v' with
    | text s' =>
      obtain ⟨-, htail⟩ := List.cons.inj h
      rw [String.toList_inj.mp (List.append_cancel_right htail)]
    | integer n =>
      rw [write_integer] at h
      exact absurd h quoted_ne_number
    | number x => exact absurd h quoted_ne_number
  | integer n =>
    rw [write_integer] at h
    rw [toJson_integer]
    exact hnumber h
  | number x => exact hnumber h

def PlainFields (fields : List (String × Scalar)) : Prop :=
  ∀ f ∈ fields, (∀ c ∈ f.1.toList, FlatObject.Plain c) ∧ f.2.Plain

def fieldValues (fields : List (String × Scalar)) : List (String × Json ℚ) :=
  fields.map fun f => (f.1, f.2.toJson)

theorem fieldValues_unique {fields fields' : List (String × Scalar)}
    (h : fields.map (fun f => (f.1.toList, f.2.write fractionText)) =
      fields'.map (fun f => (f.1.toList, f.2.write fractionText))) :
    fieldValues fields = fieldValues fields' := by
  induction fields generalizing fields' with
  | nil =>
    rw [List.map_nil, eq_comm, List.map_eq_nil_iff] at h
    rw [h]
  | cons f fields ih =>
    cases fields' with
    | nil => cases h
    | cons f' fields' =>
      obtain ⟨hhead, htail⟩ := List.cons.inj h
      obtain ⟨hkey, hvalue⟩ := Prod.mk.inj hhead
      have hrest : fieldValues fields = fieldValues fields' := ih htail
      unfold fieldValues at hrest ⊢
      rw [List.map_cons, List.map_cons, String.toList_inj.mp hkey, write_injective hvalue, hrest]

theorem wellFormed_write {fields : List (String × Scalar)} (h : PlainFields fields) :
    FlatObject.WellFormed (fields.map fun f => (f.1.toList, f.2.write fractionText)) := by
  intro f hf
  obtain ⟨g, hg, rfl⟩ := List.mem_map.mp hf
  obtain ⟨hkey, hvalue⟩ := h g hg
  exact ⟨hkey, write_token hvalue⟩

theorem objectText_unique {fields fields' : List (String × Scalar)} (hne : fields ≠ [])
    (hne' : fields' ≠ []) (hplain : PlainFields fields) (hplain' : PlainFields fields')
    (h : objectText fractionText fields = objectText fractionText fields') :
    fieldValues fields = fieldValues fields' := by
  apply fieldValues_unique
  apply FlatObject.text_injective (wellFormed_write hplain) (wellFormed_write hplain')
  · simpa using hne
  · simpa using hne'
  · exact String.ofList_injective h

/-- A text that some fields are written as. -/
def WrittenAs (s : String) (fields : List (String × Scalar)) : Prop :=
  fields ≠ [] ∧ PlainFields fields ∧ s = objectText fractionText fields

open Classical in
/-- Any object's text is read as the object; nothing is dumped. -/
@[reducible] noncomputable def fractionJson : JsonText ℚ where
  parse s :=
    if h : ∃ fields, WrittenAs s fields then some (.object (fieldValues h.choose)) else none
  dump _ := ""

open Classical in
theorem parsesObjects_fractionJson : @ParsesObjects fractionJson fractionText := by
  intro fields hne _ hplain
  have hwritten : ∃ fields', WrittenAs (objectText fractionText fields) fields' :=
    ⟨fields, hne, hplain, rfl⟩
  refine ⟨fieldValues fields, ?_, ?_⟩
  · obtain ⟨hne', hplain', htext⟩ := hwritten.choose_spec
    change (if h : _ then _ else _) = _
    rw [dif_pos hwritten, objectText_unique hne' hne hplain' hplain htext.symm]
  · rw [fieldValues, List.forall₂_map_right_iff, List.forall₂_same]
    exact fun f _ => ⟨rfl, readAs_toJson f.2⟩

/-! ## From the intent to the book, and to the close -/

/-- The side at which a market order is filled. -/
def fillLevel (intent : OrderIntent) : ℤ :=
  match intent.direction with
  | .long => intent.ask
  | .short => intent.bid

/-- The book's entry for an accepted order. -/
def bookedFor (intent : OrderIntent) (order : TradeOpenObj ℚ) (dealReference dealId : String) :
    BookedPosition where
  dealId := dealId
  dealReference := dealReference
  direction := intent.direction
  brokerSize := order.size
  engineSize := intent.size
  level := fillLevel intent
  openedAt := intent.timestamp

/-- The order that closes it: the other side, for the whole of it. -/
def closeFor (intent : OrderIntent) (order : TradeOpenObj ℚ) (dealId : String) :
    TradeCloseObj ℚ where
  direction :=
    match intent.direction with
    | .long => "SELL"
    | .short => "BUY"
  dealId := dealId
  size := order.size

theorem toInt32_range (n : ℤ) : -2 ^ 31 ≤ toInt32 n ∧ toInt32 n < 2 ^ 31 := by
  have hlow := Int.le_bmod (m := 2 ^ 32) (x := n) (by decide)
  have hhigh := Int.bmod_lt (m := 2 ^ 32) (x := n) (by decide)
  unfold toInt32
  omega

theorem modifier_den_pos :
    ∀ market ∈ MarketDefinition.kMarkets, 0 < market.tradeSizeModifier.2 := by
  decide

theorem sizeModifier_pos {market : MarketDefinition} (h : market ∈ MarketDefinition.kMarkets) :
    0 < market.sizeModifier ℚ := by
  have hden := modifier_den_pos market h
  unfold MarketDefinition.sizeModifier
  split_ifs with hnum
  · exact div_pos (Int.cast_pos.mpr hnum) (Int.cast_pos.mpr hden)
  · exact one_pos

theorem llround_intCast (n : ℤ) : Rounding.llround (n : ℚ) = n := by
  change (if (0 : ℚ) ≤ n then (2 * (n : ℚ).num + (n : ℚ).den) / (2 * (n : ℚ).den)
    else -(((n : ℚ).den - 2 * (n : ℚ).num) / (2 * (n : ℚ).den))) = n
  rw [Rat.num_intCast, Rat.den_intCast]
  split_ifs <;> omega

/-- The modifier that sizes the order is divided out again. -/
theorem engineSize_eq {market : MarketDefinition} (h : market ∈ MarketDefinition.kMarkets)
    {size : ℤ} (hsize : -2 ^ 31 ≤ size ∧ size < 2 ^ 31) :
    toInt32 (Rounding.llround ((size : ℚ) * market.sizeModifier ℚ / market.sizeModifier ℚ)) =
      size := by
  rw [mul_div_cancel_right₀ _ (sizeModifier_pos h).ne', llround_intCast]
  exact RangeBar.toInt32_of_small hsize.1 hsize.2

theorem positionPayload_eq (format : ℚ → String) (request : OrderRequest) (order : TradeOpenObj ℚ)
    (dealReference dealId : String) : positionPayload format request order dealReference dealId =
      encodePositionRecord format (buildPositionPayload request order dealReference dealId) := rfl

theorem symbol_plain : ∀ market ∈ MarketDefinition.kMarkets,
    ∀ c ∈ market.symbol.toList, FlatObject.Plain c := by
  have hall : MarketDefinition.kMarkets.all (fun market =>
      market.symbol.toList.all fun c => decide (FlatObject.Plain c)) = true := by decide +kernel
  simpa only [List.all_eq_true, decide_eq_true_eq] using hall

theorem epicMini_plain : ∀ market ∈ MarketDefinition.kMarkets,
    ∀ c ∈ market.epicMini.toList, FlatObject.Plain c := by
  have hall : MarketDefinition.kMarkets.all (fun market =>
      market.epicMini.toList.all fun c => decide (FlatObject.Plain c)) = true := by decide +kernel
  simpa only [List.all_eq_true, decide_eq_true_eq] using hall

theorem symbol_ne_empty : ∀ market ∈ MarketDefinition.kMarkets, market.symbol ≠ "" := by
  decide

/-- Identifiers that need no escape. -/
structure Identifiers (intent : OrderIntent) (dealReference dealId : String) : Prop where
  strategyUuid : ∀ c ∈ intent.strategyUuid.toList, FlatObject.Plain c
  strategyName : ∀ c ∈ intent.strategyName.toList, FlatObject.Plain c
  dealReference : ∀ c ∈ dealReference.toList, FlatObject.Plain c
  dealId : ∀ c ∈ dealId.toList, FlatObject.Plain c

section RoundTrip

variable {intent : OrderIntent} {request : OrderRequest} {market : MarketDefinition}
  {dealReference dealId : String}

/-- What a request has of its intent. -/
structure RequestFor (intent : OrderIntent) (request : OrderRequest) : Prop where
  symbol : request.symbol = intent.symbol
  strategyUuid : request.strategyUuid = intent.strategyUuid
  strategyName : request.strategyName = intent.strategyName
  direction : request.direction = intent.direction
  timestamp : request.timestamp = intent.timestamp
  size : request.size = intent.size
  level : request.level = fillLevel intent
  stopLevel : -2 ^ 31 ≤ request.stopLevel ∧ request.stopLevel < 2 ^ 31
  limitLevel : -2 ^ 31 ≤ request.limitLevel ∧ request.limitLevel < 2 ^ 31

theorem makeOrderRequest_spec (hscale : SymbolScale.get intent.symbol ≠ SymbolScale.kUnknown) :
    ∃ request, makeOrderRequest intent = some request ∧ RequestFor intent request := by
  unfold makeOrderRequest
  dsimp only
  rw [if_neg hscale]
  refine ⟨_, rfl, ?_⟩
  cases hdirection : intent.direction with
  | long =>
    constructor <;> first | rfl | exact toInt32_range _ | simp [fillLevel, hdirection]
  | short =>
    constructor <;> first | rfl | exact toInt32_range _ | simp [fillLevel, hdirection]

theorem writable_payload (htyped : intent.Typed) (hmarket : findMarket intent.symbol = some market)
    (hidentifiers : Identifiers intent dealReference dealId) (hreference : dealReference ≠ "")
    (hrequest : RequestFor intent request) :
    Writable (buildPositionPayload request (openOrder request market : TradeOpenObj ℚ)
      dealReference dealId) := by
  obtain ⟨hmem, hname⟩ := MarketDefinition.findMarket_eq_some_iff.mp hmarket
  have hdirection : ∀ c ∈ (brokerDirection request.direction).toList, FlatObject.Plain c := by
    cases request.direction <;> simp [brokerDirection, FlatObject.Plain]
  constructor
  · simp only [List.forall_mem_cons, List.not_mem_nil, false_imp_iff, implies_true, and_true]
    refine ⟨hidentifiers.dealId, hidentifiers.dealReference, ?_, epicMini_plain market hmem,
      hdirection, ?_, ?_⟩
    · change ∀ c ∈ request.symbol.toList, _
      rw [hrequest.symbol, ← hname]
      exact symbol_plain market hmem
    · change ∀ c ∈ request.strategyUuid.toList, _
      rw [hrequest.strategyUuid]
      exact hidentifiers.strategyUuid
    · change ∀ c ∈ request.strategyName.toList, _
      rw [hrequest.strategyName]
      exact hidentifiers.strategyName
  · simp only [List.forall_mem_cons, List.not_mem_nil, false_imp_iff, implies_true, and_true]
    refine ⟨?_, hrequest.stopLevel, hrequest.limitLevel⟩
    change -2 ^ 31 ≤ request.level ∧ request.level < 2 ^ 31
    rw [hrequest.level, fillLevel]
    cases intent.direction with
    | long => exact htyped.ask
    | short => exact htyped.bid
  · change -2 ^ 63 ≤ request.timestamp ∧ request.timestamp < 2 ^ 63
    rw [hrequest.timestamp]
    exact htyped.timestamp
  · refine ⟨hreference, ?_, ?_⟩
    · change request.symbol ≠ ""
      rw [hrequest.symbol, ← hname]
      exact symbol_ne_empty market hmem
    · change brokerDirection request.direction ≠ ""
      cases request.direction <;> decide

theorem toBookedPosition_payload (htyped : intent.Typed)
    (hmarket : findMarket intent.symbol = some market) (hrequest : RequestFor intent request) :
    toBookedPosition (buildPositionPayload request (openOrder request market) dealReference dealId)
      (some market) = some (bookedFor intent (openOrder request market) dealReference dealId) := by
  obtain ⟨hmem, -⟩ := MarketDefinition.findMarket_eq_some_iff.mp hmarket
  have hsize := engineSize_eq hmem htyped.size
  rw [← hrequest.size] at hsize
  unfold toBookedPosition buildPositionPayload openOrder bookedFor
  dsimp only
  have hmodifier : Decimal.mul (Decimal.ofInt request.size) (market.sizeModifier ℚ) =
    (request.size : ℚ) * market.sizeModifier ℚ := rfl
  rw [hmodifier, hsize, hrequest.level, hrequest.timestamp, hrequest.size, hrequest.direction]
  cases intent.direction <;> rfl

theorem closeOrder_booked {σ B : Type} (spec : WorkerSpec σ B) (order : TradeOpenObj ℚ)
    (closed : Trade) (tick : PriceData) :
    closeOrder (closeRequest
      (StrategyRunner.closeIntent spec (bookedFor intent order dealReference dealId) closed tick)) =
        closeFor intent order dealId := by
  unfold closeOrder closeRequest StrategyRunner.closeIntent bookedFor closeFor
  cases intent.direction <;> rfl

/-- A buy of one lot of EURUSD. -/
def sampleIntent : OrderIntent where
  strategyName := "Momentum"
  strategyUuid := "1f0e8c1a-7b1d"
  symbol := "EURUSD"
  direction := .long
  size := 1
  stopDistancePips := 20
  limitDistancePips := 40
  bid := 108500
  ask := 108510
  timestamp := 1700000000000000

end RoundTrip

end Live

end BacktestEngine

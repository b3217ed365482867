import Mathlib.Data.Rat.Defs
import BacktestEngine.Library.Binary64

/-! # JSON values

What the code asks of its JSON library: values, the conversions of single values, and how
an object is read. Text is left to the library.
-/

namespace BacktestEngine

inductive JsonValue
  | null
  | boolean (value : Bool)
  | integer (value : ℤ)
  | float (value : ℚ)
  | string (value : String)
  | array (items : List JsonValue)
  | object (entries : List (String × JsonValue))

inductive JsonError
  | parse
  | type
  | missing (key : String)
  | invalidArgument (what : String) (got : JsonValue)
  | stod (error : Binary64.StodError)
  | runtime (what : String)
  | outOfBounds

/-- What the library makes of a value, and of bytes. -/
structure JsonLibrary where
  dump : JsonValue → Except JsonError (List UInt8)
  parse : List UInt8 → Except JsonError JsonValue

/-- The library parses what it dumps. -/
def JsonLibrary.ParsesDumps (text : JsonLibrary) : Prop :=
  ∀ j bytes, text.dump j = .ok bytes → text.parse bytes = .ok j

/-- A type with a way to and from JSON. -/
class Serializer (α : Type) where
  toJson : α → Except JsonError JsonValue
  fromJson : JsonValue → Except JsonError α

export Serializer (toJson fromJson)

/-- A value is written, and what is written is read as the value. -/
def ReadsBack {α : Type} [Serializer α] (a : α) : Prop :=
  ∃ j, toJson a = .ok j ∧ fromJson j = .ok a

namespace JsonValue

variable {α : Type}

def find (j : JsonValue) (key : String) : Option JsonValue :=
  match j with
  | object entries => entries.lookup key
  | _ => none

def isNull : JsonValue → Bool
  | null => true
  | _ => false

/-- A key that has to be there. -/
def atKey (j : JsonValue) (key : String) : Except JsonError JsonValue :=
  match j with
  | object _ =>
    match j.find key with
    | some value => .ok value
    | none => .error (.missing key)
  | _ => .error .type

/-- The value under a key, or the default. -/
def value [Serializer α] (j : JsonValue) (key : String) (default : α) : Except JsonError α :=
  match j with
  | object _ =>
    match j.find key with
    | some value => fromJson value
    | none => .ok default
  | _ => .error .type

def getString : JsonValue → Except JsonError String
  | string s => .ok s
  | _ => .error .type

def getBoolean : JsonValue → Except JsonError Bool
  | boolean b => .ok b
  | _ => .error .type

/-- The conversions of C++ to a 32-bit integer. -/
def getInt : JsonValue → Except JsonError Int32
  | integer n => .ok (Int32.ofInt n)
  | float q => .ok (Int32.ofInt (q.num.tdiv q.den))
  | boolean b => .ok (Int32.ofInt b.toInt)
  | _ => .error .type

def getDouble : JsonValue → Except JsonError Binary64
  | integer n => .ok (.nearest n)
  | float q => .ok (.finite q)
  | _ => .error .type

def getArray [Serializer α] : JsonValue → Except JsonError (List α)
  | array items => items.mapM fromJson
  | _ => .error .type

end JsonValue

instance : Serializer Int32 where
  toJson n := .ok (.integer n.toInt)
  fromJson := JsonValue.getInt

instance : Serializer Bool where
  toJson b := .ok (.boolean b)
  fromJson := JsonValue.getBoolean

instance : Serializer String where
  toJson s := .ok (.string s)
  fromJson := JsonValue.getString

instance {α : Type} [Serializer α] : Serializer (List α) where
  toJson items := do pure (.array (← items.mapM toJson))
  fromJson := JsonValue.getArray

/-- The text of a decimal, and the decimal of a text; either may fail. -/
class DecimalText (D : Type) where
  toChars : D → Option String
  fromChars : String → Option D

/-- Decimals survive their text. -/
def DecimalText.RoundTrips (D : Type) [DecimalText D] : Prop :=
  ∀ d : D, ∃ s, toChars d = some s ∧ fromChars s = some d

/-- A decimal travels as a string. -/
instance (priority := low) {D : Type} [DecimalText D] : Serializer D where
  toJson value :=
    match DecimalText.toChars value with
    | some s => .ok (.string s)
    | none => .error (.runtime "decimal_json: to_chars failed serializing decimal64_t")
  fromJson j := do
    let s ← j.getString
    match DecimalText.fromChars s with
    | some value => pure value
    | none => throw (.runtime ("decimal_json: from_chars failed parsing '" ++ s ++ "'"))

/-! ## Single values are read back -/

theorem readsBack_decimal {D : Type} [DecimalText D] (h : DecimalText.RoundTrips D) (d : D) :
    ReadsBack d := by
  obtain ⟨s, hto, hfrom⟩ := h d
  refine ⟨.string s, ?_, ?_⟩
  · simp only [toJson, hto]
  · simp [fromJson, JsonValue.getString, hfrom, Bind.bind, Except.bind, Pure.pure, Except.pure]

theorem readsBack_list {α : Type} [Serializer α] {items : List α} (h : ∀ a ∈ items, ReadsBack a) :
    ReadsBack items := by
  have hall : ∃ js, items.mapM toJson = .ok js ∧ js.mapM fromJson = (.ok items : Except _ _) := by
    induction items with
    | nil => exact ⟨[], rfl, rfl⟩
    | cons a items ih =>
      obtain ⟨ha, hitems⟩ := List.forall_mem_cons.mp h
      obtain ⟨j, hto, hfrom⟩ := ha
      obtain ⟨js, htos, hfroms⟩ := ih hitems
      refine ⟨j :: js, ?_, ?_⟩
      · rw [List.mapM_cons, hto, htos]
        rfl
      · rw [List.mapM_cons, hfrom, hfroms]
        rfl
  obtain ⟨js, htos, hfroms⟩ := hall
  refine ⟨.array js, ?_, hfroms⟩
  simp only [toJson, htos]
  rfl

end BacktestEngine

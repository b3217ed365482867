import Mathlib.Data.List.Forall2

/-! # The text of a flat object

An object whose values are strings that need no escape and numbers is written without
spaces: a brace, the fields with commas between them, a brace. The text says what the
fields were.
-/

namespace FlatObject

/-- A character that stands for itself between quotes. -/
def Plain (c : Char) : Prop := c.toNat ≠ 34 ∧ c.toNat ≠ 92 ∧ 32 ≤ c.toNat

instance : DecidablePred Plain := fun _ => inferInstanceAs (Decidable (_ ∧ _ ∧ _))

def quote : Char := Char.ofNat 34

def quoted (s : List Char) : List Char := quote :: s ++ [quote]

/-- A character of a number. -/
def Numeric (c : Char) : Prop := c.toNat ≠ 34 ∧ c.toNat ≠ 44 ∧ c.toNat ≠ 125

/-- The text of a value: a quoted text, or a number. -/
inductive Token : List Char → Prop
  | quoted {s : List Char} (h : ∀ c ∈ s, Plain c) : Token (quoted s)
  | number {s : List Char} (h : ∀ c ∈ s, Numeric c) (hne : s ≠ []) : Token s

def field (f : List Char × List Char) : List Char := quoted f.1 ++ ':' :: f.2

/-- What comes after a field: the other fields, each after a comma, and the end. -/
def rest : List (List Char × List Char) → List Char
  | [] => ['}']
  | f :: fields => ',' :: (field f ++ rest fields)

def text : List (List Char × List Char) → List Char
  | [] => ['{', '}']
  | f :: fields => '{' :: (field f ++ rest fields)

/-- Plain keys, and values that are tokens. -/
def WellFormed (fields : List (List Char × List Char)) : Prop :=
  ∀ f ∈ fields, (∀ c ∈ f.1, Plain c) ∧ Token f.2

/-- Up to the first character of a kind, a text is one only. -/
theorem span_unique {p : Char → Prop} {s s' : List Char} {c c' : Char} {t t' : List Char}
    (hs : ∀ d ∈ s, p d) (hs' : ∀ d ∈ s', p d) (hc : ¬ p c) (hc' : ¬ p c')
    (h : s ++ c :: t = s' ++ c' :: t') : s = s' ∧ c = c' ∧ t = t' := by
  induction s generalizing s' with
  | nil =>
    cases s' with
    | nil =>
      obtain ⟨rfl, rfl⟩ := List.cons.inj h
      exact ⟨rfl, rfl, rfl⟩
    | cons d s' =>
      obtain ⟨rfl, -⟩ := List.cons.inj h
      exact absurd (hs' c List.mem_cons_self) hc
  | cons d s ih =>
    cases s' with
    | nil =>
      obtain ⟨rfl, -⟩ := List.cons.inj h
      exact absurd (hs d List.mem_cons_self) hc'
    | cons d' s' =>
      obtain ⟨rfl, htail⟩ := List.cons.inj h
      obtain ⟨rfl, hrest⟩ := ih (fun x hx => hs x (List.mem_cons_of_mem d hx))
        (fun x hx => hs' x (List.mem_cons_of_mem d hx)) htail
      exact ⟨rfl, hrest⟩

theorem quoted_append {s t : List Char} : quoted s ++ t = quote :: (s ++ quote :: t) := by
  simp [quoted]

theorem not_plain_quote : ¬ Plain quote := by decide

theorem quoted_unique {s s' t t' : List Char} (hs : ∀ c ∈ s, Plain c) (hs' : ∀ c ∈ s', Plain c)
    (h : quoted s ++ t = quoted s' ++ t') : s = s' ∧ t = t' := by
  rw [quoted_append, quoted_append] at h
  obtain ⟨hs, -, ht⟩ := span_unique hs hs' not_plain_quote not_plain_quote (List.cons.inj h).2
  exact ⟨hs, ht⟩

theorem exists_rest (fields : List (List Char × List Char)) :
    ∃ c t, rest fields = c :: t ∧ ¬ Numeric c := by
  cases fields with
  | nil => exact ⟨'}', [], rfl, fun h => h.2.2 rfl⟩
  | cons f fields => exact ⟨',', _, rfl, fun h => h.2.1 rfl⟩

/-- A number does not begin with a quote. -/
theorem number_append_ne {s t t' : List Char} (h : ∀ c ∈ s, Numeric c) (hne : s ≠ []) :
    s ++ t ≠ quote :: t' := by
  obtain ⟨c, s, rfl⟩ := List.exists_cons_of_ne_nil hne
  intro heq
  obtain ⟨rfl, -⟩ := List.cons.inj heq
  exact (h quote List.mem_cons_self).1 rfl

theorem token_unique {s s' : List Char} {fields fields' : List (List Char × List Char)}
    (hs : Token s) (hs' : Token s') (h : s ++ rest fields = s' ++ rest fields') :
    s = s' ∧ rest fields = rest fields' := by
  cases hs with
  | quoted hplain =>
    cases hs' with
    | quoted hplain' =>
      obtain ⟨rfl, hrest⟩ := quoted_unique hplain hplain' h
      exact ⟨rfl, hrest⟩
    | number hnumeric hne =>
      rw [quoted_append] at h
      exact absurd h.symm (number_append_ne hnumeric hne)
  | number hnumeric hne =>
    cases hs' with
    | quoted hplain' =>
      rw [quoted_append] at h
      exact absurd h (number_append_ne hnumeric hne)
    | number hnumeric' hne' =>
      obtain ⟨c, t, ht, hc⟩ := exists_rest fields
      obtain ⟨c', t', ht', hc'⟩ := exists_rest fields'
      rw [ht, ht'] at h ⊢
      obtain ⟨rfl, rfl, rfl⟩ := span_unique hnumeric hnumeric' hc hc' h
      exact ⟨rfl, rfl⟩

theorem field_unique {f f' : List Char × List Char} {fields fields' : List (List Char × List Char)}
    (hf : (∀ c ∈ f.1, Plain c) ∧ Token f.2) (hf' : (∀ c ∈ f'.1, Plain c) ∧ Token f'.2)
    (h : field f ++ rest fields = field f' ++ rest fields') :
    f = f' ∧ rest fields = rest fields' := by
  rw [field, field, List.append_assoc, List.append_assoc] at h
  obtain ⟨hkey, htail⟩ := quoted_unique hf.1 hf'.1 h
  obtain ⟨hvalue, hrest⟩ := token_unique hf.2 hf'.2 (List.cons.inj htail).2
  exact ⟨Prod.ext hkey hvalue, hrest⟩

theorem rest_injective {fields fields' : List (List Char × List Char)} (hf : WellFormed fields)
    (hf' : WellFormed fields') (h : rest fields = rest fields') : fields = fields' := by
  induction fields generalizing fields' with
  | nil =>
    cases fields' with
    | nil => rfl
    | cons f' fields' => exact absurd (List.cons.inj h).1 (by decide)
  | cons f fields ih =>
    cases fields' with
    | nil => exact absurd (List.cons.inj h).1 (by decide)
    | cons f' fields' =>
      obtain ⟨hhead, htail⟩ := List.forall_mem_cons.mp hf
      obtain ⟨hhead', htail'⟩ := List.forall_mem_cons.mp hf'
      obtain ⟨rfl, hrest⟩ := field_unique hhead hhead' (List.cons.inj h).2
      rw [ih htail htail' hrest]

/-- The text of an object has its fields. -/
theorem text_injective {fields fields' : List (List Char × List Char)} (hf : WellFormed fields)
    (hf' : WellFormed fields') (hne : fields ≠ []) (hne' : fields' ≠ [])
    (h : text fields = text fields') : fields = fields' := by
  obtain ⟨f, fields, rfl⟩ := List.exists_cons_of_ne_nil hne
  obtain ⟨f', fields', rfl⟩ := List.exists_cons_of_ne_nil hne'
  obtain ⟨hhead, htail⟩ := List.forall_mem_cons.mp hf
  obtain ⟨hhead', htail'⟩ := List.forall_mem_cons.mp hf'
  obtain ⟨rfl, hrest⟩ := field_unique hhead hhead' (List.cons.inj h).2
  rw [rest_injective htail htail' hrest]

end FlatObject

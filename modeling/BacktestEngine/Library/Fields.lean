import Mathlib.Data.List.DropRight

/-! # Fields of a text

A text is cut at every separator, each field is trimmed of blanks, and what is left of it, if
anything, is a token. Joining tokens and cutting again gives the tokens back.
-/

namespace Fields

variable {α : Type*} {blank : α → Bool} {sep : α} {field : List α}

/-- Without the blanks at both ends. -/
def trim (blank : α → Bool) (field : List α) : List α := (field.dropWhile blank).rdropWhile blank

theorem mem_of_mem_trim {a : α} (h : a ∈ trim blank field) : a ∈ field :=
  (List.dropWhile_sublist blank).mem ((List.rdropWhile_prefix blank _).mem h)

theorem head?_trim {a : α} (h : (trim blank field).head? = some a) : blank a = false := by
  obtain ⟨rest, hrest⟩ := List.rdropWhile_prefix blank (field.dropWhile blank)
  have hhead : (field.dropWhile blank).head? = some a := by
    rw [← hrest, List.head?_append, ← trim, h]
    rfl
  have hnot := List.head?_dropWhile_not blank field
  rw [hhead] at hnot
  exact hnot

theorem getLast?_trim {a : α} (h : (trim blank field).getLast? = some a) : blank a = false := by
  have hne : trim blank field ≠ [] := fun hnil => by rw [hnil] at h; cases h
  have hlast := List.rdropWhile_last_not blank (field.dropWhile blank) hne
  rw [List.getLast?_eq_some_getLast hne] at h
  rw [← Option.some.inj h]
  exact Bool.eq_false_iff.mpr hlast

theorem trim_eq_self (hhead : ∀ a, field.head? = some a → blank a = false)
    (hlast : ∀ a, field.getLast? = some a → blank a = false) : trim blank field = field := by
  have hdrop : field.dropWhile blank = field := by
    cases field with
    | nil => rfl
    | cons a rest => exact List.dropWhile_cons_of_neg (Bool.eq_false_iff.mp (hhead a rfl))
  rw [trim, hdrop, List.rdropWhile_eq_self_iff]
  exact fun hne => Bool.eq_false_iff.mp (hlast _ (List.getLast?_eq_some_getLast hne))

section Tokens

variable [DecidableEq α] {text : List α} {tokens : List (List α)}

/-- What is left of the fields between separators. -/
def tokensOf (blank : α → Bool) (sep : α) (text : List α) : List (List α) :=
  ((text.splitOn sep).map (trim blank)).filter (· ≠ [])

theorem tokensOf_of_not_mem (h : sep ∉ field) :
    tokensOf blank sep field = if trim blank field = [] then [] else [trim blank field] := by
  rw [tokensOf, List.splitOn_eq_singleton h, List.map_singleton]
  split_ifs with hnil
  · exact List.filter_cons_of_neg (by simpa using hnil)
  · exact List.filter_cons_of_pos (by simpa using hnil)

/-- The first field, and the tokens behind it. -/
theorem tokensOf_append_cons (h : sep ∉ field) (text : List α) :
    tokensOf blank sep (field ++ sep :: text) =
      (if trim blank field = [] then [] else [trim blank field]) ++ tokensOf blank sep text := by
  rw [tokensOf, tokensOf, List.splitOn_append_cons_self_of_not_mem h, List.map_cons]
  split_ifs with hnil
  · rw [List.filter_cons_of_neg (by simpa using hnil)]
    rfl
  · rw [List.filter_cons_of_pos (by simpa using hnil)]
    rfl

/-- A token is not empty, has no blank at its ends and no separator. -/
structure IsToken (blank : α → Bool) (sep : α) (token : List α) : Prop where
  ne_nil : token ≠ []
  trimmed : trim blank token = token
  free : sep ∉ token

theorem sep_not_mem (h : field ∈ text.splitOn sep) : sep ∉ field := by
  induction text generalizing field with
  | nil =>
    rw [List.splitOn_nil, List.mem_singleton] at h
    rw [h]
    exact List.not_mem_nil
  | cons a text ih =>
    rw [List.splitOn_cons_eq_if_modifyHead] at h
    split_ifs at h with ha
    · obtain rfl | hrest := List.mem_cons.mp h
      · exact List.not_mem_nil
      · exact ih hrest
    · obtain ⟨first, rest, hsplit⟩ := List.exists_cons_of_ne_nil (List.splitOn_ne_nil sep text)
      rw [hsplit] at h ih
      obtain rfl | hrest := List.mem_cons.mp h
      · rw [List.mem_cons, not_or]
        exact ⟨fun heq => ha (beq_iff_eq.mpr heq.symm), ih List.mem_cons_self⟩
      · exact ih (List.mem_cons_of_mem _ hrest)

theorem isToken_of_mem {token : List α} (h : token ∈ tokensOf blank sep text) :
    IsToken blank sep token := by
  obtain ⟨hmem, hne⟩ := List.mem_filter.mp h
  obtain ⟨field, hfield, rfl⟩ := List.mem_map.mp hmem
  refine ⟨of_decide_eq_true hne, ?_, fun hsep => sep_not_mem hfield (mem_of_mem_trim hsep)⟩
  exact trim_eq_self (fun _ => head?_trim) fun _ => getLast?_trim

/-- Tokens that were joined are cut apart again. -/
theorem tokensOf_intercalate (h : ∀ token ∈ tokens, IsToken blank sep token) :
    tokensOf blank sep ([sep].intercalate tokens) = tokens := by
  by_cases hnil : tokens = []
  · rw [hnil]
    rfl
  · have htrimmed : tokens.map (trim blank) = tokens :=
      (List.map_congr_left fun token ht => (h token ht).trimmed).trans (List.map_id' tokens)
    rw [tokensOf, List.splitOn_intercalate sep (fun token ht => (h token ht).free) hnil, htrimmed,
      List.filter_eq_self]
    exact fun token ht => decide_eq_true (h token ht).ne_nil

end Tokens

end Fields

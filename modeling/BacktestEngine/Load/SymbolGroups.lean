import BacktestEngine.Library.Fields

/-! # Symbol groups

The loader splits a group of symbols at commas and trims what it finds; what it queues is joined
again without blanks. The worker splits that text with a reader of lines that does not trim and
does not give the empty field behind a last comma.
-/

namespace BacktestEngine

namespace SymbolGroups

def isBlank (c : Char) : Bool := c == ' ' || c == '\t'

/-- Where the next comma stands. -/
def findComma (group : List Char) (pos : ℕ) : Option ℕ :=
  ((group.drop pos).findIdx? (· == ',')).map (pos + ·)

theorem le_of_findComma {group : List Char} {pos comma : ℕ} (h : findComma group pos = some comma) :
    pos ≤ comma := by
  obtain ⟨i, -, rfl⟩ := Option.map_eq_some_iff.mp h
  exact Nat.le_add_right pos i

/-- A token that is not empty is pushed. -/
def pushToken (token : List Char) : List (List Char) := if token = [] then [] else [token]

def substr (group : List Char) (pos count : ℕ) : List Char := (group.drop pos).take count

/-- The symbols from a position on. -/
def splitFrom (group : List Char) (pos : ℕ) : List (List Char) :=
  if pos ≤ group.length then
    match h : findComma group pos with
    | none => pushToken (Fields.trim isBlank (substr group pos (group.length - pos)))
    | some comma =>
      pushToken (Fields.trim isBlank (substr group pos (comma - pos))) ++
        splitFrom group (comma + 1)
  else []
termination_by group.length + 1 - pos
decreasing_by
  have hle := le_of_findComma h
  omega

def splitSymbols (group : List Char) : List (List Char) := splitFrom group 0

/-- A comma is put before every symbol but the first. -/
def appendSymbol (result symbol : List Char) : List Char :=
  (if result = [] then result else result ++ [',']) ++ symbol

def cleanSymbols (group : List Char) : List Char := (splitSymbols group).foldl appendSymbol []

/-! ## The run side -/

/-- The next line of a stream, up to a comma, and what is left. An empty stream has none. -/
def getline (stream : List Char) : Option (List Char × List Char) :=
  if stream = [] then none
  else some (stream.takeWhile (· != ','), (stream.dropWhile (· != ',')).tail)

theorem length_getline {stream token rest : List Char} (h : getline stream = some (token, rest)) :
    rest.length < stream.length := by
  unfold getline at h
  split_ifs at h with hne
  cases h
  have hle := (List.dropWhile_sublist (· != ',') (l := stream)).length_le
  have hpos := List.length_pos_iff.mpr hne
  rw [List.length_tail]
  omega

/-- The worker's own splitter. -/
def splitCsv (stream : List Char) : List (List Char) :=
  match h : getline stream with
  | none => []
  | some (token, rest) => token :: splitCsv rest
termination_by stream.length
decreasing_by exact length_getline h

/-! ## Both sides agree -/

/-- A comma that is found ends the field that it is found behind. -/
theorem drop_of_findComma {group : List Char} {pos comma : ℕ}
    (h : findComma group pos = some comma) :
    comma < group.length ∧ ',' ∉ substr group pos (comma - pos) ∧
      group.drop pos = substr group pos (comma - pos) ++ ',' :: group.drop (comma + 1) := by
  obtain ⟨i, hi, rfl⟩ := Option.map_eq_some_iff.mp h
  obtain ⟨hlt, hcomma, hbefore⟩ := List.findIdx?_eq_some_iff_getElem.mp hi
  have hlength : (group.drop pos).length = group.length - pos := List.length_drop
  have hcount : pos + i - pos = i := Nat.add_sub_cancel_left pos i
  refine ⟨by omega, ?_, ?_⟩
  · rw [substr, hcount]
    intro hmem
    obtain ⟨j, hj, heq⟩ := List.mem_take_iff_getElem.mp hmem
    have hnot := hbefore j (by omega)
    rw [heq] at hnot
    exact absurd hnot (by decide)
  · have hdrop : group.drop (pos + i + 1) = (group.drop pos).drop (i + 1) := by
      rw [List.drop_drop, Nat.add_assoc]
    rw [substr, hcount, hdrop, ← eq_of_beq hcomma, ← List.drop_eq_getElem_cons hlt,
      List.take_append_drop]

theorem not_mem_of_findComma {group : List Char} {pos : ℕ} (h : findComma group pos = none) :
    ',' ∉ group.drop pos := by
  intro hmem
  have hnot := List.findIdx?_eq_none_iff.mp (Option.map_eq_none_iff.mp h) ',' hmem
  exact absurd hnot (by decide)

/-- From a position on, the symbols are the tokens of what is left. -/
theorem splitFrom_eq (group : List Char) {pos : ℕ} (hpos : pos ≤ group.length) :
    splitFrom group pos = Fields.tokensOf isBlank ',' (group.drop pos) := by
  rw [splitFrom, if_pos hpos]
  split
  · rename_i h
    have hall : substr group pos (group.length - pos) = group.drop pos :=
      List.take_of_length_le List.length_drop.le
    rw [Fields.tokensOf_of_not_mem (not_mem_of_findComma h), hall, pushToken]
  · rename_i comma h
    obtain ⟨hlt, hfree, hdrop⟩ := drop_of_findComma h
    have hle := le_of_findComma h
    rw [splitFrom_eq group hlt, hdrop, Fields.tokensOf_append_cons hfree, pushToken]
termination_by group.length - pos
decreasing_by omega

theorem splitSymbols_eq (group : List Char) :
    splitSymbols group = Fields.tokensOf isBlank ',' group := splitFrom_eq group (Nat.zero_le _)

theorem intercalate_append_cons (before first : List Char) (rest : List (List Char)) :
    [','].intercalate ((before ++ first) :: rest) =
      before ++ [','].intercalate (first :: rest) := by
  cases rest with
  | nil => rw [List.intercalate_singleton, List.intercalate_singleton]
  | cons second rest =>
    rw [List.intercalate_cons_cons, List.intercalate_cons_cons, List.append_assoc,
      List.append_assoc, List.append_assoc]

/-- Symbols that are not empty are joined by commas. -/
theorem foldl_appendSymbol {symbols : List (List Char)} (h : ∀ symbol ∈ symbols, symbol ≠ [])
    (result : List Char) : symbols.foldl appendSymbol result =
      if result = [] then [','].intercalate symbols
      else [','].intercalate (result :: symbols) := by
  induction symbols generalizing result with
  | nil =>
    split_ifs with hresult
    · exact hresult
    · exact (List.append_nil result).symm
  | cons symbol symbols ih =>
    have hne : appendSymbol result symbol ≠ [] :=
      List.append_ne_nil_of_right_ne_nil _ (h symbol List.mem_cons_self)
    rw [List.foldl_cons, ih (fun symbol' hmem => h symbol' (List.mem_cons_of_mem _ hmem)),
      if_neg hne, appendSymbol]
    split_ifs with hresult
    · rw [hresult]
      rfl
    · rw [intercalate_append_cons, List.intercalate_cons_cons]

theorem cleanSymbols_eq (group : List Char) :
    cleanSymbols group = [','].intercalate (Fields.tokensOf isBlank ',' group) := by
  rw [cleanSymbols, splitSymbols_eq,
    foldl_appendSymbol fun symbol hsymbol => (Fields.isToken_of_mem hsymbol).ne_nil, if_pos rfl]

theorem splitCsv_eq (stream : List Char) :
    splitCsv stream = (getline stream).elim [] fun line => line.1 :: splitCsv line.2 := by
  rw [splitCsv]
  split
  · rename_i h
    rw [h]
    rfl
  · rename_i h
    rw [h]
    rfl

theorem bne_comma {token : List Char} (hfree : ',' ∉ token) : ∀ c ∈ token, (c != ',') = true :=
  fun _ hc => bne_iff_ne.mpr (ne_of_mem_of_not_mem hc hfree)

theorem getline_append {token : List Char} (hfree : ',' ∉ token) (rest : List Char) :
    getline (token ++ ',' :: rest) = some (token, rest) := by
  rw [getline, if_neg (List.append_ne_nil_of_right_ne_nil _ (List.cons_ne_nil _ _)),
    List.takeWhile_append_of_pos (bne_comma hfree), List.dropWhile_append_of_pos (bne_comma hfree)]
  simp

theorem getline_last {token : List Char} (hne : token ≠ []) (hfree : ',' ∉ token) :
    getline token = some (token, []) := by
  rw [getline, if_neg hne, List.takeWhile_eq_self_iff.mpr (bne_comma hfree),
    List.dropWhile_eq_nil_iff.mpr (bne_comma hfree)]
  rfl

/-- The worker reads tokens that were joined by commas. -/
theorem splitCsv_intercalate {tokens : List (List Char)}
    (h : ∀ token ∈ tokens, Fields.IsToken isBlank ',' token) :
    splitCsv ([','].intercalate tokens) = tokens := by
  induction tokens with
  | nil =>
    rw [splitCsv_eq]
    rfl
  | cons token tokens ih =>
    obtain ⟨hne, -, hfree⟩ := h token List.mem_cons_self
    have hrest := ih fun token' hmem => h token' (List.mem_cons_of_mem _ hmem)
    by_cases hlast : tokens = []
    · subst hlast
      rw [List.intercalate_singleton, splitCsv_eq, getline_last hne hfree]
      exact congrArg (token :: ·) hrest
    · rw [List.intercalate_cons_of_ne_nil hlast, List.append_assoc, splitCsv_eq,
        List.singleton_append, getline_append hfree]
      exact congrArg (token :: ·) hrest

/-- What the loader queues is read by the worker as the loader meant it, is not changed by being
cleaned once more, and has what is left of every field between commas. -/
theorem tokenizers_agree (group : List Char) :
    splitCsv (cleanSymbols group) = splitSymbols group ∧
      cleanSymbols (cleanSymbols group) = cleanSymbols group ∧
      splitSymbols group =
        ((group.splitOn ',').map (Fields.trim isBlank)).filter (· ≠ []) := by
  have htokens : ∀ token ∈ Fields.tokensOf isBlank ',' group, Fields.IsToken isBlank ',' token :=
    fun _ => Fields.isToken_of_mem
  refine ⟨?_, ?_, splitSymbols_eq group⟩
  · rw [cleanSymbols_eq, splitCsv_intercalate htokens, splitSymbols_eq]
  · rw [cleanSymbols_eq, cleanSymbols_eq, Fields.tokensOf_intercalate htokens]

end SymbolGroups

end BacktestEngine

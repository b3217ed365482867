import Mathlib.Algebra.Order.BigOperators.GroupWithZero.List
import Mathlib.Algebra.Order.Ring.Nat
import Mathlib.Data.List.Nodup
import Mathlib.Data.String.Basic
import BacktestEngine.Library.Grid
import BacktestEngine.Library.SortedMap
import BacktestEngine.Queue.WorkQueue

/-! # Parameter sweeps

A sweep names ranges of values, and its grid is every way to take a value of each. The loader
never expands the grid: it decodes one combination after another, a chunk at a time, with indices
of sixty-four bits.
-/

namespace BacktestEngine

namespace Sweep

/-- A range knows the values that its parameter takes. -/
structure ParameterRange (D : Type) where
  generateValues : List D

def explicitRange {D : Type} (values : List D) : ParameterRange D := ⟨values⟩

/-- The base, and each value the one before it times the multiplier. -/
def exponentialRange {D : Type} [Mul D] (base multiplier : D) (iterations : ℕ) :
    ParameterRange D :=
  ⟨(List.range iterations).map fun i => (· * multiplier)^[i] base⟩

/-- The value chosen of each parameter. -/
abbrev Combination (D : Type) := SortedMap String D

def Combination.set {D : Type} (combination : Combination D) (name : String) (value : D) :
    Combination D :=
  combination.update name fun _ => value

structure ParameterGenerator (D : Type) where
  ranges : List (String × ParameterRange D)

/-- One more than the largest index. -/
def sizeLimit : ℕ := 2 ^ 64

namespace ParameterGenerator

variable {D : Type} (generator : ParameterGenerator D)

/-- Every combination, the parameter registered last varying fastest. -/
def generateAllCombinations : List (Combination D) :=
  generator.ranges.foldl (fun result range =>
    result.flatMap fun base => range.2.generateValues.map fun value => base.set range.1 value) [∅]

/-- The product of the value counts, in sixty-four bits. -/
def combinationCount : ℕ :=
  generator.ranges.foldl (fun count range => count * range.2.generateValues.length % sizeLimit) 1

/-- Take the digits of an index, the last one first. A range without values has no digit. -/
def combinationLoop : List (String × ParameterRange D) → ℕ → Combination D →
    Option (Combination D)
  | [], _, combination => some combination
  | range :: ranges, index, combination => do
    let values := range.2.generateValues
    let value ← values[index % values.length]?
    combinationLoop ranges (index / values.length) (combination.set range.1 value)

def combinationAt (index : ℕ) : Option (Combination D) :=
  combinationLoop generator.ranges.reverse index ∅

/-- The names are pairwise distinct. -/
def Distinct : Prop := (generator.ranges.map Prod.fst).Nodup

/-- Every range yields a value. -/
def Yields : Prop := ∀ range ∈ generator.ranges, range.2.generateValues ≠ []

instance : Decidable generator.Distinct := inferInstanceAs (Decidable (List.Nodup _))

instance : Decidable generator.Yields := inferInstanceAs (Decidable (∀ range ∈ _, _))

/-- The product of the value counts. -/
def product : ℕ := (generator.ranges.map fun range => range.2.generateValues.length).prod

end ParameterGenerator

/-! ## The chunks of a load -/

def kChunkSize : ℕ := 1000

/-- What is read one chunk at a time. A strategy is made of a combination and of the number of the
call, which stands for the identity that the call mints. -/
structure SweepChunkSource (D : Type) where
  generator : ParameterGenerator D
  strategyFactory : ℕ → Combination D → KeyedPayload
  total : ℕ

namespace SweepChunkSource

variable {D : Type} (source : SweepChunkSource D)

/-- The payloads from an index up to another one. -/
def buildStrategyChunk (first stop : ℕ) : Option (List KeyedPayload) :=
  (List.range' first (stop - first)).mapM fun i =>
    (source.generator.combinationAt i).map (source.strategyFactory i)

/-- Where the next chunk begins. The sum is one of sixty-four bits. -/
def stop (first : ℕ) : ℕ := min ((first + kChunkSize) % sizeLimit) source.total

/-- The chunk at an index, and where the one after it begins. -/
def next (first : ℕ) : Option (List KeyedPayload × ℕ) :=
  (source.buildStrategyChunk first (source.stop first)).map (·, source.stop first)

/-- The chunks up to the first empty one, if it comes in that many calls. -/
def chunks : ℕ → ℕ → Option (List (List KeyedPayload))
  | 0, _ => none
  | calls + 1, first => do
    let (chunk, first') ← source.next first
    if chunk = [] then pure []
    else (chunk :: ·) <$> chunks calls first'

/-- The stream ends, and is the payload of each combination of the grid once and in order. -/
def Covers : Prop :=
  ∃ calls chunks, source.chunks calls 0 = some chunks ∧
    chunks.flatten = source.generator.generateAllCombinations.mapIdx source.strategyFactory

end SweepChunkSource

/-- A combination is what the grid has at its index. -/
def ParameterGenerator.Decodes {D : Type} (generator : ParameterGenerator D) : Prop :=
  ∀ index < generator.combinationCount,
    generator.combinationAt index = generator.generateAllCombinations[index]? ∧
      index < generator.generateAllCombinations.length

/-! ## The grid -/

namespace ParameterGenerator

open Grid (expand decode)

variable {D : Type} {generator : ParameterGenerator D}

/-- The choices of a range, as moves on combinations. -/
def moves (range : String × ParameterRange D) : List (Combination D → Combination D) :=
  range.2.generateValues.map fun value combination => combination.set range.1 value

theorem length_moves (range : String × ParameterRange D) :
    (moves range).length = range.2.generateValues.length := List.length_map _

theorem generateAllCombinations_eq :
    generator.generateAllCombinations = expand ∅ (generator.ranges.map moves) := by
  rw [generateAllCombinations, expand, List.foldl_map]
  congr
  funext result range
  congr
  funext base
  rw [moves, List.map_map]
  rfl

theorem combinationLoop_eq (ranges : List (String × ParameterRange D)) (index : ℕ)
    (combination : Combination D) :
    combinationLoop ranges index combination = decode (ranges.map moves) index combination := by
  induction ranges generalizing index combination with
  | nil => rfl
  | cons range ranges ih =>
    rw [List.map_cons, combinationLoop, decode, length_moves, moves, List.getElem?_map]
    cases range.2.generateValues[index % range.2.generateValues.length]? with
    | none => rfl
    | some value => exact ih _ _

theorem size_moves : Grid.size (generator.ranges.map moves) = generator.product := by
  rw [Grid.size, product, List.map_map]
  congr 2
  funext range
  exact length_moves range

theorem length_generateAllCombinations :
    generator.generateAllCombinations.length = generator.product := by
  rw [generateAllCombinations_eq, Grid.length_expand, size_moves]

/-- Choices of different parameters commute. -/
theorem commuting_moves (h : generator.Distinct) :
    Grid.Commuting (generator.ranges.map moves) := by
  rw [Grid.Commuting, List.pairwise_map]
  refine (List.pairwise_map.mp h).imp fun hne => ?_
  rintro u hu w hw combination
  obtain ⟨value, -, rfl⟩ := List.mem_map.mp hu
  obtain ⟨value', -, rfl⟩ := List.mem_map.mp hw
  exact SortedMap.update_comm_of_ne hne.symm

theorem countLoop_eq {ranges : List (String × ParameterRange D)}
    (hyields : ∀ range ∈ ranges, range.2.generateValues ≠ []) {count : ℕ}
    (hfits : count * (ranges.map fun range => range.2.generateValues.length).prod < sizeLimit) :
    ranges.foldl (fun count range => count * range.2.generateValues.length % sizeLimit) count =
      count * (ranges.map fun range => range.2.generateValues.length).prod := by
  induction ranges generalizing count with
  | nil => exact (Nat.mul_one count).symm
  | cons range ranges ih =>
    have hrest := fun range' hmem => hyields range' (List.mem_cons_of_mem range hmem)
    have hpos : 0 < (ranges.map fun range => range.2.generateValues.length).prod := by
      apply List.prod_pos
      intro n hn
      obtain ⟨range', hmem, rfl⟩ := List.mem_map.mp hn
      exact List.length_pos_iff.mpr (hrest range' hmem)
    rw [List.map_cons, List.prod_cons, ← Nat.mul_assoc] at hfits ⊢
    have hlt := (Nat.le_mul_of_pos_right _ hpos).trans_lt hfits
    rw [List.foldl_cons, Nat.mod_eq_of_lt hlt]
    exact ih hrest hfits

/-- While the product fits, the count does not wrap. -/
theorem combinationCount_eq (hyields : generator.Yields) (hfits : generator.product < sizeLimit) :
    generator.combinationCount = generator.product := by
  rw [product, ← Nat.one_mul (List.prod _)] at hfits ⊢
  exact countLoop_eq hyields hfits

theorem decodes (hdistinct : generator.Distinct) (hyields : generator.Yields)
    (hfits : generator.product < sizeLimit) : generator.Decodes := by
  intro index hindex
  rw [combinationCount_eq hyields hfits] at hindex
  refine ⟨?_, length_generateAllCombinations ▸ hindex⟩
  rw [combinationAt, combinationLoop_eq, List.map_reverse, generateAllCombinations_eq]
  refine Grid.decode_reverse (commuting_moves hdistinct) ?_ (size_moves ▸ hindex)
  intro axis haxis
  obtain ⟨range, hrange, rfl⟩ := List.mem_map.mp haxis
  exact fun hnil => hyields range hrange (List.map_eq_nil_iff.mp hnil)

end ParameterGenerator

/-! ## The stream -/

/-- Reading a list index by index. -/
theorem mapM_range' {α : Type} {entry : ℕ → Option α} {l : List α}
    (hentry : ∀ i < l.length, entry i = l[i]?) {first n : ℕ} (hn : first + n ≤ l.length) :
    (List.range' first n).mapM entry = some ((l.drop first).take n) := by
  induction n generalizing first with
  | zero => rfl
  | succ n ih =>
    have hfirst : first < l.length := by omega
    rw [List.range'_succ, List.mapM_cons, hentry first hfirst, ih (by omega),
      List.getElem?_eq_getElem hfirst, List.drop_eq_getElem_cons hfirst]
    rfl

namespace SweepChunkSource

variable {D : Type} {source : SweepChunkSource D} {first : ℕ}

/-- The payload of every combination. -/
def payloads (source : SweepChunkSource D) : List KeyedPayload :=
  source.generator.generateAllCombinations.mapIdx source.strategyFactory

/-- The total is the count of a grid that is decoded as it would be expanded. -/
structure Ready (source : SweepChunkSource D) : Prop where
  decodes : source.generator.Decodes
  total : source.total = source.generator.combinationCount
  length : source.payloads.length = source.total

theorem Ready.chunk_eq (h : source.Ready) (first : ℕ) :
    source.buildStrategyChunk first (source.stop first) =
      some ((source.payloads.drop first).take (source.stop first - first)) := by
  have hstop : source.stop first ≤ source.payloads.length := h.length ▸ min_le_right _ _
  by_cases hlt : first ≤ source.stop first
  · refine mapM_range' (fun i hi => ?_) (by omega)
    rw [h.length, h.total] at hi
    rw [(h.decodes i hi).1, payloads, List.getElem?_mapIdx]
  · have hzero : source.stop first - first = 0 := by omega
    rw [buildStrategyChunk, hzero]
    rfl

theorem Ready.chunks_succ (h : source.Ready) (calls first : ℕ) :
    source.chunks (calls + 1) first =
      if (source.payloads.drop first).take (source.stop first - first) = [] then some []
      else (((source.payloads.drop first).take (source.stop first - first)) :: ·) <$>
        source.chunks calls (source.stop first) := by
  rw [chunks, next, h.chunk_eq]
  rfl

/-- The largest number of combinations that no index passes while it is counted up. -/
def streamLimit : ℕ := kChunkSize * (sizeLimit / kChunkSize)

theorem stop_of_le (hfirst : first + kChunkSize ≤ streamLimit) :
    source.stop first = min (first + kChunkSize) source.total := by
  rw [stop, Nat.mod_eq_of_lt (hfirst.trans_lt (by decide))]

/-- While the indices fit, the chunks are those of what is left. -/
theorem Ready.covers_from (h : source.Ready) (hfits : source.total ≤ streamLimit) (first : ℕ)
    (hfirst : first = source.total ∨ kChunkSize ∣ first ∧ first ≤ source.total) :
    ∃ calls chunks, source.chunks calls first = some chunks ∧
      chunks.flatten = source.payloads.drop first := by
  by_cases hend : first = source.total
  · refine ⟨1, [], ?_, ?_⟩
    · rw [h.chunks_succ, if_pos]
      rw [List.drop_of_length_le (by rw [h.length, hend]), List.take_nil]
    · rw [List.drop_of_length_le (by rw [h.length, hend])]
      rfl
  · obtain ⟨hdvd, hle⟩ := hfirst.resolve_left hend
    have hroom : first + kChunkSize ≤ streamLimit := by
      obtain ⟨k, hk⟩ := hdvd
      simp only [streamLimit, kChunkSize, sizeLimit] at hfits hk ⊢
      omega
    have hstop : source.stop first = min (first + kChunkSize) source.total := stop_of_le hroom
    have hnext : source.stop first = source.total ∨
        kChunkSize ∣ source.stop first ∧ source.stop first ≤ source.total := by
      rw [hstop]
      obtain hlast | hmore := le_total source.total (first + kChunkSize)
      · exact .inl (min_eq_right hlast)
      · rw [min_eq_left hmore]
        exact .inr ⟨Nat.dvd_add hdvd (Nat.dvd_refl _), hmore⟩
    have hlt : first < source.stop first := by
      rw [hstop, kChunkSize]
      omega
    obtain ⟨calls, chunks, hchunks, hflatten⟩ := h.covers_from hfits (source.stop first) hnext
    refine ⟨calls + 1, ((source.payloads.drop first).take (source.stop first - first)) :: chunks,
      ?_, ?_⟩
    · rw [h.chunks_succ, if_neg, hchunks]
      · rfl
      · rw [← List.length_eq_zero_iff, List.length_take, List.length_drop, h.length]
        omega
    · have hdrop : source.payloads.drop (source.stop first) =
          (source.payloads.drop first).drop (source.stop first - first) := by
        rw [List.drop_drop, Nat.add_sub_of_le hlt.le]
      rw [List.flatten_cons, hflatten, hdrop, List.take_append_drop]
termination_by source.total - first
decreasing_by
  have hle : source.stop first ≤ source.total := min_le_right _ _
  omega

/-- A total past the limit is not reached: the index after the limit wraps, and the chunk there
is empty. -/
theorem Ready.length_flatten_le (h : source.Ready) (hover : streamLimit < source.total)
    (calls first : ℕ) (hdvd : kChunkSize ∣ first) (hle : first ≤ streamLimit)
    {chunks : List (List KeyedPayload)} (hchunks : source.chunks calls first = some chunks) :
    chunks.flatten.length ≤ streamLimit - first := by
  induction calls generalizing first chunks with
  | zero => cases hchunks
  | succ calls ih =>
    rw [h.chunks_succ] at hchunks
    split_ifs at hchunks with hempty
    · cases hchunks
      exact Nat.zero_le _
    · obtain ⟨rest, hrest, rfl⟩ := Option.map_eq_some_iff.mp hchunks
      have hroom : first + kChunkSize ≤ streamLimit := by
        by_contra hlast
        have hfirst : first = streamLimit := by
          obtain ⟨k, hk⟩ := hdvd
          simp only [streamLimit, kChunkSize, sizeLimit] at hle hlast hk ⊢
          omega
        have hstop : source.stop first ≤ first := by
          rw [hfirst]
          exact (min_le_left _ _).trans (by decide)
        rw [Nat.sub_eq_zero_of_le hstop, List.take_zero] at hempty
        exact hempty rfl
      have hstop : source.stop first = first + kChunkSize := by
        rw [stop_of_le hroom, min_eq_left]
        omega
      have hdvd' : kChunkSize ∣ source.stop first := hstop ▸ Nat.dvd_add hdvd (Nat.dvd_refl _)
      have hlength := ih (source.stop first) hdvd' (hstop ▸ hroom) hrest
      rw [List.flatten_cons, List.length_append, List.length_take]
      omega

theorem Ready.covers_iff (h : source.Ready) : source.Covers ↔ source.total ≤ streamLimit := by
  constructor
  · rintro ⟨calls, chunks, hchunks, hflatten⟩
    by_contra hover
    have hlength := h.length_flatten_le (not_le.mp hover) calls 0 (Nat.dvd_zero _) (Nat.zero_le _)
      hchunks
    rw [hflatten] at hlength
    have htotal : source.payloads.length ≤ streamLimit - 0 := hlength
    rw [h.length] at htotal
    omega
  · intro hfits
    exact h.covers_from hfits 0 (.inr ⟨Nat.dvd_zero _, Nat.zero_le _⟩)

end SweepChunkSource

section Grid

variable {D : Type} {generator : ParameterGenerator D}

theorem ready_of_fits (hdistinct : generator.Distinct) (hyields : generator.Yields)
    (hfits : generator.product < sizeLimit) (strategyFactory : ℕ → Combination D → KeyedPayload) :
    (⟨generator, strategyFactory, generator.combinationCount⟩ : SweepChunkSource D).Ready where
  decodes := ParameterGenerator.decodes hdistinct hyields hfits
  total := rfl
  length := by
    rw [SweepChunkSource.payloads, List.length_mapIdx,
      ParameterGenerator.length_generateAllCombinations,
      ParameterGenerator.combinationCount_eq hyields hfits]

variable (generator) in
/-- A grid that is decoded combination by combination is the one that would be expanded, and the
chunks of a load are that grid exactly while no index passes the last of its chunks. -/
theorem lazy_grid_iff (hdistinct : generator.Distinct) (hyields : generator.Yields)
    (hfits : generator.product < sizeLimit) (strategyFactory : ℕ → Combination D → KeyedPayload) :
    generator.Decodes ∧
        (⟨generator, strategyFactory, generator.combinationCount⟩ : SweepChunkSource D).Covers ↔
      generator.product ≤ SweepChunkSource.streamLimit := by
  rw [(ready_of_fits hdistinct hyields hfits strategyFactory).covers_iff,
    ParameterGenerator.combinationCount_eq hyields hfits]
  exact and_iff_right (ParameterGenerator.decodes hdistinct hyields hfits)

end Grid

/-! ## Two grids -/

def ohlcGrid : ParameterGenerator ℤ where
  ranges := [("stop", explicitRange [80, 100]), ("limit", explicitRange [1, 2, 4]),
    ("bars", exponentialRange 10 2 2)]

def namedPayload (call : ℕ) (_ : Combination ℤ) : KeyedPayload := ⟨"S" ++ toString call, "{}"⟩

/-- Twelve combinations are decoded in order. -/
theorem lazy_grid_ohlc : ohlcGrid.product = 12 ∧ ohlcGrid.Decodes ∧
    (⟨ohlcGrid, namedPayload, ohlcGrid.combinationCount⟩ : SweepChunkSource ℤ).Covers := by
  obtain ⟨hdecodes, hcovers⟩ := (lazy_grid_iff ohlcGrid (by decide) (by decide) (by decide)
    namedPayload).mpr (by decide)
  exact ⟨rfl, hdecodes, hcovers⟩

/-- The numbers below a count for each parameter. -/
def countedGrid (counts : List (String × ℕ)) : ParameterGenerator ℤ where
  ranges := counts.map fun count =>
    (count.1, explicitRange ((List.range count.2).map Int.ofNat))

theorem distinct_countedGrid {counts : List (String × ℕ)} (h : (counts.map Prod.fst).Nodup) :
    (countedGrid counts).Distinct := by
  rw [ParameterGenerator.Distinct, countedGrid, List.map_map]
  exact h

theorem yields_countedGrid {counts : List (String × ℕ)} (h : ∀ count ∈ counts, count.2 ≠ 0) :
    (countedGrid counts).Yields := by
  intro range hrange hnil
  obtain ⟨count, hcount, rfl⟩ := List.mem_map.mp hrange
  apply h count hcount
  rw [← List.length_range (n := count.2), ← List.length_map Int.ofNat]
  exact List.length_eq_zero_iff.mpr hnil

theorem product_countedGrid (counts : List (String × ℕ)) :
    (countedGrid counts).product = (counts.map Prod.snd).prod := by
  rw [ParameterGenerator.product, countedGrid, List.map_map]
  congr 2
  funext count
  exact (List.length_map _).trans List.length_range

/-- A grid of twelve parameters with sixteen combinations less than there are indices. -/
def vastCounts : List (String × ℕ) :=
  [("a", 1321), ("b", 331), ("c", 151), ("d", 61), ("e", 41), ("f", 31), ("g", 13), ("h", 11),
    ("i", 7), ("j", 25), ("k", 9), ("l", 16)]

/-- The last combinations of the vast grid are never queued. -/
theorem vast_grid_not_covered : (countedGrid vastCounts).Distinct ∧
    (countedGrid vastCounts).Yields ∧ (countedGrid vastCounts).product < sizeLimit ∧
    ¬ (⟨countedGrid vastCounts, namedPayload,
      (countedGrid vastCounts).combinationCount⟩ : SweepChunkSource ℤ).Covers := by
  have hdistinct : (countedGrid vastCounts).Distinct := distinct_countedGrid (by decide)
  have hyields : (countedGrid vastCounts).Yields := yields_countedGrid (by decide)
  have hproduct : (countedGrid vastCounts).product = 18446744073709551600 :=
    product_countedGrid vastCounts
  have hfits : (countedGrid vastCounts).product < sizeLimit := by
    rw [hproduct]
    decide
  refine ⟨hdistinct, hyields, hfits, ?_⟩
  rw [(ready_of_fits hdistinct hyields hfits namedPayload).covers_iff,
    ParameterGenerator.combinationCount_eq hyields hfits, hproduct]
  decide

end Sweep

end BacktestEngine

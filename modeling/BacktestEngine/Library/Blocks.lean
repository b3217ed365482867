import BacktestEngine.Library.BoundedTail
import Mathlib.Data.List.Chain

/-! # Streams cut into blocks

A scan keeps a summary for each block of a stream. An element is taken in by the summary of
the last block, or closes that one and opens the next.
-/

structure BlockScan (α σ : Type*) where
  opened : α → σ
  absorb : σ → α → σ
  close : σ → σ
  /-- Whether an element no longer belongs to an open block. -/
  rolls : σ → α → Bool

namespace BlockScan

variable {α σ : Type*} (scan : BlockScan α σ)

/-- What an element makes of the last summary. -/
def step (x : α) : Option σ → List σ
  | none => [scan.opened x]
  | some last =>
    if scan.rolls last x then [scan.close last, scan.opened x] else [scan.absorb last x]

def run (xs : List α) : List σ :=
  xs.foldl (fun out x => BoundedTail.advance (scan.step x) out) []

/-- The summary of a block that is still open. -/
inductive Builds : σ → List α → Prop
  | single (x : α) : Builds (scan.opened x) [x]
  | snoc {s : σ} {block : List α} {x : α} (h : Builds s block) (hstays : scan.rolls s x = false) :
    Builds (scan.absorb s x) (block ++ [x])

/-- A stream cut into blocks. Each stands with the summary it had before it was closed. -/
structure Cut (xs : List α) (out : List σ) (blocks : List (σ × List α)) : Prop where
  flatten : (blocks.map Prod.snd).flatten = xs
  builds : ∀ block ∈ blocks, scan.Builds block.1 block.2
  rolls : blocks.IsChain fun a b => ∀ x ∈ b.2.head?, scan.rolls a.1 x = true
  summaries : out = (blocks.dropLast.map fun block => scan.close block.1) ++
    (blocks.getLast?.map Prod.fst).toList

variable {scan} {xs : List α} {out : List σ} {blocks : List (σ × List α)} {s : σ} {block : List α}

theorem step_ne_nil (x : α) (last : Option σ) : scan.step x last ≠ [] := by
  cases last with
  | none => exact List.cons_ne_nil _ _
  | some last =>
    unfold step
    dsimp only
    split_ifs <;> exact List.cons_ne_nil _ _

theorem run_concat (xs : List α) (x : α) :
    scan.run (xs ++ [x]) = BoundedTail.advance (scan.step x) (scan.run xs) := by
  rw [run, run, List.foldl_concat]

theorem Builds.ne_nil (h : scan.Builds s block) : block ≠ [] := by
  cases h with
  | single x => exact List.cons_ne_nil _ _
  | snoc h hstays => exact List.append_ne_nil_of_right_ne_nil _ (List.cons_ne_nil _ _)

theorem Cut.nil : scan.Cut [] [] [] :=
  ⟨rfl, fun _ h => absurd h List.not_mem_nil, .nil, rfl⟩

/-- An element goes into the last block, or closes it and begins another. -/
theorem Cut.snoc (h : scan.Cut xs out blocks) (x : α) :
    ∃ blocks', scan.Cut (xs ++ [x]) (BoundedTail.advance (scan.step x) out) blocks' := by
  obtain ⟨hflatten, hbuilds, hrolls, hout⟩ := h
  induction blocks using List.reverseRecOn with
  | nil =>
    obtain rfl : [] = xs := hflatten
    obtain rfl : out = [] := hout
    refine ⟨[(scan.opened x, [x])], rfl, ?_, .singleton _, rfl⟩
    rintro block hblock
    rw [List.mem_singleton.mp hblock]
    exact .single x
  | append_singleton blocks last =>
    simp only [List.dropLast_concat, List.getLast?_concat, Option.map_some,
      Option.toList_some] at hout
    obtain ⟨s, block⟩ := last
    have hlast := hbuilds _ (List.mem_append_right blocks List.mem_cons_self)
    subst hout
    rw [BoundedTail.advance, List.dropLast_concat, List.getLast?_concat, step]
    by_cases hroll : scan.rolls s x = true
    · refine ⟨blocks ++ [(s, block)] ++ [(scan.opened x, [x])], ?_, ?_, ?_, ?_⟩
      · rw [List.map_append, List.flatten_append, hflatten]
        rfl
      · intro other hother
        obtain hother | hother := List.mem_append.mp hother
        · exact hbuilds other hother
        · rw [List.mem_singleton.mp hother]
          exact .single x
      · refine hrolls.append (.singleton _) ?_
        simpa using hroll
      · simp [hroll]
    · rw [Bool.not_eq_true] at hroll
      refine ⟨blocks ++ [(scan.absorb s x, block ++ [x])], ?_, ?_, ?_, ?_⟩
      · rw [← hflatten]
        simp
      · intro other hother
        obtain hother | hother := List.mem_append.mp hother
        · exact hbuilds other (List.mem_append_left _ hother)
        · rw [List.mem_singleton.mp hother]
          exact hlast.snoc hroll
      · rw [List.isChain_append] at hrolls ⊢
        refine ⟨hrolls.1, .singleton _, ?_⟩
        simpa [List.head?_append_of_ne_nil _ hlast.ne_nil] using hrolls.2.2
      · simp [hroll]

/-- Every stream is cut into blocks by its run. -/
theorem exists_cut (scan : BlockScan α σ) (xs : List α) :
    ∃ blocks, scan.Cut xs (scan.run xs) blocks := by
  induction xs using List.reverseRecOn with
  | nil => exact ⟨[], .nil⟩
  | append_singleton xs x ih =>
    obtain ⟨blocks, hcut⟩ := ih
    rw [run_concat]
    exact hcut.snoc x

/-- The summaries kept to a depth at every element are the last ones of the run. -/
theorem foldl_trim (depth : ℕ) (xs : List α) :
    xs.foldl (fun out x => BoundedTail.trim depth (BoundedTail.advance (scan.step x) out)) [] =
      (scan.run xs).rtake depth := by
  induction xs using List.reverseRecOn with
  | nil => simp [run]
  | append_singleton xs x ih =>
    rw [List.foldl_concat, ih, run_concat]
    cases depth with
    | zero => simp [BoundedTail.trim_eq]
    | succ depth => exact BoundedTail.trim_advance (step_ne_nil x) depth.succ_pos

end BlockScan

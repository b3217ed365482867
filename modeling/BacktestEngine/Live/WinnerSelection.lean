import BacktestEngine.Live.Winners

/-! # Which winners are picked

The walk of a group is a greedy selection: a candidate conflicts with one picked before it that
it is a clone of or not diverse from.
-/

namespace BacktestEngine

namespace Live.Winners

open Greedy

/-- Two candidates that may both be picked. -/
structure Apart (a b : Winner) : Prop where
  distinct : sameResults a b = false
  diverse : isDiverse a b = true

/-- A candidate is not picked behind one that it is a clone of, or not diverse from. -/
def Conflicts (a b : Winner) : Prop := sameResults a b = true ∨ isDiverse a b = false

instance : DecidableRel Conflicts := fun _ _ => inferInstanceAs (Decidable (_ ∨ _))

variable {topPerGroup : ℕ} {a b : Winner}

theorem conflicts_self (a : Winner) : Conflicts a a := .inl (decide_eq_true ⟨rfl, rfl, rfl⟩)

theorem apart_of_not_conflicts (h : ¬ Conflicts a b) : Apart a b := by
  obtain ⟨hclone, hdiverse⟩ := not_or.mp h
  exact ⟨eq_false_of_ne_true hclone, eq_true_of_ne_false hdiverse⟩

/-! ## Both ways round -/

theorem sameResults_comm (a b : Winner) : sameResults a b = sameResults b a := by
  unfold sameResults
  rw [decide_eq_decide]
  exact and_congr eq_comm (and_congr eq_comm eq_comm)

theorem ohlcDiffers_comm (x y : List TradingDefinitions.OHLCVariables) :
    ohlcDiffers x y = ohlcDiffers y x := by
  unfold ohlcDiffers
  rw [bne_comm (a := x.length), List.zipWith_comm_of_comm]
  intro a b
  rw [bne_comm (a := a.ohlcMinutes), abs_sub_comm]

theorem rangeDiffers_comm (x y : List TradingDefinitions.RangeBarVariables) :
    rangeDiffers x y = rangeDiffers y x := by
  unfold rangeDiffers
  rw [bne_comm (a := x.length), List.zipWith_comm_of_comm]
  intro a b
  rw [bne_comm (a := a.rangeAtrTickWindow), bne_comm (a := a.rangeAtrPercent)]

theorem legacyConfigDiverse_comm (a b : Winner) :
    legacyConfigDiverse a b = legacyConfigDiverse b a := by
  unfold legacyConfigDiverse
  rw [ohlcDiffers_comm, rangeDiffers_comm]
  grind

theorem tradesClose_comm (a b : Winner) : tradesClose a b = tradesClose b a := by
  have hdelta : (if b.tradesClosed ≤ a.tradesClosed then a.tradesClosed - b.tradesClosed
      else b.tradesClosed - a.tradesClosed) = if a.tradesClosed ≤ b.tradesClosed then
        b.tradesClosed - a.tradesClosed else a.tradesClosed - b.tradesClosed := by
    split_ifs <;> omega
  unfold tradesClose
  rw [hdelta, max_comm a.tradesClosed]

theorem pnlClose_comm (a b : Winner) : pnlClose a b = pnlClose b a := by
  unfold pnlClose
  rw [abs_sub_comm, max_comm |a.finalPnl|]

theorem directionClose_comm (a b : Winner) : directionClose a b = directionClose b a := by
  unfold directionClose
  dsimp only
  rw [abs_sub_comm]
  grind

theorem isDiverse_comm (a b : Winner) : isDiverse a b = isDiverse b a := by
  unfold isDiverse
  rw [legacyConfigDiverse_comm, tradesClose_comm, pnlClose_comm, directionClose_comm]
  exact if_congr or_comm rfl rfl

theorem Apart.symm (h : Apart a b) : Apart b a :=
  ⟨sameResults_comm a b ▸ h.distinct, isDiverse_comm a b ▸ h.diverse⟩

/-! ## One group -/

/-- The walk of the source is the greedy walk. -/
theorem pickFrom_eq (picked candidates : List Winner) : pickFrom topPerGroup picked candidates =
    candidates.foldl (take Conflicts topPerGroup) picked := by
  induction candidates generalizing picked with
  | nil => rfl
  | cons candidate rest ih =>
    rw [pickFrom, List.foldl_cons, take]
    by_cases hfull : picked.length = topPerGroup
    · rw [if_pos hfull, if_pos (.inl hfull), foldl_full hfull]
    · have hskip : ((picked.any fun p => sameResults candidate p) ||
          !(picked.all fun p => isDiverse candidate p)) = true ↔
          Settled Conflicts topPerGroup picked candidate := by
        unfold Settled Conflicts
        simp only [Bool.or_eq_true, Bool.not_eq_true', List.any_eq_true, List.all_eq_false,
          Bool.not_eq_true]
        constructor
        · rintro (⟨p, hp, hclone⟩ | ⟨p, hp, hnear⟩)
          · exact .inr ⟨p, hp, .inl hclone⟩
          · exact .inr ⟨p, hp, .inr hnear⟩
        · rintro (h | ⟨p, hp, hclone | hnear⟩)
          · exact absurd h hfull
          · exact .inl ⟨p, hp, hclone⟩
          · exact .inr ⟨p, hp, hnear⟩
      rw [if_neg hfull]
      dsimp only
      by_cases hsettled : Settled Conflicts topPerGroup picked candidate
      · rw [if_pos (hskip.mpr hsettled), if_pos hsettled, ih]
      · rw [if_neg (hskip.not.mpr hsettled), if_neg hsettled, ih]

theorem pickGroup_eq (candidates : List Winner) : pickGroup topPerGroup candidates =
    select Conflicts topPerGroup (ranked Winner.performanceScore candidates) :=
  pickFrom_eq [] _

/-- What is picked from the candidates of a group. -/
structure Selected (topPerGroup : ℕ) (candidates picked : List Winner) : Prop where
  few : picked.length ≤ topPerGroup
  ranked : picked.Sublist (ranked Winner.performanceScore candidates)
  ordered : picked.Pairwise fun a b => b.performanceScore ≤ a.performanceScore
  apart : picked.Pairwise fun a b => Apart a b ∧ Apart b a
  best : 0 < topPerGroup → picked.head? = candidates.find? fun a =>
    candidates.all fun b => decide (b.performanceScore ≤ a.performanceScore)
  complete : ∀ before candidate after,
    Greedy.ranked Winner.performanceScore candidates = before ++ candidate :: after →
      (∃ earlier later, picked = earlier ++ candidate :: later ∧ earlier.Sublist before ∧
        later.Sublist after) ∨
      (∃ p ∈ before, p ∈ picked ∧
        (sameResults candidate p = true ∨ isDiverse candidate p = false)) ∨
      (picked.length = topPerGroup ∧ picked.Sublist before)

theorem selected_pickGroup (topPerGroup : ℕ) (candidates : List Winner) :
    Selected topPerGroup candidates (pickGroup topPerGroup candidates) := by
  rw [pickGroup_eq]
  refine ⟨length_select_le _, select_sublist _, ?_, ?_, ?_, ?_⟩
  · exact (pairwise_ranked candidates).sublist (select_sublist _)
  · refine (pairwise_select _).imp fun {a b} hconflict => ?_
    have hapart := apart_of_not_conflicts hconflict
    exact ⟨hapart.symm, hapart⟩
  · intro htop
    rw [head?_select htop, head?_ranked]
  · intro before candidate after hsplit
    rw [hsplit]
    obtain ⟨later, htaken, hlater⟩ | ⟨p, hp, hconflict⟩ | ⟨hsame, hfull⟩ :=
      select_split Conflicts topPerGroup before candidate after
    · exact .inl ⟨_, later, htaken, select_sublist before, hlater⟩
    · refine .inr (.inl ⟨p, (select_sublist before).mem hp, ?_, hconflict⟩)
      exact (prefix_select before _).mem hp
    · rw [hsame]
      exact .inr (.inr ⟨hfull, select_sublist before⟩)

/-! ## All groups -/

variable {groups : GroupMap} {key : String ×ₗ String} {activeStrategies : List String}

theorem pickGroup_nil : pickGroup topPerGroup [] = [] := by
  unfold pickGroup ranked
  rw [List.mergeSort_nil, pickFrom]

theorem mem_pickGroup {candidates : List Winner} (h : a ∈ pickGroup topPerGroup candidates) :
    a ∈ candidates :=
  (mem_ranked _).mp ((selected_pickGroup topPerGroup candidates).ranked.mem h)

theorem key_of_mem {entry : (String ×ₗ String) × List Winner}
    (hentry : entry ∈ groups.groups.entries) (h : a ∈ pickGroup topPerGroup entry.2) :
    a.key = entry.1 :=
  groups.keyed _ _ (SortedMap.get?_eq_some_iff.mpr hentry) a (mem_pickGroup h)

/-- The winners of a group are what is picked from its candidates. -/
theorem filter_pickWinners (groups : GroupMap) (topPerGroup : ℕ) (key : String ×ₗ String) :
    ((pickWinners groups topPerGroup).filter fun w => w.key = key) =
      pickGroup topPerGroup (groups.candidates key) := by
  have hentries : ((pickWinners groups topPerGroup).filter fun w => w.key = key) =
      groups.groups.entries.flatMap fun entry =>
        if entry.1 = key then pickGroup topPerGroup entry.2 else [] := by
    rw [pickWinners, List.filter_flatMap]
    apply List.flatMap_congr
    intro entry hentry
    split_ifs with hkey
    · apply List.filter_eq_self.mpr
      exact fun w hw => decide_eq_true ((key_of_mem hentry hw).trans hkey)
    · apply List.filter_eq_nil_iff.mpr
      intro w hw
      rw [decide_eq_true_eq, key_of_mem hentry hw]
      exact hkey
  rw [hentries, SortedMap.flatMap_entries, GroupMap.candidates]
  cases groups.groups.get? key with
  | none => exact pickGroup_nil.symm
  | some candidates => rfl

theorem pairwise_pickWinners (groups : GroupMap) (topPerGroup : ℕ) :
    (pickWinners groups topPerGroup).Pairwise fun a b => a.key ≤ b.key := by
  rw [pickWinners, List.pairwise_flatMap]
  constructor
  · intro entry hentry
    apply List.pairwise_of_forall_mem_list
    intro a ha b hb
    rw [key_of_mem hentry ha, key_of_mem hentry hb]
  · refine groups.groups.sorted.imp_of_mem fun {e e'} he he' hlt => ?_
    intro a ha b hb
    rw [key_of_mem he ha, key_of_mem he' hb]
    exact hlt.le

theorem pickGroup_copies {candidates copied : List Winner} (h : Copies candidates copied) :
    pickGroup topPerGroup copied = pickGroup topPerGroup candidates := by
  rw [pickGroup_eq, pickGroup_eq]
  exact h.select_ranked conflicts_self

/-- Copies of candidates behind them change nothing. -/
theorem pickWinners_copies {copied : GroupMap}
    (h : ∀ key, Copies (groups.candidates key) (copied.candidates key)) :
    pickWinners copied topPerGroup = pickWinners groups topPerGroup := by
  apply eq_of_classes (pairwise_pickWinners copied _) (pairwise_pickWinners groups _)
  intro key
  rw [filter_pickWinners, filter_pickWinners, pickGroup_copies (h key)]

/-- In every group the winners are picked greedily from the best candidate on, the output is ordered
by symbol and then by strategy, and copies of candidates behind them change nothing. -/
theorem pickWinners_greedy (groups : GroupMap) (topPerGroup : ℕ) :
    (∀ key, Selected topPerGroup (groups.candidates key)
      ((pickWinners groups topPerGroup).filter fun w => w.key = key)) ∧
    (pickWinners groups topPerGroup).Pairwise (fun a b => a.key ≤ b.key) ∧
    ∀ copied : GroupMap, (∀ key, Copies (groups.candidates key) (copied.candidates key)) →
      pickWinners copied topPerGroup = pickWinners groups topPerGroup := by
  refine ⟨?_, pairwise_pickWinners groups topPerGroup, fun copied h => pickWinners_copies h⟩
  intro key
  rw [filter_pickWinners]
  exact selected_pickGroup topPerGroup _

/-! ## A document that several queries return -/

theorem candidates_push (w : Winner) : (groups.push w).candidates key =
    groups.candidates key ++ if w.key = key then [w] else [] := by
  unfold GroupMap.candidates GroupMap.push
  by_cases hkey : w.key = key
  · rw [if_pos hkey, ← hkey, SortedMap.get?_update_self, Option.getD_some]
  · rw [if_neg hkey, SortedMap.get?_update_of_ne (Ne.symm hkey), List.append_nil]

/-- A group holds what was pushed under its key, in that order. -/
theorem candidates_foldl (stream : List Winner) :
    (stream.foldl GroupMap.push groups).candidates key =
      groups.candidates key ++ stream.filter fun w => w.key = key := by
  induction stream generalizing groups with
  | nil => exact (List.append_nil _).symm
  | cons w stream ih =>
    rw [List.foldl_cons, ih, candidates_push, List.append_assoc]
    by_cases hkey : w.key = key
    · rw [if_pos hkey, List.filter_cons_of_pos (by simpa using hkey)]
      rfl
    · rw [if_neg hkey, List.filter_cons_of_neg (by simpa using hkey)]
      rfl

/-- The hits of a response, none where it has no shape of one. -/
def hitsOf (response : JsonValue) : List JsonValue := (findHitsArray response).getD []

theorem collectCandidates_eq (response : JsonValue) (activeStrategies : List String)
    (groups : GroupMap) : collectCandidates response activeStrategies groups =
      ((hitsOf response).flatMap (hitCandidates activeStrategies)).foldl GroupMap.push groups := by
  unfold collectCandidates hitsOf
  rw [List.foldl_flatMap]
  cases findHitsArray response <;> rfl

theorem fetchGroups_eq (activeStrategies : List String) (responses : List JsonValue) :
    fetchGroups activeStrategies responses =
      ((responses.flatMap hitsOf).flatMap (hitCandidates activeStrategies)).foldl
        GroupMap.push GroupMap.empty := by
  rw [fetchGroups, List.foldl_flatMap, List.foldl_flatMap]
  congr 1
  funext groups response
  rw [collectCandidates_eq, List.foldl_flatMap]

/-- Hits that come again in a later response change no winner. -/
theorem fetched_again {responses refetched : List JsonValue}
    (h : Copies (responses.flatMap hitsOf) (refetched.flatMap hitsOf)) :
    pickWinners (fetchGroups activeStrategies refetched) topPerGroup =
      pickWinners (fetchGroups activeStrategies responses) topPerGroup := by
  apply pickWinners_copies
  intro key
  rw [fetchGroups_eq, fetchGroups_eq, candidates_foldl, candidates_foldl]
  exact (h.flatMap _).filter _

end Live.Winners

end BacktestEngine

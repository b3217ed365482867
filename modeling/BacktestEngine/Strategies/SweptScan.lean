import BacktestEngine.Strategies.SweptLevels

/-! # The scan of the swept levels

The scan of the last closed bars finds the newest rejection on each side, so a decision is
that of the rule over all closed bars. Only the depth of a sweep is computed in 32 bits.
-/

namespace BacktestEngine

open RangeBar (toInt32 toInt32_of_small)

namespace SweepRule

open LiquiditySweepReversalStrategy (Setup keepNewest)

variable {rule : SweepRule} {extreme : Extreme} {bars : List OhlcObject} {i j : ℕ}

/-- No two highs and no two lows are further apart than 32 bits. -/
def Near (bars : List OhlcObject) : Prop :=
  ∀ a ∈ bars, ∀ b ∈ bars, ∀ extreme : Extreme, extreme.price a - extreme.price b < 2 ^ 31

/-- Prices that are 32-bit numbers and not negative are near. -/
theorem near_of_nonneg (h : ∀ bar ∈ bars, 0 ≤ bar.high ∧ bar.high < 2 ^ 31 ∧ 0 ≤ bar.low ∧
    bar.low < 2 ^ 31) : Near bars := by
  intro a ha b hb extreme
  obtain ⟨-, hhigh, -, hlow⟩ := h a ha
  obtain ⟨hhigh', -, hlow', -⟩ := h b hb
  cases extreme with
  | high => exact (sub_le_self a.high hhigh').trans_lt hhigh
  | low => exact (sub_le_self a.low hlow').trans_lt hlow

/-- How far a touch goes beyond its level is a 32-bit number. -/
theorem Near.depth_range (h : Near bars) (hi : i < bars.length) (hj : j < bars.length)
    (hbeyond : extreme.Beyond (level extreme bars j) (level extreme bars i)) :
    0 < extreme.depth (level extreme bars j) (level extreme bars i) ∧
      extreme.depth (level extreme bars j) (level extreme bars i) < 2 ^ 31 := by
  have hup := h _ (barAt_mem hj) _ (barAt_mem hi) extreme
  have hdown := h _ (barAt_mem hi) _ (barAt_mem hj) extreme
  cases extreme with
  | high => exact ⟨sub_pos.mpr hbeyond, hup⟩
  | low => exact ⟨sub_pos.mpr hbeyond, hdown⟩

theorem firstTouch_iff (hi : i < bars.length) : FirstTouch extreme bars i j ↔ j < bars.length ∧
    j = i + 1 + (bars.drop (i + 1)).findIdx fun bar =>
      extreme.Beyond (extreme.price bar) (level extreme bars i) := by
  have hlength : (bars.drop (i + 1)).length = bars.length - (i + 1) := List.length_drop
  have hat (k : ℕ) (hk : k < (bars.drop (i + 1)).length) :
      extreme.price (bars.drop (i + 1))[k] = level extreme bars (i + 1 + k) := by
    rw [List.getElem_drop, level, barAt_eq]
  constructor
  · intro h
    have hlater := h.later
    have hclosed := h.closed
    have hk : j - (i + 1) < (bars.drop (i + 1)).length := by omega
    have hindex : (bars.drop (i + 1)).findIdx (fun bar =>
        extreme.Beyond (extreme.price bar) (level extreme bars i)) = j - (i + 1) := by
      rw [List.findIdx_eq hk]
      constructor
      · rw [hat, decide_eq_true_iff, show i + 1 + (j - (i + 1)) = j by omega]
        exact h.beyond
      · intro k hbefore
        rw [hat, decide_eq_false_iff_not]
        exact h.first (i + 1 + k) (by omega) (by omega)
    exact ⟨hclosed, by omega⟩
  · rintro ⟨hclosed, rfl⟩
    have hfound : (bars.drop (i + 1)).findIdx (fun bar =>
        extreme.Beyond (extreme.price bar) (level extreme bars i)) <
        (bars.drop (i + 1)).length := by omega
    have hbeyond := List.findIdx_getElem (w := hfound)
    rw [hat, decide_eq_true_iff] at hbeyond
    refine ⟨by omega, hclosed, hbeyond, fun k hafter hbefore => ?_⟩
    have hearly : k - (i + 1) < (bars.drop (i + 1)).findIdx fun bar =>
        extreme.Beyond (extreme.price bar) (level extreme bars i) := by omega
    have hnot := List.not_of_lt_findIdx hearly
    rw [hat, decide_eq_false_iff_not, show i + 1 + (k - (i + 1)) = k by omega] at hnot
    exact hnot

/-! ## The newest of a list -/

theorem keepNewest_foldl (candidates : ℕ → Option Setup) (indices : List ℕ) :
    indices.foldl (fun best i => keepNewest best (candidates i)) none =
      (indices.filterMap candidates).argmax Setup.rejection := by
  rw [List.argmax, List.foldl_filterMap]
  congr 1
  funext best i
  cases candidates i with
  | none => rfl
  | some setup => cases best <;> rfl

theorem keepNewest_foldl_pair (short long : ℕ → Option Setup) (indices : List ℕ)
    (best : Option Setup × Option Setup) :
    indices.foldl (fun best i => (keepNewest best.1 (short i), keepNewest best.2 (long i))) best =
      (indices.foldl (fun best i => keepNewest best (short i)) best.1,
        indices.foldl (fun best i => keepNewest best (long i)) best.2) := by
  induction indices generalizing best with
  | nil => rfl
  | cons i indices ih => exact ih _

/-- In a list whose items stand in a reflexive relation to the later ones, the first of two
stands in it to the second. -/
theorem of_idxOf_le {α : Type} [DecidableEq α] {R : α → α → Prop} {l : List α} {a b : α}
    (h : l.Pairwise R) (hrefl : R a a) (ha : a ∈ l) (hb : b ∈ l)
    (hle : l.idxOf a ≤ l.idxOf b) : R a b := by
  obtain heq | hlt := hle.eq_or_lt
  · rwa [← (List.idxOf_inj ha).mp heq]
  · have ha' := List.idxOf_lt_length_iff.mpr ha
    have hb' := List.idxOf_lt_length_iff.mpr hb
    have hordered := List.pairwise_iff_getElem.mp h _ _ ha' hb' hlt
    rwa [List.getElem_idxOf, List.getElem_idxOf] at hordered

/-- What a scan found: the newest rejection, or nothing when there is none. -/
structure Best (rule : SweepRule) (extreme : Extreme) (bars : List OhlcObject)
    (best : Option Setup) : Prop where
  newest : ∀ setup, best = some setup → rule.Newest extreme bars setup
  none : best = none → ∀ i j, ¬ rule.Rejects extreme bars i j

/-- The candidates of the indices are the rejections, and the newest of them comes out. -/
theorem argmax_best {candidates : ℕ → Option Setup} {indices : List ℕ}
    (hsorted : indices.Pairwise (· < ·))
    (hmem : ∀ setup i, i ∈ indices ∧ candidates i = some setup ↔
      rule.Rejects extreme bars i setup.rejection ∧ setup.level = level extreme bars i) :
    rule.Best extreme bars ((indices.filterMap candidates).argmax Setup.rejection) := by
  have houter : (indices.filterMap candidates).Pairwise fun a b =>
      a.rejection = b.rejection → ¬ extreme.Beyond b.level a.level := by
    rw [List.pairwise_filterMap]
    refine hsorted.imp_of_mem fun {i i'} hi hi' hlt a ha b hb hsame => ?_
    obtain ⟨hrejects, hlevel⟩ := (hmem a i).mp ⟨hi, ha⟩
    obtain ⟨hrejects', hlevel'⟩ := (hmem b i').mp ⟨hi', hb⟩
    rw [hlevel, hlevel']
    rw [← hsame] at hrejects'
    exact hrejects.outer hrejects' hlt.le
  have hcandidate (i j : ℕ) (h : rule.Rejects extreme bars i j) :
      ⟨j, level extreme bars i⟩ ∈ indices.filterMap candidates :=
    List.mem_filterMap.mpr ⟨i, (hmem ⟨j, level extreme bars i⟩ i).mpr ⟨h, rfl⟩⟩
  constructor
  · intro setup h
    obtain ⟨hin, hlargest, hfirst⟩ := List.argmax_eq_some_iff.mp h
    obtain ⟨i, hi⟩ := List.mem_filterMap.mp hin
    refine ⟨⟨i, (hmem setup i).mp hi⟩, fun i' j' hrejects' => ?_⟩
    have hin' := hcandidate i' j' hrejects'
    obtain hlt | heq := (hlargest _ hin').lt_or_eq
    · exact .inl hlt
    · exact .inr ⟨heq, of_idxOf_le houter (fun _ => not_beyond_self extreme _) hin hin'
        (hfirst _ hin' heq.ge) heq.symm⟩
  · intro h i j hrejects
    have hin := hcandidate i j hrejects
    rw [List.argmax_eq_none.mp h] at hin
    exact List.not_mem_nil hin

/-- The rejections of a side are all older than a bar exactly when the newest one is. -/
theorem Best.forall_lt_iff {best : Option Setup} (h : rule.Best extreme bars best) {n : ℕ} :
    (∀ i j, rule.Rejects extreme bars i j → j < n) ↔ ∀ setup ∈ best, setup.rejection < n := by
  constructor
  · intro hall setup hsetup
    obtain ⟨i, hrejects, -⟩ := (h.newest setup hsetup).rejects
    exact hall i _ hrejects
  · intro hbest i j hrejects
    cases hcase : best with
    | none => exact (h.none hcase i j hrejects).elim
    | some setup =>
      have hlt := hbest setup hcase
      have hnewest := (h.newest setup hcase).newest i j hrejects
      omega

/-- The rule, from what the two scans found. -/
theorem enters_iff {tick : PriceData} {best other : Option Setup}
    (h : rule.Best extreme bars best) (hother : rule.Best extreme.opposite bars other) :
    rule.Enters extreme bars tick ↔ ∃ setup, best = some setup ∧
      (∀ against ∈ other, against.rejection < setup.rejection) ∧
      extreme.Beyond setup.level (extreme.entryPrice tick) := by
  constructor
  · rintro ⟨setup, hnewest, holder, hprice⟩
    refine ⟨setup, ?_, hother.forall_lt_iff.mp holder, hprice⟩
    cases hcase : best with
    | none =>
      obtain ⟨i, hrejects, -⟩ := hnewest.rejects
      exact (h.none hcase i _ hrejects).elim
    | some kept => rw [(h.newest kept hcase).unique hnewest]
  · rintro ⟨setup, hbest, holder, hprice⟩
    exact ⟨setup, h.newest setup hbest, hother.forall_lt_iff.mpr holder, hprice⟩

/-! ## The last bars -/

section Drop

variable {m : ℕ} (hwide : rule.lookbackBars + rule.pivotBars ≤ (bars.drop m).length)
  (hwarm : rule.validBars + LiquiditySweepReversalStrategy.kAtrPeriod ≤ (bars.drop m).length)

include hwide hwarm

/-- The rejections of a history are those of its last bars, so many bars later. -/
theorem forall_rejects_drop (extreme : Extreme) (P : ℕ → ℕ → Prop) :
    (∀ i j, rule.Rejects extreme bars i j → P i j) ↔
      ∀ i j, rule.Rejects extreme (bars.drop m) i j → P (m + i) (m + j) := by
  constructor
  · intro h i j hrejects
    exact h _ _ ((rejects_drop hwide hwarm).mp hrejects)
  · intro h i j hrejects
    obtain ⟨hi, hj⟩ := hrejects.le_index hwide
    obtain ⟨i, rfl⟩ := Nat.exists_eq_add_of_le hi
    obtain ⟨j, rfl⟩ := Nat.exists_eq_add_of_le hj
    exact h i j ((rejects_drop hwide hwarm).mpr hrejects)

theorem newest_drop {setup : Setup} : rule.Newest extreme (bars.drop m) setup ↔
    rule.Newest extreme bars ⟨m + setup.rejection, setup.level⟩ := by
  have hlevel (k : ℕ) : level extreme (bars.drop m) k = level extreme bars (m + k) :=
    congrArg extreme.price (barAt_drop bars m k)
  have hforall := forall_rejects_drop hwide hwarm extreme fun i j =>
    j < m + setup.rejection ∨
      j = m + setup.rejection ∧ ¬ extreme.Beyond (level extreme bars i) setup.level
  constructor
  · rintro ⟨⟨i, hrejects, hprice⟩, hnewest⟩
    refine ⟨⟨m + i, (rejects_drop hwide hwarm).mp hrejects, hprice.trans (hlevel i)⟩,
      hforall.mpr fun i' j' h => ?_⟩
    simpa only [hlevel, Nat.add_lt_add_iff_left, Nat.add_left_cancel_iff] using hnewest i' j' h
  · rintro ⟨⟨i, hrejects, hprice⟩, hnewest⟩
    obtain ⟨hi, -⟩ := hrejects.le_index hwide
    obtain ⟨i, rfl⟩ := Nat.exists_eq_add_of_le hi
    refine ⟨⟨i, (rejects_drop hwide hwarm).mpr hrejects, hprice.trans (hlevel i).symm⟩,
      fun i' j' h => ?_⟩
    simpa only [hlevel, Nat.add_lt_add_iff_left, Nat.add_left_cancel_iff] using
      hforall.mp hnewest i' j' h

/-- The last bars decide what the whole history does. -/
theorem enters_drop {tick : PriceData} :
    rule.Enters extreme (bars.drop m) tick ↔ rule.Enters extreme bars tick := by
  have hforall (n : ℕ) := forall_rejects_drop hwide hwarm extreme.opposite fun _ j => j < m + n
  constructor
  · rintro ⟨setup, hnewest, holder, hprice⟩
    refine ⟨_, (newest_drop hwide hwarm).mp hnewest, (hforall _).mpr fun i j h => ?_, hprice⟩
    exact Nat.add_lt_add_left (holder i j h) m
  · rintro ⟨⟨rejection, price⟩, hnewest, holder, hprice⟩
    obtain ⟨i, hrejects, -⟩ := hnewest.rejects
    obtain ⟨rejection, rfl⟩ := Nat.exists_eq_add_of_le (hrejects.le_index hwide).2
    refine ⟨⟨rejection, price⟩, (newest_drop hwide hwarm).mpr hnewest, fun i j h => ?_, hprice⟩
    exact Nat.lt_of_add_lt_add_left ((hforall _).mp holder i j h)

end Drop

end SweepRule

namespace LiquiditySweepReversalStrategy

open SweepRule (level Near IsLevel FirstTouch)

variable {strategy : LiquiditySweepReversalStrategy} {extreme : Extreme} {bars : List OhlcObject}
  {sweepPoints : ℤ} {i : ℕ} {tick : PriceData} {barStore : BarStore}

/-- The rule of a strategy with a depth in points. -/
def rule (strategy : LiquiditySweepReversalStrategy) (sweepPoints : ℤ) : SweepRule where
  pivotBars := strategy.pivotBars.toNat
  lookbackBars := strategy.lookbackBars.toNat
  sweepPoints := sweepPoints
  displacementAtrTenths := strategy.displacementAtrTenths
  validBars := strategy.validBars.toNat

/-- The sums of the constructor do not overflow. -/
structure Fits (strategy : LiquiditySweepReversalStrategy) : Prop where
  lookback : strategy.lookbackBars + strategy.pivotBars + 1 < 2 ^ 31
  valid : strategy.validBars + kAtrPeriod + 1 < 2 ^ 31

/-- The window is long enough for every index that is read. -/
structure Accepted (strategy : LiquiditySweepReversalStrategy) : Prop where
  pivot : 1 ≤ strategy.pivotBars
  sweep : 0 ≤ strategy.minSweepPips
  valid : 1 ≤ strategy.validBars
  wide : strategy.lookbackBars + strategy.pivotBars + 1 ≤ strategy.signalCfg.count
  warm : strategy.validBars + kAtrPeriod + 1 ≤ strategy.signalCfg.count
  lookback : strategy.pivotBars < strategy.lookbackBars

theorem make_accepted {config : TradingDefinitions.StrategyConfig}
    (h : make config = .ok strategy) (hfits : strategy.Fits) : strategy.Accepted := by
  unfold make at h
  split at h
  · cases h
  · split_ifs at h with hminutes
    split at h
    · cases h
    · dsimp only at h
      split_ifs at h with hpivot hlookback hsweep htenths hvalid hduration hcount
      cases h
      obtain ⟨hlookbackFits, hvalidFits⟩ := hfits
      dsimp only [kAtrPeriod] at *
      rw [not_or] at hvalid
      rw [toInt32_of_small (by omega) (by omega), toInt32_of_small (by omega) (by omega)] at hcount
      rw [toInt32_of_small (by omega) (by omega)] at hlookback
      constructor <;> dsimp only [kAtrPeriod] <;> omega

/-! ## The candidates -/

theorem isPivotAt_eq {pivotBars : ℤ} (h : 1 ≤ pivotBars) :
    SwingPivots.isPivotAt extreme bars i pivotBars =
      .ok ((List.range' 1 pivotBars.toNat).all fun wing =>
        extreme.Beyond (level extreme bars i) (level extreme bars (i - wing)) &&
          extreme.Beyond (level extreme bars i) (level extreme bars (i + wing))) := by
  cases extreme with
  | high => exact if_neg h.not_gt
  | low => exact if_neg h.not_gt

/-- The two wings are the bars around the pivot. -/
theorem wings_iff {wing : ℕ} (hleft : wing ≤ i) :
    ((List.range' 1 wing).all fun w =>
        extreme.Beyond (level extreme bars i) (level extreme bars (i - w)) &&
          extreme.Beyond (level extreme bars i) (level extreme bars (i + w))) = true ↔
      ∀ k, k ≠ i → i ≤ k + wing → k ≤ i + wing →
        extreme.Beyond (level extreme bars i) (level extreme bars k) := by
  simp only [List.all_eq_true, List.mem_range'_1, Bool.and_eq_true, decide_eq_true_iff]
  constructor
  · intro h k hne hafter hbefore
    obtain hlt | hgt := hne.lt_or_gt
    · have hside := (h (i - k) (by omega)).1
      rwa [show i - (i - k) = k by omega] at hside
    · have hside := (h (k - i) (by omega)).2
      rwa [show i + (k - i) = k by omega] at hside
  · intro h w hw
    exact ⟨h (i - w) (by omega) (by omega) (by omega), h (i + w) (by omega) (by omega) (by omega)⟩

theorem displacementOk_iff {j : ℕ} : strategy.displacementOk bars j extreme = true ↔
    (strategy.rule sweepPoints).Displaced extreme bars j := by
  unfold displacementOk SweepRule.Displaced
  dsimp only [rule]
  split_ifs with hoff hbody hatr
  · exact iff_of_true rfl (.inl hoff)
  · refine iff_of_false id ?_
    rintro (h | ⟨h, -, -⟩)
    · exact hoff h
    · exact h.not_ge hbody
  · refine iff_of_false id ?_
    rintro (h | ⟨-, h, -⟩)
    · exact hoff h
    · exact h.not_ge hatr
  · rw [decide_eq_true_iff, or_iff_right hoff]
    exact ⟨fun h => ⟨not_le.mp hbody, not_le.mp hatr, h⟩, fun h => h.2.2⟩

/-- No bar from an index on closes beyond a level. -/
theorem any_drop_eq_false_iff {level : ℤ} {k : ℕ} :
    ((bars.drop k).any fun later => extreme.Beyond later.close level) = false ↔
      ∀ l, k ≤ l → l < bars.length → ¬ extreme.Beyond (barAt bars l).close level := by
  rw [List.any_eq_false]
  constructor
  · intro h l hfrom hl
    rw [barAt_eq hl]
    have hmem : bars[l] ∈ bars.drop k :=
      List.mem_drop_iff_getElem.mpr ⟨l - k, by omega, by congr 1; omega⟩
    exact fun hbeyond => h _ hmem (decide_eq_true hbeyond)
  · intro h bar hbar
    obtain ⟨l, hl, rfl⟩ := List.mem_drop_iff_getElem.mp hbar
    have hlater := h (k + l) (Nat.le_add_right _ _) (by omega)
    rw [barAt_eq (by omega)] at hlater
    exact fun hbeyond => hlater (of_decide_eq_true hbeyond)

/-- The rejection found for a level is the one there is. -/
theorem rejectionOf_eq_some (hnear : Near bars) {setup : Setup}
    (hlevel : (strategy.rule sweepPoints).IsLevel extreme bars i) :
    strategy.rejectionOf extreme bars sweepPoints i = some setup ↔
      (strategy.rule sweepPoints).Rejects extreme bars i setup.rejection ∧
        setup.level = level extreme bars i := by
  have hi : i < bars.length := Nat.lt_of_le_of_lt (Nat.le_add_right _ _) hlevel.right
  obtain ⟨j, hj⟩ : ∃ j, j = i + 1 + (bars.drop (i + 1)).findIdx fun bar =>
      extreme.Beyond (extreme.price bar) (level extreme bars i) := ⟨_, rfl⟩
  have htouch (k : ℕ) : FirstTouch extreme bars i k ↔ k < bars.length ∧ k = j := by
    rw [SweepRule.firstTouch_iff hi, hj]
  have hfound : strategy.rejectionOf extreme bars sweepPoints i =
      if j < bars.length ∧ ¬ extreme.Beyond (barAt bars j).close (level extreme bars i) ∧
          sweepPoints ≤ toInt32 (extreme.depth (level extreme bars j) (level extreme bars i)) ∧
          bars.length ≤ j + strategy.validBars.toNat ∧ strategy.displacementOk bars j extreme then
        if (bars.drop (j + 1)).any fun later =>
          extreme.Beyond later.close (level extreme bars i) then none
        else some ⟨j, level extreme bars i⟩
      else none := by
    rw [hj]
    rfl
  have hdepth (hclosed : j < bars.length) :
      toInt32 (extreme.depth (level extreme bars j) (level extreme bars i)) =
        extreme.depth (level extreme bars j) (level extreme bars i) := by
    have hrange := hnear.depth_range hi hclosed ((htouch j).mpr ⟨hclosed, rfl⟩).beyond
    exact toInt32_of_small (by omega) (by omega)
  rw [hfound]
  constructor
  · intro h
    split_ifs at h with hvalid hlater
    obtain ⟨hclosed, hinside, hdeep, hfresh, hdisplaced⟩ := hvalid
    cases h
    rw [hdepth hclosed] at hdeep
    rw [Bool.not_eq_true, any_drop_eq_false_iff] at hlater
    exact ⟨⟨hlevel, (htouch j).mpr ⟨hclosed, rfl⟩, hinside, hdeep, hfresh,
      displacementOk_iff.mp hdisplaced, hlater⟩, rfl⟩
  · rintro ⟨h, hprice⟩
    obtain ⟨hclosed, hsame⟩ := (htouch _).mp h.touch
    have hsetup : setup = ⟨j, level extreme bars i⟩ := by
      cases setup
      exact congrArg₂ Setup.mk hsame hprice
    rw [hsame] at h
    have hdeep := h.deep
    rw [← hdepth (hsame ▸ hclosed)] at hdeep
    have hvalid : j < bars.length ∧ ¬ extreme.Beyond (barAt bars j).close (level extreme bars i) ∧
        sweepPoints ≤ toInt32 (extreme.depth (level extreme bars j) (level extreme bars i)) ∧
        bars.length ≤ j + strategy.validBars.toNat ∧ strategy.displacementOk bars j extreme :=
      ⟨hsame ▸ hclosed, h.inside, hdeep, h.fresh, displacementOk_iff.mpr h.displaced⟩
    have hlater := any_drop_eq_false_iff.mpr h.stands
    rw [hsetup, if_pos hvalid, hlater]
    rfl

/-! ## The scan -/

/-- What an index of the scan gives. -/
def found (strategy : LiquiditySweepReversalStrategy) (extreme : Extreme) (bars : List OhlcObject)
    (sweepPoints : ℤ) (i : ℕ) : Option Setup :=
  if (List.range' 1 strategy.pivotBars.toNat).all fun wing =>
      extreme.Beyond (level extreme bars i) (level extreme bars (i - wing)) &&
        extreme.Beyond (level extreme bars i) (level extreme bars (i + wing)) then
    strategy.rejectionOf extreme bars sweepPoints i
  else none

theorem candidate_eq (hpivot : 1 ≤ strategy.pivotBars) :
    strategy.candidate extreme bars sweepPoints i =
      .ok (strategy.found extreme bars sweepPoints i) := by
  unfold candidate found
  rw [isPivotAt_eq hpivot]
  change (if _ then _ else _) = _
  split_ifs <;> rfl

theorem found_eq_some (hnear : Near bars) (hleft : strategy.pivotBars.toNat ≤ i)
    (hright : i + strategy.pivotBars.toNat < bars.length)
    (hrecent : bars.length ≤ i + strategy.lookbackBars.toNat) {setup : Setup} :
    strategy.found extreme bars sweepPoints i = some setup ↔
      (strategy.rule sweepPoints).Rejects extreme bars i setup.rejection ∧
        setup.level = level extreme bars i := by
  unfold found
  split_ifs with hwings
  · exact rejectionOf_eq_some hnear ⟨hleft, hright, hrecent, (wings_iff hleft).mp hwings⟩
  · refine iff_of_false id ?_
    rintro ⟨h, -⟩
    exact hwings ((wings_iff hleft).mpr h.isLevel.fractal)

/-- The scan finds the newest rejection on each side. -/
theorem pivotScan_best (hpivot : 1 ≤ strategy.pivotBars) (hnear : Near bars)
    (hwide : strategy.lookbackBars.toNat + strategy.pivotBars.toNat ≤ bars.length)
    (sweepPoints : ℤ) : ∃ short long, strategy.pivotScan bars sweepPoints = .ok (short, long) ∧
      (strategy.rule sweepPoints).Best .high bars short ∧
      (strategy.rule sweepPoints).Best .low bars long := by
  have hbest (extreme : Extreme) : (strategy.rule sweepPoints).Best extreme bars
      (((List.range' (max strategy.pivotBars.toNat (bars.length - strategy.lookbackBars.toNat))
        (bars.length - strategy.pivotBars.toNat -
          max strategy.pivotBars.toNat (bars.length - strategy.lookbackBars.toNat))).filterMap
        (strategy.found extreme bars sweepPoints)).argmax Setup.rejection) := by
    refine SweepRule.argmax_best (List.pairwise_lt_range' 1) fun setup i => ?_
    rw [List.mem_range'_1]
    constructor
    · rintro ⟨hi, hfound⟩
      exact (found_eq_some hnear (by omega) (by omega) (by omega)).mp hfound
    · intro h
      have hleft : strategy.pivotBars.toNat ≤ i := h.1.isLevel.left
      have hright : i + strategy.pivotBars.toNat < bars.length := h.1.isLevel.right
      have hrecent : bars.length ≤ i + strategy.lookbackBars.toNat := h.1.isLevel.recent
      exact ⟨by omega, (found_eq_some hnear hleft hright hrecent).mpr h⟩
  refine ⟨_, _, ?_, hbest .high, hbest .low⟩
  unfold pivotScan
  simp only [candidate_eq hpivot]
  rw [← SweepRule.keepNewest_foldl, ← SweepRule.keepNewest_foldl]
  exact List.foldlM_pure.trans (congrArg Except.ok (SweepRule.keepNewest_foldl_pair _ _ _ _))

theorem enter_eq_some {setup : Setup} {direction : Direction} :
    enter extreme tick setup = some direction ↔
      extreme.Beyond setup.level (extreme.entryPrice tick) ∧ extreme.direction = direction := by
  unfold enter
  split_ifs with h
  · simp [h]
  · simp [h]

/-- The verdict follows the rule. -/
theorem verdict_iff (tick : PriceData) {rule : SweepRule} {short long : Option Setup}
    (hshort : rule.Best .high bars short) (hlong : rule.Best .low bars long) :
    (verdict tick short long = some .short ↔ rule.Enters .high bars tick) ∧
      (verdict tick short long = some .long ↔ rule.Enters .low bars tick) := by
  rw [SweepRule.enters_iff hshort hlong, SweepRule.enters_iff hlong hshort]
  cases short with
  | none =>
    cases long with
    | none => simp [verdict]
    | some long => simp [verdict, enter_eq_some, Extreme.direction]
  | some short =>
    cases long with
    | none => simp [verdict, enter_eq_some, Extreme.direction]
    | some long =>
      obtain hlt | heq | hgt := lt_trichotomy short.rejection long.rejection
      · simp [verdict, enter_eq_some, Extreme.direction, hlt, hlt.ne, hlt.not_gt]
      · simp [verdict, heq]
      · simp [verdict, enter_eq_some, Extreme.direction, hgt, hgt.ne', hgt.not_gt]

/-! ## The decision -/

variable {closed : List OhlcObject} {current : OhlcObject}

/-- The least depth of a sweep, in points. -/
def sweepDepth (strategy : LiquiditySweepReversalStrategy) (symbol : String) : ℤ :=
  strategy.minSweepPips * SymbolScale.get symbol

/-- The decision at a tick is that of the rule over the closed bars, with a depth in points; it is
none where the rule does not enter. -/
def Follows (strategy : LiquiditySweepReversalStrategy) (tick : PriceData) (barStore : BarStore)
    (closed : List OhlcObject) (sweepPoints : ℤ) : Prop :=
  ∃ direction, strategy.decide tick barStore = .ok direction ∧
    (direction = some .short ↔ (strategy.rule sweepPoints).Enters .high closed tick) ∧
    (direction = some .long ↔ (strategy.rule sweepPoints).Enters .low closed tick)

/-- A decision follows the rule with the depth as 32 bits hold it, however deep the store is. -/
theorem decide_follows (haccepted : strategy.Accepted)
    (hfind : barStore.find tick.symbol strategy.signalCfg.minutes = some (closed ++ [current]))
    (hcount : strategy.signalCfg.count - 1 ≤ closed.length) (hnear : Near closed) :
    strategy.Follows tick barStore closed (toInt32 (strategy.sweepDepth tick.symbol)) := by
  have hpivot := haccepted.pivot
  have hlookback := haccepted.lookback
  have hvalid := haccepted.valid
  have hwide := haccepted.wide
  have hwarm := haccepted.warm
  obtain ⟨m, hm⟩ : ∃ m, m = closed.length - (strategy.signalCfg.count.toNat - 1) := ⟨_, rfl⟩
  have htail : ((closed ++ [current]).rtake strategy.signalCfg.count.toNat).dropLast =
      closed.drop m := by
    rw [BoundedTail.dropLast_rtake, List.dropLast_concat, List.rtake, hm]
  have hlength : (closed.drop m).length = closed.length - m := List.length_drop
  have hwide' : strategy.lookbackBars.toNat + strategy.pivotBars.toNat ≤
      (closed.drop m).length := by omega
  have hwarm' : strategy.validBars.toNat + kAtrPeriod ≤ (closed.drop m).length := by omega
  have hnear' : Near (closed.drop m) := fun a ha b hb =>
    hnear a (List.mem_of_mem_drop ha) b (List.mem_of_mem_drop hb)
  obtain ⟨short, long, hscan, hshort, hlong⟩ := pivotScan_best hpivot hnear' hwide'
    (toInt32 (strategy.sweepDepth tick.symbol))
  obtain ⟨hverdictShort, hverdictLong⟩ := verdict_iff tick hshort hlong
  refine ⟨verdict tick short long, ?_, ?_, ?_⟩
  · unfold decide
    rw [hfind]
    have hlong : ¬ (closed ++ [current]).length < strategy.signalCfg.count.toNat := by
      rw [List.length_append, List.length_singleton]
      omega
    simp only [if_neg hlong, htail]
    change (strategy.pivotScan _ (toInt32 (strategy.sweepDepth tick.symbol)) >>= _) = _
    rw [hscan]
    rfl
  · rw [hverdictShort]
    exact SweepRule.enters_drop hwide' hwarm'
  · rw [hverdictLong]
    exact SweepRule.enters_drop hwide' hwarm'

/-- A sweep that deep is none. -/
theorem not_enters_of_deep (hnear : Near closed) (hdeep : 2 ^ 31 ≤ sweepPoints)
    (extreme : Extreme) : ¬ (strategy.rule sweepPoints).Enters extreme closed tick := by
  rintro ⟨setup, hnewest, -⟩
  obtain ⟨i, h, -⟩ := hnewest.rejects
  have hi : i < closed.length := h.touch.later.trans h.touch.closed
  have hrange := hnear.depth_range hi h.touch.closed h.touch.beyond
  have hreached : sweepPoints ≤ _ := h.deep
  omega

/-- A decision follows the rule exactly when the least depth of a sweep is a 32-bit number, or the
depth that it wraps to makes no entry either; and more closed bars never make a rejection of what
was none. -/
theorem follows_iff {config : TradingDefinitions.StrategyConfig}
    (hmake : make config = .ok strategy) (hfits : strategy.Fits)
    (hfind : barStore.find tick.symbol strategy.signalCfg.minutes = some (closed ++ [current]))
    (hcount : strategy.signalCfg.count - 1 ≤ closed.length) (hnear : Near closed) :
    (strategy.Follows tick barStore closed (strategy.sweepDepth tick.symbol) ↔
      strategy.sweepDepth tick.symbol < 2 ^ 31 ∨ ∀ extreme,
        ¬ (strategy.rule (toInt32 (strategy.sweepDepth tick.symbol))).Enters extreme closed tick) ∧
    ∀ extreme more i j, j < closed.length →
      (strategy.rule (strategy.sweepDepth tick.symbol)).Rejects extreme (closed ++ more) i j →
      (strategy.rule (strategy.sweepDepth tick.symbol)).Rejects extreme closed i j := by
  have haccepted := make_accepted hmake hfits
  have hfollows := decide_follows haccepted hfind hcount hnear
  refine ⟨?_, fun extreme more i j hj h => h.of_append hj⟩
  by_cases hsmall : strategy.sweepDepth tick.symbol < 2 ^ 31
  · have hnonneg : 0 ≤ strategy.sweepDepth tick.symbol :=
      mul_nonneg haccepted.sweep (SymbolScale.get_nonneg _)
    rw [toInt32_of_small (by omega) hsmall] at hfollows
    exact iff_of_true hfollows (.inl hsmall)
  · obtain ⟨direction, hdecide, hshort, hlong⟩ := hfollows
    have hnone (extreme : Extreme) : ¬ (strategy.rule (strategy.sweepDepth tick.symbol)).Enters
        extreme closed tick := not_enters_of_deep hnear (not_lt.mp hsmall) extreme
    rw [or_iff_right hsmall]
    constructor
    · rintro ⟨direction', hdecide', hshort', hlong'⟩ extreme
      rw [hdecide] at hdecide'
      cases hdecide'
      cases extreme with
      | high => exact fun h => hnone .high (hshort'.mp (hshort.mpr h))
      | low => exact fun h => hnone .low (hlong'.mp (hlong.mpr h))
    · intro h
      refine ⟨direction, hdecide, ?_, ?_⟩
      · exact hshort.trans (iff_of_false (h .high) (hnone .high))
      · exact hlong.trans (iff_of_false (h .low) (hnone .low))

/-- A config whose least depth of a sweep is the given number of pips. -/
def sweepConfig (minSweepPips : Int32) : TradingDefinitions.StrategyConfig where
  uuid := "sweep"
  tradingVariables := { strategy := "LiquiditySweepReversalStrategy" }
  ohlcVariables := [⟨12, 15⟩]
  rangeVariables := []
  strategyVariables := { liquiditySweepReversalVariables := some ⟨1, 3, minSweepPips, 0, 1, 0⟩ }

/-- A swing high of 110 that the last closed bar trades through to 120 and closes below. -/
def sweptBars : List OhlcObject :=
  (List.range 8).map (fun (index : ℕ) => ⟨index * 900 * second, 100, 100, 101, 99, true⟩) ++
    [⟨7200 * second, 100, 100, 110, 99, true⟩, ⟨8100 * second, 100, 100, 101, 99, true⟩,
      ⟨9000 * second, 100, 105, 120, 99, true⟩]

def sweptStore : BarStore :=
  { BarStore.fresh with
    specs := [⟨15, 12⟩]
    bySymbol := AList.insert "EURUSD"
      [sweptBars ++ [⟨9900 * second, 105, 105, 105, 105, false⟩]] ∅ }

/-- The depth of 429496730 pips is 4294967300 points of the euro, which are 4 in 32 bits, and a
sweep by 10 points is sold. -/
theorem follows_wrapped : ∃ strategy, make (sweepConfig 429496730) = .ok strategy ∧
    strategy.Fits ∧ sweptStore.find "EURUSD" strategy.signalCfg.minutes =
      some (sweptBars ++ [⟨9900 * second, 105, 105, 105, 105, false⟩]) ∧ Near sweptBars ∧
    strategy.decide ⟨106, 105, 9900 * second, "EURUSD"⟩ sweptStore = .ok (some .short) ∧
    ¬ strategy.Follows ⟨106, 105, 9900 * second, "EURUSD"⟩ sweptStore sweptBars
      (strategy.sweepDepth "EURUSD") := by
  have hnear : Near sweptBars := SweepRule.near_of_nonneg (by decide)
  refine ⟨_, rfl, ⟨by decide, by decide⟩, rfl, hnear, rfl, ?_⟩
  rintro ⟨direction, hdecide, hshort, -⟩
  cases hdecide
  exact not_enters_of_deep hnear (by decide) .high (hshort.mp rfl)

/-- With a depth of one pip the sale follows the rule. -/
theorem follows_one_pip : ∃ strategy, make (sweepConfig 1) = .ok strategy ∧
    strategy.decide ⟨106, 105, 9900 * second, "EURUSD"⟩ sweptStore = .ok (some .short) ∧
    strategy.Follows ⟨106, 105, 9900 * second, "EURUSD"⟩ sweptStore sweptBars
      (strategy.sweepDepth "EURUSD") := by
  obtain ⟨strategy, hmake, hfits, hfind, hcount, hdecide, hdepth⟩ : ∃ strategy,
      make (sweepConfig 1) = .ok strategy ∧ strategy.Fits ∧
      sweptStore.find "EURUSD" strategy.signalCfg.minutes =
        some (sweptBars ++ [⟨9900 * second, 105, 105, 105, 105, false⟩]) ∧
      strategy.signalCfg.count - 1 ≤ sweptBars.length ∧
      strategy.decide ⟨106, 105, 9900 * second, "EURUSD"⟩ sweptStore = .ok (some .short) ∧
      strategy.sweepDepth "EURUSD" < 2 ^ 31 :=
    ⟨_, rfl, ⟨by decide, by decide⟩, rfl, by decide, rfl, by decide⟩
  have hnear : Near sweptBars := SweepRule.near_of_nonneg (by decide)
  exact ⟨strategy, hmake, hdecide,
    (follows_iff hmake hfits hfind hcount hnear).1.mpr (.inl hdepth)⟩

end LiquiditySweepReversalStrategy

end BacktestEngine

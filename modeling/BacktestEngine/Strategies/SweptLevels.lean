import BacktestEngine.Strategies.LiquiditySweepReversal

/-! # The rule of the swept levels

A level, its first touch, and when the touch is a rejection that stands, said of the whole
history of closed bars. The scan over the last bars finds the newest rejection of it.
-/

namespace BacktestEngine

/-- What the rule depends on; the depth of a sweep is in points. -/
structure SweepRule where
  pivotBars : ℕ
  lookbackBars : ℕ
  sweepPoints : ℤ
  displacementAtrTenths : ℤ
  validBars : ℕ

namespace SweepRule

open LiquiditySweepReversalStrategy (Setup kAtrPeriod)

section Definitions

variable (rule : SweepRule) (extreme : Extreme) (bars : List OhlcObject)

/-- The price of a level. -/
def level (i : ℕ) : ℤ := extreme.price (barAt bars i)

/-- A strict fractal among the last bars. -/
structure IsLevel (i : ℕ) : Prop where
  left : rule.pivotBars ≤ i
  right : i + rule.pivotBars < bars.length
  recent : bars.length ≤ i + rule.lookbackBars
  fractal : ∀ k, k ≠ i → i ≤ k + rule.pivotBars → k ≤ i + rule.pivotBars →
    extreme.Beyond (level extreme bars i) (level extreme bars k)

/-- The first later bar that trades beyond the level. -/
structure FirstTouch (i j : ℕ) : Prop where
  later : i < j
  closed : j < bars.length
  beyond : extreme.Beyond (level extreme bars j) (level extreme bars i)
  first : ∀ k, i < k → k < j → ¬ extreme.Beyond (level extreme bars k) (level extreme bars i)

/-- The body of the bar is large against the mean range of the ten bars that end with it. -/
def Displaced (j : ℕ) : Prop :=
  rule.displacementAtrTenths = 0 ∨
    0 < extreme.body (barAt bars j) ∧ 0 < Atr.calculate (bars.take (j + 1)) kAtrPeriod ∧
      rule.displacementAtrTenths * Atr.calculate (bars.take (j + 1)) kAtrPeriod ≤
        extreme.body (barAt bars j) * 10

/-- The bar at `j` is the valid rejection of the level at `i`. -/
structure Rejects (i j : ℕ) : Prop where
  isLevel : rule.IsLevel extreme bars i
  touch : FirstTouch extreme bars i j
  inside : ¬ extreme.Beyond (barAt bars j).close (level extreme bars i)
  deep : rule.sweepPoints ≤ extreme.depth (level extreme bars j) (level extreme bars i)
  fresh : bars.length ≤ j + rule.validBars
  displaced : rule.Displaced extreme bars j
  stands : ∀ k, j < k → k < bars.length →
    ¬ extreme.Beyond (barAt bars k).close (level extreme bars i)

/-- No rejection is newer, and of those by the same bar none is of a level further out. -/
structure Newest (setup : Setup) : Prop where
  rejects : ∃ i, rule.Rejects extreme bars i setup.rejection ∧ setup.level = level extreme bars i
  newest : ∀ i j, rule.Rejects extreme bars i j → j < setup.rejection ∨
    j = setup.rejection ∧ ¬ extreme.Beyond (level extreme bars i) setup.level

/-- The newest rejection is newer than all on the other side, and the price is back inside. -/
def Enters (tick : PriceData) : Prop :=
  ∃ setup, rule.Newest extreme bars setup ∧
    (∀ i j, rule.Rejects extreme.opposite bars i j → j < setup.rejection) ∧
    extreme.Beyond setup.level (extreme.entryPrice tick)

end Definitions

variable {rule : SweepRule} {extreme : Extreme} {bars : List OhlcObject} {i j i' j' : ℕ}

/-! ## What is beyond what -/

theorem not_beyond_self (extreme : Extreme) (a : ℤ) : ¬ extreme.Beyond a a := by
  cases extreme with
  | high => exact lt_irrefl a
  | low => exact lt_irrefl a

theorem not_beyond_of_beyond {a b : ℤ} (h : extreme.Beyond a b) : ¬ extreme.Beyond b a := by
  cases extreme with
  | high => exact lt_asymm h
  | low => exact lt_asymm h

theorem eq_of_not_beyond {a b : ℤ} (h : ¬ extreme.Beyond a b) (h' : ¬ extreme.Beyond b a) :
    a = b := by
  cases extreme with
  | high => exact le_antisymm (not_lt.mp h) (not_lt.mp h')
  | low => exact le_antisymm (not_lt.mp h') (not_lt.mp h)

/-! ## Levels and their touches -/

/-- A level has one first touch. -/
theorem FirstTouch.unique (h : FirstTouch extreme bars i j) (h' : FirstTouch extreme bars i j') :
    j = j' := by
  obtain hlt | rfl | hgt := lt_trichotomy j j'
  · exact (h'.first j h.later hlt h.beyond).elim
  · rfl
  · exact (h.first j' h'.later hgt h'.beyond).elim

/-- The bars right of a pivot do not touch its level. -/
theorem IsLevel.lt_touch (h : rule.IsLevel extreme bars i) (hbeyond : extreme.Beyond
    (level extreme bars j) (level extreme bars i)) (hlater : i < j) : i + rule.pivotBars < j := by
  by_contra hwing
  have hinside := h.fractal j hlater.ne' (by omega) (not_lt.mp hwing)
  exact not_beyond_of_beyond hbeyond hinside

/-- Of the levels that one bar touches first, an earlier one is further out. -/
theorem Rejects.outer (h : rule.Rejects extreme bars i j) (h' : rule.Rejects extreme bars i' j)
    (hle : i ≤ i') : ¬ extreme.Beyond (level extreme bars i') (level extreme bars i) := by
  obtain rfl | hlt := hle.eq_or_lt
  · exact not_beyond_self extreme _
  · exact h.touch.first i' hlt h'.touch.later

/-- The newest rejection is one only, with its level. -/
theorem Newest.unique {setup setup' : Setup} (h : rule.Newest extreme bars setup)
    (h' : rule.Newest extreme bars setup') : setup = setup' := by
  obtain ⟨i, hrejects, hlevel⟩ := h.rejects
  obtain ⟨i', hrejects', hlevel'⟩ := h'.rejects
  have hnewest := h.newest i' _ hrejects'
  have hnewest' := h'.newest i _ hrejects
  have hrejection : setup.rejection = setup'.rejection := by omega
  have hinner := (hnewest.resolve_left hrejection.le.not_gt).2
  have hinner' := (hnewest'.resolve_left hrejection.ge.not_gt).2
  rw [← hlevel'] at hinner
  rw [← hlevel] at hinner'
  cases setup
  cases setup'
  exact congrArg₂ Setup.mk hrejection (eq_of_not_beyond hinner' hinner)

/-! ## A longer history -/

theorem level_append {more : List OhlcObject} (h : i < bars.length) :
    level extreme (bars ++ more) i = level extreme bars i :=
  congrArg extreme.price (barAt_append h)

/-- More closed bars never make a rejection of what was none. -/
theorem Rejects.of_append {more : List OhlcObject} (hclosed : j < bars.length)
    (h : rule.Rejects extreme (bars ++ more) i j) : rule.Rejects extreme bars i j := by
  have hi : i < bars.length := h.touch.later.trans hclosed
  have hlevel : ∀ k, k < bars.length → level extreme (bars ++ more) k = level extreme bars k :=
    fun k hk => level_append hk
  have hlonger : bars.length ≤ (bars ++ more).length := by
    rw [List.length_append]
    exact Nat.le_add_right _ _
  have hwing : i + rule.pivotBars < j := h.isLevel.lt_touch h.touch.beyond h.touch.later
  have htake : (bars ++ more).take (j + 1) = bars.take (j + 1) :=
    List.take_append_of_le_length hclosed
  constructor
  · constructor
    · exact h.isLevel.left
    · exact hwing.trans hclosed
    · exact hlonger.trans h.isLevel.recent
    · intro k hne hleft hright
      rw [← hlevel i hi, ← hlevel k (by omega)]
      exact h.isLevel.fractal k hne hleft hright
  · constructor
    · exact h.touch.later
    · exact hclosed
    · rw [← hlevel i hi, ← hlevel j hclosed]
      exact h.touch.beyond
    · intro k hafter hbefore
      rw [← hlevel i hi, ← hlevel k (hbefore.trans hclosed)]
      exact h.touch.first k hafter hbefore
  · rw [← hlevel i hi, ← barAt_append hclosed]
    exact h.inside
  · rw [← hlevel i hi, ← hlevel j hclosed]
    exact h.deep
  · exact hlonger.trans h.fresh
  · have hdisplaced := h.displaced
    rwa [Displaced, htake, barAt_append hclosed] at hdisplaced
  · intro k hafter hk
    rw [← hlevel i hi, ← barAt_append hk]
    exact h.stands k hafter (hk.trans_le hlonger)

/-- The mean range sees the last bars only. -/
theorem calculate_drop {period m : ℕ} (h : period + 1 ≤ (bars.drop m).length) :
    Atr.calculate (bars.drop m) period = Atr.calculate bars period := by
  have hlength : (bars.drop m).length = bars.length - m := List.length_drop
  have hrtake : (bars.drop m).rtake (period + 1) = bars.rtake (period + 1) := by
    rw [List.rtake, List.rtake, List.drop_drop, hlength]
    congr 1
    omega
  rw [Atr.calculate, Atr.calculate, if_neg h.not_gt, if_neg (by omega), hrtake]

/-- The rule on the last bars is the rule on all of them, when these are enough for a level with its
left wing and for the mean range at the oldest valid rejection. -/
theorem rejects_drop {m : ℕ}
    (hwide : rule.lookbackBars + rule.pivotBars ≤ (bars.drop m).length)
    (hwarm : rule.validBars + kAtrPeriod ≤ (bars.drop m).length) :
    rule.Rejects extreme (bars.drop m) i j ↔ rule.Rejects extreme bars (m + i) (m + j) := by
  have hlength : (bars.drop m).length = bars.length - m := List.length_drop
  have hlevel (k : ℕ) : level extreme (bars.drop m) k = level extreme bars (m + k) :=
    congrArg extreme.price (barAt_drop bars m k)
  have hdisplaced (hj : j < (bars.drop m).length)
      (hfresh : (bars.drop m).length ≤ j + rule.validBars) :
      rule.Displaced extreme (bars.drop m) j ↔ rule.Displaced extreme bars (m + j) := by
    have htake : (bars.drop m).take (j + 1) = (bars.take (m + j + 1)).drop m := by
      rw [List.drop_take]
      congr 1
      omega
    have hlong : kAtrPeriod + 1 ≤ ((bars.take (m + j + 1)).drop m).length := by
      rw [List.length_drop, List.length_take]
      omega
    rw [Displaced, Displaced, htake, calculate_drop hlong, barAt_drop]
  constructor
  · intro h
    have hj := h.touch.closed
    have hright := h.isLevel.right
    have hrecent := h.isLevel.recent
    constructor
    · constructor
      · omega
      · omega
      · omega
      · intro k hne hleft hright
        obtain ⟨k, rfl⟩ : ∃ k', k = m + k' := Nat.exists_eq_add_of_le (by omega)
        rw [← hlevel, ← hlevel]
        exact h.isLevel.fractal k (by omega) (by omega) (by omega)
    · constructor
      · exact Nat.add_lt_add_left h.touch.later m
      · omega
      · rw [← hlevel, ← hlevel]
        exact h.touch.beyond
      · intro k hafter hbefore
        obtain ⟨k, rfl⟩ : ∃ k', k = m + k' := Nat.exists_eq_add_of_le (by omega)
        rw [← hlevel, ← hlevel]
        exact h.touch.first k (by omega) (by omega)
    · rw [← hlevel, ← barAt_drop]
      exact h.inside
    · rw [← hlevel, ← hlevel]
      exact h.deep
    · have hfresh := h.fresh
      omega
    · exact (hdisplaced hj h.fresh).mp h.displaced
    · intro k hafter hk
      obtain ⟨k, rfl⟩ : ∃ k', k = m + k' := Nat.exists_eq_add_of_le (by omega)
      rw [← hlevel, ← barAt_drop]
      exact h.stands k (by omega) (by omega)
  · intro h
    have hj := h.touch.closed
    have hright := h.isLevel.right
    have hrecent := h.isLevel.recent
    have hfresh : (bars.drop m).length ≤ j + rule.validBars := by
      have hfresh := h.fresh
      omega
    constructor
    · constructor
      · omega
      · omega
      · omega
      · intro k hne hleft hright
        rw [hlevel, hlevel]
        exact h.isLevel.fractal (m + k) (by omega) (by omega) (by omega)
    · constructor
      · exact Nat.lt_of_add_lt_add_left h.touch.later
      · omega
      · rw [hlevel, hlevel]
        exact h.touch.beyond
      · intro k hafter hbefore
        rw [hlevel, hlevel]
        exact h.touch.first (m + k) (by omega) (by omega)
    · rw [hlevel, barAt_drop]
      exact h.inside
    · rw [hlevel, hlevel]
      exact h.deep
    · exact hfresh
    · exact (hdisplaced (by omega) hfresh).mpr h.displaced
    · intro k hafter hk
      rw [hlevel, barAt_drop]
      exact h.stands (m + k) (by omega) (by omega)

/-- Every rejection is among the last bars. -/
theorem Rejects.le_index {m : ℕ} (h : rule.Rejects extreme bars i j)
    (hwide : rule.lookbackBars + rule.pivotBars ≤ (bars.drop m).length) : m ≤ i ∧ m ≤ j := by
  have hlength : (bars.drop m).length = bars.length - m := List.length_drop
  have hrecent := h.isLevel.recent
  have hleft := h.isLevel.left
  have hright := h.isLevel.right
  have hlater := h.touch.later
  omega

end SweepRule

end BacktestEngine

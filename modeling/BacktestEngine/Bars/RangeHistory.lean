import BacktestEngine.Bars.Sharing

/-! # The whole history of a range series

The bars of a symbol's ticks with none of them forgotten. A series of any depth has the last of
them; every bar but the last is complete, and one that is complete closed away from its open
unless its threshold did not fit.
-/

namespace BacktestEngine

namespace RangeSeries

/-- A tick is taken in and no bar forgotten. -/
def remember (series : RangeSeries) (tick : PriceData) : RangeSeries :=
  let series := series.slide tick
  if !series.warm then series else series.roll tick

end RangeSeries

namespace RangeBar

open RangeSeries (remember)

/-- The series of the ticks without a limit on its depth. -/
def unkept (spec : RangeBarSpec) (ticks : List PriceData) : RangeSeries :=
  ticks.foldl remember { RangeSeries.fresh spec with prepopulateAttempted := true }

def rangeBars (spec : RangeBarSpec) (ticks : List PriceData) : List OhlcObject :=
  (unkept spec ticks).bars

variable {spec : RangeBarSpec} {series : RangeSeries} {ticks before : List PriceData}
  {tick : PriceData} {warmUp : WarmUp} {depth : ℤ} {bar : OhlcObject}

theorem unkept_concat : unkept spec (before ++ [tick]) = remember (unkept spec before) tick := by
  rw [unkept, List.foldl_concat]
  rfl

theorem remember_warm (hwarm : (series.slide tick).warm = true) :
    series.remember tick = (series.slide tick).roll tick := by
  simp [remember, hwarm]

theorem remember_cold (hcold : (series.slide tick).warm = false) :
    series.remember tick = series.slide tick := by
  simp [remember, hcold]

theorem remember_frame (series : RangeSeries) (tick : PriceData) :
    (series.remember tick).spec = series.spec ∧
      (series.remember tick).tickIndex = series.tickIndex + 1 ∧
      (series.remember tick).prepopulateAttempted = series.prepopulateAttempted := by
  cases hwarm : (series.slide tick).warm with
  | false =>
    rw [remember_cold hwarm]
    exact ⟨rfl, rfl, rfl⟩
  | true =>
    rw [remember_warm hwarm, roll_eq]
    exact ⟨rfl, rfl, rfl⟩

theorem unkept_attempted (spec : RangeBarSpec) (ticks : List PriceData) :
    (unkept spec ticks).prepopulateAttempted = true := by
  induction ticks using List.reverseRecOn with
  | nil => rfl
  | append_singleton ticks tick ih =>
    rw [unkept_concat, (remember_frame _ _).2.2]
    exact ih

/-! ## Series of a depth -/

/-- A series of a depth takes in a tick as the whole one does, and forgets. -/
theorem shallow_remember (series : RangeSeries) (tick : PriceData) (hdepth : 1 ≤ depth) :
    (BarStore.shallow depth series).applyTick tick =
      BarStore.shallow depth (series.remember tick) := by
  have hslide : (BarStore.shallow depth series).slide tick =
      BarStore.shallow depth (series.slide tick) := rfl
  cases hwarm : (series.slide tick).warm with
  | false =>
    have hshallow : ((BarStore.shallow depth series).slide tick).warm = false := hwarm
    rw [remember_cold hwarm, applyTick_cold hshallow, hslide]
  | true =>
    have hshallow : ((BarStore.shallow depth series).slide tick).warm = true := hwarm
    have hbars : BoundedTail.trim depth.toNat
        (BoundedTail.advance (rolled (series.slide tick) tick) (series.bars.rtake depth.toNat)) =
        (BoundedTail.advance (rolled (series.slide tick) tick) series.bars).rtake depth.toNat :=
      BoundedTail.trim_advance rolled_ne_nil (by omega)
    rw [remember_warm hwarm, applyTick_warm hshallow, hslide, roll_eq, roll_eq,
      BarStore.getLast?_shallow hdepth]
    simp only [BarStore.shallow, RangeSeries.keep, RangeSeries.slide_bars, ← hbars]
    rfl

/-- A series of a depth has the last bars of the whole history. -/
theorem lone_bars (hoff : warmUp.prepopulate = false) (hdepth : 1 ≤ depth)
    (spec : RangeBarSpec) (ticks : List PriceData) :
    (BarStore.lone warmUp { spec with count := depth } ticks).bars =
      (rangeBars spec ticks).rtake depth.toNat := by
  have hshallow : { BarStore.lone warmUp { spec with count := depth } ticks with
      prepopulateAttempted := true } = BarStore.shallow depth (unkept spec ticks) := by
    induction ticks using List.reverseRecOn with
    | nil => simp [BarStore.lone, RangeSeries.feed, unkept, BarStore.shallow, RangeSeries.fresh]
    | append_singleton ticks tick ih =>
      have hupdate : BarStore.lone warmUp { spec with count := depth } (ticks ++ [tick]) =
          BarStore.shallow depth (unkept spec (ticks ++ [tick])) := by
        rw [BarStore.lone, RangeSeries.feed, List.foldl_concat, RangeSeries.update_off hoff]
        change RangeSeries.applyTick { BarStore.lone warmUp _ ticks with
          prepopulateAttempted := true } tick = _
        rw [ih, shallow_remember _ _ hdepth, unkept_concat]
      rw [hupdate]
      have hattempted := unkept_attempted spec (ticks ++ [tick])
      unfold BarStore.shallow
      rw [← hattempted]
  exact congrArg RangeSeries.bars hshallow

/-! ## The bars -/

/-- There is no bar while the window fills, and every bar but the last is complete. -/
structure Formed (series : RangeSeries) : Prop where
  warm : series.bars ≠ [] → series.warm = true
  closed : ∀ bar ∈ series.bars.dropLast, bar.complete = true

/-- A window that is full stays full. -/
theorem warm_slide (h : series.warm = true) (tick : PriceData) :
    (series.slide tick).warm = true := by
  unfold RangeSeries.warm at *
  rw [decide_eq_true_iff] at *
  exact h.trans (Nat.le_succ _)

theorem warm_remember (series : RangeSeries) (tick : PriceData) :
    (series.remember tick).warm = (series.slide tick).warm := by
  obtain ⟨hspec, hindex, -⟩ := remember_frame series tick
  unfold RangeSeries.warm
  rw [hspec, hindex]
  rfl

/-- What a tick does to the bars: nothing while there are too few ticks, a new bar after a complete
one, and a price more in an open one. -/
theorem remember_cases (h : Formed series) (tick : PriceData) :
    (series.bars = [] ∧ (series.remember tick).bars = []) ∨
    ((∀ bar ∈ series.bars.getLast?, bar.complete = true) ∧
      (series.remember tick).bars = series.bars ++ [.opened tick tick.ask] ∧
      (series.remember tick).lockedThreshold = toInt32 (series.remember tick).scaledThreshold) ∨
    ∃ front bar, series.bars = front ++ [bar] ∧ bar.complete = false ∧
      (series.remember tick).bars = front ++ [(series.slide tick).absorbed bar tick.ask] ∧
      (series.remember tick).lockedThreshold = series.lockedThreshold := by
  cases hwarm : (series.slide tick).warm with
  | false =>
    have hnone : series.bars = [] := by
      by_contra hsome
      rw [warm_slide (h.warm hsome)] at hwarm
      cases hwarm
    rw [remember_cold hwarm]
    exact .inl ⟨hnone, hnone⟩
  | true =>
    rw [remember_warm hwarm]
    unfold RangeSeries.roll
    rw [RangeSeries.slide_bars]
    cases hbars : series.bars using List.reverseRecOn with
    | nil =>
      refine .inr (.inl ⟨by simp, ?_, rfl⟩)
      simp [RangeSeries.openBar, hbars]
    | append_singleton front bar =>
      simp only [List.getLast?_concat, List.dropLast_concat]
      cases hcomplete : bar.complete with
      | true =>
        refine .inr (.inl ⟨by simp [hcomplete], ?_, rfl⟩)
        simp [RangeSeries.openBar, hbars]
      | false => exact .inr (.inr ⟨front, bar, rfl, hcomplete, by simp, rfl⟩)

theorem Formed.remember (h : Formed series) (tick : PriceData) :
    Formed (series.remember tick) := by
  constructor
  · intro hbars
    rw [warm_remember]
    cases hwarm : (series.slide tick).warm with
    | true => rfl
    | false =>
      rw [remember_cold hwarm] at hbars
      rw [warm_slide (h.warm hbars)] at hwarm
      cases hwarm
  · have hclosed := h.closed
    obtain ⟨-, hnone⟩ | ⟨hlast, hopened, -⟩ | ⟨front, bar, hbefore, -, hafter, -⟩ :=
      remember_cases h tick
    · rw [hnone]
      exact fun bar hbar => (List.not_mem_nil hbar).elim
    · rw [hopened, List.dropLast_concat]
      cases hbefore : series.bars using List.reverseRecOn with
      | nil => exact fun bar hbar => (List.not_mem_nil hbar).elim
      | append_singleton front last =>
        rw [hbefore, List.dropLast_concat] at hclosed
        rw [hbefore, List.getLast?_concat] at hlast
        intro bar hbar
        obtain hfront | hend := List.mem_append.mp hbar
        · exact hclosed bar hfront
        · rw [List.mem_singleton.mp hend]
          exact hlast last rfl
    · rw [hbefore, List.dropLast_concat] at hclosed
      rwa [hafter, List.dropLast_concat]

theorem formed_unkept (spec : RangeBarSpec) (ticks : List PriceData) :
    Formed (unkept spec ticks) := by
  induction ticks using List.reverseRecOn with
  | nil => exact ⟨fun h => (h rfl).elim, fun bar hbar => (List.not_mem_nil hbar).elim⟩
  | append_singleton ticks tick ih =>
    rw [unkept_concat]
    exact ih.remember tick

/-! ## Completing a bar -/

/-- The bars that are complete. -/
def completedBars (spec : RangeBarSpec) (ticks : List PriceData) : List OhlcObject :=
  (rangeBars spec ticks).filter OhlcObject.complete

/-- The tick completes a bar. -/
def Completes (spec : RangeBarSpec) (before : List PriceData) (tick : PriceData) : Prop :=
  (completedBars spec (before ++ [tick])).length = (completedBars spec before).length + 1

instance (spec : RangeBarSpec) (before : List PriceData) (tick : PriceData) :
    Decidable (Completes spec before tick) := inferInstanceAs (Decidable (_ = _))

/-- The last bar is complete at the tick that completes it and at no other, and then all are. -/
theorem completes_iff : Completes spec before tick ↔
    ∃ bar, (rangeBars spec (before ++ [tick])).getLast? = some bar ∧ bar.complete = true := by
  unfold Completes completedBars rangeBars
  rw [unkept_concat]
  obtain ⟨hempty, hnone⟩ | ⟨hlast, hopened, -⟩ | ⟨front, bar, hbefore, hopen, hafter, -⟩ :=
    remember_cases (formed_unkept spec before) tick
  · simp [hempty, hnone]
  · simp [hopened, OhlcObject.opened]
  · rw [hbefore, hafter]
    cases hcomplete : ((RangeSeries.slide (unkept spec before) tick).absorbed bar tick.ask).complete
      <;> simp [List.filter_append, hopen, hcomplete]

theorem completedBars_eq (h : Completes spec before tick) :
    completedBars spec (before ++ [tick]) = rangeBars spec (before ++ [tick]) := by
  obtain ⟨bar, hlast, hcomplete⟩ := completes_iff.mp h
  have hclosed := (formed_unkept spec (before ++ [tick])).closed
  unfold completedBars
  rw [List.filter_eq_self]
  intro other hother
  change ∀ bar ∈ (rangeBars spec (before ++ [tick])).dropLast, bar.complete = true at hclosed
  cases hbars : rangeBars spec (before ++ [tick]) using List.reverseRecOn with
  | nil =>
    rw [hbars] at hlast
    cases hlast
  | append_singleton front last =>
    rw [hbars, List.dropLast_concat] at hclosed
    rw [hbars, List.getLast?_concat] at hlast
    rw [hbars] at hother
    cases hlast
    obtain hfront | hend := List.mem_append.mp hother
    · exact hclosed other hfront
    · rw [List.mem_singleton.mp hend]
      exact hcomplete

/-! ## Closing away from the open -/

/-- Complete bars closed away from their open, and a bar in progress spans less than its threshold
around its open. -/
structure Directed (series : RangeSeries) : Prop where
  directed : ∀ bar ∈ series.bars, bar.complete = true → bar.close ≠ bar.openPrice
  progress : ∀ bar ∈ series.bars.getLast?, bar.complete = false →
    bar.high - bar.low < series.lockedThreshold ∧ bar.low ≤ bar.openPrice ∧
      bar.openPrice ≤ bar.high

/-- The thresholds that are locked at these ticks fit in 32 bits. -/
def ThresholdsFit (spec : RangeBarSpec) (ticks : List PriceData) : Prop :=
  ∀ p, p <+: ticks → (unkept spec p).scaledThreshold < 2 ^ 31

/-- A bar that spans its threshold at a price did not before, so the price is a new extreme. -/
theorem absorbed_directed (series : RangeSeries) (price : ℤ) (hopen : bar.complete = false)
    (hspan : bar.high - bar.low < series.lockedThreshold) (hlow : bar.low ≤ bar.openPrice)
    (hhigh : bar.openPrice ≤ bar.high) :
    ((series.absorbed bar price).complete = true →
      (series.absorbed bar price).close ≠ (series.absorbed bar price).openPrice) ∧
    ((series.absorbed bar price).complete = false →
      (series.absorbed bar price).high - (series.absorbed bar price).low < series.lockedThreshold ∧
      (series.absorbed bar price).low ≤ (series.absorbed bar price).openPrice ∧
      (series.absorbed bar price).openPrice ≤ (series.absorbed bar price).high) := by
  have hopenPrice : (bar.absorb price).openPrice = bar.openPrice := rfl
  have hclose : (bar.absorb price).close = price := rfl
  have hflag : (bar.absorb price).complete = false := hopen
  unfold RangeSeries.absorbed
  dsimp only
  split_ifs with hreached
  · refine ⟨fun _ => ?_, False.elim⟩
    rw [OhlcObject.absorb_high, OhlcObject.absorb_low] at hreached
    change price ≠ bar.openPrice
    omega
  · refine ⟨fun h => (Bool.false_ne_true (hflag.symm.trans h)).elim, fun _ => ?_⟩
    rw [OhlcObject.absorb_high, OhlcObject.absorb_low] at *
    omega

theorem Directed.remember (h : Directed series) (hformed : Formed series) (tick : PriceData)
    (hfits : (series.remember tick).scaledThreshold < 2 ^ 31) :
    Directed (series.remember tick) := by
  have hpositive : 1 ≤ (series.remember tick).scaledThreshold := le_max_left _ _
  obtain ⟨-, hnone⟩ | ⟨-, hopened, hlocked⟩ | ⟨front, bar, hbefore, hopen, hafter, hlocked⟩ :=
    remember_cases hformed tick
  · constructor <;> simp [hnone]
  · rw [toInt32_of_small (by omega) hfits] at hlocked
    constructor
    · intro bar hbar hcomplete
      rw [hopened] at hbar
      obtain hold | hnew := List.mem_append.mp hbar
      · exact h.directed bar hold hcomplete
      · rw [List.mem_singleton.mp hnew] at hcomplete
        cases hcomplete
    · intro bar hbar _
      rw [hopened, List.getLast?_concat] at hbar
      cases hbar
      rw [hlocked]
      simp only [OhlcObject.opened]
      omega
  · obtain ⟨hspan, hlow, hhigh⟩ := h.progress bar (by rw [hbefore]; simp) hopen
    have habsorbed : (series.slide tick).lockedThreshold = series.lockedThreshold := rfl
    have hdirected := absorbed_directed (series.slide tick) tick.ask hopen
      (habsorbed ▸ hspan) hlow hhigh
    constructor
    · intro other hother hcomplete
      rw [hafter] at hother
      obtain hold | hnew := List.mem_append.mp hother
      · exact h.directed other (hbefore ▸ List.mem_append_left _ hold) hcomplete
      · rw [List.mem_singleton.mp hnew] at hcomplete ⊢
        exact hdirected.1 hcomplete
    · intro other hother hcomplete
      rw [hafter, List.getLast?_concat] at hother
      cases hother
      rw [hlocked, ← habsorbed]
      exact hdirected.2 hcomplete

/-- No complete bar closed at its open, as long as the thresholds fit. -/
theorem directed_unkept (hfits : ThresholdsFit spec ticks) : Directed (unkept spec ticks) := by
  induction ticks using List.reverseRecOn with
  | nil => constructor <;> simp [unkept, RangeSeries.fresh]
  | append_singleton ticks tick ih =>
    have hlast := hfits _ (List.prefix_refl _)
    rw [unkept_concat] at hlast ⊢
    exact (ih fun p hp => hfits p (hp.trans (List.prefix_append _ _))).remember
      (formed_unkept spec ticks) tick hlast

end RangeBar

end BacktestEngine

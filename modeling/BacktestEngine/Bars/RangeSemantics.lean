import Mathlib.Algebra.Order.Round
import Mathlib.Data.Rat.Floor
import BacktestEngine.Bars.RangeBarBuilder

/-! # What range bars are

The bars of a sequence of ticks, computed naively: at every tick the window's range is taken
afresh and every bar is a list of prices. The series keeps the last of these bars, unless
a threshold is too large for the 32 bits it is locked in.
-/

namespace BacktestEngine

namespace RangeBar

/-- A bar as the tick it opens at and the prices it took in after it, the latest first. -/
structure Segment where
  first : PriceData
  later : List ℤ
  threshold : ℤ

namespace Segment

def high (s : Segment) : ℤ := s.later.foldr max s.first.ask

def low (s : Segment) : ℤ := s.later.foldr min s.first.ask

def close (s : Segment) : ℤ := s.later.headD s.first.ask

/-- The prices span the threshold. -/
def complete (s : Segment) : Bool := s.threshold ≤ s.high - s.low

def extend (s : Segment) (price : ℤ) : Segment := { s with later := price :: s.later }

def toBar (s : Segment) : OhlcObject where
  date := s.first.timestamp
  openPrice := s.first.ask
  close := s.close
  high := s.high
  low := s.low
  complete := s.complete

end Segment

/-- The prices of the window, the latest first. -/
def window (spec : RangeBarSpec) (seen : List PriceData) : List ℤ :=
  (seen.take spec.atrTickWindow.toNat).map PriceData.ask

def windowRange (spec : RangeBarSpec) (seen : List PriceData) : ℤ :=
  match (window spec seen).max?, (window spec seen).min? with
  | some highest, some lowest => highest - lowest
  | _, _ => 0

/-- The threshold of a bar opened at the last tick seen, halves rounded up. -/
def threshold (spec : RangeBarSpec) (seen : List PriceData) : ℤ :=
  max 1 (round (((windowRange spec seen * spec.atrPercent : ℤ) : ℚ) / 100))

/-- What comes of the last bar at the last tick seen. -/
def grow (spec : RangeBarSpec) (tick : PriceData) (before : List PriceData) :
    Option Segment → List Segment
  | none => [⟨tick, [], threshold spec (tick :: before)⟩]
  | some s =>
    if s.complete then [s, ⟨tick, [], threshold spec (tick :: before)⟩]
    else [s.extend tick.ask]

/-- The bars of the ticks seen, which are given the latest first. -/
def scan (spec : RangeBarSpec) : List PriceData → List Segment
  | [] => []
  | tick :: before =>
    if before.length + 1 < spec.atrTickWindow.toNat then []
    else BoundedTail.advance (grow spec tick before) (scan spec before)

variable {spec : RangeBarSpec} {seen before : List PriceData} {tick : PriceData} {s : Segment}
  {price : ℤ}

/-! ## The bars by themselves -/

@[simp] theorem Segment.high_extend : (s.extend price).high = max price s.high := rfl
@[simp] theorem Segment.low_extend : (s.extend price).low = min price s.low := rfl
@[simp] theorem Segment.threshold_extend : (s.extend price).threshold = s.threshold := rfl

theorem Segment.complete_iff : s.complete = true ↔ s.threshold ≤ s.high - s.low := by
  simp [complete]

theorem Segment.toBar_opened {threshold : ℤ} (hthreshold : 1 ≤ threshold) :
    (Segment.mk tick [] threshold).toBar = .opened tick tick.ask := by
  have hcomplete : (Segment.mk tick [] threshold).complete = false := by
    simp [complete, high, low]
    omega
  simp [toBar, hcomplete, high, low, close, OhlcObject.opened]

theorem Segment.toBar_extend :
    (s.extend price).toBar =
      { s.toBar.absorb price with complete := (s.extend price).complete } := by
  simp only [toBar, OhlcObject.absorb, high_extend, low_extend]
  congr 1
  · omega
  · omega

/-- The prices of a bar are between its low and its high. -/
theorem Segment.toBar_bounds (s : Segment) :
    (s.toBar.low ≤ s.toBar.openPrice ∧ s.toBar.openPrice ≤ s.toBar.high) ∧
      s.toBar.low ≤ s.toBar.close ∧ s.toBar.close ≤ s.toBar.high := by
  obtain ⟨first, later, threshold⟩ := s
  simp only [toBar, low, high, close]
  induction later with
  | nil => simp
  | cons price later ih =>
    simp only [List.foldr_cons, List.headD_cons]
    omega

theorem one_le_threshold : 1 ≤ threshold spec seen := le_max_left _ _

theorem grow_ne_nil (last : Option Segment) : grow spec tick before last ≠ [] := by
  unfold grow
  split
  · simp
  · split_ifs <;> simp

theorem scan_cold (h : seen.length < spec.atrTickWindow.toNat) : scan spec seen = [] := by
  cases seen with
  | nil => rfl
  | cons tick before => exact if_pos h

theorem scan_warm (h : spec.atrTickWindow.toNat ≤ before.length + 1) :
    scan spec (tick :: before) = BoundedTail.advance (grow spec tick before) (scan spec before) :=
  if_neg h.not_gt

/-- What a tick does to the bars: nothing while there are too few ticks, a new bar after a
complete one, and a price more in an open one. -/
theorem scan_cons_cases (spec : RangeBarSpec) (tick : PriceData) (before : List PriceData) :
    (scan spec before = [] ∧ scan spec (tick :: before) = []) ∨
    ((∀ s ∈ (scan spec before).getLast?, s.complete = true) ∧
      scan spec (tick :: before) =
        scan spec before ++ [⟨tick, [], threshold spec (tick :: before)⟩]) ∨
    ∃ front s, scan spec before = front ++ [s] ∧ s.complete = false ∧
      scan spec (tick :: before) = front ++ [s.extend tick.ask] := by
  by_cases hcold : before.length + 1 < spec.atrTickWindow.toNat
  · exact .inl ⟨scan_cold (by omega), scan_cold (by simpa using hcold)⟩
  rw [scan_warm (not_lt.mp hcold), BoundedTail.advance]
  cases hscan : scan spec before using List.reverseRecOn with
  | nil => exact .inr (.inl ⟨by simp, by simp [grow]⟩)
  | append_singleton front s =>
    simp only [List.dropLast_concat, List.getLast?_concat, grow]
    cases hcomplete : s.complete with
    | true => exact .inr (.inl ⟨by simp [hcomplete], by simp⟩)
    | false => exact .inr (.inr ⟨front, s, rfl, hcomplete, by simp⟩)

/-- Every bar but the last has spanned its threshold. -/
theorem complete_of_mem_dropLast : ∀ s ∈ (scan spec seen).dropLast, s.complete = true := by
  induction seen with
  | nil => simp [scan]
  | cons tick before ih =>
    rcases scan_cons_cases spec tick before with
      ⟨-, hcold⟩ | ⟨hlast, hopened⟩ | ⟨front, s, hbefore, -, hextended⟩
    · simp [hcold]
    · rw [hopened, List.dropLast_concat]
      cases hbefore : scan spec before using List.reverseRecOn with
      | nil => simp
      | append_singleton front last =>
        rw [hbefore, List.dropLast_concat] at ih
        rw [hbefore, List.getLast?_concat] at hlast
        intro s hs
        rcases List.mem_append.mp hs with hfront | hend
        · exact ih s hfront
        · rw [List.mem_singleton.mp hend]
          exact hlast last rfl
    · rw [hbefore, List.dropLast_concat] at ih
      rwa [hextended, List.dropLast_concat]

/-- A bar completes at the first price that makes it span its threshold. -/
theorem not_complete_before (hs : s ∈ scan spec seen) {later : List ℤ}
    (hlater : s.later = price :: later) : ({ s with later := later } : Segment).complete = false := by
  induction seen with
  | nil => simp [scan] at hs
  | cons tick before ih =>
    rcases scan_cons_cases spec tick before with
      ⟨-, hcold⟩ | ⟨-, hopened⟩ | ⟨front, last, hbefore, hopen, hextended⟩
    · simp [hcold] at hs
    · rw [hopened, List.mem_append, List.mem_singleton] at hs
      rcases hs with hold | rfl
      · exact ih hold
      · cases hlater
    · rw [hextended, List.mem_append, List.mem_singleton] at hs
      rcases hs with hold | rfl
      · exact ih (hbefore ▸ List.mem_append_left _ hold)
      · cases hlater
        exact hopen

/-- The bars that have been completed. -/
def completed (spec : RangeBarSpec) (seen : List PriceData) : ℕ :=
  (scan spec seen).countP Segment.complete

/-- A tick completes at most one bar. -/
theorem completed_cons_le : completed spec (tick :: before) ≤ completed spec before + 1 := by
  unfold completed
  rcases scan_cons_cases spec tick before with
    ⟨-, hcold⟩ | ⟨-, hopened⟩ | ⟨front, s, hbefore, -, hextended⟩
  · simp [hcold]
  · rw [hopened, List.countP_append]
    exact Nat.add_le_add_left List.countP_le_length _
  · rw [hextended, hbefore, List.countP_append, List.countP_append]
    have hlast : [s.extend tick.ask].countP Segment.complete ≤ 1 := List.countP_le_length
    omega

/-! ## The window -/

/-- The prices seen with their positions, the latest first. -/
def stamp : List PriceData → List (ℕ × ℤ)
  | [] => []
  | tick :: before => (before.length + 1, tick.ask) :: stamp before

theorem fst_le_of_mem_stamp {e : ℕ × ℤ} (he : e ∈ stamp seen) : e.1 ≤ seen.length := by
  induction seen with
  | nil => simp [stamp] at he
  | cons tick before ih =>
    rcases List.mem_cons.mp he with rfl | hold
    · simp
    · exact (ih hold).trans (by simp)

theorem since_stamp (cut : ℕ) : MonotoneDeque.since cut (stamp seen) =
    (seen.take (seen.length + 1 - cut)).map PriceData.ask := by
  induction seen with
  | nil => simp [MonotoneDeque.since, stamp]
  | cons tick before ih =>
    simp only [MonotoneDeque.since, stamp, List.filter_cons, List.length_cons] at ih ⊢
    by_cases hcut : cut ≤ before.length + 1
    · have hlength : before.length + 1 + 1 - cut = before.length + 1 - cut + 1 := by omega
      simp [hcut, ih, hlength]
    · have hlength : before.length + 1 + 1 - cut = 0 := by omega
      have hold : before.length + 1 - cut = 0 := by omega
      simp [hcut, ih, hlength, hold]

/-- The first position that counts in the window. -/
def cut (spec : RangeBarSpec) (seen : List PriceData) : ℕ :=
  seen.length + 1 - spec.atrTickWindow.toNat

theorem window_eq :
    MonotoneDeque.since (cut spec seen) (stamp seen) = window spec seen := by
  rw [since_stamp, window, cut]
  by_cases hlength : spec.atrTickWindow.toNat ≤ seen.length + 1
  · rw [Nat.sub_sub_self hlength]
  · rw [List.take_of_length_le (by omega), List.take_of_length_le (by omega)]

theorem windowRange_nonneg : 0 ≤ windowRange spec seen := by
  unfold windowRange
  split
  · next highest lowest hmax hmin =>
    exact sub_nonneg.mpr ((List.min?_eq_some_iff.mp hmin).2 highest
      (List.max?_eq_some_iff.mp hmax).1)
  · exact le_rfl

/-- The division of the code rounds halves up. -/
theorem threshold_eq (hpercent : 1 ≤ spec.atrPercent) :
    threshold spec seen =
      max 1 ((windowRange spec seen * spec.atrPercent + 50).tdiv 100) := by
  have hnonneg : 0 ≤ windowRange spec seen * spec.atrPercent :=
    mul_nonneg windowRange_nonneg (by omega)
  have hhalf : (((windowRange spec seen * spec.atrPercent : ℤ) : ℚ) / 100 + 1 / 2) =
      ((windowRange spec seen * spec.atrPercent + 50 : ℤ) : ℚ) / (100 : ℕ) := by
    push_cast
    ring
  rw [threshold, round_eq, hhalf, Rat.floor_intCast_div_natCast,
    Int.tdiv_eq_ediv_of_nonneg (by omega)]
  rfl

/-! ## The series -/

/-- The series measures the ticks seen, and its threshold is that of the last bar in 32 bits. -/
structure Tracks (spec : RangeBarSpec) (seen : List PriceData) (series : RangeSeries) : Prop where
  spec_eq : series.spec = spec
  index : series.tickIndex = seen.length
  highs : MonotoneDeque.Keeps (· ≤ ·) (cut spec seen) (stamp seen) series.maxDeque
  lows : MonotoneDeque.Keeps (· ≥ ·) (cut spec seen) (stamp seen) series.minDeque
  locked : ∀ s ∈ (scan spec seen).getLast?, series.lockedThreshold = toInt32 s.threshold

/-- The series holds the last of the bars. -/
def Agrees (spec : RangeBarSpec) (seen : List PriceData) (series : RangeSeries) : Prop :=
  series.bars = ((scan spec seen).map Segment.toBar).rtake spec.count.toNat

/-- If a bar is open at a tick that makes it span the threshold as it is locked in 32 bits, then it
spans the threshold itself. -/
def Settles (spec : RangeBarSpec) (before : List PriceData) (tick : PriceData) : Prop :=
  ∀ s ∈ (scan spec before).getLast?, s.complete = false →
    toInt32 s.threshold ≤ (s.extend tick.ask).high - (s.extend tick.ask).low →
    s.threshold ≤ (s.extend tick.ask).high - (s.extend tick.ask).low

variable {series : RangeSeries} {warmUp : WarmUp}

theorem tracks_fresh (spec : RangeBarSpec) : Tracks spec [] (.fresh spec) where
  spec_eq := rfl
  index := rfl
  highs := MonotoneDeque.keeps_nil _ _
  lows := MonotoneDeque.keeps_nil _ _
  locked := by simp [scan]

theorem agrees_fresh (spec : RangeBarSpec) : Agrees spec [] (.fresh spec) := by
  simp [Agrees, RangeSeries.fresh, scan]

theorem expire_eq (window index : ℕ) (deque : List (ℕ × ℤ)) :
    deque.dropWhile (fun e => e.1 + window ≤ index) =
      MonotoneDeque.expire (index + 1 - window) deque := by
  unfold MonotoneDeque.expire
  congr 1
  funext e
  simp only [decide_eq_decide]
  omega

/-- The deques keep the window when it slides over a tick. -/
theorem keeps_slide {r : ℤ → ℤ → Prop} [IsTrans ℤ r] [Std.Total r] [DecidableRel r]
    {deque : List (ℕ × ℤ)}
    (h : MonotoneDeque.Keeps r (cut spec before) (stamp before) deque) (tick : PriceData) :
    MonotoneDeque.Keeps r (cut spec (tick :: before)) (stamp (tick :: before))
      ((MonotoneDeque.push r (before.length + 1, tick.ask) deque).dropWhile
        fun e => e.1 + spec.atrTickWindow.toNat ≤ before.length + 1) := by
  rw [expire_eq]
  apply MonotoneDeque.Keeps.expire
  · apply h.push
    · exact Nat.sub_le _ _
    · intro e he
      exact (fst_le_of_mem_stamp he).trans (Nat.le_succ _)
  · simp only [cut, List.length_cons]
    omega

theorem Tracks.highs_slide (h : Tracks spec before series) (tick : PriceData) :
    MonotoneDeque.Keeps (· ≤ ·) (cut spec (tick :: before)) (stamp (tick :: before))
      (series.slide tick).maxDeque := by
  simpa only [RangeSeries.slide, h.index, h.spec_eq] using keeps_slide h.highs tick

theorem Tracks.lows_slide (h : Tracks spec before series) (tick : PriceData) :
    MonotoneDeque.Keeps (· ≥ ·) (cut spec (tick :: before)) (stamp (tick :: before))
      (series.slide tick).minDeque := by
  simpa only [RangeSeries.slide, h.index, h.spec_eq] using keeps_slide h.lows tick

/-- The fronts of the deques give the range of the window. -/
theorem Tracks.windowRange_slide (h : Tracks spec before series) :
    (series.slide tick).windowRange = windowRange spec (tick :: before) := by
  have hmax := (h.highs_slide tick).max?
  have hmin := (h.lows_slide tick).min?
  rw [window_eq] at hmax hmin
  unfold RangeSeries.windowRange windowRange
  rw [← hmax, ← hmin]
  cases (series.slide tick).maxDeque.head? <;> cases (series.slide tick).minDeque.head? <;> rfl

theorem Tracks.scaledThreshold_slide (h : Tracks spec before series)
    (hpercent : 1 ≤ spec.atrPercent) :
    (series.slide tick).scaledThreshold = threshold spec (tick :: before) := by
  rw [RangeSeries.scaledThreshold, h.windowRange_slide, threshold_eq hpercent,
    RangeSeries.slide_spec, h.spec_eq]

theorem Tracks.warm_slide (h : Tracks spec before series) :
    (series.slide tick).warm = decide (spec.atrTickWindow.toNat ≤ before.length + 1) := by
  rw [RangeSeries.warm, RangeSeries.slide_spec, RangeSeries.slide_tickIndex, h.spec_eq, h.index]

/-- What the code makes of the last bar at a tick. -/
def rolled (series : RangeSeries) (tick : PriceData) : Option OhlcObject → List OhlcObject
  | none => [.opened tick tick.ask]
  | some bar =>
    if bar.complete then [bar, .opened tick tick.ask] else [series.absorbed bar tick.ask]

theorem rolled_ne_nil (last : Option OhlcObject) : rolled series tick last ≠ [] := by
  unfold rolled
  split
  · simp
  · split_ifs <;> simp

/-- The threshold that is locked after a tick. -/
def relocked (series : RangeSeries) : Option OhlcObject → ℤ
  | none => toInt32 series.scaledThreshold
  | some bar =>
    if bar.complete then toInt32 series.scaledThreshold else series.lockedThreshold

/-- A tick that is in the window already changes the bars at their end, and the threshold. -/
theorem roll_eq : series.roll tick = { series with
    bars := BoundedTail.advance (rolled series tick) series.bars
    lockedThreshold := relocked series series.bars.getLast? } := by
  unfold RangeSeries.roll BoundedTail.advance
  cases hbars : series.bars using List.reverseRecOn with
  | nil => simp [RangeSeries.openBar, hbars, rolled, relocked]
  | append_singleton bars last =>
    simp only [List.getLast?_concat, List.dropLast_concat, rolled, relocked]
    split_ifs <;> simp [RangeSeries.openBar, hbars]

theorem toInt32_le {value : ℤ} (h : 1 ≤ value) : toInt32 value ≤ value := by
  by_cases hsmall : value < 2 ^ 31
  · exact (toInt32_of_small (by omega) hsmall).le
  · exact (toInt32_lt (not_lt.mp hsmall)).le

theorem one_le_threshold_of_mem (hs : s ∈ scan spec seen) : 1 ≤ s.threshold := by
  induction seen generalizing s with
  | nil => simp [scan] at hs
  | cons tick before ih =>
    rcases scan_cons_cases spec tick before with
      ⟨-, hcold⟩ | ⟨-, hopened⟩ | ⟨front, last, hbefore, -, hextended⟩
    · simp [hcold] at hs
    · rw [hopened, List.mem_append, List.mem_singleton] at hs
      rcases hs with hold | rfl
      · exact ih hold
      · exact one_le_threshold
    · rw [hextended, List.mem_append, List.mem_singleton] at hs
      rcases hs with hold | rfl
      · exact ih (hbefore ▸ List.mem_append_left _ hold)
      · exact ih (s := last) (hbefore ▸ by simp)

/-- The bar of the code is the bar of the scan unless the locked threshold is too low. -/
theorem absorbed_eq_iff (hopen : s.complete = false) (hthreshold : 1 ≤ s.threshold)
    (hlocked : series.lockedThreshold = toInt32 s.threshold) :
    series.absorbed s.toBar price = (s.extend price).toBar ↔
      (toInt32 s.threshold ≤ (s.extend price).high - (s.extend price).low →
        s.threshold ≤ (s.extend price).high - (s.extend price).low) := by
  have hle := toInt32_le hthreshold
  have hhigh : (s.toBar.absorb price).high = (s.extend price).high := by
    simp [Segment.toBar, max_comm]
  have hlow : (s.toBar.absorb price).low = (s.extend price).low := by
    simp [Segment.toBar, min_comm]
  have hflag : (s.toBar.absorb price).complete = false := by
    simp [OhlcObject.absorb, Segment.toBar, hopen]
  have hreaches : (s.extend price).complete = true ↔
      s.threshold ≤ (s.extend price).high - (s.extend price).low := Segment.complete_iff
  rw [Segment.toBar_extend, RangeSeries.absorbed, hlocked, hhigh, hlow]
  split_ifs with hspans
  · constructor
    · intro h _
      exact hreaches.mp (congrArg OhlcObject.complete h).symm
    · intro h
      rw [hreaches.mpr (h hspans), ← hhigh, ← hlow]
  · have hshort : (s.extend price).complete = false := by
      rw [← Bool.not_eq_true, hreaches]
      omega
    rw [hshort, ← hflag]
    exact iff_of_true rfl fun h => absurd h hspans

theorem Agrees.getLast? (h : Agrees spec before series) (hcount : 1 ≤ spec.count) :
    series.bars.getLast? = (scan spec before).getLast?.map Segment.toBar := by
  rw [h, BoundedTail.getLast?_rtake (by omega), List.getLast?_map]

theorem applyTick_warm (hwarm : (series.slide tick).warm = true) :
    series.applyTick tick = ((series.slide tick).roll tick).keep := by
  simp [RangeSeries.applyTick, hwarm]

theorem applyTick_cold (hcold : (series.slide tick).warm = false) :
    series.applyTick tick = series.slide tick := by
  simp [RangeSeries.applyTick, hcold]

theorem bars_applyTick (hwarm : (series.slide tick).warm = true) (hspec : series.spec = spec)
    (hagrees : Agrees spec before series) (hcount : 1 ≤ spec.count) :
    (series.applyTick tick).bars =
      (BoundedTail.advance (rolled (series.slide tick) tick)
        ((scan spec before).map Segment.toBar)).rtake spec.count.toNat := by
  rw [applyTick_warm hwarm, roll_eq, RangeSeries.keep, RangeSeries.slide_spec,
    RangeSeries.slide_bars, hspec, hagrees, BoundedTail.trim_advance rolled_ne_nil (by omega)]

/-- The bars after a tick are those of the scan again, if and only if the tick settles. -/
theorem agrees_applyTick_iff (h : Tracks spec before series) (hagrees : Agrees spec before series)
    (hcount : 1 ≤ spec.count) :
    Agrees spec (tick :: before) (series.applyTick tick) ↔ Settles spec before tick := by
  by_cases hlength : spec.atrTickWindow.toNat ≤ before.length + 1
  · have hwarm : (series.slide tick).warm = true := by simp [h.warm_slide, hlength]
    rw [Agrees, bars_applyTick hwarm h.spec_eq hagrees hcount, scan_warm hlength, Settles]
    have hlocked := h.locked
    have hpositive : ∀ s ∈ scan spec before, 1 ≤ s.threshold := fun _ => one_le_threshold_of_mem
    cases hscan : scan spec before using List.reverseRecOn with
    | nil => simp [BoundedTail.advance, rolled, grow, Segment.toBar_opened one_le_threshold]
    | append_singleton front s =>
      rw [hscan] at hlocked hpositive
      simp only [BoundedTail.advance, List.map_append, List.map_cons, List.map_nil,
        List.dropLast_concat, List.getLast?_concat, rolled, grow, Option.mem_some_iff,
        forall_eq']
      cases hcomplete : s.complete with
      | true =>
        have hbar : s.toBar.complete = true := hcomplete
        simp [hbar, Segment.toBar_opened one_le_threshold]
      | false =>
        have hbar : s.toBar.complete = false := hcomplete
        obtain ⟨depth, hdepth⟩ : ∃ depth, spec.count.toNat = depth + 1 :=
          Nat.exists_eq_add_one.mpr (by omega)
        simp only [hbar, Bool.false_eq_true, if_false, List.map_cons, List.map_nil, hdepth,
          List.rtake_concat_succ, List.append_cancel_left_eq, List.cons.injEq, and_true,
          forall_const]
        exact absorbed_eq_iff hcomplete (hpositive s (by simp)) (hlocked s (by simp))
  · have hcold : (series.slide tick).warm = false := by simp [h.warm_slide, hlength]
    have hbefore : scan spec before = [] := scan_cold (by omega)
    have hafter : scan spec (tick :: before) = [] := scan_cold (by simp; omega)
    rw [Agrees, hbefore] at hagrees
    rw [Agrees, applyTick_cold hcold, hafter]
    simp [Settles, hagrees, hbefore]

/-- The threshold locked after a tick is the last bar's. -/
theorem locked_applyTick (h : Tracks spec before series) (hagrees : Agrees spec before series)
    (hpercent : 1 ≤ spec.atrPercent) (hcount : 1 ≤ spec.count) :
    ∀ s ∈ (scan spec (tick :: before)).getLast?,
      (series.applyTick tick).lockedThreshold = toInt32 s.threshold := by
  by_cases hlength : spec.atrTickWindow.toNat ≤ before.length + 1
  · have hwarm : (series.slide tick).warm = true := by simp [h.warm_slide, hlength]
    rw [applyTick_warm hwarm, roll_eq, RangeSeries.keep, RangeSeries.slide_bars,
      hagrees.getLast? hcount, scan_warm hlength, BoundedTail.getLast?_advance grow_ne_nil]
    simp only [relocked, h.scaledThreshold_slide hpercent]
    have hlocked := h.locked
    cases hlast : (scan spec before).getLast? with
    | none => simp [grow]
    | some s =>
      cases hcomplete : s.complete with
      | true =>
        have hbar : s.toBar.complete = true := hcomplete
        simp [grow, hcomplete, hbar]
      | false =>
        have hbar : s.toBar.complete = false := hcomplete
        simp [grow, hcomplete, hbar, hlocked s hlast]
  · have hafter : scan spec (tick :: before) = [] := scan_cold (by simp; omega)
    simp [hafter]

theorem applyTick_frame (series : RangeSeries) (tick : PriceData) :
    (series.applyTick tick).spec = series.spec ∧
    (series.applyTick tick).tickIndex = series.tickIndex + 1 ∧
    (series.applyTick tick).maxDeque = (series.slide tick).maxDeque ∧
    (series.applyTick tick).minDeque = (series.slide tick).minDeque := by
  cases hwarm : (series.slide tick).warm with
  | false =>
    rw [applyTick_cold hwarm]
    exact ⟨rfl, rfl, rfl, rfl⟩
  | true =>
    rw [applyTick_warm hwarm, roll_eq]
    exact ⟨rfl, rfl, rfl, rfl⟩

/-- The measure goes on with a tick. -/
theorem Tracks.applyTick (h : Tracks spec before series) (hagrees : Agrees spec before series)
    (hpercent : 1 ≤ spec.atrPercent) (hcount : 1 ≤ spec.count) (tick : PriceData) :
    Tracks spec (tick :: before) (series.applyTick tick) := by
  obtain ⟨hspec, hindex, hhighs, hlows⟩ := applyTick_frame series tick
  constructor
  · rw [hspec, h.spec_eq]
  · rw [hindex, h.index, List.length_cons]
  · rw [hhighs]
    exact h.highs_slide tick
  · rw [hlows]
    exact h.lows_slide tick
  · exact locked_applyTick h hagrees hpercent hcount

/-! ## Runs -/

theorem Tracks.attempted (h : Tracks spec seen series) :
    Tracks spec seen { series with prepopulateAttempted := true } :=
  ⟨h.spec_eq, h.index, h.highs, h.lows, h.locked⟩

theorem agrees_update_iff (hoff : warmUp.prepopulate = false) (h : Tracks spec before series)
    (hagrees : Agrees spec before series) (hcount : 1 ≤ spec.count) :
    Agrees spec (tick :: before) (series.update warmUp tick) ↔ Settles spec before tick := by
  rw [RangeSeries.update_off hoff]
  exact agrees_applyTick_iff h.attempted hagrees hcount

theorem Tracks.update (hoff : warmUp.prepopulate = false) (h : Tracks spec before series)
    (hagrees : Agrees spec before series) (hpercent : 1 ≤ spec.atrPercent)
    (hcount : 1 ≤ spec.count) (tick : PriceData) :
    Tracks spec (tick :: before) (series.update warmUp tick) := by
  rw [RangeSeries.update_off hoff]
  exact h.attempted.applyTick hagrees hpercent hcount tick

/-- A series is right at every moment of a run if and only if every tick of the run settles. -/
theorem agrees_feed_iff (hoff : warmUp.prepopulate = false) (hpercent : 1 ≤ spec.atrPercent)
    (hcount : 1 ≤ spec.count) (ticks : List PriceData) :
    (∀ p, p <+: ticks → Agrees spec p.reverse ((RangeSeries.fresh spec).feed warmUp p)) ↔
      ∀ p tick, p ++ [tick] <+: ticks → Settles spec p.reverse tick := by
  -- the series measures the ticks as long as its bars have been right
  have htracks : ∀ p, (∀ q, q <+: p → Agrees spec q.reverse ((RangeSeries.fresh spec).feed warmUp q)) →
      Tracks spec p.reverse ((RangeSeries.fresh spec).feed warmUp p) := by
    intro p
    induction p using List.reverseRecOn with
    | nil => exact fun _ => tracks_fresh spec
    | append_singleton p tick ih =>
      intro hagrees
      have hbefore := fun q (hq : q <+: p) => hagrees q (hq.trans (List.prefix_append p [tick]))
      rw [List.reverse_concat, RangeSeries.feed, List.foldl_concat]
      exact (ih hbefore).update hoff (hbefore p (List.prefix_refl p)) hpercent hcount tick
  constructor
  · intro hagrees p tick hp
    have hbefore := fun q (hq : q <+: p) =>
      hagrees q ((hq.trans (List.prefix_append p [tick])).trans hp)
    have hafter := hagrees _ hp
    rw [List.reverse_concat, RangeSeries.feed, List.foldl_concat] at hafter
    exact (agrees_update_iff hoff (htracks p hbefore) (hbefore p (List.prefix_refl p)) hcount).mp
      hafter
  · intro hsettles p hp
    suffices hall : ∀ q, q <+: p → Agrees spec q.reverse ((RangeSeries.fresh spec).feed warmUp q) from
      hall p (List.prefix_refl p)
    induction p using List.reverseRecOn with
    | nil =>
      intro q hq
      rw [List.prefix_nil.mp hq]
      exact agrees_fresh spec
    | append_singleton p tick ih =>
      have hbefore := ih ((List.prefix_append p [tick]).trans hp)
      intro q hq
      rcases List.prefix_concat_iff.mp hq with rfl | hq
      · rw [List.reverse_concat, RangeSeries.feed, List.foldl_concat]
        exact (agrees_update_iff hoff (htracks p hbefore) (hbefore p (List.prefix_refl p))
          hcount).mpr (hsettles p tick hp)
      · exact hbefore q hq

/-- What the bars of a series are after the ticks seen. -/
structure Declared (spec : RangeBarSpec) (seen : List PriceData) (bars : List OhlcObject) :
    Prop where
  eq_scan : bars = ((scan spec seen).map Segment.toBar).rtake spec.count.toNat
  complete : ∀ bar ∈ bars.dropLast, bar.complete = true
  bounds : ∀ bar ∈ bars, (bar.low ≤ bar.openPrice ∧ bar.openPrice ≤ bar.high) ∧
    bar.low ≤ bar.close ∧ bar.close ≤ bar.high
  one_a_tick : completed spec seen ≤ completed spec seen.tail + 1

theorem declared_iff : Declared spec seen series.bars ↔ Agrees spec seen series := by
  constructor
  · exact Declared.eq_scan
  · intro h
    have hmem : ∀ bar ∈ series.bars, ∃ s ∈ scan spec seen, s.toBar = bar := by
      intro bar hbar
      rw [h] at hbar
      exact List.mem_map.mp (List.mem_of_mem_drop hbar)
    constructor
    · exact h
    · intro bar hbar
      rw [h, BoundedTail.dropLast_rtake, ← List.map_dropLast] at hbar
      obtain ⟨s, hs, rfl⟩ := List.mem_map.mp (List.mem_of_mem_drop hbar)
      exact complete_of_mem_dropLast s hs
    · intro bar hbar
      obtain ⟨s, -, rfl⟩ := hmem bar hbar
      exact s.toBar_bounds
    · cases seen with
      | nil => simp [completed, scan]
      | cons tick before => exact completed_cons_le

/-- The bars of a series are the declared ones at every moment of a run if and only if every tick
of the run settles. -/
theorem declared_iff_settles (hmake : RangeSeries.make spec = .ok series)
    (hoff : warmUp.prepopulate = false) (ticks : List PriceData) :
    (∀ p, p <+: ticks → Declared spec p.reverse (series.feed warmUp p).bars) ↔
      ∀ p tick, p ++ [tick] <+: ticks → Settles spec p.reverse tick := by
  obtain ⟨rfl, -, hpercent, hcount⟩ := RangeSeries.make_eq_ok hmake
  simp only [declared_iff]
  exact agrees_feed_iff hoff hpercent hcount ticks

/-- Thresholds that 32 bits can hold are no obstacle. -/
theorem settles_of_small (h : ∀ s ∈ scan spec before, s.threshold < 2 ^ 31) :
    Settles spec before tick := by
  intro s hs _ hreaches
  have hmem := List.mem_of_getLast? hs
  have hpositive := one_le_threshold_of_mem hmem
  rwa [toInt32_of_small (by omega) (h s hmem)] at hreaches

/-- A share so large that the threshold of a range of 100000 points does not fit. -/
def steep : RangeBarSpec := ⟨2, 4294968, 3⟩

def steepTicks : List PriceData :=
  [⟨0, 0, 0, "EURUSD"⟩, ⟨100000, 100000, 1, "EURUSD"⟩, ⟨100704, 100704, 2, "EURUSD"⟩]

theorem declared_iff_settles_steep :
    (∀ p, p <+: steepTicks → Declared steep p.reverse ((RangeSeries.fresh steep).feed .off p).bars) ↔
      ∀ p tick, p ++ [tick] <+: steepTicks → Settles steep p.reverse tick :=
  declared_iff_settles rfl rfl steepTicks

/-- A rise of 704 points completes a bar whose threshold is above four thousand million. -/
theorem not_declared_steep :
    ¬ Declared steep steepTicks.reverse ((RangeSeries.fresh steep).feed .off steepTicks).bars := by
  intro h
  have := h.eq_scan
  revert this
  decide +kernel

end RangeBar

end BacktestEngine

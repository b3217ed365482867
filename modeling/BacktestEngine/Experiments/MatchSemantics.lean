import BacktestEngine.Experiments.ChainMatcher

/-! # What the matcher counts

The meaning of a chain, without any deque: every condition is worked out from the list
of ticks seen since the last match, the newest first. A later leg looks back at its
anchor and at the ticks seen by then, an attempt at the ticks that followed its start.
-/

namespace BacktestEngine

namespace Experiments

/-! ## The trailing window -/

/-- The ticks no older than the window. -/
def inWindow (window now : ℤ) (seen : List MidTick) : List MidTick :=
  seen.filter fun tick => now - window ≤ tick.ts

/-- The greatest price in the window of the newest tick. -/
def highest (window : ℤ) : List MidTick → Option ℤ
  | [] => none
  | tick :: before => ((inWindow window tick.ts (tick :: before)).map MidTick.mid).max?

def lowest (window : ℤ) : List MidTick → Option ℤ
  | [] => none
  | tick :: before => ((inWindow window tick.ts (tick :: before)).map MidTick.mid).min?

/-- The greatest price in the window of the newest tick, that tick left out. -/
def priorHighest (window : ℤ) : List MidTick → Option ℤ
  | [] => none
  | tick :: before => ((inWindow window tick.ts before).map MidTick.mid).max?

def priorLowest (window : ℤ) : List MidTick → Option ℤ
  | [] => none
  | tick :: before => ((inWindow window tick.ts before).map MidTick.mid).min?

def highLowRange (window : ℤ) (seen : List MidTick) : Option ℤ := do
  let high ← highest window seen
  let low ← lowest window seen
  return high - low

/-- The gap before the newest tick; the first tick comes after an infinite one. -/
def gapBefore : List MidTick → WithTop ℤ
  | tick :: previous :: _ => ((tick.ts - previous.ts : ℤ) : WithTop ℤ)
  | _ => ⊤

/-- Every tick's time with the gap before it. -/
def gaps : List MidTick → List (ℤ × WithTop ℤ)
  | [] => []
  | tick :: before => (tick.ts, gapBefore (tick :: before)) :: gaps before

/-- No tick of the window comes after a gap as long as the window. -/
def coveredWindow (window : ℤ) : List MidTick → Bool
  | [] => false
  | tick :: before =>
    (gaps (tick :: before)).all fun gap => tick.ts - window ≤ gap.1 → gap.2 < (window : WithTop ℤ)

/-! ## Conditions -/

variable {D : Type} [Rounding D]

namespace Activity

variable (activity : Activity D)

omit [Rounding D] in
/-- How long a leg has to complete, and how far back its move is measured as the first leg. -/
def moveWindow : ℤ := activity.windowSeconds * second

omit [Rounding D] in
/-- How far back the basis of a leg is measured; a band falls back to the other window. -/
def basisWindow : ℤ :=
  match activity.type with
  | .staysInBand =>
    (if activity.lookbackSeconds > 0 then activity.lookbackSeconds else activity.windowSeconds) *
      second
  | _ => activity.lookbackSeconds * second

/-- The condition of a leg whose move is measured from `high` and from `low`; the range of a
relative move is that of the ticks in `basis`. -/
def condition (high low : Option ℤ) (basis seen : List MidTick) (cur : ℤ) : Bool :=
  match activity.type with
  | .directionalMove =>
    if isNegative activity.movePercent then
      high.any fun high => fellBy (scaled (Rounding.abs activity.movePercent)) high cur
    else low.any fun low => roseBy (scaled (Rounding.abs activity.movePercent)) low cur
  | .staysInBand =>
    coveredWindow activity.basisWindow seen &&
      (highLowRange activity.basisWindow seen).any fun range =>
        range * 100000000 ≤ cur * scaled (Rounding.abs activity.movePercent)
  | .newExtreme =>
    coveredWindow activity.basisWindow seen &&
      if activity.direction > 0 then
        (priorHighest activity.basisWindow seen).any fun high => cur > high
      else (priorLowest activity.basisWindow seen).any fun low => cur < low
  | .rangeRelativeMove =>
    coveredWindow activity.basisWindow basis &&
      (highLowRange activity.basisWindow basis).any fun range =>
        if activity.direction < 0 then
          high.any fun high => high - cur ≥ rangeThreshold range (scaled activity.atrMultiple)
        else low.any fun low => cur - low ≥ rangeThreshold range (scaled activity.atrMultiple)

/-- The first leg rolls: its move is measured from the extremes of the window. -/
def holdsRolling (seen : List MidTick) (cur : ℤ) : Bool :=
  activity.condition (highest activity.moveWindow seen) (lowest activity.moveWindow seen) seen seen
    cur

/-- A later leg is measured from its anchor, and against the range as it was there. -/
def holdsAnchored (anchor : MidTick) (before seen : List MidTick) (cur : ℤ) : Bool :=
  activity.condition (some anchor.mid) (some anchor.mid) (anchor :: before) seen cur

end Activity

/-! ## Attempts -/

/-- The tick that completed the first leg, and the ticks after it, the newest first. -/
structure Attempt where
  start : MidTick
  followed : List MidTick
  deriving DecidableEq

namespace Attempt

def above (attempt : Attempt) : ℤ :=
  (attempt.followed.map fun tick => tick.mid - attempt.start.mid).foldr max 0

def below (attempt : Attempt) : ℤ :=
  (attempt.followed.map fun tick => attempt.start.mid - tick.mid).foldr max 0

def sample (attempt : Attempt) : ExcursionSample :=
  ⟨attempt.above, attempt.below, attempt.start.mid⟩

def seconds (attempt : Attempt) (now : ℤ) : ℤ := (now - attempt.start.ts).tdiv second

def follow (attempt : Attempt) (tick : MidTick) : Attempt :=
  { attempt with followed := tick :: attempt.followed }

end Attempt

/-! ## The reference matcher -/

/-- The first leg is looked for, or a later one from its anchor and the ticks before that. -/
inductive Phase
  | scanning
  | seeking (leg : ℕ) (anchor : MidTick) (before : List MidTick) (attempt : Attempt)
  deriving DecidableEq

/-- The ticks seen since the last match, the newest first, and what was counted. -/
structure Reference where
  seen : List MidTick
  phase : Phase
  stats : MatchStats
  deriving DecidableEq

namespace Reference

variable (chain : List (Activity D)) (maxSamples : ℕ)

omit [Rounding D] in
def start : Reference := ⟨[], .scanning, { failuresByLeg := List.replicate chain.length 0 }⟩

omit [Rounding D] in
/-- A leg is completed: the chain matched and nothing from before counts any more, or the tick
anchors the next leg. -/
def complete (before : List MidTick) (leg : ℕ) (attempt : Attempt) (stats : MatchStats)
    (tick : MidTick) : Reference :=
  if leg + 1 = chain.length then
    ⟨[], .scanning,
      stats.occurred.record maxSamples true attempt.sample (attempt.seconds tick.ts)⟩
  else ⟨tick :: before, .seeking (leg + 1) tick before attempt, stats⟩

/-- Look for the first leg, which begins an attempt. -/
def scan (before : List MidTick) (stats : MatchStats) (tick : MidTick) : Reference :=
  if chain.head?.any fun activity => activity.holdsRolling (tick :: before) tick.mid then
    complete chain maxSamples before 0 ⟨tick, []⟩ (stats.began tick.spread) tick
  else ⟨tick :: before, .scanning, stats⟩

def step (reference : Reference) (tick : MidTick) : Reference :=
  match reference.phase with
  | .scanning => scan chain maxSamples reference.seen reference.stats tick
  | .seeking leg anchor before attempt =>
    let attempt := attempt.follow tick
    match chain[leg]? with
    | none => ⟨tick :: reference.seen, .seeking leg anchor before attempt, reference.stats⟩
    | some activity =>
      if tick.ts - anchor.ts > activity.moveWindow then
        scan chain maxSamples reference.seen
          ((reference.stats.record maxSamples false attempt.sample (attempt.seconds tick.ts)).failed
            leg) tick
      else if activity.holdsAnchored anchor before (tick :: reference.seen) tick.mid then
        complete chain maxSamples reference.seen leg attempt reference.stats tick
      else ⟨tick :: reference.seen, .seeking leg anchor before attempt, reference.stats⟩

def run (ticks : List MidTick) : Reference := ticks.foldl (step chain maxSamples) (start chain)

end Reference

/-! ## Trackers -/

/-- What a tracker knows after the ticks seen. -/
structure Tracker.Measures (tracker : Tracker) (window : ℤ) (seen : List MidTick) : Prop where
  window_eq : tracker.window = window
  lastTick : tracker.lastTick = seen.head?.map MidTick.ts
  preMax : tracker.preMax = priorHighest window seen
  preMin : tracker.preMin = priorLowest window seen
  maxKeeps : ∀ cut, (∀ tick ∈ seen.head?, cut = tick.ts - window) →
    MonotoneDeque.Keeps (· ≤ ·) cut (seen.map fun tick => (tick.ts, tick.mid)) tracker.maxDeque
  minKeeps : ∀ cut, (∀ tick ∈ seen.head?, cut = tick.ts - window) →
    MonotoneDeque.Keeps (· ≥ ·) cut (seen.map fun tick => (tick.ts, tick.mid)) tracker.minDeque
  gapKeeps : ∀ cut, (∀ tick ∈ seen.head?, cut = tick.ts - window) →
    MonotoneDeque.Keeps (· ≤ ·) cut (gaps seen) tracker.gapDeque

namespace Tracker.Measures

variable {tracker : Tracker} {window : ℤ} {seen : List MidTick} {tick : MidTick}

theorem fresh (window : ℤ) : Measures { window := window } window [] where
  window_eq := rfl
  lastTick := rfl
  preMax := rfl
  preMin := rfl
  maxKeeps cut _ := MonotoneDeque.keeps_nil _ cut
  minKeeps cut _ := MonotoneDeque.keeps_nil _ cut
  gapKeeps cut _ := MonotoneDeque.keeps_nil _ cut

theorem reset (h : tracker.Measures window seen) : tracker.reset.Measures window [] := by
  rw [Tracker.reset, h.window_eq]
  exact fresh window

theorem times_gaps {seen : List MidTick} : ∀ gap ∈ gaps seen, ∃ tick ∈ seen, gap.1 = tick.ts := by
  induction seen with
  | nil => exact fun _ h => (List.not_mem_nil h).elim
  | cons tick before ih =>
    intro gap h
    rcases List.mem_cons.mp h with rfl | hbefore
    · exact ⟨tick, List.mem_cons_self, rfl⟩
    · obtain ⟨earlier, hmem, htime⟩ := ih gap hbefore
      exact ⟨earlier, List.mem_cons_of_mem tick hmem, htime⟩

theorem since_entries (cut : ℤ) (seen : List MidTick) :
    MonotoneDeque.since cut (seen.map fun tick => (tick.ts, tick.mid)) =
      (seen.filter fun tick => cut ≤ tick.ts).map MidTick.mid := by
  simp [MonotoneDeque.since, List.filter_map, Function.comp_def]

/-- A deque follows the window to a later tick. -/
theorem keeps_expire {α : Type} {r : α → α → Prop} {fed deque : List (ℤ × α)}
    (h : ∀ cut, (∀ tick ∈ seen.head?, cut = tick.ts - window) →
      MonotoneDeque.Keeps r cut fed deque) {now : ℤ} (hnow : ∀ earlier ∈ seen, earlier.ts ≤ now) :
    MonotoneDeque.Keeps r (now - window) fed (MonotoneDeque.expire (now - window) deque) := by
  cases seen with
  | nil => exact (h (now - window) nofun).expire le_rfl
  | cons last before =>
    have hlast := hnow last List.mem_cons_self
    refine (h (last.ts - window) ?_).expire (by omega)
    intro tick htick
    rw [Option.mem_some.mp htick]

/-- The gap a tick is fed with is the gap before it. -/
theorem gapBefore_eq (h : tracker.Measures window seen) (tick : MidTick) :
    (match tracker.lastTick with
      | none => ⊤
      | some last => ((tick.ts - last : ℤ) : WithTop ℤ)) = gapBefore (tick :: seen) := by
  rw [h.lastTick]
  cases seen with
  | nil => rfl
  | cons last seen => rfl

/-- Feeding a tracker a tick no earlier than those before it. -/
theorem feed (h : tracker.Measures window seen) (hwindow : 0 ≤ window)
    (hnow : ∀ earlier ∈ seen, earlier.ts ≤ tick.ts) :
    (tracker.feed tick.ts tick.mid).Measures window (tick :: seen) := by
  have hcut : ∀ cut, (∀ last ∈ (tick :: seen).head?, cut = last.ts - window) →
      cut = tick.ts - window := fun cut hlast => hlast tick rfl
  have hentries : ∀ e ∈ seen.map fun tick => (tick.ts, tick.mid), e.1 ≤ tick.ts := by
    intro e he
    obtain ⟨earlier, hmem, rfl⟩ := List.mem_map.mp he
    exact hnow earlier hmem
  have hmax := keeps_expire h.maxKeeps hnow
  have hmin := keeps_expire h.minKeeps hnow
  have hgap := keeps_expire h.gapKeeps hnow
  rw [← h.window_eq] at hmax hmin hgap hcut hwindow
  constructor
  · exact h.window_eq
  · rfl
  · have hprior := hmax.max?
    rw [since_entries, h.window_eq] at hprior
    rw [Tracker.feed, h.window_eq]
    exact hprior
  · have hprior := hmin.min?
    rw [since_entries, h.window_eq] at hprior
    rw [Tracker.feed, h.window_eq]
    exact hprior
  · intro cut hlast
    rw [hcut cut (h.window_eq ▸ hlast)]
    exact hmax.push (show tick.ts - tracker.window ≤ tick.ts by omega) hentries
  · intro cut hlast
    rw [hcut cut (h.window_eq ▸ hlast)]
    exact hmin.push (show tick.ts - tracker.window ≤ tick.ts by omega) hentries
  · intro cut hlast
    rw [hcut cut (h.window_eq ▸ hlast)]
    rw [gaps, ← h.gapBefore_eq tick]
    refine hgap.push (by omega) fun e he => ?_
    obtain ⟨earlier, hmem, htime⟩ := times_gaps e he
    rw [htime]
    exact hnow earlier hmem

/-! ### What a tracker answers -/

theorem max_eq (h : tracker.Measures window seen) : tracker.max = highest window seen := by
  cases seen with
  | nil =>
    have hkeeps := (h.maxKeeps 0 nofun).max?
    exact hkeeps
  | cons tick before =>
    have hkeeps := (h.maxKeeps (tick.ts - window) fun _ ht => by rw [Option.mem_some.mp ht]).max?
    rw [since_entries] at hkeeps
    exact hkeeps

theorem min_eq (h : tracker.Measures window seen) : tracker.min = lowest window seen := by
  cases seen with
  | nil =>
    have hkeeps := (h.minKeeps 0 nofun).min?
    exact hkeeps
  | cons tick before =>
    have hkeeps := (h.minKeeps (tick.ts - window) fun _ ht => by rw [Option.mem_some.mp ht]).min?
    rw [since_entries] at hkeeps
    exact hkeeps

theorem range_eq (h : tracker.Measures window seen) :
    tracker.range = highLowRange window seen := by
  rw [Tracker.range, highLowRange, h.max_eq, h.min_eq]

/-- The front of the gaps is the greatest, so it alone decides whether the window is covered. -/
theorem covered_eq (h : tracker.Measures window seen) (hwindow : 0 ≤ window) :
    tracker.covered = coveredWindow window seen := by
  rw [Tracker.covered, h.window_eq]
  cases seen with
  | nil =>
    rw [(h.gapKeeps 0 nofun).max?]
    rfl
  | cons tick before =>
    rw [(h.gapKeeps (tick.ts - window) fun _ ht => by rw [Option.mem_some.mp ht]).max?]
    have hself : gapBefore (tick :: before) ∈
        MonotoneDeque.since (tick.ts - window) (gaps (tick :: before)) :=
      MonotoneDeque.mem_since.mpr ⟨_, List.mem_cons_self, show _ ≤ tick.ts by omega, rfl⟩
    obtain ⟨widest, hwidest⟩ := Option.isSome_iff_exists.mp (List.isSome_max?_of_mem hself)
    obtain ⟨hmem, hbest⟩ := List.max?_eq_some_iff.mp hwidest
    rw [hwidest, Option.any_some, Bool.eq_iff_iff, decide_eq_true_iff, coveredWindow,
      List.all_eq_true]
    simp only [decide_eq_true_eq]
    constructor
    · intro hshort gap hgap hrecent
      exact (hbest gap.2 (MonotoneDeque.mem_since.mpr ⟨gap, hgap, hrecent, rfl⟩)).trans_lt hshort
    · intro hall
      obtain ⟨gap, hgap, hrecent, rfl⟩ := MonotoneDeque.mem_since.mp hmem
      exact hall gap hgap hrecent

end Tracker.Measures

/-! ## Legs -/

/-- A leg made for the activity, its trackers fed the ticks seen. -/
structure LegFor (activity : Activity D) (index : ℕ) (seen : List MidTick) (leg : LegRuntime) :
    Prop where
  type_eq : leg.type = activity.type
  window_eq : leg.window = activity.moveWindow
  percent : activity.type = .directionalMove ∨ activity.type = .staysInBand →
    leg.pctScaled = scaled (Rounding.abs activity.movePercent)
  negative : activity.type = .directionalMove → leg.negativeMove = isNegative activity.movePercent
  direction : activity.type = .newExtreme ∨ activity.type = .rangeRelativeMove →
    leg.direction = activity.direction
  multiple : activity.type = .rangeRelativeMove → leg.atrScaled = scaled activity.atrMultiple
  move : index = 0 → activity.type = .directionalMove ∨ activity.type = .rangeRelativeMove →
    0 ≤ activity.moveWindow ∧
      ∃ roll, leg.moveTracker = some roll ∧ roll.Measures activity.moveWindow seen
  basis : activity.type ≠ .directionalMove → 0 ≤ activity.basisWindow ∧
    ∃ basis, leg.basisTracker = some basis ∧ basis.Measures activity.basisWindow seen

omit [Rounding D] in
theorem requirePositive_ok {activity : Activity D} {index : ℕ} {value : ℤ} {field : String}
    (h : requirePositive activity index value field = .ok ()) : 0 ≤ value * second := by
  unfold requirePositive at h
  split at h
  · cases h
  · unfold second
    omega

theorem bind_ok {ε α β : Type} {x : Except ε α} {f : α → Except ε β} {b : β}
    (h : x >>= f = .ok b) : ∃ a, x = .ok a ∧ f a = .ok b := by
  cases x with
  | error e => cases h
  | ok a => exact ⟨a, rfl, h⟩

/-- The leg of a valid activity carries its thresholds and windows, with trackers still empty. -/
theorem makeLeg_legFor {activity : Activity D} {index : ℕ} {leg : LegRuntime}
    (h : makeLeg activity index = .ok leg) : LegFor activity index [] leg := by
  unfold makeLeg at h
  cases htype : activity.type with
  | directionalMove =>
    simp only [htype] at h
    split at h
    · cases h
    · obtain ⟨_, hmove, h⟩ := bind_ok h
      cases h
      refine ⟨htype.symm, rfl, fun _ => rfl, fun _ => rfl, by simp [htype], by simp [htype],
        fun hindex _ => ⟨requirePositive_ok hmove, _, if_pos hindex, .fresh _⟩, by simp [htype]⟩
  | staysInBand =>
    simp only [htype] at h
    split at h
    · cases h
    · obtain ⟨_, hbasis, h⟩ := bind_ok h
      obtain ⟨_, -, h⟩ := bind_ok h
      cases h
      have hwindow : activity.basisWindow = (if activity.lookbackSeconds > 0 then
          activity.lookbackSeconds else activity.windowSeconds) * second := by
        rw [Activity.basisWindow, htype]
      refine ⟨htype.symm, rfl, fun _ => rfl, by simp [htype], by simp [htype], by simp [htype],
        by simp [htype], fun _ => ?_⟩
      rw [hwindow]
      exact ⟨requirePositive_ok hbasis, _, rfl, .fresh _⟩
  | newExtreme =>
    simp only [htype] at h
    obtain ⟨_, hbasis, h⟩ := bind_ok h
    obtain ⟨_, -, h⟩ := bind_ok h
    obtain ⟨_, -, h⟩ := bind_ok h
    cases h
    have hwindow : activity.basisWindow = activity.lookbackSeconds * second := by
      rw [Activity.basisWindow, htype]
    refine ⟨htype.symm, rfl, by simp [htype], by simp [htype], fun _ => rfl, by simp [htype],
      by simp [htype], fun _ => ?_⟩
    rw [hwindow]
    exact ⟨requirePositive_ok hbasis, _, rfl, .fresh _⟩
  | rangeRelativeMove =>
    simp only [htype] at h
    obtain ⟨_, hbasis, h⟩ := bind_ok h
    obtain ⟨_, hmove, h⟩ := bind_ok h
    obtain ⟨_, -, h⟩ := bind_ok h
    split at h
    · cases h
    · cases h
      have hwindow : activity.basisWindow = activity.lookbackSeconds * second := by
        rw [Activity.basisWindow, htype]
      refine ⟨htype.symm, rfl, by simp [htype], by simp [htype], fun _ => rfl, fun _ => rfl,
        fun hindex _ => ⟨requirePositive_ok hmove, _, if_pos hindex, .fresh _⟩, fun _ => ?_⟩
      rw [hwindow]
      exact ⟨requirePositive_ok hbasis, _, rfl, .fresh _⟩

namespace LegFor

variable {activity : Activity D} {index : ℕ} {seen before : List MidTick} {leg : LegRuntime}
  {tick anchor : MidTick} {cur : ℤ}

theorem feed (h : LegFor activity index seen leg) (hnow : ∀ earlier ∈ seen, earlier.ts ≤ tick.ts) :
    LegFor activity index (tick :: seen) (leg.feed tick) where
  type_eq := h.type_eq
  window_eq := h.window_eq
  percent := h.percent
  negative := h.negative
  direction := h.direction
  multiple := h.multiple
  move hindex htype := by
    obtain ⟨hwindow, roll, hroll, hmeasures⟩ := h.move hindex htype
    exact ⟨hwindow, _, congrArg (Option.map _) hroll, hmeasures.feed hwindow hnow⟩
  basis htype := by
    obtain ⟨hwindow, basis, hbasis, hmeasures⟩ := h.basis htype
    exact ⟨hwindow, _, congrArg (Option.map _) hbasis, hmeasures.feed hwindow hnow⟩

theorem reset (h : LegFor activity index seen leg) : LegFor activity index [] leg.reset where
  type_eq := h.type_eq
  window_eq := h.window_eq
  percent := h.percent
  negative := h.negative
  direction := h.direction
  multiple := h.multiple
  move hindex htype := by
    obtain ⟨hwindow, roll, hroll, hmeasures⟩ := h.move hindex htype
    exact ⟨hwindow, _, congrArg (Option.map _) hroll, hmeasures.reset⟩
  basis htype := by
    obtain ⟨hwindow, basis, hbasis, hmeasures⟩ := h.basis htype
    exact ⟨hwindow, _, congrArg (Option.map _) hbasis, hmeasures.reset⟩

end LegFor

/-- The legs of a matcher, one for each activity of the chain. -/
structure Aligned (chain : List (Activity D)) (seen : List MidTick) (legs : List LegRuntime) :
    Prop where
  length_eq : legs.length = chain.length
  leg : ∀ index activity, chain[index]? = some activity →
    ∃ leg, legs[index]? = some leg ∧ LegFor activity index seen leg

namespace Aligned

variable {chain : List (Activity D)} {seen : List MidTick} {legs : List LegRuntime}

theorem feed {tick : MidTick} (h : Aligned chain seen legs)
    (hnow : ∀ earlier ∈ seen, earlier.ts ≤ tick.ts) :
    Aligned chain (tick :: seen) (legs.map fun leg => leg.feed tick) where
  length_eq := by rw [List.length_map, h.length_eq]
  leg index activity hactivity := by
    obtain ⟨leg, hleg, hfor⟩ := h.leg index activity hactivity
    exact ⟨leg.feed tick, by rw [List.getElem?_map, hleg, Option.map_some], hfor.feed hnow⟩

theorem reset (h : Aligned chain seen legs) : Aligned chain [] (legs.map LegRuntime.reset) where
  length_eq := by rw [List.length_map, h.length_eq]
  leg index activity hactivity := by
    obtain ⟨leg, hleg, hfor⟩ := h.leg index activity hactivity
    exact ⟨leg.reset, by rw [List.getElem?_map, hleg, Option.map_some], hfor.reset⟩

end Aligned

theorem makeLegs_aligned {chain : List (Activity D)} : ∀ {first : ℕ} {legs : List LegRuntime},
    makeLegs first chain = .ok legs → legs.length = chain.length ∧
      ∀ index activity, chain[index]? = some activity →
        ∃ leg, legs[index]? = some leg ∧ LegFor activity (first + index) [] leg := by
  induction chain with
  | nil =>
    intro first legs h
    cases h
    exact ⟨rfl, fun _ _ hactivity => by cases hactivity⟩
  | cons activity chain ih =>
    intro first legs h
    obtain ⟨leg, hleg, h⟩ := bind_ok h
    obtain ⟨rest, hrest, h⟩ := bind_ok h
    cases h
    obtain ⟨hlength, hlegs⟩ := ih hrest
    refine ⟨by rw [List.length_cons, List.length_cons, hlength], fun index other hother => ?_⟩
    cases index with
    | zero =>
      cases hother
      exact ⟨leg, rfl, makeLeg_legFor hleg⟩
    | succ index =>
      obtain ⟨found, hfound, hfor⟩ := hlegs index other hother
      exact ⟨found, hfound, by rwa [Nat.add_right_comm] at hfor⟩

/-! ## Conditions on the trackers -/

theorem exists_highLowRange {window : ℤ} (hwindow : 0 ≤ window) (tick : MidTick)
    (before : List MidTick) : ∃ range, highLowRange window (tick :: before) = some range := by
  have hself : tick.mid ∈ (inWindow window tick.ts (tick :: before)).map MidTick.mid := by
    refine List.mem_map_of_mem (List.mem_filter.mpr ⟨List.mem_cons_self, ?_⟩)
    exact decide_eq_true (by omega)
  obtain ⟨high, hhigh⟩ := Option.isSome_iff_exists.mp (List.isSome_max?_of_mem hself)
  obtain ⟨low, hlow⟩ := Option.isSome_iff_exists.mp (List.isSome_min?_of_mem hself)
  exact ⟨high - low, by rw [highLowRange, highest, lowest, hhigh, hlow]; rfl⟩

namespace ChainMatcher

variable {chain : List (Activity D)} {seen before : List MidTick} {matcher : ChainMatcher}
  {activity : Activity D} {anchor : MidTick} {cur : ℤ}

/-- The first leg's condition, read off its trackers, is the one on the ticks. -/
theorem conditionHolds_rolling (h : Aligned chain seen matcher.legs)
    (hfirst : chain[0]? = some activity) :
    matcher.conditionHolds 0 cur = activity.holdsRolling seen cur := by
  obtain ⟨leg, hleg, hfor⟩ := h.leg 0 activity hfirst
  rw [conditionHolds, hleg, Activity.holdsRolling, Activity.condition]
  dsimp only
  rw [hfor.type_eq]
  cases htype : activity.type with
  | directionalMove =>
    obtain ⟨-, roll, hroll, hmove⟩ := hfor.move rfl (.inl htype)
    simp only [hroll, Option.any_some, ↓reduceIte, hmove.max_eq, hmove.min_eq,
      hfor.negative htype, hfor.percent (.inl htype)]
  | staysInBand =>
    obtain ⟨hwindow, basis, hbasis, hmeasures⟩ := hfor.basis (by simp [htype])
    simp only [hbasis, Option.any_some, hmeasures.covered_eq hwindow, hmeasures.range_eq,
      hfor.percent (.inr htype)]
  | newExtreme =>
    obtain ⟨hwindow, basis, hbasis, hmeasures⟩ := hfor.basis (by simp [htype])
    simp only [hbasis, Option.any_some, hmeasures.covered_eq hwindow, hmeasures.preMax,
      hmeasures.preMin, hfor.direction (.inl htype)]
  | rangeRelativeMove =>
    obtain ⟨hwindow, basis, hbasis, hmeasures⟩ := hfor.basis (by simp [htype])
    obtain ⟨-, roll, hroll, hmove⟩ := hfor.move rfl (.inr htype)
    simp only [hbasis, hroll, Option.any_some, ↓reduceIte, hmeasures.covered_eq hwindow,
      hmeasures.range_eq, hmove.max_eq, hmove.min_eq, hfor.direction (.inr htype),
      hfor.multiple htype]

/-- The threshold a matcher has frozen is the one of the range in the basis. -/
def Frozen (activity : Activity D) (basis : List MidTick) (matcher : ChainMatcher) : Prop :=
  activity.type = .rangeRelativeMove →
    matcher.anchorThresholdValid = coveredWindow activity.basisWindow basis ∧
      ∀ range, highLowRange activity.basisWindow basis = some range →
        coveredWindow activity.basisWindow basis = true →
        matcher.anchorThreshold = rangeThreshold range (scaled activity.atrMultiple)

/-- A later leg's condition is the one from its anchor. -/
theorem conditionHolds_anchored (h : Aligned chain seen matcher.legs) {leg : ℕ} (hlater : 0 < leg)
    (hactivity : chain[leg]? = some activity) (hanchor : matcher.anchorMid = anchor.mid)
    (hfrozen : Frozen activity (anchor :: before) matcher) :
    matcher.conditionHolds leg cur = activity.holdsAnchored anchor before seen cur := by
  obtain ⟨runtime, hleg, hfor⟩ := h.leg leg activity hactivity
  rw [conditionHolds, hleg, Activity.holdsAnchored, Activity.condition]
  dsimp only
  rw [hfor.type_eq]
  cases htype : activity.type with
  | directionalMove =>
    simp only [hlater.ne', Option.any_some, ↓reduceIte, hanchor, hfor.negative htype,
      hfor.percent (.inl htype)]
  | staysInBand =>
    obtain ⟨hwindow, basis, hbasis, hmeasures⟩ := hfor.basis (by simp [htype])
    simp only [hbasis, Option.any_some, hmeasures.covered_eq hwindow, hmeasures.range_eq,
      hfor.percent (.inr htype)]
  | newExtreme =>
    obtain ⟨hwindow, basis, hbasis, hmeasures⟩ := hfor.basis (by simp [htype])
    simp only [hbasis, Option.any_some, hmeasures.covered_eq hwindow, hmeasures.preMax,
      hmeasures.preMin, hfor.direction (.inl htype)]
  | rangeRelativeMove =>
    obtain ⟨hwindow, -⟩ := hfor.basis (by simp [htype])
    obtain ⟨range, hrange⟩ := exists_highLowRange hwindow anchor before
    obtain ⟨hvalid, hthreshold⟩ := hfrozen htype
    simp only [hlater.ne', ↓reduceIte, hvalid, hrange, Option.any_some, hanchor,
      hfor.direction (.inr htype)]
    cases hcovered : coveredWindow activity.basisWindow (anchor :: before) with
    | false => rfl
    | true => simp only [hthreshold range hrange hcovered]

/-! ## The simulation -/

/-- The recorder of the attempt in flight. -/
structure Records (matcher : ChainMatcher) (attempt : Attempt) : Prop where
  mid : matcher.attemptAnchorMid = attempt.start.mid
  ts : matcher.attemptAnchorTs = attempt.start.ts
  above : matcher.attemptAbove = attempt.above
  below : matcher.attemptBelow = attempt.below

/-- The matcher is where the phase says. -/
inductive InPhase (chain : List (Activity D)) (matcher : ChainMatcher) : Phase → Prop
  | scanning (hactive : matcher.active = 0) : InPhase chain matcher .scanning
  | seeking (anchor : MidTick) (before : List MidTick) (attempt : Attempt)
    (hlater : 0 < matcher.active) (hbound : matcher.active < chain.length)
    (hmid : matcher.anchorMid = anchor.mid) (hts : matcher.anchorTs = anchor.ts)
    (hrecords : Records matcher attempt)
    (hfrozen : ∀ activity, chain[matcher.active]? = some activity →
      Frozen activity (anchor :: before) matcher) :
    InPhase chain matcher (.seeking matcher.active anchor before attempt)

structure Simulates (chain : List (Activity D)) (maxSamples : ℕ) (matcher : ChainMatcher)
    (reference : Reference) : Prop where
  aligned : Aligned chain reference.seen matcher.legs
  stats : matcher.stats = reference.stats
  maxSamples_eq : matcher.maxSamples = maxSamples
  phase : InPhase chain matcher reference.phase

variable {maxSamples : ℕ} {attempt : Attempt} {tick : MidTick} {reference : Reference}

theorem Records.extend (h : Records matcher attempt) :
    Records (matcher.extendAttempt tick) (attempt.follow tick) where
  mid := h.mid
  ts := h.ts
  above := by
    change max matcher.attemptAbove (tick.mid - matcher.attemptAnchorMid) = _
    rw [h.above, h.mid, max_comm]
    rfl
  below := by
    change max matcher.attemptBelow (matcher.attemptAnchorMid - tick.mid) = _
    rw [h.below, h.mid, max_comm]
    rfl

/-- Anchoring the next leg keeps everything but the anchor and its threshold. -/
theorem anchorNext_eq (matcher : ChainMatcher) (tick : MidTick) : ∃ threshold valid,
    matcher.anchorNext tick =
      { matcher with
        active := matcher.active + 1
        anchorMid := tick.mid
        anchorTs := tick.ts
        anchorThreshold := threshold
        anchorThresholdValid := valid } := by
  unfold anchorNext
  dsimp only
  split
  · split
    · exact ⟨_, _, rfl⟩
    · exact ⟨_, _, rfl⟩
  · exact ⟨_, _, rfl⟩

theorem anchorNext_frozen (h : Aligned chain (tick :: before) matcher.legs)
    (hactivity : chain[matcher.active + 1]? = some activity) :
    Frozen activity (tick :: before) (matcher.anchorNext tick) := by
  intro htype
  obtain ⟨next, hnext, hfor⟩ := h.leg _ activity hactivity
  obtain ⟨hwindow, basis, hbasis, hmeasures⟩ := hfor.basis (by simp [htype])
  have hkind : next.type = .rangeRelativeMove := hfor.type_eq.trans htype
  simp only [anchorNext, hnext, hkind, hbasis, hmeasures.covered_eq hwindow, hmeasures.range_eq]
  refine ⟨trivial, fun range hrange hcovered => ?_⟩
  rw [if_pos hcovered, hrange, Option.getD_some, hfor.multiple htype]

/-- Completing a leg keeps the simulation: the chain is done, or the next leg is anchored. -/
theorem advance_simulates (haligned : Aligned chain (tick :: before) matcher.legs)
    (hsamples : matcher.maxSamples = maxSamples) (hbound : matcher.active < chain.length)
    (hrecords : Records matcher attempt) :
    Simulates chain maxSamples (matcher.advance tick)
      (Reference.complete chain maxSamples before matcher.active attempt matcher.stats tick) := by
  unfold advance Reference.complete
  rw [haligned.length_eq]
  split
  · refine ⟨haligned.reset, ?_, hsamples, .scanning rfl⟩
    dsimp only [recordAttempt, resetAfterMatch]
    rw [hsamples, hrecords.above, hrecords.below, hrecords.mid, hrecords.ts]
    rfl
  · rename_i hmore
    have hfrozen : ∀ activity, chain[matcher.active + 1]? = some activity →
        Frozen activity (tick :: before) (matcher.anchorNext tick) :=
      fun _ hactivity => anchorNext_frozen haligned hactivity
    obtain ⟨threshold, valid, hnext⟩ := anchorNext_eq matcher tick
    rw [hnext] at hfrozen ⊢
    refine ⟨haligned, rfl, hsamples, ?_⟩
    exact .seeking tick before attempt (Nat.succ_pos _) (by dsimp only; omega) rfl rfl
      ⟨hrecords.mid, hrecords.ts, hrecords.above, hrecords.below⟩ hfrozen

/-- Looking for the first leg keeps the simulation. -/
theorem scan_simulates (haligned : Aligned chain (tick :: before) matcher.legs)
    (hsamples : matcher.maxSamples = maxSamples) (hactive : matcher.active = 0)
    (hchain : chain ≠ []) :
    Simulates chain maxSamples (matcher.scan tick)
      (Reference.scan chain maxSamples before matcher.stats tick) := by
  obtain ⟨activity, rest, rfl⟩ := List.exists_cons_of_ne_nil hchain
  unfold scan Reference.scan
  rw [conditionHolds_rolling haligned rfl, List.head?_cons, Option.any_some]
  split
  · have hbegun : Records (matcher.beginAttempt tick) ⟨tick, []⟩ := ⟨rfl, rfl, rfl, rfl⟩
    have hbound : (matcher.beginAttempt tick).active < (activity :: rest).length := by
      rw [beginAttempt, hactive]
      exact Nat.succ_pos _
    have hfirst : Aligned (activity :: rest) (tick :: before) (matcher.beginAttempt tick).legs :=
      haligned
    have hadvance := advance_simulates hfirst hsamples hbound hbegun
    rw [completeActiveLeg, if_pos hactive]
    rw [show (matcher.beginAttempt tick).active = 0 from hactive] at hadvance
    exact hadvance
  · exact ⟨haligned, rfl, hsamples, .scanning hactive⟩

/-- One tick keeps the simulation. -/
theorem onTick_simulates (h : Simulates chain maxSamples matcher reference) (hchain : chain ≠ [])
    (hnow : ∀ earlier ∈ reference.seen, earlier.ts ≤ tick.ts) :
    Simulates chain maxSamples (matcher.onTick tick)
      (Reference.step chain maxSamples reference tick) := by
  have haligned : Aligned chain (tick :: reference.seen) (matcher.feed tick).legs :=
    h.aligned.feed hnow
  obtain ⟨seen, phase, stats⟩ := reference
  have hstats : (matcher.feed tick).stats = stats := h.stats
  cases h.phase with
  | scanning hactive =>
    have hidle : (matcher.feed tick).active = 0 := hactive
    have hscan := scan_simulates haligned h.maxSamples_eq hidle hchain
    rw [hstats] at hscan
    rw [onTick_scanning hactive]
    exact hscan
  | seeking anchor before attempt hlater hbound hmid hts hrecords hfrozen =>
    let fed := (matcher.feed tick).extendAttempt tick
    have hfed : Records fed (attempt.follow tick) :=
      Records.extend ⟨hrecords.mid, hrecords.ts, hrecords.above, hrecords.below⟩
    obtain ⟨activity, hactivity⟩ : ∃ activity, chain[matcher.active]? = some activity :=
      ⟨_, List.getElem?_eq_getElem hbound⟩
    obtain ⟨leg, hleg, hfor⟩ := haligned.leg _ activity hactivity
    have honTick : matcher.onTick tick =
        if tick.ts - matcher.anchorTs > leg.window then (fed.expire tick).scan tick
        else if fed.conditionHolds matcher.active tick.mid then fed.completeActiveLeg tick
        else fed := onTick_seeking hlater hleg
    have hholds : fed.conditionHolds matcher.active tick.mid =
        activity.holdsAnchored anchor before (tick :: seen) tick.mid :=
      conditionHolds_anchored haligned hlater hactivity hmid (hfrozen activity hactivity)
    rw [honTick, Reference.step]
    simp only [hactivity, hfor.window_eq, hts, hholds]
    split
    · have hexpired : (fed.expire tick).stats =
          (stats.record maxSamples false (attempt.follow tick).sample
            ((attempt.follow tick).seconds tick.ts)).failed matcher.active := by
        change ((matcher.feed tick).stats.record matcher.maxSamples false
          ⟨fed.attemptAbove, fed.attemptBelow, fed.attemptAnchorMid⟩
          ((tick.ts - fed.attemptAnchorTs).tdiv second)).failed matcher.active = _
        rw [hstats, h.maxSamples_eq, hfed.above, hfed.below, hfed.mid, hfed.ts]
        rfl
      rw [← hexpired]
      exact scan_simulates haligned h.maxSamples_eq rfl hchain
    · split
      · have hseek : fed.active ≠ 0 := hlater.ne'
        rw [completeActiveLeg, if_neg hseek, ← hstats]
        exact advance_simulates haligned h.maxSamples_eq hbound hfed
      · exact ⟨haligned, hstats, h.maxSamples_eq,
          .seeking anchor before _ hlater hbound hmid hts hfed hfrozen⟩

/-- What counts after a tick is the tick and what counted before, or nothing. -/
theorem mem_step_seen {earlier : MidTick}
    (h : earlier ∈ (Reference.step chain maxSamples reference tick).seen) :
    earlier ∈ tick :: reference.seen := by
  have hcomplete : ∀ {before leg attempt stats},
      earlier ∈ (Reference.complete chain maxSamples before leg attempt stats tick).seen →
        earlier ∈ tick :: before := by
    intro before leg attempt stats h
    unfold Reference.complete at h
    split at h
    · exact (List.not_mem_nil h).elim
    · exact h
  have hscan : ∀ {before stats}, earlier ∈ (Reference.scan chain maxSamples before stats tick).seen →
      earlier ∈ tick :: before := by
    intro before stats h
    unfold Reference.scan at h
    split at h
    · exact hcomplete h
    · exact h
  unfold Reference.step at h
  split at h
  · exact hscan h
  · dsimp only at h
    split at h
    · exact h
    · split_ifs at h
      · exact hscan h
      · exact hcomplete h
      · exact h

/-- Ticks in the order of their times keep the simulation. -/
theorem run_simulates (hchain : chain ≠ []) {ticks : List MidTick}
    (hsorted : ticks.Pairwise fun tick later => tick.ts ≤ later.ts)
    (h : Simulates chain maxSamples matcher reference)
    (hseen : ∀ earlier ∈ reference.seen, ∀ tick ∈ ticks, earlier.ts ≤ tick.ts) :
    Simulates chain maxSamples (matcher.run ticks)
      (ticks.foldl (Reference.step chain maxSamples) reference) := by
  induction ticks generalizing matcher reference with
  | nil => exact h
  | cons tick ticks ih =>
    obtain ⟨htick, hsorted⟩ := List.pairwise_cons.mp hsorted
    have hstep := onTick_simulates h hchain fun earlier hearlier =>
      hseen earlier hearlier tick List.mem_cons_self
    refine ih hsorted hstep fun earlier hearlier later hlater => ?_
    rcases List.mem_cons.mp (mem_step_seen hearlier) with rfl | hbefore
    · exact htick later hlater
    · exact hseen earlier hbefore later (List.mem_cons_of_mem tick hlater)

theorem make_simulates {config : ExperimentConfig D}
    (h : make config maxSamples = .ok matcher) : config.chain ≠ [] ∧
      Simulates config.chain maxSamples matcher (Reference.start config.chain) := by
  unfold make at h
  split at h
  · cases h
  · rename_i hchain
    obtain ⟨legs, hlegs, h⟩ := bind_ok h
    cases h
    obtain ⟨hlength, haligned⟩ := makeLegs_aligned hlegs
    refine ⟨hchain, ⟨hlength, fun index activity hactivity => ?_⟩, ?_, rfl, .scanning rfl⟩
    · obtain ⟨leg, hleg, hfor⟩ := haligned index activity hactivity
      exact ⟨leg, hleg, by rwa [Nat.zero_add] at hfor⟩
    · rw [hlength]
      rfl

/-- For every valid chain, and ticks in the order of their times, the matcher counts what the
reference counts. -/
theorem run_stats {config : ExperimentConfig D} {maxSamples : ℕ} {matcher : ChainMatcher}
    (hmake : make config maxSamples = .ok matcher) {ticks : List MidTick}
    (hsorted : ticks.Pairwise fun tick later => tick.ts ≤ later.ts) :
    (matcher.run ticks).stats = (Reference.run config.chain maxSamples ticks).stats := by
  obtain ⟨hchain, hstart⟩ := make_simulates hmake
  exact (run_simulates hchain hsorted hstart fun _ hnone => (List.not_mem_nil hnone).elim).stats

/-- A drop of one percent and then a rise of half the range before it. -/
def dipRecovery : ExperimentConfig ℚ where
  chain :=
    [{ type := .directionalMove, movePercent := -1, windowSeconds := 600, lookbackSeconds := 0
       direction := 0, atrMultiple := 0 },
      { type := .rangeRelativeMove, movePercent := 0, windowSeconds := 600, lookbackSeconds := 120
        direction := 1, atrMultiple := 1 / 2 }]

def dipRecoveryMatcher : ChainMatcher where
  legs :=
    [{ type := .directionalMove, window := 600 * second, pctScaled := 1000000, negativeMove := true
       moveTracker := some { window := 600 * second } },
      { type := .rangeRelativeMove, window := 600 * second, direction := 1, atrScaled := 500000
        basisTracker := some { window := 120 * second } }]
  stats := { failuresByLeg := [0, 0] }
  maxSamples := 10

theorem run_stats_dipRecovery :
    let ticks : List MidTick := [⟨100000, 2, 0⟩, ⟨99500, 2, 60 * second⟩, ⟨99000, 2, 150 * second⟩,
      ⟨99600, 2, 200 * second⟩]
    (dipRecoveryMatcher.run ticks).stats = (Reference.run dipRecovery.chain 10 ticks).stats ∧
      (dipRecoveryMatcher.run ticks).stats.occurrences = 1 := by
  have hmake : make dipRecovery 10 = .ok dipRecoveryMatcher := by decide +kernel
  exact ⟨run_stats hmake (by decide), by decide +kernel⟩

end ChainMatcher

end Experiments

end BacktestEngine

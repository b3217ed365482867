import Mathlib.Algebra.BigOperators.Group.List.Basic
import BacktestEngine.Experiments.MatchSemantics

/-! # The books of the matcher

The counters tell when an attempt begins and when it is resolved. The history read off
them is the list of attempts with their places in the stream; the counters, the samples
and the durations are those of that list.
-/

namespace BacktestEngine

namespace Experiments

open ChainMatcher (Records)

/-! ## Episodes -/

/-- A resolved attempt: it began at the tick with index `start` and ended at that with index
`stop`. -/
structure Episode where
  start : ℕ
  stop : ℕ
  attempt : Attempt
  completed : Bool
  deriving DecidableEq

/-- The last tick of an attempt. -/
def Attempt.last (attempt : Attempt) : MidTick := attempt.followed.headD attempt.start

def Episode.seconds (episode : Episode) : ℤ := episode.attempt.seconds episode.attempt.last.ts

/-- What an observer of the counters has seen of a stream. -/
structure History where
  count : ℕ := 0
  inFlight : Option (ℕ × Attempt) := none
  resolved : List Episode := []
  deriving DecidableEq

namespace History

variable (history : History)

def completed : List Episode := history.resolved.filter fun episode => episode.completed

def failed : List Episode := history.resolved.filter fun episode => !episode.completed

def follow (tick : MidTick) : History :=
  { history with inFlight := history.inFlight.map fun flight => (flight.1, flight.2.follow tick) }

def begin (tick : MidTick) : History :=
  { history with inFlight := some (history.count, ⟨tick, []⟩) }

def resolve (completed : Bool) : History :=
  match history.inFlight with
  | none => history
  | some (start, attempt) =>
    { history with
      inFlight := none
      resolved := history.resolved ++ [⟨start, history.count, attempt, completed⟩] }

/-- A leg's failures went up: the attempt in flight failed. -/
def noteFailure (before after : MatchStats) : History :=
  if before.failuresByLeg.sum < after.failuresByLeg.sum then history.resolve false else history

/-- The attempts went up: one began. -/
def noteAttempt (before after : MatchStats) (tick : MidTick) : History :=
  if before.attempts < after.attempts then history.begin tick else history

/-- The occurrences went up: the attempt in flight was completed. -/
def noteOccurrence (before after : MatchStats) : History :=
  if before.occurrences < after.occurrences then history.resolve true else history

/-- A tick as the counters before and after it tell. -/
def observe (before after : MatchStats) (tick : MidTick) : History :=
  let history := (history.follow tick).noteFailure before after
  let history := (history.noteAttempt before after tick).noteOccurrence before after
  { history with count := history.count + 1 }

variable {history} {before after : MatchStats} {tick : MidTick}

@[simp] theorem resolve_count (completed : Bool) :
    (history.resolve completed).count = history.count := by
  unfold resolve
  split <;> rfl

theorem noteFailure_same (h : after.failuresByLeg = before.failuresByLeg) :
    history.noteFailure before after = history := by
  rw [noteFailure, h, if_neg (lt_irrefl _)]

theorem noteAttempt_same (h : after.attempts = before.attempts) :
    history.noteAttempt before after tick = history := by
  rw [noteAttempt, h, if_neg (lt_irrefl _)]

theorem noteOccurrence_same (h : after.occurrences = before.occurrences) :
    history.noteOccurrence before after = history := by
  rw [noteOccurrence, h, if_neg (lt_irrefl _)]

end History

/-- Run the matcher and watch its counters. -/
def ChainMatcher.watch (matcher : ChainMatcher) (ticks : List MidTick) : ChainMatcher × History :=
  ticks.foldl (fun s tick => (s.1.onTick tick, s.2.observe s.1.stats (s.1.onTick tick).stats tick))
    (matcher, {})

theorem ChainMatcher.watch_fst (matcher : ChainMatcher) (ticks : List MidTick) :
    (matcher.watch ticks).1 = matcher.run ticks :=
  (List.foldl_hom Prod.fst fun _ _ => rfl).symm

theorem ChainMatcher.watch_snoc (matcher : ChainMatcher) (ticks : List MidTick) (tick : MidTick) :
    matcher.watch (ticks ++ [tick]) = ((matcher.watch ticks).1.onTick tick,
      (matcher.watch ticks).2.observe (matcher.watch ticks).1.stats
        ((matcher.watch ticks).1.onTick tick).stats tick) := by
  simp [watch, List.foldl_append]

/-! ## The counters of a history -/

/-- The counters and samples are those of the history. -/
structure History.Tallies (maxSamples : ℕ) (history : History) (stats : MatchStats) : Prop where
  occurrences : stats.occurrences = history.completed.length
  failures : stats.failuresByLeg.sum = history.failed.length
  firstLeg : stats.failuresByLeg[0]? = some 0
  attempts : stats.attempts = history.resolved.length + history.inFlight.toList.length
  spreads : stats.spreadAtTriggerCount = stats.attempts
  completedExcursions : stats.completedExcursions =
    (history.completed.map fun episode => episode.attempt.sample).take maxSamples
  completionSeconds : stats.completionSeconds =
    (history.completed.map Episode.seconds).take maxSamples
  failedExcursions : stats.failedExcursions =
    (history.failed.map fun episode => episode.attempt.sample).take maxSamples
  truncated : stats.samplesTruncated = true ↔
    maxSamples < history.completed.length ∨ maxSamples < history.failed.length

namespace MatchStats

variable (stats : MatchStats) (maxSamples : ℕ) (completed : Bool) (sample : ExcursionSample)
  (seconds : ℤ)

@[simp] theorem record_occurrences :
    (stats.record maxSamples completed sample seconds).occurrences = stats.occurrences := by
  simp only [record]
  split_ifs <;> rfl

@[simp] theorem record_attempts :
    (stats.record maxSamples completed sample seconds).attempts = stats.attempts := by
  simp only [record]
  split_ifs <;> rfl

@[simp] theorem record_failuresByLeg :
    (stats.record maxSamples completed sample seconds).failuresByLeg = stats.failuresByLeg := by
  simp only [record]
  split_ifs <;> rfl

@[simp] theorem record_spreadAtTriggerCount :
    (stats.record maxSamples completed sample seconds).spreadAtTriggerCount =
      stats.spreadAtTriggerCount := by
  simp only [record]
  split_ifs <;> rfl

end MatchStats

/-- A full list takes no further element. -/
theorem take_snoc {α : Type} (l : List α) (a : α) (n : ℕ) :
    (l ++ [a]).take n = if n ≤ l.length then l.take n else l ++ [a] := by
  split_ifs with h
  · rw [List.take_append_of_le_length h]
  · apply List.take_of_length_le
    simp only [List.length_append, List.length_singleton]
    omega

theorem sum_modify_succ {counts : List ℕ} {i : ℕ} (hi : i < counts.length) :
    (counts.modify i (· + 1)).sum = counts.sum + 1 := by
  induction counts generalizing i with
  | nil => exact absurd hi (Nat.not_lt_zero i)
  | cons count counts ih =>
    cases i with
    | zero =>
      rw [List.modify_zero_cons, List.sum_cons, List.sum_cons]
      omega
    | succ i =>
      rw [List.modify_succ_cons, List.sum_cons, List.sum_cons, ih (Nat.lt_of_succ_lt_succ hi)]
      omega

namespace History.Tallies

variable {maxSamples start : ℕ} {history : History} {stats : MatchStats} {attempt : Attempt}

/-- A completed attempt is counted and taken down. -/
theorem complete (h : history.Tallies maxSamples stats)
    (hflight : history.inFlight = some (start, attempt)) :
    (history.resolve true).Tallies maxSamples (stats.occurred.record maxSamples true attempt.sample
      (attempt.seconds attempt.last.ts)) := by
  have hcompleted : (history.resolve true).completed =
      history.completed ++ [⟨start, history.count, attempt, true⟩] := by
    simp [resolve, hflight, completed]
  have hfailed : (history.resolve true).failed = history.failed := by
    simp [resolve, hflight, failed]
  have hlength : stats.completedExcursions.length = min maxSamples history.completed.length := by
    simp [h.completedExcursions]
  constructor
  · simp [MatchStats.occurred, hcompleted, h.occurrences]
  · simp [MatchStats.occurred, hfailed, h.failures]
  · simp [MatchStats.occurred, h.firstLeg]
  · simp [MatchStats.occurred, h.attempts, resolve, hflight]
  · simp [MatchStats.occurred, h.spreads]
  · rw [hcompleted, List.map_append, List.map_singleton, take_snoc, List.length_map]
    simp only [MatchStats.record, MatchStats.occurred, ↓reduceIte, hlength]
    split_ifs with h₁ h₂ h₂
    · rw [h.completedExcursions]
    · omega
    · omega
    · rw [h.completedExcursions, List.take_of_length_le (by simp; omega)]
  · rw [hcompleted, List.map_append, List.map_singleton, take_snoc, List.length_map]
    simp only [MatchStats.record, MatchStats.occurred, ↓reduceIte, hlength]
    split_ifs with h₁ h₂ h₂
    · rw [h.completionSeconds]
    · omega
    · omega
    · rw [h.completionSeconds, List.take_of_length_le (by simp; omega)]
      rfl
  · rw [hfailed, ← h.failedExcursions]
    simp only [MatchStats.record, MatchStats.occurred, ↓reduceIte]
    split_ifs <;> rfl
  · have htruncated := h.truncated
    simp only [hcompleted, hfailed, List.length_append, List.length_singleton, MatchStats.record,
      MatchStats.occurred, ↓reduceIte, hlength]
    split_ifs with hfull
    · simp only [true_iff]
      omega
    · rw [htruncated]
      omega

/-- A failed attempt is counted for its leg, never the first, and taken down. -/
theorem fail (h : history.Tallies maxSamples stats)
    (hflight : history.inFlight = some (start, attempt)) {leg : ℕ} (hlater : 0 < leg)
    (hleg : leg < stats.failuresByLeg.length) :
    (history.resolve false).Tallies maxSamples ((stats.record maxSamples false attempt.sample
      (attempt.seconds attempt.last.ts)).failed leg) := by
  have hfailed : (history.resolve false).failed =
      history.failed ++ [⟨start, history.count, attempt, false⟩] := by
    simp [resolve, hflight, failed]
  have hcompleted : (history.resolve false).completed = history.completed := by
    simp [resolve, hflight, completed]
  have hlength : stats.failedExcursions.length = min maxSamples history.failed.length := by
    simp [h.failedExcursions]
  constructor
  · simp [MatchStats.failed, hcompleted, h.occurrences]
  · simp only [MatchStats.failed, MatchStats.record_failuresByLeg]
    rw [sum_modify_succ hleg, h.failures, hfailed, List.length_append, List.length_singleton]
  · simp [MatchStats.failed, hlater.ne', h.firstLeg]
  · simp [MatchStats.failed, h.attempts, resolve, hflight]
  · simp [MatchStats.failed, h.spreads]
  · rw [hcompleted, ← h.completedExcursions]
    simp only [MatchStats.failed, MatchStats.record, Bool.false_eq_true, ↓reduceIte]
    split_ifs <;> rfl
  · rw [hcompleted, ← h.completionSeconds]
    simp only [MatchStats.failed, MatchStats.record, Bool.false_eq_true, ↓reduceIte]
    split_ifs <;> rfl
  · rw [hfailed, List.map_append, List.map_singleton, take_snoc, List.length_map]
    simp only [MatchStats.failed, MatchStats.record, Bool.false_eq_true, ↓reduceIte, hlength]
    split_ifs with h₁ h₂ h₂
    · rw [h.failedExcursions]
    · omega
    · omega
    · rw [h.failedExcursions, List.take_of_length_le (by simp; omega)]
  · have htruncated := h.truncated
    simp only [hcompleted, hfailed, List.length_append, List.length_singleton, MatchStats.failed,
      MatchStats.record, Bool.false_eq_true, ↓reduceIte, hlength]
    split_ifs with hfull
    · simp only [true_iff]
      omega
    · rw [htruncated]
      omega

/-- An attempt that begins is counted, with its spread. -/
theorem began (h : history.Tallies maxSamples stats) (hidle : history.inFlight = none)
    (tick : MidTick) : (history.begin tick).Tallies maxSamples (stats.began tick.spread) where
  occurrences := h.occurrences
  failures := h.failures
  firstLeg := h.firstLeg
  attempts := by simp [MatchStats.began, begin, h.attempts, hidle]
  spreads := by simp [MatchStats.began, h.spreads]
  completedExcursions := h.completedExcursions
  completionSeconds := h.completionSeconds
  failedExcursions := h.failedExcursions
  truncated := h.truncated

theorem follow (h : history.Tallies maxSamples stats) (tick : MidTick) :
    (history.follow tick).Tallies maxSamples stats where
  occurrences := h.occurrences
  failures := h.failures
  firstLeg := h.firstLeg
  attempts := by
    rw [h.attempts]
    cases hflight : history.inFlight <;> simp [History.follow, hflight]
  spreads := h.spreads
  completedExcursions := h.completedExcursions
  completionSeconds := h.completionSeconds
  failedExcursions := h.failedExcursions
  truncated := h.truncated

end History.Tallies

/-! ## Places in the stream -/

/-- The attempt began at its first tick and took in every tick after it, to the end of the list. -/
structure Attempt.Spans (attempt : Attempt) (ticks : List MidTick) (start : ℕ) : Prop where
  first : ticks[start]? = some attempt.start
  rest : attempt.followed.reverse = ticks.drop (start + 1)

/-- The episodes are placed in the stream one after the other. -/
structure History.Placed (windows : List ℤ) (ticks : List MidTick) (history : History) : Prop where
  spans : ∀ episode ∈ history.resolved, episode.start ≤ episode.stop ∧
    episode.stop < ticks.length ∧
    episode.attempt.Spans (ticks.take (episode.stop + 1)) episode.start
  lasts : ∀ episode ∈ history.resolved, episode.completed = true →
    episode.attempt.last.ts - episode.attempt.start.ts ≤ windows.tail.sum
  apart : history.resolved.Pairwise fun episode later => episode.stop ≤ later.start
  flight : ∀ start attempt, history.inFlight = some (start, attempt) →
    attempt.Spans ticks start ∧ ∀ episode ∈ history.resolved, episode.stop ≤ start

namespace Attempt.Spans

variable {attempt : Attempt} {ticks : List MidTick} {start : ℕ}

theorem lt (h : attempt.Spans ticks start) : start < ticks.length :=
  (List.getElem?_eq_some_iff.mp h.first).1

theorem follow (h : attempt.Spans ticks start) (tick : MidTick) :
    (attempt.follow tick).Spans (ticks ++ [tick]) start := by
  have hlt := h.lt
  constructor
  · rw [List.getElem?_append_left hlt]
    exact h.first
  · rw [List.drop_append_of_le_length hlt, ← h.rest]
    exact List.reverse_cons

theorem begin (ticks : List MidTick) (tick : MidTick) :
    Attempt.Spans ⟨tick, []⟩ (ticks ++ [tick]) ticks.length := by
  constructor
  · simp
  · simp

/-- An attempt that has taken in a whole stream ends with its last tick. -/
theorem last_eq (h : attempt.Spans ticks start) : ticks.getLast? = some attempt.last := by
  have hsplit : ticks = ticks.take start ++ attempt.start :: attempt.followed.reverse := by
    rw [h.rest]
    obtain ⟨hlt, hstart⟩ := List.getElem?_eq_some_iff.mp h.first
    rw [← hstart, ← List.drop_eq_getElem_cons hlt, List.take_append_drop]
  rw [hsplit, List.getLast?_append_cons]
  obtain ⟨anchor, followed⟩ := attempt
  cases followed with
  | nil => rfl
  | cons tick before => simp [Attempt.last, List.getLast?_cons]

end Attempt.Spans

namespace History.Placed

variable {windows : List ℤ} {ticks : List MidTick} {history : History} {start : ℕ}
  {attempt : Attempt}

theorem follow (h : history.Placed windows ticks) (tick : MidTick) :
    (history.follow tick).Placed windows (ticks ++ [tick]) where
  spans episode he := by
    obtain ⟨hle, hlt, hspans⟩ := h.spans episode he
    refine ⟨hle, by simp; omega, ?_⟩
    rwa [List.take_append_of_le_length hlt]
  lasts := h.lasts
  apart := h.apart
  flight start attempt hflight := by
    obtain ⟨flight, hbefore, heq⟩ := Option.map_eq_some_iff.mp hflight
    cases heq
    obtain ⟨hspans, hstop⟩ := h.flight _ _ hbefore
    exact ⟨hspans.follow tick, hstop⟩

theorem begin (h : history.Placed windows (ticks ++ [tick])) (hcount : history.count = ticks.length)
    (hstop : ∀ episode ∈ history.resolved, episode.stop ≤ history.count) :
    (history.begin tick).Placed windows (ticks ++ [tick]) where
  spans := h.spans
  lasts := h.lasts
  apart := h.apart
  flight start attempt hflight := by
    cases hflight
    exact ⟨hcount ▸ Attempt.Spans.begin ticks tick, hstop⟩

/-- The attempt in flight is resolved at the last tick. -/
theorem resolve (h : history.Placed windows ticks) (hcount : history.count + 1 = ticks.length)
    (hflight : history.inFlight = some (start, attempt)) {completed : Bool}
    (hlasts : completed = true → attempt.last.ts - attempt.start.ts ≤ windows.tail.sum) :
    (history.resolve completed).Placed windows ticks := by
  obtain ⟨hspans, hstop⟩ := h.flight start attempt hflight
  have hlt := hspans.lt
  simp only [History.resolve, hflight]
  constructor
  · intro episode he
    rcases List.mem_append.mp he with hold | hnew
    · exact h.spans episode hold
    · rw [List.mem_singleton.mp hnew]
      refine ⟨by dsimp only; omega, by dsimp only; omega, ?_⟩
      rwa [hcount, List.take_length]
  · intro episode he
    rcases List.mem_append.mp he with hold | hnew
    · exact h.lasts episode hold
    · rw [List.mem_singleton.mp hnew]
      exact hlasts
  · apply List.pairwise_append.mpr
    refine ⟨h.apart, List.pairwise_singleton _ _, fun episode he later hlater => ?_⟩
    rw [List.mem_singleton.mp hlater]
    exact hstop episode he
  · rintro _ _ ⟨⟩

end History.Placed

/-! ## One tick -/

/-- How long an attempt that seeks a leg may have lasted by its last anchor, or, once the leg is
complete, in all. -/
def windowsUpTo (windows : List ℤ) (leg : ℕ) : ℤ := (windows.tail.take leg).sum

/-- The matcher seeks a leg of the attempt in flight, or scans when there is none. -/
structure ChainMatcher.Follows (windows : List ℤ) (matcher : ChainMatcher) (history : History) :
    Prop where
  windows_eq : matcher.legs.map LegRuntime.window = windows
  idle : history.inFlight = none → matcher.active = 0
  seeking : ∀ start attempt, history.inFlight = some (start, attempt) → 0 < matcher.active ∧
    matcher.active < windows.length ∧ Records matcher attempt ∧
    matcher.anchorTs - attempt.start.ts ≤ windowsUpTo windows (matcher.active - 1)

/-- The history is in order and the matcher keeps its books. -/
structure Books (windows : List ℤ) (maxSamples : ℕ) (ticks : List MidTick) (matcher : ChainMatcher)
    (history : History) : Prop where
  maxSamples_eq : matcher.maxSamples = maxSamples
  failures : matcher.stats.failuresByLeg.length = windows.length
  tallies : history.Tallies maxSamples matcher.stats
  placed : history.Placed windows ticks
  follows : matcher.Follows windows history

namespace Books

variable {windows : List ℤ} {maxSamples start : ℕ} {ticks : List MidTick} {tick : MidTick}
  {matcher : ChainMatcher} {history : History} {attempt : Attempt}

theorem windowsUpTo_later {leg : ℕ} {window : ℤ} (hlater : 0 < leg)
    (h : windows[leg]? = some window) :
    windowsUpTo windows leg = windowsUpTo windows (leg - 1) + window := by
  obtain ⟨leg, rfl⟩ := Nat.exists_eq_succ_of_ne_zero hlater.ne'
  have hleg : windows.tail[leg]? = some window := by rwa [List.getElem?_tail]
  rw [windowsUpTo, windowsUpTo, Nat.succ_eq_add_one, List.take_add_one, hleg]
  simp

theorem windowsUpTo_last {leg : ℕ} (h : leg + 1 = windows.length) :
    windowsUpTo windows leg = windows.tail.sum := by
  rw [windowsUpTo, List.take_of_length_le]
  rw [List.length_tail]
  omega

theorem feed_windows (matcher : ChainMatcher) (tick : MidTick) :
    (matcher.feed tick).legs.map LegRuntime.window = matcher.legs.map LegRuntime.window := by
  simp [ChainMatcher.feed, LegRuntime.feed, Function.comp_def]

theorem reset_windows (matcher : ChainMatcher) :
    matcher.resetAfterMatch.legs.map LegRuntime.window = matcher.legs.map LegRuntime.window := by
  simp [ChainMatcher.resetAfterMatch, LegRuntime.reset, Function.comp_def]

/-- A tick is fed while nothing is in flight. -/
theorem feed (h : Books windows maxSamples ticks matcher history)
    (hidle : history.inFlight = none) (tick : MidTick) :
    Books windows maxSamples (ticks ++ [tick]) (matcher.feed tick) (history.follow tick) where
  maxSamples_eq := h.maxSamples_eq
  failures := h.failures
  tallies := h.tallies.follow tick
  placed := h.placed.follow tick
  follows := by
    constructor
    · rw [feed_windows]
      exact h.follows.windows_eq
    · intro _
      exact h.follows.idle hidle
    · simp [History.follow, hidle]

/-- A tick is fed and the attempt in flight takes it in. -/
theorem extend (h : Books windows maxSamples ticks matcher history) (tick : MidTick) :
    Books windows maxSamples (ticks ++ [tick]) ((matcher.feed tick).extendAttempt tick)
      (history.follow tick) where
  maxSamples_eq := h.maxSamples_eq
  failures := h.failures
  tallies := h.tallies.follow tick
  placed := h.placed.follow tick
  follows := by
    constructor
    · exact (feed_windows matcher tick).trans h.follows.windows_eq
    · intro hidle
      exact h.follows.idle (Option.map_eq_none_iff.mp hidle)
    · intro start attempt hflight
      obtain ⟨flight, hbefore, heq⟩ := Option.map_eq_some_iff.mp hflight
      cases heq
      obtain ⟨hlater, hbound, hrecords, hanchor⟩ := h.follows.seeking _ _ hbefore
      exact ⟨hlater, hbound, .extend ⟨hrecords.mid, hrecords.ts, hrecords.above, hrecords.below⟩,
        hanchor⟩

/-- The leg sought is completed at the last tick: the chain is, or its next leg is anchored. -/
theorem advance (matcher : ChainMatcher) (history : History) (hmax : matcher.maxSamples = maxSamples)
    (hfailures : matcher.stats.failuresByLeg.length = windows.length)
    (htallies : history.Tallies maxSamples matcher.stats)
    (hplaced : history.Placed windows (ticks ++ [tick])) (hcount : history.count = ticks.length)
    (hwindows : matcher.legs.map LegRuntime.window = windows)
    (hbound : matcher.active < windows.length)
    (hflight : history.inFlight = some (start, attempt)) (hrecords : Records matcher attempt)
    (hlast : attempt.last = tick)
    (hlasts : tick.ts - attempt.start.ts ≤ windowsUpTo windows matcher.active) :
    (matcher.advance tick).stats.attempts = matcher.stats.attempts ∧
    (matcher.advance tick).stats.failuresByLeg = matcher.stats.failuresByLeg ∧
    Books windows maxSamples (ticks ++ [tick]) (matcher.advance tick)
      (history.noteOccurrence matcher.stats (matcher.advance tick).stats) := by
  have hlength : matcher.legs.length = windows.length := by rw [← hwindows, List.length_map]
  unfold ChainMatcher.advance
  split
  · rename_i hdone
    have hstats : ((({ matcher with stats := matcher.stats.occurred } : ChainMatcher).recordAttempt
        true tick.ts).resetAfterMatch).stats = matcher.stats.occurred.record maxSamples true
          attempt.sample (attempt.seconds attempt.last.ts) := by
      simp only [ChainMatcher.recordAttempt, ChainMatcher.resetAfterMatch, hmax, hrecords.above,
        hrecords.below, hrecords.mid, hrecords.ts, hlast]
      rfl
    have htotal : windowsUpTo windows matcher.active = windows.tail.sum :=
      windowsUpTo_last (hlength ▸ hdone)
    have hresolved : (history.resolve true).Placed windows (ticks ++ [tick]) := by
      apply hplaced.resolve (by simp [hcount]) hflight
      intro _
      rw [hlast, ← htotal]
      exact hlasts
    dsimp only
    rw [hstats]
    refine ⟨by simp [MatchStats.occurred], by simp [MatchStats.occurred], ?_⟩
    rw [History.noteOccurrence, if_pos (by simp [MatchStats.occurred])]
    constructor
    · exact hmax
    · rw [hstats, MatchStats.record_failuresByLeg]
      exact hfailures
    · rw [hstats]
      exact htallies.complete hflight
    · exact hresolved
    · constructor
      · exact (reset_windows _).trans hwindows
      · exact fun _ => rfl
      · simp [History.resolve, hflight]
  · rename_i hmore
    obtain ⟨threshold, valid, hnext⟩ := ChainMatcher.anchorNext_eq matcher tick
    rw [hnext]
    refine ⟨rfl, rfl, ?_⟩
    rw [History.noteOccurrence_same rfl]
    constructor
    · exact hmax
    · exact hfailures
    · exact htallies
    · exact hplaced
    · constructor
      · exact hwindows
      · simp [hflight]
      · intro start' attempt' hflight'
        cases hflight.symm.trans hflight'
        refine ⟨Nat.succ_pos _, by dsimp only; omega, ?_, hlasts⟩
        exact ⟨hrecords.mid, hrecords.ts, hrecords.above, hrecords.below⟩

/-- The attempt in flight ran out of time. -/
theorem expire (h : Books windows maxSamples (ticks ++ [tick]) matcher history)
    (hcount : history.count = ticks.length) (hflight : history.inFlight = some (start, attempt))
    (hlast : attempt.last = tick) :
    (matcher.expire tick).stats.attempts = matcher.stats.attempts ∧
    (matcher.expire tick).stats.occurrences = matcher.stats.occurrences ∧
    matcher.stats.failuresByLeg.sum < (matcher.expire tick).stats.failuresByLeg.sum ∧
    Books windows maxSamples (ticks ++ [tick]) (matcher.expire tick) (history.resolve false) := by
  obtain ⟨hlater, hbound, hrecords, -⟩ := h.follows.seeking _ _ hflight
  rw [← h.failures] at hbound
  have hstats : (matcher.expire tick).stats = (matcher.stats.record maxSamples false
      attempt.sample (attempt.seconds attempt.last.ts)).failed matcher.active := by
    simp only [ChainMatcher.expire, ChainMatcher.recordAttempt, h.maxSamples_eq, hrecords.above,
      hrecords.below, hrecords.mid, hrecords.ts, hlast]
    rfl
  have hsum : (matcher.expire tick).stats.failuresByLeg.sum =
      matcher.stats.failuresByLeg.sum + 1 := by
    rw [hstats, MatchStats.failed, MatchStats.record_failuresByLeg, sum_modify_succ hbound]
  refine ⟨?_, ?_, by omega, ?_⟩
  · simp [hstats, MatchStats.failed]
  · simp [hstats, MatchStats.failed]
  · constructor
    · exact h.maxSamples_eq
    · rw [hstats, MatchStats.failed, MatchStats.record_failuresByLeg, List.length_modify]
      exact h.failures
    · rw [hstats]
      exact h.tallies.fail hflight hlater hbound
    · exact h.placed.resolve (by simp [hcount]) hflight nofun
    · constructor
      · exact h.follows.windows_eq
      · exact fun _ => rfl
      · simp [History.resolve, hflight]

/-- The first leg is looked for at the last tick. -/
theorem scan (h : Books windows maxSamples (ticks ++ [tick]) matcher history)
    (hwindows : windows ≠ []) (hcount : history.count = ticks.length)
    (hidle : history.inFlight = none)
    (hstop : ∀ episode ∈ history.resolved, episode.stop ≤ history.count) :
    (matcher.scan tick).stats.failuresByLeg = matcher.stats.failuresByLeg ∧
    Books windows maxSamples (ticks ++ [tick]) (matcher.scan tick)
      ((history.noteAttempt matcher.stats (matcher.scan tick).stats tick).noteOccurrence
        matcher.stats (matcher.scan tick).stats) := by
  unfold ChainMatcher.scan
  split
  · have hactive := h.follows.idle hidle
    rw [ChainMatcher.completeActiveLeg, if_pos hactive]
    have hbound : (matcher.beginAttempt tick).active < windows.length := by
      rw [show (matcher.beginAttempt tick).active = 0 from hactive]
      exact List.length_pos_of_ne_nil hwindows
    have hlasts : tick.ts - tick.ts ≤ windowsUpTo windows (matcher.beginAttempt tick).active := by
      rw [show (matcher.beginAttempt tick).active = 0 from hactive, sub_self]
      exact le_of_eq rfl
    have hrecords : Records (matcher.beginAttempt tick) ⟨tick, []⟩ := ⟨rfl, rfl, rfl, rfl⟩
    have htallies : (history.begin tick).Tallies maxSamples (matcher.beginAttempt tick).stats :=
      h.tallies.began hidle tick
    have hplaced := h.placed.begin hcount hstop
    obtain ⟨hattempts, hfailures, hbooks⟩ := advance (matcher.beginAttempt tick)
      (history.begin tick) h.maxSamples_eq h.failures htallies hplaced hcount h.follows.windows_eq
      hbound rfl hrecords rfl hlasts
    refine ⟨hfailures, ?_⟩
    have hmore : matcher.stats.attempts < ((matcher.beginAttempt tick).advance tick).stats.attempts := by
      rw [hattempts]
      exact Nat.lt_succ_self _
    rw [History.noteAttempt, if_pos hmore]
    exact hbooks
  · refine ⟨rfl, ?_⟩
    rw [History.noteAttempt_same rfl, History.noteOccurrence_same rfl]
    exact h

/-- The books do not depend on the number of ticks seen. -/
theorem counted (h : Books windows maxSamples ticks matcher history) (count : ℕ) :
    Books windows maxSamples ticks matcher { history with count := count } where
  maxSamples_eq := h.maxSamples_eq
  failures := h.failures
  tallies := ⟨h.tallies.occurrences, h.tallies.failures, h.tallies.firstLeg, h.tallies.attempts,
    h.tallies.spreads, h.tallies.completedExcursions, h.tallies.completionSeconds,
    h.tallies.failedExcursions, h.tallies.truncated⟩
  placed := ⟨h.placed.spans, h.placed.lasts, h.placed.apart, h.placed.flight⟩
  follows := ⟨h.follows.windows_eq, h.follows.idle, h.follows.seeking⟩

/-- One tick, and what the counters tell of it. -/
theorem onTick (h : Books windows maxSamples ticks matcher history) (hwindows : windows ≠ [])
    (hcount : history.count = ticks.length) (tick : MidTick) :
    Books windows maxSamples (ticks ++ [tick]) (matcher.onTick tick)
      (history.observe matcher.stats (matcher.onTick tick).stats tick) := by
  have hstop : ∀ episode ∈ history.resolved, episode.stop ≤ history.count := by
    intro episode he
    have := (h.placed.spans episode he).2.1
    omega
  cases hflight : history.inFlight with
  | none =>
    have hfed := h.feed hflight tick
    have hidle : (history.follow tick).inFlight = none := by simp [History.follow, hflight]
    obtain ⟨hfailures, hbooks⟩ := hfed.scan hwindows hcount hidle hstop
    rw [show (matcher.feed tick).stats = matcher.stats from rfl] at hfailures hbooks
    rw [ChainMatcher.onTick_scanning (h.follows.idle hflight), History.observe,
      History.noteFailure_same hfailures]
    exact hbooks.counted _
  | some flight =>
    obtain ⟨start, attempt⟩ := flight
    obtain ⟨hlater, hbound, -, hanchor⟩ := h.follows.seeking start attempt hflight
    obtain ⟨leg, hleg, hwindow⟩ : ∃ leg, (matcher.feed tick).legs[matcher.active]? = some leg ∧
        windows[matcher.active]? = some leg.window := by
      have hwindows_eq := (feed_windows matcher tick).trans h.follows.windows_eq
      have hlegs : matcher.active < (matcher.feed tick).legs.length := by
        rw [← List.length_map LegRuntime.window, hwindows_eq]
        exact hbound
      refine ⟨_, List.getElem?_eq_getElem hlegs, ?_⟩
      rw [← hwindows_eq, List.getElem?_map, List.getElem?_eq_getElem hlegs, Option.map_some]
    have hupTo := windowsUpTo_later hlater hwindow
    have hfed := h.extend tick
    have hfollowed : (history.follow tick).inFlight = some (start, attempt.follow tick) := by
      simp [History.follow, hflight]
    have hstats : ((matcher.feed tick).extendAttempt tick).stats = matcher.stats := rfl
    rw [ChainMatcher.onTick_seeking hlater hleg]
    dsimp only
    split_ifs with hexpired hholds
    · -- the attempt fails, and its last tick may begin the next one
      obtain ⟨hattempts, hoccurrences, hsum, hbooks⟩ := hfed.expire hcount hfollowed rfl
      rw [hstats] at hattempts hoccurrences hsum
      have hidle : ((history.follow tick).resolve false).inFlight = none := by
        simp [History.resolve, hfollowed]
      have hcount' : ((history.follow tick).resolve false).count = ticks.length :=
        (History.resolve_count false).trans hcount
      have hstop' : ∀ episode ∈ ((history.follow tick).resolve false).resolved,
          episode.stop ≤ ((history.follow tick).resolve false).count := by
        intro episode he
        have := (hbooks.placed.spans episode he).2.1
        simp only [List.length_append, List.length_singleton] at this
        omega
      obtain ⟨hfailures, hscanned⟩ := hbooks.scan hwindows hcount' hidle hstop'
      rw [History.noteAttempt, History.noteOccurrence, hattempts, hoccurrences] at hscanned
      rw [History.observe, History.noteFailure, hfailures, if_pos hsum]
      exact hscanned.counted _
    · obtain ⟨hlater', hbound', hrecords, hanchor'⟩ := hfed.follows.seeking _ _ hfollowed
      have hlasts : tick.ts - (attempt.follow tick).start.ts ≤ windowsUpTo windows matcher.active := by
        rw [hupTo]
        change tick.ts - attempt.start.ts ≤ _
        omega
      obtain ⟨hattempts, hfailures, hbooks⟩ := advance _ _ hfed.maxSamples_eq hfed.failures
        hfed.tallies hfed.placed hcount hfed.follows.windows_eq hbound' hfollowed hrecords rfl hlasts
      rw [hstats] at hattempts hfailures hbooks
      rw [ChainMatcher.completeActiveLeg, if_neg hlater'.ne', History.observe,
        History.noteFailure_same hfailures, History.noteAttempt_same hattempts]
      exact hbooks.counted _
    · rw [hstats, History.observe, History.noteFailure_same rfl, History.noteAttempt_same rfl,
        History.noteOccurrence_same rfl]
      exact hfed.counted _

theorem observe_count (history : History) (before after : MatchStats) (tick : MidTick) :
    (history.observe before after tick).count = history.count + 1 := by
  simp only [History.observe, History.noteOccurrence, History.noteAttempt, History.noteFailure]
  split_ifs <;> simp [History.begin, History.follow]

/-- A stream, and what the counters tell of it. -/
theorem watch (hwindows : windows ≠ []) (h : Books windows maxSamples [] matcher {})
    (ticks : List MidTick) :
    Books windows maxSamples ticks (matcher.watch ticks).1 (matcher.watch ticks).2 ∧
      (matcher.watch ticks).2.count = ticks.length := by
  induction ticks using List.reverseRecOn with
  | nil => exact ⟨h, rfl⟩
  | append_singleton ticks tick ih =>
    obtain ⟨hbooks, hcount⟩ := ih
    rw [ChainMatcher.watch_snoc]
    refine ⟨hbooks.onTick hwindows hcount tick, ?_⟩
    rw [observe_count, hcount, List.length_append, List.length_singleton]

end Books

namespace ChainMatcher

variable {D : Type} [Rounding D]

theorem make_books {config : ExperimentConfig D} {maxSamples : ℕ} {matcher : ChainMatcher}
    (h : make config maxSamples = .ok matcher) :
    config.chain ≠ [] ∧ Books (config.chain.map Activity.moveWindow) maxSamples [] matcher {} := by
  obtain ⟨hchain, hstart⟩ := make_simulates h
  have hwindows : matcher.legs.map LegRuntime.window = config.chain.map Activity.moveWindow := by
    apply List.ext_getElem?
    intro index
    rw [List.getElem?_map, List.getElem?_map]
    cases hactivity : config.chain[index]? with
    | none =>
      rw [List.getElem?_eq_none_iff, ← hstart.aligned.length_eq] at hactivity
      rw [List.getElem?_eq_none_iff.mpr hactivity]
      rfl
    | some activity =>
      obtain ⟨leg, hleg, hfor⟩ := hstart.aligned.leg index activity hactivity
      rw [hleg, Option.map_some, Option.map_some, hfor.window_eq]
  obtain ⟨activity, rest, hcons⟩ := List.exists_cons_of_ne_nil hchain
  refine ⟨hchain, hstart.maxSamples_eq, ?_, ?_, ?_, ?_⟩
  · rw [hstart.stats]
    simp [Reference.start]
  · rw [hstart.stats]
    constructor <;> simp [Reference.start, History.completed, History.failed, hcons]
  · constructor <;> simp
  · constructor
    · exact hwindows
    · intro _
      cases hstart.phase
      assumption
    · simp

/-- The books of every valid chain after every stream of ticks: the counters add up, the attempts
read off them follow one another in the stream, a completed one lasts no longer than the windows of
its later legs together, and the samples are the excursions of the attempts. -/
theorem bookkeeping {config : ExperimentConfig D} {maxSamples : ℕ} {fresh : ChainMatcher}
    (hmake : make config maxSamples = .ok fresh) (ticks : List MidTick) :
    let matcher := fresh.run ticks
    let stats := matcher.stats
    let history := (fresh.watch ticks).2
    (stats.attempts =
        stats.occurrences + stats.failuresByLeg.sum + (if matcher.active > 0 then 1 else 0) ∧
      stats.failuresByLeg[0]? = some 0 ∧
      stats.spreadAtTriggerCount = stats.attempts ∧
      stats.completionSeconds.length = stats.completedExcursions.length ∧
      (stats.samplesTruncated = false →
        stats.completedExcursions.length = stats.occurrences ∧
        stats.failedExcursions.length = stats.failuresByLeg.sum)) ∧
    (stats.occurrences = history.completed.length ∧
      stats.failuresByLeg.sum = history.failed.length ∧
      history.resolved.Pairwise (fun episode later => episode.stop ≤ later.start) ∧
      ∀ episode ∈ history.resolved, episode.start ≤ episode.stop ∧
        ∃ anchor last, ticks[episode.start]? = some anchor ∧ ticks[episode.stop]? = some last ∧
          episode.attempt =
            ⟨anchor, ((ticks.take (episode.stop + 1)).drop (episode.start + 1)).reverse⟩ ∧
          (episode.completed = true →
            last.ts - anchor.ts ≤ (config.chain.tail.map Activity.moveWindow).sum)) ∧
    stats.completedExcursions =
      (history.completed.map fun episode => episode.attempt.sample).take maxSamples ∧
    stats.failedExcursions =
      (history.failed.map fun episode => episode.attempt.sample).take maxSamples := by
  obtain ⟨hchain, hfresh⟩ := make_books hmake
  have hwindows : config.chain.map Activity.moveWindow ≠ [] := by simpa using hchain
  obtain ⟨hbooks, -⟩ := hfresh.watch hwindows ticks
  rw [watch_fst] at hbooks
  have htallies := hbooks.tallies
  dsimp only
  refine ⟨⟨?_, htallies.firstLeg, htallies.spreads, ?_, ?_⟩, ⟨htallies.occurrences,
    htallies.failures, hbooks.placed.apart, ?_⟩, htallies.completedExcursions,
    htallies.failedExcursions⟩
  · have hflights : (fresh.watch ticks).2.inFlight.toList.length =
        if (fresh.run ticks).active > 0 then 1 else 0 := by
      cases hflight : (fresh.watch ticks).2.inFlight with
      | none => simp [hbooks.follows.idle hflight]
      | some flight => simp [(hbooks.follows.seeking flight.1 flight.2 hflight).1]
    rw [htallies.attempts, htallies.occurrences, htallies.failures, hflights, History.completed,
      History.failed, ← List.length_eq_length_filter_add]
  · rw [htallies.completionSeconds, htallies.completedExcursions]
    simp
  · intro hwhole
    have htruncated := htallies.truncated
    rw [hwhole] at htruncated
    rw [htallies.completedExcursions, htallies.failedExcursions, htallies.occurrences,
      htallies.failures]
    simp only [List.length_take, List.length_map]
    simp only [Bool.false_eq_true, false_iff, not_or] at htruncated
    omega
  · intro episode he
    obtain ⟨hle, hlt, hspans⟩ := hbooks.placed.spans episode he
    refine ⟨hle, episode.attempt.start, episode.attempt.last, ?_, ?_, ?_, ?_⟩
    · have hfirst := hspans.first
      rwa [List.getElem?_take_of_lt (by omega)] at hfirst
    · have hlast := hspans.last_eq
      rwa [List.getLast?_eq_getElem?, List.length_take, Nat.min_eq_left (by omega),
        Nat.add_sub_cancel, List.getElem?_take_of_lt (Nat.lt_succ_self _)] at hlast
    · rw [← hspans.rest, List.reverse_reverse]
    · rw [List.map_tail]
      exact hbooks.placed.lasts episode he

theorem bookkeeping_dipRecovery :
    let ticks : List MidTick := [⟨100000, 2, 0⟩, ⟨99500, 2, 60 * second⟩, ⟨99000, 2, 150 * second⟩,
      ⟨98900, 2, 180 * second⟩, ⟨99600, 2, 200 * second⟩]
    let stats := (dipRecoveryMatcher.run ticks).stats
    stats.attempts = stats.occurrences + stats.failuresByLeg.sum +
        (if (dipRecoveryMatcher.run ticks).active > 0 then 1 else 0) ∧
      (dipRecoveryMatcher.watch ticks).2.resolved.map (fun e => (e.start, e.stop)) = [(2, 4)] ∧
      stats.completedExcursions = [⟨600, 100, 99000⟩] := by
  have hmake : make dipRecovery 10 = .ok dipRecoveryMatcher := by decide +kernel
  exact ⟨(bookkeeping hmake _).1.1, by decide +kernel, by decide +kernel⟩

end ChainMatcher

end Experiments

end BacktestEngine

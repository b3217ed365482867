import Mathlib.Data.String.Basic
import BacktestEngine.Experiments.ChainMatcher
import BacktestEngine.Library.CivilDate
import BacktestEngine.Library.SortedMap

/-! # Evaluating an experiment

The ticks of a group of symbols come in one stream. Each symbol has its own matcher, and
the outcome sums over them in the order of their names, counts the completions by month
and by hour, and ranks the samples of all symbols together. It does not depend on how
the symbols' ticks were merged.
-/

namespace BacktestEngine

namespace Experiments

/-! ## The outcome -/

structure QuantilePair (D : Type) where
  p50 : D
  p90 : D

structure ExcursionStats (D : Type) where
  samples : ℕ
  mfePoints : QuantilePair D
  maePoints : QuantilePair D
  mfePercent : QuantilePair D
  maePercent : QuantilePair D

structure SymbolOutcome (D : Type) where
  occurrences : ℕ
  ticksScanned : ℕ
  daysSpanned : D

structure ExperimentOutcome (D : Type) where
  occurrences : ℕ
  ticksScanned : ℕ
  daysSpanned : D
  attempts : ℕ
  failuresByLeg : List ℕ
  occurrencesByMonth : SortedMap String ℕ
  occurrencesByHourUtc : List ℕ
  perSymbol : SortedMap String (SymbolOutcome D)
  occurrencesBySymbol : SortedMap String ℕ
  completedAttempts : Option (ExcursionStats D)
  failedAttempts : Option (ExcursionStats D)
  completionSeconds : Option (QuantilePair D)
  meanSpreadAtTriggerPoints : Option D
  excursionOrientation : String
  samplesTruncated : Bool

variable {D : Type} [Ceiling D]

/-! ## Percentiles -/

/-- The nearest rank of a sorted population. -/
def nearestRank (sorted : List D) (q : D) : D :=
  let rank := (Ceiling.ceil (Decimal.mul q (Decimal.ofInt sorted.length))).toNat
  sorted.getD (max rank 1 - 1) (Decimal.ofInt 0)

def quantiles (values : List D) : QuantilePair D :=
  let sorted := values.mergeSort fun a b => !Decimal.lt b a
  { p50 := nearestRank sorted (Decimal.div (Decimal.ofInt 1) (Decimal.ofInt 2))
    p90 := nearestRank sorted (Decimal.div (Decimal.ofInt 9) (Decimal.ofInt 10)) }

/-- Whether going up is what the final leg asks for. -/
def favorableUp (finalLeg : Activity D) : Bool :=
  match finalLeg.type with
  | .directionalMove =>
    Decimal.lt (Decimal.ofInt 0) finalLeg.movePercent || isZero finalLeg.movePercent
  | .newExtreme => finalLeg.direction ≥ 0
  | .rangeRelativeMove => finalLeg.direction ≥ 0
  | .staysInBand => true

/-- The favorable and the adverse excursion of a sample. -/
def ExcursionSample.oriented (up : Bool) (sample : ExcursionSample) : ℤ × ℤ :=
  if up then (sample.abovePoints, sample.belowPoints) else (sample.belowPoints, sample.abovePoints)

def percentOf (points anchorMid : ℤ) : D :=
  Decimal.div (Decimal.mul (Decimal.ofInt 100) (Decimal.ofInt points)) (Decimal.ofInt anchorMid)

/-- An empty population has no statistics. -/
def summariseExcursions (samples : List ExcursionSample) (up : Bool) : Option (ExcursionStats D) :=
  if samples = [] then none
  else some
    { samples := samples.length
      mfePoints := quantiles (samples.map fun s => Decimal.ofInt (s.oriented up).1)
      maePoints := quantiles (samples.map fun s => Decimal.ofInt (s.oriented up).2)
      mfePercent := quantiles (samples.map fun s => percentOf (s.oriented up).1 s.anchorMid)
      maePercent := quantiles (samples.map fun s => percentOf (s.oriented up).2 s.anchorMid) }

/-! ## The calendar -/

/-- A number padded with zeros to the width; its sign counts. -/
def padded (width : ℕ) (n : ℤ) : String :=
  let digits := toString n.natAbs
  let sign := if n < 0 then "-" else ""
  sign ++ String.ofList (List.replicate (width - sign.length - digits.length) '0') ++ digits

/-- The day of a time, rounded down. -/
def dayOf (timestamp : ℤ) : ℤ := timestamp / (86400 * second)

def monthKey (timestamp : ℤ) : String :=
  let date := CivilDate.civilFromDays (dayOf timestamp)
  padded 4 date.1 ++ "-" ++ padded 2 date.2.1

def hourOf (timestamp : ℤ) : ℕ :=
  ((timestamp - dayOf timestamp * (86400 * second)) / (3600 * second)).toNat

/-! ## One pass over the ticks -/

/-- The times of ticks: none are later than the top and none earlier than the bottom. -/
structure TimeSpan where
  minTs : WithTop ℤ := ⊤
  maxTs : WithBot ℤ := ⊥

def TimeSpan.add (span : TimeSpan) (timestamp : ℤ) : TimeSpan where
  minTs := min span.minTs timestamp
  maxTs := max span.maxTs timestamp

/-- A duration in days. -/
def TimeSpan.days (span : TimeSpan) : D :=
  Decimal.div (Decimal.ofInt (span.maxTs.unbotD 0 - span.minTs.untopD 0))
    (Decimal.ofInt (86400 * second))

structure SymbolSpan where
  ticks : ℕ := 0
  times : TimeSpan := {}

def SymbolSpan.add (span : SymbolSpan) (timestamp : ℤ) : SymbolSpan where
  ticks := span.ticks + 1
  times := span.times.add timestamp

/-- What the pass has gathered. -/
structure Scan where
  matchers : SortedMap String ChainMatcher := ∅
  spans : SortedMap String SymbolSpan := ∅
  occurrencesByMonth : SortedMap String ℕ := ∅
  occurrencesByHourUtc : List ℕ := List.replicate 24 0
  times : TimeSpan := {}

/-- A tick as the matcher of its symbol is given it. -/
def midTick (tick : PriceData) : MidTick where
  mid := (tick.ask + tick.bid).tdiv 2
  spread := tick.ask - tick.bid
  ts := tick.timestamp

/-- The matcher of a symbol, or a fresh one before its first tick. -/
def matcherStep (fresh : ChainMatcher) (matcher : Option ChainMatcher) (tick : PriceData) :
    ChainMatcher :=
  (matcher.getD fresh).onTick (midTick tick)

/-- The tick completes an occurrence of its symbol. -/
def completes (fresh : ChainMatcher) (matcher : Option ChainMatcher) (tick : PriceData) : Bool :=
  (matcherStep fresh matcher tick).stats.occurrences > (matcher.getD fresh).stats.occurrences

def spanStep (span : Option SymbolSpan) (tick : PriceData) : SymbolSpan :=
  (span.getD {}).add tick.timestamp

def bump (count : Option ℕ) : ℕ := count.getD 0 + 1

def Scan.onTick (fresh : ChainMatcher) (scan : Scan) (tick : PriceData) : Scan :=
  let completed := completes fresh (scan.matchers.get? tick.symbol) tick
  { matchers := scan.matchers.update tick.symbol fun matcher => matcherStep fresh matcher tick
    spans := scan.spans.update tick.symbol fun span => spanStep span tick
    occurrencesByMonth :=
      if completed then scan.occurrencesByMonth.update (monthKey tick.timestamp) bump
      else scan.occurrencesByMonth
    occurrencesByHourUtc :=
      if completed then scan.occurrencesByHourUtc.modify (hourOf tick.timestamp) (· + 1)
      else scan.occurrencesByHourUtc
    times := scan.times.add tick.timestamp }

/-! ## The sums -/

/-- What is summed over the symbols, in the order of their names. -/
structure Totals where
  occurrences : ℕ := 0
  attempts : ℕ := 0
  failuresByLeg : List ℕ
  completed : List ExcursionSample := []
  failed : List ExcursionSample := []
  completionSeconds : List ℤ := []
  spreadSum : ℤ := 0
  spreadCount : ℕ := 0
  samplesTruncated : Bool := false

def Totals.add (totals : Totals) (stats : MatchStats) : Totals where
  occurrences := totals.occurrences + stats.occurrences
  attempts := totals.attempts + stats.attempts
  failuresByLeg := List.zipWith (· + ·) totals.failuresByLeg stats.failuresByLeg
  completed := totals.completed ++ stats.completedExcursions
  failed := totals.failed ++ stats.failedExcursions
  completionSeconds := totals.completionSeconds ++ stats.completionSeconds
  spreadSum := totals.spreadSum + stats.spreadAtTriggerSum
  spreadCount := totals.spreadCount + stats.spreadAtTriggerCount
  samplesTruncated := totals.samplesTruncated || stats.samplesTruncated

def summarise (config : ExperimentConfig D) (ticksScanned : ℕ) (scan : Scan) :
    ExperimentOutcome D :=
  let totals : Totals := scan.matchers.entries.foldl (fun totals e => totals.add e.2.stats)
    { failuresByLeg := List.replicate config.chain.length 0 }
  let up := config.chain.getLast?.any favorableUp
  { occurrences := totals.occurrences
    ticksScanned := ticksScanned
    daysSpanned := if ticksScanned = 0 then Decimal.ofInt 0 else scan.times.days
    attempts := totals.attempts
    failuresByLeg := totals.failuresByLeg
    occurrencesByMonth := scan.occurrencesByMonth
    occurrencesByHourUtc := scan.occurrencesByHourUtc
    perSymbol := scan.matchers.mapValues fun symbol matcher =>
      let span := (scan.spans.get? symbol).getD {}
      { occurrences := matcher.stats.occurrences
        ticksScanned := span.ticks
        daysSpanned := span.times.days }
    occurrencesBySymbol := scan.matchers.mapValues fun _ matcher => matcher.stats.occurrences
    completedAttempts := summariseExcursions totals.completed up
    failedAttempts := summariseExcursions totals.failed up
    completionSeconds :=
      if totals.completionSeconds = [] then none
      else some (quantiles (totals.completionSeconds.map Decimal.ofInt))
    meanSpreadAtTriggerPoints :=
      if totals.spreadCount > 0 then
        some (Decimal.div (Decimal.ofInt totals.spreadSum) (Decimal.ofInt totals.spreadCount))
      else none
    excursionOrientation := if up then "up" else "down"
    samplesTruncated := totals.samplesTruncated }

/-- The outcome of an experiment over a stream, or what is wrong with its chain. -/
def evaluateExperiment (ticks : List PriceData) (config : ExperimentConfig D) :
    Except String (ExperimentOutcome D) := do
  let fresh ← ChainMatcher.make config kMaxAttemptSamples
  return summarise config ticks.length (ticks.foldl (Scan.onTick fresh) {})

/-! ## Merged streams -/

variable {fresh : ChainMatcher} {scan : Scan} {ticks ticks' : List PriceData}

theorem onTicks_matchers : (ticks.foldl (Scan.onTick fresh) scan).matchers =
    SortedMap.demux PriceData.symbol (matcherStep fresh) scan.matchers ticks :=
  (List.foldl_hom Scan.matchers fun _ _ => rfl).symm

theorem onTicks_spans : (ticks.foldl (Scan.onTick fresh) scan).spans =
    SortedMap.demux PriceData.symbol spanStep scan.spans ticks :=
  (List.foldl_hom Scan.spans fun _ _ => rfl).symm

theorem onTicks_times : (ticks.foldl (Scan.onTick fresh) scan).times =
    ticks.foldl (fun times tick => times.add tick.timestamp) scan.times :=
  (List.foldl_hom Scan.times fun _ _ => rfl).symm

/-- The ticks of the stream that complete an occurrence. -/
def completing (fresh : ChainMatcher) (matchers : SortedMap String ChainMatcher) :
    List PriceData → List PriceData
  | [] => []
  | tick :: rest =>
    let later := completing fresh (matchers.update tick.symbol fun matcher =>
      matcherStep fresh matcher tick) rest
    if completes fresh (matchers.get? tick.symbol) tick then tick :: later else later

/-- The ticks of one symbol that complete an occurrence. -/
def completingOne (fresh : ChainMatcher) : Option ChainMatcher → List PriceData → List PriceData
  | _, [] => []
  | matcher, tick :: rest =>
    let later := completingOne fresh (some (matcherStep fresh matcher tick)) rest
    if completes fresh matcher tick then tick :: later else later

/-- What is counted at completing ticks only is a fold over these. -/
theorem onTicks_completing {β : Type} (field : Scan → β) (count : β → PriceData → β)
    (hfield : ∀ scan tick, field (Scan.onTick fresh scan tick) =
      if completes fresh (scan.matchers.get? tick.symbol) tick then count (field scan) tick
      else field scan) (scan : Scan) (ticks : List PriceData) :
    field (ticks.foldl (Scan.onTick fresh) scan) =
      (completing fresh scan.matchers ticks).foldl count (field scan) := by
  induction ticks generalizing scan with
  | nil => rfl
  | cons tick ticks ih =>
    rw [List.foldl_cons, ih, hfield, completing]
    split
    · rfl
    · rfl

theorem filter_completing (matchers : SortedMap String ChainMatcher) (ticks : List PriceData)
    (symbol : String) :
    ((completing fresh matchers ticks).filter fun tick => tick.symbol = symbol) =
      completingOne fresh (matchers.get? symbol) (ticks.filter fun tick => tick.symbol = symbol) := by
  induction ticks generalizing matchers with
  | nil => rfl
  | cons tick ticks ih =>
    by_cases hsymbol : tick.symbol = symbol
    · subst hsymbol
      rw [List.filter_cons_of_pos (by simp), completing, completingOne]
      split
      · rw [List.filter_cons_of_pos (by simp), ih, SortedMap.get?_update_self]
      · rw [ih, SortedMap.get?_update_self]
    · rw [List.filter_cons_of_neg (by simpa using hsymbol), completing]
      split
      · rw [List.filter_cons_of_neg (by simpa using hsymbol), ih,
          SortedMap.get?_update_of_ne (Ne.symm hsymbol)]
      · rw [ih, SortedMap.get?_update_of_ne (Ne.symm hsymbol)]

/-- Merging the symbols' ticks otherwise rearranges the completing ticks. -/
theorem completing_perm (fresh : ChainMatcher)
    (h : SortedMap.SameStreams PriceData.symbol ticks ticks')
    (matchers : SortedMap String ChainMatcher) :
    (completing fresh matchers ticks).Perm (completing fresh matchers ticks') := by
  have hstreams : SortedMap.SameStreams PriceData.symbol (completing fresh matchers ticks)
      (completing fresh matchers ticks') := by
    intro symbol
    rw [filter_completing, filter_completing, h symbol]
  exact hstreams.perm

theorem modify_comm (counts : List ℕ) (i j : ℕ) :
    (counts.modify i (· + 1)).modify j (· + 1) = (counts.modify j (· + 1)).modify i (· + 1) := by
  refine List.ext_getElem? fun k => ?_
  rw [List.getElem?_modify, List.getElem?_modify, List.getElem?_modify, List.getElem?_modify]
  cases counts[k]? with
  | none => rfl
  | some count => split_ifs <;> rfl

/-- One pass gathers the same from two merges of the same symbols' ticks. -/
theorem scan_eq (h : SortedMap.SameStreams PriceData.symbol ticks ticks') (scan : Scan) :
    ticks.foldl (Scan.onTick fresh) scan = ticks'.foldl (Scan.onTick fresh) scan := by
  have hmatchers : (ticks.foldl (Scan.onTick fresh) scan).matchers =
      (ticks'.foldl (Scan.onTick fresh) scan).matchers := by
    rw [onTicks_matchers, onTicks_matchers, h.demux_eq]
  have hspans : (ticks.foldl (Scan.onTick fresh) scan).spans =
      (ticks'.foldl (Scan.onTick fresh) scan).spans := by
    rw [onTicks_spans, onTicks_spans, h.demux_eq]
  have htimes : (ticks.foldl (Scan.onTick fresh) scan).times =
      (ticks'.foldl (Scan.onTick fresh) scan).times := by
    rw [onTicks_times, onTicks_times]
    refine h.perm.foldl_eq' (fun tick _ other _ times => ?_) scan.times
    simp only [TimeSpan.add, min_right_comm, max_right_comm]
  have hcompleting := completing_perm fresh h scan.matchers
  have hmonths : (ticks.foldl (Scan.onTick fresh) scan).occurrencesByMonth =
      (ticks'.foldl (Scan.onTick fresh) scan).occurrencesByMonth := by
    let count := fun (months : SortedMap String ℕ) (tick : PriceData) =>
      months.update (monthKey tick.timestamp) bump
    rw [onTicks_completing Scan.occurrencesByMonth count (fun _ _ => rfl),
      onTicks_completing Scan.occurrencesByMonth count (fun _ _ => rfl)]
    exact hcompleting.foldl_eq' (fun _ _ _ _ _ => SortedMap.update_comm (fun _ => rfl) _ _) _
  have hhours : (ticks.foldl (Scan.onTick fresh) scan).occurrencesByHourUtc =
      (ticks'.foldl (Scan.onTick fresh) scan).occurrencesByHourUtc := by
    let count := fun (hours : List ℕ) (tick : PriceData) =>
      hours.modify (hourOf tick.timestamp) (· + 1)
    rw [onTicks_completing Scan.occurrencesByHourUtc count (fun _ _ => rfl),
      onTicks_completing Scan.occurrencesByHourUtc count (fun _ _ => rfl)]
    exact hcompleting.foldl_eq' (fun _ _ _ _ hours => modify_comm hours _ _) _
  cases hscan : ticks.foldl (Scan.onTick fresh) scan
  cases hscan' : ticks'.foldl (Scan.onTick fresh) scan
  simp_all

/-- The outcome does not depend on how the symbols' ticks are merged into one stream. -/
theorem evaluateExperiment_merge (h : SortedMap.SameStreams PriceData.symbol ticks ticks')
    (config : ExperimentConfig D) :
    evaluateExperiment ticks config = evaluateExperiment ticks' config := by
  rw [evaluateExperiment, evaluateExperiment, h.perm.length_eq]
  cases ChainMatcher.make config kMaxAttemptSamples with
  | error what => rfl
  | ok fresh => exact congrArg (Except.ok ∘ summarise config ticks'.length) (scan_eq h {})

/-- A drop of one percent in ten minutes. -/
def plainDip : ExperimentConfig ℚ where
  chain :=
    [{ type := .directionalMove, movePercent := -1, windowSeconds := 600, lookbackSeconds := 0
       direction := 0, atrMultiple := 0 }]

def quote (symbol : String) (price timestamp : ℤ) : PriceData :=
  ⟨price + 1, price - 1, timestamp, symbol⟩

/-- Two symbols that both drop, tick by tick or one after the other. -/
theorem evaluateExperiment_merge_two :
    evaluateExperiment [quote "EURUSD" 100000 0, quote "GBPUSD" 120000 second,
        quote "EURUSD" 99000 (2 * second), quote "GBPUSD" 118000 (3 * second)] plainDip =
      evaluateExperiment [quote "GBPUSD" 120000 second, quote "GBPUSD" 118000 (3 * second),
        quote "EURUSD" 100000 0, quote "EURUSD" 99000 (2 * second)] plainDip := by
  refine evaluateExperiment_merge (fun symbol => ?_) plainDip
  by_cases heur : "EURUSD" = symbol
  · subst heur
    rfl
  · by_cases hgbp : "GBPUSD" = symbol
    · subst hgbp
      rfl
    · simp [quote, heur, hgbp]

end Experiments

end BacktestEngine

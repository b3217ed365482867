import BacktestEngine.Bars.Sharing
import BacktestEngine.Library.Blocks
import BacktestEngine.Library.Drawdown

/-! # Time bars partition the ticks

The bars of a stream of ticks stand for consecutive blocks of it. A block ends before the
first tick that is later than the duration after the block's own first tick.
-/

namespace BacktestEngine

namespace Ohlc

/-- The bars of ticks with their prices, without warm-up. -/
def foldTicks (warmUp : WarmUp) (duration : ℤ) (ticks : List (PriceData × ℤ)) :
    Except String (List OhlcObject) :=
  ticks.foldlM (fun bars t => calculateOHLC warmUp t.1 t.2 duration bars) []

/-- The same, with the oldest bars dropped after every tick. -/
def foldKept (warmUp : WarmUp) (duration : ℤ) (depth : ℕ) (ticks : List (PriceData × ℤ)) :
    Except String (List OhlcObject) :=
  ticks.foldlM (fun bars t => do
    let bars ← calculateOHLC warmUp t.1 t.2 duration bars
    return BoundedTail.trim depth bars) []

/-- A bar has the first time of a block and the first, the highest, the lowest and the last of its
prices, and no tick of the block is later than the duration. -/
structure Summary (duration : ℤ) (bar : OhlcObject) (block : List (PriceData × ℤ)) : Prop where
  date : block.head?.map (fun t => t.1.timestamp) = some bar.date
  openPrice : block.head?.map Prod.snd = some bar.openPrice
  high : IsGreatest {price | price ∈ block.map Prod.snd} bar.high
  low : IsLeast {price | price ∈ block.map Prod.snd} bar.low
  close : block.getLast?.map Prod.snd = some bar.close
  within : ∀ t ∈ block, t.1.timestamp ≤ bar.date + duration

/-- The ticks are cut into blocks, one for each bar in order. The next block begins later than the
duration after a bar, and all bars but the last are complete. -/
def Partition (duration : ℤ) (ticks : List (PriceData × ℤ)) (bars : List OhlcObject) : Prop :=
  ∃ blocks : List (OhlcObject × List (PriceData × ℤ)),
    blocks.map Prod.fst = bars ∧ (blocks.map Prod.snd).flatten = ticks ∧
    (∀ block ∈ blocks, block.2 ≠ [] ∧ Summary duration block.1 block.2) ∧
    (blocks.IsChain fun a b => ∀ t ∈ b.2.head?, a.1.date + duration < t.1.timestamp) ∧
    (∀ bar ∈ bars.dropLast, bar.complete = true) ∧
    ∀ last ∈ bars.getLast?, last.complete = false

/-- The builder as a scan of the stream. -/
def scan (duration : ℤ) : BlockScan (PriceData × ℤ) OhlcObject where
  opened t := .opened t.1 t.2
  absorb bar t := bar.absorb t.2
  close bar := { bar with complete := true }
  rolls bar t := t.1.timestamp - bar.date > duration

variable {warmUp : WarmUp} {duration : ℤ} {ticks : List (PriceData × ℤ)} {bars : List OhlcObject}
  {bar : OhlcObject} {block : List (PriceData × ℤ)}

theorem scan_step (t : PriceData × ℤ) : (scan duration).step t = rollBar t.1 t.2 duration := by
  funext last
  cases last with
  | none => rfl
  | some last => simp [BlockScan.step, scan, rollBar]

theorem calculateOHLC_step (hduration : 0 < duration) (t : PriceData × ℤ) :
    calculateOHLC warmUp t.1 t.2 duration bars =
      .ok (BoundedTail.advance ((scan duration).step t) bars) := by
  rw [scan_step]
  exact calculateOHLC_seeded hduration (seedBars_cold le_rfl)

theorem foldTicks_eq (warmUp : WarmUp) (hduration : 0 < duration)
    (ticks : List (PriceData × ℤ)) :
    foldTicks warmUp duration ticks = .ok ((scan duration).run ticks) := by
  unfold foldTicks BlockScan.run
  generalize ([] : List OhlcObject) = bars
  induction ticks generalizing bars with
  | nil => rfl
  | cons t ticks ih =>
    rw [List.foldlM_cons, calculateOHLC_step hduration]
    exact ih _

theorem foldKept_eq (warmUp : WarmUp) (hduration : 0 < duration) (depth : ℕ)
    (ticks : List (PriceData × ℤ)) :
    foldKept warmUp duration depth ticks = .ok (((scan duration).run ticks).rtake depth) := by
  rw [← BlockScan.foldl_trim]
  unfold foldKept
  generalize ([] : List OhlcObject) = bars
  induction ticks generalizing bars with
  | nil => rfl
  | cons t ticks ih =>
    rw [List.foldlM_cons, calculateOHLC_step hduration]
    exact ih _

/-! ## Summaries -/

theorem summary_of_builds (hduration : 0 < duration) (h : (scan duration).Builds bar block) :
    Summary duration bar block ∧ bar.complete = false := by
  induction h with
  | single t =>
    refine ⟨⟨rfl, rfl, ?_, ?_, rfl, ?_⟩, rfl⟩
    · simp [scan, OhlcObject.opened]
    · simp [scan, OhlcObject.opened]
    · simp [scan, OhlcObject.opened, hduration.le]
  | @snoc bar block t h hstays ih =>
    obtain ⟨hsummary, hcomplete⟩ := ih
    have hhead : (block ++ [t]).head? = block.head? := List.head?_append_of_ne_nil _ h.ne_nil
    refine ⟨⟨?_, ?_, ?_, ?_, ?_, ?_⟩, hcomplete⟩
    · rw [hhead]
      exact hsummary.date
    · rw [hhead]
      exact hsummary.openPrice
    · rw [List.map_append]
      change IsGreatest _ (bar.absorb t.2).high
      rw [OhlcObject.absorb_high]
      exact Drawdown.isGreatest_snoc hsummary.high t.2
    · rw [List.map_append]
      change IsLeast _ (bar.absorb t.2).low
      rw [OhlcObject.absorb_low]
      exact Drawdown.isLeast_snoc hsummary.low t.2
    · rw [List.getLast?_concat]
      rfl
    · intro other hother
      change other.1.timestamp ≤ bar.date + duration
      obtain hother | hother := List.mem_append.mp hother
      · exact hsummary.within other hother
      · rw [List.mem_singleton.mp hother]
        have hdate : ¬ t.1.timestamp - bar.date > duration := by simpa [scan] using hstays
        omega

/-- A summary says nothing about whether the bar is complete. -/
theorem Summary.closed (h : Summary duration bar block) :
    Summary duration ((scan duration).close bar) block :=
  ⟨h.date, h.openPrice, h.high, h.low, h.close, h.within⟩

/-- The bars of a run are those of its blocks. -/
theorem partition_run (hduration : 0 < duration) (ticks : List (PriceData × ℤ)) :
    Partition duration ticks ((scan duration).run ticks) := by
  obtain ⟨blocks, hflatten, hbuilds, hrolls, hout⟩ := (scan duration).exists_cut ticks
  rw [hout]
  induction blocks using List.reverseRecOn with
  | nil => exact ⟨[], rfl, hflatten, by simp, .nil, by simp, by simp⟩
  | append_singleton blocks last =>
    have hsummary (block) (hblock : block ∈ blocks ++ [last]) :=
      summary_of_builds hduration (hbuilds block hblock)
    have hlate : (blocks ++ [last]).IsChain fun a b =>
        ∀ t ∈ b.2.head?, a.1.date + duration < t.1.timestamp := by
      refine hrolls.imp fun a b hroll t ht => ?_
      have hlater : t.1.timestamp - a.1.date > duration := by simpa [scan] using hroll t ht
      omega
    rw [List.isChain_append] at hlate
    simp only [List.dropLast_concat, List.getLast?_concat, Option.map_some, Option.toList_some]
    refine ⟨(blocks.map fun block => ((scan duration).close block.1, block.2)) ++ [last],
      by simp, by simpa [Function.comp_def] using hflatten, ?_, ?_, ?_, ?_⟩
    · intro block hblock
      obtain hblock | hblock := List.mem_append.mp hblock
      · obtain ⟨closed, hclosed, rfl⟩ := List.mem_map.mp hblock
        have hmem := List.mem_append_left [last] hclosed
        exact ⟨(hbuilds closed hmem).ne_nil, (hsummary closed hmem).1.closed⟩
      · obtain rfl := List.mem_singleton.mp hblock
        have hmem := List.mem_append_right blocks (List.mem_singleton_self block)
        exact ⟨(hbuilds block hmem).ne_nil, (hsummary block hmem).1⟩
    · rw [List.isChain_append]
      refine ⟨(List.isChain_map _).mpr hlate.1, .singleton _, ?_⟩
      rw [List.getLast?_map]
      rintro _ hclosed
      obtain ⟨block, hblock, rfl⟩ := Option.mem_map.mp hclosed
      exact hlate.2.2 block hblock
    · rw [List.dropLast_concat]
      intro bar hbar
      obtain ⟨block, -, rfl⟩ := List.mem_map.mp hbar
      rfl
    · rw [List.getLast?_concat]
      rintro _ ⟨⟩
      exact (hsummary last (List.mem_append_right _ List.mem_cons_self)).2

/-- The time bars of a store's series are a run over the asks. -/
theorem run_asks (minutes : ℤ) (ticks : List PriceData) :
    (scan (BarStore.duration minutes)).run (ticks.map fun tick => (tick, tick.ask)) =
      BarStore.timeBars minutes ticks := by
  rw [BlockScan.run, List.foldl_map]
  simp only [scan_step]
  rfl

/-- The bars of any stream partition it. Dropping the oldest bars after every tick leaves the last
ones of the partition, and so does a store for each series and symbol. -/
theorem bars_partition_ticks (warmUp : WarmUp) :
    (∀ duration ticks, 0 < duration →
      ∃ bars, foldTicks warmUp duration ticks = .ok bars ∧ Partition duration ticks bars ∧
        ∀ depth, foldKept warmUp duration depth ticks = .ok (bars.rtake depth)) ∧
    ∀ registrations registered ticks, BarStore.fresh.registerAll registrations = .ok registered →
      warmUp.prepopulate = false →
        ∃ store, registered.feed warmUp ticks = .ok store ∧
          ∀ symbol minutes count, BarStore.largestCount registrations minutes = some count →
            BarStore.own symbol ticks ≠ [] →
              ∃ bars, Partition (BarStore.duration minutes)
                  ((BarStore.own symbol ticks).map fun tick => (tick, tick.ask)) bars ∧
                store.find symbol minutes = some (bars.rtake count.toNat) := by
  constructor
  · intro duration ticks hduration
    refine ⟨_, foldTicks_eq warmUp hduration ticks, partition_run hduration ticks, ?_⟩
    exact fun depth => foldKept_eq warmUp hduration depth ticks
  · intro registrations registered ticks hregistered hoff
    have hvalid := BarStore.registered_of_registerAll hregistered
    obtain ⟨store, hfeed, hfind, -⟩ := hvalid.feed hoff ticks
    refine ⟨store, hfeed, ?_⟩
    intro symbol minutes count hcount hticks
    have hminutes := (hvalid.minutes_pos hcount).1
    refine ⟨_, partition_run (BarStore.duration_pos hminutes) _, ?_⟩
    rw [hfind, if_neg hticks, hcount, run_asks]
    rfl

/-- A tick on the boundary, one at the same time, and one after it. -/
def boundaryTicks : List PriceData :=
  [⟨3, 3, 0, "EURUSD"⟩, ⟨5, 5, 60 * second, "EURUSD"⟩, ⟨2, 2, 60 * second, "EURUSD"⟩,
    ⟨4, 4, 61 * second, "EURUSD"⟩]

theorem bars_partition_ticks_boundary :
    Partition (60 * second) (boundaryTicks.map fun tick => (tick, tick.ask))
        [⟨0, 3, 2, 5, 2, true⟩, ⟨61 * second, 4, 4, 4, 4, false⟩] ∧
      ∃ registered store, BarStore.fresh.registerAll [.series ⟨1, 1⟩] = .ok registered ∧
        registered.feed .off boundaryTicks = .ok store ∧
        ∃ bars, Partition (BarStore.duration 1)
            ((BarStore.own "EURUSD" boundaryTicks).map fun tick => (tick, tick.ask)) bars ∧
          store.find "EURUSD" 1 = some (bars.rtake 1) := by
  obtain ⟨hfold, hstore⟩ := bars_partition_ticks .off
  constructor
  · obtain ⟨bars, hbars, hpartition, -⟩ :=
      hfold (60 * second) (boundaryTicks.map fun tick => (tick, tick.ask)) (by decide)
    obtain rfl := Except.ok.inj hbars
    exact hpartition
  · obtain ⟨store, hfeed, hfind⟩ := hstore [.series ⟨1, 1⟩] _ boundaryTicks rfl rfl
    exact ⟨_, store, rfl, hfeed, hfind "EURUSD" 1 1 rfl (by decide)⟩

end Ohlc

end BacktestEngine

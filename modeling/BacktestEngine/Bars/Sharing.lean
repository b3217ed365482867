import BacktestEngine.Bars.BarStore
import BacktestEngine.Bars.RangeSemantics

/-! # Sharing the bar store

Every history is that of its own symbol's ticks alone, at the greatest depth that was
registered for it, and a reader of its end sees what a store of its own would hold.
-/

namespace BacktestEngine

namespace BarStore

/-! ## What is registered -/

theorem lawful_series : Registry.Lawful sameMinutes deepen where
  refl _ := decide_eq_true rfl
  congr h z := by
    unfold sameMinutes at *
    rw [of_decide_eq_true h]
  merge _ _ _ := rfl

theorem lawful_range : Registry.Lawful sameIdentity deepenRange where
  refl _ := by simp [sameIdentity]
  congr h z := by
    simp only [sameIdentity, Bool.and_eq_true, decide_eq_true_eq] at h
    simp only [sameIdentity, h.1, h.2]
  merge _ _ _ := rfl

/-- The greatest depth registered for a duration. -/
def largestCount (registrations : List Registration) (minutes : ℤ) : Option ℤ :=
  (((registrations.filterMap Registration.series?).filter fun spec => spec.minutes = minutes).map
    SeriesSpec.count).max?

/-- The greatest depth registered for a range series. -/
def largestRangeCount (registrations : List Registration) (spec : RangeBarSpec) : Option ℤ :=
  (((registrations.filterMap Registration.range?).filter (sameIdentity · spec)).map
    RangeBarSpec.count).max?

structure Valid (specs : List SeriesSpec) (rangeSpecs : List RangeBarSpec) : Prop where
  series : ∀ spec ∈ specs, 1 ≤ spec.minutes ∧ 1 ≤ spec.count
  range : ∀ spec ∈ rangeSpecs, 1 ≤ spec.atrTickWindow ∧ 1 ≤ spec.atrPercent ∧ 1 ≤ spec.count

/-- What a store that has only been registered with looks like. -/
structure Registered (registrations : List Registration) (store : BarStore) : Prop where
  specs : store.specs = (registrations.filterMap Registration.series?).foldl
    (fun specs spec => Registry.register sameMinutes deepen spec specs) []
  rangeSpecs : store.rangeSpecs = (registrations.filterMap Registration.range?).foldl
    (fun specs spec => Registry.register sameIdentity deepenRange spec specs) []
  bySymbol : store.bySymbol = ∅
  rangeBySymbol : store.rangeBySymbol = ∅
  valid : Valid store.specs store.rangeSpecs

theorem registered_fresh : Registered [] fresh :=
  ⟨rfl, rfl, rfl, rfl, by simp [fresh], by simp [fresh]⟩

variable {registrations : List Registration} {store store' : BarStore}

theorem Registered.register {registration : Registration} (h : Registered registrations store)
    (hok : store.register registration = .ok store') :
    Registered (registrations ++ [registration]) store' := by
  cases registration with
  | series spec =>
    simp only [BarStore.register, registerSeries] at hok
    split_ifs at hok with hinvalid
    rw [not_or, not_lt, not_lt] at hinvalid
    cases hok
    constructor
    · simp [Registration.series?, h.specs]
    · simp [List.filterMap_cons, Registration.range?, h.rangeSpecs]
    · exact h.bySymbol
    · exact h.rangeBySymbol
    · refine ⟨Registry.mem_register hinvalid ?_ h.valid.series, h.valid.range⟩
      rintro other - ⟨hminutes, hcount⟩
      exact ⟨hminutes, hcount.trans (le_max_left _ _)⟩
  | range spec =>
    simp only [BarStore.register, registerRangeSeries] at hok
    split_ifs at hok with hinvalid
    simp only [not_or, not_lt] at hinvalid
    cases hok
    constructor
    · simp [List.filterMap_cons, Registration.series?, h.specs]
    · simp [Registration.range?, h.rangeSpecs]
    · exact h.bySymbol
    · exact h.rangeBySymbol
    · refine ⟨h.valid.series, Registry.mem_register hinvalid ?_ h.valid.range⟩
      rintro other - ⟨hwindow, hpercent, hcount⟩
      exact ⟨hwindow, hpercent, hcount.trans (le_max_left _ _)⟩

theorem registered_of_registerAll (hok : fresh.registerAll registrations = .ok store) :
    Registered registrations store := by
  induction registrations using List.reverseRecOn generalizing store with
  | nil =>
    cases hok
    exact registered_fresh
  | append_singleton registrations registration ih =>
    rw [registerAll, List.foldlM_append] at hok
    cases hbefore : fresh.registerAll registrations with
    | error message =>
      rw [registerAll] at hbefore
      simp [hbefore] at hok
      cases hok
    | ok before =>
      rw [registerAll] at hbefore
      simp [hbefore] at hok
      exact (ih hbefore).register hok

theorem foldl_deepen (specs : List SeriesSpec) (spec : SeriesSpec) :
    specs.foldl deepen spec =
      { spec with count := (specs.map SeriesSpec.count).foldl max spec.count } := by
  induction specs generalizing spec with
  | nil => rfl
  | cons other specs ih => exact ih (deepen spec other)

theorem foldl_deepenRange (specs : List RangeBarSpec) (spec : RangeBarSpec) :
    specs.foldl deepenRange spec =
      { spec with count := (specs.map RangeBarSpec.count).foldl max spec.count } := by
  induction specs generalizing spec with
  | nil => rfl
  | cons other specs ih => exact ih (deepenRange spec other)

/-- The spec of a duration has the greatest depth. -/
theorem Registered.find?_specs (h : Registered registrations store) (minutes : ℤ) :
    store.specs.find? (fun spec => spec.minutes = minutes) =
      (largestCount registrations minutes).map fun count => ⟨minutes, count⟩ := by
  have hfind := Registry.find?_registerAll lawful_series ⟨minutes, 0⟩
    (registrations.filterMap Registration.series?)
  rw [← h.specs] at hfind
  refine hfind.trans ?_
  unfold largestCount
  change Registry.mergeAll deepen (List.filter (fun spec => spec.minutes = minutes) _) = _
  cases hsame : (registrations.filterMap Registration.series?).filter
      fun spec => spec.minutes = minutes with
  | nil => rfl
  | cons spec specs =>
    have hminutes : spec.minutes = minutes := by
      have hmem : spec ∈ spec :: specs := List.mem_cons_self
      rw [← hsame, List.mem_filter] at hmem
      exact of_decide_eq_true hmem.2
    rw [Registry.mergeAll, foldl_deepen, List.map_cons, List.max?_cons', hminutes, Option.map_some]

/-- The spec of a range series has the greatest depth. -/
theorem Registered.find?_rangeSpecs (h : Registered registrations store) (spec : RangeBarSpec) :
    store.rangeSpecs.find? (fun existing => sameIdentity existing spec) =
      (largestRangeCount registrations spec).map fun count => { spec with count := count } := by
  have hfind := Registry.find?_registerAll lawful_range spec
    (registrations.filterMap Registration.range?)
  rw [← h.rangeSpecs] at hfind
  rw [hfind]
  unfold largestRangeCount
  cases hsame : (registrations.filterMap Registration.range?).filter (sameIdentity · spec) with
  | nil => rfl
  | cons first specs =>
    have hidentity : first.atrTickWindow = spec.atrTickWindow ∧ first.atrPercent = spec.atrPercent := by
      have hmem : first ∈ first :: specs := List.mem_cons_self
      rw [← hsame, List.mem_filter] at hmem
      simpa [sameIdentity] using hmem.2
    rw [Registry.mergeAll, foldl_deepenRange, List.map_cons, List.max?_cons', Option.map_some,
      hidentity.1, hidentity.2]

/-! ## The histories -/

/-- The ticks of a symbol. -/
def own (symbol : String) (ticks : List PriceData) : List PriceData :=
  ticks.filter fun tick => tick.symbol = symbol

/-- All the time bars of one symbol's ticks. -/
def foldOHLC (warmUp : WarmUp) (minutes : ℤ) (ticks : List PriceData) :
    Except String (List OhlcObject) :=
  ticks.foldlM (fun bars tick => Ohlc.calculateOHLC warmUp tick tick.ask (duration minutes) bars) []

/-- The bars of `foldOHLC`, which never throws for a positive duration. -/
def timeBars (minutes : ℤ) (ticks : List PriceData) : List OhlcObject :=
  ticks.foldl (fun bars tick =>
    BoundedTail.advance (Ohlc.rollBar tick tick.ask (duration minutes)) bars) []

variable {warmUp : WarmUp} {minutes : ℤ} {tick : PriceData} {ticks : List PriceData}
  {symbol : String}

theorem duration_pos (h : 1 ≤ minutes) : 0 < duration minutes := by
  unfold duration second
  omega

theorem foldOHLC_eq (hoff : warmUp.prepopulate = false) (hminutes : 1 ≤ minutes)
    (ticks : List PriceData) : foldOHLC warmUp minutes ticks = .ok (timeBars minutes ticks) := by
  unfold foldOHLC timeBars
  generalize ([] : List OhlcObject) = bars
  induction ticks generalizing bars with
  | nil => rfl
  | cons tick ticks ih =>
    rw [List.foldlM_cons, Ohlc.calculateOHLC_off hoff (duration_pos hminutes)]
    exact ih _

/-- The history kept for a spec over one symbol's ticks. -/
def history (spec : SeriesSpec) (ticks : List PriceData) : List OhlcObject :=
  (timeBars spec.minutes ticks).rtake spec.count.toNat

theorem updateOHLC_history (ticks : List PriceData) (tick : PriceData)
    (hoff : warmUp.prepopulate = false) {spec : SeriesSpec}
    (hspec : 1 ≤ spec.minutes ∧ 1 ≤ spec.count) :
    updateOHLC warmUp tick spec (history spec ticks) = .ok (history spec (ticks ++ [tick])) := by
  unfold updateOHLC
  rw [Ohlc.calculateOHLC_off hoff (duration_pos hspec.1)]
  simp only [history, timeBars, List.foldl_concat]
  exact congrArg Except.ok (BoundedTail.trim_advance (Ohlc.rollBar_ne_nil _ _ _) (by omega))

theorem history_nil (spec : SeriesSpec) : history spec [] = [] := by
  simp [history, timeBars]

/-- Every symbol has nothing before its first tick or when nothing is registered, and then a series
for each spec over its own ticks. -/
def Table {α β : Type} (series : α → List PriceData → β) (specs : List α) (ticks : List PriceData)
    (table : AList fun _ : String => List β) : Prop :=
  ∀ symbol, table.lookup symbol =
    if own symbol ticks = [] ∨ specs = [] then none
    else some (specs.map fun spec => series spec (own symbol ticks))

theorem own_concat_self (ticks : List PriceData) (tick : PriceData) :
    own tick.symbol (ticks ++ [tick]) = own tick.symbol ticks ++ [tick] := by
  simp [own]

theorem own_concat_of_ne (h : tick.symbol ≠ symbol) :
    own symbol (ticks ++ [tick]) = own symbol ticks := by
  simp [own, h]

section

variable {α β : Type} {series : α → List PriceData → β} {specs : List α}
  {table : AList fun _ : String => List β}

theorem table_empty : Table series specs [] ∅ := by
  intro symbol
  simp [own]

/-- A tick changes the entry of its symbol alone. -/
theorem Table.insert (h : Table series specs ticks table) (hspecs : specs ≠ []) :
    Table series specs (ticks ++ [tick]) (table.insert tick.symbol
      (specs.map fun spec => series spec (own tick.symbol ticks ++ [tick]))) := by
  intro symbol
  by_cases hsymbol : tick.symbol = symbol
  · subst hsymbol
    rw [AList.lookup_insert, own_concat_self]
    simp [hspecs]
  · rw [AList.lookup_insert_ne (Ne.symm hsymbol), h symbol, own_concat_of_ne hsymbol]

theorem Table.unregistered (h : Table series [] ticks table) :
    Table series [] (ticks ++ [tick]) table := by
  intro symbol
  rw [h symbol]
  simp

/-- The entry found for a record of the registry. -/
theorem Table.find (h : Table series specs ticks table) (p : α → Bool) (symbol : String) :
    ((specs.findIdx? p).bind fun index =>
      (table.lookup symbol).bind fun histories => histories[index]?) =
      if own symbol ticks = [] then none
      else (specs.find? p).map fun spec => series spec (own symbol ticks) := by
  rw [h symbol, ← Registry.bind_findIdx?_map]
  split_ifs with hnone hown hown
  · simp
  · rw [or_iff_right hown] at hnone
    simp [hnone]
  · exact absurd (Or.inl hown) hnone
  · rfl

end

theorem zipWithM_map {α β γ : Type} {f : α → β → Except String γ} {g : α → β} {g' : α → γ}
    {xs : List α} (h : ∀ x ∈ xs, f x (g x) = .ok (g' x)) :
    List.zipWithM f xs (xs.map g) = .ok (xs.map g') := by
  induction xs with
  | nil => rfl
  | cons x xs ih =>
    have hrest := ih fun y hy => h y (List.mem_cons_of_mem x hy)
    rw [List.map_cons, List.zipWithM_cons_cons, h x List.mem_cons_self, hrest]
    rfl

/-- The time bars of a symbol take in its tick. -/
theorem updateSeries_table (store : BarStore) (tick : PriceData) (hoff : warmUp.prepopulate = false)
    (hvalid : Valid store.specs store.rangeSpecs)
    (h : Table history store.specs ticks store.bySymbol) :
    ∃ table, store.updateSeries warmUp tick = .ok { store with bySymbol := table } ∧
      Table history store.specs (ticks ++ [tick]) table := by
  by_cases hspecs : store.specs = []
  · refine ⟨store.bySymbol, ?_, ?_⟩
    · simp only [updateSeries, if_pos hspecs]
      rfl
    · rw [hspecs] at h ⊢
      exact h.unregistered
  · refine ⟨_, ?_, h.insert hspecs⟩
    have hhistories : ((store.bySymbol.lookup tick.symbol).getD []) ++ List.replicate
        (store.specs.length - ((store.bySymbol.lookup tick.symbol).getD []).length) [] =
        store.specs.map fun spec => history spec (own tick.symbol ticks) := by
      rw [h tick.symbol]
      split_ifs with hnone
      · rw [or_iff_left hspecs] at hnone
        simp [hnone, history_nil, List.map_const']
      · simp
    have hupdated := zipWithM_map fun spec hmem =>
      updateOHLC_history (own tick.symbol ticks) tick hoff (hvalid.series spec hmem)
    simp only [updateSeries, if_neg hspecs, hhistories, hupdated]
    rfl

theorem mapM_make {specs : List RangeBarSpec}
    (h : ∀ spec ∈ specs, 1 ≤ spec.atrTickWindow ∧ 1 ≤ spec.atrPercent ∧ 1 ≤ spec.count) :
    specs.mapM RangeSeries.make = .ok (specs.map RangeSeries.fresh) := by
  induction specs with
  | nil => rfl
  | cons spec specs ih =>
    have hmake : RangeSeries.make spec = .ok (.fresh spec) :=
      if_neg (by have := h spec List.mem_cons_self; omega)
    rw [List.mapM_cons, hmake, ih fun spec hmem => h spec (List.mem_cons_of_mem _ hmem)]
    rfl

/-- A range series of its own over one symbol's ticks. -/
def lone (warmUp : WarmUp) (spec : RangeBarSpec) (ticks : List PriceData) : RangeSeries :=
  (RangeSeries.fresh spec).feed warmUp ticks

/-- The range bars of a symbol take in its tick. -/
theorem updateRangeSeries_table (store : BarStore) (tick : PriceData)
    (hvalid : Valid store.specs store.rangeSpecs)
    (h : Table (lone warmUp) store.rangeSpecs ticks store.rangeBySymbol) :
    ∃ table, store.updateRangeSeries warmUp tick = .ok { store with rangeBySymbol := table } ∧
      Table (lone warmUp) store.rangeSpecs (ticks ++ [tick]) table := by
  by_cases hspecs : store.rangeSpecs = []
  · refine ⟨store.rangeBySymbol, ?_, ?_⟩
    · simp only [updateRangeSeries, if_pos hspecs]
      rfl
    · rw [hspecs] at h ⊢
      exact h.unregistered
  · refine ⟨_, ?_, h.insert hspecs⟩
    have hlate := mapM_make fun spec hmem =>
      hvalid.range spec (List.mem_of_mem_drop
        (i := ((store.rangeBySymbol.lookup tick.symbol).getD []).length) hmem)
    have hseries : (store.rangeBySymbol.lookup tick.symbol).getD [] ++
        (store.rangeSpecs.drop ((store.rangeBySymbol.lookup tick.symbol).getD []).length).map
          RangeSeries.fresh =
        store.rangeSpecs.map fun spec => lone warmUp spec (own tick.symbol ticks) := by
      rw [h tick.symbol]
      split_ifs with hnone
      · rw [or_iff_left hspecs] at hnone
        simp [hnone, lone, RangeSeries.feed]
      · simp
    have hupdated : (fun spec => lone warmUp spec (own tick.symbol ticks ++ [tick])) =
        (fun series : RangeSeries => series.update warmUp tick) ∘
          fun spec => lone warmUp spec (own tick.symbol ticks) := by
      funext spec
      simp [lone, RangeSeries.feed]
    simp only [updateRangeSeries, if_neg hspecs, hlate, hupdated]
    rw [← List.map_map, ← hseries]
    rfl

theorem feed_concat : store.feed warmUp (ticks ++ [tick]) =
    store.feed warmUp ticks >>= fun store => store.update warmUp tick := by
  simp [feed]

/-- A run over ticks leaves the specs alone and every symbol with the series of its own ticks. -/
theorem feed_tables (hoff : warmUp.prepopulate = false)
    (hvalid : Valid store.specs store.rangeSpecs) (hseries : store.bySymbol = ∅)
    (hrange : store.rangeBySymbol = ∅) (ticks : List PriceData) :
    ∃ table rangeTable, store.feed warmUp ticks =
        .ok { store with bySymbol := table, rangeBySymbol := rangeTable } ∧
      Table history store.specs ticks table ∧
      Table (lone warmUp) store.rangeSpecs ticks rangeTable := by
  induction ticks using List.reverseRecOn with
  | nil => exact ⟨∅, ∅, by rw [← hseries, ← hrange]; rfl, table_empty, table_empty⟩
  | append_singleton ticks tick ih =>
    obtain ⟨table, rangeTable, hfeed, htable, hrangeTable⟩ := ih
    obtain ⟨table', hupdate, htable'⟩ := updateSeries_table
      { store with bySymbol := table, rangeBySymbol := rangeTable } tick hoff hvalid htable
    obtain ⟨rangeTable', hupdate', hrangeTable'⟩ := updateRangeSeries_table
      { store with bySymbol := table', rangeBySymbol := rangeTable } tick hvalid hrangeTable
    refine ⟨table', rangeTable', ?_, htable', hrangeTable'⟩
    rw [feed_concat, hfeed]
    change BarStore.update _ warmUp tick = _
    rw [update, hupdate]
    exact hupdate'

/-! ## Shallower series -/

/-- A series as it would be with a smaller depth. -/
def shallow (depth : ℤ) (series : RangeSeries) : RangeSeries :=
  { series with
    spec := { series.spec with count := depth }
    bars := series.bars.rtake depth.toNat }

variable {depth : ℤ} {series : RangeSeries} {spec : RangeBarSpec}

theorem getLast?_shallow (hdepth : 1 ≤ depth) :
    (shallow depth series).bars.getLast? = series.bars.getLast? :=
  BoundedTail.getLast?_rtake (by omega)

theorem shallow_roll_keep (hdepth : 1 ≤ depth) (hcount : depth ≤ series.spec.count) :
    ((shallow depth series).roll tick).keep = shallow depth ((series.roll tick).keep) := by
  have hbars : BoundedTail.trim depth.toNat
      (BoundedTail.advance (RangeBar.rolled series tick) (series.bars.rtake depth.toNat)) =
      (BoundedTail.trim series.spec.count.toNat
        (BoundedTail.advance (RangeBar.rolled series tick) series.bars)).rtake depth.toNat := by
    rw [BoundedTail.trim_advance RangeBar.rolled_ne_nil (by omega), BoundedTail.trim_eq,
      BoundedTail.rtake_rtake (by omega)]
  rw [RangeBar.roll_eq, RangeBar.roll_eq, getLast?_shallow hdepth]
  simp only [shallow, RangeSeries.keep, ← hbars]
  rfl

theorem shallow_applyTick (series : RangeSeries) (tick : PriceData) (hdepth : 1 ≤ depth)
    (hcount : depth ≤ series.spec.count) :
    (shallow depth series).applyTick tick = shallow depth (series.applyTick tick) := by
  have hslide : (shallow depth series).slide tick = shallow depth (series.slide tick) := rfl
  cases hwarm : (series.slide tick).warm with
  | false =>
    have hshallow : ((shallow depth series).slide tick).warm = false := hwarm
    rw [RangeBar.applyTick_cold hwarm, RangeBar.applyTick_cold hshallow, hslide]
  | true =>
    have hshallow : ((shallow depth series).slide tick).warm = true := hwarm
    rw [RangeBar.applyTick_warm hwarm, RangeBar.applyTick_warm hshallow, hslide]
    exact shallow_roll_keep hdepth hcount

/-- A shallower series over the same ticks holds the end of a deeper one. -/
theorem lone_shallow (spec : RangeBarSpec) (hoff : warmUp.prepopulate = false)
    (hdepth : 1 ≤ depth) (hcount : depth ≤ spec.count) (ticks : List PriceData) :
    lone warmUp { spec with count := depth } ticks = shallow depth (lone warmUp spec ticks) ∧
      (lone warmUp spec ticks).spec = spec := by
  induction ticks using List.reverseRecOn with
  | nil => exact ⟨by simp [lone, RangeSeries.feed, RangeSeries.fresh, shallow], rfl⟩
  | append_singleton ticks tick ih =>
    obtain ⟨hshallow, hspec⟩ := ih
    simp only [lone, RangeSeries.feed, List.foldl_concat] at hshallow hspec ⊢
    rw [hshallow, RangeSeries.update_off hoff, RangeSeries.update_off hoff]
    refine ⟨?_, (RangeBar.applyTick_frame _ _).1.trans hspec⟩
    exact shallow_applyTick { lone warmUp spec ticks with prepopulateAttempted := true } tick
      hdepth (hcount.trans (congrArg RangeBarSpec.count hspec).ge)

/-! ## What is read -/

/-- A store with one registration, fed these ticks alone. -/
def privately (warmUp : WarmUp) (registration : Registration) (ticks : List PriceData) :
    Except String BarStore := do
  let store ← fresh.register registration
  store.feed warmUp ticks

/-- What is found for a duration: the last bars of the symbol's own ticks, at the greatest depth
registered, and at their end what a store with less depth and nothing else would hold. -/
def ServesTime (warmUp : WarmUp) (registrations : List Registration) (ticks : List PriceData)
    (store : BarStore) (symbol : String) (minutes : ℤ) : Prop :=
  match largestCount registrations minutes with
  | none => store.find symbol minutes = none
  | some count =>
    if own symbol ticks = [] then store.find symbol minutes = none
    else ∃ bars, foldOHLC warmUp minutes (own symbol ticks) = .ok bars ∧
      store.find symbol minutes = some (bars.rtake count.toNat) ∧
      ∀ depth, 1 ≤ depth → depth ≤ count → ∃ alone,
        privately warmUp (.series ⟨minutes, depth⟩) (own symbol ticks) = .ok alone ∧
        alone.find symbol minutes = some ((bars.rtake count.toNat).rtake depth.toNat)

/-- What is found for a range series: the bars of a series of its own, at the greatest depth
registered, and at their end what a series with less depth would hold. -/
def ServesRange (warmUp : WarmUp) (registrations : List Registration) (ticks : List PriceData)
    (store : BarStore) (symbol : String) (spec : RangeBarSpec) : Prop :=
  match largestRangeCount registrations spec with
  | none => store.findRange symbol spec = none
  | some count =>
    if own symbol ticks = [] then store.findRange symbol spec = none
    else ∃ series, RangeSeries.make { spec with count := count } = .ok series ∧
      store.findRange symbol spec = some (series.feed warmUp (own symbol ticks)).bars ∧
      ∀ depth, 1 ≤ depth → depth ≤ count → ∃ alone,
        RangeSeries.make { spec with count := depth } = .ok alone ∧
        (alone.feed warmUp (own symbol ticks)).bars =
          (series.feed warmUp (own symbol ticks)).bars.rtake depth.toNat

theorem find_eq (h : Table history store.specs ticks store.bySymbol) (symbol : String)
    (minutes : ℤ) : store.find symbol minutes =
      if own symbol ticks = [] then none
      else (store.specs.find? fun spec => spec.minutes = minutes).map fun spec =>
        history spec (own symbol ticks) :=
  h.find _ symbol

theorem findRange_eq (h : Table (lone warmUp) store.rangeSpecs ticks store.rangeBySymbol)
    (symbol : String) (spec : RangeBarSpec) : store.findRange symbol spec =
      if own symbol ticks = [] then none
      else (store.rangeSpecs.find? fun existing => sameIdentity existing spec).map fun existing =>
        (lone warmUp existing (own symbol ticks)).bars := by
  have hbars : store.findRange symbol spec =
      ((store.rangeSpecs.findIdx? fun existing => sameIdentity existing spec).bind fun index =>
        (store.rangeBySymbol.lookup symbol).bind fun histories => histories[index]?).map
          RangeSeries.bars := by
    unfold findRange
    cases store.rangeSpecs.findIdx? fun existing => sameIdentity existing spec with
    | none => rfl
    | some index =>
      cases store.rangeBySymbol.lookup symbol with
      | none => rfl
      | some histories => cases hseries : histories[index]? <;> simp [hseries]
  rw [hbars, h.find]
  split_ifs
  · rfl
  · rw [Option.map_map]
    rfl

/-- What a store finds after a run, from what was registered with it. -/
theorem Registered.feed (h : Registered registrations store) (hoff : warmUp.prepopulate = false)
    (ticks : List PriceData) : ∃ store', store.feed warmUp ticks = .ok store' ∧
      (∀ symbol minutes, store'.find symbol minutes =
        if own symbol ticks = [] then none
        else (largestCount registrations minutes).map fun count =>
          (timeBars minutes (own symbol ticks)).rtake count.toNat) ∧
      ∀ symbol spec, store'.findRange symbol spec =
        if own symbol ticks = [] then none
        else (largestRangeCount registrations spec).map fun count =>
          (lone warmUp { spec with count := count } (own symbol ticks)).bars := by
  obtain ⟨table, rangeTable, hfeed, htable, hrangeTable⟩ :=
    feed_tables hoff h.valid h.bySymbol h.rangeBySymbol ticks
  refine ⟨_, hfeed, fun symbol minutes => ?_, fun symbol spec => ?_⟩
  · rw [find_eq htable]
    simp only [h.find?_specs, Option.map_map]
    rfl
  · rw [findRange_eq hrangeTable]
    simp only [h.find?_rangeSpecs, Option.map_map]
    rfl

theorem own_own (symbol : String) (ticks : List PriceData) :
    own symbol (own symbol ticks) = own symbol ticks := by
  simp [own]

/-- The depths that are registered are positive, and so are the durations. -/
theorem Registered.minutes_pos (h : Registered registrations store) {count : ℤ}
    (hcount : largestCount registrations minutes = some count) : 1 ≤ minutes ∧ 1 ≤ count := by
  have hfind := h.find?_specs minutes
  rw [hcount] at hfind
  exact h.valid.series _ (List.mem_of_find?_eq_some hfind)

theorem Registered.range_pos (h : Registered registrations store) {count : ℤ}
    (hcount : largestRangeCount registrations spec = some count) :
    1 ≤ spec.atrTickWindow ∧ 1 ≤ spec.atrPercent ∧ 1 ≤ count := by
  have hfind := h.find?_rangeSpecs spec
  rw [hcount] at hfind
  exact h.valid.range _ (List.mem_of_find?_eq_some hfind)

/-- A store with one series of time bars finds their end. -/
theorem privately_series (hoff : warmUp.prepopulate = false) (hminutes : 1 ≤ minutes)
    (hdepth : 1 ≤ depth) (hown : own symbol ticks ≠ []) : ∃ alone,
      privately warmUp (.series ⟨minutes, depth⟩) (own symbol ticks) = .ok alone ∧
      alone.find symbol minutes = some ((timeBars minutes (own symbol ticks)).rtake depth.toNat) := by
  obtain ⟨store, hregister⟩ : ∃ store, fresh.register (.series ⟨minutes, depth⟩) = .ok store :=
    ⟨_, if_neg (by simp only; omega)⟩
  have hregistered := registered_fresh.register hregister
  obtain ⟨alone, hfeed, hfind, -⟩ := hregistered.feed hoff (own symbol ticks)
  refine ⟨alone, ?_, ?_⟩
  · rw [privately, hregister]
    exact hfeed
  · rw [hfind, own_own, if_neg hown]
    simp [largestCount, Registration.series?]

/-- Every reader finds the series of its own symbol at its own depth, whatever else is registered
and whichever other symbols tick. -/
theorem isolated (hregistered : fresh.registerAll registrations = .ok store)
    (hoff : warmUp.prepopulate = false) (ticks : List PriceData) :
    ∃ store', store.feed warmUp ticks = .ok store' ∧ ∀ symbol,
      (∀ minutes, ServesTime warmUp registrations ticks store' symbol minutes) ∧
      ∀ spec, ServesRange warmUp registrations ticks store' symbol spec := by
  have h := registered_of_registerAll hregistered
  obtain ⟨store', hfeed, hfind, hfindRange⟩ := h.feed hoff ticks
  refine ⟨store', hfeed, fun symbol => ⟨fun minutes => ?_, fun spec => ?_⟩⟩
  · have hminutes := hfind symbol minutes
    unfold ServesTime
    cases hlargest : largestCount registrations minutes with
    | none => simp [hminutes, hlargest]
    | some count =>
      obtain ⟨hpositive, -⟩ := h.minutes_pos hlargest
      simp only
      split_ifs with hown
      · rw [hminutes, if_pos hown]
      · refine ⟨_, foldOHLC_eq hoff hpositive _, ?_, ?_⟩
        · rw [hminutes, if_neg hown, hlargest]
          rfl
        · intro depth hdepth hcount
          rw [BoundedTail.rtake_rtake (by omega)]
          exact privately_series hoff hpositive hdepth hown
  · have hspec := hfindRange symbol spec
    unfold ServesRange
    cases hlargest : largestRangeCount registrations spec with
    | none => simp [hspec, hlargest]
    | some count =>
      obtain ⟨hwindow, hpercent, hcount⟩ := h.range_pos hlargest
      simp only
      split_ifs with hown
      · rw [hspec, if_pos hown]
      · refine ⟨_, if_neg (by simp only; omega), ?_, ?_⟩
        · rw [hspec, if_neg hown, hlargest]
          rfl
        · intro depth hdepth hdeep
          refine ⟨_, if_neg (by simp only; omega), ?_⟩
          have hshallow := (lone_shallow { spec with count := count } hoff hdepth hdeep
            (own symbol ticks)).1
          exact congrArg RangeSeries.bars hshallow

/-- Two readers of one timeframe and a range series, on the ticks of two symbols. -/
theorem isolated_shared : ∃ store,
    fresh.registerAll [.series ⟨15, 3⟩, .range ⟨4, 100, 8⟩, .series ⟨15, 5⟩] = .ok store ∧
    ∃ store', store.feed .off [⟨110000, 109990, 0, "EURUSD"⟩, ⟨65000, 64990, 1, "AUDUSD"⟩] =
      .ok store' ∧ ∀ symbol,
      (∀ minutes, ServesTime .off [.series ⟨15, 3⟩, .range ⟨4, 100, 8⟩, .series ⟨15, 5⟩]
        [⟨110000, 109990, 0, "EURUSD"⟩, ⟨65000, 64990, 1, "AUDUSD"⟩] store' symbol minutes) ∧
      ∀ spec, ServesRange .off [.series ⟨15, 3⟩, .range ⟨4, 100, 8⟩, .series ⟨15, 5⟩]
        [⟨110000, 109990, 0, "EURUSD"⟩, ⟨65000, 64990, 1, "AUDUSD"⟩] store' symbol spec :=
  ⟨_, rfl, isolated rfl rfl _⟩

end BarStore

end BacktestEngine

import Mathlib.Algebra.BigOperators.Group.Finset.Piecewise
import Mathlib.Algebra.Order.Group.Int
import BacktestEngine.Library.Window
import BacktestEngine.Live.StrategyRunner

/-! # The rate budget of a strategy

Each worker counts its own intents, and the workers of one strategy do not see
each other's. Their common budget holds exactly when every intent finds room for
it beside what the other workers have handed over in the same minute.
-/

namespace BacktestEngine

namespace Live

namespace StrategyRunner

variable {σ B : Type} (r : StrategyRunner B) (spec : WorkerSpec σ B)

/-- The tick up to its entry: the book is synced and the bars are updated. -/
def atEntry (w : Worker σ B) (event : TickEvent) : Worker σ B × Bool :=
  Worker.andThen (r.syncBookIfDue spec w event) fun w => r.updateBars w event

/-- Every check of a signal passes. -/
def Clears (w : Worker σ B) (event : TickEvent) : Prop :=
  belowTradeRateCap spec (evictOpens spec w event.tick.timestamp) = true ∧
    r.belowOpenTradeCap spec event.positions = .ok true ∧ event.gate = .ok true

/-- The conditions of an entry hold, the strategy signals, and every check of the signal passes. -/
def EntryClears (w : Worker σ B) (event : TickEvent) : Prop :=
  (spec.peakHoursOnly && !r.services.tradePermitted event.tick.symbol event.tick.timestamp) =
      false ∧
    (r.entryDistances spec w event.tick).isSome ∧
    (∃ signal, (spec.strategy.decide w.strategy event.tick w.barStore).1 = .ok (some signal)) ∧
    r.Clears spec w event

/-- The tick comes to its entry, and the entry is let through. -/
def Admits (w : Worker σ B) (event : TickEvent) : Prop :=
  (r.atEntry spec w event).2 = false ∧ r.EntryClears spec (r.atEntry spec w event).1 event

/-- The ticks of the intents handed to the sink. -/
def intentTimes (w : Worker σ B) : List ℤ := w.orders.map OrderIntent.timestamp

/-- No intent is handed over, and the rate queue is left alone. -/
structure SameOpens (w w' : Worker σ B) : Prop where
  orders : w'.orders = w.orders
  recentOpens : w'.recentOpens = w.recentOpens

variable {r spec} {w w' w'' : Worker σ B} {event : TickEvent}

theorem SameOpens.trans (h : SameOpens w w') (h' : SameOpens w' w'') : SameOpens w w'' :=
  ⟨h'.orders.trans h.orders, h'.recentOpens.trans h.recentOpens⟩

/-! ## What a tick does to the rate queue -/

theorem refreshBook_sameOpens (w : Worker σ B) (tick : PriceData)
    (fetched : List BookedPosition) : SameOpens w (refreshBook spec w tick fetched) := by
  unfold refreshBook
  split
  · exact ⟨rfl, rfl⟩
  · split <;> exact ⟨rfl, rfl⟩

theorem seedBook_sameOpens (w : Worker σ B) (fetched : List BookedPosition) :
    SameOpens w (seedBook spec w fetched) := by
  unfold seedBook
  split
  · exact ⟨rfl, rfl⟩
  · split <;> exact ⟨rfl, rfl⟩

variable (r spec) in
theorem syncBookIfDue_sameOpens (w : Worker σ B) (event : TickEvent) :
    SameOpens w (r.syncBookIfDue spec w event).1 := by
  unfold syncBookIfDue
  split
  · exact ⟨rfl, rfl⟩
  · dsimp only
    split
    · exact ⟨rfl, rfl⟩
    · exact ⟨rfl, rfl⟩
    · have hclock : SameOpens w { w with nextSyncAt := event.now + r.bookSyncInterval } :=
        ⟨rfl, rfl⟩
      exact (hclock.trans (refreshBook_sameOpens _ _ _)).trans (seedBook_sameOpens _ _)

variable (r spec) in
theorem atEntry_sameOpens (w : Worker σ B) (event : TickEvent) :
    SameOpens w (r.atEntry spec w event).1 := by
  have h := syncBookIfDue_sameOpens r spec w event
  unfold atEntry Worker.andThen updateBars
  split
  · exact h
  · split
    · exact h
    · exact h.trans ⟨rfl, rfl⟩

variable (r spec) in
theorem emitClose_sameOpens (w : Worker σ B) (event : TickEvent) (closed : Trade) :
    SameOpens w (r.emitClose spec w event closed).1 := by
  simp only [emitClose, dropClose]
  split
  · exact ⟨rfl, rfl⟩
  · split_ifs <;> exact ⟨rfl, rfl⟩

variable (r spec) in
theorem emitCloses_sameOpens (event : TickEvent) :
    ∀ (closes : List Trade) (w : Worker σ B), SameOpens w (r.emitCloses spec event w closes).1
  | [], _ => ⟨rfl, rfl⟩
  | closed :: rest, w => by
    have h := emitClose_sameOpens r spec w event closed
    unfold emitCloses Worker.andThen
    split
    · exact h
    · exact h.trans (emitCloses_sameOpens event rest _)

theorem duringPhase_sameOpens (w : Worker σ B) (event : TickEvent) :
    SameOpens w (r.duringPhase spec w event).1 := by
  unfold duringPhase
  split
  · exact ⟨rfl, rfl⟩
  · have h := emitCloses_sameOpens r spec event (closedByStrategy spec w event)
      (managed spec w event)
    exact ⟨h.orders, h.recentOpens⟩

theorem beforeDuring_eq (w : Worker σ B) (event : TickEvent) :
    r.beforeDuring spec w event =
      Worker.andThen (r.atEntry spec w event) fun w => r.entryPhase spec w event := by
  unfold beforeDuring atEntry Worker.andThen
  cases h : (r.syncBookIfDue spec w event).2 <;> simp [h]

variable (r spec) in
theorem processTick_sameOpens (w : Worker σ B) (event : TickEvent) :
    SameOpens (r.beforeDuring spec w event).1 (r.processTick spec w event).1 := by
  unfold processTick Worker.andThen
  split
  · exact ⟨rfl, rfl⟩
  · exact duringPhase_sameOpens _ _

/-- The intent is handed over, and queued once the sink returns. -/
structure Handed (w : Worker σ B) (event : TickEvent) (w' : Worker σ B) : Prop where
  times : intentTimes w' = intentTimes w ++ [event.tick.timestamp]
  queue : event.sinkThrows = false → w'.recentOpens =
    Window.evict minute event.tick.timestamp w.recentOpens ++ [event.tick.timestamp]

/-- Nothing is handed over; at most the queue has been moved to the tick. -/
structure Passed (w : Worker σ B) (event : TickEvent) (w' : Worker σ B) : Prop where
  times : intentTimes w' = intentTimes w
  queue : w'.recentOpens = w.recentOpens ∨
    w'.recentOpens = Window.evict minute event.tick.timestamp w.recentOpens

theorem evictOpens_recentOpens (hcap : 0 < spec.maxTradesPerMinute) (w : Worker σ B) (now : ℤ) :
    (evictOpens spec w now).recentOpens = Window.evict minute now w.recentOpens := by
  rw [evictOpens, if_neg (not_le.mpr hcap)]

theorem evictOpens_orders (w : Worker σ B) (now : ℤ) :
    (evictOpens spec w now).orders = w.orders := by
  unfold evictOpens
  split <;> rfl

theorem belowTradeRateCap_congr (h : w'.recentOpens = w.recentOpens) (now : ℤ) :
    belowTradeRateCap spec (evictOpens spec w' now) =
      belowTradeRateCap spec (evictOpens spec w now) := by
  unfold belowTradeRateCap evictOpens
  split
  · simp only [h]
  · simp only [h]

/-- The sink is reached exactly when every check of the signal passes. -/
theorem onSignal_outcome (hcap : 0 < spec.maxTradesPerMinute) (w : Worker σ B)
    (event : TickEvent) (signal : Direction) (distances : Distances) :
    (Clears r spec w event ∧ Handed w event (r.onSignal spec w event signal distances).1) ∨
      (¬ Clears r spec w event ∧ Passed w event (r.onSignal spec w event signal distances).1) := by
  have hrate : ∀ stats, belowTradeRateCap spec
      (evictOpens spec { w with stats := stats } event.tick.timestamp) =
        belowTradeRateCap spec (evictOpens spec w event.tick.timestamp) := by
    intro stats
    have hopens : { w with stats := stats }.recentOpens = w.recentOpens := rfl
    exact belowTradeRateCap_congr hopens _
  have hpassed : ∀ stats stats', Passed w event
      { evictOpens spec { w with stats := stats } event.tick.timestamp with stats := stats' } :=
    fun _ _ => ⟨congrArg (List.map OrderIntent.timestamp) (evictOpens_orders _ _),
      .inr (evictOpens_recentOpens hcap _ _)⟩
  simp only [onSignal, hrate]
  split
  · rename_i hfull
    refine .inr ⟨fun h => ?_, hpassed _ _⟩
    rw [h.1] at hfull
    exact Bool.noConfusion hfull
  · rename_i hroom
    split
    · rename_i hcount
      refine .inr ⟨fun h => ?_, hpassed _ _⟩
      rw [h.2.1] at hcount
      cases hcount
    · rename_i hcount
      refine .inr ⟨fun h => ?_, hpassed _ _⟩
      rw [h.2.1] at hcount
      cases hcount
    · rename_i hcount
      split
      · rename_i hgate
        refine .inr ⟨fun h => ?_, hpassed _ _⟩
        rw [h.2.2] at hgate
        cases hgate
      · rename_i hgate
        refine .inl ⟨⟨by simpa using hroom, hcount, hgate⟩, ?_⟩
        unfold emitOrder
        split
        · rename_i hthrow
          refine ⟨?_, fun hreturn => absurd (hthrow.symm.trans hreturn) Bool.noConfusion⟩
          simp only [intentTimes, evictOpens_orders, List.map_append]
          rfl
        · refine ⟨?_, fun _ => ?_⟩
          · simp only [intentTimes, evictOpens_orders, List.map_append]
            rfl
          · simp only [evictOpens_recentOpens hcap]
      · rename_i hgate
        refine .inr ⟨fun h => ?_, hpassed _ _⟩
        rw [h.2.2] at hgate
        cases hgate

theorem Clears.congr (h : SameOpens w w') : r.Clears spec w' event ↔ r.Clears spec w event := by
  rw [Clears, Clears, belowTradeRateCap_congr h.recentOpens]

theorem Handed.congr {v v' : Worker σ B} (h : SameOpens w v) (h' : SameOpens v' w')
    (hh : Handed v event v') : Handed w event w' where
  times := by
    rw [intentTimes, h'.orders, intentTimes, ← h.orders]
    exact hh.times
  queue := by
    rw [h'.recentOpens, ← h.recentOpens]
    exact hh.queue

theorem Passed.congr {v v' : Worker σ B} (h : SameOpens w v) (h' : SameOpens v' w')
    (hp : Passed v event v') : Passed w event w' where
  times := by
    rw [intentTimes, h'.orders, intentTimes, ← h.orders]
    exact hp.times
  queue := by
    rw [h'.recentOpens, ← h.recentOpens]
    exact hp.queue

theorem entryPhase_outcome (hcap : 0 < spec.maxTradesPerMinute) (w : Worker σ B)
    (event : TickEvent) :
    (r.EntryClears spec w event ∧ Handed w event (r.entryPhase spec w event).1) ∨
      (¬ r.EntryClears spec w event ∧ Passed w event (r.entryPhase spec w event).1) := by
  have hidle : ∀ w' : Worker σ B, SameOpens w w' → Passed w event w' :=
    fun w' h => ⟨congrArg (List.map OrderIntent.timestamp) h.orders, .inl h.recentOpens⟩
  unfold entryPhase
  split
  · rename_i hclosed
    exact .inr ⟨fun h => Bool.false_ne_true (h.1.symm.trans hclosed), hidle _ ⟨rfl, rfl⟩⟩
  · rename_i hsession
    split
    · rename_i hnone
      refine .inr ⟨fun h => ?_, hidle _ ⟨rfl, rfl⟩⟩
      have := h.2.1
      rw [hnone] at this
      exact Bool.noConfusion this
    · rename_i distances hdistances
      split
      · rename_i hdecide
        refine .inr ⟨fun h => ?_, hidle _ ⟨rfl, rfl⟩⟩
        obtain ⟨signal, hsignal⟩ := h.2.2.1
        rw [hdecide] at hsignal
        cases hsignal
      · rename_i hdecide
        refine .inr ⟨fun h => ?_, hidle _ ⟨rfl, rfl⟩⟩
        obtain ⟨signal, hsignal⟩ := h.2.2.1
        rw [hdecide] at hsignal
        cases hsignal
      · rename_i signal strategy hdecide
        have hsame : SameOpens w { w with strategy := strategy } := ⟨rfl, rfl⟩
        rcases onSignal_outcome (r := r) hcap { w with strategy := strategy } event signal
          distances with ⟨hclears, hh⟩ | ⟨hblocked, hp⟩
        · refine .inl ⟨⟨Bool.eq_false_of_not_eq_true hsession, by rw [hdistances]; rfl,
            ⟨signal, by rw [hdecide]⟩, (Clears.congr hsame).mp hclears⟩, ?_⟩
          exact hh.congr hsame ⟨rfl, rfl⟩
        · refine .inr ⟨fun h => hblocked ((Clears.congr hsame).mpr h.2.2.2), ?_⟩
          exact hp.congr hsame ⟨rfl, rfl⟩

/-- A tick hands an intent over exactly when it is admitted. -/
theorem processTick_outcome (hcap : 0 < spec.maxTradesPerMinute) (w : Worker σ B)
    (event : TickEvent) :
    (r.Admits spec w event ∧ Handed w event (r.processTick spec w event).1) ∨
      (¬ r.Admits spec w event ∧ Passed w event (r.processTick spec w event).1) := by
  have hentry := atEntry_sameOpens r spec w event
  have hrest := processTick_sameOpens r spec w event
  rw [beforeDuring_eq] at hrest
  unfold Worker.andThen at hrest
  split at hrest
  · rename_i hthrow
    have hsame := hentry.trans hrest
    refine .inr ⟨fun h => Bool.false_ne_true (h.1.symm.trans hthrow), ?_⟩
    exact ⟨congrArg (List.map OrderIntent.timestamp) hsame.orders, .inl hsame.recentOpens⟩
  · rename_i hreturn
    rcases entryPhase_outcome (r := r) hcap (r.atEntry spec w event).1 event with
      ⟨hclears, hh⟩ | ⟨hblocked, hp⟩
    · exact .inl ⟨⟨Bool.eq_false_of_not_eq_true hreturn, hclears⟩, hh.congr hentry hrest⟩
    · exact .inr ⟨fun h => hblocked h.2, hp.congr hentry hrest⟩

/-! ## The workers of one strategy -/

variable {ι : Type} [DecidableEq ι] (r) (specs : ι → WorkerSpec σ B)

/-- One worker processes a tick; the others do not move. -/
def fleetTick (fleet : ι → Worker σ B) (entry : ι × TickEvent) : ι → Worker σ B :=
  Function.update fleet entry.1 (r.processTick (specs entry.1) (fleet entry.1) entry.2).1

def fleetRun (fleet : ι → Worker σ B) (run : List (ι × TickEvent)) : ι → Worker σ B :=
  run.foldl (r.fleetTick specs) fleet

/-- The queue of a worker keeps its own intents, from its last tick on. -/
def OwnWindow (fleet : ι → Worker σ B) (run : List (ι × TickEvent)) : Prop :=
  ∀ i t, (∀ entry ∈ run, entry.1 = i → entry.2.tick.timestamp ≤ t) →
    Window.Keeps minute t (intentTimes (fleet i)) (fleet i).recentOpens

/-- Each worker gets its ticks in the order of their timestamps. -/
def TickOrdered (run : List (ι × TickEvent)) : Prop :=
  run.Pairwise fun a b => a.1 = b.1 → a.2.tick.timestamp ≤ b.2.tick.timestamp

section Budget

variable [Fintype ι]

/-- The intents the other workers have handed over in the minute up to now. -/
def othersCount (fleet : ι → Worker σ B) (i : ι) (now : ℤ) : ℕ :=
  ∑ j ∈ Finset.univ.erase i, Window.count minute now (intentTimes (fleet j))

/-- In every minute the tick lies in, the intents the worker still has queued and those of the
other workers are fewer than the cap. -/
def FindsRoom (cap : ℤ) (fleet : ι → Worker σ B) (i : ι) (tick : PriceData) : Prop :=
  ∀ now, Window.Inside minute now tick.timestamp →
    (Window.count minute now (Window.evict minute tick.timestamp (fleet i).recentOpens) +
      othersCount fleet i now : ℤ) < cap

/-- No minute holds more intents of all workers together than the cap. -/
def WithinBudget (cap : ℤ) (fleet : ι → Worker σ B) : Prop :=
  ∀ now, ((∑ i, Window.count minute now (intentTimes (fleet i)) : ℕ) : ℤ) ≤ cap

variable {r specs} {fleet : ι → Worker σ B} {run pre : List (ι × TickEvent)} {i : ι} {cap : ℤ}

omit [Fintype ι] in
theorem fleetRun_snoc (fleet : ι → Worker σ B) (run : List (ι × TickEvent))
    (entry : ι × TickEvent) :
    r.fleetRun specs fleet (run ++ [entry]) =
      r.fleetTick specs (r.fleetRun specs fleet run) entry := by
  rw [fleetRun, List.foldl_append]
  rfl

omit [DecidableEq ι] [Fintype ι] in
theorem TickOrdered.last (h : TickOrdered run) (hpre : pre ++ [(i, event)] <+: run) :
    ∀ entry ∈ pre, entry.1 = i → entry.2.tick.timestamp ≤ event.tick.timestamp := by
  intro entry hentry he
  exact (List.pairwise_append.mp (h.sublist hpre.sublist)).2.2 entry hentry _
    (List.mem_singleton_self _) he

omit [Fintype ι] in
theorem OwnWindow.tick (hcap : ∀ i, 0 < (specs i).maxTradesPerMinute)
    (h : OwnWindow fleet pre)
    (hlast : ∀ entry ∈ pre, entry.1 = i → entry.2.tick.timestamp ≤ event.tick.timestamp)
    (hsink : event.sinkThrows = false) :
    OwnWindow (r.fleetTick specs fleet (i, event)) (pre ++ [(i, event)]) := by
  intro j t ht
  by_cases hj : j = i
  · subst hj
    have hle : event.tick.timestamp ≤ t :=
      ht _ (List.mem_append_right _ (List.mem_singleton_self _)) rfl
    have hk := h j event.tick.timestamp hlast
    simp only [fleetTick, Function.update_self]
    rcases processTick_outcome (r := r) (hcap j) (fleet j) event with ⟨-, hh⟩ | ⟨-, hp⟩
    · rw [hh.times, hh.queue hsink]
      exact (hk.evict le_rfl).push.mono hle
    · rw [hp.times]
      rcases hp.queue with hq | hq
      · rw [hq]
        exact hk.mono hle
      · rw [hq]
        exact (hk.evict le_rfl).mono hle
  · simp only [fleetTick, Function.update_of_ne hj]
    exact h j t fun entry hentry => ht entry (List.mem_append_left _ hentry)

theorem sum_count_eq (fleet : ι → Worker σ B) (i : ι) (now : ℤ) :
    ∑ j, Window.count minute now (intentTimes (fleet j)) =
      Window.count minute now (intentTimes (fleet i)) + othersCount fleet i now :=
  (Finset.add_sum_erase _ _ (Finset.mem_univ i)).symm

theorem othersCount_tick (fleet : ι → Worker σ B) (i : ι) (event : TickEvent) (now : ℤ) :
    othersCount (r.fleetTick specs fleet (i, event)) i now = othersCount fleet i now := by
  refine Finset.sum_congr rfl fun j hj => ?_
  rw [fleetTick, Function.update_of_ne (Finset.ne_of_mem_erase hj)]

/-- A tick that is admitted keeps the budget exactly when it finds room. -/
theorem withinBudget_tick_iff (hcap : ∀ i, 0 < (specs i).maxTradesPerMinute)
    (h : OwnWindow fleet pre)
    (hlast : ∀ entry ∈ pre, entry.1 = i → entry.2.tick.timestamp ≤ event.tick.timestamp)
    (hb : WithinBudget cap fleet) :
    WithinBudget cap (r.fleetTick specs fleet (i, event)) ↔
      (r.Admits (specs i) (fleet i) event → FindsRoom cap fleet i event.tick) := by
  have hk := h i event.tick.timestamp hlast
  have hcount : ∀ now, event.tick.timestamp ≤ now →
      Window.count minute now (Window.evict minute event.tick.timestamp (fleet i).recentOpens) =
        Window.count minute now (intentTimes (fleet i)) :=
    fun now hle => (hk.evict le_rfl).count_queue hle
  have hself : r.fleetTick specs fleet (i, event) i =
      (r.processTick (specs i) (fleet i) event).1 := Function.update_self ..
  rcases processTick_outcome (r := r) (hcap i) (fleet i) event with ⟨ha, hh⟩ | ⟨hna, hp⟩
  · have hown : ∀ now, Window.count minute now
        (intentTimes (r.fleetTick specs fleet (i, event) i)) =
          Window.count minute now (intentTimes (fleet i)) +
            if Window.Inside minute now event.tick.timestamp then 1 else 0 := by
      intro now
      rw [hself, hh.times, Window.count, List.countP_append, List.countP_singleton]
      simp [Window.count]
    constructor
    · intro hb' _ now hin
      have := hb' now
      rw [sum_count_eq _ i, othersCount_tick, hown, if_pos hin] at this
      rw [hcount now hin.2]
      omega
    · intro hroom now
      rw [sum_count_eq _ i, othersCount_tick, hown]
      split
      · rename_i hin
        have := hroom ha now hin
        rw [hcount now hin.2] at this
        omega
      · have := hb now
        rw [sum_count_eq _ i] at this
        omega
  · refine iff_of_true (fun now => ?_) fun ha => absurd ha hna
    rw [sum_count_eq _ i, othersCount_tick, hself, hp.times, ← sum_count_eq]
    exact hb now

omit [DecidableEq ι] [Fintype ι] in
theorem start_ownWindow (store : ι → B) (state : ι → σ) :
    OwnWindow (fun i => Worker.start (store i) (state i)) [] :=
  fun _ _ _ => Window.Keeps.nil

omit [Fintype ι] in
theorem fleetRun_ownWindow (hcap : ∀ i, 0 < (specs i).maxTradesPerMinute) (store : ι → B)
    (state : ι → σ) (hordered : TickOrdered run)
    (hsink : ∀ entry ∈ run, entry.2.sinkThrows = false) :
    ∀ pre, pre <+: run →
      OwnWindow (r.fleetRun specs (fun i => .start (store i) (state i)) pre) pre := by
  intro pre
  induction pre using List.reverseRecOn with
  | nil => exact fun _ => start_ownWindow store state
  | append_singleton pre entry ih =>
    intro hpre
    rw [fleetRun_snoc]
    exact (ih ((List.prefix_append _ _).trans hpre)).tick hcap (hordered.last hpre)
      (hsink entry (hpre.subset (List.mem_append_right _ (List.mem_singleton_self _))))

variable (specs) in
/-- The workers keep their common budget exactly when every admitted tick finds room beside the
intents of the other workers. -/
theorem rate_budget_iff (hpos : 0 < cap) (hcap : ∀ i, (specs i).maxTradesPerMinute = cap)
    (store : ι → B) (state : ι → σ) (hordered : TickOrdered run)
    (hsink : ∀ entry ∈ run, entry.2.sinkThrows = false) :
    (∀ pre, pre <+: run →
        WithinBudget cap (r.fleetRun specs (fun i => .start (store i) (state i)) pre)) ↔
      ∀ pre i event, pre ++ [(i, event)] <+: run →
        r.Admits (specs i) (r.fleetRun specs (fun i => .start (store i) (state i)) pre i) event →
        FindsRoom cap (r.fleetRun specs (fun i => .start (store i) (state i)) pre) i
          event.tick := by
  have hcap' : ∀ i, 0 < (specs i).maxTradesPerMinute := fun i => (hcap i).symm ▸ hpos
  have hown := fleetRun_ownWindow (r := r) hcap' store state hordered hsink
  constructor
  · intro hb pre i event hpre
    have hprefix := (List.prefix_append _ _).trans hpre
    rw [← withinBudget_tick_iff hcap' (hown pre hprefix) (hordered.last hpre) (hb pre hprefix),
      ← fleetRun_snoc]
    exact hb _ hpre
  · intro hroom pre
    induction pre using List.reverseRecOn with
    | nil =>
      intro _ now
      simpa [fleetRun, Worker.start, intentTimes, Window.count] using hpos.le
    | append_singleton pre entry ih =>
      intro hpre
      have hprefix := (List.prefix_append _ _).trans hpre
      rw [fleetRun_snoc]
      exact (withinBudget_tick_iff hcap' (hown pre hprefix) (hordered.last hpre)
        (ih hprefix)).mpr (hroom pre entry.1 entry.2 hpre)

/-- A worker without siblings always finds room: its own queue is the budget. -/
theorem findsRoom_of_subsingleton [Subsingleton ι] (hcap : (specs i).maxTradesPerMinute = cap)
    (hpos : 0 < cap) (ha : r.Admits (specs i) (fleet i) event) :
    FindsRoom cap fleet i event.tick := by
  intro now _
  have hnone : othersCount fleet i now = 0 := by
    refine Finset.sum_eq_zero fun j hj => ?_
    exact absurd (Subsingleton.elim j i) (Finset.ne_of_mem_erase hj)
  have hcap' : 0 < (specs i).maxTradesPerMinute := hcap.symm ▸ hpos
  have hroom := ha.2.2.2.2.1
  rw [belowTradeRateCap_congr (atEntry_sameOpens r (specs i) (fleet i) event).recentOpens,
    belowTradeRateCap, evictOpens_recentOpens hcap', decide_eq_false (not_le.mpr hcap'), Bool.false_or, hcap,
    decide_eq_true_iff] at hroom
  have hle : Window.count minute now
      (Window.evict minute event.tick.timestamp (fleet i).recentOpens) ≤ _ :=
    List.countP_le_length
  rw [hnone]
  omega

/-- One worker hands over an intent a minute. -/
theorem rate_budget_single :
    let specs : Unit → WorkerSpec Unit Unit := fun _ => plainSpec "EURUSD" longs 1
    let run := [((), calm 0 []), ((), calm 60000000 [])]
    (intentTimes (plainRunner.fleetRun specs (fun _ => .start () ()) run ())).length = 2 ∧
      ∀ pre, pre <+: run →
        WithinBudget 1 (plainRunner.fleetRun specs (fun _ => .start () ()) pre) := by
  intro specs run
  refine ⟨by decide, ?_⟩
  refine (rate_budget_iff specs (by decide) (fun _ => rfl) (fun _ => ()) (fun _ => ())
    (by unfold TickOrdered; decide) (by decide)).mpr ?_
  exact fun pre i event _ ha => findsRoom_of_subsingleton rfl (by decide) ha

/-- Two workers of one strategy hand over two intents in one instant under a cap of one. -/
theorem rate_budget_two_workers :
    let specs : Bool → WorkerSpec Unit Unit := fun i =>
      plainSpec (if i then "GBPUSD" else "EURUSD") longs 1
    let run := [(false, calm 0 []), (true, calm 0 [] "GBPUSD")]
    (∀ i j, (specs i).strategyUuid = (specs j).strategyUuid) ∧
      (∀ i j, i ≠ j → (specs i).symbol ≠ (specs j).symbol) ∧
      (∀ i, (specs i).maxTradesPerMinute = 1) ∧ TickOrdered run ∧
      (∀ entry ∈ run, entry.2.sinkThrows = false) ∧
      ¬ WithinBudget 1 (plainRunner.fleetRun specs (fun _ => .start () ()) run) := by
  refine ⟨by decide, by decide, by decide, by unfold TickOrdered; decide, by decide, fun h => ?_⟩
  exact absurd (h 0) (by decide)

end Budget

end StrategyRunner

end Live

end BacktestEngine

import BacktestEngine.Live.RateBudget

/-! # The rate cap and late ticks

The queue of a worker is evicted from its front, by the tick that is judged. A tick a minute
later than an order evicts it, and a late tick with that order still in its minute then counts
too few.
-/

namespace BacktestEngine

namespace Live

namespace StrategyRunner

variable {σ B : Type} (r : StrategyRunner B) (spec : WorkerSpec σ B)

/-- The tick hands an intent to the sink. -/
def Hands (w : Worker σ B) (event : TickEvent) : Prop :=
  intentTimes (r.processTick spec w event).1 ≠ intentTimes w

/-- Every check of the tick but the rate cap lets its entry through. -/
def Unlimited (w : Worker σ B) (event : TickEvent) : Prop :=
  (r.atEntry spec w event).2 = false ∧
    (spec.peakHoursOnly && !r.services.tradePermitted event.tick.symbol event.tick.timestamp) =
      false ∧
    (r.entryDistances spec (r.atEntry spec w event).1 event.tick).isSome ∧
    (∃ signal, (spec.strategy.decide (r.atEntry spec w event).1.strategy event.tick
      (r.atEntry spec w event).1.barStore).1 = .ok (some signal)) ∧
    r.belowOpenTradeCap spec event.positions = .ok true ∧ event.gate = .ok true

/-- At each order of the run, the minute up to its tick holds at most as many as the cap. -/
def WithinCap (w : Worker σ B) (events : List TickEvent) : Prop :=
  ∀ pre event, pre ++ [event] <+: events → r.Hands spec (r.workerLoop spec w pre) event →
    (Window.count minute event.tick.timestamp
      (intentTimes (r.workerLoop spec w (pre ++ [event]))) : ℤ) ≤ spec.maxTradesPerMinute

/-- When the minute up to a tick is full of orders, as many entries survive in the queue. -/
def SeesFull (w : Worker σ B) (now : ℤ) : Prop :=
  spec.maxTradesPerMinute ≤ Window.count minute now (intentTimes w) →
    spec.maxTradesPerMinute ≤ (Window.evict minute now w.recentOpens).length

/-- An order in the minute of the tick is a minute older than an earlier tick. -/
def Overtaken (w : Worker σ B) (pre : List TickEvent) (event : TickEvent) : Prop :=
  ∃ t ∈ intentTimes w, Window.Inside minute event.tick.timestamp t ∧
    ∃ earlier ∈ pre, minute ≤ earlier.tick.timestamp - t

variable {r spec} {w : Worker σ B} {pre events : List TickEvent} {event : TickEvent}

theorem hands_iff (hcap : 0 < spec.maxTradesPerMinute) :
    r.Hands spec w event ↔ r.Admits spec w event := by
  obtain ⟨hadmits, hhanded⟩ | ⟨hblocked, hpassed⟩ := processTick_outcome (r := r) hcap w event
  · refine iff_of_true ?_ hadmits
    rw [Hands, hhanded.times]
    simp
  · exact iff_of_false (fun h => h hpassed.times) hblocked

theorem admits_iff (hcap : 0 < spec.maxTradesPerMinute) : r.Admits spec w event ↔
    r.Unlimited spec w event ∧
      ((Window.evict minute event.tick.timestamp w.recentOpens).length : ℤ) <
        spec.maxTradesPerMinute := by
  have hqueue := (atEntry_sameOpens r spec w event).recentOpens
  have hrate : belowTradeRateCap spec
      (evictOpens spec (r.atEntry spec w event).1 event.tick.timestamp) = true ↔
        ((Window.evict minute event.tick.timestamp w.recentOpens).length : ℤ) <
          spec.maxTradesPerMinute := by
    rw [belowTradeRateCap, evictOpens_recentOpens hcap, hqueue,
      decide_eq_false (not_le.mpr hcap), Bool.false_or, decide_eq_true_iff]
  unfold Admits EntryClears Clears Unlimited
  rw [hrate]
  tauto

theorem count_hands (hcap : 0 < spec.maxTradesPerMinute) (h : r.Hands spec w event) :
    Window.count minute event.tick.timestamp (intentTimes (r.processTick spec w event).1) =
      Window.count minute event.tick.timestamp (intentTimes w) + 1 := by
  obtain ⟨-, hhanded⟩ | ⟨-, hpassed⟩ := processTick_outcome (r := r) hcap w event
  · have hnow : Window.Inside minute event.tick.timestamp event.tick.timestamp :=
      ⟨sub_lt_self _ (by decide), le_rfl⟩
    rw [hhanded.times, Window.count, List.countP_append]
    simp [hnow, Window.count]
  · exact absurd hpassed.times h

/-- An order keeps to the cap exactly when its tick does not take a full minute for one with
room. -/
theorem withinCap_iff (hcap : 0 < spec.maxTradesPerMinute) (w : Worker σ B)
    (events : List TickEvent) : r.WithinCap spec w events ↔
      ∀ pre event, pre ++ [event] <+: events →
        r.Unlimited spec (r.workerLoop spec w pre) event →
          SeesFull spec (r.workerLoop spec w pre) event.tick.timestamp := by
  constructor
  · intro hwithin pre event hpre hunlimited hfull
    by_contra hroom
    rw [not_le] at hroom
    have hhands := (hands_iff hcap).mpr ((admits_iff hcap).mpr ⟨hunlimited, hroom⟩)
    have hcount := hwithin pre event hpre hhands
    rw [workerLoop_snoc, count_hands hcap hhands] at hcount
    push_cast at hcount
    omega
  · intro hsees pre event hpre hhands
    obtain ⟨hunlimited, hroom⟩ := (admits_iff hcap).mp ((hands_iff hcap).mp hhands)
    have hfull := hsees pre event hpre hunlimited
    rw [workerLoop_snoc, count_hands hcap hhands]
    unfold SeesFull at hfull
    push_cast
    omega

/-! ## What late ticks find -/

/-- The queue keeps every order that no tick since the start was a minute later than. -/
theorem filter_recentOpens (hcap : 0 < spec.maxTradesPerMinute) (store : B) (state : σ)
    (p : ℤ → Bool) (hsink : ∀ event ∈ pre, event.sinkThrows = false)
    (hp : ∀ t, p t = true → ∀ event ∈ pre, ¬ minute ≤ event.tick.timestamp - t) :
    (r.workerLoop spec (.start store state) pre).recentOpens.filter p =
      (intentTimes (r.workerLoop spec (.start store state) pre)).filter p := by
  induction pre using List.reverseRecOn with
  | nil => rfl
  | append_singleton pre event ih =>
    have hmem : event ∈ pre ++ [event] := List.mem_append_right _ List.mem_cons_self
    have hkept := ih (fun e he => hsink e (List.mem_append_left _ he))
      fun t ht e he => hp t ht e (List.mem_append_left _ he)
    have hevict : (Window.evict minute event.tick.timestamp
        (r.workerLoop spec (.start store state) pre).recentOpens).filter p =
          (r.workerLoop spec (.start store state) pre).recentOpens.filter p :=
      Window.filter_evict fun t ht => hp t ht event hmem
    rw [workerLoop_snoc]
    obtain ⟨-, hhanded⟩ | ⟨-, hpassed⟩ := processTick_outcome (r := r) hcap
      (r.workerLoop spec (.start store state) pre) event
    · rw [hhanded.times, hhanded.queue (hsink event hmem), List.filter_append, List.filter_append,
        hevict, hkept]
    · rw [hpassed.times]
      obtain hqueue | hqueue := hpassed.queue
      · rw [hqueue, hkept]
      · rw [hqueue, hevict, hkept]

/-- A tick that has overtaken none of its orders sees a full minute. -/
theorem seesFull_of_not_overtaken (hcap : 0 < spec.maxTradesPerMinute) (store : B) (state : σ)
    (hsink : ∀ event ∈ pre, event.sinkThrows = false)
    (h : ¬ Overtaken (r.workerLoop spec (.start store state) pre) pre event) :
    SeesFull spec (r.workerLoop spec (.start store state) pre) event.tick.timestamp := by
  let p : ℤ → Bool := fun t =>
    decide (∀ earlier ∈ pre, ¬ minute ≤ earlier.tick.timestamp - t)
  have hkept := filter_recentOpens (r := r) hcap store state p hsink
    fun t ht => of_decide_eq_true ht
  generalize r.workerLoop spec (.start store state) pre = w at h hkept
  -- every order of the minute is one that the queue has kept
  have hfresh : (intentTimes w).countP
      (fun t => decide (Window.Inside minute event.tick.timestamp t)) =
        ((intentTimes w).filter p).countP
          fun t => decide (Window.Inside minute event.tick.timestamp t) := by
    rw [List.countP_filter]
    apply List.countP_congr
    intro t ht
    simp only [decide_eq_true_eq, Bool.and_eq_true, p, iff_self_and]
    intro hinside earlier hearlier hlate
    exact h ⟨t, ht, hinside, earlier, hearlier, hlate⟩
  have hcount : Window.count minute event.tick.timestamp (intentTimes w) ≤
      (Window.evict minute event.tick.timestamp w.recentOpens).length := by
    calc Window.count minute event.tick.timestamp (intentTimes w)
      _ = Window.count minute event.tick.timestamp (w.recentOpens.filter p) := by
        rw [Window.count, hfresh, ← hkept]
        rfl
      _ ≤ Window.count minute event.tick.timestamp w.recentOpens :=
        List.filter_sublist.countP_le
      _ = Window.count minute event.tick.timestamp
          (Window.evict minute event.tick.timestamp w.recentOpens) := Window.count_evict.symm
      _ ≤ _ := List.countP_le_length
  intro hfull
  omega

theorem overtaken_ordered (hordered : (pre ++ [event]).Pairwise fun a b =>
    a.tick.timestamp ≤ b.tick.timestamp) : ¬ Overtaken w pre event := by
  rintro ⟨t, -, hinside, earlier, hearlier, hlate⟩
  have hle := (List.pairwise_append.mp hordered).2.2 earlier hearlier event List.mem_cons_self
  have hstart := hinside.1
  omega

variable (r spec) in
/-- A worker keeps to its cap in ticks of any order exactly when no tick takes a full minute for one
with room. A tick that does has an order in its minute that an earlier tick was a minute later
than, so ticks in order keep to the cap. -/
theorem late_cap_iff (hcap : 0 < spec.maxTradesPerMinute) (store : B) (state : σ)
    (events : List TickEvent)
    (haccept : ∀ event ∈ events, event.gate = .ok true ∧ event.sinkThrows = false) :
    (r.WithinCap spec (.start store state) events ↔
      ∀ pre event, pre ++ [event] <+: events →
        r.Unlimited spec (r.workerLoop spec (.start store state) pre) event →
          SeesFull spec (r.workerLoop spec (.start store state) pre) event.tick.timestamp) ∧
    (∀ pre event, pre ++ [event] <+: events →
      ¬ SeesFull spec (r.workerLoop spec (.start store state) pre) event.tick.timestamp →
        Overtaken (r.workerLoop spec (.start store state) pre) pre event) ∧
    (events.Pairwise (fun a b => a.tick.timestamp ≤ b.tick.timestamp) →
      r.WithinCap spec (.start store state) events) := by
  have hsees (pre event) (hpre : pre ++ [event] <+: events)
      (h : ¬ Overtaken (r.workerLoop spec (.start store state) pre) pre event) :
      SeesFull spec (r.workerLoop spec (.start store state) pre) event.tick.timestamp :=
    seesFull_of_not_overtaken hcap store state
      (fun e he => (haccept e (hpre.subset (List.mem_append_left _ he))).2) h
  refine ⟨withinCap_iff hcap _ events, ?_, ?_⟩
  · intro pre event hpre hmissed
    by_contra hnone
    exact hmissed (hsees pre event hpre hnone)
  · intro hordered
    refine (withinCap_iff hcap _ events).mpr fun pre event hpre _ => ?_
    exact hsees pre event hpre (overtaken_ordered (hordered.sublist hpre.sublist))

/-- A second after a minute, the two orders of the start are evicted. -/
def lateTicks : List TickEvent := [calm 0 [], calm 1000000 [], calm 61000000 []]

theorem late_cap_in_order :
    plainRunner.WithinCap (plainSpec "EURUSD" longs 2) (.start () ()) lateTicks :=
  (late_cap_iff plainRunner (plainSpec "EURUSD" longs 2) (by decide) () () lateTicks
    (by decide)).2.2 (by decide)

/-- A tick that comes eleven seconds late is let through with two orders in its minute. -/
theorem late_tick_exceeds_cap :
    (∀ event ∈ lateTicks ++ [calm 50000000 []], event.gate = .ok true ∧ event.sinkThrows = false) ∧
      intentTimes (plainRunner.workerLoop (plainSpec "EURUSD" longs 2) (.start () ())
        (lateTicks ++ [calm 50000000 []])) = [0, 1000000, 61000000, 50000000] ∧
      ¬ plainRunner.WithinCap (plainSpec "EURUSD" longs 2) (.start () ())
        (lateTicks ++ [calm 50000000 []]) := by
  refine ⟨by decide, by decide, fun h => ?_⟩
  have hhands : plainRunner.Hands (plainSpec "EURUSD" longs 2)
      (plainRunner.workerLoop (plainSpec "EURUSD" longs 2) (.start () ()) lateTicks)
      (calm 50000000 []) := by
    unfold Hands
    decide
  exact absurd (h lateTicks (calm 50000000 []) (List.prefix_refl _) hhands) (by decide)

end StrategyRunner

end Live

end BacktestEngine

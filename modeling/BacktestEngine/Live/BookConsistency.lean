import BacktestEngine.Live.Book

/-! # When the side map and the manager agree

A tick keeps the two structures in step exactly when nothing throws between the
strategy's close and the unbooking of the deal. A deal left in the side map alone
is never seeded again, since seeding asks for both structures to be empty.
-/

namespace BacktestEngine

namespace Live

namespace StrategyRunner

open TradeManager

variable {σ B : Type} (r : StrategyRunner B) (spec : WorkerSpec σ B)

/-- The strategy closes the booked trade, and then it throws or the close sink does. -/
def CutShort (w : Worker σ B) (event : TickEvent) : Prop :=
  ∃ closed ∈ closedByStrategy spec w event, (duringCalls spec w event).2 = true ∨
    ∃ deal, w.sideMap.lookup closed.symbol = some deal ∧ Addressable r deal ∧
      event.closeSinkThrows (closeIntent spec deal closed event.tick) = true

/-- The tick reaches the strategy, and its close is cut short. -/
def Interrupted (w : Worker σ B) (event : TickEvent) : Prop :=
  (r.beforeDuring spec w event).2 = false ∧ CutShort r spec (r.beforeDuring spec w event).1 event

variable {r spec} {w : Worker σ B} {event : TickEvent}

/-! ## One tick -/

theorem duringPhase_backs (hn : spec.strategy.NeverOpens) (hb : Backs spec w)
    (event : TickEvent) : Backs spec (r.duringPhase spec w event).1 := by
  have hm := managed_backs hn hb event
  rcases managed_cases hn hb event with ⟨hnothing, -⟩ | ⟨closed, deal, h⟩
  · rw [duringPhase_nothing hnothing]
    exact hm
  · have hgone : ∀ v : Worker σ B, v.tradeManager = (managed spec w event).tradeManager →
        Backs spec v := by
      intro v hv
      refine ⟨hv ▸ hm.only, fun t ht => ?_⟩
      rw [hv, h.free] at ht
      cases ht
    rw [duringPhase_closed h]
    split
    · exact hm
    · have hbooked : (managed spec w event).sideMap.lookup closed.symbol = some deal :=
        h.symbol ▸ h.booked
      rcases emitClose_cases r spec event hbooked with
        ⟨-, he⟩ | ⟨-, -, he⟩ | ⟨-, -, he⟩ <;> rw [he] <;> exact hgone _ rfl

theorem processTick_backs (hn : spec.strategy.NeverOpens) (hb : Backs spec w)
    (event : TickEvent) : Backs spec (r.processTick spec w event).1 := by
  have hbefore := (beforeDuring_upkeep r spec w event).backs hb
  unfold processTick Worker.andThen
  split
  · exact hbefore
  · exact duringPhase_backs hn hbefore event

theorem not_consistent_of_free (hside : (w.sideMap.lookup spec.symbol).isSome)
    (hopen : w.tradeManager.activeTrades.lookup spec.symbol = none) : ¬ BookConsistent spec w := by
  rw [BookConsistent, hside, hopen]
  exact Bool.noConfusion

theorem consistent_of_free (hside : w.sideMap.lookup spec.symbol = none)
    (hopen : w.tradeManager.activeTrades.lookup spec.symbol = none) : BookConsistent spec w := by
  rw [BookConsistent, hside, hopen]
  rfl

theorem duringPhase_consistent_iff (hn : spec.strategy.NeverOpens) (hb : Backs spec w)
    (hc : BookConsistent spec w) :
    BookConsistent spec (r.duringPhase spec w event).1 ↔ ¬ CutShort r spec w event := by
  rcases managed_cases hn hb event with ⟨hnothing, hkept⟩ | ⟨closed, deal, h⟩
  · rw [duringPhase_nothing hnothing]
    refine iff_of_true (hkept hc) ?_
    rintro ⟨closed, hclosed, -⟩
    rw [hnothing] at hclosed
    cases hclosed
  · have hmem : closed ∈ closedByStrategy spec w event := h.log ▸ List.mem_singleton_self closed
    have hdeal : w.sideMap.lookup closed.symbol = some deal := h.symbol ▸ h.booked
    have hkept : ((managed spec w event).sideMap.lookup spec.symbol).isSome :=
      Option.isSome_of_eq_some h.booked
    have hcut : CutShort r spec w event ↔ (duringCalls spec w event).2 = true ∨
        Addressable r deal ∧
          event.closeSinkThrows (closeIntent spec deal closed event.tick) = true := by
      constructor
      · rintro ⟨closed', hclosed', hthrow | ⟨deal', hdeal', ha, ht⟩⟩
        · exact .inl hthrow
        · rw [h.log, List.mem_singleton] at hclosed'
          subst hclosed'
          rw [hdeal] at hdeal'
          cases hdeal'
          exact .inr ⟨ha, ht⟩
      · rintro (hthrow | ⟨ha, ht⟩)
        · exact ⟨closed, hmem, .inl hthrow⟩
        · exact ⟨closed, hmem, .inr ⟨deal, hdeal, ha, ht⟩⟩
    have herased : ((managed spec w event).sideMap.erase closed.symbol).lookup spec.symbol =
        none := by
      rw [h.symbol]
      exact AList.lookup_erase _ _
    rw [duringPhase_closed h, hcut]
    split
    · rename_i hthrow
      exact iff_of_false (not_consistent_of_free hkept h.free) fun hno => hno (.inl hthrow)
    · rename_i hreturn
      rcases emitClose_cases r spec event
        (w := managed spec w event) hdeal with ⟨ha, he⟩ | ⟨ha, ht, he⟩ | ⟨ha, ht, he⟩
      · rw [he]
        refine iff_of_true (consistent_of_free herased h.free) ?_
        rintro (hthrow | ⟨ha', -⟩)
        · exact hreturn hthrow
        · exact ha ha'
      · rw [he]
        exact iff_of_false (not_consistent_of_free hkept h.free) fun hno => hno (.inr ⟨ha, ht⟩)
      · rw [he]
        refine iff_of_true (consistent_of_free herased h.free) ?_
        rintro (hthrow | ⟨-, ht'⟩)
        · exact hreturn hthrow
        · exact Bool.false_ne_true (ht.symm.trans ht')

/-- A tick leaves the book consistent exactly when it is not interrupted. -/
theorem processTick_consistent_iff (hn : spec.strategy.NeverOpens) (hb : Backs spec w)
    (hc : BookConsistent spec w) :
    BookConsistent spec (r.processTick spec w event).1 ↔ ¬ Interrupted r spec w event := by
  have hbefore := beforeDuring_upkeep r spec w event
  unfold processTick Worker.andThen Interrupted
  split
  · rename_i hthrow
    exact iff_of_true (hbefore.consistent hc) fun h => Bool.false_ne_true (h.1.symm.trans hthrow)
  · rename_i hreturn
    refine (duringPhase_consistent_iff hn (hbefore.backs hb) (hbefore.consistent hc)).trans
      (not_congr ⟨fun h => ⟨Bool.eq_false_of_not_eq_true hreturn, h⟩, And.right⟩)

/-! ## A whole run -/

theorem start_backs (store : B) (state : σ) : Backs spec (.start store state) :=
  ⟨fun _ _ h => (by cases h), fun _ h => (by cases h)⟩

theorem workerLoop_backs (hn : spec.strategy.NeverOpens) (store : B) (state : σ)
    (events : List TickEvent) : Backs spec (r.workerLoop spec (.start store state) events) := by
  induction events using List.reverseRecOn with
  | nil => exact start_backs store state
  | append_singleton events event ih =>
    rw [workerLoop_snoc]
    exact processTick_backs hn ih event

/-- After every tick the two structures agree, and after every successful sync that reports a deal
a reported deal is booked in both. -/
structure BookKept (r : StrategyRunner B) (spec : WorkerSpec σ B) (start : Worker σ B)
    (events : List TickEvent) : Prop where
  consistent : ∀ pre, pre <+: events → BookConsistent spec (r.workerLoop spec start pre)
  reseeded : ∀ pre event first rest, pre ++ [event] <+: events → r.feedWired = true →
    (r.workerLoop spec start pre).nextSyncAt ≤ event.now →
    event.feed = .ok (some (first :: rest)) →
    ∃ deal trade, Rebooked spec (r.workerLoop spec start pre)
      (r.syncBookIfDue spec (r.workerLoop spec start pre) event).1 first rest deal trade

/-- The book is kept in step over a run exactly when no tick of it is interrupted. -/
theorem book_kept_iff (hn : spec.strategy.NeverOpens) (store : B) (state : σ)
    (events : List TickEvent) :
    BookKept r spec (.start store state) events ↔
      ∀ pre event, pre ++ [event] <+: events →
        ¬ Interrupted r spec (r.workerLoop spec (.start store state) pre) event := by
  constructor
  · intro h pre event hpre
    have hc := h.consistent pre ((List.prefix_append _ _).trans hpre)
    rw [← processTick_consistent_iff hn (workerLoop_backs hn store state pre) hc,
      ← workerLoop_snoc]
    exact h.consistent _ hpre
  · intro h
    have hconsistent : ∀ pre, pre <+: events →
        BookConsistent spec (r.workerLoop spec (.start store state) pre) := by
      intro pre
      induction pre using List.reverseRecOn with
      | nil => exact fun _ => rfl
      | append_singleton pre event ih =>
        intro hpre
        rw [workerLoop_snoc]
        exact (processTick_consistent_iff hn (workerLoop_backs hn store state pre)
          (ih ((List.prefix_append _ _).trans hpre))).mpr (h pre event hpre)
    refine ⟨hconsistent, fun pre event first rest hpre hfeed hdue hok => ?_⟩
    exact sync_rebooks (workerLoop_backs hn store state pre)
      (hconsistent pre ((List.prefix_append _ _).trans hpre)) hfeed hdue hok

theorem closesFrom_neverOpens (instant : ℤ) (throws : Bool) :
    (closesFrom instant throws).NeverOpens := by
  intro state tick store tm c hc tick' size direction stop limit
  simp only [closesFrom] at hc
  split at hc
  · rw [List.mem_singleton.mp hc]
    exact Call.noConfusion
  · cases hc

/-- The strategy closes on the second tick, and the sink takes the close. -/
theorem book_kept_close : BookKept plainRunner (plainSpec "EURUSD" (closesFrom 10 false))
    (.start () ()) [calm 0 [plainDeal], calm 10 [plainDeal]] := by
  rw [book_kept_iff (closesFrom_neverOpens 10 false)]
  intro pre event hpre hinterrupted
  obtain ⟨closed, -, hthrow | ⟨deal, -, -, hsink⟩⟩ := hinterrupted.2
  · simp only [duringCalls, plainSpec, closesFrom] at hthrow
    split at hthrow <;> exact Bool.false_ne_true hthrow
  · have hmem := hpre.subset (List.mem_append_right pre (List.mem_singleton_self event))
    simp only [List.mem_cons, List.not_mem_nil, or_false] at hmem
    rcases hmem with rfl | rfl <;> exact Bool.false_ne_true hsink

/-- A close sink that throws leaves the deal in the side map alone, and the next sync, which still
reports it, books nothing. -/
theorem book_kept_sink_throws :
    let spec := plainSpec "EURUSD" (closesFrom 10 false)
    let events := [calm 0 [plainDeal], { calm 10 [plainDeal] with closeSinkThrows := fun _ => true },
      calm 10000000 [plainDeal]]
    spec.strategy.NeverOpens ∧ ¬ BookKept plainRunner spec (.start () ()) events ∧
      (plainRunner.workerLoop spec (.start () ()) events).sideMap.lookup "EURUSD" =
        some plainDeal ∧
      (plainRunner.workerLoop spec (.start () ()) events).tradeManager.activeTrades.lookup
        "EURUSD" = none := by
  refine ⟨closesFrom_neverOpens 10 false, fun h => ?_, by decide, by decide⟩
  exact absurd (h.consistent _ (List.prefix_rfl)) (by unfold BookConsistent; decide)

end StrategyRunner

end Live

end BacktestEngine

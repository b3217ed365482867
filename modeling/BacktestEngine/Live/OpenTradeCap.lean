import Mathlib.Data.List.Nodup
import Mathlib.Data.List.Perm.Subperm
import BacktestEngine.Live.PositionCounter

/-! # The open-trade cap across workers

A count covers the deals of its worker and those accepted before it was read, as
long as the list it read missed none of them. What it cannot cover is what other
workers open afterwards, so the cap holds along every run in which those deals
still fit below it whenever the broker accepts.
-/

namespace BacktestEngine

namespace Live

/-- The count a worker was let through on, with the instant it was read. -/
def Stage.held : Stage → Option (ℕ × ℤ)
  | .admitted _ count readAt | .gated _ count readAt | .placing _ count readAt =>
    some (count, readAt)
  | _ => none

/-- The list a worker has read and is about to count. -/
def Stage.reading : Stage → Option (ℤ × List String)
  | .listed _ readAt dealIds => some (readAt, dealIds)
  | _ => none

/-- The worker has a deal at the broker, or a confirmed close, that its cached count may not show. -/
def Stage.unsettled : Stage → Bool
  | .landed .. | .accepted _ | .saved _ | .appending .. | .booked => true
  | _ => false

namespace CapState

variable {ι : Type} [DecidableEq ι]

/-- The worker opened the deal, or the broker accepted it before the instant. -/
def Seen (i : ι) (readAt : ℤ) (deal : OpenDeal ι) : Prop :=
  deal.opener = i ∨ deal.acceptedAt < readAt

instance (i : ι) (readAt : ℤ) (deal : OpenDeal ι) : Decidable (Seen i readAt deal) :=
  inferInstanceAs (Decidable (_ ∨ _))

/-- The deals a count read at the instant should show. -/
def seenCount (broker : List (OpenDeal ι)) (i : ι) (readAt : ℤ) : ℕ :=
  broker.countP fun deal => decide (Seen i readAt deal)

/-- The deals other workers have opened since the instant. -/
def othersSince (broker : List (OpenDeal ι)) (i : ι) (readAt : ℤ) : ℕ :=
  broker.countP fun deal => decide (¬ Seen i readAt deal)

variable (cfg : CapConfig) (s : CapState ι)

/-- The list about to be counted misses no deal that the count should show. -/
def SeesBook (i : ι) : Prop :=
  ∀ read ∈ (s.workers i).stage.reading, ∀ deal ∈ s.broker, Seen i read.1 deal →
    deal.reference ∈ s.survivors read.2

/-- The count the order was let through on leaves room for it beside the deals other workers have
opened since. -/
def HasRoom (i : ι) : Prop :=
  ∀ held ∈ (s.workers i).stage.held,
    ((held.1 + othersSince s.broker i held.2 : ℕ) : ℤ) < cfg.maxOpenTrades

/-- What a step asks of the state it starts from: a count sees the book, an accepted order has
room, and a deal at the broker is not reported as failed. -/
def Guarded : CapAction ι → Prop
  | .count i _ => s.SeesBook i
  | .accept i _ => s.HasRoom cfg i
  | .outcome i status _ => status = .failed → (s.workers i).stage.unsettled = false
  | _ => True

instance : DecidablePred (Guarded cfg s)
  | .count i _ => inferInstanceAs (Decidable (∀ read ∈ (s.workers i).stage.reading,
      ∀ deal ∈ s.broker, Seen i read.1 deal → deal.reference ∈ s.survivors read.2))
  | .accept i _ => inferInstanceAs (Decidable (∀ held ∈ (s.workers i).stage.held,
      ((held.1 + othersSince s.broker i held.2 : ℕ) : ℤ) < cfg.maxOpenTrades))
  | .outcome i status _ =>
    inferInstanceAs (Decidable (status = .failed → (s.workers i).stage.unsettled = false))
  | .advance _ | .signal .. | .gate .. | .request .. | .savePosition .. | .readList .. |
    .writeList .. | .invalidate _ | .closePosition .. | .closeGone .. | .takePosition .. |
    .brokerCloses _ | .producerSaves .. | .producerLists _ => isTrue trivial

/-! ## What a count covers -/

/-- The count shows every deal it should. -/
structure Covers (now : ℤ) (broker : List (OpenDeal ι)) (i : ι) (count : ℕ) (readAt : ℤ) :
    Prop where
  past : readAt ≤ now
  covers : seenCount broker i readAt ≤ count

/-- What a worker holds is covered: its cached count when it is settled, and the count it was let
through on, which is below the cap. -/
structure WorkerOk (cfg : CapConfig) (now : ℤ) (broker : List (OpenDeal ι)) (i : ι)
    (w : CapWorker) : Prop where
  cached : w.stage.unsettled = false → ∀ cached ∈ w.cache,
    Covers now broker i cached.count (cached.freshUntil - cfg.cacheTtl)
  held : ∀ held ∈ w.stage.held, Covers now broker i held.1 held.2 ∧
    (held.1 : ℤ) < cfg.maxOpenTrades
  reading : ∀ read ∈ w.stage.reading, read.1 ≤ now

structure Invariant (cfg : CapConfig) (s : CapState ι) : Prop where
  workers : ∀ i, WorkerOk cfg s.now s.broker i (s.workers i)
  distinct : (s.broker.map OpenDeal.reference).Nodup
  capped : (s.broker.length : ℤ) ≤ cfg.maxOpenTrades

/-- Time has gone on, and for the worker no more deals are seen from any past instant. -/
structure Calm (i : ι) (now : ℤ) (broker : List (OpenDeal ι)) (now' : ℤ)
    (broker' : List (OpenDeal ι)) : Prop where
  later : now ≤ now'
  seen : ∀ t ≤ now, seenCount broker' i t ≤ seenCount broker i t

variable {cfg s} {i j : ι} {now now' : ℤ} {broker broker' : List (OpenDeal ι)} {w : CapWorker}

theorem seen_add_others (broker : List (OpenDeal ι)) (i : ι) (readAt : ℤ) :
    seenCount broker i readAt + othersSince broker i readAt = broker.length := by
  have h := List.length_eq_countP_add_countP (l := broker) fun deal => decide (Seen i readAt deal)
  simpa [seenCount, othersSince] using h.symm

theorem Calm.of_sublist (i : ι) (hle : now ≤ now') (h : broker'.Sublist broker) :
    Calm i now broker now' broker' :=
  ⟨hle, fun _ _ => h.countP_le⟩

/-- Another worker's new deal is not seen from the past. -/
theorem Calm.accept (hne : j ≠ i) (reference : String) :
    Calm i now broker now (broker ++ [⟨reference, j, now⟩]) := by
  refine ⟨le_rfl, fun t ht => ?_⟩
  have hnot : ¬ Seen i t (⟨reference, j, now⟩ : OpenDeal ι) := by
    rintro (h | h)
    · exact hne h
    · exact absurd h (not_lt.mpr ht)
  simp [seenCount, List.countP_append, hnot]

theorem Covers.calm {count : ℕ} {readAt : ℤ} (h : Covers now broker i count readAt)
    (hc : Calm i now broker now' broker') : Covers now' broker' i count readAt :=
  ⟨h.past.trans hc.later, (hc.seen readAt h.past).trans h.covers⟩

theorem WorkerOk.calm (h : WorkerOk cfg now broker i w) (hc : Calm i now broker now' broker') :
    WorkerOk cfg now' broker' i w where
  cached hs cached hcached := (h.cached hs cached hcached).calm hc
  held held hheld := ⟨(h.held held hheld).1.calm hc, (h.held held hheld).2⟩
  reading read hread := (h.reading read hread).trans hc.later

/-- A count of a list that misses no deal it should show covers them. -/
theorem length_survivors (hd : (s.broker.map OpenDeal.reference).Nodup) {readAt : ℤ}
    {dealIds : List String}
    (h : ∀ deal ∈ s.broker, Seen i readAt deal → deal.reference ∈ s.survivors dealIds) :
    seenCount s.broker i readAt ≤ (s.survivors dealIds).length := by
  have hsub : ((s.broker.filter fun deal => decide (Seen i readAt deal)).map
      OpenDeal.reference).Nodup := hd.sublist (List.filter_sublist.map _)
  rw [seenCount, List.countP_eq_length_filter, ← List.length_map (f := OpenDeal.reference)]
  refine (List.Nodup.subperm hsub fun reference hr => ?_).length_le
  obtain ⟨deal, hdeal, rfl⟩ := List.mem_map.mp hr
  obtain ⟨hmem, hseen⟩ := List.mem_filter.mp hdeal
  exact h deal hmem (of_decide_eq_true hseen)

/-! ## Steps that ask for nothing new -/

/-- The second worker holds no count, list or cached count that the first does not, and is settled
only if the first is or its cache is empty. -/
structure Eases (w w' : CapWorker) : Prop where
  cache : w'.stage.unsettled = false →
    w'.cache = none ∨ w'.cache = w.cache ∧ w.stage.unsettled = false
  held : ∀ held ∈ w'.stage.held, held ∈ w.stage.held
  reading : ∀ read ∈ w'.stage.reading, read ∈ w.stage.reading

/-- Time may go on and deals may be closed, and every worker eases. -/
structure Eased (s s' : CapState ι) : Prop where
  later : s.now ≤ s'.now
  broker : s'.broker.Sublist s.broker
  workers : ∀ i, Eases (s.workers i) (s'.workers i)

variable {s' s'' : CapState ι} {w' w'' : CapWorker}

theorem Eases.refl (w : CapWorker) : Eases w w :=
  ⟨fun h => .inr ⟨rfl, h⟩, fun _ h => h, fun _ h => h⟩

theorem Eases.trans (h : Eases w w') (h' : Eases w' w'') : Eases w w'' where
  cache hs := by
    rcases h'.cache hs with hn | ⟨hc, hs'⟩
    · exact .inl hn
    · rw [hc]
      exact h.cache hs'
  held x hx := h.held x (h'.held x hx)
  reading x hx := h.reading x (h'.reading x hx)

theorem WorkerOk.eases (h : WorkerOk cfg now broker i w) (he : Eases w w') :
    WorkerOk cfg now broker i w' where
  cached hs cached hcached := by
    rcases he.cache hs with hn | ⟨hc, hs'⟩
    · rw [hn] at hcached
      cases hcached
    · exact h.cached hs' cached (hc ▸ hcached)
  held x hx := h.held x (he.held x hx)
  reading x hx := h.reading x (he.reading x hx)

section Eased

omit [DecidableEq ι]

theorem Eased.trans (h : Eased s s') (h' : Eased s' s'') : Eased s s'' :=
  ⟨h.later.trans h'.later, h'.broker.trans h.broker,
    fun i => (h.workers i).trans (h'.workers i)⟩

theorem Eased.refl (s : CapState ι) : Eased s s :=
  ⟨le_rfl, List.Sublist.refl _, fun _ => .refl _⟩

theorem Eased.of_same (hl : s.now ≤ s'.now) (hb : s'.broker.Sublist s.broker)
    (hw : s'.workers = s.workers) : Eased s s' :=
  ⟨hl, hb, fun _ => hw ▸ .refl _⟩

theorem positions_eased (s : CapState ι) (positions : Expiring.Store String Unit ℤ) :
    Eased s { s with positions := positions } := .of_same le_rfl (List.Sublist.refl _) rfl

theorem positionList_eased (s : CapState ι) (dealIds : List String) :
    Eased s { s with positionList := dealIds } := .of_same le_rfl (List.Sublist.refl _) rfl

theorem closed_eased (s : CapState ι) (reference : String) :
    Eased s { s with broker := s.broker.filter fun deal => deal.reference ≠ reference } :=
  .of_same le_rfl List.filter_sublist rfl

end Eased

theorem Invariant.eased (h : Invariant cfg s) (he : Eased s s') : Invariant cfg s' where
  workers i := ((h.workers i).calm (.of_sublist i he.later he.broker)).eases (he.workers i)
  distinct := h.distinct.sublist (he.broker.map _)
  capped := le_trans (Int.ofNat_le.mpr he.broker.length_le) h.capped

theorem modify_eased {f : CapWorker → CapWorker} (h : Eases (s.workers i) (f (s.workers i))) :
    Eased s (s.modify i f) := by
  refine ⟨le_rfl, List.Sublist.refl _, fun j => ?_⟩
  by_cases hj : j = i
  · subst hj
    simpa [modify] using h
  · simpa [modify, Function.update_of_ne hj] using .refl _

theorem goTo_eased {stage : Stage}
    (hu : stage.unsettled = false → (s.workers i).stage.unsettled = false)
    (hh : ∀ x ∈ stage.held, x ∈ (s.workers i).stage.held)
    (hr : ∀ x ∈ stage.reading, x ∈ (s.workers i).stage.reading) : Eased s (s.goTo i stage) :=
  modify_eased ⟨fun h => .inr ⟨rfl, hu h⟩, hh, hr⟩

/-- A worker goes where it holds no count and no list. -/
theorem Eased.rest (he : Eased s s') {stage : Stage} (hh : stage.held = none)
    (hr : stage.reading = none)
    (hu : stage.unsettled = false → (s'.workers i).stage.unsettled = false) :
    Eased s (s'.goTo i stage) :=
  he.trans (goTo_eased hu (fun x hx => by rw [hh] at hx; cases hx)
    (fun x hx => by rw [hr] at hx; cases hx))

/-- A worker takes the count it holds along. -/
theorem Eased.keep (he : Eased s s') {stage : Stage} (hh : stage.held = (s'.workers i).stage.held)
    (hr : stage.reading = none) (hu : (s'.workers i).stage.unsettled = false) :
    Eased s (s'.goTo i stage) :=
  he.trans (goTo_eased (fun _ => hu) (fun x hx => hh ▸ hx) (fun x hx => by rw [hr] at hx; cases hx))

theorem Eased.removed (he : Eased s s') (closed : Bool)
    (hu : (s'.workers i).stage.unsettled = false) :
    Eased s (s'.goTo i (afterRemoval closed)) := by
  cases closed <;> exact he.rest rfl rfl fun _ => hu

theorem setLock_eased (s : CapState ι) (i : ι) (direction : Direction) (ttl : ℤ) :
    Eased s (s.setLock i direction ttl) := by
  have hlock : Eased s { s with locks := s.locks.set direction () (s.now + ttl) } :=
    .of_same le_rfl (List.Sublist.refl _) rfl
  unfold setLock
  exact hlock.trans (modify_eased ⟨fun h => .inr ⟨rfl, h⟩, fun _ h => h, fun _ h => h⟩)

theorem extendLock_eased (s : CapState ι) (i : ι) (direction : Direction) (ttl : ℤ)
    (reached : Bool) : Eased s (s.extendLock i direction ttl reached) := by
  unfold extendLock
  split
  · exact setLock_eased s i direction ttl
  · exact .of_same le_rfl (List.Sublist.refl _) rfl

theorem releaseLock_eased (s : CapState ι) (i : ι) (direction : Direction) (reached : Bool) :
    Eased s (s.releaseLock i direction reached) := by
  have hforget : Eased s (s.modify i fun w =>
      { w with heldUntil := Function.update w.heldUntil direction none }) :=
    modify_eased ⟨fun h => .inr ⟨rfl, h⟩, fun _ h => h, fun _ h => h⟩
  unfold releaseLock
  split
  · exact hforget.trans (.of_same le_rfl (List.Sublist.refl _) rfl)
  · exact hforget

@[simp] theorem modify_stage (f : CapWorker → CapWorker) :
    ((s.modify i f).workers i) = f (s.workers i) := Function.update_self ..

@[simp] theorem setLock_stage (s : CapState ι) (i : ι) (direction : Direction) (ttl : ℤ) :
    ((s.setLock i direction ttl).workers i).stage = (s.workers i).stage := by
  simp [setLock]

@[simp] theorem extendLock_stage (s : CapState ι) (i : ι) (direction : Direction) (ttl : ℤ)
    (reached : Bool) :
    ((s.extendLock i direction ttl reached).workers i).stage = (s.workers i).stage := by
  unfold extendLock
  split
  · simp
  · rfl

@[simp] theorem releaseLock_stage (s : CapState ι) (i : ι) (direction : Direction)
    (reached : Bool) :
    ((s.releaseLock i direction reached).workers i).stage = (s.workers i).stage := by
  unfold releaseLock
  split <;> simp [modify]

/-! ## Steps that take a count or open a deal -/

theorem Invariant.modify {f : CapWorker → CapWorker} (h : Invariant cfg s)
    (hw : WorkerOk cfg s.now s.broker i (f (s.workers i))) : Invariant cfg (s.modify i f) := by
  refine ⟨fun j => ?_, h.distinct, h.capped⟩
  by_cases hj : j = i
  · subst hj
    simpa [CapState.modify] using hw
  · simpa [CapState.modify, Function.update_of_ne hj] using h.workers j

/-- The cap check on a count that covers. -/
theorem Invariant.belowCap (h : Invariant cfg s) (hs : (s.workers i).stage.unsettled = false)
    {count : ℕ} {readAt : ℤ} (hc : Covers s.now s.broker i count readAt) (direction : Direction) :
    Invariant cfg (s.belowCap cfg i direction count readAt) := by
  have hcached := (h.workers i).cached hs
  unfold CapState.belowCap goTo
  refine h.modify ⟨fun _ => hcached, ?_, ?_⟩
  · intro x hx
    split at hx
    · rename_i hlt
      cases hx
      exact ⟨hc, hlt⟩
    · cases hx
  · intro x hx
    split at hx <;> cases hx

theorem Invariant.signal (h : Invariant cfg s) (hidle : (s.workers i).stage = .idle)
    (direction : Direction) (reached : Bool) :
    ∀ s', s.step cfg (.signal i direction reached) = some s' → Invariant cfg s' := by
  intro s' hstep
  have hs : (s.workers i).stage.unsettled = false := by rw [hidle]; rfl
  simp only [step, hidle] at hstep
  split at hstep
  · rename_i count readAt hfresh
    cases hstep
    refine h.belowCap hs ?_ direction
    unfold freshCount at hfresh
    split at hfresh
    · rename_i cached hcached
      split at hfresh
      · cases hfresh
        exact (h.workers i).cached hs cached hcached
      · cases hfresh
    · cases hfresh
  · split at hstep
    · cases hstep
      unfold goTo
      refine h.modify ⟨fun _ => (h.workers i).cached hs, fun x hx => (by cases hx), ?_⟩
      intro x hx
      cases hx
      exact le_rfl
    · cases hstep
      exact h

theorem Invariant.count (h : Invariant cfg s) (hsees : s.SeesBook i) (reached : Bool) :
    ∀ s', s.step cfg (.count i reached) = some s' → Invariant cfg s' := by
  intro s' hstep
  simp only [step] at hstep
  split at hstep
  · rename_i direction readAt dealIds hstage
    have hs : (s.workers i).stage.unsettled = false := by rw [hstage]; rfl
    have hread : (readAt, dealIds) ∈ (s.workers i).stage.reading := by rw [hstage]; rfl
    split at hstep
    · cases hstep
      have hcovers : Covers s.now s.broker i (s.survivors dealIds).length readAt :=
        ⟨(h.workers i).reading _ hread, length_survivors h.distinct (hsees _ hread)⟩
      refine (h.modify (i := i) ⟨?_, (h.workers i).held, (h.workers i).reading⟩).belowCap ?_ ?_ _
      · rintro - cached ⟨⟩
        simpa using hcovers
      · simpa using hs
      · exact hcovers
    · cases hstep
      exact h.eased ((Eased.refl s).rest rfl rfl fun _ => hs)
  · cases hstep

theorem Invariant.accept (h : Invariant cfg s) (hroom : s.HasRoom cfg i) (reference : String) :
    ∀ s', s.step cfg (.accept i reference) = some s' → Invariant cfg s' := by
  intro s' hstep
  simp only [step] at hstep
  split at hstep
  · rename_i direction count readAt hstage
    split at hstep
    · cases hstep
    · rename_i hnew
      cases hstep
      have hheld : (count, readAt) ∈ (s.workers i).stage.held := by rw [hstage]; rfl
      have hcovers := ((h.workers i).held _ hheld).1.covers
      have hlt := hroom _ hheld
      have hsum := seen_add_others s.broker i readAt
      refine ⟨fun j => ?_, ?_, ?_⟩
      · by_cases hj : j = i
        · subst hj
          simp only [goTo, CapState.modify, Function.update_self]
          exact ⟨fun hs => (nomatch hs), fun x hx => (nomatch hx), fun x hx => (nomatch hx)⟩
        · simp only [goTo, CapState.modify, Function.update_of_ne hj]
          exact (h.workers j).calm (.accept (Ne.symm hj) reference)
      · simp only [goTo, CapState.modify, List.map_append, List.map_singleton]
        exact List.Nodup.append h.distinct (List.nodup_singleton _)
          (List.disjoint_singleton.mpr hnew)
      · simp only [goTo, CapState.modify, List.length_append, List.length_singleton]
        dsimp only at hcovers hlt
        omega
  · cases hstep

/-! ## Runs -/

/-- A guarded step keeps the invariant. -/
theorem step_invariant {action : CapAction ι} (h : Invariant cfg s) (hg : s.Guarded cfg action)
    (hstep : s.step cfg action = some s') : Invariant cfg s' := by
  cases action with
  | advance elapsed =>
    cases hstep
    exact h.eased (.of_same (by dsimp only; omega) (List.Sublist.refl _) rfl)
  | signal i direction reached =>
    by_cases hidle : (s.workers i).stage = .idle
    · exact h.signal hidle direction reached s' hstep
    · simp only [step] at hstep
      cases hstep
  | count i reached => exact h.count hg reached s' hstep
  | accept i reference => exact h.accept hg reference s' hstep
  | brokerCloses reference =>
    cases hstep
    exact h.eased (closed_eased s reference)
  | producerSaves reference ttl =>
    cases hstep
    exact h.eased (positions_eased s _)
  | producerLists dealIds =>
    cases hstep
    exact h.eased (positionList_eased s dealIds)
  | gate i reached =>
    simp only [step] at hstep
    split at hstep
    · rename_i hstage
      split at hstep
      · cases hstep
        exact h.eased ((Eased.refl s).rest rfl rfl fun _ => by rw [hstage]; rfl)
      · cases hstep
        refine h.eased ((setLock_eased ..).keep ?_ rfl ?_) <;>
          rw [setLock_stage, hstage] <;> rfl
    · cases hstep
  | request i clear reached =>
    simp only [step] at hstep
    split at hstep
    · rename_i hstage
      split at hstep
      · cases hstep
        refine h.eased ((extendLock_eased ..).keep ?_ rfl ?_) <;>
          rw [extendLock_stage, hstage] <;> rfl
      · cases hstep
        exact h.eased ((Eased.refl s).rest rfl rfl fun _ => by rw [hstage]; rfl)
    · cases hstep
  | outcome i status reached =>
    simp only [step] at hstep
    split at hstep
    · rename_i hstage
      cases hstep
      exact h.eased ((releaseLock_eased ..).rest rfl rfl fun _ => by
        rw [releaseLock_stage, hstage]
        rfl)
    · rename_i hstage
      cases hstep
      exact h.eased ((extendLock_eased ..).rest rfl rfl fun _ => by
        rw [extendLock_stage, hstage]
        rfl)
    · cases hstep
      exact h.eased ((Eased.refl s).rest rfl rfl fun hs => nomatch hs)
    · rename_i hstage
      have hsettled := hg rfl
      rw [hstage] at hsettled
      cases hsettled
    · cases hstep
  | savePosition i reached =>
    simp only [step] at hstep
    split at hstep
    · cases hstep
      exact h.eased ((positions_eased s _).rest rfl rfl fun hs => nomatch hs)
    · cases hstep
  | readList i reached =>
    simp only [step] at hstep
    split at hstep
    · split at hstep <;> cases hstep <;>
        exact h.eased ((Eased.refl s).rest rfl rfl fun hs => nomatch hs)
    · rename_i hstage
      have hsettled : (s.workers i).stage.unsettled = false := by rw [hstage]; rfl
      split at hstep
      · cases hstep
        exact h.eased ((Eased.refl s).rest rfl rfl fun _ => hsettled)
      · cases hstep
        exact h.eased ((Eased.refl s).removed _ hsettled)
    · cases hstep
  | writeList i reached =>
    simp only [step] at hstep
    split at hstep
    · cases hstep
      exact h.eased ((positionList_eased s _).rest rfl rfl fun hs => nomatch hs)
    · rename_i hstage
      cases hstep
      exact h.eased ((positionList_eased s _).removed _ (by rw [hstage]; rfl))
    · cases hstep
  | invalidate i =>
    simp only [step] at hstep
    split at hstep
    · cases hstep
      exact h.eased (modify_eased ⟨fun _ => .inl rfl, fun _ hx => (nomatch hx),
        fun _ hx => (nomatch hx)⟩)
    · cases hstep
  | closePosition i reference =>
    simp only [step] at hstep
    split at hstep
    · rename_i hstage
      split at hstep
      · cases hstep
        exact h.eased ((closed_eased s _).rest rfl rfl fun _ => by rw [hstage]; rfl)
      · cases hstep
    · cases hstep
  | closeGone i reference =>
    simp only [step] at hstep
    split at hstep
    · rename_i hstage
      cases hstep
      exact h.eased ((Eased.refl s).rest rfl rfl fun _ => by rw [hstage]; rfl)
    · cases hstep
  | takePosition i reached =>
    simp only [step] at hstep
    split at hstep
    · rename_i hstage
      have hsettled : (s.workers i).stage.unsettled = false := by rw [hstage]; rfl
      split at hstep
      · cases hstep
        exact h.eased ((positions_eased s _).rest rfl rfl fun _ => hsettled)
      · cases hstep
        exact h.eased ((Eased.refl s).removed _ hsettled)
    · cases hstep

theorem fresh_invariant (cfg : CapConfig) (now : ℤ) {broker : List (OpenDeal ι)}
    (positionList : List String) (positions : Expiring.Store String Unit ℤ)
    (locks : Expiring.Store Direction Unit ℤ)
    (hdistinct : (broker.map OpenDeal.reference).Nodup)
    (hcap : (broker.length : ℤ) ≤ cfg.maxOpenTrades) :
    Invariant cfg (fresh now broker positionList positions locks) :=
  ⟨fun _ => ⟨fun _ _ hx => (nomatch hx), fun _ hx => (nomatch hx), fun _ hx => (nomatch hx)⟩,
    hdistinct, hcap⟩

/-- One worker opens a deal, with every command reaching the store. -/
def openActions (i : ι) (direction : Direction) (reference : String) : List (CapAction ι) :=
  [.signal i direction true, .count i true, .gate i true, .request i true true,
    .accept i reference, .outcome i .accepted true, .savePosition i true, .readList i true,
    .writeList i true, .invalidate i]

end CapState

end Live

end BacktestEngine

import BacktestEngine.Library.DropOldest
import BacktestEngine.Library.Tally
import BacktestEngine.Library.Transition
import BacktestEngine.Models.Trade
import Mathlib.Data.Fintype.Pi

/-! # Tick queues of the live workers

Ticks are routed to the workers of their symbol. Each worker has a queue under a lock of its own and
takes from it on its own thread, and the counters are added to outside of the locks.
-/

namespace BacktestEngine

namespace TickQueues

open Transition DropOldest

def kMaxQueuedTicks : ℕ := 8192

/-- A worker with its thread: the tick that the thread has taken, and those it is done with. -/
structure Worker where
  buffer : Buffer PriceData := {}
  tick : Option PriceData := none
  processed : List PriceData := []
  running : Bool := false

/-- A call of `onTick`: the workers it has still to reach, and whether it has reached one that it
has not counted yet. -/
structure Call (n : ℕ) where
  tick : PriceData
  rest : List (Fin n)
  counting : Bool

/-- What the thread that starts and stops the runner is at: the workers whose threads it has still
to spawn, or to join. -/
inductive Control (n : ℕ)
  | idle
  | starting (rest : List (Fin n))
  | stopping (rest : List (Fin n))

structure State (n : ℕ) (κ : Type) where
  workers : Fin n → Worker := fun _ => {}
  calls : κ → Option (Call n) := fun _ => none
  routed : ℕ := 0
  ignoredSymbol : ℕ := 0
  queueDropped : ℕ := 0
  started : Bool := false
  stopping : Bool := false
  control : Control n := .idle
  /-- The ticks that `onTick` was called with. -/
  heard : List PriceData := []

inductive Action (n : ℕ) (κ : Type)
  | enter (k : κ) (tick : PriceData)
  | push (k : κ)
  | count (k : κ)
  | leave (k : κ)
  | take (w : Fin n)
  | process (w : Fin n)
  | exit (w : Fin n)
  | start
  | spawn
  | startReturn
  | stop
  | join
  | stopReturn

variable {n : ℕ} (symbols : Fin n → String) {κ : Type}

/-- The workers of a symbol, in the order of their specs. -/
def bySymbol (symbol : String) : List (Fin n) := (List.finRange n).filter (symbols · = symbol)

/-- What happens to a queue under its lock when a tick is routed to it. -/
def enqueue (buffer : Buffer PriceData) (tick : PriceData) : Buffer PriceData :=
  if kMaxQueuedTicks < (buffer.push tick).queue.length then (buffer.push tick).dropFront
  else buffer.push tick

namespace State

variable (s : State n κ)

def setWorker (w : Fin n) (worker : Worker) : State n κ :=
  { s with workers := Function.update s.workers w worker }

def setCall [DecidableEq κ] (k : κ) (call : Option (Call n)) : State n κ :=
  { s with calls := Function.update s.calls k call }

theorem workers_setWorker (w : Fin n) (worker : Worker) :
    (s.setWorker w worker).workers = Function.update s.workers w worker := rfl

theorem control_setWorker (w : Fin n) (worker : Worker) :
    (s.setWorker w worker).control = s.control := rfl

end State

/-- No tick is routed while the runner stops. -/
def step [Fintype κ] [DecidableEq κ] (s : State n κ) : Action n κ → Option (State n κ)
  | .enter k tick =>
    match s.calls k, s.control with
    | some _, _ => none
    | none, .stopping _ => none
    | none, _ =>
      if bySymbol symbols tick.symbol = [] then
        some { s with ignoredSymbol := s.ignoredSymbol + 1, heard := s.heard ++ [tick] }
      else
        some { s.setCall k (some ⟨tick, bySymbol symbols tick.symbol, false⟩) with
          heard := s.heard ++ [tick] }
  | .push k =>
    match s.calls k with
    | some ⟨tick, w :: rest, false⟩ =>
      let worker := s.workers w
      let full := decide (kMaxQueuedTicks < (worker.buffer.push tick).queue.length)
      some { (s.setWorker w { worker with buffer := enqueue worker.buffer tick }).setCall k
          (some ⟨tick, rest, true⟩) with
        queueDropped := s.queueDropped + full.toNat }
    | _ => none
  | .count k =>
    match s.calls k with
    | some ⟨tick, rest, true⟩ =>
      some { s.setCall k (some ⟨tick, rest, false⟩) with routed := s.routed + 1 }
    | _ => none
  | .leave k =>
    match s.calls k with
    | some ⟨_, [], false⟩ => some (s.setCall k none)
    | _ => none
  | .take w =>
    let worker := s.workers w
    match worker.running, worker.tick, worker.buffer.queue with
    | true, none, tick :: _ =>
      some (s.setWorker w { worker with buffer := worker.buffer.take 1, tick := some tick })
    | _, _, _ => none
  | .process w =>
    let worker := s.workers w
    match worker.tick with
    | some tick =>
      some (s.setWorker w
        { worker with tick := none, processed := worker.processed ++ [tick] })
    | none => none
  | .exit w =>
    let worker := s.workers w
    match worker.running, worker.tick, worker.buffer.queue, s.stopping with
    | true, none, [], true => some (s.setWorker w { worker with running := false })
    | _, _, _, _ => none
  | .start =>
    match s.control, s.started with
    | .idle, true => some s
    | .idle, false =>
      some { s with started := true, stopping := false, control := .starting (List.finRange n) }
    | _, _ => none
  | .spawn =>
    match s.control with
    | .starting (w :: rest) =>
      some { s.setWorker w { s.workers w with running := true } with control := .starting rest }
    | _ => none
  | .startReturn =>
    match s.control with
    | .starting [] => some { s with control := .idle }
    | _ => none
  | .stop =>
    match s.control, s.started with
    | .idle, false => some s
    | .idle, true =>
      if ∀ k, s.calls k = none then
        some { s with stopping := true, control := .stopping (List.finRange n) }
      else none
    | _, _ => none
  | .join =>
    match s.control with
    | .stopping (w :: rest) =>
      if (s.workers w).running then none else some { s with control := .stopping rest }
    | _ => none
  | .stopReturn =>
    match s.control with
    | .stopping [] => some { s with started := false, control := .idle }
    | _ => none

/-! ## What holds -/

/-- Whether a call has queued a tick that it has not counted. -/
def uncounted : Option (Call n) → ℕ
  | some call => call.counting.toNat
  | none => 0

/-- How often a call has still to route a tick to a worker. -/
def pending (w : Fin n) (tick : PriceData) : Option (Call n) → ℕ
  | some call => if call.tick = tick then call.rest.count w else 0
  | none => 0

/-- What one step of any thread keeps. -/
structure Holds [Fintype κ] (s : State n κ) : Prop where
  taken : ∀ w, (s.workers w).buffer.taken =
    (s.workers w).processed ++ (s.workers w).tick.toList
  bounded : ∀ w, (s.workers w).buffer.queue.length ≤ kMaxQueuedTicks
  dropped : ∑ w, (s.workers w).buffer.dropped.length = s.queueDropped
  counted : ∑ w, (s.workers w).buffer.arrived.length = s.routed + ∑ k, uncounted (s.calls k)
  arrived : ∀ w tick, (s.workers w).buffer.arrived.count tick +
    ∑ k, pending w tick (s.calls k) = (s.heard.filter (symbols w = ·.symbol)).count tick
  handed : ∀ w, (s.workers w).running = false → (s.workers w).tick = none

/-- Where the threads of the workers are, told by what the controlling thread is at. -/
def Controlled (s : State n κ) : Prop :=
  match s.control with
  | .idle => s.started = true → s.stopping = false ∧ ∀ w, (s.workers w).running = true
  | .starting rest => s.stopping = false ∧ ∀ w, w ∉ rest → (s.workers w).running = true
  | .stopping rest => (∀ k, s.calls k = none) ∧
      (∀ w, (s.workers w).running = false → (s.workers w).buffer.queue = []) ∧
      ∀ w, w ∉ rest → (s.workers w).running = false

/-! ## One queue -/

section Enqueue

variable {buffer : Buffer PriceData} {tick : PriceData}

@[simp] theorem taken_enqueue : (enqueue buffer tick).taken = buffer.taken := by
  unfold enqueue
  split_ifs <;> rfl

@[simp] theorem arrived_enqueue : (enqueue buffer tick).arrived = buffer.arrived ++ [tick] := by
  unfold enqueue
  split_ifs <;> rfl

theorem length_enqueue_le (h : buffer.queue.length ≤ kMaxQueuedTicks) :
    (enqueue buffer tick).queue.length ≤ kMaxQueuedTicks := by
  unfold enqueue
  split_ifs with hfull
  · simp only [Buffer.queue_dropFront, Buffer.queue_push, List.length_tail, List.length_append,
      List.length_singleton]
    omega
  · exact not_lt.mp hfull

theorem length_dropped_enqueue : (enqueue buffer tick).dropped.length = buffer.dropped.length +
    (decide (kMaxQueuedTicks < (buffer.push tick).queue.length)).toNat := by
  unfold enqueue
  split_ifs with hfull
  · rw [decide_eq_true hfull]
    have hne : (buffer.push tick).queue ≠ [] :=
      List.append_ne_nil_of_right_ne_nil _ (List.cons_ne_nil _ _)
    exact Buffer.length_dropped_dropFront hne
  · rw [decide_eq_false hfull]
    rfl

end Enqueue

/-! ## What a step does -/

section Inversion

variable {symbols} {s s' : State n κ} [Fintype κ] [DecidableEq κ] {k : κ} {w : Fin n}
  {tick : PriceData}

/-- A tick that no worker is there for ends its call at once. -/
theorem step_enter (h : step symbols s (.enter k tick) = some s') :
    s.calls k = none ∧ (∀ rest, s.control ≠ .stopping rest) ∧
      (bySymbol symbols tick.symbol = [] ∧ s' = { s with
          ignoredSymbol := s.ignoredSymbol + 1, heard := s.heard ++ [tick] } ∨
        s' = { s.setCall k (some ⟨tick, bySymbol symbols tick.symbol, false⟩) with
          heard := s.heard ++ [tick] }) := by
  simp only [step] at h
  split at h
  · cases h
  · cases h
  · next hcall hcontrol =>
    refine ⟨hcall, hcontrol, ?_⟩
    split_ifs at h with hnone
    · exact Or.inl ⟨hnone, (Option.some_inj.mp h).symm⟩
    · exact Or.inr (Option.some_inj.mp h).symm

theorem step_push (h : step symbols s (.push k) = some s') :
    ∃ tick w rest, s.calls k = some ⟨tick, w :: rest, false⟩ ∧
      s' = { (s.setWorker w { s.workers w with
          buffer := enqueue (s.workers w).buffer tick }).setCall k (some ⟨tick, rest, true⟩) with
        queueDropped := s.queueDropped +
          (decide (kMaxQueuedTicks < ((s.workers w).buffer.push tick).queue.length)).toNat } := by
  simp only [step] at h
  split at h
  · next hcall => exact ⟨_, _, _, hcall, (Option.some_inj.mp h).symm⟩
  · cases h

theorem step_count (h : step symbols s (.count k) = some s') :
    ∃ tick rest, s.calls k = some ⟨tick, rest, true⟩ ∧
      s' = { s.setCall k (some ⟨tick, rest, false⟩) with routed := s.routed + 1 } := by
  simp only [step] at h
  split at h
  · next hcall => exact ⟨_, _, hcall, (Option.some_inj.mp h).symm⟩
  · cases h

theorem step_leave (h : step symbols s (.leave k) = some s') :
    ∃ tick, s.calls k = some ⟨tick, [], false⟩ ∧ s' = s.setCall k none := by
  simp only [step] at h
  split at h
  · next hcall => exact ⟨_, hcall, (Option.some_inj.mp h).symm⟩
  · cases h

theorem step_take (h : step symbols s (.take w) = some s') :
    ∃ tick rest, (s.workers w).running = true ∧ (s.workers w).tick = none ∧
      (s.workers w).buffer.queue = tick :: rest ∧
      s' = s.setWorker w { s.workers w with
        buffer := (s.workers w).buffer.take 1, tick := some tick } := by
  simp only [step] at h
  split at h
  · next hrunning htick hqueue =>
    exact ⟨_, _, hrunning, htick, hqueue, (Option.some_inj.mp h).symm⟩
  · cases h

theorem step_process (h : step symbols s (.process w) = some s') :
    ∃ tick, (s.workers w).tick = some tick ∧
      s' = s.setWorker w { s.workers w with
        tick := none, processed := (s.workers w).processed ++ [tick] } := by
  simp only [step] at h
  split at h
  · next htick => exact ⟨_, htick, (Option.some_inj.mp h).symm⟩
  · cases h

theorem step_exit (h : step symbols s (.exit w) = some s') :
    (s.workers w).tick = none ∧ (s.workers w).buffer.queue = [] ∧ s.stopping = true ∧
      s' = s.setWorker w { s.workers w with running := false } := by
  simp only [step] at h
  split at h
  · next hrunning htick hqueue hstopping =>
    exact ⟨htick, hqueue, hstopping, (Option.some_inj.mp h).symm⟩
  · cases h

theorem step_start (h : step symbols s .start = some s') :
    s' = s ∨ s' = { s with
      started := true, stopping := false, control := .starting (List.finRange n) } := by
  simp only [step] at h
  split at h
  · exact Or.inl (Option.some_inj.mp h).symm
  · exact Or.inr (Option.some_inj.mp h).symm
  · cases h

theorem step_spawn (h : step symbols s .spawn = some s') :
    ∃ w rest, s.control = .starting (w :: rest) ∧
      s' = { s.setWorker w { s.workers w with running := true } with
        control := .starting rest } := by
  simp only [step] at h
  split at h
  · next hcontrol => exact ⟨_, _, hcontrol, (Option.some_inj.mp h).symm⟩
  · cases h

theorem step_startReturn (h : step symbols s .startReturn = some s') :
    s.control = .starting [] ∧ s' = { s with control := .idle } := by
  simp only [step] at h
  split at h
  · next hcontrol => exact ⟨hcontrol, (Option.some_inj.mp h).symm⟩
  · cases h

theorem step_stop (h : step symbols s .stop = some s') :
    s' = s ∨ s.control = .idle ∧ s.started = true ∧ (∀ k, s.calls k = none) ∧
      s' = { s with stopping := true, control := .stopping (List.finRange n) } := by
  simp only [step] at h
  split at h
  · exact Or.inl (Option.some_inj.mp h).symm
  · next hcontrol hstarted =>
    split_ifs at h with hcalls
    exact Or.inr ⟨hcontrol, hstarted, hcalls, (Option.some_inj.mp h).symm⟩
  · cases h

theorem step_join (h : step symbols s .join = some s') :
    ∃ w rest, s.control = .stopping (w :: rest) ∧ (s.workers w).running = false ∧
      s' = { s with control := .stopping rest } := by
  simp only [step] at h
  split at h
  · next hcontrol =>
    split_ifs at h with hrunning
    exact ⟨_, _, hcontrol, Bool.eq_false_iff.mpr hrunning, (Option.some_inj.mp h).symm⟩
  · cases h

theorem step_stopReturn (h : step symbols s .stopReturn = some s') :
    s.control = .stopping [] ∧ s' = { s with started := false, control := .idle } := by
  simp only [step] at h
  split at h
  · next hcontrol => exact ⟨hcontrol, (Option.some_inj.mp h).symm⟩
  · cases h

end Inversion

/-! ## Steps -/

theorem count_bySymbol (symbol : String) (w : Fin n) :
    (bySymbol symbols symbol).count w = if symbols w = symbol then 1 else 0 := by
  split_ifs with h
  · apply List.count_eq_one_of_mem ((List.nodup_finRange n).filter _)
    exact List.mem_filter.mpr ⟨List.mem_finRange w, decide_eq_true h⟩
  · apply List.count_eq_zero_of_not_mem
    exact fun hmem => h (of_decide_eq_true (List.mem_filter.mp hmem).2)

theorem count_filter_concat (heard : List PriceData) (tick t : PriceData) (w : Fin n) :
    ((heard ++ [tick]).filter (symbols w = ·.symbol)).count t =
      (heard.filter (symbols w = ·.symbol)).count t +
        if symbols w = tick.symbol ∧ tick = t then 1 else 0 := by
  rw [List.filter_append, List.count_append]
  congr 1
  by_cases hw : symbols w = tick.symbol <;> simp [hw, List.count_singleton]

section Steps

variable {symbols} [Fintype κ] {s s' : State n κ} {k : κ} {w : Fin n} {tick : PriceData}
  {rest : List (Fin n)}

/-- Flags and counters of other things make no difference. -/
theorem Holds.congr (h : Holds symbols s) (hworkers : s'.workers = s.workers)
    (hcalls : s'.calls = s.calls) (hrouted : s'.routed = s.routed)
    (hdropped : s'.queueDropped = s.queueDropped) (hheard : s'.heard = s.heard) :
    Holds symbols s' := by
  obtain ⟨htaken, hbounded, hdrops, hcounted, harrived, hhanded⟩ := h
  rw [← hworkers] at htaken hbounded hdrops hcounted harrived hhanded
  rw [← hdropped] at hdrops
  rw [← hcalls, ← hrouted] at hcounted
  rw [← hcalls, ← hheard] at harrived
  exact ⟨htaken, hbounded, hdrops, hcounted, harrived, hhanded⟩

/-- A worker that changes, but for its queue's history of arrivals and drops. -/
theorem Holds.setWorker (h : Holds symbols s) {worker : Worker}
    (htaken : worker.buffer.taken = worker.processed ++ worker.tick.toList)
    (hbounded : worker.buffer.queue.length ≤ kMaxQueuedTicks)
    (hdropped : worker.buffer.dropped = (s.workers w).buffer.dropped)
    (harrived : worker.buffer.arrived = (s.workers w).buffer.arrived)
    (hhanded : worker.running = false → worker.tick = none) :
    Holds symbols (s.setWorker w worker) where
  taken := (Function.forall_update_iff _ fun _ (v : Worker) =>
    v.buffer.taken = v.processed ++ v.tick.toList).mpr ⟨htaken, fun v _ => h.taken v⟩
  bounded := (Function.forall_update_iff _ fun _ (v : Worker) =>
    v.buffer.queue.length ≤ kMaxQueuedTicks).mpr ⟨hbounded, fun v _ => h.bounded v⟩
  dropped := by
    refine Eq.trans ?_ h.dropped
    exact Tally.sum_update_of_eq (f := fun v : Worker => v.buffer.dropped.length)
      (congrArg List.length hdropped)
  counted := by
    refine Eq.trans ?_ h.counted
    exact Tally.sum_update_of_eq (f := fun v : Worker => v.buffer.arrived.length)
      (congrArg List.length harrived)
  arrived := (Function.forall_update_iff _ fun u (v : Worker) => ∀ tick,
    v.buffer.arrived.count tick + ∑ k, pending u tick (s.calls k) =
      (s.heard.filter (symbols u = ·.symbol)).count tick).mpr
    ⟨fun tick => by rw [harrived]; exact h.arrived w tick, fun v _ => h.arrived v⟩
  handed := (Function.forall_update_iff _ fun _ (v : Worker) =>
    v.running = false → v.tick = none).mpr ⟨hhanded, fun v _ => h.handed v⟩

variable [DecidableEq κ]

/-- A call that goes on without reaching a worker. -/
theorem Holds.setCall (h : Holds symbols s) {call : Option (Call n)}
    (hrouted : s'.routed + uncounted call = s.routed + uncounted (s.calls k))
    (hpending : ∀ w tick, pending w tick call +
      (s.heard.filter (symbols w = ·.symbol)).count tick =
        pending w tick (s.calls k) + (s'.heard.filter (symbols w = ·.symbol)).count tick)
    (hworkers : s'.workers = s.workers) (hdropped : s'.queueDropped = s.queueDropped)
    (hcalls : s'.calls = Function.update s.calls k call) : Holds symbols s' := by
  obtain ⟨htaken, hbounded, hdrops, hcounted, harrived, hhanded⟩ := h
  rw [← hworkers] at htaken hbounded hdrops hcounted harrived hhanded
  rw [← hdropped] at hdrops
  refine ⟨htaken, hbounded, hdrops, ?_, fun w tick => ?_, hhanded⟩
  · have hsum := Tally.sum_update uncounted s.calls k call
    rw [← hcalls] at hsum
    omega
  · have hsum := Tally.sum_update (pending w tick) s.calls k call
    have hcount := harrived w tick
    have hcall := hpending w tick
    rw [← hcalls] at hsum
    omega

theorem pending_cons {v : Fin n} {t : PriceData} {counting : Bool} :
    pending v t (some ⟨tick, w :: rest, counting⟩) =
      pending v t (some ⟨tick, rest, counting⟩) + if tick = t ∧ w = v then 1 else 0 := by
  simp only [pending, List.count_cons, beq_iff_eq]
  split_ifs <;> simp_all

/-- A tick is queued with a worker, and the oldest one dropped if there are too many. -/
theorem Holds.push (h : Holds symbols s) (hcall : s.calls k = some ⟨tick, w :: rest, false⟩)
    (hworkers : s'.workers = Function.update s.workers w
      { s.workers w with buffer := enqueue (s.workers w).buffer tick })
    (hcalls : s'.calls = Function.update s.calls k (some ⟨tick, rest, true⟩))
    (hdropped : s'.queueDropped = s.queueDropped +
      (decide (kMaxQueuedTicks < ((s.workers w).buffer.push tick).queue.length)).toNat)
    (hrouted : s'.routed = s.routed) (hheard : s'.heard = s.heard) : Holds symbols s' := by
  obtain ⟨htaken, hbounded, hdrops, hcounted, harrived, hhanded⟩ := h
  constructor
  · rw [hworkers]
    refine (Function.forall_update_iff _ fun _ (v : Worker) =>
      v.buffer.taken = v.processed ++ v.tick.toList).mpr ⟨?_, fun v _ => htaken v⟩
    rw [taken_enqueue]
    exact htaken w
  · rw [hworkers]
    refine (Function.forall_update_iff _ fun _ (v : Worker) =>
      v.buffer.queue.length ≤ kMaxQueuedTicks).mpr ⟨?_, fun v _ => hbounded v⟩
    exact length_enqueue_le (hbounded w)
  · rw [hworkers, hdropped, ← hdrops]
    exact Tally.sum_update_of_add (f := fun v : Worker => v.buffer.dropped.length)
      length_dropped_enqueue
  · have hsum := Tally.sum_update uncounted s.calls k (some ⟨tick, rest, true⟩)
    have harrivals : ∑ v, (s'.workers v).buffer.arrived.length =
        ∑ v, (s.workers v).buffer.arrived.length + 1 := by
      rw [hworkers]
      refine Tally.sum_update_of_add (f := fun v : Worker => v.buffer.arrived.length) ?_
      rw [arrived_enqueue, List.length_append, List.length_singleton]
    have hone : uncounted (some ⟨tick, rest, true⟩) =
        uncounted (some ⟨tick, w :: rest, false⟩) + 1 := rfl
    rw [← hcalls, hcall, hone] at hsum
    rw [harrivals, hrouted]
    omega
  · intro v t
    have hsum := Tally.sum_update (pending v t) s.calls k (some ⟨tick, rest, true⟩)
    rw [← hcalls, hcall, pending_cons] at hsum
    have hcount := harrived v t
    have hadded : (s'.workers v).buffer.arrived.count t =
        (s.workers v).buffer.arrived.count t + if tick = t ∧ w = v then 1 else 0 := by
      rw [hworkers]
      by_cases hv : w = v
      · subst hv
        rw [Function.update_self, arrived_enqueue, List.count_append, List.count_singleton]
        simp
      · rw [Function.update_of_ne (Ne.symm hv), if_neg fun h => hv h.2, add_zero]
    have hsame : pending v t (some ⟨tick, rest, true⟩) =
        pending v t (some ⟨tick, rest, false⟩) := rfl
    rw [hheard]
    omega
  · rw [hworkers]
    exact (Function.forall_update_iff _ fun _ (v : Worker) =>
      v.running = false → v.tick = none).mpr ⟨hhanded w, fun v _ => hhanded v⟩

/-- A tick is routed to each worker of its symbol once. -/
theorem Holds.enter (h : Holds symbols s) (hcall : s.calls k = none)
    (hs' : bySymbol symbols tick.symbol = [] ∧ s' = { s with
          ignoredSymbol := s.ignoredSymbol + 1, heard := s.heard ++ [tick] } ∨
        s' = { s.setCall k (some ⟨tick, bySymbol symbols tick.symbol, false⟩) with
          heard := s.heard ++ [tick] }) : Holds symbols s' := by
  obtain ⟨hnone, rfl⟩ | rfl := hs'
  · have hsame : s.calls = Function.update s.calls k none := by
      rw [← hcall, Function.update_eq_self]
    refine h.setCall (by rw [hcall]) (fun w t => ?_) rfl rfl hsame
    · have hw : symbols w ≠ tick.symbol := by
        intro heq
        have hcount := count_bySymbol symbols tick.symbol w
        rw [hnone, if_pos heq] at hcount
        cases hcount
      rw [hcall, count_filter_concat, if_neg fun hboth => hw hboth.1]
      rfl
  · refine h.setCall (k := k) (by rw [hcall]; rfl) (fun w t => ?_) rfl rfl rfl
    rw [hcall, count_filter_concat, pending, pending, count_bySymbol]
    by_cases hw : symbols w = tick.symbol
    · by_cases ht : tick = t
      · simp [hw, ht]
        omega
      · simp [ht]
    · simp [hw]

/-- Each action of each thread keeps what holds. -/
theorem Holds.step (h : Holds symbols s) {a : Action n κ} (hstep : step symbols s a = some s') :
    Holds symbols s' := by
  cases a with
  | enter k tick =>
    obtain ⟨hcall, -, hs'⟩ := step_enter hstep
    exact h.enter hcall hs'
  | push k =>
    obtain ⟨tick, w, rest, hcall, rfl⟩ := step_push hstep
    exact h.push hcall rfl rfl rfl rfl rfl
  | count k =>
    obtain ⟨tick, rest, hcall, rfl⟩ := step_count hstep
    refine h.setCall (k := k) ?_ (fun w t => ?_) rfl rfl rfl
    · rw [hcall]
      rfl
    · rw [hcall]
      rfl
  | leave k =>
    obtain ⟨tick, hcall, rfl⟩ := step_leave hstep
    refine h.setCall (k := k) ?_ (fun w t => ?_) rfl rfl rfl
    · rw [hcall]
      rfl
    · rw [hcall]
      simp only [pending, List.count_nil, ite_self]
      rfl
  | take w =>
    obtain ⟨tick, rest, hrunning, htick, hqueue, rfl⟩ := step_take hstep
    refine h.setWorker ?_ ?_ rfl rfl ?_
    · have htaken := h.taken w
      rw [htick] at htaken
      simp [htaken, hqueue]
    · rw [Buffer.queue_take, List.length_drop]
      exact (Nat.sub_le _ _).trans (h.bounded w)
    · intro hnot
      cases hrunning.symm.trans hnot
  | process w =>
    obtain ⟨tick, htick, rfl⟩ := step_process hstep
    refine h.setWorker ?_ (h.bounded w) rfl rfl fun _ => rfl
    have htaken := h.taken w
    rw [htick] at htaken
    simpa using htaken
  | exit w =>
    obtain ⟨htick, -, -, rfl⟩ := step_exit hstep
    exact h.setWorker (h.taken w) (h.bounded w) rfl rfl fun _ => htick
  | start =>
    obtain rfl | rfl := step_start hstep
    · exact h
    · exact h.congr rfl rfl rfl rfl rfl
  | spawn =>
    obtain ⟨w, rest, -, rfl⟩ := step_spawn hstep
    have hspawned : Holds symbols (s.setWorker w { s.workers w with running := true }) :=
      h.setWorker (h.taken w) (h.bounded w) rfl rfl
        fun hnot => absurd hnot.symm Bool.false_ne_true
    exact hspawned.congr rfl rfl rfl rfl rfl
  | startReturn =>
    obtain ⟨-, rfl⟩ := step_startReturn hstep
    exact h.congr rfl rfl rfl rfl rfl
  | stop =>
    obtain rfl | ⟨-, -, -, rfl⟩ := step_stop hstep
    · exact h
    · exact h.congr rfl rfl rfl rfl rfl
  | join =>
    obtain ⟨-, -, -, -, rfl⟩ := step_join hstep
    exact h.congr rfl rfl rfl rfl rfl
  | stopReturn =>
    obtain ⟨-, rfl⟩ := step_stopReturn hstep
    exact h.congr rfl rfl rfl rfl rfl

end Steps

/-! ## Starting and stopping -/

section Control

variable {symbols} {s s' : State n κ} {k : κ} {w : Fin n}

/-- While no thread is spawned or joined, and no worker ends. -/
theorem Controlled.congr (h : Controlled s) (hcontrol : s'.control = s.control)
    (hstarted : s'.started = s.started) (hstopping : s'.stopping = s.stopping)
    (hrunning : ∀ w, (s'.workers w).running = (s.workers w).running)
    (hdrained : ∀ rest, s.control = .stopping rest → (∀ k, s'.calls k = none) ∧
      ∀ w, (s.workers w).running = false → (s'.workers w).buffer.queue = []) :
    Controlled s' := by
  unfold Controlled at h ⊢
  rw [hcontrol]
  split at h
  · rw [hstarted, hstopping]
    exact fun hs => ⟨(h hs).1, fun w => (hrunning w).trans ((h hs).2 w)⟩
  · rw [hstopping]
    exact ⟨h.1, fun w hw => (hrunning w).trans (h.2 w hw)⟩
  · next rest heq =>
    obtain ⟨hcalls, hqueue⟩ := hdrained rest heq
    exact ⟨hcalls, fun w hw => hqueue w ((hrunning w).symm.trans hw),
      fun w hw => (hrunning w).trans (h.2.2 w hw)⟩

/-- While the runner stops there is no call, and workers that have ended left nothing queued. -/
theorem Controlled.drained (h : Controlled s) {rest : List (Fin n)}
    (hcontrol : s.control = .stopping rest) :
    (∀ k, s.calls k = none) ∧
      ∀ w, (s.workers w).running = false → (s.workers w).buffer.queue = [] := by
  unfold Controlled at h
  rw [hcontrol] at h
  exact ⟨h.1, h.2.1⟩

theorem running_setWorker {worker : Worker} (h : worker.running = (s.workers w).running)
    (v : Fin n) : ((s.setWorker w worker).workers v).running = (s.workers v).running := by
  rw [State.workers_setWorker]
  by_cases hv : v = w
  · rw [hv, Function.update_self, h]
  · rw [Function.update_of_ne hv]

/-- A worker that goes on without ending keeps what the ended ones have left. -/
theorem Controlled.setWorker (h : Controlled s) {worker : Worker}
    (hrunning : worker.running = (s.workers w).running)
    (hqueue : (s.workers w).running = true ∨
      worker.buffer.queue = (s.workers w).buffer.queue) : Controlled (s.setWorker w worker) := by
  refine h.congr rfl rfl rfl (running_setWorker hrunning) fun rest heq => ?_
  obtain ⟨hcalls, hleft⟩ := h.drained heq
  refine ⟨hcalls, fun v hv => ?_⟩
  rw [State.workers_setWorker]
  by_cases hne : v = w
  · rw [hne] at hv ⊢
    obtain htrue | hsame := hqueue
    · cases htrue.symm.trans hv
    · rw [Function.update_self, hsame]
      exact hleft w hv
  · rw [Function.update_of_ne hne]
    exact hleft v hv

theorem Controlled.not_stopping (h : Controlled s) {call : Call n} (hcall : s.calls k = some call)
    (rest : List (Fin n)) : s.control ≠ .stopping rest := by
  intro heq
  cases ((h.drained heq).1 k).symm.trans hcall

/-- A worker ends when the runner stops and its queue is empty. -/
theorem Controlled.exit (h : Controlled s) (hqueue : (s.workers w).buffer.queue = [])
    (hstopping : s.stopping = true) :
    Controlled (s.setWorker w { s.workers w with running := false }) := by
  unfold Controlled at h ⊢
  rw [State.workers_setWorker, State.control_setWorker]
  cases hcontrol : s.control with
  | idle =>
    rw [hcontrol] at h
    intro hstarted
    cases hstopping.symm.trans (h hstarted).1
  | starting rest =>
    rw [hcontrol] at h
    cases hstopping.symm.trans h.1
  | stopping rest =>
    rw [hcontrol] at h
    obtain ⟨hcalls, hleft, hjoined⟩ := h
    refine ⟨hcalls, fun v hv => ?_, fun v hv => ?_⟩
    · by_cases hne : v = w
      · rw [hne, Function.update_self]
        exact hqueue
      · rw [Function.update_of_ne hne] at hv ⊢
        exact hleft v hv
    · by_cases hne : v = w
      · rw [hne, Function.update_self]
      · rw [Function.update_of_ne hne]
        exact hjoined v hv

variable [Fintype κ] [DecidableEq κ]

/-- Each action of each thread keeps the workers where the controlling thread has them. -/
theorem Controlled.step (h : Controlled s) {a : Action n κ} (hstep : step symbols s a = some s') :
    Controlled s' := by
  cases a with
  | enter k tick =>
    obtain ⟨hcall, hnot, ⟨-, rfl⟩ | rfl⟩ := step_enter hstep
    · exact h.congr rfl rfl rfl (fun _ => rfl) fun rest heq => absurd heq (hnot rest)
    · exact h.congr rfl rfl rfl (fun _ => rfl) fun rest heq => absurd heq (hnot rest)
  | push k =>
    obtain ⟨tick, w, rest, hcall, rfl⟩ := step_push hstep
    exact h.congr rfl rfl rfl (running_setWorker rfl) fun rest heq =>
      absurd heq (h.not_stopping hcall rest)
  | count k =>
    obtain ⟨tick, rest, hcall, rfl⟩ := step_count hstep
    exact h.congr rfl rfl rfl (fun _ => rfl) fun rest heq =>
      absurd heq (h.not_stopping hcall rest)
  | leave k =>
    obtain ⟨tick, hcall, rfl⟩ := step_leave hstep
    exact h.congr rfl rfl rfl (fun _ => rfl) fun rest heq =>
      absurd heq (h.not_stopping hcall rest)
  | take w =>
    obtain ⟨tick, rest, hrunning, -, -, rfl⟩ := step_take hstep
    exact h.setWorker rfl (Or.inl hrunning)
  | process w =>
    obtain ⟨tick, -, rfl⟩ := step_process hstep
    exact h.setWorker rfl (Or.inr rfl)
  | exit w =>
    obtain ⟨-, hqueue, hstopping, rfl⟩ := step_exit hstep
    exact h.exit hqueue hstopping
  | start =>
    obtain rfl | rfl := step_start hstep
    · exact h
    · exact ⟨rfl, fun w hw => absurd (List.mem_finRange w) hw⟩
  | spawn =>
    obtain ⟨w, rest, hcontrol, rfl⟩ := step_spawn hstep
    unfold Controlled at h
    rw [hcontrol] at h
    refine ⟨h.1, fun v hv => ?_⟩
    dsimp only
    rw [State.workers_setWorker]
    by_cases hne : v = w
    · rw [hne, Function.update_self]
    · rw [Function.update_of_ne hne]
      exact h.2 v fun hmem => (List.mem_cons.mp hmem).elim hne hv
  | startReturn =>
    obtain ⟨hcontrol, rfl⟩ := step_startReturn hstep
    unfold Controlled at h
    rw [hcontrol] at h
    exact fun _ => ⟨h.1, fun w => h.2 w List.not_mem_nil⟩
  | stop =>
    obtain rfl | ⟨hcontrol, hstarted, hcalls, rfl⟩ := step_stop hstep
    · exact h
    · unfold Controlled at h
      rw [hcontrol] at h
      obtain ⟨-, hrunning⟩ := h hstarted
      refine ⟨hcalls, fun w hw => ?_, fun w hw => absurd (List.mem_finRange w) hw⟩
      cases (hrunning w).symm.trans hw
  | join =>
    obtain ⟨w, rest, hcontrol, hended, rfl⟩ := step_join hstep
    unfold Controlled at h
    rw [hcontrol] at h
    refine ⟨h.1, h.2.1, fun v hv => ?_⟩
    by_cases hne : v = w
    · rw [hne]
      exact hended
    · exact h.2.2 v fun hmem => (List.mem_cons.mp hmem).elim hne hv
  | stopReturn =>
    obtain ⟨hcontrol, rfl⟩ := step_stopReturn hstep
    intro hstarted
    cases hstarted

end Control

/-! ## Runs -/

section Runs

variable [Fintype κ]

theorem holds_init : Holds symbols ({} : State n κ) := by
  constructor
  · exact fun _ => rfl
  · exact fun _ => Nat.zero_le _
  · simp
  · simp [uncounted]
  · simp [pending]
  · exact fun _ _ => rfl

omit [Fintype κ] in
theorem controlled_init : Controlled ({} : State n κ) := fun h => absurd h Bool.false_ne_true

variable [DecidableEq κ]

/-- At every moment of every run: each worker is done with a part of the ticks that were put into
its queue, in their order, and each tick that `onTick` was called with has been put once into the
queue of each worker of its symbol, or has still to be. What is counted as routed, and what is
queued but not yet counted, is what the workers are done with, have taken or have queued, and what
was dropped. No queue is over its bound, and what was dropped came before all that is queued. When
the runner has stopped, nothing is queued and nothing is taken that is not done with. -/
theorem tick_queues {as : List (Action n κ)} {s : State n κ}
    (hrun : exec (step symbols) {} as = some s) :
    (∀ w, (s.workers w).processed.Sublist (s.workers w).buffer.arrived ∧
      ∀ tick, (s.workers w).buffer.arrived.count tick + ∑ k, pending w tick (s.calls k) =
        (s.heard.filter (symbols w = ·.symbol)).count tick) ∧
    s.routed + ∑ k, uncounted (s.calls k) = ∑ w, ((s.workers w).processed.length +
      (s.workers w).tick.toList.length + (s.workers w).buffer.queue.length) + s.queueDropped ∧
    (∀ w, (s.workers w).buffer.queue.length ≤ kMaxQueuedTicks) ∧
    (∀ w, ∃ gone, Interleaved ((s.workers w).processed ++ (s.workers w).tick.toList)
      (s.workers w).buffer.dropped gone ∧
        (s.workers w).buffer.arrived = gone ++ (s.workers w).buffer.queue) ∧
    ∀ s', step symbols s .stopReturn = some s' → ∀ w, (s'.workers w).buffer.queue = [] ∧
      (s'.workers w).tick = none := by
  have hholds : Holds symbols s :=
    exec_invariant (fun _ _ _ h hstep => h.step hstep) (holds_init symbols) hrun
  have hcontrolled : Controlled s :=
    exec_invariant (fun _ _ _ h hstep => h.step hstep) controlled_init hrun
  refine ⟨fun w => ⟨?_, hholds.arrived w⟩, ?_, hholds.bounded, fun w => ?_, fun s' hstop w => ?_⟩
  · have htaken := (s.workers w).buffer.taken_sublist
    rw [hholds.taken w] at htaken
    exact (List.sublist_append_left _ _).trans htaken
  · have hlength (w : Fin n) : (s.workers w).buffer.arrived.length =
        (s.workers w).processed.length + (s.workers w).tick.toList.length +
          (s.workers w).buffer.queue.length + (s.workers w).buffer.dropped.length := by
      rw [Buffer.length_arrived, hholds.taken w, List.length_append]
      omega
    rw [← hholds.counted, ← hholds.dropped, ← Finset.sum_add_distrib]
    exact Finset.sum_congr rfl fun w _ => hlength w
  · rw [← hholds.taken w]
    exact (s.workers w).buffer.kept
  · obtain ⟨hcontrol, rfl⟩ := step_stopReturn hstop
    unfold Controlled at hcontrolled
    rw [hcontrol] at hcontrolled
    obtain ⟨-, hleft, hjoined⟩ := hcontrolled
    have hended := hjoined w List.not_mem_nil
    exact ⟨hleft w hended, hholds.handed w hended⟩

/-- A tick that is queued, taken and done with before the runner stops. -/
def oneTick : List (Action 1 Unit) :=
  [.start, .spawn, .startReturn, .enter () ⟨11, 10, 0, "EURUSD"⟩, .push (), .count (), .leave (),
    .take 0, .stop, .process 0, .exit 0, .join]

theorem tick_queues_one_tick : ∃ s, exec (step fun _ => "EURUSD") {} oneTick = some s ∧
    ∀ s', step (fun _ => "EURUSD") s .stopReturn = some s' →
      ∀ w, (s'.workers w).buffer.queue = [] ∧ (s'.workers w).tick = none := by
  obtain ⟨s, hs⟩ : ∃ s, exec (step fun _ => "EURUSD") {} oneTick = some s := ⟨_, rfl⟩
  exact ⟨s, hs, (tick_queues _ hs).2.2.2.2⟩

/-- A tick is queued before it is counted, and the worker need not wait for the count. -/
theorem queued_before_counted : ∃ s, exec (step fun _ : Fin 1 => "EURUSD") ({} : State 1 Unit)
    [.start, .spawn, .startReturn, .enter () ⟨11, 10, 0, "EURUSD"⟩, .push (), .take 0,
      .process 0] = some s ∧
    s.routed ≠ ∑ w, ((s.workers w).processed.length + (s.workers w).buffer.queue.length) +
      s.queueDropped :=
  ⟨_, rfl, by decide⟩

end Runs

end TickQueues

end BacktestEngine

import BacktestEngine.Bars.RangeBarBuilder
import BacktestEngine.Library.ConditionVariable
import BacktestEngine.Library.Inevitable
import Mathlib.Algebra.Order.Group.Multiset
import Mathlib.Data.Fintype.Pi
import Mathlib.Data.List.DropRight

/-! # The thread pool

Tasks are queued under one lock and executed outside of it. Workers, callers of `submit` and callers
of `wait` each sleep on a condition variable of their own, and the destructor stops and joins the
workers one by one.
-/

namespace BacktestEngine

namespace ThreadPool

open Transition RangeBar

/-- The largest vector of threads; `reserve` throws for a larger one. -/
def kMaxThreads : ℕ := (2 ^ 63 - 1) / 16

def capacity (threads : ℕ) : ℕ := threads * 2 % 2 ^ 64

/-- Where a worker is in its loop. A worker that is awake is about to look for a task. -/
inductive Worker (τ ε : Type)
  | awake
  | asleep
  | executing (task : τ)
  | executed (thrown : Option ε)
  | notifying
  | ended

/-- What another thread is at. One that is awake is about to look at the count. -/
inductive Caller (τ : Type)
  | away
  | submitting (task : τ)
  | blocked (task : τ)
  | waiting
  | idling

inductive Life
  | alive
  | destroying
  | destroyed
  deriving DecidableEq

/-- What becomes of errors: a task has finished, or somebody has taken what there was. -/
inductive Event (ε : Type)
  | finished (thrown : Option ε)
  | took (err : Option ε)

structure State (n : ℕ) (κ τ ε : Type) where
  tasks : List τ := []
  inFlight : ℕ := 0
  gauge : Option ℤ := none
  firstError : Option ε := none
  workers : Fin n → Worker τ ε := fun _ => .awake
  stopped : Fin n → Bool := fun _ => false
  callers : κ → Caller τ := fun _ => .away
  life : Life := .alive
  /-- The tasks that were queued and those that have run, and what became of errors. -/
  submitted : List τ := []
  executed : List τ := []
  events : List (Event ε) := []

inductive Action (n : ℕ) (κ τ ε : Type)
  | submit (k : κ) (task : τ)
  | slot (k : κ) (woken : Option (Fin n))
  | wait (k : κ)
  | idle (k : κ)
  | takeError
  | take (w : Fin n)
  | execute (w : Fin n) (thrown : Option ε)
  | finish (w : Fin n)
  | release (w : Fin n) (woken : Option κ)
  | wakeWorker (w : Fin n)
  | wakeCaller (k : κ)
  | destroy
  | requestStop (w : Fin n)
  | joined

variable {n : ℕ} {κ τ ε : Type}

/-! ## Condition variables -/

def workAvailable : ConditionVariable (Worker τ ε) where
  asleep
    | .asleep => true
    | _ => false
  wake
    | .asleep => .awake
    | worker => worker
  asleep_wake worker := by cases worker <;> rfl

def slotFree : ConditionVariable (Caller τ) where
  asleep
    | .blocked _ => true
    | _ => false
  wake
    | .blocked task => .submitting task
    | caller => caller
  asleep_wake caller := by cases caller <;> rfl

def idle : ConditionVariable (Caller τ) where
  asleep
    | .idling => true
    | _ => false
  wake
    | .idling => .waiting
    | caller => caller
  asleep_wake caller := by cases caller <;> rfl

theorem eq_asleep {worker : Worker τ ε} (h : workAvailable.asleep worker = true) :
    worker = .asleep := by
  cases worker <;> first | rfl | cases h

theorem eq_blocked {caller : Caller τ} (h : slotFree.asleep caller = true) :
    ∃ task, caller = .blocked task := by
  cases caller <;> first | exact ⟨_, rfl⟩ | cases h

theorem eq_idling {caller : Caller τ} (h : idle.asleep caller = true) : caller = .idling := by
  cases caller <;> first | rfl | cases h

def Worker.hasEnded : Worker τ ε → Bool
  | .ended => true
  | _ => false

/-- Whether a thread is in a call of `submit`. -/
def Caller.submits : Caller τ → Bool
  | .submitting _ => true
  | .blocked _ => true
  | _ => false

/-! ## Steps -/

namespace State

variable (s : State n κ τ ε)

def setWorker (w : Fin n) (worker : Worker τ ε) : State n κ τ ε :=
  { s with workers := Function.update s.workers w worker }

def setCaller [DecidableEq κ] (k : κ) (caller : Caller τ) : State n κ τ ε :=
  { s with callers := Function.update s.callers k caller }

def publishInFlight : State n κ τ ε :=
  { s with gauge := s.gauge.map fun _ => toInt32 s.inFlight }

/-- What `submit` does once a slot is free. -/
def push (task : τ) (woken : Option (Fin n)) : State n κ τ ε :=
  publishInFlight { s with
    tasks := s.tasks ++ [task]
    inFlight := s.inFlight + 1
    workers := workAvailable.notifyOne s.workers woken
    submitted := s.submitted ++ [task] }

/-- What a worker does under the lock when its task has run. -/
def finish (w : Fin n) (thrown : Option ε) : State n κ τ ε :=
  publishInFlight { s with
    workers := Function.update s.workers w .notifying
    firstError := s.firstError.or thrown
    inFlight := s.inFlight - 1
    callers := if s.inFlight - 1 = 0 then idle.notifyAll s.callers else s.callers
    events := s.events ++ [.finished thrown] }

/-- A worker is asked to stop; one that sleeps is woken, and the others with it. -/
def requestStop (w : Fin n) : State n κ τ ε :=
  { s with
    stopped := Function.update s.stopped w true
    workers :=
      if workAvailable.asleep (s.workers w) then workAvailable.notifyAll s.workers else s.workers }

end State

/-- A vector that is too long for `reserve` is no pool. -/
def construct (threads : ℕ) (gauge : Option ℤ) : Option (State threads κ τ ε) :=
  if threads ≤ kMaxThreads then some { gauge := gauge } else none

/-- Nothing is submitted after destruction begins. A thread that sleeps may be woken at any time. -/
def step [Fintype κ] [DecidableEq κ] (s : State n κ τ ε) :
    Action n κ τ ε → Option (State n κ τ ε)
  | .submit k task =>
    match s.callers k, s.life with
    | .away, .alive => some (s.setCaller k (.submitting task))
    | _, _ => none
  | .slot k woken =>
    match s.callers k with
    | .submitting task =>
      if s.inFlight < capacity n then
        if workAvailable.MayWake s.workers woken then some ((s.push task woken).setCaller k .away)
        else none
      else some (s.setCaller k (.blocked task))
    | _ => none
  | .wait k =>
    match s.callers k, s.life with
    | _, .destroyed => none
    | .away, _ => some (s.setCaller k .waiting)
    | _, _ => none
  | .idle k =>
    match s.callers k, s.life with
    | _, .destroyed => none
    | .waiting, _ => some (s.setCaller k (if s.inFlight = 0 then .away else .idling))
    | _, _ => none
  | .takeError =>
    if s.life = .destroyed then none
    else some { s with firstError := none, events := s.events ++ [.took s.firstError] }
  | .take w =>
    match s.workers w, s.tasks with
    | .awake, task :: rest => some { s.setWorker w (.executing task) with tasks := rest }
    | .awake, [] => some (s.setWorker w (if s.stopped w then .ended else .asleep))
    | _, _ => none
  | .execute w thrown =>
    match s.workers w with
    | .executing task =>
      some { s.setWorker w (.executed thrown) with executed := s.executed ++ [task] }
    | _ => none
  | .finish w =>
    match s.workers w with
    | .executed thrown => some (s.finish w thrown)
    | _ => none
  | .release w woken =>
    match s.workers w with
    | .notifying =>
      if slotFree.MayWake s.callers woken then
        some { s.setWorker w .awake with callers := slotFree.notifyOne s.callers woken }
      else none
    | _ => none
  | .wakeWorker w =>
    match s.workers w with
    | .asleep => some (s.setWorker w .awake)
    | _ => none
  | .wakeCaller k =>
    match s.callers k with
    | .blocked task => some (s.setCaller k (.submitting task))
    | .idling => some (s.setCaller k .waiting)
    | _ => none
  | .destroy =>
    if s.life = .alive ∧ ∀ k, (s.callers k).submits = false then
      some { s with life := .destroying }
    else none
  | .requestStop w =>
    if s.life = .destroying ∧ s.stopped w = false ∧
        ∀ v, s.stopped v = true → (s.workers v).hasEnded = true then
      some (s.requestStop w)
    else none
  | .joined =>
    if s.life = .destroying ∧ ∀ w, (s.workers w).hasEnded = true then
      some { s with life := .destroyed }
    else none

/-- What one step can do. -/
inductive Steps [DecidableEq κ] (s : State n κ τ ε) : Action n κ τ ε → State n κ τ ε → Prop
  | submit (k task) (hk : s.callers k = .away) (hlife : s.life = .alive) :
      Steps s (.submit k task) (s.setCaller k (.submitting task))
  | push (k task woken) (hk : s.callers k = .submitting task) (hroom : s.inFlight < capacity n)
      (hwoken : workAvailable.MayWake s.workers woken) :
      Steps s (.slot k woken) ((s.push task woken).setCaller k .away)
  | block (k task woken) (hk : s.callers k = .submitting task) (hfull : capacity n ≤ s.inFlight) :
      Steps s (.slot k woken) (s.setCaller k (.blocked task))
  | wait (k) (hk : s.callers k = .away) : Steps s (.wait k) (s.setCaller k .waiting)
  | waited (k) (hk : s.callers k = .waiting) (hzero : s.inFlight = 0) :
      Steps s (.idle k) (s.setCaller k .away)
  | idle (k) (hk : s.callers k = .waiting) (hne : s.inFlight ≠ 0) :
      Steps s (.idle k) (s.setCaller k .idling)
  | takeError :
      Steps s .takeError { s with firstError := none, events := s.events ++ [.took s.firstError] }
  | take (w task rest) (hw : s.workers w = .awake) (htasks : s.tasks = task :: rest) :
      Steps s (.take w) { s.setWorker w (.executing task) with tasks := rest }
  | sleep (w) (hw : s.workers w = .awake) (htasks : s.tasks = []) (hstop : s.stopped w = false) :
      Steps s (.take w) (s.setWorker w .asleep)
  | exit (w) (hw : s.workers w = .awake) (htasks : s.tasks = []) (hstop : s.stopped w = true) :
      Steps s (.take w) (s.setWorker w .ended)
  | execute (w task thrown) (hw : s.workers w = .executing task) :
      Steps s (.execute w thrown)
        { s.setWorker w (.executed thrown) with executed := s.executed ++ [task] }
  | finish (w thrown) (hw : s.workers w = .executed thrown) :
      Steps s (.finish w) (s.finish w thrown)
  | release (w woken) (hw : s.workers w = .notifying)
      (hwoken : slotFree.MayWake s.callers woken) :
      Steps s (.release w woken)
        { s.setWorker w .awake with callers := slotFree.notifyOne s.callers woken }
  | wakeWorker (w) (hw : s.workers w = .asleep) : Steps s (.wakeWorker w) (s.setWorker w .awake)
  | unblock (k task) (hk : s.callers k = .blocked task) :
      Steps s (.wakeCaller k) (s.setCaller k (.submitting task))
  | rouse (k) (hk : s.callers k = .idling) : Steps s (.wakeCaller k) (s.setCaller k .waiting)
  | destroy (hlife : s.life = .alive) (hcallers : ∀ k, (s.callers k).submits = false) :
      Steps s .destroy { s with life := .destroying }
  | requestStop (w) (hlife : s.life = .destroying) (hstop : s.stopped w = false) :
      Steps s (.requestStop w) (s.requestStop w)
  | joined (hlife : s.life = .destroying) (hended : ∀ w, (s.workers w).hasEnded = true) :
      Steps s .joined { s with life := .destroyed }

theorem steps_of_step [Fintype κ] [DecidableEq κ] {s s' : State n κ τ ε} {a : Action n κ τ ε}
    (h : step s a = some s') : Steps s a s' := by
  cases a with
  | submit k task =>
    simp only [step] at h
    split at h
    · next hk hlife =>
      cases h
      exact .submit k task hk hlife
    · cases h
  | slot k woken =>
    simp only [step] at h
    split at h
    · next task hk =>
      split_ifs at h with hroom hwoken
      · cases h
        exact .push k task woken hk hroom hwoken
      · cases h
        exact .block k task woken hk (not_lt.mp hroom)
    · cases h
  | wait k =>
    simp only [step] at h
    split at h
    · cases h
    · next hk _ =>
      cases h
      exact .wait k hk
    · cases h
  | idle k =>
    simp only [step] at h
    split at h
    · cases h
    · next hk _ =>
      split_ifs at h with hzero
      · cases h
        exact .waited k hk hzero
      · cases h
        exact .idle k hk hzero
    · cases h
  | takeError =>
    simp only [step] at h
    split_ifs at h
    cases h
    exact .takeError
  | take w =>
    simp only [step] at h
    split at h
    · next task rest hw htasks =>
      cases h
      exact .take w task rest hw htasks
    · next hw htasks =>
      split_ifs at h with hstop
      · cases h
        exact .exit w hw htasks hstop
      · cases h
        exact .sleep w hw htasks (Bool.eq_false_iff.mpr hstop)
    · cases h
  | execute w thrown =>
    simp only [step] at h
    split at h
    · next task hw =>
      cases h
      exact .execute w task thrown hw
    · cases h
  | finish w =>
    simp only [step] at h
    split at h
    · next thrown hw =>
      cases h
      exact .finish w thrown hw
    · cases h
  | release w woken =>
    simp only [step] at h
    split at h
    · next hw =>
      split_ifs at h with hwoken
      cases h
      exact .release w woken hw hwoken
    · cases h
  | wakeWorker w =>
    simp only [step] at h
    split at h
    · next hw =>
      cases h
      exact .wakeWorker w hw
    · cases h
  | wakeCaller k =>
    simp only [step] at h
    split at h
    · next task hk =>
      cases h
      exact .unblock k task hk
    · next hk =>
      cases h
      exact .rouse k hk
    · cases h
  | destroy =>
    simp only [step] at h
    split_ifs at h with hready
    cases h
    exact .destroy hready.1 hready.2
  | requestStop w =>
    simp only [step] at h
    split_ifs at h with hready
    cases h
    exact .requestStop w hready.1 hready.2.1
  | joined =>
    simp only [step] at h
    split_ifs at h with hready
    cases h
    exact .joined hready.1 hready.2

/-! ## What is counted -/

/-- The task of a worker that has not run yet. -/
def Worker.held : Worker τ ε → Multiset τ
  | .executing task => {task}
  | _ => 0

/-- Whether a worker has a task that is not finished. -/
def Worker.inHand : Worker τ ε → ℕ
  | .executing _ => 1
  | .executed _ => 1
  | _ => 0

def Event.isFinish : Event ε → Bool
  | .finished _ => true
  | .took _ => false

def Event.thrown : Event ε → Option ε
  | .finished thrown => thrown
  | .took _ => none

/-- What the first task threw that has thrown since errors were taken. -/
def firstThrown (events : List (Event ε)) : Option ε :=
  (events.rtakeWhile Event.isFinish).findSome? Event.thrown

/-- What one step of any thread keeps. -/
structure Inv (s : State n κ τ ε) : Prop where
  counted : (s.executed : Multiset τ) + ∑ w, (s.workers w).held + s.tasks = s.submitted
  inFlight : s.inFlight = s.tasks.length + ∑ w, (s.workers w).inHand
  bounded : s.inFlight ≤ capacity n
  gauge : ∀ value, s.gauge = some value → s.submitted ≠ [] → value = toInt32 s.inFlight
  firstError : s.firstError = firstThrown s.events
  took : ∀ before err after, s.events = before ++ .took err :: after → err = firstThrown before

section Events

variable {events : List (Event ε)}

theorem firstThrown_finished (events : List (Event ε)) (thrown : Option ε) :
    firstThrown (events ++ [.finished thrown]) = (firstThrown events).or thrown := by
  rw [firstThrown, List.rtakeWhile_concat_pos _ _ _ rfl, List.findSome?_append,
    List.findSome?_singleton]
  rfl

theorem firstThrown_took (events : List (Event ε)) (err : Option ε) :
    firstThrown (events ++ [.took err]) = none := by
  rw [firstThrown, List.rtakeWhile_concat_neg _ _ _ Bool.false_ne_true]
  rfl

/-- Errors that were taken before stay what they were. -/
theorem took_concat {event : Event ε}
    (h : ∀ before err after, events = before ++ .took err :: after → err = firstThrown before)
    (hlast : ∀ err, event = .took err → err = firstThrown events) :
    ∀ before err after, events ++ [event] = before ++ .took err :: after →
      err = firstThrown before := by
  intro before err after hsplit
  rcases List.eq_nil_or_concat after with rfl | ⟨rest, last, rfl⟩
  · obtain ⟨rfl, hevent⟩ := List.append_inj' hsplit rfl
    exact hlast err (List.head_eq_of_cons_eq hevent)
  · rw [List.concat_eq_append, ← List.cons_append, ← List.append_assoc] at hsplit
    exact h before err rest (List.append_inj' hsplit rfl).1

end Events

section Kept

variable {s : State n κ τ ε} {w : Fin n} {worker : Worker τ ε}

/-- Where the threads are that have no task makes no difference. -/
theorem Inv.of_workers (h : Inv s) {workers : Fin n → Worker τ ε}
    (hheld : ∀ v, (workers v).held = (s.workers v).held)
    (hinHand : ∀ v, (workers v).inHand = (s.workers v).inHand) :
    Inv { s with workers := workers } where
  counted := by
    rw [← h.counted, Finset.sum_congr rfl fun v _ => hheld v]
  inFlight := by
    rw [h.inFlight, Finset.sum_congr rfl fun v _ => hinHand v]
  bounded := h.bounded
  gauge := h.gauge
  firstError := h.firstError
  took := h.took

theorem apply_update {γ : Type*} (f : Worker τ ε → γ) {workers : Fin n → Worker τ ε}
    (h : f worker = f (workers w)) (v : Fin n) :
    f (Function.update workers w worker v) = f (workers v) := by
  rcases eq_or_ne v w with rfl | hne
  · rw [Function.update_self, h]
  · rw [Function.update_of_ne hne]

theorem sum_update {M : Type*} [AddCommMonoid M] (f : Worker τ ε → M) {old : Worker τ ε}
    (hw : s.workers w = old) (worker : Worker τ ε) :
    ∑ v, f (Function.update s.workers w worker v) + f old = ∑ v, f (s.workers v) + f worker :=
  hw ▸ Tally.sum_update f s.workers w worker

theorem Inv.setWorker (h : Inv s) (hheld : worker.held = (s.workers w).held)
    (hinHand : worker.inHand = (s.workers w).inHand) : Inv (s.setWorker w worker) :=
  h.of_workers (apply_update Worker.held hheld) (apply_update Worker.inHand hinHand)

theorem Inv.setCaller [DecidableEq κ] (h : Inv s) (k : κ) (caller : Caller τ) :
    Inv (s.setCaller k caller) :=
  ⟨h.counted, h.inFlight, h.bounded, h.gauge, h.firstError, h.took⟩

theorem held_wake (b : Worker τ ε) (h : workAvailable.asleep b = true) :
    (workAvailable.wake b).held = b.held :=
  eq_asleep h ▸ rfl

theorem inHand_wake (b : Worker τ ε) (h : workAvailable.asleep b = true) :
    (workAvailable.wake b).inHand = b.inHand :=
  eq_asleep h ▸ rfl

/-- One more task is queued. -/
theorem Inv.push (h : Inv s) (task : τ) {woken : Option (Fin n)} (hroom : s.inFlight < capacity n)
    (hwoken : workAvailable.MayWake s.workers woken) : Inv (s.push task woken) where
  counted := by
    have hheld : ∑ w, (workAvailable.notifyOne s.workers woken w).held =
        ∑ w, (s.workers w).held :=
      Finset.sum_congr rfl fun w _ => ConditionVariable.apply_notifyOne held_wake hwoken w
    have hcounted := h.counted
    dsimp only [State.push, State.publishInFlight]
    rw [hheld, ← Multiset.coe_add, ← Multiset.coe_add, ← hcounted, add_assoc, add_assoc, add_assoc]
  inFlight := by
    have hinHand : ∑ w, (workAvailable.notifyOne s.workers woken w).inHand =
        ∑ w, (s.workers w).inHand :=
      Finset.sum_congr rfl fun w _ => ConditionVariable.apply_notifyOne inHand_wake hwoken w
    have hinFlight := h.inFlight
    dsimp only [State.push, State.publishInFlight]
    rw [hinHand, List.length_append, List.length_singleton]
    omega
  bounded := hroom
  gauge value hvalue _ := by
    obtain ⟨_, -, rfl⟩ := Option.map_eq_some_iff.mp hvalue
    rfl
  firstError := h.firstError
  took := h.took

theorem Inv.take (h : Inv s) {task : τ} {rest : List τ} (hw : s.workers w = .awake)
    (htasks : s.tasks = task :: rest) :
    Inv { s.setWorker w (.executing task) with tasks := rest } where
  counted := by
    have hsum : ∑ v, (Function.update s.workers w (.executing task) v).held + 0 =
      ∑ v, (s.workers v).held + {task} := sum_update Worker.held hw _
    have hcounted := h.counted
    rw [htasks, ← Multiset.cons_coe, ← Multiset.singleton_add] at hcounted
    dsimp only [State.setWorker]
    rw [← hcounted, ← add_zero (∑ v, _), hsum, add_assoc, add_assoc, add_assoc]
  inFlight := by
    have hsum : ∑ v, (Function.update s.workers w (.executing task) v).inHand + 0 =
      ∑ v, (s.workers v).inHand + 1 := sum_update Worker.inHand hw _
    have hinFlight := h.inFlight
    rw [htasks, List.length_cons] at hinFlight
    dsimp only [State.setWorker]
    omega
  bounded := h.bounded
  gauge := h.gauge
  firstError := h.firstError
  took := h.took

/-- A task that has run is held no more, but it is still in hand. -/
theorem Inv.execute (h : Inv s) {task : τ} (thrown : Option ε)
    (hw : s.workers w = .executing task) :
    Inv { s.setWorker w (.executed thrown) with executed := s.executed ++ [task] } where
  counted := by
    have hsum : ∑ v, (Function.update s.workers w (.executed thrown) v).held + {task} =
      ∑ v, (s.workers v).held + 0 := sum_update Worker.held hw _
    have hcounted := h.counted
    dsimp only [State.setWorker]
    rw [← hcounted, ← add_zero (∑ v, (s.workers v).held), ← hsum, ← Multiset.coe_add,
      Multiset.coe_singleton, add_right_comm _ _ (∑ v, _), add_assoc (Multiset.ofList s.executed)]
  inFlight := by
    have hsum : ∑ v, (Function.update s.workers w (.executed thrown) v).inHand + 1 =
      ∑ v, (s.workers v).inHand + 1 := sum_update Worker.inHand hw _
    have hinFlight := h.inFlight
    dsimp only [State.setWorker]
    omega
  bounded := h.bounded
  gauge := h.gauge
  firstError := h.firstError
  took := h.took

/-- A finished task is counted out, and the first error kept. -/
theorem Inv.finish (h : Inv s) {thrown : Option ε} (hw : s.workers w = .executed thrown) :
    Inv (s.finish w thrown) where
  counted := by
    have hheld : (Worker.notifying : Worker τ ε).held = (s.workers w).held := by
      rw [hw]
      rfl
    have hcounted := h.counted
    dsimp only [State.finish, State.publishInFlight]
    rw [← hcounted, Finset.sum_congr rfl fun v _ => apply_update Worker.held hheld v]
  inFlight := by
    have hsum : ∑ v, (Function.update s.workers w .notifying v).inHand + 1 =
      ∑ v, (s.workers v).inHand + 0 := sum_update Worker.inHand hw _
    have hinFlight := h.inFlight
    dsimp only [State.finish, State.publishInFlight]
    omega
  bounded := (Nat.sub_le _ _).trans h.bounded
  gauge value hvalue _ := by
    obtain ⟨_, -, rfl⟩ := Option.map_eq_some_iff.mp hvalue
    rfl
  firstError := by
    dsimp only [State.finish, State.publishInFlight]
    rw [firstThrown_finished, h.firstError]
  took := took_concat h.took fun _ hevent => by cases hevent

theorem Inv.takeError (h : Inv s) :
    Inv { s with firstError := none, events := s.events ++ [.took s.firstError] } where
  counted := h.counted
  inFlight := h.inFlight
  bounded := h.bounded
  gauge := h.gauge
  firstError := (firstThrown_took _ _).symm
  took := took_concat h.took fun _ hevent => by
    cases hevent
    exact h.firstError

theorem Inv.requestStop (h : Inv s) (w : Fin n) : Inv (s.requestStop w) := by
  have hall : Inv { s with workers := workAvailable.notifyAll s.workers } :=
    h.of_workers (fun v => ConditionVariable.apply_notifyAll held_wake v)
      fun v => ConditionVariable.apply_notifyAll inHand_wake v
  unfold State.requestStop
  split_ifs
  · exact ⟨hall.counted, hall.inFlight, h.bounded, h.gauge, h.firstError, h.took⟩
  · exact ⟨h.counted, h.inFlight, h.bounded, h.gauge, h.firstError, h.took⟩

theorem Inv.steps [DecidableEq κ] {s' : State n κ τ ε} {a : Action n κ τ ε} (h : Inv s)
    (hstep : Steps s a s') : Inv s' := by
  cases hstep with
  | submit k task => exact h.setCaller k _
  | push k task woken _ hroom hwoken => exact (h.push task hroom hwoken).setCaller k _
  | block k task woken => exact h.setCaller k _
  | wait k => exact h.setCaller k _
  | waited k => exact h.setCaller k _
  | idle k => exact h.setCaller k _
  | takeError => exact h.takeError
  | take w task rest hw htasks => exact h.take hw htasks
  | sleep w hw => exact h.setWorker (hw ▸ rfl) (hw ▸ rfl)
  | exit w hw => exact h.setWorker (hw ▸ rfl) (hw ▸ rfl)
  | execute w task thrown hw => exact h.execute thrown hw
  | finish w thrown hw => exact h.finish hw
  | release w woken hw =>
    have hworker : Inv (s.setWorker w .awake) := h.setWorker (hw ▸ rfl) (hw ▸ rfl)
    exact ⟨hworker.counted, hworker.inFlight, h.bounded, h.gauge, h.firstError, h.took⟩
  | wakeWorker w hw => exact h.setWorker (hw ▸ rfl) (hw ▸ rfl)
  | unblock k task => exact h.setCaller k _
  | rouse k => exact h.setCaller k _
  | destroy => exact ⟨h.counted, h.inFlight, h.bounded, h.gauge, h.firstError, h.took⟩
  | requestStop w => exact h.requestStop w
  | joined => exact ⟨h.counted, h.inFlight, h.bounded, h.gauge, h.firstError, h.took⟩

end Kept

/-! ## Runs -/

theorem construct_eq_some {threads : ℕ} {gauge : Option ℤ} {s : State threads κ τ ε}
    (h : construct threads gauge = some s) : threads ≤ kMaxThreads ∧ s = { gauge := gauge } := by
  unfold construct at h
  split_ifs at h with hthreads
  exact ⟨hthreads, (Option.some_inj.mp h).symm⟩

/-- A pool that there is has two slots for each worker. -/
theorem capacity_eq {threads : ℕ} (h : threads ≤ kMaxThreads) : capacity threads = 2 * threads := by
  have hsmall : 2 * threads < 2 ^ 64 :=
    (Nat.mul_le_mul_left 2 h).trans_lt (by decide)
  rw [capacity, mul_comm, Nat.mod_eq_of_lt hsmall]

theorem inv_construct (gauge : Option ℤ) : Inv ({ gauge := gauge } : State n κ τ ε) where
  counted := by
    refine (add_zero _).trans ((zero_add _).trans ?_)
    exact Finset.sum_eq_zero fun _ _ => rfl
  inFlight := by
    refine ((zero_add _).trans ?_).symm
    exact Finset.sum_eq_zero fun _ _ => rfl
  bounded := Nat.zero_le _
  gauge _ _ h := absurd rfl h
  firstError := rfl
  took before _ _ h := by simp at h

end ThreadPool

end BacktestEngine

import Mathlib.Algebra.Order.Group.Int
import Mathlib.Data.List.Perm.Basic
import Mathlib.Data.List.Range
import Mathlib.Tactic.Push
import Mathlib.Tactic.SplitIfs
import BacktestEngine.Library.Lease
import BacktestEngine.Library.Transition

/-! # The synchronous Redis client

A call spawns its operation and pumps the context of the connection until the operation is done or
its deadline has passed. A call that fails opens the breaker for a while, and cancels the requests
that wait for the connection, so that none of them is sent when the connection comes back.
-/

namespace BacktestEngine

namespace SyncRedisClient

open Lease (Reply)
open Transition

/-- The caller's thread is elsewhere, or pumps the context for a call. -/
inductive Phase
  | idle
  | pumping (call : ℕ) (deadline : ℤ)
  deriving DecidableEq

/-- What a call gives: nothing and no error, its value, or nothing and the reason. -/
inductive Result (ρ : Type)
  | skipped
  | value (v : ρ)
  | failed (reason : String)
  deriving DecidableEq

/-- A call that is over. Its reply is how its request stood at the server at that moment. -/
structure Return (ρ : Type) where
  call : Option ℕ
  result : Result ρ
  reply : Reply
  deriving DecidableEq

/-- The operations are known by their numbers, in the order of their calls. -/
structure State (ρ : Type) where
  clock : ℤ
  failFastUntil : ℤ := 0
  phase : Phase := .idle
  calls : ℕ := 0
  /-- The coroutines that have not begun. -/
  spawned : List ℕ := []
  /-- The requests that wait for the connection. -/
  queued : List ℕ := []
  /-- The requests that were taken back before they were written. -/
  cancelled : List ℕ := []
  written : List ℕ := []
  completed : List (ℕ × Except String ρ) := []
  returned : List (Return ρ) := []
  /-- The instants at which the breaker was tripped. -/
  trips : List ℤ := []

/-- What the pump may run: the beginning of an operation, the writing of the first request, the end
of an operation, or work of the connection. -/
inductive Handler (ρ : Type)
  | begins (call : ℕ)
  | writes
  | completes (call : ℕ) (outcome : Except String ρ)
  | other

/-- Every look at the clock is part of an action. -/
inductive Action (ρ : Type)
  | run (now later : ℤ)
  | pump (now : ℤ) (handler : Handler ρ)
  | giveUp (now later : ℤ)
  | finish (now : ℤ)

variable {ρ : Type}

namespace State

variable (s : State ρ)

/-- The completion state of an operation. -/
def done (call : ℕ) : Option (Except String ρ) := s.completed.lookup call

def breakerOpen (now : ℤ) : Prop := now < s.failFastUntil

instance (now : ℤ) : Decidable (s.breakerOpen now) := inferInstanceAs (Decidable (_ < _))

/-- What the server has seen of a call that got no value. -/
def replyOf (call : ℕ) : Reply := if call ∈ s.written then .lost else .unreached

def ends (call : Option ℕ) (result : Result ρ) (reply : Reply) (now : ℤ) : State ρ :=
  { s with clock := now, phase := .idle, returned := s.returned ++ [⟨call, result, reply⟩] }

def closeBreaker : State ρ := { s with failFastUntil := 0 }

/-- Take back what waits for the connection, and fail fast for a while. -/
def tripBreaker (failFastCooldown now : ℤ) : State ρ :=
  { s with
    queued := []
    cancelled := s.cancelled ++ s.queued
    failFastUntil := now + failFastCooldown
    trips := s.trips ++ [now] }

/-- A handler that the pump runs. An operation may fail once its request was written or taken back,
or when it waits on a connection that is lost. -/
def handle : Handler ρ → Option (State ρ)
  | .begins call =>
    if call ∈ s.spawned then
      some { s with spawned := s.spawned.erase call, queued := s.queued ++ [call] }
    else none
  | .writes =>
    match s.queued with
    | call :: queued => some { s with queued := queued, written := s.written ++ [call] }
    | [] => none
  | .completes call outcome =>
    if (s.done call).isSome then none
    else if call ∈ s.queued then
      match outcome with
      | .ok _ => none
      | .error _ => some { s with
          queued := s.queued.erase call
          cancelled := s.cancelled ++ [call]
          completed := s.completed ++ [(call, outcome)] }
    else if call ∈ s.written ∨ call ∈ s.cancelled ∧ outcome.isOk = false then
      some { s with completed := s.completed ++ [(call, outcome)] }
    else none
  | .other => some s

end State

variable (opTimeout failFastCooldown : ℤ)

def timedOut : String := "timed out (Redis unreachable?)"

def connectionStopped : String := "connection stopped before the command completed"

/-- One step of the caller's thread. -/
def step (s : State ρ) : Action ρ → Option (State ρ)
  | .run now later =>
    if s.phase ≠ .idle ∨ now < s.clock ∨ later < now then none
    else if s.breakerOpen now then some (s.ends none .skipped .unreached now)
    else some { s with
      clock := later
      phase := .pumping s.calls (later + opTimeout)
      calls := s.calls + 1
      spawned := s.spawned ++ [s.calls] }
  | .pump now handler =>
    match s.phase with
    | .pumping call deadline =>
      if now < s.clock ∨ (s.done call).isSome ∨ deadline ≤ now then none
      else ({ s with clock := now } : State ρ).handle handler
    | .idle => none
  | .giveUp now later =>
    match s.phase with
    | .pumping call deadline =>
      if now < s.clock ∨ later < now ∨ (s.done call).isSome then none
      else
        let reason := if deadline ≤ now then timedOut else connectionStopped
        some ((s.tripBreaker failFastCooldown later).ends (some call) (.failed reason)
          (s.replyOf call) later)
    | .idle => none
  | .finish now =>
    match s.phase with
    | .pumping call _ =>
      if now < s.clock then none
      else
        match s.done call with
        | some (.ok value) =>
          some (s.closeBreaker.ends (some call) (.value value) .answered now)
        | some (.error reason) =>
          some ((s.tripBreaker failFastCooldown now).ends (some call) (.failed reason)
            (s.replyOf call) now)
        | none => none
    | .idle => none

/-! ## What a step does -/

/-- Where the operations are: not begun, waiting, taken back, or written. -/
def State.places (s : State ρ) : List ℕ := s.spawned ++ (s.queued ++ (s.cancelled ++ s.written))

/-- What a handler does: it moves an operation from place to place, and ends one that is written or
taken back. -/
structure Handled (s t : State ρ) : Prop where
  clock : t.clock = s.clock
  failFastUntil : t.failFastUntil = s.failFastUntil
  phase : t.phase = s.phase
  calls : t.calls = s.calls
  returned : t.returned = s.returned
  trips : t.trips = s.trips
  places : t.places.Perm s.places
  waiting : ∀ c, c ∈ t.spawned ∨ c ∈ t.queued → c ∈ s.spawned ∨ c ∈ s.queued
  cancelled : s.cancelled ⊆ t.cancelled
  written : t.written = s.written ∨ ∃ c ∈ s.queued, t.written = s.written ++ [c]
  done : ∀ c outcome, t.done c = some outcome →
    s.done c = some outcome ∨ c ∈ t.written ∨ c ∈ t.cancelled ∧ outcome.isOk = false
  kept : ∀ c outcome, s.done c = some outcome → t.done c = some outcome

/-- The steps of the caller's thread. -/
inductive Steps (s : State ρ) : Action ρ → State ρ → Prop
  | skip {now later : ℤ} (hphase : s.phase = .idle) (hclock : s.clock ≤ now) :
      Steps s (.run now later) (s.ends none .skipped .unreached now)
  | spawn {now later : ℤ} (hphase : s.phase = .idle) (hclock : s.clock ≤ now)
      (hlater : now ≤ later) (hclosed : s.failFastUntil ≤ now) :
      Steps s (.run now later) { s with
        clock := later
        phase := .pumping s.calls (later + opTimeout)
        calls := s.calls + 1
        spawned := s.spawned ++ [s.calls] }
  | pump {now deadline : ℤ} {call : ℕ} {handler : Handler ρ} {t : State ρ}
      (hphase : s.phase = .pumping call deadline) (hclock : s.clock ≤ now)
      (hhandled : Handled { s with clock := now } t) : Steps s (.pump now handler) t
  | fail {a : Action ρ} {later deadline : ℤ} {call : ℕ} {reason : String}
      (hphase : s.phase = .pumping call deadline) (hclock : s.clock ≤ later)
      (haction : (∃ now, a = .giveUp now later) ∨
        a = .finish later ∧ s.done call = some (.error reason)) :
      Steps s a ((s.tripBreaker failFastCooldown later).ends (some call) (.failed reason)
        (s.replyOf call) later)
  | value {now deadline : ℤ} {call : ℕ} {v : ρ} (hphase : s.phase = .pumping call deadline)
      (hclock : s.clock ≤ now) (hdone : s.done call = some (.ok v)) :
      Steps s (.finish now) (s.closeBreaker.ends (some call) (.value v) .answered now)

section Steps

variable {opTimeout failFastCooldown : ℤ} {s t u : State ρ} {a : Action ρ}
  {handler : Handler ρ} {as more : List (Action ρ)} {call c : ℕ} {deadline : ℤ}

theorem done_completes {outcome : Except String ρ} {result : Except String ρ}
    (h : (s.completed ++ [(call, outcome)]).lookup c = some result) :
    s.done c = some result ∨ c = call ∧ result = outcome := by
  rw [List.lookup_append] at h
  cases hdone : s.completed.lookup c with
  | some _ =>
    rw [hdone] at h
    exact .inl (hdone.trans h)
  | none =>
    rw [hdone] at h
    by_cases hc : c = call
    · subst hc
      simp at h
      exact .inr ⟨rfl, h.symm⟩
    · simp [List.lookup_cons, beq_false_of_ne hc] at h

theorem done_append {outcome result : Except String ρ} (h : s.done c = some result) :
    (s.completed ++ [(call, outcome)]).lookup c = some result := by
  rw [List.lookup_append, show s.completed.lookup c = some result from h]
  rfl

theorem handled_of_begins (hc : c ∈ s.spawned) :
    Handled s { s with spawned := s.spawned.erase c, queued := s.queued ++ [c] } where
  clock := rfl
  failFastUntil := rfl
  phase := rfl
  calls := rfl
  returned := rfl
  trips := rfl
  places := by
    calc s.spawned.erase c ++ ((s.queued ++ [c]) ++ (s.cancelled ++ s.written))
      _ = (s.spawned.erase c ++ s.queued) ++ c :: (s.cancelled ++ s.written) := by simp
      _ |>.Perm (c :: ((s.spawned.erase c ++ s.queued) ++ (s.cancelled ++ s.written))) :=
        List.perm_middle
      _ |>.Perm s.places := by
        simpa [State.places] using ((List.perm_cons_erase hc).symm.append_right
          (s.queued ++ (s.cancelled ++ s.written)))
  waiting := by
    rintro x (hx | hx)
    · exact .inl (List.mem_of_mem_erase hx)
    · rcases List.mem_append.mp hx with hx | hx
      · exact .inr hx
      · exact .inl (List.mem_singleton.mp hx ▸ hc)
  cancelled := List.Subset.refl _
  written := .inl rfl
  done := fun _ _ h => .inl h
  kept := fun _ _ h => h

theorem handled_of_writes {queued : List ℕ} (hqueued : s.queued = c :: queued) :
    Handled s { s with queued := queued, written := s.written ++ [c] } where
  clock := rfl
  failFastUntil := rfl
  phase := rfl
  calls := rfl
  returned := rfl
  trips := rfl
  places := by
    refine List.Perm.append_left s.spawned ?_
    rw [hqueued]
    calc queued ++ (s.cancelled ++ (s.written ++ [c]))
      _ = (queued ++ (s.cancelled ++ s.written)) ++ [c] := by simp
      _ |>.Perm (c :: queued ++ (s.cancelled ++ s.written)) := List.perm_append_singleton _ _
  waiting := by
    rintro x (hx | hx)
    · exact .inl hx
    · exact .inr (hqueued ▸ List.mem_cons_of_mem c hx)
  cancelled := List.Subset.refl _
  written := .inr ⟨c, hqueued ▸ List.mem_cons_self, rfl⟩
  done := fun _ _ h => .inl h
  kept := fun _ _ h => h

theorem handled_of_completes {outcome : Except String ρ}
    (hcall : c ∈ s.written ∨ c ∈ s.cancelled ∧ outcome.isOk = false) :
    Handled s { s with completed := s.completed ++ [(c, outcome)] } where
  clock := rfl
  failFastUntil := rfl
  phase := rfl
  calls := rfl
  returned := rfl
  trips := rfl
  places := List.Perm.refl _
  waiting := fun _ h => h
  cancelled := List.Subset.refl _
  written := .inl rfl
  done := by
    intro x result h
    rcases done_completes h with h | ⟨rfl, rfl⟩
    · exact .inl h
    · exact .inr hcall
  kept := fun _ _ h => done_append h

/-- A request that waited on a connection that is lost. -/
theorem handled_of_lost {reason : String} (hc : c ∈ s.queued) :
    Handled s { s with
      queued := s.queued.erase c
      cancelled := s.cancelled ++ [c]
      completed := s.completed ++ [(c, .error reason)] } where
  clock := rfl
  failFastUntil := rfl
  phase := rfl
  calls := rfl
  returned := rfl
  trips := rfl
  places := by
    refine List.Perm.append_left s.spawned ?_
    calc s.queued.erase c ++ ((s.cancelled ++ [c]) ++ s.written)
      _ = (s.queued.erase c ++ s.cancelled) ++ c :: s.written := by simp
      _ |>.Perm (c :: ((s.queued.erase c ++ s.cancelled) ++ s.written)) := List.perm_middle
      _ |>.Perm (s.queued ++ (s.cancelled ++ s.written)) := by
        simpa using (List.perm_cons_erase hc).symm.append_right (s.cancelled ++ s.written)
  waiting := by
    rintro x (hx | hx)
    · exact .inl hx
    · exact .inr (List.mem_of_mem_erase hx)
  cancelled := List.subset_append_left _ _
  written := .inl rfl
  done := by
    intro x result h
    rcases done_completes h with h | ⟨rfl, rfl⟩
    · exact .inl h
    · exact .inr (.inr ⟨by simp, rfl⟩)
  kept := fun _ _ h => done_append h

theorem handled_of_handle (h : s.handle handler = some t) : Handled s t := by
  cases handler with
  | begins call =>
    simp only [State.handle] at h
    split_ifs at h with hcall
    cases h
    exact handled_of_begins hcall
  | writes =>
    simp only [State.handle] at h
    split at h
    · rename_i call queued hqueued
      cases h
      exact handled_of_writes hqueued
    · cases h
  | completes call outcome =>
    simp only [State.handle] at h
    split_ifs at h with hdone hqueued hcall
    · cases outcome with
      | ok v => cases h
      | error reason =>
        cases h
        exact handled_of_lost hqueued
    · cases h
      exact handled_of_completes hcall
  | other =>
    cases h
    exact ⟨rfl, rfl, rfl, rfl, rfl, rfl, List.Perm.refl _, fun _ h => h, List.Subset.refl _,
      .inl rfl, fun _ _ h => .inl h, fun _ _ h => h⟩

theorem steps_of_step (h : step opTimeout failFastCooldown s a = some t) :
    Steps opTimeout failFastCooldown s a t := by
  cases a with
  | run now later =>
    simp only [step] at h
    split_ifs at h with hguard hopen
    · push Not at hguard
      cases h
      exact .skip hguard.1 hguard.2.1
    · push Not at hguard
      cases h
      exact .spawn hguard.1 hguard.2.1 hguard.2.2 (not_lt.mp hopen)
  | pump now handler =>
    simp only [step] at h
    split at h
    · rename_i call deadline hphase
      split_ifs at h with hguard
      push Not at hguard
      exact .pump hphase hguard.1 (handled_of_handle h)
    · cases h
  | giveUp now later =>
    simp only [step] at h
    split at h
    · rename_i call deadline hphase
      split_ifs at h with hguard hreason
      all_goals
        push Not at hguard
        cases h
        exact .fail hphase (hguard.1.trans hguard.2.1) (.inl ⟨now, rfl⟩)
    · cases h
  | finish now =>
    simp only [step] at h
    split at h
    · rename_i call deadline hphase
      split_ifs at h with hguard
      split at h
      · rename_i v hdone
        cases h
        exact .value hphase (not_lt.mp hguard) hdone
      · rename_i reason hdone
        cases h
        exact .fail hphase (not_lt.mp hguard) (.inr ⟨rfl, hdone⟩)
      · cases h
    · cases h

/-! ## Late requests -/

/-- Each operation is at one place, and one that has its value was written. -/
structure Inv (s : State ρ) : Prop where
  places : s.places.Perm (List.range s.calls)
  current : ∀ call deadline, s.phase = .pumping call deadline → call ∈ s.places
  done : ∀ c outcome, s.done c = some outcome →
    c ∈ s.written ∨ c ∈ s.cancelled ∧ outcome.isOk = false

theorem inv_init (clock : ℤ) : Inv ({ clock := clock } : State ρ) :=
  ⟨List.Perm.refl _, fun _ _ h => (by cases h), fun _ _ h => (by cases h)⟩

/-- What waits for the connection is taken back. -/
theorem places_tripBreaker (failFastCooldown now : ℤ) :
    (s.tripBreaker failFastCooldown now).places.Perm s.places := by
  refine List.Perm.append_left s.spawned ?_
  have hcomm : (s.cancelled ++ s.queued).Perm (s.queued ++ s.cancelled) := List.perm_append_comm
  simpa [State.tripBreaker] using hcomm.append_right s.written

theorem Handled.written_subset (h : Handled s t) : s.written ⊆ t.written := by
  rcases h.written with hwritten | ⟨c, -, hwritten⟩
  · exact hwritten ▸ List.Subset.refl _
  · exact hwritten ▸ List.subset_append_left _ _

theorem Inv.steps (h : Inv s) (hstep : Steps opTimeout failFastCooldown s a t) : Inv t := by
  obtain ⟨hplaces, hcurrent, hdone⟩ := h
  cases hstep with
  | skip => exact ⟨hplaces, fun _ _ h => (by cases h), hdone⟩
  | spawn hphase hclock hlater hclosed =>
    refine ⟨?_, ?_, hdone⟩
    · calc (s.spawned ++ [s.calls]) ++ (s.queued ++ (s.cancelled ++ s.written))
        _ = s.spawned ++ s.calls :: (s.queued ++ (s.cancelled ++ s.written)) := by simp
        _ |>.Perm (s.calls :: s.places) := List.perm_middle
        _ |>.Perm (s.places ++ [s.calls]) := (List.perm_append_singleton _ _).symm
        _ |>.Perm (List.range (s.calls + 1)) := by
          rw [List.range_succ]
          exact hplaces.append_right _
    · rintro call deadline h
      cases h
      simp [State.places]
  | pump hphase hclock hhandled =>
    refine ⟨?_, ?_, ?_⟩
    · rw [hhandled.calls]
      exact hhandled.places.trans hplaces
    · intro call deadline h
      rw [hhandled.phase] at h
      exact hhandled.places.mem_iff.mpr (hcurrent call deadline h)
    · intro c outcome h
      rcases hhandled.done c outcome h with h | h
      · exact (hdone c outcome h).imp (fun h => hhandled.written_subset h)
          (And.imp_left fun h => hhandled.cancelled h)
      · exact h
  | @fail _ later _ _ _ hphase hclock haction =>
    refine ⟨(places_tripBreaker failFastCooldown later).trans hplaces, ?_, ?_⟩
    · exact fun _ _ h => (by cases h)
    intro c outcome h
    exact (hdone c outcome h).imp_right (And.imp_left (List.mem_append_left _))
  | value => exact ⟨hplaces, fun _ _ h => (by cases h), hdone⟩

/-- What is taken back stays so. -/
theorem cancelled_steps (hstep : Steps opTimeout failFastCooldown s a t) :
    s.cancelled ⊆ t.cancelled := by
  cases hstep with
  | skip | spawn | value => exact List.Subset.refl _
  | pump hphase hclock hhandled => exact hhandled.cancelled
  | fail => exact List.subset_append_left _ _

theorem cancelled_exec (hrun : exec (step opTimeout failFastCooldown) s as = some t)
    (hc : c ∈ s.cancelled) : c ∈ t.cancelled :=
  exec_invariant (I := fun s => c ∈ s.cancelled)
    (fun _ _ _ hc hstep => cancelled_steps (steps_of_step hstep) hc) hc hrun

theorem Inv.exec (h : Inv s) (hrun : exec (step opTimeout failFastCooldown) s as = some t) :
    Inv t :=
  exec_invariant (fun _ _ _ hinv hstep => hinv.steps (steps_of_step hstep)) h hrun

/-- Where the operation of a call is when it returns. -/
theorem placed_of_ended (h : Inv s) (hphase : s.phase = .pumping call deadline)
    (hstep : Steps opTimeout failFastCooldown s a t) (hended : t.phase = .idle) :
    call ∈ s.spawned ∨ call ∈ t.cancelled ∨ call ∈ s.written := by
  have hcall : call ∈ s.places := h.current call deadline hphase
  simp only [State.places, List.mem_append] at hcall
  cases hstep with
  | skip hidle => simp [hphase] at hidle
  | spawn hidle => simp [hphase] at hidle
  | pump hphase' hclock hhandled =>
    rw [hhandled.phase] at hended
    simp [hphase] at hended
  | fail hphase' hclock haction =>
    rcases hcall with hcall | hcall | hcall | hcall
    · exact .inl hcall
    · exact .inr (.inl (List.mem_append_right _ hcall))
    · exact .inr (.inl (List.mem_append_left _ hcall))
    · exact .inr (.inr hcall)
  | value hphase' hclock hdone =>
    cases hphase.symm.trans hphase'
    rcases h.done call _ hdone with hwritten | ⟨-, hok⟩
    · exact .inr (.inr hwritten)
    · simp [Except.isOk, Except.toBool] at hok

/-! ## The breaker -/

/-- The breaker is tripped no sooner than its time after it was tripped before, and it keeps every
call in between from asking. -/
structure Spaced (failFastCooldown : ℤ) (s : State ρ) : Prop where
  apart : s.trips.Pairwise fun a b => a + failFastCooldown ≤ b
  opened : ∀ a ∈ s.trips, a + failFastCooldown ≤ s.clock ∨ a + failFastCooldown ≤ s.failFastUntil
  asking : ∀ call deadline, s.phase = .pumping call deadline →
    ∀ a ∈ s.trips, a + failFastCooldown ≤ s.clock

theorem Spaced.steps (h : Spaced failFastCooldown s)
    (hstep : Steps opTimeout failFastCooldown s a t) : Spaced failFastCooldown t := by
  obtain ⟨hapart, hopened, hasking⟩ := h
  cases hstep with
  | skip hphase hclock =>
    exact ⟨hapart, fun a ha => (hopened a ha).imp_left (·.trans hclock), fun _ _ h => (by cases h)⟩
  | spawn hphase hclock hlater hclosed =>
    have hpast (a : ℤ) (ha : a ∈ s.trips) : a + failFastCooldown ≤ _ :=
      ((hopened a ha).elim (·.trans hclock) (·.trans hclosed)).trans hlater
    exact ⟨hapart, fun a ha => .inl (hpast a ha), fun _ _ _ => hpast⟩
  | pump hphase hclock hhandled =>
    have hpast (a : ℤ) (ha : a ∈ s.trips) : a + failFastCooldown ≤ t.clock := by
      rw [hhandled.clock]
      exact (hasking _ _ hphase a ha).trans hclock
    rw [← hhandled.trips] at hapart hpast
    exact ⟨hapart, fun a ha => .inl (hpast a ha), fun _ _ _ => hpast⟩
  | fail hphase hclock haction =>
    have hpast (a : ℤ) (ha : a ∈ s.trips) : a + failFastCooldown ≤ _ :=
      (hasking _ _ hphase a ha).trans hclock
    refine ⟨?_, ?_, fun _ _ h => (by cases h)⟩
    · refine List.pairwise_append.mpr ⟨hapart, List.pairwise_singleton _ _, ?_⟩
      intro a ha b hb
      rw [List.mem_singleton.mp hb]
      exact hpast a ha
    · intro a ha
      rcases List.mem_append.mp ha with ha | ha
      · exact .inl (hpast a ha)
      · rw [List.mem_singleton.mp ha]
        exact .inr le_rfl
  | value hphase hclock hdone =>
    exact ⟨hapart, fun a ha => .inl ((hasking _ _ hphase a ha).trans hclock),
      fun _ _ h => (by cases h)⟩

/-- However the connection behaves, the breaker spaces the failures of the client: two of them are
its time apart, and no operation is in hand within that time of a failure. -/
theorem failures_apart {clock : ℤ}
    (hrun : Transition.exec (step opTimeout failFastCooldown) { clock := clock } as = some s) :
    s.trips.Pairwise (fun a b => a + failFastCooldown ≤ b) ∧
      ∀ call deadline, s.phase = .pumping call deadline →
        ∀ a ∈ s.trips, a + failFastCooldown ≤ s.clock := by
  have h : Spaced failFastCooldown s :=
    exec_invariant (fun _ _ _ h hstep => h.steps (steps_of_step hstep))
      ⟨List.Pairwise.nil, fun _ h => absurd h List.not_mem_nil, fun _ _ h => (by cases h)⟩ hrun
  exact ⟨h.apart, h.asking⟩

/-! ## Calls as commands of the store -/

/-- No call is given up before its operation has begun. -/
def Prompt (s : State ρ) : Action ρ → Prop
  | .giveUp _ _ => s.spawned = []
  | _ => True

/-- The request that the server ran for a call that is over. -/
def Return.ran (r : Return ρ) : Option ℕ := if r.reply.runs then r.call else none

/-- The request of the call in hand, once it is written. -/
def State.inHand (s : State ρ) : List ℕ :=
  match s.phase with
  | .pumping call _ => if call ∈ s.written then [call] else []
  | .idle => []

/-- Only the call in hand has an operation on its way, and the server has run, in their order, the
requests of the calls before it that their replies tell of. -/
structure Tidy (s : State ρ) : Prop where
  waiting : ∀ c, c ∈ s.spawned ∨ c ∈ s.queued → ∃ deadline, s.phase = .pumping c deadline
  written : s.written = s.returned.filterMap Return.ran ++ s.inHand

theorem Inv.nodup (h : Inv s) : s.places.Nodup := h.places.nodup_iff.mpr List.nodup_range

theorem Inv.not_written_of_waiting (h : Inv s) (hc : c ∈ s.spawned ∨ c ∈ s.queued) :
    c ∉ s.written := by
  intro hwritten
  obtain ⟨-, hnodup, hspawned⟩ := List.nodup_append.mp h.nodup
  obtain ⟨-, -, hqueued⟩ := List.nodup_append.mp hnodup
  rcases hc with hc | hc
  · exact hspawned c hc c (by simp [hwritten]) rfl
  · exact hqueued c hc c (by simp [hwritten]) rfl

theorem Inv.not_waiting_of_done (h : Inv s) {outcome : Except String ρ}
    (hdone : s.done c = some outcome) : c ∉ s.spawned := by
  intro hspawned
  obtain ⟨-, -, hdisjoint⟩ := List.nodup_append.mp h.nodup
  rcases h.done c outcome hdone with hc | ⟨hc, -⟩
  · exact hdisjoint c hspawned c (by simp [hc]) rfl
  · exact hdisjoint c hspawned c (by simp [hc]) rfl

theorem inHand_ends (call : Option ℕ) (result : Result ρ) (reply : Reply) (now : ℤ) :
    (s.ends call result reply now).inHand = [] := rfl

theorem inHand_pumping (hphase : s.phase = .pumping call deadline) :
    s.inHand = if call ∈ s.written then [call] else [] := by
  rw [State.inHand, hphase]

/-- The end of a call: nothing is on its way, and its reply tells of its request. -/
theorem Tidy.ends (h : Tidy s) {result : Result ρ} {reply : Reply} {now : ℤ}
    (hphase : s.phase = .pumping call deadline) (hspawned : t.spawned = [])
    (hqueued : t.queued = []) (hwritten : t.written = s.written)
    (hreturned : t.returned = s.returned) (hreply : reply.runs = decide (call ∈ s.written)) :
    Tidy (t.ends (some call) result reply now) := by
  constructor
  · rintro c (hc | hc)
    · simp [State.ends, hspawned] at hc
    · simp [State.ends, hqueued] at hc
  · have hold := h.written
    rw [inHand_pumping hphase] at hold
    rw [inHand_ends, List.append_nil]
    simp only [State.ends, hwritten, hreturned, List.filterMap_append]
    conv_lhs => rw [hold]
    by_cases hmem : call ∈ s.written
    · simp [Return.ran, hreply, hmem]
    · simp [Return.ran, hreply, hmem]

theorem Tidy.steps (h : Tidy s) (hinv : Inv s) (hprompt : Prompt s a)
    (hstep : Steps opTimeout failFastCooldown s a t) : Tidy t := by
  have hidle (hphase : s.phase = .idle) : s.spawned = [] ∧ s.queued = [] := by
    constructor
    all_goals
      apply List.eq_nil_iff_forall_not_mem.mpr
      intro c hc
      obtain ⟨deadline, hpumping⟩ := h.waiting c (by simp [hc])
      simp [hphase] at hpumping
  have honly {call c : ℕ} {deadline : ℤ} (hphase : s.phase = .pumping call deadline)
      (hc : c ∈ s.spawned ∨ c ∈ s.queued) : c = call := by
    obtain ⟨deadline, hpumping⟩ := h.waiting c hc
    cases hphase.symm.trans hpumping
    rfl
  cases hstep with
  | skip hphase hclock =>
    constructor
    · rintro c hc
      simp [State.ends, hidle hphase] at hc
    · rw [inHand_ends]
      simpa [State.ends, Return.ran, State.inHand, hphase, Reply.runs] using h.written
  | spawn hphase hclock hlater hclosed =>
    obtain ⟨hspawned, hqueued⟩ := hidle hphase
    have hfresh : s.calls ∉ s.written := by
      intro hwritten
      have hmem : s.calls ∈ s.places := by simp [State.places, hwritten]
      simpa using hinv.places.mem_iff.mp hmem
    constructor
    · intro c hc
      simp only [hspawned, hqueued, List.nil_append, List.mem_singleton, List.not_mem_nil,
        or_false] at hc
      rw [hc]
      exact ⟨_, rfl⟩
    · simpa [State.inHand, hfresh, hphase] using h.written
  | @pump now deadline call handler t hphase hclock hhandled =>
    constructor
    · intro c hc
      rw [hhandled.phase]
      exact h.waiting c (hhandled.waiting c hc)
    · have hold := h.written
      rw [inHand_pumping hphase] at hold
      rw [inHand_pumping (hhandled.phase.trans hphase), hhandled.returned]
      rcases hhandled.written with hwritten | ⟨c, hc, hwritten⟩
      · rw [hwritten]
        exact hold
      · have hcall : c = call := honly hphase (.inr hc)
        have hfresh : c ∉ s.written := hinv.not_written_of_waiting (.inr hc)
        subst hcall
        rw [if_neg hfresh, List.append_nil] at hold
        rw [hwritten, if_pos (List.mem_append_right _ List.mem_cons_self)]
        exact congrArg (· ++ [c]) hold
  | @fail a later deadline call reason hphase hclock haction =>
    have hspawned : s.spawned = [] := by
      rcases haction with ⟨now, rfl⟩ | ⟨rfl, hdone⟩
      · exact hprompt
      · apply List.eq_nil_iff_forall_not_mem.mpr
        intro c hc
        rw [honly hphase (.inl hc)] at hc
        exact hinv.not_waiting_of_done hdone hc
    apply h.ends (t := s.tripBreaker failFastCooldown later) hphase hspawned rfl rfl rfl
    unfold State.replyOf
    split
    · rename_i hwritten
      exact (decide_eq_true hwritten).symm
    · rename_i hwritten
      exact (decide_eq_false hwritten).symm
  | @value now deadline call v hphase hclock hdone =>
    have hwritten : call ∈ s.written := by
      rcases hinv.done call _ hdone with hwritten | ⟨-, hok⟩
      · exact hwritten
      · simp [Except.isOk, Except.toBool] at hok
    have hnone (c : ℕ) (hc : c ∈ s.spawned ∨ c ∈ s.queued) : False := by
      rw [honly hphase hc] at hc
      exact hinv.not_written_of_waiting hc hwritten
    apply h.ends (t := s.closeBreaker) hphase
    · exact List.eq_nil_iff_forall_not_mem.mpr fun c hc => hnone c (.inl hc)
    · exact List.eq_nil_iff_forall_not_mem.mpr fun c hc => hnone c (.inr hc)
    · rfl
    · rfl
    · exact (decide_eq_true hwritten).symm

/-- A value is that of the call's own operation, which the server has answered. -/
def Return.Honest (s : State ρ) (r : Return ρ) : Prop :=
  ∀ v, r.result = .value v →
    r.reply = .answered ∧ ∃ call, r.call = some call ∧ s.done call = some (.ok v)

theorem honest_steps (h : ∀ r ∈ s.returned, r.Honest s)
    (hstep : Steps opTimeout failFastCooldown s a t) : ∀ r ∈ t.returned, r.Honest t := by
  cases hstep with
  | skip hphase hclock =>
    intro r hr
    rcases List.mem_append.mp hr with hr | hr
    · exact h r hr
    · rw [List.mem_singleton.mp hr]
      exact fun v hv => (by cases hv)
  | spawn => exact h
  | pump hphase hclock hhandled =>
    intro r hr v hv
    rw [hhandled.returned] at hr
    obtain ⟨hreply, call, hcall, hdone⟩ := h r hr v hv
    exact ⟨hreply, call, hcall, hhandled.kept call _ hdone⟩
  | fail hphase hclock haction =>
    intro r hr
    rcases List.mem_append.mp hr with hr | hr
    · exact h r hr
    · rw [List.mem_singleton.mp hr]
      exact fun v hv => (by cases hv)
  | value hphase hclock hdone =>
    intro r hr
    rcases List.mem_append.mp hr with hr | hr
    · exact h r hr
    · rw [List.mem_singleton.mp hr]
      rintro v ⟨⟩
      exact ⟨rfl, _, rfl, hdone⟩

end Steps

section Sample

instance (s : State ρ) : (a : Action ρ) → Decidable (Prompt s a)
  | .giveUp _ _ => inferInstanceAs (Decidable (s.spawned = []))
  | .run _ _ | .pump _ _ | .finish _ => inferInstanceAs (Decidable True)

/-- An operation that had not begun is left behind, and its request is written in a later call. -/
example : (exec (step 2 3) ({ clock := 1 } : State Bool)
    [.run 1 1, .giveUp 3 3, .run 6 6, .pump 6 (.begins 0), .pump 6 .writes]).map State.written =
      some [0] := by decide

/-- The store is away: the first call waits until its deadline. -/
def awayActions : List (Action Bool) := [.run 1 1, .pump 1 (.begins 0), .pump 2 .other]

/-- It is back: a call within the cooldown is skipped, and the one after it is answered. -/
def backActions : List (Action Bool) := [
  .run 4 4,
  .run 6 6,
  .pump 6 (.completes 0 (.error "Operation canceled")),
  .pump 6 (.begins 1),
  .pump 6 .writes,
  .pump 7 (.completes 1 (.ok true)),
  .finish 7]

theorem failures_apart_away : ∃ s : State Bool,
    exec (step 2 3) { clock := 1 } (awayActions ++ [.giveUp 3 3]) = some s ∧
      s.trips.Pairwise (fun a b => a + 3 ≤ b) ∧
        ∀ call deadline, s.phase = .pumping call deadline → ∀ a ∈ s.trips, a + 3 ≤ s.clock :=
  ⟨_, rfl, @failures_apart Bool 2 3 _ (awayActions ++ [.giveUp 3 3]) 1 rfl⟩

end Sample

end SyncRedisClient

end BacktestEngine

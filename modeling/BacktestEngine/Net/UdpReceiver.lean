import Mathlib.Data.Nat.Notation
import Mathlib.Tactic.SplitIfs
import BacktestEngine.Library.Transition

/-! # The datagram receiver

One receive is outstanding at a time. When it completes, the datagram goes to the handler, whose
exceptions end there, and the next receive is armed. Closing the socket ends the loop.
-/

namespace BacktestEngine

namespace UdpReceiver

open Transition

/-- What the socket keeps of a datagram. -/
def kBufferSize : ℕ := 2048

/-- What a handler makes of its state; the fate is what the code around it does, such as running out
of memory. -/
abbrev Handler (σ F : Type) := σ → List UInt8 → F → σ

structure State (σ : Type) where
  consumer : σ
  isOpen : Bool := true
  /-- A receive is outstanding. -/
  armed : Bool := true
  /-- The loop of the context was stopped. -/
  stopped : Bool := false

/-- The completions of a receive, and the shutdown by a signal or by `stop`. -/
inductive Event (F : Type)
  | datagram (bytes : List UInt8) (fate : F)
  | failed
  | aborted
  | shutdown
  deriving DecidableEq

variable {σ F : Type} (handler : Handler σ F)

/-- A handler returns or throws; in both cases the receive is armed again. -/
def step (s : State σ) : Event F → Option (State σ)
  | .datagram bytes fate =>
    if s.armed ∧ ¬s.stopped then
      some { s with
        consumer := handler s.consumer (bytes.take kBufferSize) fate
        armed := s.isOpen }
    else none
  | .failed => if s.armed ∧ ¬s.stopped then some { s with armed := s.isOpen } else none
  | .aborted =>
    if s.armed ∧ ¬s.stopped ∧ ¬s.isOpen then some { s with armed := false } else none
  | .shutdown =>
    if s.stopped then none else some { s with isOpen := false, stopped := true }

/-- The loop is alive until it is shut down. -/
def Alive (s : State σ) : Prop := s.isOpen = !s.stopped ∧ (s.stopped = false → s.armed = true)

/-- What the handler makes of the datagrams, one after the other. -/
def handled (consumer : σ) (events : List (Event F)) : σ :=
  events.foldl (fun consumer event =>
    match event with
    | .datagram bytes fate => handler consumer (bytes.take kBufferSize) fate
    | _ => consumer) consumer

theorem handled_append (consumer : σ) (events more : List (Event F)) :
    handled handler consumer (events ++ more) =
      handled handler (handled handler consumer events) more := List.foldl_append

variable {handler} {s s' : State σ} {event : Event F} {events : List (Event F)}

theorem alive_init (consumer : σ) : Alive ({ consumer := consumer } : State σ) :=
  ⟨rfl, fun _ => rfl⟩

/-- What a step does: every completion leaves a receive outstanding, and only a shutdown stops. -/
theorem step_cases (halive : Alive s) (h : step handler s event = some s') :
    s.stopped = false ∧
      ((∃ bytes fate, event = .datagram bytes fate ∧
          s' = { s with consumer := handler s.consumer (bytes.take kBufferSize) fate }) ∨
        (event = .failed ∧ s' = s) ∨
        (event = .shutdown ∧ s' = { s with isOpen := false, stopped := true })) := by
  obtain ⟨hopen, harmed⟩ := halive
  cases event with
  | datagram bytes fate =>
    simp only [step] at h
    split_ifs at h with hready
    cases h
    have hstopped : s.stopped = false := by simpa using hready.2
    refine ⟨hstopped, .inl ⟨bytes, fate, rfl, ?_⟩⟩
    rw [hopen, hstopped, harmed hstopped]
    rfl
  | failed =>
    simp only [step] at h
    split_ifs at h with hready
    cases h
    have hstopped : s.stopped = false := by simpa using hready.2
    refine ⟨hstopped, .inr (.inl ⟨rfl, ?_⟩)⟩
    rw [hopen, hstopped]
    cases s
    simp_all
  | aborted =>
    simp only [step] at h
    split_ifs at h with hready
    simp_all
  | shutdown =>
    simp only [step] at h
    split_ifs at h with hstopped
    cases h
    exact ⟨by simpa using hstopped, .inr (.inr ⟨rfl, rfl⟩)⟩

theorem Alive.step (halive : Alive s) (h : step handler s event = some s') : Alive s' := by
  obtain ⟨-, ⟨bytes, fate, -, rfl⟩ | ⟨-, rfl⟩ | ⟨-, rfl⟩⟩ := step_cases halive h
  · exact halive
  · exact halive
  · exact ⟨rfl, fun h => absurd h (by simp)⟩

/-- In every run each datagram is handed over once, in order, and only the shutdown, which nothing
follows, ends the loop. -/
theorem exec_receiver (halive : Alive s) (h : exec (step handler) s events = some s') :
    Alive s' ∧ s'.consumer = handled handler s.consumer events ∧
      (s'.stopped = true ↔ s.stopped = true ∨ .shutdown ∈ events) := by
  induction events generalizing s with
  | nil =>
    cases h
    exact ⟨halive, rfl, by simp⟩
  | cons event events ih =>
    obtain ⟨t, hstep, hrest⟩ := exec_cons.mp h
    obtain ⟨halive', hconsumer, hstopped⟩ := ih (halive.step hstep) hrest
    refine ⟨halive', ?_, ?_⟩
    · obtain ⟨-, ⟨bytes, fate, rfl, rfl⟩ | ⟨rfl, rfl⟩ | ⟨rfl, rfl⟩⟩ := step_cases halive hstep
      · exact hconsumer
      · exact hconsumer
      · exact hconsumer
    · obtain ⟨-, ⟨bytes, fate, rfl, rfl⟩ | ⟨rfl, rfl⟩ | ⟨rfl, rfl⟩⟩ := step_cases halive hstep
      · simp [hstopped]
      · simp [hstopped]
      · simp [hstopped]

end UdpReceiver

end BacktestEngine

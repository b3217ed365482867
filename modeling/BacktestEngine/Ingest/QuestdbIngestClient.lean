import BacktestEngine.Library.DropOldest
import BacktestEngine.Library.Transition

/-! # The ingest writer

Lines are queued by any thread and sent in batches by the thread of the writer. A full queue drops
its oldest line, and on destruction the thread drains the queue before it ends.
-/

namespace BacktestEngine

namespace QuestdbIngestClient

open Transition DropOldest

/-- The lines of a transfer, and whether they persisted. -/
structure Post where
  lines : List String
  persisted : Bool
  deriving DecidableEq

def Post.body (post : Post) : String := String.join post.lines

/-- Where the worker thread is: in its loop, in the drain after it, or ended. -/
inductive Phase
  | looping
  | draining
  | ended
  deriving DecidableEq

structure State where
  queue : Buffer String := {}
  droppedTotal : ℕ := 0
  failedTotal : ℕ := 0
  stopRequested : Bool := false
  phase : Phase := .looping
  /-- The lines of the body that is being sent. -/
  sending : Option (List String) := none
  posts : List Post := []
  /-- The front of an empty queue was popped. -/
  broken : Bool := false

inductive Action
  | enqueueLine (line : String)
  | requestStop
  | leaveLoop
  | drain
  | posted (ok : Bool)
  deriving DecidableEq

section Steps

variable (batchSize maxQueue : ℕ) (curl : Bool)

/-- Queueing a line, under the lock. -/
def enqueueLine (s : State) (line : String) : State :=
  if maxQueue ≤ s.queue.queue.length then
    { s with
      queue := s.queue.dropFront.push line
      droppedTotal := s.droppedTotal + 1
      broken := s.broken || s.queue.queue.isEmpty }
  else { s with queue := s.queue.push line }

/-- Taking a batch off the queue, under the lock. Without a body there is nothing to send, and the
drain ends. -/
def drain (s : State) : State :=
  let lines := s.queue.queue.take batchSize
  if String.join lines = "" then
    { s with
      queue := s.queue.take batchSize
      phase := if s.phase = .draining then .ended else s.phase }
  else { s with queue := s.queue.take batchSize, sending := some lines }

/-- A transfer ends. Without a handle it fails. -/
def posted (s : State) (lines : List String) (ok : Bool) : State :=
  { s with
    sending := none
    posts := s.posts ++ [⟨lines, curl && ok⟩]
    failedTotal := if curl && ok then s.failedTotal else s.failedTotal + lines.length }

/-- A destroyed writer is not called. The thread sees a stop only when it comes round to its loop's
head. -/
def step (s : State) : Action → Option State
  | .enqueueLine line => if s.phase = .ended then none else some (enqueueLine maxQueue s line)
  | .requestStop => some { s with stopRequested := true }
  | .leaveLoop =>
    if s.phase = .looping ∧ s.stopRequested = true ∧ s.sending = none then
      some { s with phase := .draining }
    else none
  | .drain =>
    if s.phase ≠ .ended ∧ s.sending = none then some (drain batchSize s) else none
  | .posted ok => s.sending.map fun lines => posted curl s lines ok

end Steps

/-- The lines that were put into bodies, in the order of sending. -/
def placed (s : State) : List String := s.posts.flatMap Post.lines ++ s.sending.getD []

def failed (posts : List Post) : List Post := posts.filter (!·.persisted)

/-- Every line is dropped and counted, or in one body, or queued; the bodies keep the order; the
queue is bounded; failures are counted; and a worker that has ended has left nothing. -/
structure Conserved (maxQueue : ℕ) (s : State) : Prop where
  lines : ∃ gone, Interleaved (placed s) s.queue.dropped gone ∧
    s.queue.arrived = gone ++ s.queue.queue
  dropped : s.droppedTotal = s.queue.dropped.length
  bodies : String.join (s.posts.map Post.body ++ (s.sending.map String.join).toList) =
    String.join (placed s)
  bounded : s.queue.queue.length ≤ maxQueue
  failures : s.failedTotal = ((failed s.posts).flatMap Post.lines).length
  ended : s.phase = .ended → s.queue.queue = [] ∧ s.sending = none
  defined : s.broken = false

/-! ## Joined lines -/

theorem toList_foldl (text : String) (lines : List String) :
    (lines.foldl (fun r s => r ++ s) text).toList = text.toList ++ lines.flatMap String.toList := by
  induction lines generalizing text with
  | nil => simp
  | cons line lines ih => simp [ih]

theorem toList_join (lines : List String) :
    (String.join lines).toList = lines.flatMap String.toList := by
  rw [String.join, toList_foldl]
  rfl

theorem join_eq_empty_iff {lines : List String} (h : ∀ line ∈ lines, line ≠ "") :
    String.join lines = "" ↔ lines = [] := by
  constructor
  · intro hjoin
    have hchars := toList_join lines
    rw [hjoin] at hchars
    cases lines with
    | nil => rfl
    | cons line lines =>
      have hline : line.toList = [] := (List.append_eq_nil_iff.mp hchars.symm).1
      exact absurd (String.toList_eq_nil_iff.mp hline) (h line List.mem_cons_self)
  · rintro rfl
    rfl

theorem join_bodies (batches : List (List String)) :
    String.join (batches.map String.join) = String.join batches.flatten := by
  apply String.toList_injective
  rw [toList_join, toList_join]
  induction batches with
  | nil => rfl
  | cons batch batches ih =>
    rw [List.map_cons, List.flatMap_cons, ih, List.flatten_cons, List.flatMap_append, toList_join]

/-! ## Runs -/

section Runs

variable {batchSize maxQueue : ℕ} {curl : Bool} {s s' : State}

/-- What every action keeps with proper sizes. -/
structure Inv (maxQueue : ℕ) (s : State) : Prop where
  taken : s.queue.taken = placed s
  nonempty : ∀ line ∈ s.queue.queue, line ≠ ""
  dropped : s.droppedTotal = s.queue.dropped.length
  bounded : s.queue.queue.length ≤ maxQueue
  failures : s.failedTotal = ((failed s.posts).flatMap Post.lines).length
  ended : s.phase = .ended → s.queue.queue = [] ∧ s.sending = none
  defined : s.broken = false

variable (maxQueue) in
theorem inv_init : Inv maxQueue {} where
  taken := rfl
  nonempty := fun _ h => absurd h List.not_mem_nil
  dropped := rfl
  bounded := Nat.zero_le _
  failures := rfl
  ended := fun h => by cases h
  defined := rfl

theorem Inv.enqueueLine (h : Inv maxQueue s) (hmax : 0 < maxQueue) {line : String}
    (hline : line ≠ "") (hphase : s.phase ≠ .ended) :
    Inv maxQueue (enqueueLine maxQueue s line) := by
  unfold QuestdbIngestClient.enqueueLine
  split_ifs with hfull
  · have hne : s.queue.queue ≠ [] := by
      intro hnil
      rw [hnil] at hfull
      exact absurd hfull (Nat.not_le.mpr hmax)
    refine ⟨h.taken, ?_, ?_, ?_, h.failures, fun hended => absurd hended hphase, ?_⟩
    · intro l hl
      obtain hl | hl := List.mem_append.mp hl
      · exact h.nonempty l (List.mem_of_mem_tail hl)
      · rw [List.mem_singleton.mp hl]
        exact hline
    · rw [Buffer.dropped_push, Buffer.length_dropped_dropFront hne, ← h.dropped]
    · have hpos := List.length_pos_iff.mpr hne
      have hbounded := h.bounded
      rw [Buffer.queue_push, Buffer.queue_dropFront, List.length_append, List.length_tail,
        List.length_singleton]
      omega
    · rw [h.defined, List.isEmpty_eq_false_iff.mpr hne]
      rfl
  · refine ⟨h.taken, ?_, h.dropped, ?_, h.failures, fun hended => absurd hended hphase, h.defined⟩
    · intro l hl
      obtain hl | hl := List.mem_append.mp hl
      · exact h.nonempty l hl
      · rw [List.mem_singleton.mp hl]
        exact hline
    · rw [Buffer.queue_push, List.length_append, List.length_singleton]
      omega

theorem Inv.drain (h : Inv maxQueue s) (hbatch : 0 < batchSize) (hphase : s.phase ≠ .ended)
    (hsending : s.sending = none) : Inv maxQueue (drain batchSize s) := by
  have hlines : ∀ line ∈ s.queue.queue.take batchSize, line ≠ "" := fun line hline =>
    h.nonempty line (List.mem_of_mem_take hline)
  have hrest : ∀ line ∈ s.queue.queue.drop batchSize, line ≠ "" := fun line hline =>
    h.nonempty line (List.mem_of_mem_drop hline)
  have hbounded : (s.queue.queue.drop batchSize).length ≤ maxQueue := by
    rw [List.length_drop]
    exact Nat.le_trans (Nat.sub_le _ _) h.bounded
  have htaken : s.queue.taken = s.posts.flatMap Post.lines := by
    rw [h.taken, placed, hsending]
    exact List.append_nil _
  unfold QuestdbIngestClient.drain
  dsimp only
  by_cases hbody : String.join (s.queue.queue.take batchSize) = ""
  · rw [if_pos hbody]
    have hnone := (join_eq_empty_iff hlines).mp hbody
    have hqueue : s.queue.queue = [] := by
      obtain hzero | hnil := List.take_eq_nil_iff.mp hnone
      · exact absurd hzero (Nat.ne_of_gt hbatch)
      · exact hnil
    refine ⟨?_, hrest, h.dropped, hbounded, h.failures, fun _ => ⟨?_, hsending⟩, h.defined⟩
    · rw [Buffer.taken_take, hnone, List.append_nil]
      exact h.taken
    · rw [Buffer.queue_take, hqueue, List.drop_nil]
  · rw [if_neg hbody]
    refine ⟨?_, hrest, h.dropped, hbounded, h.failures, fun hended => absurd hended hphase,
      h.defined⟩
    rw [Buffer.taken_take, htaken]
    rfl

theorem Inv.posted (h : Inv maxQueue s) {lines : List String} (hsending : s.sending = some lines)
    (ok : Bool) : Inv maxQueue (posted curl s lines ok) := by
  have htaken := h.taken
  rw [placed, hsending] at htaken
  refine ⟨?_, h.nonempty, h.dropped, h.bounded, ?_, fun hended => ?_, h.defined⟩
  · refine htaken.trans ?_
    simp [placed, QuestdbIngestClient.posted]
  · have hfailures := h.failures
    cases hok : curl && ok with
    | true => simp [QuestdbIngestClient.posted, failed, hok, hfailures]
    | false => simp [QuestdbIngestClient.posted, failed, hok, hfailures]
  · cases hsending.symm.trans (h.ended hended).2

theorem Inv.step (h : Inv maxQueue s) (hbatch : 0 < batchSize) (hmax : 0 < maxQueue) {a : Action}
    (ha : a ≠ .enqueueLine "") (hstep : step batchSize maxQueue curl s a = some s') :
    Inv maxQueue s' := by
  cases a with
  | enqueueLine line =>
    simp only [QuestdbIngestClient.step] at hstep
    split_ifs at hstep with hphase
    cases hstep
    exact h.enqueueLine hmax (fun hline => ha (hline ▸ rfl)) hphase
  | requestStop =>
    cases hstep
    exact ⟨h.taken, h.nonempty, h.dropped, h.bounded, h.failures, h.ended, h.defined⟩
  | leaveLoop =>
    simp only [QuestdbIngestClient.step] at hstep
    split_ifs at hstep
    cases hstep
    exact ⟨h.taken, h.nonempty, h.dropped, h.bounded, h.failures, fun hended => (by cases hended),
      h.defined⟩
  | drain =>
    simp only [QuestdbIngestClient.step] at hstep
    split_ifs at hstep with hready
    cases hstep
    exact h.drain hbatch hready.1 hready.2
  | posted ok =>
    obtain ⟨lines, hsending, rfl⟩ := Option.map_eq_some_iff.mp hstep
    exact h.posted hsending ok

theorem Inv.conserved (h : Inv maxQueue s) : Conserved maxQueue s where
  lines := h.taken ▸ s.queue.kept
  dropped := h.dropped
  bodies := by
    have hbodies := join_bodies (s.posts.map Post.lines ++ s.sending.toList)
    rw [List.map_append, List.map_map, List.flatten_append, ← List.flatMap_def] at hbodies
    rw [placed]
    cases hsending : s.sending with
    | none =>
      rw [hsending] at hbodies
      exact hbodies
    | some lines =>
      rw [hsending, Option.toList_some, List.flatten_singleton] at hbodies
      exact hbodies
  bounded := h.bounded
  failures := h.failures
  ended := h.ended
  defined := h.defined

/-- Lines are conserved, whatever is interleaved, exactly if a batch may hold a line and the queue
may, too. -/
theorem conserved_iff (batchSize maxQueue : ℕ) :
    (∀ (curl : Bool) (as : List Action) (s : State), .enqueueLine "" ∉ as →
      exec (step batchSize maxQueue curl) {} as = some s → Conserved maxQueue s) ↔
        0 < batchSize ∧ 0 < maxQueue := by
  constructor
  · intro h
    have hmax : 0 < maxQueue := by
      rcases Nat.eq_zero_or_pos maxQueue with rfl | hpos
      · -- the front of an empty queue is popped
        have hbroken := (h true [.enqueueLine "t"] _ (by decide) rfl).defined
        exact absurd hbroken.symm Bool.false_ne_true
      · exact hpos
    refine ⟨?_, hmax⟩
    rcases Nat.eq_zero_or_pos batchSize with rfl | hpos
    · -- the last drain sends nothing and the line stays
      have hroom : ¬ maxQueue ≤ 0 := Nat.not_le.mpr hmax
      have hend := (h true [.enqueueLine "t", .requestStop, .leaveLoop, .drain]
        { queue := (({} : Buffer String).push "t").take 0, stopRequested := true, phase := .ended }
        (by decide) ?_).ended rfl
      · cases hend.1
      · simp [exec, step, enqueueLine, drain, hroom, String.join]
    · exact hpos
  · rintro ⟨hbatch, hmax⟩ curl as s hlines hrun
    have hguard : Along (step batchSize maxQueue curl) (fun _ a => a ≠ .enqueueLine "") {} as :=
      along_of_forall_mem fun a ha heq => hlines (heq ▸ ha)
    exact (exec_invariant_along (fun _ _ _ h ha hstep => h.step hbatch hmax ha hstep)
      (inv_init maxQueue) hguard hrun).conserved

/-- With no room for a line, the front of an empty queue is popped. -/
theorem no_room_broken : ∃ s, exec (step 1000 0 true) {} [.enqueueLine "t"] = some s ∧
    ¬ Conserved 0 s :=
  ⟨_, rfl, fun h => absurd h.defined.symm Bool.false_ne_true⟩

end Runs

end QuestdbIngestClient

end BacktestEngine

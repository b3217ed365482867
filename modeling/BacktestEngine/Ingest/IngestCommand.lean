import Mathlib.Data.List.Basic
import BacktestEngine.Ingest.QuestdbIngestClient
import BacktestEngine.Ingest.TickPacket
import BacktestEngine.Net.UdpReceiver

/-! # From datagrams to rows

The receiver hands its datagrams to a handler that decodes them and queues a line for each tick,
while the thread of the writer sends the lines in batches. Every datagram is counted once, and what
is sent can be cut into the lines of the ticks again.
-/

namespace BacktestEngine

namespace IngestCommand

open Transition UdpReceiver

/-- The row of a tick: the table, the two prices and the nanoseconds. -/
def ilpLine (tick : PriceData) : String :=
  tick.symbol ++ " ask=" ++ toString tick.ask ++ "i,bid=" ++ toString tick.bid ++ "i " ++
    toString (tick.timestamp * 1000) ++ "\n"

/-- How a call of the handler ends: it may run out of memory before its line is queued, or while it
logs that the queue is full. -/
inductive Fate
  | returns
  | throwsEarly
  | throwsLate
  deriving DecidableEq

structure Consumer where
  writer : QuestdbIngestClient.State := {}
  received : ℕ := 0
  dropped : ℕ := 0
  /-- The ticks whose lines were queued, in order. -/
  ticks : List PriceData := []
  /-- The calls that threw, before and after their line was queued. -/
  early : ℕ := 0
  late : ℕ := 0

variable (batchSize maxQueue : ℕ) (curl : Bool)

def queueTick (c : Consumer) (tick : PriceData) : Consumer :=
  { c with
    writer := QuestdbIngestClient.enqueueLine maxQueue c.writer (ilpLine tick)
    ticks := c.ticks ++ [tick] }

/-- A tick is queued and then counted. -/
def accept (c : Consumer) (tick : PriceData) : Fate → Consumer
  | .throwsEarly => { c with early := c.early + 1 }
  | .returns => { queueTick maxQueue c tick with received := c.received + 1 }
  | .throwsLate => { queueTick maxQueue c tick with late := c.late + 1 }

def onDatagram : Handler Consumer Fate := fun c bytes fate =>
  match TickPacket.decodeTick bytes with
  | none => { c with dropped := c.dropped + 1 }
  | some tick => accept maxQueue c tick fate

/-- The receiver's thread and the thread of the writer. -/
inductive Action
  | receive (event : Event Fate)
  | write (action : QuestdbIngestClient.Action)
  deriving DecidableEq

/-- Lines come from the handler only, and the writer is destroyed after the receiver has stopped. -/
def mayWrite (s : State Consumer) : QuestdbIngestClient.Action → Bool
  | .enqueueLine _ => false
  | .requestStop => s.stopped
  | .leaveLoop | .drain | .posted _ => true

def step (s : State Consumer) : Action → Option (State Consumer)
  | .receive event => UdpReceiver.step (onDatagram maxQueue) s event
  | .write action =>
    if mayWrite s action then
      (QuestdbIngestClient.step batchSize maxQueue curl s.consumer.writer action).map fun writer =>
        { s with consumer := { s.consumer with writer := writer } }
    else none

/-- The datagrams that the receiver handed over. -/
def datagrams (actions : List Action) : ℕ :=
  actions.countP fun action => match action with
    | .receive (.datagram _ _) => true
    | _ => false

/-! ## Rows -/

/-- The lines of a body, each with its end. -/
def cutRows (body : String) : List String :=
  (body.toList.splitOn '\n').dropLast.map fun row => String.ofList (row ++ ['\n'])

theorem toList_toString {n : ℤ} (h : 0 ≤ n) : (toString n).toList = Nat.toDigits 10 n.toNat := by
  obtain ⟨m, rfl⟩ := Int.eq_ofNat_of_zero_le h
  exact Nat.toList_repr

/-- No digit is a mark between the fields of a row. -/
theorem mark_not_mem {c : Char} (hdigit : c.isDigit = false) {n : ℤ} (h : 0 ≤ n) :
    c ∉ (toString n).toList := by
  rw [toList_toString h]
  intro hmem
  have hc := Nat.isDigit_of_mem_toDigits (by decide) (by decide) hmem
  rw [hdigit] at hc
  cases hc

theorem toString_inj {n n' : ℤ} (h : 0 ≤ n) (h' : 0 ≤ n')
    (heq : (toString n).toList = (toString n').toList) : n = n' := by
  rw [toList_toString h, toList_toString h'] at heq
  have hvalue := congrArg (Nat.ofDigitChars 10 · 0) heq
  simp only [Nat.ofDigitChars_ten_toDigits] at hvalue
  omega

/-- Two texts that agree up to a mark and after it. -/
theorem eq_of_mark {c : Char} {text text' rest rest' : List Char} (h : c ∉ text) (h' : c ∉ text')
    (heq : text ++ c :: rest = text' ++ c :: rest') : text = text' ∧ rest = rest' := by
  have hsplit := congrArg (List.splitOn c) heq
  rw [List.splitOn_append_cons_self_of_not_mem h,
    List.splitOn_append_cons_self_of_not_mem h'] at hsplit
  obtain rfl := (List.cons.inj hsplit).1
  exact ⟨rfl, (List.cons.inj (List.append_cancel_left heq)).2⟩

/-- The characters of a row, field by field. -/
theorem toList_ilpLine (tick : PriceData) : (ilpLine tick).toList =
    tick.symbol.toList ++ ' ' :: 'a' :: 's' :: 'k' :: '=' :: ((toString tick.ask).toList ++
      'i' :: ',' :: 'b' :: 'i' :: 'd' :: '=' :: ((toString tick.bid).toList ++
        'i' :: ' ' :: ((toString (tick.timestamp * 1000)).toList ++ ['\n']))) := by
  simp [ilpLine]

theorem symbol_marks : ∀ entry ∈ SymbolScale.kTable,
    ' ' ∉ entry.symbol.toList ∧ '\n' ∉ entry.symbol.toList := by
  decide

section Sound

open TickPacket

variable {tick tick' : PriceData}

theorem marks_of_sound (h : Sound tick) : ' ' ∉ tick.symbol.toList ∧ '\n' ∉ tick.symbol.toList := by
  obtain ⟨entry, hmem, hsymbol, -⟩ := exists_entry h.symbol
  rw [← hsymbol]
  exact symbol_marks entry hmem

/-- A row tells its tick. -/
theorem ilpLine_injective (h : Sound tick) (h' : Sound tick') (heq : ilpLine tick = ilpLine tick') :
    tick = tick' := by
  have hint {c : Char} (hdigit : c.isDigit = false) {n n' : ℤ} (hn : 0 ≤ n) (hn' : 0 ≤ n')
      {rest rest' : List Char} (hchars : (toString n).toList ++ c :: rest =
        (toString n').toList ++ c :: rest') : n = n' ∧ rest = rest' := by
    obtain ⟨htext, hrest⟩ := eq_of_mark (mark_not_mem hdigit hn) (mark_not_mem hdigit hn') hchars
    exact ⟨toString_inj hn hn' htext, hrest⟩
  have htime := h.time.1
  have htime' := h'.time.1
  have hchars := congrArg String.toList heq
  rw [toList_ilpLine, toList_ilpLine] at hchars
  obtain ⟨hsymbol, hchars⟩ := eq_of_mark (marks_of_sound h).1 (marks_of_sound h').1 hchars
  simp only [List.cons.injEq, true_and] at hchars
  obtain ⟨hask, hchars⟩ := hint (by decide) h.ask.1 h'.ask.1 hchars
  simp only [List.cons.injEq, true_and] at hchars
  obtain ⟨hbid, hchars⟩ := hint (by decide) h.bid.1 h'.bid.1 hchars
  simp only [List.cons.injEq, true_and] at hchars
  obtain ⟨hnanos, -⟩ := hint (by decide) (by omega) (by omega) hchars
  have hstamp : tick.timestamp = tick'.timestamp := by omega
  cases tick
  cases tick'
  simp only [PriceData.mk.injEq]
  exact ⟨hask, hbid, hstamp, String.toList_inj.mp hsymbol⟩

/-- A row ends with the only line break in it. -/
theorem exists_row (h : Sound tick) :
    ∃ row, '\n' ∉ row ∧ (ilpLine tick).toList = row ++ ['\n'] := by
  have hnumber {n : ℤ} (hn : 0 ≤ n) : '\n' ∉ (toString n).toList := mark_not_mem (by decide) hn
  have htime := h.time.1
  refine ⟨tick.symbol.toList ++ ' ' :: 'a' :: 's' :: 'k' :: '=' :: ((toString tick.ask).toList ++
      'i' :: ',' :: 'b' :: 'i' :: 'd' :: '=' :: ((toString tick.bid).toList ++
        'i' :: ' ' :: (toString (tick.timestamp * 1000)).toList)), ?_, ?_⟩
  · simp only [List.mem_append, List.mem_cons, not_or]
    refine ⟨(marks_of_sound h).2, by decide, by decide, by decide, by decide, by decide,
      hnumber h.ask.1, by decide, by decide, by decide, by decide, by decide, by decide,
      hnumber h.bid.1, by decide, by decide, hnumber (by omega)⟩
  · rw [toList_ilpLine]
    simp

/-- A body of rows is cut into these rows. -/
theorem cutRows_join {lines : List String}
    (h : ∀ line ∈ lines, ∃ row, '\n' ∉ row ∧ line.toList = row ++ ['\n']) :
    cutRows (String.join lines) = lines := by
  unfold cutRows
  rw [QuestdbIngestClient.toList_join]
  induction lines with
  | nil => rfl
  | cons line lines ih =>
    obtain ⟨⟨row, hrow, hline⟩, hlines⟩ := List.forall_mem_cons.mp h
    have hne : (lines.flatMap String.toList).splitOn '\n' ≠ [] := List.splitOn_ne_nil _ _
    rw [List.flatMap_cons, hline, List.append_assoc, List.singleton_append,
      List.splitOn_append_cons_self_of_not_mem hrow, List.dropLast_cons_of_ne_nil hne,
      List.map_cons, ih hlines, ← hline, String.ofList_toList]

end Sound

/-! ## Runs -/

section Runs

variable {batchSize maxQueue : ℕ} {curl : Bool} {s s' : State Consumer} {handed : ℕ}

/-- What every step keeps, with proper sizes. -/
structure Inv (maxQueue : ℕ) (s : State Consumer) (handed : ℕ) : Prop where
  alive : Alive s
  writer : QuestdbIngestClient.Inv maxQueue s.consumer.writer
  queued : s.consumer.writer.queue.arrived = s.consumer.ticks.map ilpLine
  sound : ∀ tick ∈ s.consumer.ticks, TickPacket.Sound tick
  counted : s.consumer.received + s.consumer.late = s.consumer.ticks.length
  total : s.consumer.received + s.consumer.dropped + s.consumer.early + s.consumer.late = handed
  running : s.stopped = false →
    s.consumer.writer.stopRequested = false ∧ s.consumer.writer.phase = .looping

theorem ilpLine_ne (tick : PriceData) : ilpLine tick ≠ "" := by
  intro h
  have hchars := congrArg String.toList h
  rw [toList_ilpLine] at hchars
  simp at hchars

variable (maxQueue) in
theorem arrived_enqueueLine (writer : QuestdbIngestClient.State) (line : String) :
    (QuestdbIngestClient.enqueueLine maxQueue writer line).queue.arrived =
      writer.queue.arrived ++ [line] := by
  unfold QuestdbIngestClient.enqueueLine
  split_ifs <;> rfl

variable (maxQueue) in
theorem phase_enqueueLine (writer : QuestdbIngestClient.State) (line : String) :
    (QuestdbIngestClient.enqueueLine maxQueue writer line).phase = writer.phase ∧
      (QuestdbIngestClient.enqueueLine maxQueue writer line).stopRequested =
        writer.stopRequested := by
  unfold QuestdbIngestClient.enqueueLine
  split_ifs <;> exact ⟨rfl, rfl⟩

variable (maxQueue) in
theorem inv_init : Inv maxQueue { consumer := {} } 0 where
  alive := alive_init _
  writer := QuestdbIngestClient.inv_init maxQueue
  queued := rfl
  sound := fun _ h => absurd h List.not_mem_nil
  counted := rfl
  total := rfl
  running := fun _ => ⟨rfl, rfl⟩

theorem Inv.onDatagram (h : Inv maxQueue s handed) (hmax : 0 < maxQueue)
    (hrunning : s.stopped = false) (bytes : List UInt8) (fate : Fate) :
    Inv maxQueue { s with consumer := onDatagram maxQueue s.consumer bytes fate } (handed + 1) := by
  have htotal := h.total
  have hcounted := h.counted
  have hphase : s.consumer.writer.phase ≠ .ended := by
    rw [(h.running hrunning).2]
    decide
  unfold IngestCommand.onDatagram
  cases hdecode : TickPacket.decodeTick bytes with
  | none =>
    refine ⟨h.alive, h.writer, h.queued, h.sound, h.counted, ?_, h.running⟩
    dsimp only
    omega
  | some tick =>
    have hsound : ∀ t ∈ s.consumer.ticks ++ [tick], TickPacket.Sound t := by
      intro t ht
      rcases List.mem_append.mp ht with ht | ht
      · exact h.sound t ht
      · rw [List.mem_singleton.mp ht]
        exact TickPacket.sound_of_decodeTick hdecode
    have hwriter := h.writer.enqueueLine hmax (ilpLine_ne tick) hphase
    have hqueued := arrived_enqueueLine maxQueue s.consumer.writer (ilpLine tick)
    rw [h.queued, ← List.map_singleton, ← List.map_append] at hqueued
    obtain ⟨hphase', hstop⟩ := phase_enqueueLine maxQueue s.consumer.writer (ilpLine tick)
    have hqueue : ∀ received late, received + late = s.consumer.ticks.length + 1 →
        received + s.consumer.dropped + s.consumer.early + late = handed + 1 →
        Inv maxQueue { s with consumer :=
          { queueTick maxQueue s.consumer tick with received := received, late := late } }
            (handed + 1) := by
      intro received late hlength htotal
      refine ⟨h.alive, hwriter, hqueued, hsound, ?_, htotal, ?_⟩
      · rw [hlength]
        simp [queueTick]
      · intro _
        dsimp only [queueTick]
        rw [hphase', hstop]
        exact h.running hrunning
    cases fate with
    | throwsEarly =>
      refine ⟨h.alive, h.writer, h.queued, h.sound, h.counted, ?_, h.running⟩
      dsimp only [accept]
      omega
    | returns => exact hqueue (s.consumer.received + 1) s.consumer.late (by omega) (by omega)
    | throwsLate => exact hqueue s.consumer.received (s.consumer.late + 1) (by omega) (by omega)

/-- The thread of the writer queues no line, and goes on until it is told to stop. -/
theorem writer_step {writer writer' : QuestdbIngestClient.State}
    {action : QuestdbIngestClient.Action} (hqueues : ∀ line, action ≠ .enqueueLine line)
    (hstep : QuestdbIngestClient.step batchSize maxQueue curl writer action = some writer') :
    writer'.queue.arrived = writer.queue.arrived ∧
      (action ≠ .requestStop → writer.stopRequested = false → writer.phase = .looping →
        writer'.stopRequested = false ∧ writer'.phase = .looping) := by
  cases action with
  | enqueueLine line => exact absurd rfl (hqueues line)
  | requestStop =>
    cases hstep
    exact ⟨rfl, fun hne => absurd rfl hne⟩
  | leaveLoop =>
    simp only [QuestdbIngestClient.step] at hstep
    split_ifs at hstep with hleave
    refine ⟨by cases hstep; rfl, fun _ hstop => ?_⟩
    rw [hleave.2.1] at hstop
    cases hstop
  | drain =>
    simp only [QuestdbIngestClient.step] at hstep
    split_ifs at hstep
    cases hstep
    unfold QuestdbIngestClient.drain
    dsimp only
    split_ifs with hbody hphase
    · refine ⟨rfl, fun _ _ hlooping => ?_⟩
      rw [hphase] at hlooping
      cases hlooping
    · exact ⟨rfl, fun _ hstop hlooping => ⟨hstop, hlooping⟩⟩
    · exact ⟨rfl, fun _ hstop hlooping => ⟨hstop, hlooping⟩⟩
  | posted ok =>
    obtain ⟨lines, -, rfl⟩ := Option.map_eq_some_iff.mp hstep
    exact ⟨rfl, fun _ hstop hlooping => ⟨hstop, hlooping⟩⟩

theorem Inv.write (h : Inv maxQueue s handed) (hbatch : 0 < batchSize) (hmax : 0 < maxQueue)
    {action : QuestdbIngestClient.Action} {writer : QuestdbIngestClient.State}
    (hmay : mayWrite s action = true)
    (hstep : QuestdbIngestClient.step batchSize maxQueue curl s.consumer.writer action =
      some writer) :
    Inv maxQueue { s with consumer := { s.consumer with writer := writer } } handed := by
  have hqueues : ∀ line, action ≠ .enqueueLine line := by
    rintro line rfl
    cases hmay
  obtain ⟨harrived, hgoes⟩ := writer_step hqueues hstep
  refine ⟨h.alive, h.writer.step hbatch hmax (hqueues "") hstep, harrived.trans h.queued, h.sound,
    h.counted, h.total, fun hrunning => ?_⟩
  obtain ⟨hstop, hphase⟩ := h.running hrunning
  apply hgoes _ hstop hphase
  rintro rfl
  exact absurd hrunning (by rw [show s.stopped = true from hmay]; decide)

theorem Inv.step (h : Inv maxQueue s handed) (hbatch : 0 < batchSize) (hmax : 0 < maxQueue)
    {action : Action} (hstep : step batchSize maxQueue curl s action = some s') :
    Inv maxQueue s' (handed + datagrams [action]) := by
  cases action with
  | receive event =>
    have halive : Alive s' :=
      h.alive.step (show UdpReceiver.step (IngestCommand.onDatagram maxQueue) s event = _ from hstep)
    obtain ⟨hrunning, ⟨bytes, fate, rfl, rfl⟩ | ⟨rfl, rfl⟩ | ⟨rfl, rfl⟩⟩ :=
      step_cases h.alive hstep
    · exact h.onDatagram hmax hrunning _ fate
    · exact h
    · exact ⟨halive, h.writer, h.queued, h.sound, h.counted, h.total,
        fun hstopped => by cases hstopped⟩
  | write action =>
    simp only [IngestCommand.step] at hstep
    split_ifs at hstep with hmay
    obtain ⟨writer, hwriter, rfl⟩ := Option.map_eq_some_iff.mp hstep
    exact h.write hbatch hmax hmay hwriter

theorem Inv.exec (h : Inv maxQueue s handed) (hbatch : 0 < batchSize) (hmax : 0 < maxQueue)
    {actions : List Action}
    (hrun : Transition.exec (IngestCommand.step batchSize maxQueue curl) s actions = some s') :
    Inv maxQueue s' (handed + datagrams actions) := by
  induction actions generalizing s handed with
  | nil =>
    cases hrun
    exact h
  | cons action actions ih =>
    obtain ⟨t, hstep, hrest⟩ := exec_cons.mp hrun
    have hnext := ih (h.step hbatch hmax hstep) hrest
    have hsplit : datagrams (action :: actions) = datagrams [action] + datagrams actions := by
      rw [← List.singleton_append, datagrams, List.countP_append]
      rfl
    rwa [hsplit, ← Nat.add_assoc]

/-- The rows of the transfers that persisted. -/
def persisted (posts : List QuestdbIngestClient.Post) : List String :=
  (posts.filter (·.persisted)).flatMap QuestdbIngestClient.Post.lines

/-- Each datagram is counted once; each row of a tick is stored, or failed or was shed and is counted
as such, or is still here; the bodies can be cut into the rows of ticks that came, in their order;
and a row tells its tick. -/
structure Conserved (c : Consumer) (handed : ℕ) : Prop where
  counted : c.received + c.dropped + c.early + c.late = handed
  rows : c.received + c.late = (persisted c.writer.posts).length + c.writer.failedTotal +
    c.writer.droppedTotal + (c.writer.sending.getD []).length + c.writer.queue.queue.length
  drained : c.writer.phase = .ended → c.writer.queue.queue = [] ∧ c.writer.sending = none
  sent : ∃ ticks : List PriceData, ticks.Sublist c.ticks ∧
    c.writer.posts.flatMap (fun post => cutRows post.body) ++ c.writer.sending.getD [] =
      ticks.map ilpLine
  told : ∀ tick ∈ c.ticks, ∀ tick' ∈ c.ticks, ilpLine tick = ilpLine tick' → tick = tick'

theorem length_posts (posts : List QuestdbIngestClient.Post) :
    (posts.flatMap QuestdbIngestClient.Post.lines).length =
      (persisted posts).length +
        ((QuestdbIngestClient.failed posts).flatMap QuestdbIngestClient.Post.lines).length := by
  induction posts with
  | nil => rfl
  | cons post posts ih =>
    simp only [persisted, QuestdbIngestClient.failed] at ih
    cases hpost : post.persisted with
    | false =>
      simp only [persisted, QuestdbIngestClient.failed, List.flatMap_cons, List.length_append,
        List.filter_cons, hpost, Bool.not_false, Bool.false_eq_true, if_true, if_false]
      omega
    | true =>
      simp only [persisted, QuestdbIngestClient.failed, List.flatMap_cons, List.length_append,
        List.filter_cons, hpost, Bool.not_true, Bool.false_eq_true, if_true, if_false]
      omega

theorem Inv.rows (h : Inv maxQueue s handed) : s.consumer.received + s.consumer.late =
    (persisted s.consumer.writer.posts).length + s.consumer.writer.failedTotal +
      s.consumer.writer.droppedTotal + (s.consumer.writer.sending.getD []).length +
        s.consumer.writer.queue.queue.length := by
  have hlength := s.consumer.writer.queue.length_arrived
  rw [h.queued, List.length_map, h.writer.taken, QuestdbIngestClient.placed, List.length_append,
    ← h.writer.dropped, length_posts, ← h.writer.failures] at hlength
  rw [h.counted, hlength]
  omega

theorem Inv.conserved (h : Inv maxQueue s handed) : Conserved s.consumer handed := by
  obtain ⟨ticks, hticks, hlines⟩ := List.sublist_map_iff.mp
    (h.queued ▸ s.consumer.writer.queue.taken_sublist)
  rw [h.writer.taken] at hlines
  have hrows : ∀ post ∈ s.consumer.writer.posts, cutRows post.body = post.lines := by
    intro post hpost
    apply cutRows_join
    intro line hline
    have hmem : line ∈ ticks.map ilpLine := by
      rw [← hlines]
      exact List.mem_append_left _ (List.mem_flatMap.mpr ⟨post, hpost, hline⟩)
    obtain ⟨tick, htick, rfl⟩ := List.mem_map.mp hmem
    exact exists_row (h.sound tick (hticks.subset htick))
  refine ⟨h.total, h.rows, h.writer.ended, ⟨ticks, hticks, ?_⟩, ?_⟩
  · rw [← hlines, QuestdbIngestClient.placed, List.flatMap_def, List.map_congr_left hrows,
      ← List.flatMap_def]
  · intro tick htick tick' htick'
    exact ilpLine_injective (h.sound tick htick) (h.sound tick' htick')

/-- The sizes of the source. -/
def kBatchSize : ℕ := 1000
def kMaxQueue : ℕ := 1000000

/-- However the two threads are interleaved, datagrams and rows are conserved, and as long as the
command is not shut down it receives. -/
theorem ingest_conserves {actions : List Action}
    (hrun : Transition.exec (step kBatchSize kMaxQueue curl) { consumer := {} } actions = some s) :
    Conserved s.consumer (datagrams actions) ∧ Alive s := by
  have h := (inv_init kMaxQueue).exec (by decide) (by decide) hrun
  rw [Nat.zero_add] at h
  exact ⟨h.conserved, h.alive⟩

/-- One tick and one stray datagram, and the shutdown. -/
def sampleActions : List Action := [
  .receive (.datagram (TickPacket.makePacket (.finite 1) (.finite 1) 1 "EURUSD") .returns),
  .receive (.datagram [0] .returns), .receive .shutdown, .write .requestStop, .write .drain,
  .write (.posted true), .write .leaveLoop, .write .drain]

theorem sample_conserved :
    ∃ s, Transition.exec (step kBatchSize kMaxQueue true) { consumer := {} } sampleActions = some s ∧
      Conserved s.consumer (datagrams sampleActions) ∧ Alive s := by
  obtain ⟨s, hs⟩ := Option.isSome_iff_exists.mp (by decide +kernel :
    (Transition.exec (step kBatchSize kMaxQueue true) { consumer := {} } sampleActions).isSome)
  exact ⟨s, hs, ingest_conserves hs⟩

end Runs

end IngestCommand

end BacktestEngine

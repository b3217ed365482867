import BacktestEngine.Net.UdpReceiver
import BacktestEngine.Tracking.TrackingReport

/-! # The tracking command

Every datagram that is a deal is reported, and whatever goes wrong in a report ends there. The store
answers as it likes, so that other clients, lost answers and expiring keys are among what may
happen: the command takes no deal off the book that the broker has not reported deleted.
-/

namespace BacktestEngine

namespace Tracking

open DealPacket (Deal decodeDeal)
open Positions (PositionStore)
open Transition UdpReceiver

/-- A report ends with its document, or throws after so many exchanges. -/
inductive Fate
  | completes (dateIso : String)
  | throws (exchanges : ℕ)
  deriving DecidableEq

structure Consumer where
  received : ℕ := 0
  dropped : ℕ := 0
  documents : List JsonValue := []
  /-- All that was exchanged with the store. -/
  trace : Trace := []
  /-- The reports that threw. -/
  failed : ℕ := 0

section Handler

variable (config : Config) (peer : Program.Peer Command Command.Answer)

def onDeal (c : Consumer) (deal : Deal) : Fate → Consumer
  | .completes dateIso =>
    let played := (report config dateIso deal).playFrom peer c.trace
    { c with
      received := c.received + 1
      documents := c.documents ++ [played.2]
      trace := c.trace ++ played.1 }
  | .throws exchanges =>
    let played := (report config "" deal).playFrom peer c.trace
    { c with
      received := c.received + 1
      failed := c.failed + 1
      trace := c.trace ++ played.1.take exchanges }

def onDatagram : Handler Consumer Fate := fun c bytes fate =>
  match decodeDeal bytes with
  | none => { c with dropped := c.dropped + 1 }
  | some deal => onDeal config peer c deal fate

end Handler

/-- The datagrams of a run, as the socket hands them over. -/
def datagrams (events : List (Event Fate)) : List (List UInt8) :=
  events.filterMap fun event =>
    match event with
    | .datagram bytes _ => some (bytes.take kBufferSize)
    | _ => none

def deals (handed : List (List UInt8)) : List Deal := handed.filterMap decodeDeal

/-- The broker has reported the deal deleted. -/
def ReportedDeleted (handed : List (List UInt8)) (dealReference : String) : Prop :=
  ∃ deal ∈ deals handed, deal.status = "DELETED" ∧ deal.dealReference = dealReference

/-- The command leaves the deal where it is: it reads, works on the records of other deals, or
writes a list back as it was read but for another deal. -/
def Spares (dealReference : String) (before : Trace) : Command → Prop
  | .getHistory _ | .store (.getPosition _) | .store (.getList _) => True
  | .store (.getDelete dealId) | .store (.setHistory dealId _) => dealId ≠ dealReference
  | .store (.setList strategyId dealIds) =>
    ∃ listed, ⟨.store (.getList strategyId), some (some (.value listed))⟩ ∈ before ∧
      dealIds.Sublist listed ∧ (dealReference ∈ listed → dealReference ∈ dealIds)
  | .store _ => False

section Runs

variable {config : Config} {peer : Program.Peer Command Command.Answer} {deal : Deal}
  {before trace : Trace} {handed : List (List UInt8)}
  {events : List (Event Fate)} {c : Consumer}

theorem justified_iff : Justified deal before trace ↔
    ∀ mid e after, trace = mid ++ e :: after → Archives deal (before ++ mid) e.command := by
  induction trace generalizing before with
  | nil => simp [Justified]
  | cons first trace ih =>
    simp only [Justified, ih]
    constructor
    · rintro ⟨hfirst, hrest⟩ mid e after hsplit
      cases mid with
      | nil =>
        cases hsplit
        rwa [List.append_nil]
      | cons f mid =>
        cases hsplit
        have h := hrest mid e after rfl
        rwa [List.append_assoc] at h
    · intro h
      refine ⟨by simpa using h [] first trace rfl, ?_⟩
      rintro mid e after rfl
      have h := h (first :: mid) e after rfl
      rwa [List.append_assoc]

/-- Each exchange is one of the report of a deal among these. -/
def Accounted (among : List Deal) (trace : Trace) : Prop :=
  ∀ before e after, trace = before ++ e :: after → ∃ deal ∈ among, Archives deal before e.command

theorem Accounted.append {among : List Deal} (h : Accounted among trace) {more : Trace}
    (hmore : Justified deal trace more) : Accounted (among ++ [deal]) (trace ++ more) := by
  intro before e after hsplit
  rcases List.append_eq_append_iff.mp hsplit with ⟨mid, rfl, hmid⟩ | ⟨mid, hmid, hafter⟩
  · exact ⟨deal, by simp, justified_iff.mp hmore mid e after hmid⟩
  · cases mid with
    | nil =>
      rw [List.append_nil] at hmid
      rw [hmid] at hmore
      refine ⟨deal, by simp, ?_⟩
      have h := justified_iff.mp hmore [] e after hafter.symm
      rwa [List.append_nil] at h
    | cons f mid =>
      cases hafter
      obtain ⟨d, hd, harchives⟩ := h before e mid hmid
      exact ⟨d, by simp [hd], harchives⟩

/-- Every datagram is counted; every deal has its document or its report threw; a document names its
deal, in their order; and what was exchanged belongs to the reports of these deals. -/
structure Tracked (handed : List (List UInt8)) (c : Consumer) : Prop where
  counted : c.received + c.dropped = handed.length
  reported : c.received = (deals handed).length
  filed : c.documents.length + c.failed = c.received
  named : (c.documents.map (·.find "dealReference")).Sublist
    ((deals handed).map fun deal => some (.string deal.dealReference))
  accounted : Accounted (deals handed) c.trace

theorem Tracked.onDatagram (h : Tracked handed c) (bytes : List UInt8) (fate : Fate) :
    Tracked (handed ++ [bytes]) (onDatagram config peer c bytes fate) := by
  obtain ⟨hcounted, hreported, hfiled, hnamed, haccounted⟩ := h
  have hlength : (handed ++ [bytes]).length = handed.length + 1 := List.length_append
  unfold Tracking.onDatagram
  cases hdecode : decodeDeal bytes with
  | none =>
    have hdeals : deals (handed ++ [bytes]) = deals handed := by simp [deals, hdecode]
    refine ⟨?_, hdeals ▸ hreported, hfiled, hdeals ▸ hnamed, hdeals ▸ haccounted⟩
    rw [hlength, ← hcounted]
    rfl
  | some deal =>
    have hdeals : deals (handed ++ [bytes]) = deals handed ++ [deal] := by simp [deals, hdecode]
    have hreports : (deals (handed ++ [bytes])).length = (deals handed).length + 1 := by
      rw [hdeals, List.length_append]
      rfl
    have hyields (dateIso : String) :=
      Program.yields_playFrom peer (report config dateIso deal) c.trace
    cases fate with
    | completes dateIso =>
      refine ⟨?_, ?_, ?_, ?_, ?_⟩
      · simp only [onDeal]
        omega
      · simp only [onDeal]
        omega
      · simp only [onDeal, List.length_append, List.length_singleton]
        omega
      · obtain ⟨record, hdocument⟩ := report_document config (hyields dateIso)
        simp only [onDeal, hdeals, List.map_append, List.map_singleton]
        rw [hdocument, find_dealReference]
        exact hnamed.append (List.Sublist.refl _)
      · rw [hdeals]
        exact haccounted.append (report_yields config (hyields dateIso))
    | throws exchanges =>
      refine ⟨?_, ?_, ?_, ?_, ?_⟩
      · simp only [onDeal]
        omega
      · simp only [onDeal]
        omega
      · simp only [onDeal]
        omega
      · rw [hdeals, List.map_append]
        exact hnamed.trans (List.sublist_append_left _ _)
      · rw [hdeals]
        exact haccounted.append ((report_yields config (hyields "")).take exchanges)

theorem tracked_handled (events : List (Event Fate)) :
    Tracked (datagrams events) (handled (onDatagram config peer) {} events) := by
  induction events using List.reverseRecOn with
  | nil => exact ⟨rfl, rfl, rfl, List.Sublist.refl _, fun _ _ _ h =>
      absurd (List.append_eq_nil_iff.mp h.symm).2 (List.cons_ne_nil _ _)⟩
  | append_singleton events event ih =>
    rw [handled_append]
    cases event with
    | datagram bytes fate =>
      have hhanded : datagrams (events ++ [.datagram bytes fate]) =
          datagrams events ++ [bytes.take kBufferSize] := by simp [datagrams]
      rw [hhanded]
      exact ih.onDatagram _ fate
    | failed | aborted | shutdown =>
      have hhanded (event : Event Fate) (hevent : ∀ bytes fate, event ≠ .datagram bytes fate) :
          datagrams (events ++ [event]) = datagrams events := by
        cases event with
        | datagram bytes fate => exact absurd rfl (hevent bytes fate)
        | failed | aborted | shutdown => simp [datagrams]
      rw [hhanded _ (fun _ _ h => by cases h)]
      exact ih

/-- What is archived of one deal leaves another deal where it is. -/
theorem Archives.spares {dealReference : String} {command : Command}
    (h : Archives deal before command)
    (hopen : deal.status = "DELETED" → deal.dealReference ≠ dealReference) :
    Spares dealReference before command := by
  cases command with
  | getHistory dealId => trivial
  | store c =>
    cases c with
    | getPosition dealId | getList strategyId => trivial
    | getDelete dealId =>
      obtain ⟨hdeleted, rfl⟩ := h
      exact hopen hdeleted
    | setHistory dealId payload =>
      obtain ⟨hdeleted, rfl, -⟩ := h
      exact hopen hdeleted
    | setList strategyId dealIds =>
      obtain ⟨hdeleted, -, listed, hread, rfl⟩ := h
      refine ⟨listed, hread, List.filter_sublist, fun hmem => ?_⟩
      rw [List.mem_filter]
      exact ⟨hmem, decide_eq_true (hopen hdeleted).symm⟩
    | deleteList | scanLists | getMultiple | setPosition | getReceipt | setReceipt | fetchPositions
    | readClock => exact h

end Runs

section Sample

/-- A store that holds nothing. -/
def emptyPeer : Program.Peer Command Command.Answer := fun _ c =>
  match c with
  | .getHistory _ => some none
  | .store c => PositionStore.empty.answer 0 [] .answered c

def sampleEvents : List (Event Fate) := [
  .datagram [1, 2, 3] (.completes ""),
  .datagram (List.replicate 256 0) (.completes ""),
  .failed,
  .datagram (List.replicate 256 0) (.throws 1),
  .shutdown]

def sampleConfig : Config := ⟨"demo", fun _ => "", fun _ => 0⟩

end Sample

end Tracking

end BacktestEngine

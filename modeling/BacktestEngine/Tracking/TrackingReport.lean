import BacktestEngine.Library.Binary64Arithmetic
import BacktestEngine.Models.Json
import BacktestEngine.Models.MarketDefinitions
import BacktestEngine.Positions.Store
import BacktestEngine.Tracking.DealPacket

/-! # The report of a deal

For each update the position is looked up in the history and then in the live book, the pips of a
closed deal are computed, a closed deal is archived, and a document is written.
-/

namespace BacktestEngine

namespace Tracking

open DealPacket (Deal)
open Lease (Reply)
open Positions (Payload PositionRecord PositionStore decodePositionRecord)

/-- The store commands, and the read of the history. -/
inductive Command
  | getHistory (dealId : String)
  | store (c : Positions.Command Binary64)

abbrev Command.Answer : Command → Type
  | .getHistory _ => Option (Option (Payload Binary64))
  | .store c => c.Answer

abbrev TrackProgram (α : Type) := Program Command Command.Answer α

def getHistoryPositionPayload (dealId : String) :
    TrackProgram (Option (Option (Payload Binary64))) :=
  .call (.getHistory dealId) .done

/-- A program of the position store, issued by the tracking command. -/
def lift {α : Type} : Positions.StoreProgram Binary64 α → TrackProgram α
  | .done a => .done a
  | .call c k => .call (.store c) fun r => lift (k r)

def getPositionPayload (dealId : String) : TrackProgram (Option (Option (Payload Binary64))) :=
  lift (Positions.getPositionPayload dealId)

def removePosition (strategyId dealId : String) : TrackProgram Bool :=
  lift (Positions.removePosition strategyId dealId)

/-! ## The position -/

/-- A read that failed or missed, and a record that cannot be decoded, tell nothing. -/
def recordOf (answer : Option (Option (Payload Binary64))) : Option (PositionRecord Binary64) :=
  answer.join.bind decodePositionRecord

/-- History first, and then the live book. -/
def lookupPosition (dealReference : String) : TrackProgram (Option (PositionRecord Binary64)) := do
  match recordOf (← getHistoryPositionPayload dealReference) with
  | some record => return some record
  | none => return recordOf (← getPositionPayload dealReference)

/-! ## The pips -/

section Pips

-- what `llround` gives for what is no number of its range
variable (beyond : Binary64 → ℤ)

def llround (x : Binary64) : ℤ :=
  match x with
  | .finite q =>
    let n := Binary64.lround q
    if n < -2 ^ 63 ∨ 2 ^ 63 - 1 < n then beyond x else n
  | .infinite _ | .nan => beyond x

/-- The pips of a close, signed by the side of the position. -/
def computeClosePips (closeLevel : Binary64) (openLevelPoints : ℤ) (direction : String)
    (size : Binary64) (priceScale pointsPerPip : ℤ) : Option Binary64 :=
  if priceScale ≤ 0 ∨ pointsPerPip ≤ 0 then none
  else
    let closePoints := Binary64.ofInt (llround beyond (closeLevel.mul (.ofInt priceScale)))
    let dirSign : Binary64 := .finite (if direction = "BUY" then 1 else -1)
    some ((((closePoints.sub (.ofInt openLevelPoints)).divBy pointsPerPip).mul dirSign).mul size)

end Pips

/-! ## The document -/

/-- A number as it is dumped: what is no finite number becomes null. -/
def numberJson : Binary64 → JsonValue
  | .finite q => .float q
  | .infinite _ | .nan => .null

def numberOrNull : Option Binary64 → JsonValue
  | some x => numberJson x
  | none => .null

/-- The update as it came. -/
def serializeDeal (deal : Deal) : JsonValue := .object [
  ("level", numberOrNull deal.level),
  ("size", numberOrNull deal.size),
  ("stopLevel", numberOrNull deal.stopLevel),
  ("limitLevel", numberOrNull deal.limitLevel),
  ("dealReference", .string deal.dealReference),
  ("dealId", .string deal.dealId),
  ("dealIdOrigin", .string deal.dealIdOrigin),
  ("epic", .string deal.epic),
  ("direction", .string deal.direction),
  ("status", .string deal.status),
  ("dealStatus", .string deal.dealStatus),
  ("currency", .string deal.currency),
  ("channel", .string deal.channel),
  ("expiry", .string deal.expiry),
  ("timestamp", .string deal.timestamp),
  ("guaranteedStop", .string deal.guaranteedStop)]

/-- What the command is started with: its environment, and the JSON library's text of a value, with
what cannot be spelled replaced. -/
structure Config where
  env : String
  dumpSafe : JsonValue → String
  beyond : Binary64 → ℤ

variable (config : Config)

/-- A level that is present and not zero. -/
def realLevel (deal : Deal) : Option Binary64 := deal.level.filter (· ≠ .finite 0)

def buildLiveTradeDocument (deal : Deal) (position : Option (PositionRecord Binary64))
    (fallbackSymbol dateIso : String) (pips : Option Binary64) : JsonValue :=
  .object <|
    [("date", .string dateIso),
      ("env", .string config.env),
      ("symbol", .string (match position with
        | some record => if record.symbol = "" then fallbackSymbol else record.symbol
        | none => fallbackSymbol)),
      ("action", .string deal.status),
      ("strategy", .string (match position with
        | some record => if record.strategyId = "" then "Unknown" else record.strategyId
        | none => "Unknown")),
      ("dealReference", .string deal.dealReference),
      ("json", .string (config.dumpSafe (serializeDeal deal)))] ++
    (if deal.dealId = "" then [] else [("dealId", .string deal.dealId)]) ++
    ((realLevel deal).map fun level => ("level", numberJson level)).toList ++
    (pips.map fun pips => ("pips", numberJson pips)).toList

/-! ## The report -/

/-- The epic's symbol, or the epic. -/
def fallbackSymbol (deal : Deal) : String :=
  match MarketDefinition.findMarketByEpicMini deal.epic with
  | some market => market.symbol
  | none => deal.epic

/-- Pips are for a closed deal whose position is known, at a real level. -/
def reportedPips (deal : Deal) (record : Option (PositionRecord Binary64)) : Option Binary64 := do
  let record ← record
  let level ← realLevel deal
  guard (deal.status = "DELETED")
  let symbol := if record.symbol = "" then fallbackSymbol deal else record.symbol
  computeClosePips config.beyond level record.level record.direction record.size
    (SymbolScale.getPriceScale symbol) (SymbolScale.get symbol)

/-- The strategy whose book a closed deal is archived from. -/
def archivedFrom (deal : Deal) (record : Option (PositionRecord Binary64)) : Option String := do
  let record ← record
  guard (deal.status = "DELETED" ∧ record.strategyId ≠ "")
  return record.strategyId

def report (dateIso : String) (deal : Deal) : TrackProgram JsonValue := do
  let record ← lookupPosition deal.dealReference
  match archivedFrom deal record with
  | some strategyId => let _ ← removePosition strategyId deal.dealReference
  | none => pure ()
  return buildLiveTradeDocument config deal record (fallbackSymbol deal) dateIso
    (reportedPips config deal record)

/-! ## What a report issues -/

abbrev Trace := List (Program.Exchange Command Command.Answer)

/-- The position was read, under the reference, before. -/
def Known (dealReference : String) (trace : Trace) (record : PositionRecord Binary64) : Prop :=
  ∃ payload, decodePositionRecord payload = some record ∧
    (⟨.getHistory dealReference, some (some payload)⟩ ∈ trace ∨
      ⟨.store (.getPosition dealReference), some (some payload)⟩ ∈ trace)

/-- After what was exchanged, a report reads, or archives a closed deal: it takes the live record,
keeps as history what it took, and strikes the reference from the list that it has read of the
strategy of the position. -/
def Archives (deal : Deal) (trace : Trace) : Command → Prop
  | .getHistory _ | .store (.getPosition _) | .store (.getList _) => True
  | .store (.getDelete dealId) => deal.status = "DELETED" ∧ dealId = deal.dealReference
  | .store (.setHistory dealId payload) =>
    deal.status = "DELETED" ∧ dealId = deal.dealReference ∧
      ⟨.store (.getDelete dealId), some (some payload)⟩ ∈ trace
  | .store (.setList strategyId dealIds) =>
    deal.status = "DELETED" ∧
      (∃ record, Known deal.dealReference trace record ∧ record.strategyId = strategyId) ∧
        ∃ listed, ⟨.store (.getList strategyId), some (some (.value listed))⟩ ∈ trace ∧
          dealIds = listed.filter (· ≠ deal.dealReference)
  | .store _ => False

/-- Every exchange of a trace is one of a report, after those before it. -/
def Justified (deal : Deal) : Trace → Trace → Prop
  | _, [] => True
  | before, e :: rest => Archives deal before e.command ∧ Justified deal (before ++ [e]) rest

section Justified

variable {deal : Deal} {before trace rest : Trace}

theorem justified_append : Justified deal before (trace ++ rest) ↔
    Justified deal before trace ∧ Justified deal (before ++ trace) rest := by
  induction trace generalizing before with
  | nil => simp [Justified]
  | cons e trace ih => simp [Justified, ih, and_assoc]

theorem Justified.take (h : Justified deal before trace) (n : ℕ) :
    Justified deal before (trace.take n) := by
  rw [← List.take_append_drop n trace, justified_append] at h
  exact h.1

/-- What a lookup tells was read before. -/
theorem lookupPosition_yields {dealReference : String} {record : Option (PositionRecord Binary64)}
    (h : (lookupPosition dealReference).Yields trace record) :
    (∀ before, Justified deal before trace) ∧ ∀ r ∈ record, Known dealReference trace r := by
  have hrecord {answer : Option (Option (Payload Binary64))} {r : PositionRecord Binary64}
      (hr : recordOf answer = some r) :
      ∃ payload, answer = some (some payload) ∧ decodePositionRecord payload = some r := by
    obtain ⟨payload, hjoin, hdecode⟩ := Option.bind_eq_some_iff.mp hr
    exact ⟨payload, Option.join_eq_some_iff.mp hjoin, hdecode⟩
  simp only [lookupPosition, getHistoryPositionPayload, Program.call_bind, Program.done_bind,
    Program.yields_call] at h
  obtain ⟨answer, rest, rfl, hrest⟩ := h
  cases hhistory : recordOf answer with
  | some r =>
    simp only [hhistory, Program.pure_eq, Program.yields_done] at hrest
    obtain ⟨rfl, rfl⟩ := hrest
    refine ⟨fun before => ⟨trivial, trivial⟩, ?_⟩
    rintro _ ⟨⟩
    obtain ⟨payload, rfl, hdecode⟩ := hrecord hhistory
    exact ⟨payload, hdecode, .inl List.mem_cons_self⟩
  | none =>
    simp only [hhistory, getPositionPayload, Positions.getPositionPayload, Positions.command, lift,
      Program.call_bind, Program.done_bind, Program.pure_eq, Program.yields_call,
      Program.yields_done] at hrest
    obtain ⟨answer', rest, rfl, rfl, rfl⟩ := hrest
    refine ⟨fun before => ⟨trivial, trivial, trivial⟩, fun r hr => ?_⟩
    obtain ⟨payload, rfl, hdecode⟩ := hrecord hr
    exact ⟨payload, hdecode, .inr (by simp)⟩

theorem Known.mono {record : PositionRecord Binary64} {dealReference : String}
    (h : Known dealReference before record) (hsub : before ⊆ trace) :
    Known dealReference trace record := by
  obtain ⟨payload, hdecode, hread⟩ := h
  exact ⟨payload, hdecode, hread.imp (@hsub _) (@hsub _)⟩

theorem Known.concat {record : PositionRecord Binary64} {dealReference : String}
    (h : Known dealReference before record) (e : Program.Exchange Command Command.Answer) :
    Known dealReference (before ++ [e]) record :=
  h.mono (List.subset_append_left _ _)

theorem archivedFrom_eq_some {record : Option (PositionRecord Binary64)} {strategyId : String} :
    archivedFrom deal record = some strategyId ↔ deal.status = "DELETED" ∧
      ∃ r, record = some r ∧ r.strategyId = strategyId ∧ strategyId ≠ "" := by
  simp only [archivedFrom, Option.bind_eq_bind, Option.bind_eq_some_iff, Option.guard_eq_some',
    Option.pure_def, Option.some.injEq]
  constructor
  · rintro ⟨r, rfl, -, ⟨hdeleted, hne⟩, rfl⟩
    exact ⟨hdeleted, r, rfl, rfl, hne⟩
  · rintro ⟨hdeleted, r, rfl, rfl, hne⟩
    exact ⟨r, rfl, (), ⟨hdeleted, hne⟩, rfl⟩

/-- The list is written without the deal, after it was read. -/
theorem strikeDeal_yields {record : PositionRecord Binary64} {result : Bool}
    (hdeleted : deal.status = "DELETED") (hknown : Known deal.dealReference before record)
    (h : (lift (Positions.strikeDeal record.strategyId deal.dealReference)).Yields trace result) :
    Justified deal before trace := by
  simp only [Positions.strikeDeal, Positions.fetchList, Positions.command, Program.call_bind,
    Program.done_bind, Program.pure_eq, lift, Program.yields_call] at h
  obtain ⟨answer, rest, rfl, hrest⟩ := h
  refine ⟨trivial, ?_⟩
  cases hstate : Positions.ListState.ofAnswer answer with
  | missing | failed =>
    simp only [hstate, lift, Program.yields_done] at hrest
    rw [hrest.1]
    trivial
  | ok dealIds =>
    simp only [hstate, lift, Program.yields_call, Program.yields_done] at hrest
    obtain ⟨written, rest, rfl, rfl, -⟩ := hrest
    have hanswer : answer = some (some (.value dealIds)) := by
      revert hstate
      rcases answer with _ | _ | _ | _ <;> simp [Positions.ListState.ofAnswer]
    refine ⟨⟨hdeleted, ⟨record, hknown.concat _, rfl⟩, dealIds, ?_, rfl⟩, trivial⟩
    rw [hanswer]
    exact List.mem_append_right _ List.mem_cons_self

/-- The exchanges of an archive of a closed deal whose position was read. -/
theorem removePosition_yields {record : PositionRecord Binary64} {result : Bool}
    (hdeleted : deal.status = "DELETED") (hknown : Known deal.dealReference before record)
    (h : (removePosition record.strategyId deal.dealReference).Yields trace result) :
    Justified deal before trace := by
  obtain ⟨answer, rest, rfl, hrest⟩ := h
  refine ⟨⟨hdeleted, rfl⟩, ?_⟩
  rcases answer with _ | _ | payload
  · obtain ⟨rfl, -⟩ := hrest
    trivial
  · exact strikeDeal_yields hdeleted (hknown.concat _) hrest
  · obtain ⟨written, rest, rfl, hrest⟩ := hrest
    refine ⟨⟨hdeleted, rfl, List.mem_append_right _ List.mem_cons_self⟩, ?_⟩
    exact strikeDeal_yields hdeleted ((hknown.concat _).concat _) hrest

/-- Whatever the store answers, a report archives only a closed deal whose position it has read. -/
theorem report_yields {dateIso : String} {document : JsonValue}
    (h : (report config dateIso deal).Yields trace document) : Justified deal before trace := by
  obtain ⟨record, first, rest, rfl, hlookup, hrest⟩ := Program.yields_bind.mp h
  obtain ⟨hfirst, hknown⟩ := lookupPosition_yields hlookup
  rw [justified_append]
  refine ⟨hfirst before, ?_⟩
  cases harchived : archivedFrom deal record with
  | none =>
    simp only [harchived, Program.pure_eq, Program.yields_done] at hrest
    rw [hrest.1]
    trivial
  | some strategyId =>
    simp only [harchived] at hrest
    obtain ⟨result, removal, later, rfl, hremoval, hlater⟩ := Program.yields_bind.mp hrest
    obtain ⟨rfl, -⟩ := hlater
    obtain ⟨hdeleted, r, rfl, rfl, -⟩ := archivedFrom_eq_some.mp harchived
    rw [List.append_nil]
    exact removePosition_yields hdeleted ((hknown r rfl).mono (List.subset_append_right _ _))
      hremoval

/-- What a report makes of the position that it found. -/
theorem report_document {dateIso : String} {document : JsonValue}
    (h : (report config dateIso deal).Yields trace document) :
    ∃ record, document = buildLiveTradeDocument config deal record (fallbackSymbol deal) dateIso
      (reportedPips config deal record) := by
  obtain ⟨record, first, rest, rfl, -, hrest⟩ := Program.yields_bind.mp h
  refine ⟨record, ?_⟩
  cases harchived : archivedFrom deal record with
  | none =>
    simp only [harchived, Program.pure_eq, Program.yields_done] at hrest
    exact hrest.2
  | some strategyId =>
    simp only [harchived] at hrest
    obtain ⟨result, removal, later, rfl, -, hlater⟩ := Program.yields_bind.mp hrest
    exact hlater.2

/-- A document names its deal. -/
theorem find_dealReference {dateIso symbol : String} {record : Option (PositionRecord Binary64)}
    {pips : Option Binary64} :
    (buildLiveTradeDocument config deal record symbol dateIso pips).find "dealReference" =
      some (.string deal.dealReference) := by
  simp [buildLiveTradeDocument, JsonValue.find, List.lookup_cons]

end Justified

end Tracking

end BacktestEngine

import BacktestEngine.Live.BrokerRequests
import BacktestEngine.Models.Decimal

/-! # Publishing documents in bulk

Documents go out in chunks. A chunk is posted again while its failure is transient, with
the documents that were turned away for the moment; what cannot be delivered is written to
the dead letters.
-/

namespace BacktestEngine

namespace Elastic

open Live (Json JsonText)

structure BulkDoc where
  id : String
  body : String
  deriving DecidableEq

/-- A document and where it stands in the list that is published. -/
abbrev DocRef := BulkDoc × ℕ

/-- What the network does with one request. -/
inductive Wire
  | noHandle
  | transportError (httpStatus : ℤ) (response : String)
  | answered (httpStatus : ℤ) (response : String)

structure PutAttempt where
  code : ℤ
  httpStatus : ℤ
  deriving DecidableEq

structure Settings where
  enabled : Bool := true
  host : String := "http://localhost:9200"
  user : String := ""
  password : String := ""

/-- One request to a `_bulk` endpoint. -/
structure BulkRequest where
  url : String
  user : String
  password : String
  body : String
  contentType : String := "application/x-ndjson"

/-- What came of an attempt, and the body that was captured. -/
def attemptRequest : Wire → PutAttempt × String
  | .noHandle => (⟨1, 0⟩, "")
  | .transportError httpStatus response => (⟨2, httpStatus⟩, response)
  | .answered httpStatus response =>
    if httpStatus < 200 ∨ httpStatus ≥ 300 then (⟨3, httpStatus⟩, response)
    else (⟨0, httpStatus⟩, response)

def kMaxRetryAttempts : ℕ := 3

def isTransientFailure (attempt : PutAttempt) : Bool :=
  attempt.code = 2 ||
    (attempt.code = 3 && (attempt.httpStatus = 429 || decide (attempt.httpStatus ≥ 500)))

section

variable (D : Type) [JsonText D]

def buildBulkBody (docs : List DocRef) : String :=
  docs.foldl (fun text doc =>
    text ++ JsonText.dump (D := D) (.object [("index", .object [("_id", .string doc.1.id)])]) ++
      "\n" ++ doc.1.body ++ "\n") ""

end

section

variable {D : Type} [Decimal D]

/-- The flag of a response, or none when reading it throws. -/
def errorsFlag : Json D → Option Bool
  | .object fields =>
    match fields.lookup "errors" with
    | none => some false
    | some (.bool errors) => some errors
    | some _ => none
  | _ => none

/-- A number as a C integer, or none when reading it throws. -/
def intValue : Json D → Option ℤ
  | .integer n => some (n.bmod (2 ^ 32))
  | .bool b => some b.toInt
  | .float x => some ((Decimal.toInt64 x).bmod (2 ^ 32))
  | _ => none

/-- The item at a place: none inside when there is none, none outside when looking throws. -/
def itemAt : Json D → ℕ → Option (Option (Json D))
  | .array items, k => some items[k]?
  | .null, _ => some none
  | .object fields, k => if k < fields.length then none else some none
  | _, k => if k < 1 then none else some none

def actionStatus : Json D → Option ℤ
  | .object action =>
    match action.lookup "status" with
    | none => some 0
    | some status => intValue status
  | _ => some 0

/-- The status an item reports, 0 when it reports none; none when reading it throws. -/
def itemStatus : Option (Json D) → Option ℤ
  | some (.object fields) =>
    match fields.lookup "index" with
    | some action => actionStatus action
    | none => actionStatus (.object fields)
  | _ => some 0

/-- What the items of a response mean for the documents of a chunk. -/
structure Inspection where
  retry : List DocRef
  rejected : List DocRef
  threw : Bool

/-- Go over the documents and the items from a place on. -/
def inspectItems (items : Json D) : ℕ → List DocRef → Inspection
  | _, [] => ⟨[], [], false⟩
  | k, doc :: docs =>
    match (itemAt items k).bind itemStatus with
    | none => ⟨[], [], true⟩
    | some status =>
      let rest := inspectItems items (k + 1) docs
      if status ≥ 200 ∧ status < 300 then rest
      else if status = 429 ∨ status ≥ 500 then { rest with retry := doc :: rest.retry }
      else { rest with rejected := doc :: rest.rejected }

/-- What a 2xx response means: that all was accepted, or that its reading threw, or its items. -/
def inspectResponse (response : Option (Json D)) (pending : List DocRef) : Option Inspection :=
  match response.bind fun json => (errorsFlag json).map fun errors => (json, errors) with
  | none => none
  | some (_, false) => none
  | some (.object fields, true) => (fields.lookup "items").map fun items => inspectItems items 0 pending
  | some (_, true) => none

end

/-- One attempt at a chunk. -/
structure Sent where
  docs : List DocRef
  request : BulkRequest
  wire : Wire

/-- A dead letter: the index, and the document. -/
structure DeadLetter where
  index : String
  doc : DocRef

/-- What became of a chunk. -/
structure ChunkLog where
  docs : List DocRef
  attempts : List Sent
  deadLetters : List DeadLetter
  code : ℤ

section

variable (D : Type) [JsonText D] [Decimal D] (settings : Settings) (index : String) (wire : ℕ → Wire)

def bulkUrl : String := settings.host ++ "/" ++ index ++ "/_bulk"

def bulkRequest (pending : List DocRef) : BulkRequest where
  url := bulkUrl settings index
  user := settings.user
  password := settings.password
  body := buildBulkBody D pending

def resultCode (anyDeadLettered : Bool) : ℤ := if anyDeadLettered then 3 else 0

/-- Give up on what is pending. -/
def giveUp (attempt : PutAttempt) (pending : List DocRef) : List DeadLetter × ℤ :=
  (pending.map (⟨index, ·⟩), if attempt.code ≠ 0 then attempt.code else 3)

/-- The attempts that are left for a chunk, the next one being answered at the given place of the
wire: what is sent, the dead letters and the return code. -/
def postAttempts : ℕ → ℕ → Bool → List DocRef → List Sent × List DeadLetter × ℤ
  | 0, _, anyDeadLettered, _ => ([], [], resultCode anyDeadLettered)
  | left + 1, place, anyDeadLettered, pending =>
    let sent : Sent := ⟨pending, bulkRequest D settings index pending, wire place⟩
    let (attempt, response) := attemptRequest (wire place)
    if attempt.code = 0 then
      match inspectResponse (D := D) (JsonText.parse response) pending with
      -- accepted as a whole, or a body that defied inspection
      | none => ([sent], [], resultCode anyDeadLettered)
      | some items =>
        let letters := items.rejected.map (⟨index, ·⟩)
        let anyDeadLettered := anyDeadLettered || !items.rejected.isEmpty
        if items.threw then ([sent], letters, resultCode anyDeadLettered)
        else if items.retry = [] then ([sent], letters, resultCode anyDeadLettered)
        else if left = 0 then
          let (given, code) := giveUp index attempt items.retry
          ([sent], letters ++ given, code)
        else
          let (later, laterLetters, code) :=
            postAttempts left (place + 1) anyDeadLettered items.retry
          (sent :: later, letters ++ laterLetters, code)
    else if !isTransientFailure attempt || decide (left = 0) then
      let (given, code) := giveUp index attempt pending
      ([sent], given, code)
    else
      let (later, laterLetters, code) := postAttempts left (place + 1) anyDeadLettered pending
      (sent :: later, laterLetters, code)

def postBulkChunk (place : ℕ) (pending : List DocRef) : ChunkLog :=
  let (attempts, deadLetters, code) :=
    postAttempts D settings index wire kMaxRetryAttempts place false pending
  ⟨pending, attempts, deadLetters, code⟩

def kMaxBulkDocs : ℕ := 1000

def kMaxBulkBytes : ℕ := 4 * 1024 * 1024

/-- The chunk that is filled, what became of those before it, and the worst of their codes. -/
structure Batching where
  chunk : List DocRef
  chunkBytes : ℕ
  worst : ℤ
  logs : List ChunkLog

def exchanged (logs : List ChunkLog) : ℕ := (logs.map fun log => log.attempts.length).sum

def flush (state : Batching) : Batching :=
  if state.chunk = [] then state
  else
    let log := postBulkChunk D settings index wire (exchanged state.logs) state.chunk
    ⟨[], 0, if log.code ≠ 0 then log.code else state.worst, state.logs ++ [log]⟩

def addDoc (state : Batching) (doc : DocRef) : Batching :=
  let state := { state with
    chunk := state.chunk ++ [doc]
    chunkBytes := state.chunkBytes + (doc.1.id.utf8ByteSize + doc.1.body.utf8ByteSize + 32) }
  if state.chunk.length ≥ kMaxBulkDocs ∨ state.chunkBytes ≥ kMaxBulkBytes then
    flush D settings index wire state
  else state

def bulkIndexDocuments (docs : List BulkDoc) : ℤ × List ChunkLog :=
  if docs = [] then (0, [])
  else if !settings.enabled then (0, [])
  else
    let state := docs.zipIdx.foldl (addDoc D settings index wire) ⟨[], 0, 0, []⟩
    let state := flush D settings index wire state
    (state.worst, state.logs)

end

end Elastic

end BacktestEngine

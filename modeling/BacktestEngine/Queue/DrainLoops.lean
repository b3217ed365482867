import BacktestEngine.Queue.WorkQueue

/-! # The drain loops

Backtests and experiments are drained by the same loop over different keys. The
first name of a run is popped before its ticks are loaded, and the load may throw;
any exception that leaves the loop is reported once and ends the worker. Every
store command is one step, and what a load or a pooled task throws is up to the run.
-/

namespace BacktestEngine

namespace QueueKeys

def experimentRun : String := "BACKTESTING_QUEUE_EXPERIMENT_RUN"

def experimentPrefix : String := "BACKTESTING_QUEUE_EXPERIMENT:"

def experimentKey (runId : String) : String := experimentPrefix ++ runId

end QueueKeys

open QueueKeys

/-- An exception as the handlers of a loop tell it apart. -/
inductive Thrown
  | standard (what : String)
  | unknown
  deriving DecidableEq, Repr

def Thrown.message : Thrown → String
  | .standard what => what
  | .unknown => "unknown error"

/-- A document for the engine's exceptions; its time stamp is left out. -/
structure EngineException where
  source : String
  message : String
  runId : String
  deriving DecidableEq, Repr

/-- The strategy or experiment of a payload key: what follows its last colon. -/
def payloadUuid (payloadKey : String) : List Char :=
  (payloadKey.toList.reverse.takeWhile (· ≠ ':')).reverse

/-- The text of a document has the strategy, the experiment or the payload key in it. -/
def EngineException.Names (doc : EngineException) (payloadKey : String) : Prop :=
  payloadUuid payloadKey <:+: doc.message.toList

instance (doc : EngineException) (payloadKey : String) : Decidable (doc.Names payloadKey) :=
  inferInstanceAs (Decidable (_ <:+: _))

/-- The parsers of the queued texts, with what they throw, and the documents the JSON dump takes:
one whose text is not well-formed is logged and not recorded. -/
structure QueueJson where
  parseRunConfiguration : String → Except String String
  parseStrategy : String → Except String Unit
  parseExperimentRun : String → Except String String
  parseExperiment : String → Except String Unit
  dumps : EngineException → Bool

/-- What the two loops differ in. A run descriptor parses to its run id. -/
structure Drain where
  source : String
  queues : List String
  listKey : String → String
  retired : String
  skipped : String
  parseRun : String → Except String String
  parsePayload : String → Except String Unit
  stoppable : Bool

def drainRuns (json : QueueJson) : Drain where
  source := "drainRuns"
  queues := runQueues
  listKey := strategyKey
  retired := "unparseable run descriptor retired: "
  skipped := "unparseable strategy payload skipped: "
  parseRun := json.parseRunConfiguration
  parsePayload := json.parseStrategy
  stoppable := true

def drainExperiments (json : QueueJson) : Drain where
  source := "drainExperiments"
  queues := [experimentRun]
  listKey := experimentKey
  retired := "unparseable experiment run descriptor retired: "
  skipped := "unparseable experiment payload skipped: "
  parseRun := json.parseExperimentRun
  parsePayload := json.parseExperiment
  stoppable := false

inductive DrainKind
  | runs
  | experiments
  deriving DecidableEq, Repr

def DrainKind.drain (json : QueueJson) : DrainKind → Drain
  | .runs => drainRuns json
  | .experiments => drainExperiments json

namespace Drain

/-- A run descriptor that does not parse. -/
def retiredDoc (drain : Drain) (what : String) : EngineException :=
  ⟨drain.source, drain.retired ++ what, ""⟩

/-- A payload that does not parse. -/
def skippedDoc (drain : Drain) (runId what : String) : EngineException :=
  ⟨drain.source, drain.skipped ++ what, runId⟩

/-- An exception that left the loop. -/
def abortedDoc (drain : Drain) (thrown : Thrown) : EngineException :=
  ⟨drain.source, thrown.message, ""⟩

end Drain

/-- Where a worker is between two of its steps. -/
inductive DrainPhase
  | top
  | looking (queues : List String)
  | peeked (queueKey descriptor : String)
  | claiming (queueKey descriptor runId : String)
  | loading (queueKey descriptor runId payloadKey : String)
  | claimed (queueKey descriptor runId payloadKey : String)
  | holding (queueKey descriptor runId payloadKey payload : String)
  | resumed (queueKey descriptor runId : String)
  | popping (queueKey descriptor runId : String)
  | retiring (queueKey descriptor : String)
  | stopping
  | parked
  | aborted
  deriving DecidableEq, Repr

/-- The name that was popped and not let go of. -/
def DrainPhase.held : DrainPhase → Option String
  | .loading _ _ _ payloadKey | .claimed _ _ _ payloadKey | .holding _ _ _ payloadKey _ =>
    some payloadKey
  | _ => none

/-- The name whose payload is still to be taken. -/
def DrainPhase.untaken : DrainPhase → Option String
  | .loading _ _ _ payloadKey | .claimed _ _ _ payloadKey => some payloadKey
  | _ => none

/-- A name that a worker popped. -/
structure Claim where
  worker : ℕ
  key : String
  deriving DecidableEq, Repr

/-- A document that was queued, with the name in the hands of the worker that queued it. -/
structure Report where
  worker : ℕ
  about : Option String
  doc : EngineException
  deriving DecidableEq, Repr

structure DrainState where
  redis : RedisStore
  pushed : List String
  worker : ℕ → DrainPhase
  popped : List Claim
  submitted : List Taken
  documents : List Report

inductive DrainAction
  | set (key value : String)
  | push (kind : DrainKind) (runId name : String)
  | advertise (kind : DrainKind) (queueKey descriptor : String)
  | work (worker : ℕ)
  | load (worker : ℕ) (thrown : Option Thrown)
  | taskFailed (worker : ℕ) (thrown : Thrown)
  | stop (worker : ℕ)
  deriving DecidableEq, Repr

namespace DrainState

def start : DrainState := ⟨.empty, [], fun _ => .top, [], [], []⟩

def moveTo (s : DrainState) (w : ℕ) (phase : DrainPhase) : DrainState :=
  { s with worker := Function.update s.worker w phase }

variable (json : QueueJson) (kind : ℕ → DrainKind)

/-- The loop that a worker runs. -/
def drainOf (w : ℕ) : Drain := (kind w).drain json

def putEngineException (s : DrainState) (w : ℕ) (about : Option String) (doc : EngineException) :
    DrainState :=
  if json.dumps doc then { s with documents := ⟨w, about, doc⟩ :: s.documents } else s

/-- The handlers around the loop. -/
def abort (s : DrainState) (w : ℕ) (about : Option String) (thrown : Thrown) : DrainState :=
  (s.putEngineException json w about ((drainOf json kind w).abortedDoc thrown)).moveTo w .aborted

/-- Producers store a payload before they push its name, and push a name once. -/
def push (s : DrainState) (kind : DrainKind) (runId name : String) : Option DrainState :=
  if name ∈ s.pushed ∨ s.redis.strings name = none then none
  else some { s with
    pushed := name :: s.pushed
    redis := s.redis.listPushFront ((kind.drain json).listKey runId) name }

def advertise (s : DrainState) (kind : DrainKind) (queueKey descriptor : String) :
    Option DrainState :=
  if queueKey ∈ (kind.drain json).queues then
    some { s with redis := s.redis.listPushFront queueKey descriptor }
  else none

/-- The next step of a worker where neither the load nor a failed task has a say. -/
def work (s : DrainState) (w : ℕ) : Option DrainState :=
  let drain := drainOf json kind w
  match s.worker w with
  | .top => some (s.moveTo w (.looking drain.queues))
  | .looking [] => some (s.moveTo w .top)
  | .looking (queue :: queues) =>
    match s.redis.listTail queue with
    | none => some (s.moveTo w (.looking queues))
    | some descriptor => some (s.moveTo w (.peeked queue descriptor))
  | .peeked queue descriptor =>
    match drain.parseRun descriptor with
    | .error what =>
      some ((s.putEngineException json w none (drain.retiredDoc what)).moveTo w
        (.retiring queue descriptor))
    | .ok runId => some (s.moveTo w (.claiming queue descriptor runId))
  | .claiming queue descriptor runId =>
    match s.redis.listPopBack (drain.listKey runId) with
    | (none, _) => some (s.moveTo w (.retiring queue descriptor))
    | (some payloadKey, redis) =>
      some ({ s with redis := redis, popped := ⟨w, payloadKey⟩ :: s.popped }.moveTo w
        (.loading queue descriptor runId payloadKey))
  | .loading _ _ _ _ => none
  | .claimed queue descriptor runId payloadKey =>
    match s.redis.getDelete payloadKey with
    | (none, _) => some (s.moveTo w (.resumed queue descriptor runId))
    | (some payload, redis) =>
      some ({ s with redis := redis }.moveTo w (.holding queue descriptor runId payloadKey payload))
  | .holding queue descriptor runId payloadKey payload =>
    match drain.parsePayload payload with
    | .ok () =>
      some ({ s with submitted := ⟨w, payloadKey, payload⟩ :: s.submitted }.moveTo w
        (.resumed queue descriptor runId))
    | .error what =>
      some ((s.putEngineException json w (some payloadKey) (drain.skippedDoc runId what)).moveTo w
        (.resumed queue descriptor runId))
  | .resumed queue descriptor runId => some (s.moveTo w (.popping queue descriptor runId))
  | .popping queue descriptor runId =>
    match s.redis.listPopBack (drain.listKey runId) with
    | (none, _) => some (s.moveTo w (.retiring queue descriptor))
    | (some payloadKey, redis) =>
      some ({ s with redis := redis, popped := ⟨w, payloadKey⟩ :: s.popped }.moveTo w
        (.claimed queue descriptor runId payloadKey))
  | .retiring queue descriptor =>
    some ({ s with redis := s.redis.listRemove queue descriptor }.moveTo w .top)
  | .stopping => some (s.moveTo w .parked)
  | .parked => none
  | .aborted => none

/-- The load of a run's ticks, the quiesce before it included, returns or throws. -/
def load (s : DrainState) (w : ℕ) (thrown : Option Thrown) : Option DrainState :=
  match s.worker w with
  | .loading queue descriptor runId payloadKey =>
    match thrown with
    | none => some (s.moveTo w (.claimed queue descriptor runId payloadKey))
    | some thrown => some (s.abort json kind w (some payloadKey) thrown)
  | _ => none

/-- What a pooled task threw is thrown again between two runs and after the stop. -/
def taskFailed (s : DrainState) (w : ℕ) (thrown : Thrown) : Option DrainState :=
  match s.worker w with
  | .top => some (s.abort json kind w none thrown)
  | .stopping => some (s.abort json kind w none thrown)
  | _ => none

/-- A worker with a control channel sees the stop signal between two runs or two names. -/
def stop (s : DrainState) (w : ℕ) : Option DrainState :=
  if (drainOf json kind w).stoppable then
    match s.worker w with
    | .top => some (s.moveTo w .stopping)
    | .resumed _ _ _ => some (s.moveTo w .stopping)
    | _ => none
  else none

def step (s : DrainState) : DrainAction → Option DrainState
  | .set key value => some { s with redis := s.redis.set key value }
  | .push kind runId name => s.push json kind runId name
  | .advertise kind queueKey descriptor => s.advertise json kind queueKey descriptor
  | .work w => s.work json kind w
  | .load w thrown => s.load json kind w thrown
  | .taskFailed w thrown => s.taskFailed json kind w thrown
  | .stop w => s.stop json kind w

end DrainState

end BacktestEngine

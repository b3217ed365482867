import BacktestEngine.Library.Transition
import BacktestEngine.Queue.Redis

/-! # The work queue

Producers store the payloads of a run, push their names chunk by chunk and
advertise the run last. Workers peek a run, claim one name after the other, take
its payload and retire the run when the list is empty. Every store command is one
step, and a worker may crash or see the stop signal between its steps.
-/

namespace BacktestEngine

namespace QueueKeys

def run : String := "BACKTESTING_QUEUE_RUN"

/-- Every run queue, in the order the workers drain them. -/
def runQueues : List String :=
  [run, "BACKTESTING_QUEUE_RUN_CHAIN:1", "BACKTESTING_QUEUE_RUN_CHAIN:2",
    "BACKTESTING_QUEUE_RUN_CHAIN:3"]

def strategyPrefix : String := "BACKTESTING_QUEUE_STRATEGY:"

def strategyKey (runId : String) : String := strategyPrefix ++ runId

theorem strategyKey_injective : Function.Injective strategyKey := by
  intro r r' h
  have := congrArg String.toList h
  simp only [strategyKey, String.toList_append, List.append_cancel_left_eq] at this
  exact String.toList_inj.mp this

theorem strategyKey_not_runQueue (runId : String) : strategyKey runId ∉ runQueues := by
  intro h
  have hpos : (strategyKey runId).toList[18]? = some 'S' := by
    rw [strategyKey, String.toList_append, List.getElem?_append_left (by decide)]
    decide
  have hall : ∀ queue ∈ runQueues, queue.toList[18]? = some 'R' := by decide
  rw [hall _ h] at hpos
  cases hpos

end QueueKeys

open QueueKeys

/-- The text codec and the parsers behind it. -/
structure Codec where
  b64encode : String → String
  parseRunId : String → Option String
  parseStrategy : String → Bool

structure KeyedPayload where
  key : String
  rawJson : String
  deriving DecidableEq, Repr

/-- What a producer pushes for one run. -/
structure RunJob where
  runId : String
  queueKey : String
  rawDescriptor : String
  chunks : List (List KeyedPayload)
  queued : queueKey ∈ runQueues

inductive Command
  | set (key value : String)
  | push (listKey name : String)
  | advertise (queueKey descriptor : String)
  deriving DecidableEq, Repr

def isSpace (c : Char) : Bool := c = ' ' || (9 ≤ c.toNat && c.toNat ≤ 13)

def isBlank (rawJson : String) : Bool := rawJson.toList.all isSpace

def KeyedPayload.rejected (payload : KeyedPayload) : Bool :=
  payload.key.isEmpty || isBlank payload.rawJson

/-- The commands of one chunk: every payload, then every name. -/
def chunkCommands (codec : Codec) (listKey : String) (chunk : List KeyedPayload) : List Command :=
  chunk.map (fun payload => .set payload.key (codec.b64encode payload.rawJson)) ++
    chunk.map fun payload => .push listKey payload.key

/-- The commands of the chunks up to an empty one, and whether none was rejected. -/
def pushKeyedStream (codec : Codec) (listKey : String) : List (List KeyedPayload) →
    List Command × Bool
  | [] => ([], true)
  | chunk :: chunks =>
    if chunk.isEmpty then ([], true)
    else if chunk.any KeyedPayload.rejected then ([], false)
    else
      let (commands, status) := pushKeyedStream codec listKey chunks
      (chunkCommands codec listKey chunk ++ commands, status)

namespace RunJob

def descriptor (codec : Codec) (job : RunJob) : String := codec.b64encode job.rawDescriptor

def payloadKeys (job : RunJob) : List String := job.chunks.flatten.map KeyedPayload.key

/-- The advert, unless the stream failed or the descriptor is blank. -/
def advert (codec : Codec) (job : RunJob) : List Command :=
  if (pushKeyedStream codec (strategyKey job.runId) job.chunks).2 && !isBlank job.rawDescriptor then
    [.advertise job.queueKey (job.descriptor codec)]
  else []

def commands (codec : Codec) (job : RunJob) : List Command :=
  (pushKeyedStream codec (strategyKey job.runId) job.chunks).1 ++ job.advert codec

end RunJob

/-- Where a worker is between two of its steps. -/
inductive Phase
  | top
  | looking (queues : List String)
  | peeked (queueKey descriptor : String)
  | popping (queueKey descriptor runId : String)
  | claimed (queueKey descriptor runId payloadKey : String)
  | holding (queueKey descriptor runId payloadKey payload : String)
  | resumed (queueKey descriptor runId : String)
  | retiring (queueKey descriptor : String)
  | parked
  | crashed
  deriving DecidableEq, Repr

/-- A payload in the hands of a worker. -/
structure Taken where
  worker : ℕ
  key : String
  payload : String
  deriving DecidableEq, Repr

structure QueueState where
  redis : RedisStore
  pending : ℕ → List Command
  advertised : ℕ → Bool
  worker : ℕ → Phase
  taken : List Taken
  submitted : List Taken
  reported : List Taken

inductive QueueAction
  | produce (job : ℕ)
  | work (worker : ℕ)
  | stop (worker : ℕ)
  | crash (worker : ℕ)
  deriving DecidableEq, Repr

namespace QueueState

variable (codec : Codec) (jobs : List RunJob)

/-- The commands of a job, none beyond the list. -/
def program (i : ℕ) : List Command := (jobs[i]?.map (RunJob.commands codec)).getD []

def start : QueueState where
  redis := .empty
  pending := program codec jobs
  advertised _ := false
  worker _ := .top
  taken := []
  submitted := []
  reported := []

def moveTo (s : QueueState) (w : ℕ) (phase : Phase) : QueueState :=
  { s with worker := Function.update s.worker w phase }

/-- The next command of a producer. -/
def produce (s : QueueState) (i : ℕ) : Option QueueState :=
  match s.pending i with
  | [] => none
  | command :: rest =>
    let s := { s with pending := Function.update s.pending i rest }
    match command with
    | .set key value => some { s with redis := s.redis.set key value }
    | .push listKey name => some { s with redis := s.redis.listPushFront listKey name }
    | .advertise queueKey descriptor =>
      some { s with
        redis := s.redis.listPushFront queueKey descriptor
        advertised := Function.update s.advertised i true }

/-- The next step of a worker that has not been told to stop. -/
def work (s : QueueState) (w : ℕ) : Option QueueState :=
  match s.worker w with
  | .top => some (s.moveTo w (.looking runQueues))
  | .looking [] => some (s.moveTo w .top)
  | .looking (queue :: queues) =>
    match s.redis.listTail queue with
    | none => some (s.moveTo w (.looking queues))
    | some descriptor => some (s.moveTo w (.peeked queue descriptor))
  | .peeked queue descriptor =>
    match codec.parseRunId descriptor with
    | none => some (s.moveTo w (.retiring queue descriptor))
    | some runId => some (s.moveTo w (.popping queue descriptor runId))
  | .popping queue descriptor runId =>
    match s.redis.listPopBack (strategyKey runId) with
    | (none, _) => some (s.moveTo w (.retiring queue descriptor))
    | (some payloadKey, redis) =>
      some ({ s with redis := redis }.moveTo w (.claimed queue descriptor runId payloadKey))
  | .claimed queue descriptor runId payloadKey =>
    match s.redis.getDelete payloadKey with
    | (none, _) => some (s.moveTo w (.resumed queue descriptor runId))
    | (some payload, redis) =>
      some ({ s with redis := redis, taken := ⟨w, payloadKey, payload⟩ :: s.taken }.moveTo w
        (.holding queue descriptor runId payloadKey payload))
  | .holding queue descriptor runId payloadKey payload =>
    let s := s.moveTo w (.resumed queue descriptor runId)
    if codec.parseStrategy payload then
      some { s with submitted := ⟨w, payloadKey, payload⟩ :: s.submitted }
    else some { s with reported := ⟨w, payloadKey, payload⟩ :: s.reported }
  | .resumed queue descriptor runId => some (s.moveTo w (.popping queue descriptor runId))
  | .retiring queue descriptor =>
    some ({ s with redis := s.redis.listRemove queue descriptor }.moveTo w .top)
  | .parked => none
  | .crashed => none

/-- A worker sees the stop signal at the top of its loop or between two strategies. -/
def stop (s : QueueState) (w : ℕ) : Option QueueState :=
  match s.worker w with
  | .top => some (s.moveTo w .parked)
  | .resumed _ _ _ => some (s.moveTo w .parked)
  | _ => none

def step (s : QueueState) : QueueAction → Option QueueState
  | .produce i => s.produce i
  | .work w => s.work codec w
  | .stop w => s.stop w
  | .crash w => some (s.moveTo w .crashed)

@[simp] theorem moveTo_redis (s : QueueState) (w : ℕ) (phase : Phase) :
    (s.moveTo w phase).redis = s.redis := rfl

end QueueState

end BacktestEngine

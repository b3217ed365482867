import Mathlib.Algebra.Ring.Int.Defs
import BacktestEngine.Queue.WorkQueue

/-! # The loader

Payloads are stored chunk by chunk, each chunk's names after its payloads, and both
requests are pipelined. What becomes of a command is up to the server and the
connection: it is accepted, it is answered with an error, or its answer is lost.
The helper that runs a request drops the response, errors included.
-/

namespace BacktestEngine

/-- What becomes of a command: an answer, or none, whether or not the server carried it out. -/
inductive Outcome
  | ok
  | refused (error : String)
  | lost (executed : Bool)
  | stopped (executed : Bool)
  deriving DecidableEq, Repr

namespace Outcome

/-- The server carried the command out. -/
def executed : Outcome → Bool
  | ok => true
  | refused _ => false
  | lost executed | stopped executed => executed

/-- The answer came, be it an error. -/
def answered : Outcome → Bool
  | ok | refused _ => true
  | lost _ | stopped _ => false

/-- The answer is an error. -/
def isError : Outcome → Bool
  | refused _ => true
  | ok | lost _ | stopped _ => false

end Outcome

/-- What ends a load. A connection that stops never completes the request. -/
inductive LoadError
  | systemError
  | standard (what : String)
  | unknown
  | stopped
  deriving DecidableEq, Repr

inductive WireCommand
  | set (key value : String) (ttlMilliseconds : ℤ)
  | lpush (key value : String)
  deriving DecidableEq, Repr

/-- A payload, and what becomes of its SET and of the LPUSH of its name. -/
structure Delivery where
  payload : KeyedPayload
  set : Outcome
  push : Outcome
  deriving DecidableEq, Repr

/-- A command sent for a payload. -/
structure Sent where
  delivery : Delivery
  command : WireCommand
  deriving DecidableEq, Repr

def Sent.outcome (sent : Sent) : Outcome :=
  match sent.command with
  | .set _ _ _ => sent.delivery.set
  | .lpush _ _ => sent.delivery.push

/-- The server stored a payload. -/
def Sent.Stores (sent : Sent) : Prop :=
  (∃ key value ttl, sent.command = .set key value ttl) ∧ sent.outcome.executed = true

/-- The server put a name on the list. -/
def Sent.Offers (sent : Sent) : Prop :=
  (∃ key value, sent.command = .lpush key value) ∧ sent.outcome.executed = true

/-- What the source gives: chunks, or an exception. It has no more when its list ends. -/
abbrev ChunkSource := List (Except LoadError (List Delivery))

namespace RedisOperations

variable {α : Type} (outcome : α → Outcome)

/-- The first command whose answer does not come ends the request. -/
def transportFailure : List α → Option LoadError
  | [] => none
  | command :: request =>
    match outcome command with
    | .lost _ => some .systemError
    | .stopped _ => some .stopped
    | _ => transportFailure request

/-- The first error among the answers, which the response keeps. -/
def responseError : List α → Option String
  | [] => none
  | command :: request =>
    match outcome command with
    | .refused error => some error
    | _ => responseError request

/-- Run a request into a generic response, after the commands sent before. -/
def asyncExec (request sent : List α) : Except LoadError (Option String) × List α :=
  match transportFailure outcome request with
  | some error => (.error error, sent ++ request)
  | none => (.ok (responseError outcome request), sent ++ request)

/-- The response is dropped. -/
def execIgnore (request sent : List α) : Except LoadError Unit × List α :=
  match asyncExec outcome request sent with
  | (.error error, sent) => (.error error, sent)
  | (.ok _, sent) => (.ok (), sent)

end RedisOperations

namespace RedisLoader

open RedisOperations

variable (codec : Codec) (listKey : String) (ttlSeconds : ℤ)

def setRequest (chunk : List Delivery) : List Sent :=
  chunk.map fun d =>
    ⟨d, .set d.payload.key (codec.b64encode d.payload.rawJson) (ttlSeconds * 1000)⟩

def pushRequest (chunk : List Delivery) : List Sent :=
  chunk.map fun d => ⟨d, .lpush listKey d.payload.key⟩

def setMultipleWithTTL (chunk : List Delivery) (sent : List Sent) :
    Except LoadError Unit × List Sent :=
  if chunk.isEmpty then (.ok (), sent)
  else execIgnore Sent.outcome (setRequest codec ttlSeconds chunk) sent

def listPushFront (chunk : List Delivery) (sent : List Sent) : Except LoadError Unit × List Sent :=
  execIgnore Sent.outcome (pushRequest listKey chunk) sent

def rejected (chunk : List Delivery) : Bool := chunk.any fun d => d.payload.rejected

/-- The number of payloads stored, and every command sent. -/
def pushKeyedStream : ChunkSource → ℕ → List Sent → Except LoadError ℕ × List Sent
  | [], total, sent => (.ok total, sent)
  | .error error :: _, _, sent => (.error error, sent)
  | .ok chunk :: source, total, sent =>
    if chunk.isEmpty then (.ok total, sent)
    else if rejected chunk then
      (.error (.standard "RedisLoader: empty payload or key rejected"), sent)
    else
      match setMultipleWithTTL codec ttlSeconds chunk sent with
      | (.error error, sent) => (.error error, sent)
      | (.ok (), sent) =>
        match listPushFront listKey chunk sent with
        | (.error error, sent) => (.error error, sent)
        | (.ok (), sent) => pushKeyedStream source (total + chunk.length) sent

/-- The exit code of a stream; what is no standard exception leaves the loader. -/
def streamCode : Except LoadError ℕ → Option ℤ
  | .ok _ => some 0
  | .error .systemError => some 3
  | .error .stopped => some 3
  | .error (.standard _) => some 1
  | .error .unknown => none

/-- The exit code, and every command sent. -/
def loadKeyedPayloadStream (source : ChunkSource) : Option ℤ × List Sent :=
  let (result, sent) := pushKeyedStream codec listKey ttlSeconds source 0 []
  (streamCode result, sent)

/-- The exit code of a push. -/
def pushCode : Except LoadError Unit → Option ℤ
  | .ok () => some 0
  | .error .systemError => some 3
  | .error .stopped => some 3
  | .error _ => none

/-- The exit code, and what was sent: the LPUSH of the run descriptor, of which this becomes. -/
def loadPayload (outcome : Outcome) (queueKey rawJson : String) : Option ℤ × List WireCommand :=
  if isBlank rawJson then (some 1, [])
  else
    let (result, sent) :=
      execIgnore (fun _ => outcome) [.lpush queueKey (codec.b64encode rawJson)] []
    (pushCode result, sent)

/-! ## What a load promises -/

/-- The chunks that the source gives before its first empty one. -/
def offered : ChunkSource → List (List Delivery)
  | .ok chunk :: source => if chunk.isEmpty then [] else chunk :: offered source
  | _ => []

/-- Whenever the server puts a name on the list, it has stored the payload of the name. -/
def Backed : List Sent → List Sent → Prop
  | _, [] => True
  | earlier, sent :: later =>
    (sent.Offers → ∃ before ∈ earlier, before.Stores ∧ before.delivery = sent.delivery) ∧
      Backed (earlier ++ [sent]) later

/-- Success means that the server carried out one SET for every payload and one LPUSH for every
name, and nothing else; and no name is ever on the list without its payload stored. -/
structure StreamSound (source : ChunkSource) : Prop where
  success : (loadKeyedPayloadStream codec listKey ttlSeconds source).1 = some 0 →
    ((loadKeyedPayloadStream codec listKey ttlSeconds source).2.filter
        fun sent => sent.outcome.executed) =
      (offered source).flatMap fun chunk =>
        setRequest codec ttlSeconds chunk ++ pushRequest listKey chunk
  backed : Backed [] (loadKeyedPayloadStream codec listKey ttlSeconds source).2

/-- Success means that the server pushed the run descriptor. -/
def PayloadSound (outcome : Outcome) (queueKey rawJson : String) : Prop :=
  (loadPayload codec outcome queueKey rawJson).1 = some 0 →
    (loadPayload codec outcome queueKey rawJson).2 =
      [.lpush queueKey (codec.b64encode rawJson)] ∧ outcome.executed = true

/-! ## Error replies -/

/-- Both requests of a chunk are answered in full. -/
def answered (chunk : List Delivery) : Bool :=
  chunk.all fun d => d.set.answered && d.push.answered

/-- The chunks that are sent: up to one that is rejected or not answered in full. -/
def reached : ChunkSource → List (List Delivery)
  | .ok chunk :: source =>
    if chunk.isEmpty || rejected chunk then []
    else chunk :: if answered chunk then reached source else []
  | _ => []

/-- The source comes to its end, and every command is answered. -/
def complete : ChunkSource → Bool
  | [] => true
  | .error _ :: _ => false
  | .ok chunk :: source => chunk.isEmpty || (!rejected chunk && answered chunk && complete source)

/-- In a chunk whose SETs are all answered, a payload that is refused has its LPUSH fail too; and
no command is refused where every one is answered up to the end of the source. -/
structure Harmless (source : ChunkSource) : Prop where
  together : ∀ chunk ∈ reached source, (∀ d ∈ chunk, d.set.answered = true) →
    ∀ d ∈ chunk, d.set.isError = true → d.push.executed = false
  unrefused : complete source = true → ∀ chunk ∈ reached source, ∀ d ∈ chunk,
    d.set.isError = false ∧ d.push.isError = false

/-! ## Requests -/

section Requests

variable {α : Type} {outcome : α → Outcome}

theorem transportFailure_eq_none_iff {request : List α} :
    transportFailure outcome request = none ↔ ∀ command ∈ request, (outcome command).answered = true := by
  induction request with
  | nil => simp [transportFailure]
  | cons command request ih =>
    rw [List.forall_mem_cons, ← ih, transportFailure]
    cases outcome command <;> simp [Outcome.answered]

/-- A request fails or not by its answers alone, and errors are answers. -/
theorem execIgnore_eq (request sent : List α) : execIgnore outcome request sent =
    ((transportFailure outcome request).elim (.ok ()) .error, sent ++ request) := by
  unfold execIgnore asyncExec
  cases transportFailure outcome request <;> rfl

end Requests

theorem Outcome.executed_eq_not_isError {outcome : Outcome} (h : outcome.answered = true) :
    outcome.executed = !outcome.isError := by
  cases outcome with
  | ok => rfl
  | refused error => rfl
  | lost executed => cases h
  | stopped executed => cases h

variable {codec listKey ttlSeconds}

theorem execIgnore_ok {α : Type} {outcome : α → Outcome} {request : List α} (sent : List α)
    (h : ∀ command ∈ request, (outcome command).answered = true) :
    execIgnore outcome request sent = (.ok (), sent ++ request) := by
  rw [execIgnore_eq, transportFailure_eq_none_iff.mpr h]
  rfl

theorem execIgnore_error {α : Type} {outcome : α → Outcome} {request : List α} (sent : List α)
    (h : ¬ ∀ command ∈ request, (outcome command).answered = true) :
    ∃ error, execIgnore outcome request sent = (.error error, sent ++ request) := by
  rw [execIgnore_eq]
  cases hfailure : transportFailure outcome request with
  | none => exact absurd (transportFailure_eq_none_iff.mp hfailure) h
  | some error => exact ⟨error, rfl⟩

theorem forall_setRequest {chunk : List Delivery} :
    (∀ sent ∈ setRequest codec ttlSeconds chunk, sent.outcome.answered = true) ↔
      ∀ d ∈ chunk, d.set.answered = true := by
  rw [setRequest, List.forall_mem_map]
  exact Iff.rfl

theorem forall_pushRequest {chunk : List Delivery} :
    (∀ sent ∈ pushRequest listKey chunk, sent.outcome.answered = true) ↔
      ∀ d ∈ chunk, d.push.answered = true := by
  rw [pushRequest, List.forall_mem_map]
  exact Iff.rfl

theorem answered_iff {chunk : List Delivery} : answered chunk = true ↔
    (∀ d ∈ chunk, d.set.answered = true) ∧ ∀ d ∈ chunk, d.push.answered = true := by
  simp only [answered, List.all_eq_true, Bool.and_eq_true]
  exact forall₂_and

/-! ## The stream -/

variable (codec listKey ttlSeconds) in
/-- Every command that is sent for a source. -/
def wireLog : ChunkSource → List Sent
  | .ok chunk :: source =>
    if chunk.isEmpty || rejected chunk then []
    else setRequest codec ttlSeconds chunk ++
      if chunk.all fun d => d.set.answered then
        pushRequest listKey chunk ++ if answered chunk then wireLog source else []
      else []
  | _ => []

theorem streamCode_error (error : LoadError) : streamCode (.error error) ≠ some 0 := by
  cases error with
  | systemError => decide
  | standard what => exact fun h => absurd (Option.some.inj h) (by decide)
  | unknown => decide
  | stopped => decide

/-- The commands of a source are sent in order, and the load succeeds when all are answered. -/
theorem pushKeyedStream_spec (source : ChunkSource) (total : ℕ) (sent : List Sent) :
    (pushKeyedStream codec listKey ttlSeconds source total sent).2 =
        sent ++ wireLog codec listKey ttlSeconds source ∧
      (streamCode (pushKeyedStream codec listKey ttlSeconds source total sent).1 = some 0 ↔
        complete source = true) := by
  induction source generalizing total sent with
  | nil => simp [pushKeyedStream, wireLog, complete, streamCode]
  | cons head source ih =>
    cases head with
    | error error => simp [pushKeyedStream, wireLog, complete, streamCode_error]
    | ok chunk =>
      rw [pushKeyedStream, wireLog, complete]
      by_cases hempty : chunk.isEmpty = true
      · simp [hempty, streamCode]
      by_cases hrejected : rejected chunk = true
      · simp [hempty, hrejected, streamCode_error]
      rw [if_neg hempty, if_neg hrejected, setMultipleWithTTL, if_neg hempty]
      by_cases hset : ∀ d ∈ chunk, d.set.answered = true
      · have hall : (chunk.all fun d => d.set.answered) = true := List.all_eq_true.mpr hset
        rw [execIgnore_ok sent (forall_setRequest.mpr hset)]
        dsimp only
        rw [listPushFront]
        by_cases hpush : ∀ d ∈ chunk, d.push.answered = true
        · have hanswered : answered chunk = true := answered_iff.mpr ⟨hset, hpush⟩
          rw [execIgnore_ok _ (forall_pushRequest.mpr hpush)]
          dsimp only
          obtain ⟨hlog, hcode⟩ := ih (total + chunk.length)
            (sent ++ setRequest codec ttlSeconds chunk ++ pushRequest listKey chunk)
          rw [hlog, hcode]
          simp [hempty, hrejected, hall, hanswered]
        · have hanswered : answered chunk = false :=
            Bool.eq_false_iff.mpr fun h => hpush (answered_iff.mp h).2
          obtain ⟨error, herror⟩ := execIgnore_error (sent ++ setRequest codec ttlSeconds chunk)
            (mt forall_pushRequest.mp hpush)
          rw [herror]
          simp [hempty, hrejected, hall, hanswered, streamCode_error]
      · have hall : (chunk.all fun d => d.set.answered) = false :=
          Bool.eq_false_iff.mpr fun h => hset (List.all_eq_true.mp h)
        have hanswered : answered chunk = false :=
          Bool.eq_false_iff.mpr fun h => hset (answered_iff.mp h).1
        obtain ⟨error, herror⟩ := execIgnore_error sent (mt forall_setRequest.mp hset)
        rw [herror]
        simp [hempty, hrejected, hall, hanswered, streamCode_error]

/-! ## Names without a payload -/

theorem Backed_append {earlier log later : List Sent} :
    Backed earlier (log ++ later) ↔ Backed earlier log ∧ Backed (earlier ++ log) later := by
  induction log generalizing earlier with
  | nil => simp [Backed]
  | cons sent log ih => simp [Backed, ih, and_assoc]

theorem Backed_setRequest (earlier : List Sent) (chunk : List Delivery) :
    Backed earlier (setRequest codec ttlSeconds chunk) := by
  induction chunk generalizing earlier with
  | nil => trivial
  | cons d chunk ih =>
    constructor
    · rintro ⟨⟨key, value, hcommand⟩, -⟩
      cases hcommand
    · exact ih _

/-- A payload is stored by its own SET only. -/
theorem executed_of_stores {sent : Sent} (h : sent.Stores) :
    sent.delivery.set.executed = true := by
  obtain ⟨⟨key, value, ttl, hcommand⟩, hexecuted⟩ := h
  rwa [Sent.outcome, hcommand] at hexecuted

theorem stores_of_mem {earlier : List Sent} {chunk : List Delivery} {d : Delivery} (hd : d ∈ chunk)
    (hearlier : ∀ sent ∈ setRequest codec ttlSeconds chunk, sent ∈ earlier) :
    (∃ before ∈ earlier, before.Stores ∧ before.delivery = d) ↔ d.set.executed = true := by
  constructor
  · rintro ⟨before, -, hstores, rfl⟩
    exact executed_of_stores hstores
  · intro hexecuted
    exact ⟨_, hearlier _ (List.mem_map_of_mem hd), ⟨⟨_, _, _, rfl⟩, hexecuted⟩, rfl⟩

/-- Once the SETs of some payloads are sent, pushing names of theirs depends on the outcomes. -/
theorem Backed_pushRequest {earlier : List Sent} {chunk names : List Delivery}
    (hearlier : ∀ sent ∈ setRequest codec ttlSeconds chunk, sent ∈ earlier)
    (hnames : ∀ d ∈ names, d ∈ chunk) :
    Backed earlier (pushRequest listKey names) ↔
      ∀ d ∈ names, d.push.executed = true → d.set.executed = true := by
  induction names generalizing earlier with
  | nil => simp [pushRequest, Backed]
  | cons d names ih =>
    have hrest : Backed (earlier ++ [⟨d, .lpush listKey d.payload.key⟩])
        (pushRequest listKey names) ↔ ∀ d ∈ names, d.push.executed = true → d.set.executed = true :=
      ih (fun sent h => List.mem_append_left _ (hearlier sent h))
        fun d' h => hnames d' (List.mem_cons_of_mem _ h)
    have hoffers : Sent.Offers ⟨d, .lpush listKey d.payload.key⟩ ↔ d.push.executed = true := by
      constructor
      · exact fun h => h.2
      · exact fun h => ⟨⟨_, _, rfl⟩, h⟩
    rw [List.forall_mem_cons, ← hrest, ← stores_of_mem (hnames d (List.mem_cons_self)) hearlier,
      ← hoffers]
    exact Iff.rfl

theorem executed_imp_iff {d : Delivery} (h : d.set.answered = true) :
    (d.push.executed = true → d.set.executed = true) ↔
      (d.set.isError = true → d.push.executed = false) := by
  rw [Outcome.executed_eq_not_isError h]
  cases d.set.isError <;> cases d.push.executed <;> decide

/-- No name is offered without its payload, exactly when none is in any chunk that is sent. -/
theorem Backed_wireLog (earlier : List Sent) (source : ChunkSource) :
    Backed earlier (wireLog codec listKey ttlSeconds source) ↔
      ∀ chunk ∈ reached source, (∀ d ∈ chunk, d.set.answered = true) →
        ∀ d ∈ chunk, d.set.isError = true → d.push.executed = false := by
  induction source generalizing earlier with
  | nil => simp [wireLog, reached, Backed]
  | cons head source ih =>
    cases head with
    | error error => simp [wireLog, reached, Backed]
    | ok chunk =>
      rw [wireLog, reached]
      by_cases hskip : (chunk.isEmpty || rejected chunk) = true
      · simp [hskip, Backed]
      rw [if_neg hskip, if_neg hskip, Backed_append, List.forall_mem_cons]
      by_cases hset : ∀ d ∈ chunk, d.set.answered = true
      · have hpush : Backed (earlier ++ setRequest codec ttlSeconds chunk)
            (pushRequest listKey chunk) ↔
              ∀ d ∈ chunk, d.push.executed = true → d.set.executed = true :=
          Backed_pushRequest (fun sent h => List.mem_append_right _ h) fun d h => h
        have hchunk : (∀ d ∈ chunk, d.push.executed = true → d.set.executed = true) ↔
            ∀ d ∈ chunk, d.set.isError = true → d.push.executed = false :=
          forall₂_congr fun d hd => executed_imp_iff (hset d hd)
        rw [if_pos (List.all_eq_true.mpr hset), Backed_append, hpush, hchunk, imp_iff_right hset]
        by_cases hanswered : answered chunk = true
        · rw [if_pos hanswered, if_pos hanswered, ih]
          exact and_iff_right (Backed_setRequest earlier chunk)
        · rw [if_neg hanswered, if_neg hanswered]
          simp [Backed, Backed_setRequest]
      · have hall : ¬ (chunk.all fun d => d.set.answered) = true :=
          fun h => hset (List.all_eq_true.mp h)
        have hanswered : ¬ answered chunk = true := fun h => hset (answered_iff.mp h).1
        rw [if_neg hall, if_neg hanswered]
        simp [Backed, Backed_setRequest, hset]

/-! ## Success -/

theorem offered_eq_reached {source : ChunkSource} (h : complete source = true) :
    offered source = reached source := by
  induction source with
  | nil => rfl
  | cons head source ih =>
    cases head with
    | error error => rfl
    | ok chunk =>
      rw [offered, reached]
      by_cases hempty : chunk.isEmpty = true
      · simp [hempty]
      · simp only [complete, hempty, Bool.false_or, Bool.and_eq_true, Bool.not_eq_true'] at h
        simp [hempty, h.1.1, h.1.2, ih h.2]

theorem answered_of_mem_reached {source : ChunkSource} (h : complete source = true) :
    ∀ chunk ∈ reached source, answered chunk = true := by
  induction source with
  | nil => simp [reached]
  | cons head source ih =>
    cases head with
    | error error => simp [reached]
    | ok chunk =>
      rw [reached]
      by_cases hempty : chunk.isEmpty = true
      · simp [hempty]
      · simp only [complete, hempty, Bool.false_or, Bool.and_eq_true, Bool.not_eq_true'] at h
        simp only [hempty, h.1.1, h.1.2, Bool.false_or, Bool.false_eq_true, if_false, if_true]
        rw [List.forall_mem_cons]
        exact ⟨h.1.2, ih h.2⟩

theorem wireLog_eq {source : ChunkSource} (h : complete source = true) :
    wireLog codec listKey ttlSeconds source = (reached source).flatMap fun chunk =>
      setRequest codec ttlSeconds chunk ++ pushRequest listKey chunk := by
  induction source with
  | nil => rfl
  | cons head source ih =>
    cases head with
    | error error => rfl
    | ok chunk =>
      rw [wireLog, reached]
      by_cases hempty : chunk.isEmpty = true
      · simp [hempty]
      · simp only [complete, hempty, Bool.false_or, Bool.and_eq_true, Bool.not_eq_true'] at h
        have hall : (chunk.all fun d => d.set.answered) = true :=
          List.all_eq_true.mpr (answered_iff.mp h.1.2).1
        simp [hempty, h.1.1, h.1.2, hall, ih h.2]

/-- With an answer to every command, all are carried out exactly when none is refused. -/
theorem filter_executed_eq_iff {chunks : List (List Delivery)}
    (h : ∀ chunk ∈ chunks, answered chunk = true) :
    ((chunks.flatMap fun chunk =>
          setRequest codec ttlSeconds chunk ++ pushRequest listKey chunk).filter
        fun sent => sent.outcome.executed) =
      (chunks.flatMap fun chunk =>
        setRequest codec ttlSeconds chunk ++ pushRequest listKey chunk) ↔
      ∀ chunk ∈ chunks, ∀ d ∈ chunk, d.set.isError = false ∧ d.push.isError = false := by
  rw [List.filter_eq_self]
  simp only [List.mem_flatMap, List.mem_append, setRequest, pushRequest, List.mem_map]
  constructor
  · intro hall chunk hchunk d hd
    obtain ⟨hset, hpush⟩ := answered_iff.mp (h chunk hchunk)
    have hsetSent := hall _ ⟨chunk, hchunk, .inl ⟨d, hd, rfl⟩⟩
    have hpushSent := hall _ ⟨chunk, hchunk, .inr ⟨d, hd, rfl⟩⟩
    change d.set.executed = true at hsetSent
    change d.push.executed = true at hpushSent
    rw [Outcome.executed_eq_not_isError (hset d hd)] at hsetSent
    rw [Outcome.executed_eq_not_isError (hpush d hd)] at hpushSent
    exact ⟨by simpa using hsetSent, by simpa using hpushSent⟩
  · rintro hall sent ⟨chunk, hchunk, ⟨d, hd, rfl⟩ | ⟨d, hd, rfl⟩⟩
    · change d.set.executed = true
      rw [Outcome.executed_eq_not_isError ((answered_iff.mp (h chunk hchunk)).1 d hd),
        (hall chunk hchunk d hd).1]
      rfl
    · change d.push.executed = true
      rw [Outcome.executed_eq_not_isError ((answered_iff.mp (h chunk hchunk)).2 d hd),
        (hall chunk hchunk d hd).2]
      rfl

theorem loadKeyedPayloadStream_code (source : ChunkSource) :
    (loadKeyedPayloadStream codec listKey ttlSeconds source).1 = some 0 ↔ complete source = true :=
  (pushKeyedStream_spec source 0 []).2

theorem loadKeyedPayloadStream_sent (source : ChunkSource) :
    (loadKeyedPayloadStream codec listKey ttlSeconds source).2 =
      wireLog codec listKey ttlSeconds source :=
  (pushKeyedStream_spec source 0 []).1

variable (codec listKey ttlSeconds) in
theorem streamSound_iff (source : ChunkSource) :
    StreamSound codec listKey ttlSeconds source ↔ Harmless source := by
  have hsent := @loadKeyedPayloadStream_sent codec listKey ttlSeconds source
  have hbacked := @Backed_wireLog codec listKey ttlSeconds [] source
  rw [← hsent] at hbacked
  constructor
  · intro h
    constructor
    · exact hbacked.mp h.backed
    · intro hcomplete
      have hsuccess := h.success ((loadKeyedPayloadStream_code source).mpr hcomplete)
      rw [loadKeyedPayloadStream_sent, wireLog_eq hcomplete, offered_eq_reached hcomplete] at hsuccess
      exact (filter_executed_eq_iff (answered_of_mem_reached hcomplete)).mp hsuccess
  · intro h
    constructor
    · intro hcode
      have hcomplete := (loadKeyedPayloadStream_code source).mp hcode
      rw [loadKeyedPayloadStream_sent, wireLog_eq hcomplete, offered_eq_reached hcomplete]
      exact (filter_executed_eq_iff (answered_of_mem_reached hcomplete)).mpr (h.unrefused hcomplete)
    · exact hbacked.mpr h.together

/-! ## A single run descriptor -/

variable (codec) in
theorem payloadSound_iff (outcome : Outcome) (queueKey rawJson : String) :
    PayloadSound codec outcome queueKey rawJson ↔
      (isBlank rawJson = false → outcome.isError = false) := by
  unfold PayloadSound loadPayload
  by_cases hblank : isBlank rawJson = true
  · simp [hblank]
  rw [if_neg hblank, execIgnore_eq, Bool.eq_false_iff.mpr hblank]
  cases outcome with
  | ok => simp [transportFailure, pushCode, Outcome.executed, Outcome.isError]
  | refused error => simp [transportFailure, pushCode, Outcome.executed, Outcome.isError]
  | lost executed => simp [transportFailure, pushCode, Outcome.isError]
  | stopped executed => simp [transportFailure, pushCode, Outcome.isError]

/-- Both loads keep what they promise as long as no error reply hides behind their success. -/
theorem loaded_iff (codec : Codec) (listKey : String) (ttlSeconds : ℤ) :
    (∀ source, StreamSound codec listKey ttlSeconds source ↔ Harmless source) ∧
      ∀ outcome queueKey rawJson, PayloadSound codec outcome queueKey rawJson ↔
        (isBlank rawJson = false → outcome.isError = false) :=
  ⟨streamSound_iff codec listKey ttlSeconds, payloadSound_iff codec⟩

/-- One payload refused for want of memory: the load succeeds, with the name on the list. -/
theorem refused_set_unseen :
    (loadKeyedPayloadStream ⟨id, some, fun _ => true⟩ "STRATEGY#run" 60
        [.ok [⟨⟨"STRATEGY#run#a", "s"⟩, .refused "OOM", .ok⟩]]).1 = some 0 ∧
      ¬ StreamSound ⟨id, some, fun _ => true⟩ "STRATEGY#run" 60
        [.ok [⟨⟨"STRATEGY#run#a", "s"⟩, .refused "OOM", .ok⟩]] ∧
      ¬ PayloadSound ⟨id, some, fun _ => true⟩ (.refused "OOM") "STRATEGY_RUN" "r" := by
  refine ⟨by decide, ?_, ?_⟩
  · rw [streamSound_iff]
    intro h
    have hlost := h.together _ (List.mem_cons_self) (by decide) _ (List.mem_cons_self) rfl
    cases hlost
  · rw [payloadSound_iff]
    intro h
    cases h (by decide)

end RedisLoader

end BacktestEngine

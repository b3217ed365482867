import BacktestEngine.Bars.RangeBarBuilder
import BacktestEngine.Library.Expiring
import BacktestEngine.Live.BrokerRequests

/-! # A client of the gate

A request reads the count of its minute, and records itself before it is sent. The key of
the count names the minute of the hour, and lasts for a minute after it was last written.
-/

namespace BacktestEngine

namespace Live

open RangeBar (toInt32)

/-- The markers and the counts, with their times of expiry in microseconds. -/
abbrev GateStore := Expiring.Store String String ℕ

def kMinute : ℕ := 60000000

def currentMinuteOfHour (now : ℕ) : ℤ := (now / kMinute % 60 : ℕ)

namespace ApiRequestGate

def requestWindowKey (minuteOfHour : ℤ) : String := "REQ#" ++ toString minuteOfHour

def dealRequestKey (dealId : String) : String := "API#" ++ dealId

/-- The number at the front of a text, when there is one and it fits. -/
def fromChars (text : List Char) : Option ℤ :=
  let negative := text.head? = some '-'
  let digits := (if negative then text.tail else text).takeWhile Char.isDigit
  let magnitude : ℤ := Nat.ofDigitChars 10 digits 0
  let value := if negative then -magnitude else magnitude
  if digits = [] ∨ value < -2 ^ 31 ∨ 2 ^ 31 ≤ value then none else some value

/-- A text that is no number counts nothing, and so does a negative number. -/
def parseCount (text : String) : ℤ :=
  match fromChars text.toList with
  | none => 0
  | some count => if count < 0 then 0 else count

variable (store : GateStore) (now : ℕ)

def requestsMade (minuteOfHour : ℤ) : ℤ :=
  match store.get now (requestWindowKey minuteOfHour) with
  | none => 0
  | some text => parseCount text

/-- Every write begins the minute of the key anew. -/
def recordRequest (minuteOfHour : ℤ) : GateStore :=
  store.set (requestWindowKey minuteOfHour)
    (toString (toInt32 (requestsMade store now minuteOfHour + 1))) (now + kMinute)

def isDuplicateDeal (dealId : String) : Bool :=
  if dealId = "" then false else (store.get now (dealRequestKey dealId)).isSome

def recordDealRequest (dealId : String) : GateStore :=
  if dealId = "" then store else store.set (dealRequestKey dealId) "1" (now + 30000000)

end ApiRequestGate

open ApiRequestGate

/-! ## A client -/

/-- A call of `request` at a reading of the clock, with what the credentials and the attempts come
to. -/
structure RequestEvent where
  now : ℕ
  path : String := "/positions/otc"
  method : String := "POST"
  jsonBody : String := ""
  extraHeaders : Headers := []
  options : RequestOptions := {}
  auth : Except String (Option Auth)
  exchange : ℕ → Except String (Option HttpResponse)

/-- The store during a request, and the attempts it has made. -/
structure Session where
  redis : GateStore
  attempts : ℕ

/-- The store is in reach, and answers at the reading of the clock. -/
def RequestEvent.answer (event : RequestEvent) :
    (command : BrokerCommand) → Session → command.Answer × Session
  | .readClock, s => ((event.now : ℤ), s)
  | .isDuplicateDeal dealKey, s => (some (isDuplicateDeal s.redis event.now dealKey), s)
  | .currentMinuteOfHour, s => (Live.currentMinuteOfHour event.now, s)
  | .requestsMade minute, s => (some (requestsMade s.redis event.now minute), s)
  | .recordRequest minute, s =>
    (true, { s with redis := recordRequest s.redis event.now minute })
  | .recordDealRequest dealKey, s =>
    (true, { s with redis := recordDealRequest s.redis event.now dealKey })
  | .pullAuth, s => (event.auth, s)
  | .attempt _ _ _ _ _, s => (event.exchange s.attempts, { s with attempts := s.attempts + 1 })
  | .removePosition _ _, s => (true, s)

/-- A request that was made, and whether it was handed to the transport. -/
structure RequestMade where
  now : ℕ
  riskReducing : Bool
  handed : Bool
  deriving DecidableEq

structure ClientState where
  redis : GateStore
  history : List RequestMade

namespace ClientState

def start : ClientState := ⟨Expiring.Store.empty, []⟩

def request (s : ClientState) (event : RequestEvent) : ClientState :=
  let session := (Program.run event.answer (BrokerCall.request event.path event.method
    event.jsonBody event.extraHeaders event.options).run ⟨s.redis, 0⟩).2
  ⟨session.redis, s.history ++ [⟨event.now, event.options.riskReducing, 0 < session.attempts⟩]⟩

def run (s : ClientState) (events : List RequestEvent) : ClientState := events.foldl request s

end ClientState

/-! ## What one request does -/

/-- The credentials are there. -/
def RequestEvent.authorised (event : RequestEvent) : Bool :=
  match event.auth with
  | .ok (some _) => true
  | _ => false

/-- The count of the minute as the request reads it. -/
def RequestEvent.made (event : RequestEvent) (s : ClientState) : ℤ :=
  requestsMade s.redis event.now (currentMinuteOfHour event.now)

def RequestEvent.duplicate (event : RequestEvent) (s : ClientState) : Bool :=
  isDuplicateDeal s.redis event.now event.options.dealKey

/-- The gate lets the request through. -/
def RequestEvent.Passes (event : RequestEvent) (s : ClientState) : Prop :=
  gatePolicy (some (event.duplicate s)) (some (event.made s)) event.options.riskReducing = none

instance (event : RequestEvent) (s : ClientState) : Decidable (event.Passes s) :=
  inferInstanceAs (Decidable (_ = _))

/-- The store after the request is recorded. -/
def RequestEvent.recorded (event : RequestEvent) (s : ClientState) : GateStore :=
  recordDealRequest (recordRequest s.redis event.now (currentMinuteOfHour event.now)) event.now
    event.options.dealKey

variable {s : ClientState} {event : RequestEvent}

theorem passes_iff : event.Passes s ↔ event.duplicate s = false ∧
    (event.options.riskReducing = true ∨ event.made s ≤ kMaxRequestsPerMinute) := by
  unfold RequestEvent.Passes gatePolicy
  cases event.duplicate s <;> cases event.options.riskReducing <;> simp

variable (event) in
/-- An exchange makes an attempt or more, and leaves the store alone. -/
theorem execute_run (auth : Auth) (path method jsonBody : String) (extraHeaders : Headers)
    (maxRetries : ℕ) (session : Session) :
    (Program.run event.answer (BrokerCall.execute auth path method jsonBody extraHeaders
      maxRetries).run session).2.redis = session.redis ∧
    session.attempts < (Program.run event.answer (BrokerCall.execute auth path method jsonBody
      extraHeaders maxRetries).run session).2.attempts := by
  induction maxRetries generalizing session with
  | zero => exact ⟨rfl, Nat.lt_succ_self _⟩
  | succ maxRetries ih =>
    have hattempt : (BrokerCall.attempt auth path method jsonBody extraHeaders).run.run event.answer
        session = (event.exchange session.attempts,
          { session with attempts := session.attempts + 1 }) := rfl
    have hagain := ih { session with attempts := session.attempts + 1 }
    rw [BrokerCall.execute, Program.run_except_bind, hattempt]
    cases event.exchange session.attempts with
    | error what => exact ⟨rfl, Nat.lt_succ_self _⟩
    | ok answer =>
      cases answer with
      | none => exact ⟨hagain.1, (Nat.lt_succ_self _).trans hagain.2⟩
      | some response =>
        dsimp only
        split_ifs
        · exact ⟨hagain.1, (Nat.lt_succ_self _).trans hagain.2⟩
        · exact ⟨rfl, Nat.lt_succ_self _⟩

theorem issue_bind_run {α : Type} (command : BrokerCommand) (f : command.Answer → BrokerCall α)
    (session : Session) : (BrokerCall.issue command >>= f).run.run event.answer session =
      (f (event.answer command session).1).run.run event.answer
        (event.answer command session).2 := rfl

theorem pullAuth_run (session : Session) :
    BrokerCall.pullAuth.run.run event.answer session = (event.auth, session) := rfl

variable (event) in
/-- A request that the gate lets through is recorded, and handed over if there are credentials. -/
theorem recordAndSend_run (minute : ℤ) (store : GateStore) :
    (Program.run event.answer (BrokerCall.recordAndSend minute event.path event.method
      event.jsonBody event.extraHeaders event.options).run ⟨store, 0⟩).2.redis =
        recordDealRequest (recordRequest store event.now minute) event.now event.options.dealKey ∧
    decide (0 < (Program.run event.answer (BrokerCall.recordAndSend minute event.path event.method
      event.jsonBody event.extraHeaders event.options).run ⟨store, 0⟩).2.attempts) =
        event.authorised := by
  unfold BrokerCall.recordAndSend
  rw [issue_bind_run, issue_bind_run, Program.run_except_bind, pullAuth_run]
  simp only [RequestEvent.answer]
  unfold RequestEvent.authorised
  cases event.auth with
  | error what => exact ⟨rfl, rfl⟩
  | ok answer =>
    cases answer with
    | none => exact ⟨rfl, rfl⟩
    | some auth =>
      obtain ⟨hredis, hattempts⟩ := execute_run event auth event.path event.method
        event.jsonBody event.extraHeaders event.options.transportRetries
        ⟨recordDealRequest (recordRequest store event.now minute) event.now
          event.options.dealKey, 0⟩
      simp only [Program.run_except_bind]
      generalize (BrokerCall.execute auth event.path event.method event.jsonBody
        event.extraHeaders event.options.transportRetries).run.run event.answer
          ⟨recordDealRequest (recordRequest store event.now minute) event.now
            event.options.dealKey, 0⟩ = ended at hredis hattempts ⊢
      obtain ⟨outcome, session⟩ := ended
      have hhanded : decide (0 < session.attempts) = true := decide_eq_true hattempts
      cases outcome with
      | error what => exact ⟨hredis, hhanded⟩
      | ok answer => cases answer <;> exact ⟨hredis, hhanded⟩

theorem applyPolicy_passes (h : event.Passes s) :
    Program.run event.answer (BrokerCall.applyPolicy (some (event.duplicate s)) event.path
      event.method event.jsonBody event.extraHeaders event.options).run ⟨s.redis, 0⟩ =
    Program.run event.answer (BrokerCall.recordAndSend (currentMinuteOfHour event.now) event.path
      event.method event.jsonBody event.extraHeaders event.options).run ⟨s.redis, 0⟩ := by
  unfold RequestEvent.Passes RequestEvent.made at h
  unfold BrokerCall.applyPolicy
  rw [issue_bind_run, issue_bind_run]
  simp only [RequestEvent.answer]
  rw [h]

theorem applyPolicy_refused (h : ¬ event.Passes s) :
    (Program.run event.answer (BrokerCall.applyPolicy (some (event.duplicate s)) event.path
      event.method event.jsonBody event.extraHeaders event.options).run ⟨s.redis, 0⟩).2 =
    ⟨s.redis, 0⟩ := by
  obtain ⟨refusal, hrefusal⟩ := Option.ne_none_iff_exists'.mp h
  unfold RequestEvent.made at hrefusal
  unfold BrokerCall.applyPolicy
  rw [issue_bind_run, issue_bind_run]
  simp only [RequestEvent.answer]
  rw [hrefusal]
  rfl

theorem request_eq (s : ClientState) (event : RequestEvent) : s.request event =
    if event.Passes s then ⟨event.recorded s,
      s.history ++ [⟨event.now, event.options.riskReducing, event.authorised⟩]⟩
    else ⟨s.redis, s.history ++ [⟨event.now, event.options.riskReducing, false⟩]⟩ := by
  have hgate : Program.run event.answer (BrokerCall.request event.path event.method
      event.jsonBody event.extraHeaders event.options).run ⟨s.redis, 0⟩ =
        Program.run event.answer (BrokerCall.applyPolicy (some (event.duplicate s)) event.path
          event.method event.jsonBody event.extraHeaders event.options).run ⟨s.redis, 0⟩ := by
    unfold BrokerCall.request
    split_ifs with hkey
    · rw [RequestEvent.duplicate, isDuplicateDeal, if_pos hkey]
    · rfl
  rw [ClientState.request, hgate]
  by_cases hpass : event.Passes s
  · obtain ⟨hredis, hhanded⟩ := recordAndSend_run event (currentMinuteOfHour event.now) s.redis
    rw [if_pos hpass, applyPolicy_passes hpass, hredis, hhanded]
    rfl
  · rw [if_neg hpass, applyPolicy_refused hpass]
    rfl

end Live

end BacktestEngine

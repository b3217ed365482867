import BacktestEngine.Library.Program
import BacktestEngine.Live.BrokerOrders

/-! # Requests to the broker

Every request is first checked against the gate's markers and its budget, then given
the session's credentials and exchanged, again when the answer was lost or transient.
What it came to tells a request that was never sent from one whose answer was lost.
-/

namespace BacktestEngine

namespace Live

/-! ## Bodies -/

/-- A JSON value; the numbers with a fraction are of type `D`. -/
inductive Json (D : Type)
  | null
  | bool (b : Bool)
  | integer (n : ℤ)
  | float (x : D)
  | string (s : String)
  | array (items : List (Json D))
  | object (fields : List (String × Json D))

/-- The JSON library: the text of a value, and the value of a text, if it is one. -/
class JsonText (D : Type) where
  parse : String → Option (Json D)
  dump : Json D → String

/-- The body of a closing order, whose direction is the opposite of the position's. -/
structure TradeCloseObj (D : Type) where
  orderType : String := "MARKET"
  direction : String
  dealId : String
  size : D
  deriving DecidableEq

structure IGPositionResponseObject where
  dealReference : String
  errorCode : Option String
  deriving DecidableEq

structure DealConfirmation where
  dealId : String
  dealReference : String
  dealStatus : String
  reason : String
  deriving DecidableEq

variable {D : Type}

def encodeTradeOpen [JsonText D] (order : TradeOpenObj D) : String :=
  JsonText.dump (D := D) <| .object <|
    [("currencyCode", .string order.currencyCode), ("epic", .string order.epic),
      ("expiry", .string order.expiry), ("direction", .string order.direction),
      ("size", .float order.size), ("forceOpen", .bool order.forceOpen),
      ("guaranteedStop", .bool order.guaranteedStop), ("orderType", .string order.orderType)] ++
    (if order.stopDistance > 0 then [("stopDistance", .integer order.stopDistance)] else []) ++
    (if order.limitDistance > 0 then [("limitDistance", .integer order.limitDistance)] else []) ++
    (if order.dealReference = "" then [] else [("dealReference", .string order.dealReference)])

def encodeTradeClose [JsonText D] (close : TradeCloseObj D) : String :=
  JsonText.dump (D := D) <| .object
    [("orderType", .string close.orderType), ("direction", .string close.direction),
      ("dealId", .string close.dealId), ("size", .float close.size)]

/-- The text of a field, when the field is there and is a string. -/
def stringField (fields : List (String × Json D)) (key : String) : Option String :=
  match fields.lookup key with
  | some (.string s) => some s
  | _ => none

variable (D) in
/-- The fields of a body that is an object. -/
def parseObject [JsonText D] (body : String) : Option (List (String × Json D)) :=
  match JsonText.parse body with
  | some (.object fields) => some fields
  | _ => none

variable (D) in
def parsePositionResponse [JsonText D] (body : String) : Option IGPositionResponseObject :=
  (parseObject D body).map fun fields =>
    { dealReference := (stringField fields "dealReference").getD ""
      errorCode := stringField fields "errorCode" }

variable (D) in
def parseDealConfirmation [JsonText D] (body : String) : Option DealConfirmation :=
  (parseObject D body).map fun fields =>
    { dealId := (stringField fields "dealId").getD ""
      dealReference := (stringField fields "dealReference").getD ""
      dealStatus := (stringField fields "dealStatus").getD ""
      reason := (stringField fields "reason").getD "" }

def closingDirection (openBrokerDirection : String) : String :=
  if openBrokerDirection = "BUY" then "SELL" else "BUY"

/-! ## Requests and what they come to -/

abbrev Headers := List (String × String)

structure HttpResponse where
  status : ℤ
  body : String
  deriving DecidableEq

structure Auth where
  url : String
  apiKey : String
  cst : String
  xSecurityToken : String
  deriving DecidableEq

structure RequestOptions where
  dealKey : String := ""
  riskReducing : Bool := false
  transportRetries : ℕ := 2
  deriving DecidableEq

/-- What became of a guarded request: never sent, sent and no answer, or answered. -/
inductive RequestOutcome
  | refused (detail : String)
  | transportFailed (detail : String)
  | responded (response : HttpResponse)
  deriving DecidableEq

/-- The request path under the open and the close call. -/
abbrev RequestFn (m : Type → Type) :=
  (path method jsonBody : String) → (extraHeaders : Headers) → (options : RequestOptions) →
    m RequestOutcome

/-- An answer worth another try: a server error or a timeout. -/
def HttpResponse.Transient (response : HttpResponse) : Prop :=
  500 ≤ response.status ∨ response.status = 408

instance (response : HttpResponse) : Decidable response.Transient :=
  inferInstanceAs (Decidable (_ ∨ _))

/-! ## The gate -/

inductive GateRefusal
  | duplicateDeal
  | duplicateUnknown
  | budgetUnknown
  | rateLimited
  deriving DecidableEq

def kMaxRequestsPerMinute : ℤ := 30

/-- Why the gate refuses, if it does; a marker or a count that could not be read is `none`. -/
def gatePolicy (duplicate : Option Bool) (requestsMade : Option ℤ) (riskReducing : Bool) :
    Option GateRefusal :=
  if duplicate = some true then some .duplicateDeal
  else if riskReducing then none
  else
    match duplicate, requestsMade with
    | none, _ => some .duplicateUnknown
    | some _, none => some .budgetUnknown
    | some _, some made => if made > kMaxRequestsPerMinute then some .rateLimited else none

def refusalReason : GateRefusal → String
  | .duplicateDeal => "duplicateDeal"
  | .duplicateUnknown => "duplicateUnknown"
  | .budgetUnknown => "budgetUnknown"
  | .rateLimited => "rateLimit"

/-- The only refusal a risk-reducing request can meet is that of its own marker. -/
theorem gatePolicy_refuses {duplicate : Option Bool} {requestsMade : Option ℤ}
    {riskReducing : Bool} {refusal : GateRefusal}
    (h : gatePolicy duplicate requestsMade riskReducing = some refusal) :
    duplicate = some true ∨ riskReducing = false := by
  unfold gatePolicy at h
  split_ifs at h with hmarker hreducing
  · exact .inl hmarker
  · exact .inr (Bool.eq_false_iff.mpr hreducing)

/-! ## The guarded request path -/

/-- What the calls to the broker ask of the world. -/
inductive BrokerCommand
  | readClock
  | isDuplicateDeal (dealKey : String)
  | currentMinuteOfHour
  | requestsMade (minute : ℤ)
  | recordRequest (minute : ℤ)
  | recordDealRequest (dealKey : String)
  | pullAuth
  | attempt (auth : Auth) (path method jsonBody : String) (extraHeaders : Headers)
  | removePosition (strategyUuid dealReference : String)
  deriving DecidableEq

/-- The gate answers `none` when the store is out of reach; the credentials and the exchange can
throw. -/
abbrev BrokerCommand.Answer : BrokerCommand → Type
  | .readClock => ℤ
  | .isDuplicateDeal _ => Option Bool
  | .currentMinuteOfHour => ℤ
  | .requestsMade _ => Option ℤ
  | .recordRequest _ => Bool
  | .recordDealRequest _ => Bool
  | .pullAuth => Except String (Option Auth)
  | .attempt _ _ _ _ _ => Except String (Option HttpResponse)
  | .removePosition _ _ => Bool

/-- A request is handed to the transport. -/
def BrokerCommand.IsAttempt : BrokerCommand → Prop
  | .attempt _ _ _ _ _ => True
  | _ => False

/-- The entry of a deal is taken out of the book. -/
def BrokerCommand.IsRemoval : BrokerCommand → Prop
  | .removePosition _ _ => True
  | _ => False

/-- The commands that neither reach the broker nor touch the book. -/
def BrokerCommand.OfGate : BrokerCommand → Prop
  | .attempt _ _ _ _ _ => False
  | .removePosition _ _ => False
  | _ => True

theorem BrokerCommand.OfGate.not_isAttempt {command : BrokerCommand} (h : command.OfGate) :
    ¬ command.IsAttempt := by
  cases command <;> simp_all [OfGate, IsAttempt]

theorem BrokerCommand.OfGate.not_isRemoval {command : BrokerCommand} (h : command.OfGate) :
    ¬ command.IsRemoval := by
  cases command <;> simp_all [OfGate, IsRemoval]

abbrev BrokerProgram := Program BrokerCommand BrokerCommand.Answer

abbrev BrokerExchange := Program.Exchange BrokerCommand BrokerCommand.Answer

abbrev BrokerPeer := Program.Peer BrokerCommand BrokerCommand.Answer

/-- What came back of each attempt, in order. -/
def answers (trace : List BrokerExchange) : List (Except String (Option HttpResponse)) :=
  trace.filterMap fun
    | ⟨.attempt _ _ _ _ _, answer⟩ => some answer
    | _ => none

/-- An answer that was received and not tried again: it is not transient, or it is the last. -/
def Definite (trace : List BrokerExchange) (response : HttpResponse) : Prop :=
  (.ok (some response) ∈ answers trace ∧ ¬ response.Transient) ∨
    (answers trace).getLast? = some (.ok (some response))

theorem answers_append (trace trace' : List BrokerExchange) :
    answers (trace ++ trace') = answers trace ++ answers trace' :=
  List.filterMap_append

theorem answers_eq_nil {trace : List BrokerExchange}
    (h : ∀ exchange ∈ trace, ¬ exchange.command.IsAttempt) : answers trace = [] := by
  rw [answers, List.filterMap_eq_nil_iff]
  rintro ⟨command, answer⟩ he
  cases command with
  | attempt auth path method jsonBody extraHeaders => exact (h _ he trivial).elim
  | _ => rfl

/-- A program that may throw. -/
abbrev BrokerCall := ExceptT String BrokerProgram

namespace BrokerCall

def issue (command : BrokerCommand) : BrokerCall command.Answer :=
  ExceptT.lift (Program.call command .done)

def pullAuth : BrokerCall (Option Auth) := ExceptT.mk (.call .pullAuth .done)

def attempt (auth : Auth) (path method jsonBody : String) (extraHeaders : Headers) :
    BrokerCall (Option HttpResponse) :=
  ExceptT.mk (.call (.attempt auth path method jsonBody extraHeaders) .done)

/-- One exchange, tried again when it was lost or its answer was transient. -/
def execute (auth : Auth) (path method jsonBody : String) (extraHeaders : Headers) :
    (maxRetries : ℕ) → BrokerCall (Option HttpResponse)
  | 0 => attempt auth path method jsonBody extraHeaders
  | maxRetries + 1 => do
    match ← attempt auth path method jsonBody extraHeaders with
    | none => execute auth path method jsonBody extraHeaders maxRetries
    | some response =>
      if response.Transient then execute auth path method jsonBody extraHeaders maxRetries
      else return some response

/-- Past the gate a request is recorded, given its credentials and exchanged. -/
def recordAndSend (minute : ℤ) : RequestFn BrokerCall :=
  fun path method jsonBody extraHeaders options => do
    let _ ← issue (.recordRequest minute)
    let _ ← issue (.recordDealRequest options.dealKey)
    match ← pullAuth with
    | none => return .refused "noAuthSession"
    | some auth =>
      match ← execute auth path method jsonBody extraHeaders options.transportRetries with
      | none => return .transportFailed "transport failed"
      | some response => return .responded response

/-- With the marker read, the budget is read and the policy decides. -/
def applyPolicy (duplicate : Option Bool) : RequestFn BrokerCall :=
  fun path method jsonBody extraHeaders options => do
    let minute ← issue .currentMinuteOfHour
    let made ← issue (.requestsMade minute)
    match gatePolicy duplicate made options.riskReducing with
    | some refusal => return .refused (refusalReason refusal)
    | none => recordAndSend minute path method jsonBody extraHeaders options

/-- The guarded request path; a request without a key has no marker to read. -/
def request : RequestFn BrokerCall := fun path method jsonBody extraHeaders options =>
  if options.dealKey = "" then applyPolicy (some false) path method jsonBody extraHeaders options
  else do
    let duplicate ← issue (.isDuplicateDeal options.dealKey)
    applyPolicy duplicate path method jsonBody extraHeaders options

variable {trace : List BrokerExchange}

theorem yields_issue_bind {α : Type} {command : BrokerCommand}
    {f : command.Answer → BrokerCall α} {result : Except String α} :
    (issue command >>= f).run.Yields trace result ↔
      ∃ answer rest, trace = ⟨command, answer⟩ :: rest ∧ (f answer).run.Yields rest result :=
  Iff.rfl

/-- Every exchange but the last was lost or transient, and the last one is the outcome. -/
theorem execute_yields {auth : Auth} {path method jsonBody : String} {extraHeaders : Headers}
    {outcome : Except String (Option HttpResponse)} : ∀ {maxRetries : ℕ} {trace},
    (execute auth path method jsonBody extraHeaders maxRetries).run.Yields trace outcome →
      ∃ retried, trace =
          retried ++ [⟨.attempt auth path method jsonBody extraHeaders, outcome⟩] ∧
        ∀ exchange ∈ retried, ∃ answer : Option HttpResponse,
          exchange = ⟨.attempt auth path method jsonBody extraHeaders, .ok answer⟩ ∧
            ∀ response ∈ answer, response.Transient := by
  intro maxRetries
  induction maxRetries with
  | zero =>
    rintro trace ⟨answer, _, rfl, rfl, rfl⟩
    exact ⟨[], rfl, fun _ he => (List.not_mem_nil he).elim⟩
  | succ maxRetries ih =>
    intro trace h
    have again (answer : Option HttpResponse) (hlost : ∀ response ∈ answer, response.Transient)
        {rest : List BrokerExchange}
        (h : (execute auth path method jsonBody extraHeaders maxRetries).run.Yields rest outcome) :
        ∃ retried, ⟨.attempt auth path method jsonBody extraHeaders, .ok answer⟩ :: rest =
            retried ++ [⟨.attempt auth path method jsonBody extraHeaders, outcome⟩] ∧
          ∀ exchange ∈ retried, ∃ answer : Option HttpResponse,
            exchange = ⟨.attempt auth path method jsonBody extraHeaders, .ok answer⟩ ∧
              ∀ response ∈ answer, response.Transient := by
      obtain ⟨retried, rfl, hretried⟩ := ih h
      refine ⟨_ :: retried, rfl, fun exchange he => ?_⟩
      rcases List.mem_cons.mp he with rfl | he
      · exact ⟨answer, rfl, hlost⟩
      · exact hretried exchange he
    rw [execute, Program.yields_except_bind] at h
    rcases h with ⟨answer, _, rest, rfl, ⟨_, _, rfl, rfl, rfl⟩, h⟩ | ⟨e, ⟨_, _, rfl, rfl, rfl⟩, rfl⟩
    · cases answer with
      | none => exact again none nofun h
      | some response =>
        dsimp only at h
        split at h
        · rename_i htransient
          exact again (some response) (fun _ hr => Option.mem_some_iff.mp hr ▸ htransient) h
        · obtain ⟨rfl, rfl⟩ := h
          exact ⟨[], rfl, fun _ he => (List.not_mem_nil he).elim⟩
    · exact ⟨[], rfl, fun _ he => (List.not_mem_nil he).elim⟩

/-- What an exchange came to, as the request path reports it. -/
def reported : Except String (Option HttpResponse) → Except String RequestOutcome
  | .error what => .error what
  | .ok none => .ok (.transportFailed "transport failed")
  | .ok (some response) => .ok (.responded response)

/-- The request was not sent: the gate refused it, or there were no credentials for it. -/
structure Withheld (options : RequestOptions) (trace : List BrokerExchange)
    (result : Except String RequestOutcome) : Prop where
  quiet : ∀ exchange ∈ trace, exchange.command.OfGate
  unsent : (∃ what, result = .error what) ∨ ∃ detail, result = .ok (.refused detail)
  reason : (⟨.isDuplicateDeal options.dealKey, some true⟩ : BrokerExchange) ∈ trace ∨
    options.riskReducing = false ∨
    ∃ answer, (⟨.pullAuth, answer⟩ : BrokerExchange) ∈ trace ∧ ∀ auth, answer ≠ .ok (some auth)

/-- The request was handed to the transport, and what came of it is reported. -/
def Sent (path method jsonBody : String) (extraHeaders : Headers)
    (trace : List BrokerExchange) (outcome : Except String (Option HttpResponse)) : Prop :=
  ∃ (auth : Auth) (gate retried : List BrokerExchange), trace =
      gate ++ (retried ++ [⟨.attempt auth path method jsonBody extraHeaders, outcome⟩]) ∧
    (∀ exchange ∈ gate, exchange.command.OfGate) ∧
    ∀ exchange ∈ retried, ∃ answer : Option HttpResponse,
      exchange = ⟨.attempt auth path method jsonBody extraHeaders, .ok answer⟩ ∧
        ∀ response ∈ answer, response.Transient

variable {path method jsonBody : String} {extraHeaders : Headers} {options : RequestOptions}
  {result : Except String RequestOutcome}

theorem Withheld.cons {exchange : BrokerExchange} (h : Withheld options trace result)
    (hc : exchange.command.OfGate) : Withheld options (exchange :: trace) result where
  quiet := List.forall_mem_cons.mpr ⟨hc, h.quiet⟩
  unsent := h.unsent
  reason := by
    rcases h.reason with hmarker | hopen | ⟨answer, hmem, hnone⟩
    · exact .inl (List.mem_cons_of_mem exchange hmarker)
    · exact .inr (.inl hopen)
    · exact .inr (.inr ⟨answer, List.mem_cons_of_mem exchange hmem, hnone⟩)

theorem Sent.cons {exchange : BrokerExchange} {outcome : Except String (Option HttpResponse)}
    (h : Sent path method jsonBody extraHeaders trace outcome) (hc : exchange.command.OfGate) :
    Sent path method jsonBody extraHeaders (exchange :: trace) outcome := by
  obtain ⟨auth, gate, retried, rfl, hgate, hretried⟩ := h
  exact ⟨auth, exchange :: gate, retried, rfl, List.forall_mem_cons.mpr ⟨hc, hgate⟩, hretried⟩

/-- A request that was sent ends in its last attempt and removes nothing. -/
theorem Sent.attempted {outcome : Except String (Option HttpResponse)}
    (h : Sent path method jsonBody extraHeaders trace outcome) :
    (∃ auth, (⟨.attempt auth path method jsonBody extraHeaders, outcome⟩ : BrokerExchange) ∈
      trace) ∧ ∀ exchange ∈ trace, ¬ exchange.command.IsRemoval := by
  obtain ⟨auth, gate, retried, rfl, hgate, hretried⟩ := h
  refine ⟨⟨auth, List.mem_append_right _ List.mem_concat_self⟩, fun exchange he => ?_⟩
  rcases List.mem_append.mp he with hasked | hsent
  · exact (hgate exchange hasked).not_isRemoval
  · rcases List.mem_append.mp hsent with hagain | hlast
    · obtain ⟨answer, rfl, -⟩ := hretried exchange hagain
      exact id
    · rw [List.mem_singleton.mp hlast]
      exact id

/-- What was received for good is the outcome. -/
theorem Sent.definite {outcome : Except String (Option HttpResponse)} {response : HttpResponse}
    (h : Sent path method jsonBody extraHeaders trace outcome) (hdefinite : Definite trace response) :
    outcome = .ok (some response) := by
  obtain ⟨auth, gate, retried, rfl, hgate, hretried⟩ := h
  have hgated : answers gate = [] := answers_eq_nil fun e he => (hgate e he).not_isAttempt
  have hlast : answers [⟨.attempt auth path method jsonBody extraHeaders, outcome⟩] = [outcome] :=
    rfl
  rw [Definite, answers_append, answers_append, hgated, hlast, List.nil_append] at hdefinite
  rcases hdefinite with ⟨hmem, hsettled⟩ | hlast
  · rcases List.mem_append.mp hmem with hearlier | hlast
    · obtain ⟨exchange, he, hanswer⟩ := List.mem_filterMap.mp hearlier
      obtain ⟨answer, rfl, htransient⟩ := hretried exchange he
      cases hanswer
      exact (hsettled (htransient response rfl)).elim
    · exact (List.mem_singleton.mp hlast).symm
  · rw [List.getLast?_concat] at hlast
    exact Option.some.inj hlast

/-- A request is withheld, or sent and its outcome reported. -/
def WithheldOrSent (path method jsonBody : String) (extraHeaders : Headers)
    (options : RequestOptions) (trace : List BrokerExchange)
    (result : Except String RequestOutcome) : Prop :=
  Withheld options trace result ∨ ∃ outcome,
    Sent path method jsonBody extraHeaders trace outcome ∧ result = reported outcome

theorem WithheldOrSent.cons {exchange : BrokerExchange}
    (h : WithheldOrSent path method jsonBody extraHeaders options trace result)
    (hc : exchange.command.OfGate) :
    WithheldOrSent path method jsonBody extraHeaders options (exchange :: trace) result := by
  rcases h with hheld | ⟨outcome, hsent, hresult⟩
  · exact .inl (hheld.cons hc)
  · exact .inr ⟨outcome, hsent.cons hc, hresult⟩

theorem recordAndSend_yields {minute : ℤ}
    (h : (recordAndSend minute path method jsonBody extraHeaders options).run.Yields trace
      result) :
    WithheldOrSent path method jsonBody extraHeaders options trace result := by
  rw [recordAndSend, yields_issue_bind] at h
  obtain ⟨recorded, _, rfl, h⟩ := h
  rw [yields_issue_bind] at h
  obtain ⟨marked, _, rfl, h⟩ := h
  refine WithheldOrSent.cons (WithheldOrSent.cons ?_ trivial) trivial
  rw [Program.yields_except_bind] at h
  rcases h with
    ⟨answer, _, rest, rfl, ⟨_, _, rfl, rfl, rfl⟩, h⟩ | ⟨what, ⟨_, _, rfl, rfl, rfl⟩, rfl⟩
  · cases answer with
    | none =>
      obtain ⟨rfl, rfl⟩ := h
      exact .inl ⟨fun _ he => List.mem_singleton.mp he ▸ trivial, .inr ⟨_, rfl⟩,
        .inr (.inr ⟨.ok none, List.mem_singleton_self _, nofun⟩)⟩
    | some auth =>
      refine WithheldOrSent.cons ?_ trivial
      dsimp only at h
      rw [Program.yields_except_bind] at h
      rcases h with ⟨outcome, sent, _, rfl, hsent, h⟩ | ⟨what, hsent, rfl⟩
      · obtain ⟨retried, rfl, hretried⟩ := execute_yields hsent
        refine .inr ⟨.ok outcome, ?_⟩
        cases outcome with
        | none =>
          obtain ⟨rfl, rfl⟩ := h
          exact ⟨⟨auth, [], retried, List.append_nil _, nofun, hretried⟩, rfl⟩
        | some response =>
          obtain ⟨rfl, rfl⟩ := h
          exact ⟨⟨auth, [], retried, List.append_nil _, nofun, hretried⟩, rfl⟩
      · obtain ⟨retried, rfl, hretried⟩ := execute_yields hsent
        exact .inr ⟨.error what, ⟨auth, [], retried, rfl, nofun, hretried⟩, rfl⟩
  · exact .inl ⟨fun _ he => List.mem_singleton.mp he ▸ trivial, .inl ⟨what, rfl⟩,
      .inr (.inr ⟨.error what, List.mem_singleton_self _, nofun⟩)⟩

/-- What the policy refuses is either marked or no close. -/
theorem applyPolicy_yields {duplicate : Option Bool}
    (h : (applyPolicy duplicate path method jsonBody extraHeaders options).run.Yields trace
      result) :
    (duplicate = some true ∧ (∀ exchange ∈ trace, exchange.command.OfGate) ∧
        ∃ detail, result = .ok (.refused detail)) ∨
      WithheldOrSent path method jsonBody extraHeaders options trace result := by
  rw [applyPolicy, yields_issue_bind] at h
  obtain ⟨minute, _, rfl, h⟩ := h
  rw [yields_issue_bind] at h
  obtain ⟨made, rest, rfl, h⟩ := h
  cases hpolicy : gatePolicy duplicate made options.riskReducing with
  | none =>
    rw [hpolicy] at h
    refine .inr (WithheldOrSent.cons (WithheldOrSent.cons ?_ trivial) trivial)
    exact recordAndSend_yields h
  | some refusal =>
    rw [hpolicy] at h
    obtain ⟨rfl, rfl⟩ := h
    have hquiet : ∀ exchange ∈ ([⟨.currentMinuteOfHour, minute⟩, ⟨.requestsMade minute, made⟩] :
        List BrokerExchange), exchange.command.OfGate := by
      simp [BrokerCommand.OfGate]
    rcases gatePolicy_refuses hpolicy with hmarker | hopen
    · exact .inl ⟨hmarker, hquiet, _, rfl⟩
    · exact .inr (.inl ⟨hquiet, .inr ⟨_, rfl⟩, .inr (.inl hopen)⟩)

theorem request_yields
    (h : (request path method jsonBody extraHeaders options).run.Yields trace result) :
    WithheldOrSent path method jsonBody extraHeaders options trace result := by
  unfold request at h
  split at h
  · exact (applyPolicy_yields h).resolve_left fun hmarked => nomatch hmarked.1
  · rw [yields_issue_bind] at h
    obtain ⟨duplicate, rest, rfl, h⟩ := h
    rcases applyPolicy_yields h with ⟨rfl, hquiet, hrefused⟩ | hrest
    · exact .inl ⟨List.forall_mem_cons.mpr ⟨trivial, hquiet⟩, .inr hrefused,
        .inl List.mem_cons_self⟩
    · exact hrest.cons trivial

end BrokerCall

end Live

end BacktestEngine

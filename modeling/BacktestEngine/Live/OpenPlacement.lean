import BacktestEngine.Live.BrokerRequests

/-! # Placing an open order

The order is posted once and never sent again. When the answer leaves its fate open,
and after a clean answer to learn the deal's id, the confirms are polled; a confirm
that never resolves fails an ambiguous order and keeps a clean one accepted.
-/

namespace BacktestEngine

namespace Live

structure OpenResult where
  status : OpenStatus
  dealReference : String := ""
  dealId : String := ""
  reason : String := ""
  deriving DecidableEq

variable {D : Type} [JsonText D]

variable (D) in
/-- The confirm an answer carries, if it is a readable success. -/
def confirmation : RequestOutcome → Option DealConfirmation
  | .responded response =>
    if response.status = 200 then parseDealConfirmation D response.body else none
  | _ => none

/-- What a confirm decides; any other status is still pending. -/
def resolve (confirmReference reportReference : String) (confirm : DealConfirmation) :
    Option OpenResult :=
  if confirm.dealStatus = "REJECTED" then
    some
      { status := .rejected
        dealReference := confirmReference
        reason := if confirm.reason = "" then "REJECTED" else confirm.reason }
  else if confirm.dealStatus = "ACCEPTED" then
    some { status := .accepted, dealReference := reportReference, dealId := confirm.dealId }
  else none

section

variable {m : Type → Type} [Monad m] (request : RequestFn m)

variable (D) in
/-- Ask for the confirm until one decides, or the attempts are used up. -/
def pollConfirm (confirmReference reportReference : String) :
    (attempts : ℕ) → m (Option OpenResult)
  | 0 => pure none
  | attempts + 1 => do
    let confirm ← request ("/confirms/" ++ confirmReference) "GET" "" [("Version", "1")] {}
    match (confirmation D confirm).bind (resolve confirmReference reportReference) with
    | some result => return some result
    | none => pollConfirm confirmReference reportReference attempts

/-- The order may or may not be with the broker: only a confirm under our own reference tells. -/
def resolveAmbiguous (order : TradeOpenObj D) (confirmAttempts : ℕ) (how : String) :
    m OpenResult :=
  if order.dealReference = "" then
    return { status := .failed
             reason := "ambiguous open (" ++ how ++
               ") with no dealReference to confirm under — not re-sent" }
  else do
    match ← pollConfirm D request order.dealReference order.dealReference confirmAttempts with
    | some resolved => return resolved
    | none =>
      return { status := .failed
               reason := "unconfirmed after ambiguous open (" ++ how ++ ") — not re-sent" }

/-- The broker took the order: its echo, or else our reference, names the deal to confirm. -/
def resolveEchoed (order : TradeOpenObj D) (confirmAttempts : ℕ)
    (parsed : IGPositionResponseObject) : m OpenResult := do
  let reference := if parsed.dealReference = "" then order.dealReference else parsed.dealReference
  match ← pollConfirm D request reference parsed.dealReference confirmAttempts with
  | some resolved => return resolved
  | none => return { status := .accepted, dealReference := parsed.dealReference }

def makeOpen (confirmAttempts : ℕ) (order : TradeOpenObj D) (context : OrderContext) :
    m OpenResult := do
  let outcome ← request "/positions/otc" "POST" (encodeTradeOpen order) []
    { dealKey := context.strategyUuid ++ context.openDirection, transportRetries := 0 }
  match outcome with
  | .refused detail => return { status := .failed, reason := "refused: " ++ detail }
  | .transportFailed detail => resolveAmbiguous request order confirmAttempts detail
  | .responded response =>
    if response.Transient then
      resolveAmbiguous request order confirmAttempts ("HTTP " ++ toString response.status)
    else if response.status ≠ 200 then
      return { status := .failed
               reason := "HTTP " ++ toString response.status ++ ": " ++ response.body }
    else
      match parsePositionResponse D response.body with
      | none =>
        return { status := .failed, reason := "failed to parse response: " ++ response.body }
      | some parsed =>
        match parsed.errorCode.filter (· ≠ "") with
        | some errorCode => return { status := .failed, reason := "errorCode: " ++ errorCode }
        | none => resolveEchoed request order confirmAttempts parsed

end

/-! ## The requests of an open -/

/-- A request as it is given to the request path. -/
structure BrokerRequest where
  path : String
  method : String
  jsonBody : String
  extraHeaders : Headers
  options : RequestOptions
  deriving DecidableEq

abbrev RequestProgram := Program BrokerRequest fun _ => RequestOutcome

abbrev RequestExchange := Program.Exchange BrokerRequest fun _ => RequestOutcome

/-- The request path, with what becomes of each request left open. -/
def ask : RequestFn RequestProgram := fun path method jsonBody extraHeaders options =>
  .call ⟨path, method, jsonBody, extraHeaders, options⟩ .done

def openPost (order : TradeOpenObj D) (context : OrderContext) : BrokerRequest where
  path := "/positions/otc"
  method := "POST"
  jsonBody := encodeTradeOpen order
  extraHeaders := []
  options := { dealKey := context.strategyUuid ++ context.openDirection, transportRetries := 0 }

def confirmGet (confirmReference : String) : BrokerRequest where
  path := "/confirms/" ++ confirmReference
  method := "GET"
  jsonBody := ""
  extraHeaders := [("Version", "1")]
  options := {}

variable (D) in
/-- One of the polls was answered with such a confirm. -/
def Said (p : DealConfirmation → Prop) (polls : List RequestExchange) : Prop :=
  ∃ poll ∈ polls, ∃ confirm ∈ confirmation D poll.answer, p confirm

variable (D) in
/-- A success whose body is readable and carries no error. -/
def Clean (outcome : RequestOutcome) : Prop :=
  ∃ response parsed, outcome = .responded response ∧ response.status = 200 ∧
    parsePositionResponse D response.body = some parsed ∧
    ∀ errorCode ∈ parsed.errorCode, errorCode = ""

/-- No answer, a server error or a timeout: the order may or may not be with the broker. -/
def Ambiguous : RequestOutcome → Prop
  | .refused _ => False
  | .transportFailed _ => True
  | .responded response => 500 ≤ response.status ∨ response.status = 408

variable (D) in
/-- The fate of an open order whose post had this outcome and was followed by these polls. -/
structure Placement (confirmAttempts : ℕ) (outcome : RequestOutcome)
    (polls : List RequestExchange) (result : OpenResult) : Prop where
  atMost : polls.length ≤ confirmAttempts
  confirms : ∀ poll ∈ polls, ∃ confirmReference, poll.command = confirmGet confirmReference
  rejected : result.status = .rejected ↔ Said D (·.dealStatus = "REJECTED") polls
  accepted : result.status = .accepted ↔ Said D (·.dealStatus = "ACCEPTED") polls ∨
    Clean D outcome ∧ ¬ Said D (·.dealStatus = "REJECTED") polls
  failed : result.status = .failed ↔ ¬ Said D (·.dealStatus = "REJECTED") polls ∧
    ¬ Said D (·.dealStatus = "ACCEPTED") polls ∧ ¬ Clean D outcome
  ambiguous : Ambiguous outcome → result.status = .accepted →
    Said D (·.dealStatus = "ACCEPTED") polls
  nameless : result.status = .accepted → result.dealId = "" →
    (Clean D outcome ∧ ∀ status ∈ ["ACCEPTED", "REJECTED"],
        ¬ Said D (·.dealStatus = status) polls) ∨
      Said D (fun confirm => confirm.dealStatus = "ACCEPTED" ∧ confirm.dealId = "") polls

/-! ## Polling -/

variable {confirmReference reportReference : String} {attempts : ℕ} {polls : List RequestExchange}
  {p : DealConfirmation → Prop} {outcome : RequestOutcome} {result : OpenResult}
  {order : TradeOpenObj D} {context : OrderContext}

@[simp] theorem not_said_nil : ¬ Said D p [] := by
  rintro ⟨poll, hpoll, -⟩
  exact List.not_mem_nil hpoll

theorem said_cons {poll : RequestExchange} :
    Said D p (poll :: polls) ↔ (∃ confirm ∈ confirmation D poll.answer, p confirm) ∨
      Said D p polls := by
  simp only [Said, List.exists_mem_cons_iff]

variable (D) in
/-- What a poll of the confirms has found out. -/
structure Polled (confirmReference : String) (attempts : ℕ) (polls : List RequestExchange)
    (resolved : Option OpenResult) : Prop where
  atMost : polls.length ≤ attempts
  confirms : ∀ poll ∈ polls, poll.command = confirmGet confirmReference
  rejected : (∃ result ∈ resolved, result.status = .rejected) ↔
    Said D (·.dealStatus = "REJECTED") polls
  accepted : (∃ result ∈ resolved, result.status = .accepted) ↔
    Said D (·.dealStatus = "ACCEPTED") polls
  decided : ∀ result ∈ resolved, result.status ≠ .failed
  named : ∀ result ∈ resolved, result.status = .accepted →
    Said D (fun confirm => confirm.dealStatus = "ACCEPTED" ∧ confirm.dealId = result.dealId) polls

theorem yields_ask_bind {α : Type} {path method jsonBody : String} {extraHeaders : Headers}
    {options : RequestOptions} {f : RequestOutcome → RequestProgram α} {a : α} :
    (ask path method jsonBody extraHeaders options >>= f).Yields polls a ↔ ∃ answer rest,
      polls = ⟨⟨path, method, jsonBody, extraHeaders, options⟩, answer⟩ :: rest ∧
        (f answer).Yields rest a :=
  Iff.rfl

/-- A confirm that decides is the outcome of its poll. -/
theorem polled_resolved {answer : RequestOutcome} {confirm : DealConfirmation}
    (hconfirm : confirm ∈ confirmation D answer)
    (h : resolve confirmReference reportReference confirm = some result) :
    Polled D confirmReference (attempts + 1) [⟨confirmGet confirmReference, answer⟩]
      (some result) := by
  have hsaid : ∀ p, Said D p [⟨confirmGet confirmReference, answer⟩] ↔ p confirm := by
    intro p
    rw [said_cons, Option.mem_def.mp hconfirm]
    simp
  have hone : ∀ status, (∃ r ∈ some result, r.status = status) ↔ result.status = status := by
    simp
  unfold resolve at h
  split at h
  · rename_i hrejected
    cases h
    refine ⟨Nat.le_add_left 1 attempts, fun _ he => by rw [List.mem_singleton.mp he], ?_, ?_,
      by simp, by simp⟩
    · rw [hone, hsaid]
      exact iff_of_true rfl hrejected
    · rw [hone, hsaid, hrejected]
      exact iff_of_false nofun (by decide)
  · rename_i hrejected
    split_ifs at h with haccepted
    cases h
    refine ⟨Nat.le_add_left 1 attempts, fun _ he => by rw [List.mem_singleton.mp he], ?_, ?_,
      by simp, ?_⟩
    · rw [hone, hsaid]
      exact iff_of_false nofun hrejected
    · rw [hone, hsaid]
      exact iff_of_true rfl haccepted
    · intro result hresult _
      cases hresult
      rw [hsaid]
      exact ⟨haccepted, rfl⟩

/-- A poll that decides nothing leaves the outcome to the polls after it. -/
theorem Polled.cons {answer : RequestOutcome} {resolved : Option OpenResult}
    (h : Polled D confirmReference attempts polls resolved)
    (hpending : (confirmation D answer).bind (resolve confirmReference reportReference) = none) :
    Polled D confirmReference (attempts + 1) (⟨confirmGet confirmReference, answer⟩ :: polls)
      resolved := by
  have hsilent : ∀ confirm ∈ confirmation D answer,
      confirm.dealStatus ≠ "REJECTED" ∧ confirm.dealStatus ≠ "ACCEPTED" := by
    intro confirm hconfirm
    have hnone := Option.bind_eq_none_iff.mp hpending confirm hconfirm
    unfold resolve at hnone
    split_ifs at hnone with hrejected haccepted
    exact ⟨hrejected, haccepted⟩
  refine ⟨Nat.succ_le_succ h.atMost, List.forall_mem_cons.mpr ⟨rfl, h.confirms⟩, ?_, ?_, h.decided,
    fun result hresult haccepted => said_cons.mpr (.inr (h.named result hresult haccepted))⟩
  · rw [h.rejected, said_cons, or_iff_right]
    exact fun ⟨confirm, hconfirm, hsaid⟩ => (hsilent confirm hconfirm).1 hsaid
  · rw [h.accepted, said_cons, or_iff_right]
    exact fun ⟨confirm, hconfirm, hsaid⟩ => (hsilent confirm hconfirm).2 hsaid

/-- The confirms are asked for at most as often as allowed, and the first one that decides is the
outcome of the poll. -/
theorem pollConfirm_yields {resolved : Option OpenResult}
    (h : (pollConfirm D ask confirmReference reportReference attempts).Yields polls resolved) :
    Polled D confirmReference attempts polls resolved := by
  induction attempts generalizing polls with
  | zero =>
    obtain ⟨rfl, rfl⟩ := h
    exact ⟨le_rfl, nofun, by simp, by simp, nofun, nofun⟩
  | succ attempts ih =>
    rw [pollConfirm, yields_ask_bind] at h
    obtain ⟨answer, rest, rfl, h⟩ := h
    cases hresolved : (confirmation D answer).bind (resolve confirmReference reportReference) with
    | some result =>
      rw [hresolved] at h
      obtain ⟨rfl, rfl⟩ := h
      obtain ⟨confirm, hconfirm, hresult⟩ := Option.bind_eq_some_iff.mp hresolved
      exact polled_resolved hconfirm hresult
    | none =>
      rw [hresolved] at h
      exact (ih h).cons hresolved

/-! ## Placing -/

/-- An order that is not ambiguous and was not taken fails at once. -/
theorem placement_unpolled {confirmAttempts : ℕ} (hclean : ¬ Clean D outcome)
    (hfailed : result.status = .failed) : Placement D confirmAttempts outcome [] result := by
  constructor <;> simp [hclean, hfailed]

theorem Ambiguous.not_clean (h : Ambiguous outcome) : ¬ Clean D outcome := by
  rintro ⟨response, parsed, rfl, hstatus, -⟩
  rcases h with h | h <;> omega

/-- An order whose confirms were polled has the fate they tell, or else the one it falls back to. -/
theorem Polled.placement {confirmAttempts : ℕ} {resolved : Option OpenResult}
    (h : Polled D confirmReference confirmAttempts polls resolved) (fallback : OpenResult)
    (hfallback : Clean D outcome ∧ fallback.status = .accepted ∨
      ¬ Clean D outcome ∧ fallback.status = .failed) :
    Placement D confirmAttempts outcome polls (resolved.getD fallback) := by
  have hconfirms : ∀ poll ∈ polls, ∃ reference, poll.command = confirmGet reference :=
    fun poll hpoll => ⟨confirmReference, h.confirms poll hpoll⟩
  cases resolved with
  | none =>
    have hrejected : ¬ Said D (·.dealStatus = "REJECTED") polls := by
      rw [← h.rejected]
      exact fun ⟨_, hnone, _⟩ => nomatch hnone
    have haccepted : ¬ Said D (·.dealStatus = "ACCEPTED") polls := by
      rw [← h.accepted]
      exact fun ⟨_, hnone, _⟩ => nomatch hnone
    rw [Option.getD_none]
    rcases hfallback with ⟨hclean, hstatus⟩ | ⟨hclean, hstatus⟩
    · exact ⟨h.atMost, hconfirms, by simp [hstatus, hrejected],
        by simp [hstatus, hclean, hrejected], by simp [hstatus, hclean],
        fun hambiguous => (hambiguous.not_clean hclean).elim,
        fun _ _ => .inl ⟨hclean, by simp [hrejected, haccepted]⟩⟩
    · exact ⟨h.atMost, hconfirms, by simp [hstatus, hrejected],
        by simp [hstatus, hclean, haccepted], by simp [hstatus, hclean, hrejected, haccepted],
        by simp [hstatus], by simp [hstatus]⟩
  | some result =>
    have hrejected : result.status = .rejected ↔ Said D (·.dealStatus = "REJECTED") polls := by
      rw [← h.rejected]
      simp
    have haccepted : result.status = .accepted ↔ Said D (·.dealStatus = "ACCEPTED") polls := by
      rw [← h.accepted]
      simp
    have hdecided : result.status = .rejected ∨ result.status = .accepted := by
      have hnot := h.decided result rfl
      cases hstatus : result.status <;> simp_all
    rw [Option.getD_some]
    refine ⟨h.atMost, hconfirms, hrejected, ?_, ?_, fun _ => haccepted.mp, fun hstatus hempty => ?_⟩
    · rw [haccepted, ← hrejected]
      refine ⟨.inl, ?_⟩
      rintro (hsaid | ⟨-, hnot⟩)
      · exact hsaid
      · exact haccepted.mp (hdecided.resolve_left hnot)
    · rw [← hrejected, ← haccepted]
      rcases hdecided with hstatus | hstatus <;> simp [hstatus]
    · obtain ⟨poll, hpoll, confirm, hconfirm, hsaid, hname⟩ := h.named result rfl hstatus
      exact .inr ⟨poll, hpoll, confirm, hconfirm, hsaid, hname.trans hempty⟩

theorem resolveAmbiguous_yields {confirmAttempts : ℕ} {how : String}
    (h : (resolveAmbiguous ask order confirmAttempts how).Yields polls result)
    (hclean : ¬ Clean D outcome) : Placement D confirmAttempts outcome polls result := by
  unfold resolveAmbiguous at h
  split at h
  · obtain ⟨rfl, rfl⟩ := h
    exact placement_unpolled hclean rfl
  · obtain ⟨resolved, first, rest, rfl, hpolled, h⟩ := Program.yields_bind.mp h
    have hpolled := pollConfirm_yields hpolled
    cases resolved with
    | none =>
      obtain ⟨rfl, rfl⟩ := h
      rw [List.append_nil]
      exact hpolled.placement _ (.inr ⟨hclean, rfl⟩)
    | some resolved =>
      obtain ⟨rfl, rfl⟩ := h
      rw [List.append_nil]
      exact hpolled.placement { status := .failed } (.inr ⟨hclean, rfl⟩)

theorem resolveEchoed_yields {confirmAttempts : ℕ} {parsed : IGPositionResponseObject}
    (h : (resolveEchoed ask order confirmAttempts parsed).Yields polls result)
    (hclean : Clean D outcome) : Placement D confirmAttempts outcome polls result := by
  obtain ⟨resolved, first, rest, rfl, hpolled, h⟩ := Program.yields_bind.mp h
  have hpolled := pollConfirm_yields hpolled
  cases resolved with
  | none =>
    obtain ⟨rfl, rfl⟩ := h
    rw [List.append_nil]
    exact hpolled.placement _ (.inl ⟨hclean, rfl⟩)
  | some resolved =>
    obtain ⟨rfl, rfl⟩ := h
    rw [List.append_nil]
    exact hpolled.placement { status := .accepted } (.inl ⟨hclean, rfl⟩)

/-- The order is posted first and once, and everything after it is a poll that tells its fate. -/
theorem makeOpen_yields {confirmAttempts : ℕ} {trace : List RequestExchange}
    (h : (makeOpen ask confirmAttempts order context).Yields trace result) :
    ∃ outcome polls, trace = ⟨openPost order context, outcome⟩ :: polls ∧
      Placement D confirmAttempts outcome polls result := by
  rw [makeOpen, yields_ask_bind] at h
  obtain ⟨outcome, polls, rfl, h⟩ := h
  refine ⟨outcome, polls, rfl, ?_⟩
  cases outcome with
  | refused detail =>
    obtain ⟨rfl, rfl⟩ := h
    exact placement_unpolled nofun rfl
  | transportFailed detail => exact resolveAmbiguous_yields h nofun
  | responded response =>
    dsimp only at h
    split at h
    · rename_i htransient
      exact resolveAmbiguous_yields h (Ambiguous.not_clean htransient)
    · split at h
      · rename_i hstatus
        obtain ⟨rfl, rfl⟩ := h
        exact placement_unpolled (fun ⟨_, _, heq, hok, _⟩ => hstatus (by cases heq; exact hok)) rfl
      · rename_i hstatus
        cases hparsed : parsePositionResponse D response.body with
        | none =>
          rw [hparsed] at h
          obtain ⟨rfl, rfl⟩ := h
          exact placement_unpolled
            (fun ⟨_, _, heq, _, hsome, _⟩ => by cases heq; simp [hparsed] at hsome) rfl
        | some parsed =>
          rw [hparsed] at h
          dsimp only at h
          cases herror : parsed.errorCode.filter (· ≠ "") with
          | some errorCode =>
            rw [herror] at h
            obtain ⟨rfl, rfl⟩ := h
            obtain ⟨hcode, hnonempty⟩ := Option.filter_eq_some_iff.mp herror
            refine placement_unpolled ?_ rfl
            rintro ⟨_, _, heq, _, hsome, hempty⟩
            cases heq
            cases hparsed.symm.trans hsome
            exact (of_decide_eq_true hnonempty) (hempty errorCode hcode)
          | none =>
            rw [herror] at h
            refine resolveEchoed_yields h ⟨response, parsed, rfl, not_not.mp hstatus, hparsed, ?_⟩
            intro errorCode hcode
            have hnone := Option.filter_eq_none_iff.mp herror errorCode hcode
            simpa using hnone

/-- Whatever becomes of its requests, an open order is posted once and its fate is told by the
confirms, or by the clean answer to the post when no confirm decides. -/
theorem open_posted_once (confirmAttempts : ℕ) (order : TradeOpenObj D) (context : OrderContext)
    (peer : Program.Peer BrokerRequest fun _ => RequestOutcome) :
    ∃ outcome polls,
      ((makeOpen ask confirmAttempts order context).play peer).1 =
        ⟨openPost order context, outcome⟩ :: polls ∧
      Placement D confirmAttempts outcome polls
        ((makeOpen ask confirmAttempts order context).play peer).2 :=
  makeOpen_yields (Program.yields_play peer _)

/-- An order for one mini contract under our own reference. -/
def sampleOrder : TradeOpenObj ℚ where
  currencyCode := "GBP"
  epic := "CS.D.EURUSD.MINI.IP"
  direction := "BUY"
  size := 1
  stopDistance := 0
  limitDistance := 0
  dealReference := "REF-1"

def sampleContext : OrderContext where
  strategyUuid := "u-1"
  strategyName := "sample"
  symbol := "EURUSD"
  openDirection := "BUY"

/-- The JSON library on the bodies of the sample: the order, and a confirm that names no deal. -/
@[reducible] def sampleText : JsonText ℚ where
  parse body :=
    if body = "\x7b\"dealStatus\":\"ACCEPTED\"\x7d" then
      some (.object [("dealStatus", .string "ACCEPTED")])
    else none
  dump _ :=
    "\x7b\"currencyCode\":\"GBP\",\"dealReference\":\"REF-1\",\"direction\":\"BUY\"," ++
      "\"epic\":\"CS.D.EURUSD.MINI.IP\",\"expiry\":\"-\",\"forceOpen\":true," ++
      "\"guaranteedStop\":false,\"orderType\":\"MARKET\",\"size\":1.0\x7d"

/-- The answer to the post is lost, and the confirm accepts without naming the deal. -/
def lostPost : Program.Peer BrokerRequest fun _ => RequestOutcome := fun before _ =>
  if before.isEmpty then .transportFailed "transport failed"
  else .responded ⟨200, "\x7b\"dealStatus\":\"ACCEPTED\"\x7d"⟩

/-- An accepted order without a deal id need not have had a clean answer to its post. -/
theorem open_posted_once_nameless :
    let run := (@makeOpen ℚ sampleText RequestProgram _ ask 3 sampleOrder sampleContext).play
      lostPost
    ¬ ∃ outcome polls,
      run.1 = ⟨@openPost ℚ sampleText sampleOrder sampleContext, outcome⟩ :: polls ∧
      (run.2.status = .accepted → run.2.dealId = "" → @Clean ℚ sampleText outcome) := by
  rintro run ⟨outcome, polls, htrace, hclean⟩
  have houtcome : outcome = .transportFailed "transport failed" :=
    (congrArg Program.Exchange.answer (List.cons.inj htrace).1).symm
  obtain ⟨response, -, hresponse, -⟩ := hclean rfl rfl
  rw [houtcome] at hresponse
  cases hresponse

end Live

end BacktestEngine

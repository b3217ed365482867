import BacktestEngine.Live.BrokerRequests

/-! # Closing a position

A close goes through the guarded request path, and what came of it decides whether the
deal leaves the book: the broker took the close, or the exchange was lost. A close that
was never sent, or was answered with anything else, leaves the book as it is.
-/

namespace BacktestEngine

namespace Live

variable {D : Type} [JsonText D]

/-- A close as the channel is asked for it. -/
structure CloseRequest (D : Type) where
  strategyUuid : String
  strategyName : String
  symbol : String
  direction : Direction
  size : D
  dealId : String
  dealReference : String
  deriving DecidableEq

inductive CloseStatus
  | ok
  | gone
  | failed
  deriving DecidableEq

structure CloseResult where
  status : CloseStatus
  reason : String := ""
  deriving DecidableEq

variable (D) in
/-- What a close is taken for by what came of its request. -/
def closeResult : RequestOutcome → CloseResult
  | .refused detail => { status := .failed, reason := "refused: " ++ detail }
  | .transportFailed detail =>
    { status := .gone, reason := "no response after send (" ++ detail ++ ")" }
  | .responded response =>
    if response.status ≠ 200 then
      { status := .failed, reason := "HTTP " ++ toString response.status ++ ": " ++ response.body }
    else if (parsePositionResponse D response.body).isNone then
      { status := .failed, reason := "failed to parse response: " ++ response.body }
    else { status := .ok }

/-- The close of a deal, keyed on the deal and never refused for the budget. -/
def makeClose {m : Type → Type} [Monad m] (request : RequestFn m) (close : TradeCloseObj D)
    (_context : OrderContext) : m CloseResult := do
  let outcome ← request "/positions/otc" "POST" (encodeTradeClose close) [("_method", "DELETE")]
    { dealKey := "close#" ++ close.dealId, riskReducing := true }
  return closeResult D outcome

def closeOrder (request : CloseRequest D) : TradeCloseObj D where
  direction := closingDirection (brokerDirection request.direction)
  dealId := request.dealId
  size := request.size

def closeContext (request : CloseRequest D) : OrderContext where
  strategyUuid := request.strategyUuid
  strategyName := request.strategyName
  symbol := request.symbol
  openDirection := brokerDirection request.direction

/-- The deals whose close was accepted, each with the time until which another is suppressed. -/
abbrev RecentCloses := String → Option ℤ

/-- A throw on the way to the broker fails the close. -/
def caught : Except String CloseResult → CloseResult
  | .ok result => result
  | .error what => { status := .failed, reason := what }

/-- Take the entry of the request out of the book; without a reference there is none. -/
def removeBooked (request : CloseRequest D) : BrokerProgram Unit :=
  if request.dealReference = "" then return ()
  else do
    let _ ← Program.call (.removePosition request.strategyUuid request.dealReference) .done

/-- What the channel does about the result of a close it asked for at `now`. -/
def settleClose (closedTtl now : ℤ) (recentCloses : RecentCloses) (request : CloseRequest D)
    (result : CloseResult) : BrokerProgram (Bool × RecentCloses) :=
  match result.status with
  | .ok => do
    removeBooked request
    return (true, Function.update recentCloses request.dealId (some (now + closedTtl)))
  | .gone => do
    removeBooked request
    return (false, recentCloses)
  | .failed => return (false, recentCloses)

/-- The channel's close, with the recent closes it leaves behind. -/
def closePosition (closedTtl : ℤ) (recentCloses : RecentCloses) (request : CloseRequest D) :
    BrokerProgram (Bool × RecentCloses) :=
  if request.dealId = "" then return (false, recentCloses)
  else do
    let now ← Program.call .readClock .done
    if (recentCloses request.dealId).any (now < ·) then return (false, recentCloses)
    else
      let recentCloses := Function.update recentCloses request.dealId none
      let result ←
        (makeClose BrokerCall.request (closeOrder request) (closeContext request)).run
      settleClose closedTtl now recentCloses request (caught result)

/-! ## What one close exchanges -/

variable {closedTtl now : ℤ} {recentCloses : RecentCloses} {request : CloseRequest D}
  {trace : List BrokerExchange} {ended : Bool × RecentCloses}

/-- The close asks for its request and reads the outcome. -/
theorem makeClose_yields {result : Except String CloseResult}
    (h : (makeClose BrokerCall.request (closeOrder request) (closeContext request)).run.Yields
      trace result) :
    ∃ outcome, result = outcome.map (closeResult D) ∧
      BrokerCall.WithheldOrSent "/positions/otc" "POST" (encodeTradeClose (closeOrder request))
        [("_method", "DELETE")] { dealKey := "close#" ++ request.dealId, riskReducing := true }
        trace outcome := by
  rw [makeClose, Program.yields_except_bind] at h
  rcases h with ⟨outcome, _, _, rfl, hasked, rfl, rfl⟩ | ⟨what, hasked, rfl⟩
  · rw [List.append_nil]
    exact ⟨.ok outcome, rfl, BrokerCall.request_yields hasked⟩
  · exact ⟨.error what, rfl, BrokerCall.request_yields hasked⟩

omit [JsonText D] in
theorem removeBooked_yields (h : (removeBooked request).Yields trace ()) :
    ∀ exchange ∈ trace, exchange.command =
      .removePosition request.strategyUuid request.dealReference := by
  unfold removeBooked at h
  split at h
  · obtain ⟨rfl, -⟩ := h
    exact nofun
  · obtain ⟨removed, _, rfl, rfl, -⟩ := h
    intro exchange he
    rw [List.mem_singleton.mp he]

omit [JsonText D] in
/-- A close that failed leaves the book as it is. -/
theorem settleClose_yields {result : CloseResult}
    (h : (settleClose closedTtl now recentCloses request result).Yields trace ended) :
    (∀ exchange ∈ trace, result.status ≠ .failed ∧ exchange.command =
        .removePosition request.strategyUuid request.dealReference) ∧
      ended.1 = decide (result.status = .ok) ∧
      ended.2 = if result.status = .ok then
        Function.update recentCloses request.dealId (some (now + closedTtl)) else recentCloses := by
  unfold settleClose at h
  cases hstatus : result.status with
  | failed =>
    rw [hstatus] at h
    obtain ⟨rfl, rfl⟩ := h
    exact ⟨nofun, rfl, rfl⟩
  | ok =>
    rw [hstatus] at h
    obtain ⟨_, _, _, rfl, hbook, rfl, rfl⟩ := Program.yields_bind.mp h
    rw [List.append_nil]
    exact ⟨fun exchange he => ⟨nofun, removeBooked_yields hbook exchange he⟩, rfl, rfl⟩
  | gone =>
    rw [hstatus] at h
    obtain ⟨_, _, _, rfl, hbook, rfl, rfl⟩ := Program.yields_bind.mp h
    rw [List.append_nil]
    exact ⟨fun exchange he => ⟨nofun, removeBooked_yields hbook exchange he⟩, rfl, rfl⟩

/-- How a close of the channel can go, and what it leaves behind. -/
inductive Closing (closedTtl : ℤ) (recentCloses : RecentCloses) (request : CloseRequest D) :
    List BrokerExchange → Bool × RecentCloses → Prop
  | blank (hblank : request.dealId = "") :
    Closing closedTtl recentCloses request [] (false, recentCloses)
  | recent (now limit : ℤ) (hrecent : recentCloses request.dealId = some limit)
    (hnow : now < limit) :
    Closing closedTtl recentCloses request [⟨.readClock, now⟩] (false, recentCloses)
  | placed (now : ℤ) (asked book : List BrokerExchange) (outcome : Except String RequestOutcome)
    (result : CloseResult) (hresult : result = caught (outcome.map (closeResult D)))
    (hasked : BrokerCall.WithheldOrSent "/positions/otc" "POST"
      (encodeTradeClose (closeOrder request)) [("_method", "DELETE")]
      { dealKey := "close#" ++ request.dealId, riskReducing := true } asked outcome)
    (hbook : ∀ exchange ∈ book, result.status ≠ .failed ∧ exchange.command =
      .removePosition request.strategyUuid request.dealReference) :
    Closing closedTtl recentCloses request (⟨.readClock, now⟩ :: (asked ++ book))
      (decide (result.status = .ok),
        Function.update recentCloses request.dealId
          (if result.status = .ok then some (now + closedTtl) else none))

theorem closePosition_yields
    (h : (closePosition closedTtl recentCloses request).Yields trace ended) :
    Closing closedTtl recentCloses request trace ended := by
  unfold closePosition at h
  split at h
  · rename_i hblank
    obtain ⟨rfl, rfl⟩ := h
    exact .blank hblank
  · rw [Program.call_bind, Program.yields_call] at h
    obtain ⟨now, rest, rfl, h⟩ := h
    rw [Program.done_bind] at h
    split at h
    · rename_i hrecent
      obtain ⟨rfl, rfl⟩ := h
      obtain ⟨limit, hlimit, hnow⟩ := (Option.any_eq_true _ _).mp hrecent
      exact .recent now limit hlimit (of_decide_eq_true hnow)
    · obtain ⟨answer, asked, book, rfl, hasked, hbook⟩ := Program.yields_bind.mp h
      obtain ⟨outcome, rfl, hsent⟩ := makeClose_yields hasked
      obtain ⟨hremovals, haccepted, hrecent⟩ := settleClose_yields hbook
      have hended : ended = (decide ((caught (outcome.map (closeResult D))).status = .ok),
          Function.update recentCloses request.dealId
            (if (caught (outcome.map (closeResult D))).status = .ok then some (now + closedTtl)
              else none)) := by
        refine Prod.ext haccepted ?_
        rw [hrecent]
        split <;> simp
      rw [hended]
      exact .placed now asked book outcome _ rfl hsent hremovals

/-! ## The calls of a channel -/

/-- A close the channel was asked for: what was exchanged for it and whether it was accepted. -/
structure CloseCall (D : Type) where
  request : CloseRequest D
  exchanges : List BrokerExchange
  accepted : Bool

structure CloseChannel (D : Type) where
  recentCloses : RecentCloses
  calls : List (CloseCall D)

namespace CloseChannel

def start : CloseChannel D := ⟨fun _ => none, []⟩

/-- Serve a request, with everything it asks answered by the peer. -/
def close (closedTtl : ℤ) (channel : CloseChannel D)
    (asked : CloseRequest D × BrokerPeer) : CloseChannel D :=
  let run := (closePosition closedTtl channel.recentCloses asked.1).play asked.2
  { recentCloses := run.2.2
    calls := channel.calls ++ [⟨asked.1, run.1, run.2.1⟩] }

def serve (closedTtl : ℤ)
    (asked : List (CloseRequest D × BrokerPeer)) :
    CloseChannel D :=
  asked.foldl (close closedTtl) start

end CloseChannel

/-- The close of the request is handed to the transport. -/
def HandsOver (request : CloseRequest D) : BrokerCommand → Prop
  | .attempt _ path method jsonBody extraHeaders =>
    path = "/positions/otc" ∧ method = "POST" ∧ jsonBody = encodeTradeClose (closeOrder request) ∧
      extraHeaders = [("_method", "DELETE")]
  | _ => False

/-- An earlier close of the deal was accepted less than the closed TTL ago. -/
def RecentlyClosed (closedTtl : ℤ) (earlier : List (CloseCall D)) (call : CloseCall D) : Prop :=
  ∃ past ∈ earlier, past.accepted = true ∧ past.request.dealId = call.request.dealId ∧
    ∃ closedAt now, (⟨.readClock, closedAt⟩ : BrokerExchange) ∈ past.exchanges ∧
      (⟨.readClock, now⟩ : BrokerExchange) ∈ call.exchanges ∧ now < closedAt + closedTtl

/-- A close takes a deal out of the book only after it was handed to the transport, is withheld
for four reasons only, and leaves the book alone when a definite answer is no success. -/
structure KeepsBook (closedTtl : ℤ) (earlier : List (CloseCall D)) (call : CloseCall D) : Prop where
  handed : ∀ before removal after, call.exchanges = before ++ removal :: after →
    removal.command.IsRemoval → ∃ exchange ∈ before, HandsOver call.request exchange.command
  withheld : (∀ exchange ∈ call.exchanges, ¬ HandsOver call.request exchange.command) →
    call.request.dealId = "" ∨ RecentlyClosed closedTtl earlier call ∨
      (⟨.isDuplicateDeal ("close#" ++ call.request.dealId), some true⟩ : BrokerExchange) ∈
        call.exchanges ∨
      ∃ answer, (⟨.pullAuth, answer⟩ : BrokerExchange) ∈ call.exchanges ∧
        ∀ auth, answer ≠ .ok (some auth)
  answered : ∀ response, Definite call.exchanges response →
    response.status ≠ 200 ∨ parsePositionResponse D response.body = none →
    ∀ exchange ∈ call.exchanges, ¬ exchange.command.IsRemoval

variable {earlier : List (CloseCall D)} {accepted : Bool}

/-- A withheld close failed. -/
theorem status_of_withheld {options : RequestOptions} {outcome : Except String RequestOutcome}
    (h : BrokerCall.Withheld options trace outcome) :
    (caught (outcome.map (closeResult D))).status = .failed := by
  rcases h.unsent with ⟨what, rfl⟩ | ⟨detail, rfl⟩ <;> rfl

/-- A close answered with anything but a readable success failed. -/
theorem status_of_response {response : HttpResponse}
    (h : response.status ≠ 200 ∨ parsePositionResponse D response.body = none) :
    (closeResult D (.responded response)).status = .failed := by
  rw [closeResult]
  split
  · rfl
  · rename_i hstatus
    rw [if_pos (Option.isNone_iff_eq_none.mpr (h.resolve_left hstatus))]

/-- What is removed from the book is removed behind everything that was asked. -/
theorem handed_of_split {asked book before after : List BrokerExchange} {removal : BrokerExchange}
    (hsplit : asked ++ book = before ++ removal :: after) (hremoval : removal.command.IsRemoval)
    (hasked : ∀ exchange ∈ asked, ¬ exchange.command.IsRemoval) : asked ⊆ before := by
  rcases List.append_eq_append_iff.mp hsplit with ⟨more, rfl, -⟩ | ⟨rest, rfl, hrest⟩
  · exact List.subset_append_left asked more
  · cases rest with
    | nil =>
      rw [List.append_nil]
      exact List.Subset.refl before
    | cons exchange rest =>
      obtain ⟨rfl, -⟩ := List.cons.inj hrest
      exact (hasked removal (List.mem_append_right before List.mem_cons_self) hremoval).elim

/-- Every close the channel serves keeps the book but for what it sent. -/
theorem Closing.keepsBook
    (hrecorded : ∀ limit, recentCloses request.dealId = some limit → ∃ past ∈ earlier,
      past.accepted = true ∧ past.request.dealId = request.dealId ∧ ∃ closedAt,
        (⟨.readClock, closedAt⟩ : BrokerExchange) ∈ past.exchanges ∧ limit = closedAt + closedTtl)
    (h : Closing closedTtl recentCloses request trace ended) :
    KeepsBook closedTtl earlier ⟨request, trace, ended.1⟩ := by
  have unasked {trace : List BrokerExchange} {accepted : Bool}
      (hquiet : ∀ exchange ∈ trace, exchange.command.OfGate)
      (hreason : request.dealId = "" ∨
        RecentlyClosed closedTtl earlier ⟨request, trace, accepted⟩ ∨
        (⟨.isDuplicateDeal ("close#" ++ request.dealId), some true⟩ : BrokerExchange) ∈ trace ∨
        ∃ answer, (⟨.pullAuth, answer⟩ : BrokerExchange) ∈ trace ∧
          ∀ auth, answer ≠ .ok (some auth)) :
      KeepsBook closedTtl earlier ⟨request, trace, accepted⟩ := by
    refine ⟨?_, fun _ => hreason, fun _ _ _ e he => (hquiet e he).not_isRemoval⟩
    rintro before removal after rfl hremoval
    exact ((hquiet removal List.mem_append_cons_self).not_isRemoval hremoval).elim
  cases h with
  | blank hblank => exact unasked nofun (.inl hblank)
  | recent now limit hrecent hnow =>
    obtain ⟨past, hpast, haccepted, hdeal, closedAt, hclock, rfl⟩ := hrecorded limit hrecent
    refine unasked (fun e he => List.mem_singleton.mp he ▸ trivial) (.inr (.inl ?_))
    exact ⟨past, hpast, haccepted, hdeal, closedAt, now, hclock, List.mem_singleton_self _, hnow⟩
  | placed now asked book outcome result hresult hasked hbook =>
    rcases hasked with hheld | ⟨sent, hsent, rfl⟩
    · have hnone : book = [] := by
        refine List.eq_nil_iff_forall_not_mem.mpr fun e he => (hbook e he).1 ?_
        rw [hresult]
        exact status_of_withheld hheld
      subst hnone
      rw [List.append_nil]
      refine unasked (List.forall_mem_cons.mpr ⟨trivial, hheld.quiet⟩) ?_
      rcases hheld.reason with hmarker | hopen | ⟨answer, hauth, hnone⟩
      · exact .inr (.inr (.inl (List.mem_cons_of_mem _ hmarker)))
      · exact Bool.noConfusion hopen
      · exact .inr (.inr (.inr ⟨answer, List.mem_cons_of_mem _ hauth, hnone⟩))
    · obtain ⟨⟨auth, hattempt⟩, hkept⟩ := hsent.attempted
      have hasked : ∀ e ∈ (⟨.readClock, now⟩ :: asked : List BrokerExchange),
          ¬ e.command.IsRemoval := List.forall_mem_cons.mpr ⟨id, hkept⟩
      refine ⟨fun before removal after hsplit hremoval => ?_, fun hnone => ?_,
        fun response hdefinite hbad => ?_⟩
      · refine ⟨_, handed_of_split hsplit hremoval hasked (List.mem_cons_of_mem _ hattempt), ?_⟩
        exact ⟨rfl, rfl, rfl, rfl⟩
      · exact (hnone _ (List.mem_cons_of_mem _ (List.mem_append_left book hattempt))
          ⟨rfl, rfl, rfl, rfl⟩).elim
      · have hbooked : answers book = [] := by
          refine answers_eq_nil fun e he => ?_
          rw [(hbook e he).2]
          exact id
        have hreceived : Definite asked response := by
          change Definite ((⟨.readClock, now⟩ : BrokerExchange) :: (asked ++ book)) response
            at hdefinite
          rw [Definite, ← List.singleton_append, answers_append, answers_append, hbooked,
            List.append_nil] at hdefinite
          exact hdefinite
        have hfailed : result.status = .failed := by
          rw [hresult, hsent.definite hreceived]
          exact status_of_response hbad
        intro e he
        rcases List.mem_append.mp (List.cons_append .. ▸ he) with hearlier | hremoved
        · exact hasked e hearlier
        · exact ((hbook e hremoved).1 hfailed).elim

/-- A close that the channel remembers afterwards it remembered before, or has just accepted. -/
theorem Closing.recorded (h : Closing closedTtl recentCloses request trace ended) {dealId : String}
    {limit : ℤ} (hlimit : ended.2 dealId = some limit) :
    recentCloses dealId = some limit ∨ ended.1 = true ∧ request.dealId = dealId ∧
      ∃ closedAt, (⟨.readClock, closedAt⟩ : BrokerExchange) ∈ trace ∧
        limit = closedAt + closedTtl := by
  cases h with
  | blank hblank => exact .inl hlimit
  | recent now bound hrecent hnow => exact .inl hlimit
  | placed now asked book outcome result hresult hasked hbook =>
    by_cases hdeal : dealId = request.dealId
    · subst hdeal
      simp only [Function.update_self] at hlimit
      split at hlimit
      · rename_i hok
        cases hlimit
        exact .inr ⟨decide_eq_true hok, rfl, now, List.mem_cons_self, rfl⟩
      · cases hlimit
    · dsimp only at hlimit
      rw [Function.update_of_ne hdeal] at hlimit
      exact .inl hlimit

namespace CloseChannel

variable {channel : CloseChannel D}

/-- Each call of the channel kept the book, given the calls before it. -/
def PrunesOnlySent (closedTtl : ℤ) (channel : CloseChannel D) : Prop :=
  ∀ earlier call later, channel.calls = earlier ++ call :: later →
    KeepsBook closedTtl earlier call

/-- The remembered closes were accepted by calls that are over, and all calls kept the book. -/
structure Safe (closedTtl : ℤ) (channel : CloseChannel D) : Prop where
  recorded : ∀ dealId limit, channel.recentCloses dealId = some limit →
    ∃ past ∈ channel.calls, past.accepted = true ∧ past.request.dealId = dealId ∧
      ∃ closedAt, (⟨.readClock, closedAt⟩ : BrokerExchange) ∈ past.exchanges ∧
        limit = closedAt + closedTtl
  keeps : channel.PrunesOnlySent closedTtl

theorem start_safe : (start : CloseChannel D).Safe closedTtl where
  recorded := nofun
  keeps earlier call later h := by
    cases earlier <;> cases h

theorem close_safe (h : channel.Safe closedTtl)
    (asked : CloseRequest D × BrokerPeer) :
    (channel.close closedTtl asked).Safe closedTtl := by
  have hclosing := closePosition_yields (Program.yields_play asked.2
    (closePosition closedTtl channel.recentCloses asked.1))
  constructor
  · intro dealId limit hlimit
    rcases hclosing.recorded hlimit with hbefore | ⟨haccepted, hdeal, hclock⟩
    · obtain ⟨past, hpast, hrest⟩ := h.recorded dealId limit hbefore
      exact ⟨past, List.mem_append_left _ hpast, hrest⟩
    · exact ⟨_, List.mem_concat_self, haccepted, hdeal, hclock⟩
  · intro earlier call later hcalls
    rcases List.append_eq_append_iff.mp hcalls with ⟨more, rfl, hlast⟩ | ⟨rest, hearlier, hlast⟩
    · cases more with
      | nil =>
        obtain ⟨rfl, rfl⟩ := List.cons.inj hlast
        rw [List.append_nil]
        exact hclosing.keepsBook (h.recorded _)
      | cons exchange more => cases more <;> cases (List.cons.inj hlast).2
    · cases rest with
      | nil =>
        obtain ⟨rfl, rfl⟩ := List.cons.inj hlast
        rw [List.append_nil] at hearlier
        rw [← hearlier]
        exact hclosing.keepsBook (h.recorded _)
      | cons past rest =>
        obtain ⟨rfl, -⟩ := List.cons.inj hlast
        exact h.keeps earlier _ rest hearlier

theorem serve_safe (asked : List (CloseRequest D × BrokerPeer)) :
    (serve closedTtl asked).Safe closedTtl := by
  suffices h : ∀ channel : CloseChannel D, channel.Safe closedTtl →
      (asked.foldl (close closedTtl) channel).Safe closedTtl from h start start_safe
  induction asked with
  | nil => exact fun _ h => h
  | cons first asked ih => exact fun channel h => ih _ (close_safe h first)

/-- Whatever the gate, the credentials and the broker answer, every close a channel serves takes
its deal out of the book only when it was sent and not definitely answered with a failure. -/
theorem unsent_close_keeps_book (closedTtl : ℤ)
    (asked : List (CloseRequest D × BrokerPeer)) :
    (serve closedTtl asked).PrunesOnlySent closedTtl :=
  (serve_safe asked).keeps

end CloseChannel

end Live

end BacktestEngine

import BacktestEngine.Library.Transition
import BacktestEngine.Live.BrokerOrders
import BacktestEngine.Positions.Sync

/-! # Deals and the strategies they are listed under

The channels book the deals the broker accepts, one write after the other, and the
producer runs its cycles between the writes. Whoever writes a deal's record names its
strategy, the channel from its order and a cycle from the record or the receipt it
finds; a cycle that finds neither names it unknown.
-/

namespace BacktestEngine

namespace Positions

open Live MarketDefinition

/-- An accepted open on its way into the store. -/
structure AcceptedOpen where
  request : OrderRequest
  market : MarketDefinition
  dealReference : String
  dealId : String
  deriving DecidableEq

/-- Where a channel stands: the three writes of a booking come one after the other. -/
inductive BookingStage
  | idle
  | saving (accepted : AcceptedOpen)
  | adding (accepted : AcceptedOpen)
  | receipting (accepted : AcceptedOpen)
  deriving DecidableEq

/-- The open a channel is booking. -/
def BookingStage.accepted : BookingStage → Option AcceptedOpen
  | .idle => none
  | .saving accepted | .adding accepted | .receipting accepted => some accepted

/-- A deal of the broker: its contract, and the strategy that opened it. -/
structure Deal where
  epic : String
  owner : String
  deriving DecidableEq

/-- The broker's deals by reference, its book as it reports it, the store and the channels. -/
structure BookingState (ι D : Type) where
  now : ℤ
  deals : String → Option Deal
  book : List (IgPosition D)
  store : PositionStore D
  channels : ι → BookingStage

inductive BookingAction (ι D : Type)
  | advance (elapsed : ℕ)
  | accept (i : ι) (request : OrderRequest) (dealReference dealId : String)
  | savePosition (i : ι)
  | addPosition (i : ι)
  | saveDealReceipt (i : ι)
  | openElsewhere (dealReference epic : String)
  | report (position : IgPosition D)
  | brokerCloses (dealReference : String)
  | sync

namespace BookingState

variable {ι D : Type} [DecidableEq ι] (s : BookingState ι D)

def goTo (i : ι) (stage : BookingStage) : BookingState ι D :=
  { s with channels := Function.update s.channels i stage }

/-- An operation of the store that is not interrupted and whose commands all succeed. -/
def perform {α : Type} (p : StoreProgram D α) : PositionStore D :=
  (p.run (PositionStore.exec s.now s.book .answered) s.store).2

variable [Rounding D]

def step (s : BookingState ι D) : BookingAction ι D → Option (BookingState ι D)
  | .advance elapsed => some { s with now := s.now + elapsed }
  | .accept i request dealReference dealId =>
    match s.channels i, findMarket request.symbol, s.deals dealReference with
    | .idle, some market, none =>
      if dealReference = "" then none
      else
        let deal : Deal := ⟨market.epicMini, request.strategyUuid⟩
        let s := { s with deals := Function.update s.deals dealReference (some deal) }
        some (s.goTo i (.saving ⟨request, market, dealReference, dealId⟩))
    | _, _, _ => none
  | .savePosition i =>
    match s.channels i with
    | .saving accepted =>
      let payload := buildPositionPayload accepted.request (openOrder accepted.request
        accepted.market) accepted.dealReference accepted.dealId
      let store := s.perform (Positions.savePosition accepted.dealReference (.value payload)
        kPositionTtl)
      some ({ s with store := store }.goTo i (.adding accepted))
    | _ => none
  | .addPosition i =>
    match s.channels i with
    | .adding accepted =>
      let store := s.perform (Positions.addPosition accepted.request.strategyUuid
        accepted.dealReference)
      some ({ s with store := store }.goTo i (.receipting accepted))
    | _ => none
  | .saveDealReceipt i =>
    match s.channels i with
    | .receipting accepted =>
      let receipt := buildDealReceipt accepted.request accepted.dealId
      let store := s.perform (Positions.saveDealReceipt accepted.dealReference
        accepted.request.symbol (.value receipt))
      some ({ s with store := store }.goTo i .idle)
    | _ => none
  | .openElsewhere dealReference epic =>
    match s.deals dealReference with
    | none =>
      let deal : Deal := ⟨epic, "Unknown"⟩
      some { s with deals := Function.update s.deals dealReference (some deal) }
    | some _ => none
  | .report position =>
    match s.deals position.dealReference with
    | some deal =>
      if position.epic = deal.epic then some { s with book := position :: s.book } else none
    | none => none
  | .brokerCloses dealReference =>
    some { s with book := s.book.filter fun p => p.dealReference ≠ dealReference }
  | .sync => some { s with store := s.perform syncOnce }

/-- No deals and an empty store. -/
def fresh (now : ℤ) : BookingState ι D where
  now := now
  deals _ := none
  book := []
  store := .empty
  channels _ := .idle

/-- The store names the strategy of a deal: in its record, or in the receipt kept for the symbol. -/
def Known (now : ℤ) (store : PositionStore D) (dealReference symbol : String) : Prop :=
  ((store.positions.get now dealReference).bind decodePositionRecord).isSome ∨
    ((store.receipts.get now (dealReference, symbol)).bind decodeDealReceipt).isSome

instance (now : ℤ) (store : PositionStore D) (dealReference symbol : String) :
    Decidable (Known now store dealReference symbol) :=
  inferInstanceAs (Decidable (_ ∨ _))

/-- A strategy has a name, and a cycle finds its name in the store for every deal in the book that a
channel has opened. -/
def Guarded : BookingAction ι D → Prop
  | .accept _ request _ _ => request.strategyUuid ≠ ""
  | .sync => ∀ p ∈ s.book, ∀ market ∈ findMarketByEpicMini p.epic,
      ∀ deal ∈ s.deals p.dealReference, deal.owner ≠ "Unknown" →
        Known s.now s.store p.dealReference market.symbol
  | _ => True

instance : DecidablePred (Guarded s)
  | .accept _ request _ _ => inferInstanceAs (Decidable (request.strategyUuid ≠ ""))
  | .sync => inferInstanceAs (Decidable (∀ p ∈ s.book, ∀ market ∈ findMarketByEpicMini p.epic,
      ∀ deal ∈ s.deals p.dealReference, deal.owner ≠ "Unknown" →
        Known s.now s.store p.dealReference market.symbol))
  | .advance _ | .savePosition _ | .addPosition _ | .saveDealReceipt _ | .openElsewhere _ _
  | .report _ | .brokerCloses _ => isTrue trivial

/-- Each deal the broker reports that is on a market of the engine has a record, and each that has
one is listed under the strategy of the record and no other. -/
def Attributed : Prop := ∀ p ∈ s.book,
  (p.dealReference ≠ "" → (findMarketByEpicMini p.epic).isSome →
    s.store.positions.Held s.now p.dealReference) ∧
  ∀ payload, s.store.positions.get s.now p.dealReference = some payload →
    ∃ record, payload = .value record ∧ ∀ strategyId,
      p.dealReference ∈ s.store.listed strategyId ↔ strategyId = record.strategyId

/-! ## What the store says about a deal -/

variable {deals : String → Option Deal} {store store' : PositionStore D} {now : ℤ}

/-- A deal, and on a market of the engine. -/
def Traded (deals : String → Option Deal) (dealReference : String) (deal : Deal) : Prop :=
  deals dealReference = some deal ∧ dealReference ≠ "" ∧ (findMarketByEpicMini deal.epic).isSome

/-- Records, receipts and lists name a deal's own strategy. -/
structure StoreOk (deals : String → Option Deal) (store : PositionStore D) : Prop where
  readable : store.Readable
  records : ∀ reference payload expiry, store.positions reference = some (payload, expiry) →
    ∃ record deal, payload = .value record ∧ Traded deals reference deal ∧
      record.strategyId = deal.owner ∧ record.dealReference = reference
  receipts : ∀ key text expiry, store.receipts key = some (text, expiry) →
    ∃ receipt deal, text = .value receipt ∧ deals key.1 = some deal ∧
      receipt.strategyId = deal.owner
  lists : ∀ strategyId reference, reference ∈ store.listed strategyId →
    ∃ deal, deals reference = some deal ∧ deal.owner = strategyId

omit [Rounding D] in
theorem StoreOk.empty (deals : String → Option Deal) : StoreOk deals (.empty : PositionStore D) where
  readable strategyId := by simp [PositionStore.empty]
  records _ _ _ h := by cases h
  receipts _ _ _ h := by cases h
  lists strategyId reference h := by simp [PositionStore.empty, PositionStore.listed, dealsOf] at h

omit [Rounding D] in
/-- A new deal is named nowhere. -/
theorem StoreOk.newDeal (h : StoreOk deals store) {reference : String} (hnew : deals reference = none)
    (deal : Deal) : StoreOk (Function.update deals reference (some deal)) store := by
  have hkept : ∀ r d, deals r = some d → Function.update deals reference (some deal) r = some d := by
    intro r d hr
    have hne : r ≠ reference := fun heq => by
      rw [heq, hnew] at hr
      cases hr
    rwa [Function.update_of_ne hne]
  refine ⟨h.readable, fun r payload expiry hr => ?_, fun key text expiry hr => ?_,
    fun id r hr => ?_⟩
  · obtain ⟨record, d, hp, ⟨hd, ht⟩, ho⟩ := h.records r payload expiry hr
    exact ⟨record, d, hp, ⟨hkept r d hd, ht⟩, ho⟩
  · obtain ⟨receipt, d, ht, hd, ho⟩ := h.receipts key text expiry hr
    exact ⟨receipt, d, ht, hkept _ d hd, ho⟩
  · obtain ⟨d, hd, ho⟩ := h.lists id r hr
    exact ⟨d, hkept r d hd, ho⟩

omit [Rounding D] in
/-- A write of a record that names its deal's strategy. -/
theorem StoreOk.setRecord (h : StoreOk deals store) {reference : String}
    {record : PositionRecord D} {deal : Deal} (hdeal : Traded deals reference deal)
    (howner : record.strategyId = deal.owner) (hreference : record.dealReference = reference)
    (expiry : ℤ) :
    StoreOk deals { store with
      positions := store.positions.set reference (.value record) expiry } := by
  refine ⟨h.readable, fun r payload e hr => ?_, h.receipts, h.lists⟩
  by_cases hrr : r = reference
  · subst hrr
    simp only [Expiring.Store.set, Function.update_self, Option.some.injEq, Prod.mk.injEq] at hr
    exact ⟨record, deal, hr.1.symm, hdeal, howner, hreference⟩
  · simp only [Expiring.Store.set, Function.update_of_ne hrr] at hr
    exact h.records r payload e hr

omit [Rounding D] in
/-- Lists that name no deal under another strategy. -/
theorem StoreOk.relist (h : StoreOk deals store) (hpositions : store'.positions = store.positions)
    (hreceipts : store'.receipts = store.receipts) (hread : store'.Readable)
    (hlists : ∀ strategyId reference, reference ∈ store'.listed strategyId →
      reference ∈ store.listed strategyId ∨
        ∃ deal, deals reference = some deal ∧ deal.owner = strategyId) : StoreOk deals store' := by
  refine ⟨hread, ?_, ?_, fun id r hr => ?_⟩
  · rw [hpositions]
    exact h.records
  · rw [hreceipts]
    exact h.receipts
  · rcases hlists id r hr with hr | hr
    · exact h.lists id r hr
    · exact hr

omit [Rounding D] in
/-- The name a receipt gives, if there is one, is the strategy of the deal. -/
theorem StoreOk.nameOf_receipt (h : StoreOk deals store) {key : String × String} {deal : Deal}
    (hdeal : deals key.1 = some deal) (hnamed : deal.owner ≠ "")
    (hknown : deal.owner ≠ "Unknown" →
      ((store.receipts.get now key).bind decodeDealReceipt).isSome) :
    nameOf DealReceipt.strategyId (store.receipts.get now key) = deal.owner := by
  cases hget : store.receipts.get now key with
  | none =>
    by_contra hne
    have := hknown fun hu => hne (by rw [hu]; rfl)
    rw [hget] at this
    cases this
  | some text =>
    obtain ⟨expiry, hr, -⟩ := Expiring.Store.get_eq_some.mp hget
    obtain ⟨receipt, d, rfl, hd, ho⟩ := h.receipts key text expiry hr
    cases hdeal.symm.trans hd
    simp [nameOf, decodeDealReceipt, ho, hnamed]

omit [Rounding D] in
theorem StoreOk.get_record (h : StoreOk deals store) {reference : String} {deal : Deal}
    (hdeal : deals reference = some deal) {record : PositionRecord D}
    (hrecord : (store.positions.get now reference).bind decodePositionRecord = some record) :
    record.strategyId = deal.owner ∧ record.dealReference = reference := by
  obtain ⟨payload, hget, hdecode⟩ := Option.bind_eq_some_iff.mp hrecord
  obtain ⟨expiry, hr, -⟩ := Expiring.Store.get_eq_some.mp hget
  obtain ⟨r, d, rfl, ⟨hd, -⟩, ho, href⟩ := h.records reference payload expiry hr
  cases hdeal.symm.trans hd
  simp only [decodePositionRecord] at hdecode
  split at hdecode
  · cases hdecode
  · cases hdecode
    exact ⟨ho, href⟩

/-- The record a cycle writes for a deal names its strategy, when the store knows it. -/
theorem StoreOk.syncedRecord (h : StoreOk deals store) {position : IgPosition D}
    {market : MarketDefinition} {deal : Deal} (hdeal : deals position.dealReference = some deal)
    (hnamed : deal.owner ≠ "") (hknown : deal.owner ≠ "Unknown" →
      Known now store position.dealReference market.symbol) :
    let receipt := store.receipts.get now (position.dealReference, market.symbol)
    let synced := Positions.syncedRecord position market.symbol
      (nameOf DealReceipt.strategyId receipt) (nameOf DealReceipt.strategyName receipt)
      (store.positions.get now position.dealReference) now
    synced.1.strategyId = deal.owner ∧ synced.1.dealReference = position.dealReference ∧
      0 < synced.2 := by
  intro receipt synced
  cases hrecord : (store.positions.get now position.dealReference).bind decodePositionRecord with
  | some record =>
    obtain ⟨howner, href⟩ := h.get_record hdeal hrecord
    have hsynced : synced = (applyBrokerUpdate record position (nameOf DealReceipt.strategyId
        receipt), updateTtl now) := by
      simp only [synced, Positions.syncedRecord, hrecord]
    rw [hsynced]
    refine ⟨?_, href, updateTtl_pos now⟩
    simp only [applyBrokerUpdate, howner]
    split
    · rename_i hunknown
      refine h.nameOf_receipt hdeal hnamed fun hne => ?_
      rcases hunknown with hu | hu
      · exact absurd hu hnamed
      · exact absurd hu hne
    · rfl
  | none =>
    have hsynced : synced = (makeFreshRecord position market.symbol (nameOf DealReceipt.strategyId
        receipt) (nameOf DealReceipt.strategyName receipt)
        (SymbolScale.getPriceScale market.symbol) now, kFreshPositionTtl) := by
      simp only [synced, Positions.syncedRecord, hrecord]
    rw [hsynced]
    refine ⟨h.nameOf_receipt hdeal hnamed fun hne => ?_, rfl,
      (by decide : 0 < kFreshPositionTtl)⟩
    rcases hknown hne with hknown | hknown
    · rw [hrecord] at hknown
      cases hknown
    · exact hknown

/-! ## A cycle -/

/-- The position is saved and listed, if the engine trades it. -/
def Filed (now : ℤ) (deals : String → Option Deal) (p : IgPosition D) (store : PositionStore D) :
    Prop :=
  p.dealReference ≠ "" → (findMarketByEpicMini p.epic).isSome →
    store.positions.Held now p.dealReference ∧
      ∀ deal ∈ deals p.dealReference, p.dealReference ∈ store.listed deal.owner

/-- Within a cycle: the store names each deal's own strategy, and knows those of the deals in the
book. -/
structure CycleOk (now : ℤ) (deals : String → Option Deal) (book : List (IgPosition D))
    (store : PositionStore D) : Prop where
  ok : StoreOk deals store
  named : ∀ reference, ∀ deal ∈ deals reference, deal.owner ≠ ""
  booked : ∀ p ∈ book, ∃ deal, deals p.dealReference = some deal ∧ deal.epic = p.epic
  known : ∀ p ∈ book, ∀ market ∈ findMarketByEpicMini p.epic, ∀ deal ∈ deals p.dealReference,
    deal.owner ≠ "Unknown" → Known now store p.dealReference market.symbol

variable {book : List (IgPosition D)}

/-- What the work for one position does to the records and the lists. -/
theorem CycleOk.applied (h : CycleOk now deals book store) {p : IgPosition D} (hp : p ∈ book)
    {market : MarketDefinition} (hmarket : findMarketByEpicMini p.epic = some market)
    (hreference : p.dealReference ≠ "") :
    let s := ((applyPosition p).run (PositionStore.exec now book .answered) store).2
    ∃ deal record ttl, Traded deals p.dealReference deal ∧ record.strategyId = deal.owner ∧
      record.dealReference = p.dealReference ∧ 0 < ttl ∧
      s.positions = store.positions.set p.dealReference (.value record) (now + ttl) ∧
      s.receipts = store.receipts ∧ s.Readable ∧
      (∀ id r, r ∈ s.listed id ↔ r ∈ store.listed id ∨ id = deal.owner ∧ r = p.dealReference) ∧
      (((store.positions.get now p.dealReference).bind decodePositionRecord).isSome →
        (decodePositionRecord (.value record)).isSome) := by
  intro s
  obtain ⟨deal, hdeal, hepic⟩ := h.booked p hp
  obtain ⟨howner, href, httl⟩ := h.ok.syncedRecord hdeal (h.named _ deal hdeal)
    (h.known p hp market hmarket deal hdeal)
  obtain ⟨hpositions, hreceipts, hread, hlists⟩ := run_applyPosition book hmarket
    hreference h.ok.readable
  refine ⟨deal, _, _, ⟨hdeal, hreference, ?_⟩, howner, href, httl, hpositions, hreceipts, hread,
    fun id r => ?_, fun hsome => ?_⟩
  · rw [hepic, hmarket]
    rfl
  · rw [hlists id r, howner, href]
  · obtain ⟨record, hrecord⟩ := Option.isSome_iff_exists.mp hsome
    obtain ⟨payload, hget, hdecode⟩ := Option.bind_eq_some_iff.mp hrecord
    simp only [Positions.syncedRecord, hrecord]
    cases payload with
    | malformed => cases hdecode
    | value r =>
      simp only [decodePositionRecord] at hdecode
      split at hdecode
      · cases hdecode
      · rename_i hfields
        cases hdecode
        exact Option.isSome_of_eq_some (if_neg hfields)

/-- The work for one position keeps a cycle's invariant and files the position. -/
theorem CycleOk.apply (h : CycleOk now deals book store) {p : IgPosition D} (hp : p ∈ book) :
    CycleOk now deals book
      ((applyPosition p).run (PositionStore.exec now book .answered) store).2 ∧
    Filed now deals p ((applyPosition p).run (PositionStore.exec now book .answered) store).2 := by
  by_cases hskip : p.dealReference = "" ∨ findMarketByEpicMini p.epic = none
  · rw [run_applyPosition_skip hskip]
    refine ⟨h, fun href hsome => ?_⟩
    rcases hskip with hskip | hskip
    · exact absurd hskip href
    · rw [hskip] at hsome
      cases hsome
  · obtain ⟨href, hmarket⟩ := not_or.mp hskip
    obtain ⟨market, hmarket⟩ := Option.ne_none_iff_exists'.mp hmarket
    obtain ⟨deal, record, ttl, hdeal, howner, hreference, httl, hpositions, hreceipts, hread, hlists,
      hdecodes⟩ := h.applied hp hmarket href
    set s := ((applyPosition p).run (PositionStore.exec now book .answered) store).2
    have hok : StoreOk deals s := by
      have hset := h.ok.setRecord hdeal howner hreference (now + ttl)
      refine hset.relist hpositions hreceipts hread fun id r hr => ?_
      rcases (hlists id r).mp hr with hr | ⟨rfl, rfl⟩
      · exact .inl hr
      · exact .inr ⟨deal, hdeal.1, rfl⟩
    refine ⟨⟨hok, h.named, h.booked, fun q hq market' hm d hd hne => ?_⟩, fun _ _ => ⟨?_, ?_⟩⟩
    · rcases h.known q hq market' hm d hd hne with hknown | hknown
      · left
        rw [hpositions]
        by_cases hqp : q.dealReference = p.dealReference
        · rw [hqp] at hknown ⊢
          rw [Expiring.Store.get_set_self (lt_add_of_pos_right now httl)]
          exact hdecodes hknown
        · rwa [Expiring.Store.get_set_of_ne hqp]
      · right
        rwa [hreceipts]
    · rw [hpositions, Expiring.Store.Held,
        Expiring.Store.get_set_self (lt_add_of_pos_right now httl)]
      rfl
    · intro d hd
      cases hdeal.1.symm.trans hd
      exact (hlists _ _).mpr (.inr ⟨rfl, rfl⟩)

/-- A position that is filed stays so while others are. -/
theorem CycleOk.apply_keeps (h : CycleOk now deals book store) {p q : IgPosition D} (hp : p ∈ book)
    (hq : Filed now deals q store) :
    Filed now deals q ((applyPosition p).run (PositionStore.exec now book .answered) store).2 := by
  by_cases hskip : p.dealReference = "" ∨ findMarketByEpicMini p.epic = none
  · rwa [run_applyPosition_skip hskip]
  · obtain ⟨href, hmarket⟩ := not_or.mp hskip
    obtain ⟨market, hmarket⟩ := Option.ne_none_iff_exists'.mp hmarket
    obtain ⟨deal, record, ttl, hdeal, howner, hreference, httl, hpositions, hreceipts, hread, hlists,
      -⟩ := h.applied hp hmarket href
    intro hqref hqmarket
    obtain ⟨hheld, hlisted⟩ := hq hqref hqmarket
    refine ⟨?_, fun d hd => (hlists _ _).mpr (.inl (hlisted d hd))⟩
    rw [hpositions]
    by_cases hqp : q.dealReference = p.dealReference
    · rw [hqp, Expiring.Store.Held, Expiring.Store.get_set_self (lt_add_of_pos_right now httl)]
      rfl
    · rwa [Expiring.Store.Held, Expiring.Store.get_set_of_ne hqp]

/-- What holds after a cycle. -/
structure Settled (now : ℤ) (deals : String → Option Deal) (book : List (IgPosition D))
    (store : PositionStore D) : Prop where
  ok : StoreOk deals store
  filed : ∀ p ∈ book, Filed now deals p store

omit [Rounding D] in
theorem Settled.refresh (h : Settled now deals book store) (strategyId : String) :
    Settled now deals book ((refreshPositionList strategyId).run
      (PositionStore.exec now book .answered) store).2 := by
  obtain ⟨hpositions, hreceipts, hread, hlists⟩ := PositionStore.run_refreshPositionList
    now book strategyId h.ok.readable
  refine ⟨h.ok.relist hpositions hreceipts hread fun id r hr => .inl ((hlists id r).mp hr).1, ?_⟩
  intro p hp href hmarket
  obtain ⟨hheld, hlisted⟩ := h.filed p hp href hmarket
  exact ⟨hpositions ▸ hheld, fun d hd => (hlists _ _).mpr ⟨hlisted d hd, fun _ => hheld⟩⟩

/-- A cycle files every position of its book. -/
theorem CycleOk.sync (h : CycleOk now deals book store) :
    Settled now deals book (syncOnce.run (PositionStore.exec now book .answered) store).2 := by
  have hloop : Settled now deals book
      ((Program.each applyPosition book).run (PositionStore.exec now book .answered) store).2 :=
    ⟨(Program.run_each (I := CycleOk now deals book) (fun p hp _ hs => (hs.apply hp).1) h).ok,
      Program.run_each_all (I := CycleOk now deals book) (fun p hp _ hs => hs.apply hp)
        (fun p hp _ _ hs hq => hs.apply_keeps hp hq) h⟩
  simp only [syncOnce, listStrategyIds, command, Program.call_bind, Program.done_bind,
    Program.run_call, Program.run_bind, PositionStore.exec_answered, PositionStore.answer,
    PositionStore.effect, Lease.Reply.answer]
  refine Program.run_each (I := Settled now deals book) (fun strategyId _ _ hs => ?_) hloop
  rw [Program.run_bind]
  exact hs.refresh strategyId

/-! ## Runs -/

variable {s s' : BookingState ι D}

/-- The reference of an accepted open is its deal's. -/
def Opened (deals : String → Option Deal) (accepted : AcceptedOpen) : Prop :=
  Traded deals accepted.dealReference ⟨accepted.market.epicMini, accepted.request.strategyUuid⟩

structure Inv (s : BookingState ι D) : Prop where
  store : StoreOk s.deals s.store
  named : ∀ reference, ∀ deal ∈ s.deals reference, deal.owner ≠ ""
  booked : ∀ p ∈ s.book, ∃ deal, s.deals p.dealReference = some deal ∧ deal.epic = p.epic
  channels : ∀ i, ∀ accepted ∈ (s.channels i).accepted, Opened s.deals accepted

omit [DecidableEq ι] [Rounding D] in
theorem Inv.fresh (now : ℤ) : Inv (BookingState.fresh now : BookingState ι D) where
  store := .empty _
  named _ _ h := by cases h
  booked _ h := (List.not_mem_nil h).elim
  channels _ _ h := by cases h

omit [Rounding D] in
/-- A channel goes on with a booking, and the store stays in order. -/
theorem Inv.goTo (hi : Inv s) {i : ι} {stage : BookingStage} {store : PositionStore D}
    (hstore : StoreOk s.deals store)
    (hstage : ∀ accepted ∈ stage.accepted, accepted ∈ (s.channels i).accepted) :
    Inv ({ s with store := store }.goTo i stage) := by
  refine ⟨hstore, hi.named, hi.booked, fun j accepted h => ?_⟩
  by_cases hj : j = i
  · subst hj
    simp only [BookingState.goTo, Function.update_self] at h
    exact hi.channels j accepted (hstage accepted h)
  · simp only [BookingState.goTo, Function.update_of_ne hj] at h
    exact hi.channels j accepted h

omit [Rounding D] [DecidableEq ι] in
/-- A deal that nobody has named yet. -/
theorem Inv.newDeal (hi : Inv s) {reference : String} (deal : Deal)
    (hnew : s.deals reference = none) (hnamed : deal.owner ≠ "") :
    Inv { s with deals := Function.update s.deals reference (some deal) } := by
  have hkept : ∀ r d, s.deals r = some d →
      Function.update s.deals reference (some deal) r = some d := by
    intro r d hr
    have hne : r ≠ reference := fun heq => by
      rw [heq, hnew] at hr
      cases hr
    rwa [Function.update_of_ne hne]
  refine ⟨hi.store.newDeal hnew deal, fun r d hd => ?_, fun p hp => ?_, fun i accepted h => ?_⟩
  · by_cases hr : r = reference
    · subst hr
      simp only [Function.update_self, Option.mem_def, Option.some.injEq] at hd
      exact hd ▸ hnamed
    · simp only [Function.update_of_ne hr] at hd
      exact hi.named r d hd
  · obtain ⟨d, hd, he⟩ := hi.booked p hp
    exact ⟨d, hkept _ d hd, he⟩
  · obtain ⟨hd, ht⟩ := hi.channels i accepted h
    exact ⟨hkept _ _ hd, ht⟩

omit [DecidableEq ι] [Rounding D] in
theorem Inv.cycleOk (hi : Inv s) (hg : s.Guarded .sync) : CycleOk s.now s.deals s.book s.store :=
  ⟨hi.store, hi.named, hi.booked, hg⟩

theorem inv_step {a : BookingAction ι D} (hi : Inv s) (hg : s.Guarded a) (h : s.step a = some s') :
    Inv s' := by
  cases a with
  | advance elapsed =>
    cases h
    exact ⟨hi.store, hi.named, hi.booked, hi.channels⟩
  | accept i request dealReference dealId =>
    simp only [step] at h
    split at h
    · rename_i market hstage hmarket hnew
      split at h
      · cases h
      · rename_i href
        cases h
        have hi' := hi.newDeal ⟨market.epicMini, request.strategyUuid⟩ hnew hg
        refine ⟨hi'.store, hi'.named, hi'.booked, fun j accepted hj => ?_⟩
        by_cases hji : j = i
        · subst hji
          simp only [BookingState.goTo, Function.update_self] at hj
          cases hj
          refine ⟨Function.update_self .., href, ?_⟩
          rw [findMarketByEpicMini_of_findMarket hmarket]
          rfl
        · simp only [BookingState.goTo, Function.update_of_ne hji] at hj
          exact hi'.channels j accepted hj
    · cases h
  | savePosition i =>
    simp only [step] at h
    split at h
    · rename_i accepted hstage
      cases h
      refine hi.goTo ?_ fun _ h => by rwa [hstage]
      have hdeal := hi.channels i accepted (by rw [hstage]; rfl)
      exact hi.store.setRecord hdeal rfl rfl _
    · cases h
  | addPosition i =>
    simp only [step] at h
    split at h
    · rename_i accepted hstage
      cases h
      refine hi.goTo ?_ fun _ h => by rwa [hstage]
      have hdeal := hi.channels i accepted (by rw [hstage]; rfl)
      obtain ⟨hpositions, hreceipts, hread, hlists⟩ := PositionStore.run_addPosition
        s.now s.book accepted.request.strategyUuid accepted.dealReference hi.store.readable
      refine hi.store.relist hpositions hreceipts hread fun id r hr => ?_
      rcases (hlists id r).mp hr with hr | ⟨rfl, rfl⟩
      · exact .inl hr
      · exact .inr ⟨_, hdeal.1, rfl⟩
    · cases h
  | saveDealReceipt i =>
    simp only [step] at h
    split at h
    · rename_i accepted hstage
      cases h
      refine hi.goTo ?_ fun _ h => by cases h
      have hdeal := hi.channels i accepted (by rw [hstage]; rfl)
      refine ⟨hi.store.readable, hi.store.records, fun key text expiry hkey => ?_, hi.store.lists⟩
      by_cases hk : key = (accepted.dealReference, accepted.request.symbol)
      · subst hk
        simp only [perform, PositionStore.run_saveDealReceipt, Expiring.Store.set,
          Function.update_self, Option.some.injEq, Prod.mk.injEq] at hkey
        exact ⟨_, _, hkey.1.symm, hdeal.1, rfl⟩
      · simp only [perform, PositionStore.run_saveDealReceipt, Expiring.Store.set,
          Function.update_of_ne hk] at hkey
        exact hi.store.receipts key text expiry hkey
    · cases h
  | openElsewhere dealReference epic =>
    simp only [step] at h
    split at h
    · rename_i hnew
      cases h
      exact hi.newDeal ⟨epic, "Unknown"⟩ hnew (by decide : "Unknown" ≠ "")
    · cases h
  | report position =>
    simp only [step] at h
    split at h
    · rename_i deal hdeal
      split at h
      · rename_i hepic
        cases h
        refine ⟨hi.store, hi.named, fun p hp => ?_, hi.channels⟩
        rcases List.mem_cons.mp hp with rfl | hp
        · exact ⟨deal, hdeal, hepic.symm⟩
        · exact hi.booked p hp
      · cases h
    · cases h
  | brokerCloses dealReference =>
    cases h
    exact ⟨hi.store, hi.named, fun p hp => hi.booked p (List.mem_filter.mp hp).1, hi.channels⟩
  | sync =>
    cases h
    exact ⟨(hi.cycleOk hg).sync.ok, hi.named, hi.booked, hi.channels⟩

/-! ## Attribution -/

/-- When every strategy has a name and every cycle of the run finds in the store the strategies of
the deals it is about, a cycle ends with each deal of the book listed under the strategy of its
record and no other. -/
theorem deals_attributed {now : ℤ} {actions : List (BookingAction ι D)} {s s' : BookingState ι D}
    (hrun : Transition.exec step (fresh now) actions = some s)
    (hguard : Transition.Along step Guarded (fresh now) actions)
    (hknown : s.Guarded .sync) (hsync : s.step .sync = some s') : s'.Attributed := by
  have hi : Inv s := Transition.exec_invariant_along
    (fun _ _ _ hi hg hstep => inv_step hi hg hstep) (.fresh now) hguard hrun
  have hsettled := (hi.cycleOk hknown).sync
  cases hsync
  intro p hp
  refine ⟨fun href hmarket => (hsettled.filed p hp href hmarket).1, fun payload hget => ?_⟩
  obtain ⟨expiry, hpayload, -⟩ := Expiring.Store.get_eq_some.mp hget
  obtain ⟨record, deal, rfl, ⟨hdeal, href, hmarket⟩, howner, -⟩ :=
    hsettled.ok.records _ payload expiry hpayload
  obtain ⟨deal', hdeal', hepic⟩ := hi.booked p hp
  cases hdeal.symm.trans hdeal'
  rw [hepic] at hmarket
  refine ⟨record, rfl, fun strategyId => ⟨fun hlisted => ?_, ?_⟩⟩
  · obtain ⟨d, hd, ho⟩ := hsettled.ok.lists strategyId _ hlisted
    cases hdeal.symm.trans hd
    rw [howner, ho]
  · rintro rfl
    rw [howner]
    exact (hsettled.filed p hp href hmarket).2 deal hdeal

/-- An entry in EURUSD, and the position the broker reports for it. -/
def entry : OrderRequest :=
  ⟨"EURUSD", "alpha", "alpha", "alpha-L1", .long, 1000, 1, 20, 40, 110000, 109800, 110400⟩

def reported : IgPosition ℚ :=
  ⟨"CS.D.EURUSD.MINI.IP", "alpha-L1", "DIAAAA", "BUY", "2026/01/05 10:00:00:000", 1, 1, 0, 0⟩

/-- A cycle runs after the broker reports the deal and before the channel has saved it: the deal is
listed as unknown for good, and under its strategy as well. -/
theorem deals_attributed_twice :
    let actions : List (BookingAction Unit ℚ) := [.accept () entry "alpha-L1" "DIAAAA",
      .report reported, .sync, .savePosition (), .addPosition (), .saveDealReceipt (), .sync]
    ∃ s, Transition.exec step (fresh 0) actions = some s ∧ s.channels () = .idle ∧
      "alpha-L1" ∈ s.store.listed "Unknown" ∧ "alpha-L1" ∈ s.store.listed "alpha" ∧
      ¬ s.Attributed := by
  intro actions
  have hrun : Transition.exec step (fresh 0) actions = some _ := rfl
  refine ⟨_, hrun, rfl, by decide, by decide, fun h => ?_⟩
  obtain ⟨record, -, hlisted⟩ := (h reported List.mem_cons_self).2 _ rfl
  have hunknown := (hlisted "Unknown").mp (by decide)
  have halpha := (hlisted "alpha").mp (by decide)
  exact absurd (hunknown.trans halpha.symm) (by decide)

/-- The broker reports the deal when its record is saved. -/
theorem deals_attributed_saved :
    let actions : List (BookingAction Unit ℚ) := [.accept () entry "alpha-L1" "DIAAAA",
      .savePosition (), .report reported, .sync, .addPosition (), .saveDealReceipt ()]
    ∃ s s', Transition.exec step (fresh 0) actions = some s ∧ s.step .sync = some s' ∧
      s'.Attributed := by
  intro actions
  have hrun : Transition.exec step (fresh 0) actions = some _ := rfl
  refine ⟨_, _, hrun, rfl, deals_attributed hrun ?_ ?_ rfl⟩
  · decide
  · decide

end BookingState

end Positions

end BacktestEngine

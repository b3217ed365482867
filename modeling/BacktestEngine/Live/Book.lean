import BacktestEngine.Trading.FirstPassage
import BacktestEngine.Live.StrategyRunner

/-! # The book of a live worker

The side map and the manager are written by the same paths, so they agree unless
a throw falls between the strategy's close and the end of its close diff. Without
a throw there, a deal that the feed reports is booked in both.
-/

namespace BacktestEngine

open TradeManager

namespace TradeManager

/-- Only this symbol is ever open. -/
def OnlyOn (tm : TradeManager) (symbol : String) : Prop :=
  ∀ s t, tm.activeTrades.lookup s = some t → s = symbol ∧ t.symbol = symbol

/-- Two records of one trade agree on what it was opened with. -/
def SameDeal (t t' : Trade) : Prop :=
  t'.symbol = t.symbol ∧ t'.direction = t.direction ∧ t'.size = t.size ∧
    t'.exitReferencePrice = t.exitReferencePrice ∧ t'.openTime = t.openTime

/-- Nothing was closed, and the symbol holds the trade it held. -/
def Kept (symbol : String) (tm tm' : TradeManager) : Prop :=
  tm'.closedTrades = tm.closedTrades ∧
    ((tm.activeTrades.lookup symbol = none ∧ tm'.activeTrades.lookup symbol = none) ∨
      ∃ t t', tm.activeTrades.lookup symbol = some t ∧
        tm'.activeTrades.lookup symbol = some t' ∧ SameDeal t t')

/-- The trade of the symbol was closed, and nothing else. -/
def ClosedOne (symbol : String) (tm tm' : TradeManager) : Prop :=
  ∃ t closed, tm.activeTrades.lookup symbol = some t ∧ tm'.activeTrades.lookup symbol = none ∧
    tm'.closedTrades = tm.closedTrades ++ [closed] ∧ SameDeal t closed

/-- What calls that never open can do to a manager that is open on one symbol at most. -/
def Handled (symbol : String) (tm tm' : TradeManager) : Prop :=
  OnlyOn tm' symbol ∧ (Kept symbol tm tm' ∨ ClosedOne symbol tm tm')

variable {tm tm' tm'' : TradeManager} {symbol : String}

theorem SameDeal.refl (t : Trade) : SameDeal t t := ⟨rfl, rfl, rfl, rfl, rfl⟩

theorem SameDeal.trans {t t' t'' : Trade} (h : SameDeal t t') (h' : SameDeal t' t'') :
    SameDeal t t'' :=
  ⟨h'.1.trans h.1, h'.2.1.trans h.2.1, h'.2.2.1.trans h.2.2.1, h'.2.2.2.1.trans h.2.2.2.1,
    h'.2.2.2.2.trans h.2.2.2.2⟩

theorem Handled.refl (h : OnlyOn tm symbol) : Handled symbol tm tm := by
  refine ⟨h, .inl ⟨rfl, ?_⟩⟩
  cases hl : tm.activeTrades.lookup symbol with
  | none => exact .inl ⟨rfl, rfl⟩
  | some t => exact .inr ⟨t, t, rfl, rfl, .refl t⟩

theorem Handled.trans (h : Handled symbol tm tm') (h' : Handled symbol tm' tm'') :
    Handled symbol tm tm'' := by
  refine ⟨h'.1, ?_⟩
  rcases h.2 with ⟨hlog, hopen⟩ | ⟨t, closed, ht, hnone, hlog, hs⟩
  · rcases h'.2 with ⟨hlog', hopen'⟩ | ⟨t', closed, ht', hnone', hlog', hs'⟩
    · refine .inl ⟨hlog'.trans hlog, ?_⟩
      rcases hopen with ⟨hn, hn'⟩ | ⟨t, t', ht, ht', hs⟩
      · rcases hopen' with ⟨-, hn''⟩ | ⟨t', t'', ht', -, -⟩
        · exact .inl ⟨hn, hn''⟩
        · rw [hn'] at ht'
          cases ht'
      · rcases hopen' with ⟨hn', -⟩ | ⟨u, u', hu, hu', hs'⟩
        · rw [ht'] at hn'
          cases hn'
        · rw [ht'] at hu
          cases hu
          exact .inr ⟨t, u', ht, hu', hs.trans hs'⟩
    · rcases hopen with ⟨-, hn'⟩ | ⟨t, u, ht, hu, hs⟩
      · rw [hn'] at ht'
        cases ht'
      · rw [hu] at ht'
        cases ht'
        exact .inr ⟨t, closed, ht, hnone', by rw [hlog', hlog], hs.trans hs'⟩
  · refine .inr ⟨t, closed, ht, ?_⟩
    rcases h'.2 with ⟨hlog', ⟨-, hn''⟩ | ⟨u, u', hu, -, -⟩⟩ | ⟨u, closed', hu, -, -, -⟩
    · exact ⟨hn'', by rw [hlog', hlog], hs⟩
    · rw [hnone] at hu
      cases hu
    · rw [hnone] at hu
      cases hu

theorem closeTrade_handled (h : OnlyOn tm symbol) (s : String) (price : ℤ) (tick : PriceData)
    (liquidated : Bool) : Handled symbol tm (tm.closeTrade s price tick liquidated).1 := by
  cases hl : tm.activeTrades.lookup s with
  | none =>
    rw [closeTrade_none hl]
    exact .refl h
  | some t =>
    obtain ⟨rfl, -⟩ := h s t hl
    have hlookup := closeTrade_lookup tm s price tick liquidated
    rw [closeTrade_some hl] at hlookup ⊢
    refine ⟨fun s' t' ht' => ?_, .inr ⟨t, _, hl, ?_, rfl, ⟨rfl, rfl, rfl, rfl, rfl⟩⟩⟩
    · rw [hlookup s'] at ht'
      split at ht'
      · cases ht'
      · exact h s' t' ht'
    · rw [hlookup s, if_pos rfl]

theorem markToMarket_handled (h : OnlyOn tm symbol) (tick : PriceData) :
    Handled symbol tm (tm.markToMarket tick) := by
  cases hl : tm.activeTrades.lookup tick.symbol with
  | none =>
    rw [markToMarket_none hl]
    exact .refl h
  | some t =>
    obtain ⟨hs, ht⟩ := h tick.symbol t hl
    rw [markToMarket_some hl]
    subst hs
    refine ⟨fun s' t' ht' => ?_, .inl ⟨rfl, .inr ⟨t, _, hl, AList.lookup_insert _,
      ⟨rfl, rfl, rfl, rfl, rfl⟩⟩⟩⟩
    dsimp only [updateDrawdown_activeTrades] at ht'
    by_cases hs' : s' = tick.symbol
    · subst hs'
      rw [AList.lookup_insert] at ht'
      cases ht'
      exact ⟨rfl, ht⟩
    · rw [AList.lookup_insert_ne hs'] at ht'
      exact h s' t' ht'

theorem closeEach_handled (liquidated : Bool) (tick : PriceData) :
    ∀ (pairs : List (String × ℤ)) {tm : TradeManager}, OnlyOn tm symbol →
      Handled symbol tm (closeEach tick liquidated tm pairs)
  | [], _, h => .refl h
  | (s, price) :: pairs, _, h => by
    have hone := closeTrade_handled h s price tick liquidated
    exact hone.trans (closeEach_handled liquidated tick pairs hone.1)

theorem calls_handled {cs : List Call} (h : OnlyOn tm symbol) (hcs : ∀ c ∈ cs,
    ∀ tick size direction stop limit, c ≠ .openTrade tick size direction stop limit) :
    Handled symbol tm (tm.calls cs) := by
  induction cs generalizing tm with
  | nil => exact .refl h
  | cons c cs ih =>
    have hone : Handled symbol tm (tm.call c) := by
      cases c with
      | openTrade tick size direction stop limit =>
        exact absurd rfl (hcs _ List.mem_cons_self _ _ _ _ _)
      | markToMarket tick => exact markToMarket_handled h tick
      | closeTrade s price tick liquidated => exact closeTrade_handled h s price tick liquidated
      | closeAllTrades tick liquidated order => exact closeEach_handled liquidated tick _ h
    exact hone.trans (ih hone.1 fun k hk => hcs k (List.mem_cons_of_mem _ hk))

end TradeManager

namespace Live

/-- The strategy only closes and revalues; it never opens. -/
def LiveStrategy.NeverOpens {σ B : Type} (strategy : LiveStrategy σ B) : Prop :=
  ∀ state tick store tm, ∀ c ∈ (strategy.during state tick store tm).1.1,
    ∀ tick size direction stop limit, c ≠ .openTrade tick size direction stop limit

/-- The trade was opened for the deal. -/
def Mirrors (deal : BookedPosition) (trade : Trade) : Prop :=
  trade.direction = deal.direction ∧ trade.size = deal.engineSize ∧
    trade.exitReferencePrice = deal.level ∧ trade.openTime = deal.openedAt

theorem Mirrors.sameDeal {deal : BookedPosition} {t t' : Trade} (hm : Mirrors deal t)
    (h : SameDeal t t') : Mirrors deal t' :=
  ⟨h.2.1.trans hm.1, h.2.2.1.trans hm.2.1, h.2.2.2.1.trans hm.2.2.1, h.2.2.2.2.trans hm.2.2.2⟩

namespace StrategyRunner

variable {σ B : Type} (r : StrategyRunner B) (spec : WorkerSpec σ B)

/-- The side map holds an entry for the symbol exactly when a trade is open on it. -/
def BookConsistent (w : Worker σ B) : Prop :=
  (w.sideMap.lookup spec.symbol).isSome = (w.tradeManager.activeTrades.lookup spec.symbol).isSome

/-- Every open trade is backed by the deal it mirrors. -/
structure Backs (w : Worker σ B) : Prop where
  only : OnlyOn w.tradeManager spec.symbol
  backed : ∀ t, w.tradeManager.activeTrades.lookup spec.symbol = some t →
    ∃ deal, w.sideMap.lookup spec.symbol = some deal ∧ Mirrors deal t

/-- The book and the outbox of closes are left alone. -/
structure SameBook (w w' : Worker σ B) : Prop where
  tradeManager : w'.tradeManager = w.tradeManager
  sideMap : w'.sideMap = w.sideMap
  closes : w'.closes = w.closes
  closeDropped : w'.stats.closeDropped = w.stats.closeDropped

/-- Nothing has gone to the close sink and no close was counted as dropped. -/
structure SameOutbox (w w' : Worker σ B) : Prop where
  closes : w'.closes = w.closes
  closeDropped : w'.stats.closeDropped = w.stats.closeDropped

/-- A part of the tick that closes nothing at the broker and keeps the book in order. -/
structure Upkeep (w w' : Worker σ B) : Prop where
  outbox : SameOutbox w w'
  backs : Backs spec w → Backs spec w'
  consistent : BookConsistent spec w → BookConsistent spec w'

variable {r spec} {w w' w'' : Worker σ B} {event : TickEvent}

theorem SameBook.backs (h : SameBook w w') (hb : Backs spec w) : Backs spec w' where
  only := h.tradeManager ▸ hb.only
  backed := by
    rw [h.tradeManager, h.sideMap]
    exact hb.backed

theorem SameBook.upkeep (h : SameBook w w') : Upkeep spec w w' where
  outbox := ⟨h.closes, h.closeDropped⟩
  backs := h.backs
  consistent := by
    rw [BookConsistent, BookConsistent, h.tradeManager, h.sideMap]
    exact id

theorem Upkeep.refl (w : Worker σ B) : Upkeep spec w w :=
  SameBook.upkeep ⟨rfl, rfl, rfl, rfl⟩

theorem Upkeep.trans (h : Upkeep spec w w') (h' : Upkeep spec w' w'') : Upkeep spec w w'' where
  outbox := ⟨h'.outbox.closes.trans h.outbox.closes,
    h'.outbox.closeDropped.trans h.outbox.closeDropped⟩
  backs := h'.backs ∘ h.backs
  consistent := h'.consistent ∘ h.consistent

/-! ## The sync -/

theorem openTrade_seed (hn : w.tradeManager.activeTrades.lookup spec.symbol = none)
    (deal : BookedPosition) :
    let synthetic : PriceData := ⟨deal.level, deal.level, deal.openedAt, spec.symbol⟩
    ∃ t, (w.tradeManager.openTrade synthetic deal.engineSize deal.direction 0
        0).1.activeTrades.lookup spec.symbol = some t ∧ t.symbol = spec.symbol ∧ Mirrors deal t := by
  intro synthetic
  have hn' : w.tradeManager.activeTrades.lookup synthetic.symbol = none := hn
  rw [openTrade_fresh hn']
  refine ⟨_, AList.lookup_insert _, rfl, rfl, rfl, ?_, rfl⟩
  cases deal.direction <;> simp only [newTrade] <;> rfl

/-- Following the booked deal keeps the two structures in step. -/
theorem refreshBook_upkeep (w : Worker σ B) (tick : PriceData) (fetched : List BookedPosition) :
    Upkeep spec w (refreshBook spec w tick fetched) := by
  unfold refreshBook
  split
  · exact .refl w
  · rename_i booked hbooked
    split
    · refine ⟨⟨rfl, rfl⟩, fun hb => ⟨hb.only, fun t ht => ?_⟩, fun hc => ?_⟩
      · obtain ⟨deal, hdeal, hm⟩ := hb.backed t ht
        rw [hbooked] at hdeal
        cases hdeal
        exact ⟨_, AList.lookup_insert _, hm⟩
      · rw [BookConsistent, hbooked] at hc
        rw [BookConsistent, AList.lookup_insert]
        exact hc
    · have hlookup := closeTrade_lookup w.tradeManager spec.symbol (removalPrice spec w tick) tick
        false
      refine ⟨⟨rfl, rfl⟩, fun hb => ⟨fun s t ht => ?_, fun t ht => ?_⟩, fun _ => ?_⟩
      · rw [hlookup s] at ht
        split at ht
        · cases ht
        · exact hb.only s t ht
      · rw [hlookup, if_pos rfl] at ht
        cases ht
      · rw [BookConsistent, hlookup, if_pos rfl, AList.lookup_erase]
        rfl

/-- A deal is booked when neither structure holds one. -/
theorem seedBook_upkeep (w : Worker σ B) (fetched : List BookedPosition) :
    Upkeep spec w (seedBook spec w fetched) := by
  unfold seedBook
  split
  · exact .refl w
  · rename_i first rest
    split
    · rename_i hfree
      simp only [Bool.and_eq_true, Bool.not_eq_true', hasActiveTradeForSymbol, findActiveTrade,
        Option.isNone_iff_eq_none, Option.isSome_eq_false_iff] at hfree
      obtain ⟨t, ht, hsym, hm⟩ := openTrade_seed (w := w) hfree.2 first
      refine ⟨⟨rfl, rfl⟩, fun hb => ⟨fun s t' ht' => ?_, fun t' ht' => ?_⟩, fun _ => ?_⟩
      · by_cases hs : s = spec.symbol
        · subst hs
          rw [ht] at ht'
          cases ht'
          exact ⟨rfl, hsym⟩
        · rw [openTrade_lookup_ne (Ne.symm hs)] at ht'
          exact hb.only s t' ht'
      · rw [ht] at ht'
        cases ht'
        exact ⟨first, AList.lookup_insert _, hm⟩
      · rw [BookConsistent, ht, AList.lookup_insert]
        rfl
    · exact .refl w

theorem syncBookIfDue_upkeep (w : Worker σ B) (event : TickEvent) :
    Upkeep spec w (r.syncBookIfDue spec w event).1 := by
  unfold syncBookIfDue
  split
  · exact .refl w
  · have hclock : Upkeep spec w { w with nextSyncAt := event.now + r.bookSyncInterval } :=
      SameBook.upkeep ⟨rfl, rfl, rfl, rfl⟩
    split
    · exact hclock
    · exact hclock.trans (SameBook.upkeep ⟨rfl, rfl, rfl, rfl⟩)
    · exact hclock.trans ((refreshBook_upkeep _ _ _).trans (seedBook_upkeep _ _))

/-- A successful sync that reports a deal ends with a reported deal booked in both structures:
the one booked before if it is still reported, and the oldest otherwise. -/
structure Rebooked (spec : WorkerSpec σ B) (w w' : Worker σ B) (first : BookedPosition)
    (rest : List BookedPosition) (deal : BookedPosition) (trade : Trade) : Prop where
  inSideMap : w'.sideMap.lookup spec.symbol = some deal
  inManager : w'.tradeManager.activeTrades.lookup spec.symbol = some trade
  mirrors : Mirrors deal trade
  reported : ∃ position ∈ first :: rest, position.dealReference = deal.dealReference
  kept : ∀ booked, w.sideMap.lookup spec.symbol = some booked →
    (∃ position ∈ first :: rest, position.dealReference = booked.dealReference) →
      deal.dealReference = booked.dealReference
  oldest : (∀ booked, w.sideMap.lookup spec.symbol = some booked →
    ∀ position ∈ first :: rest, position.dealReference ≠ booked.dealReference) → deal = first

variable (spec) in
/-- Seeding an empty book takes the oldest deal. -/
theorem seedBook_fresh (hside : w.sideMap.lookup spec.symbol = none)
    (hopen : w.tradeManager.activeTrades.lookup spec.symbol = none) (first : BookedPosition)
    (rest : List BookedPosition) :
    ∃ trade, (seedBook spec w (first :: rest)).sideMap.lookup spec.symbol = some first ∧
      (seedBook spec w (first :: rest)).tradeManager.activeTrades.lookup spec.symbol = some trade ∧
      Mirrors first trade := by
  obtain ⟨t, ht, -, hm⟩ := openTrade_seed (w := w) hopen first
  have hfree : ((w.sideMap.lookup spec.symbol).isNone &&
      !w.tradeManager.hasActiveTradeForSymbol spec.symbol) = true := by
    rw [hside, hasActiveTradeForSymbol, findActiveTrade, hopen]
    rfl
  rw [seedBook, if_pos hfree]
  exact ⟨t, AList.lookup_insert _, ht, hm⟩

theorem sync_rebooks (hb : Backs spec w) (hc : BookConsistent spec w) (hfeed : r.feedWired = true)
    (hdue : w.nextSyncAt ≤ event.now) {first : BookedPosition} {rest : List BookedPosition}
    (hok : event.feed = .ok (some (first :: rest))) :
    ∃ deal trade, Rebooked spec w (r.syncBookIfDue spec w event).1 first rest deal trade := by
  have hgo : (!r.feedWired || decide (event.now < w.nextSyncAt)) = false := by
    rw [hfeed, decide_eq_false (not_lt.mpr hdue)]
    rfl
  simp only [syncBookIfDue, hgo, Bool.false_eq_true, ↓reduceIte, hok]
  cases hside : w.sideMap.lookup spec.symbol with
  | none =>
    have hopen : w.tradeManager.activeTrades.lookup spec.symbol = none := by
      rw [BookConsistent, hside] at hc
      exact Option.isSome_eq_false_iff.mp hc.symm |> Option.isNone_iff_eq_none.mp
    have hrefresh : refreshBook spec { w with nextSyncAt := event.now + r.bookSyncInterval }
        event.tick (first :: rest) = { w with nextSyncAt := event.now + r.bookSyncInterval } := by
      simp only [refreshBook, hside]
    rw [hrefresh]
    obtain ⟨trade, hs, ht, hm⟩ := seedBook_fresh spec
      (w := { w with nextSyncAt := event.now + r.bookSyncInterval }) hside hopen first rest
    refine ⟨first, trade, hs, ht, hm, ⟨first, List.mem_cons_self, rfl⟩, ?_, fun _ => rfl⟩
    intro booked hbooked
    rw [hside] at hbooked
    cases hbooked
  | some booked =>
    have hsome : (w.tradeManager.activeTrades.lookup spec.symbol).isSome = true := by
      rw [BookConsistent, hside] at hc
      exact hc.symm
    obtain ⟨t, ht⟩ := Option.isSome_iff_exists.mp hsome
    obtain ⟨deal, hdeal, hm⟩ := hb.backed t ht
    rw [hside] at hdeal
    cases hdeal
    cases hfind : (first :: rest).find? fun position =>
        position.dealReference = booked.dealReference with
    | some found =>
      have hmem := List.mem_of_find?_eq_some hfind
      have href : found.dealReference = booked.dealReference := by
        simpa using List.find?_some hfind
      simp only [refreshBook, hside, hfind, seedBook, AList.lookup_insert, Option.isNone_some,
        Bool.false_and, Bool.false_eq_true, ↓reduceIte]
      refine ⟨_, t, AList.lookup_insert _, ht, hm, ⟨found, hmem, href⟩, ?_, ?_⟩
      · intro booked' hbooked' _
        rw [hside] at hbooked'
        cases hbooked'
        rfl
      · exact fun hnone => absurd href (hnone booked hside found hmem)
    | none =>
      have hgone : ∀ position ∈ first :: rest, position.dealReference ≠ booked.dealReference := by
        intro position hp
        simpa using List.find?_eq_none.mp hfind position hp
      simp only [refreshBook, hside, hfind]
      obtain ⟨trade, hs, hopen, hm'⟩ := seedBook_fresh spec (w := { w with
        nextSyncAt := event.now + r.bookSyncInterval
        tradeManager := (w.tradeManager.closeTrade spec.symbol
          (removalPrice spec { w with nextSyncAt := event.now + r.bookSyncInterval } event.tick)
          event.tick false).1
        sideMap := w.sideMap.erase spec.symbol
        stats := { w.stats with bookRemoved := w.stats.bookRemoved + 1 } })
        (AList.lookup_erase _ _) (by rw [closeTrade_lookup, if_pos rfl]) first rest
      refine ⟨first, trade, hs, hopen, hm', ⟨first, List.mem_cons_self, rfl⟩, ?_, fun _ => rfl⟩
      rintro booked' hbooked' ⟨position, hp, he⟩
      rw [hside] at hbooked'
      cases hbooked'
      exact absurd he (hgone position hp)

/-! ## The part of a tick before the strategy manages its trade -/

theorem andThen_upkeep {result : Worker σ B × Bool} {next : Worker σ B → Worker σ B × Bool}
    (h : Upkeep spec w result.1) (hnext : ∀ v, Upkeep spec v (next v).1) :
    Upkeep spec w (Worker.andThen result next).1 := by
  unfold Worker.andThen
  split
  · exact h
  · exact h.trans (hnext _)

theorem updateBars_upkeep (w : Worker σ B) (event : TickEvent) :
    Upkeep spec w (r.updateBars w event).1 := by
  unfold updateBars
  split
  · exact .refl w
  · exact SameBook.upkeep ⟨rfl, rfl, rfl, rfl⟩

variable (r spec) in
theorem onSignal_sameBook (w : Worker σ B) (event : TickEvent) (signal : Direction)
    (distances : Distances) : SameBook w (r.onSignal spec w event signal distances).1 := by
  simp only [onSignal, emitOrder, evictOpens]
  split_ifs <;> (try split) <;> (try split) <;> exact ⟨rfl, rfl, rfl, rfl⟩

theorem entryPhase_sameBook (w : Worker σ B) (event : TickEvent) :
    SameBook w (r.entryPhase spec w event).1 := by
  unfold entryPhase
  split
  · exact ⟨rfl, rfl, rfl, rfl⟩
  · split
    · exact ⟨rfl, rfl, rfl, rfl⟩
    · split
      · exact ⟨rfl, rfl, rfl, rfl⟩
      · exact ⟨rfl, rfl, rfl, rfl⟩
      · rename_i strategy _
        have h := onSignal_sameBook r spec { w with strategy := strategy } event
        exact ⟨(h _ _).tradeManager, (h _ _).sideMap, (h _ _).closes, (h _ _).closeDropped⟩

variable (r spec) in
/-- Nothing before `during` sends a close or lets the two structures drift apart. -/
theorem beforeDuring_upkeep (w : Worker σ B) (event : TickEvent) :
    Upkeep spec w (r.beforeDuring spec w event).1 :=
  andThen_upkeep (syncBookIfDue_upkeep w event) fun v =>
    andThen_upkeep (updateBars_upkeep v event) fun v => (entryPhase_sameBook v event).upkeep

/-! ## The strategy's part of a tick -/

/-- The strategy closed the one trade there was, and the deal behind it is booked. -/
structure ClosedBooked (spec : WorkerSpec σ B) (w : Worker σ B) (event : TickEvent)
    (closed : Trade) (deal : BookedPosition) : Prop where
  log : closedByStrategy spec w event = [closed]
  symbol : closed.symbol = spec.symbol
  booked : w.sideMap.lookup spec.symbol = some deal
  mirrors : Mirrors deal closed
  held : (w.tradeManager.activeTrades.lookup spec.symbol).isSome
  free : (managed spec w event).tradeManager.activeTrades.lookup spec.symbol = none

theorem managed_handled (hn : spec.strategy.NeverOpens) (hb : Backs spec w) (event : TickEvent) :
    Handled spec.symbol w.tradeManager (managed spec w event).tradeManager :=
  calls_handled hb.only (hn _ _ _ _)

/-- The strategy closes nothing or the booked trade. -/
theorem managed_cases (hn : spec.strategy.NeverOpens) (hb : Backs spec w) (event : TickEvent) :
    (closedByStrategy spec w event = [] ∧
      (BookConsistent spec w → BookConsistent spec (managed spec w event))) ∨
    ∃ closed deal, ClosedBooked spec w event closed deal := by
  rcases (managed_handled hn hb event).2 with ⟨hlog, hopen⟩ | ⟨t, closed, ht, hfree, hlog, hs⟩
  · refine .inl ⟨by rw [closedByStrategy, hlog, List.drop_length], fun hc => ?_⟩
    have hside : (managed spec w event).sideMap = w.sideMap := rfl
    rw [BookConsistent] at hc
    rw [BookConsistent, hside, hc]
    rcases hopen with ⟨hn, hn'⟩ | ⟨t, t', ht, ht', -⟩
    · rw [hn, hn']
    · rw [ht, ht']
      rfl
  · obtain ⟨deal, hdeal, hm⟩ := hb.backed t ht
    exact .inr ⟨closed, deal, by rw [closedByStrategy, hlog, List.drop_left],
      hs.1.trans (hb.only _ _ ht).2, hdeal, hm.sameDeal hs, by rw [ht]; rfl, hfree⟩

theorem managed_backs (hn : spec.strategy.NeverOpens) (hb : Backs spec w) (event : TickEvent) :
    Backs spec (managed spec w event) := by
  have h := managed_handled hn hb event
  refine ⟨h.1, fun t' ht' => ?_⟩
  rcases h.2 with ⟨-, ⟨-, hfree⟩ | ⟨t, u, ht, hu, hs⟩⟩ | ⟨-, -, -, hfree, -, -⟩
  · rw [hfree] at ht'
    cases ht'
  · rw [hu] at ht'
    cases ht'
    obtain ⟨deal, hdeal, hm⟩ := hb.backed t ht
    exact ⟨deal, hdeal, hm.sameDeal hs⟩
  · rw [hfree] at ht'
    cases ht'

theorem duringPhase_nothing (h : closedByStrategy spec w event = []) :
    (r.duringPhase spec w event).1 = managed spec w event := by
  unfold duringPhase
  split
  · rfl
  · rw [h]
    rfl

theorem duringPhase_closed {closed : Trade} {deal : BookedPosition}
    (h : ClosedBooked spec w event closed deal) :
    (r.duringPhase spec w event).1 =
      if (duringCalls spec w event).2 then managed spec w event
      else (r.emitClose spec (managed spec w event) event closed).1 := by
  unfold duringPhase
  split
  · rfl
  · rw [h.log, emitCloses]
    unfold Worker.andThen
    split <;> rfl

/-- The close sink is handed the close of the deal. -/
def Addressable (r : StrategyRunner B) (deal : BookedPosition) : Prop :=
  r.closeSinkWired = true ∧ deal.dealId.isEmpty = false

variable (r spec event) in
/-- What becomes of a close once the strategy has returned. -/
theorem emitClose_cases {closed : Trade} {deal : BookedPosition}
    (h : w.sideMap.lookup closed.symbol = some deal) :
    (¬ Addressable r deal ∧ (r.emitClose spec w event closed).1 =
      { dropClose w with sideMap := w.sideMap.erase closed.symbol }) ∨
    (Addressable r deal ∧ event.closeSinkThrows (closeIntent spec deal closed event.tick) = true ∧
      (r.emitClose spec w event closed).1 =
        { w with closes := w.closes ++ [closeIntent spec deal closed event.tick] }) ∨
    (Addressable r deal ∧ event.closeSinkThrows (closeIntent spec deal closed event.tick) = false ∧
      (r.emitClose spec w event closed).1 =
        { w with
          closes := w.closes ++ [closeIntent spec deal closed event.tick]
          stats := { w.stats with strategyCloses := w.stats.strategyCloses + 1 }
          sideMap := w.sideMap.erase closed.symbol }) := by
  simp only [emitClose, h, Addressable]
  cases hwired : r.closeSinkWired <;> cases hid : deal.dealId.isEmpty <;>
    cases hthrow : event.closeSinkThrows (closeIntent spec deal closed event.tick) <;> simp

end StrategyRunner

end Live

end BacktestEngine

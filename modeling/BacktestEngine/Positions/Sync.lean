import BacktestEngine.Library.CivilDate
import BacktestEngine.Models.MarketDefinitions
import BacktestEngine.Positions.Store

/-! # The cycle of the position producer

A cycle fetches the broker's book, saves or refreshes the record of each position in
it and lists it, and then keeps of every list the deals whose records are alive. A
position that has no record yet is written from the broker's numbers.
-/

namespace BacktestEngine

namespace Positions

open CivilDate MarketDefinition

variable {D : Type}

/-- Read a whole number that fills the characters: digits, after a minus sign if there is one. -/
def readInt (chars : List Char) : Option ℤ :=
  let digits (cs : List Char) : Option ℤ :=
    if cs ≠ [] ∧ cs.all Char.isDigit then
      some (cs.foldl (fun n c => 10 * n + ((c.toNat : ℤ) - 48)) 0)
    else none
  match chars with
  | '-' :: cs => (digits cs).map fun n => -n
  | cs => digits cs

/-- A date "yyyy/MM/dd HH:mm:ss:fff" in epoch microseconds, or the fallback. -/
def parseCreatedDateMicros (createdDate : String) (fallbackMicros : ℤ) : ℤ :=
  let chars := createdDate.toList
  let field (pos len : ℕ) : Option ℤ := readInt ((chars.drop pos).take len)
  if chars.length = 23 ∧ chars[4]? = some '/' ∧ chars[7]? = some '/' ∧ chars[10]? = some ' ' ∧
      chars[13]? = some ':' ∧ chars[16]? = some ':' ∧ chars[19]? = some ':' then
    match field 0 4, field 5 2, field 8 2, field 11 2, field 14 2, field 17 2, field 20 3 with
    | some year, some month, some day, some hour, some minute, some sec, some millis =>
      if Valid year month day ∧ hour ≤ 23 ∧ minute ≤ 59 ∧ sec ≤ 59 then
        (((daysFromCivil year month day * 24 + hour) * 60 + minute) * 60 + sec) * second +
          millis * 1000
      else fallbackMicros
    | _, _, _, _, _, _, _ => fallbackMicros
  else fallbackMicros

/-- How long a refreshed record lives: ten minutes, and over the weekend from Friday 21:55 to
22:00 on. -/
def updateTtl (now : ℤ) : ℤ :=
  let nowUtc := now / second
  let day := nowUtc / 86400
  let timeOfDay := nowUtc - day * 86400
  let weekday := (day + 4) % 7
  if weekday = 5 ∧ timeOfDay / 3600 = 21 ∧ 55 ≤ timeOfDay % 3600 / 60 then
    (2 * 24 + 2) * 3600 * second
  else 600 * second

/-- How long a record lives that is written from the broker's numbers. -/
def kFreshPositionTtl : ℤ := 1800 * second

def makeFreshRecord [Rounding D] (position : IgPosition D) (symbol strategyId strategyName : String)
    (priceScale nowMicros : ℤ) : PositionRecord D :=
  let scalePrice (level : D) : ℤ :=
    if priceScale ≤ 0 then 0
    else Rounding.llround (Decimal.mul level (Decimal.ofInt priceScale))
  { dealId := position.dealId
    dealReference := position.dealReference
    symbol := symbol
    epic := position.epic
    direction := position.direction
    size := position.dealSize
    level := scalePrice position.openLevel
    stopLevel := scalePrice position.stopLevel
    limitLevel := scalePrice position.limitLevel
    strategyId := strategyId
    strategyName := strategyName
    openedAtMicros := parseCreatedDateMicros position.createdDate nowMicros }

/-- A record without a strategy is given one, and the broker's deal id when it names one. -/
def applyBrokerUpdate (record : PositionRecord D) (position : IgPosition D) (strategyId : String) :
    PositionRecord D :=
  { record with
    strategyId :=
      if record.strategyId = "" ∨ record.strategyId = "Unknown" then strategyId
      else record.strategyId
    dealId := if position.dealId ≠ "" then position.dealId else record.dealId }

/-- A name from a receipt, or "Unknown". -/
def nameOf (name : DealReceipt → String) (receipt : Option (Stored DealReceipt)) : String :=
  match receipt.bind decodeDealReceipt with
  | some receipt => if name receipt = "" then "Unknown" else name receipt
  | none => "Unknown"

variable [Rounding D]

/-- The record that a cycle writes for a position, and how long it lives. -/
def syncedRecord (position : IgPosition D) (symbol strategyId strategyName : String)
    (payload : Option (Payload D)) (now : ℤ) : PositionRecord D × ℤ :=
  match payload.bind decodePositionRecord with
  | some record => (applyBrokerUpdate record position strategyId, updateTtl now)
  | none =>
    (makeFreshRecord position symbol strategyId strategyName (SymbolScale.getPriceScale symbol) now,
      kFreshPositionTtl)

/-- Save and list one position of the book; one the engine does not trade is left alone, and so is
one whose record cannot be read. -/
def applyPosition (position : IgPosition D) : StoreProgram D Unit :=
  match findMarketByEpicMini position.epic with
  | none => return ()
  | some market =>
    if position.dealReference = "" then return ()
    else do
      let receipt ← getDealReceipt position.dealReference market.symbol
      match ← getPositionPayload position.dealReference with
      | none => return ()
      | some payload =>
        let now ← command .readClock
        let (record, ttl) := syncedRecord position market.symbol
          (nameOf DealReceipt.strategyId receipt) (nameOf DealReceipt.strategyName receipt)
          payload now
        let _ ← savePosition position.dealReference (.value record) ttl
        let _ ← addPosition record.strategyId record.dealReference
        return ()

/-- One cycle; a book that cannot be fetched ends it before anything is written. -/
def syncOnce : StoreProgram D Unit := do
  match ← command .fetchPositions with
  | none => return ()
  | some book =>
    Program.each applyPosition book
    match ← listStrategyIds with
    | none => return ()
    | some strategyIds =>
      Program.each (fun strategyId => do
        let _ ← refreshPositionList strategyId
        return ()) strategyIds

/-! ## What a cycle writes -/

omit [Rounding D] in
theorem updateTtl_pos (now : ℤ) : 0 < updateTtl now := by
  unfold updateTtl
  dsimp only
  split <;> decide

/-- A position that is left alone. -/
theorem run_applyPosition_skip {position : IgPosition D} {now : ℤ} {book : List (IgPosition D)}
    {store : PositionStore D}
    (h : position.dealReference = "" ∨ findMarketByEpicMini position.epic = none) :
    ((applyPosition position).run (PositionStore.exec now book .answered) store).2 = store := by
  unfold applyPosition
  split
  · rfl
  · rename_i market hmarket
    rcases h with h | h
    · rw [if_pos h]
      rfl
    · rw [hmarket] at h
      cases h

/-- A position on a market of the engine: its record is set, and listed where the record says. -/
theorem run_applyPosition {position : IgPosition D} {market : MarketDefinition} {now : ℤ}
    (book : List (IgPosition D)) {store : PositionStore D}
    (hmarket : findMarketByEpicMini position.epic = some market)
    (hreference : position.dealReference ≠ "") (hread : store.Readable) :
    let s := ((applyPosition position).run (PositionStore.exec now book .answered) store).2
    let receipt := store.receipts.get now (position.dealReference, market.symbol)
    let synced := syncedRecord position market.symbol (nameOf DealReceipt.strategyId receipt)
      (nameOf DealReceipt.strategyName receipt) (store.positions.get now position.dealReference) now
    s.positions = store.positions.set position.dealReference (.value synced.1) (now + synced.2) ∧
    s.receipts = store.receipts ∧ s.Readable ∧
    ∀ id deal, deal ∈ s.listed id ↔
      deal ∈ store.listed id ∨ id = synced.1.strategyId ∧ deal = synced.1.dealReference := by
  intro s receipt synced
  let saved : PositionStore D := { store with
    positions := store.positions.set position.dealReference (.value synced.1) (now + synced.2) }
  have hsaved : saved.Readable := hread
  have hadd := PositionStore.run_addPosition now book synced.1.strategyId synced.1.dealReference
    hsaved
  have hs : s = ((addPosition synced.1.strategyId synced.1.dealReference).run
      (PositionStore.exec now book .answered) saved).2 := by
    simp only [s, applyPosition, hmarket, if_neg hreference, getDealReceipt, getPositionPayload,
      savePosition, command, Program.call_bind, Program.done_bind, Program.pure_eq,
      Program.run_call, Program.run_bind, Program.run_done, PositionStore.exec_answered,
      PositionStore.answer, PositionStore.effect, Lease.Reply.answer, Option.join_some]
    rfl
  rw [hs]
  exact hadd

end Positions

end BacktestEngine

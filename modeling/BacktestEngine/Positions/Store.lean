import Mathlib.Data.List.Sort
import BacktestEngine.Library.Expiring
import BacktestEngine.Library.Keyed
import BacktestEngine.Library.Lease
import BacktestEngine.Library.Program
import BacktestEngine.Models.Trade

/-! # The shared position store

A list of deals for each strategy, the live record of each deal, the record of a
closed one and the receipt of an open. The operations are programs of single store
commands, any of which may fail. Texts are seen as their decoders see them, and every
name is an identifier that its encoding gives back.
-/

namespace BacktestEngine

namespace Positions

open Lease (Reply)

/-- A stored text: the value it decodes to, or none. -/
inductive Stored (α : Type)
  | value (a : α)
  | malformed
  deriving DecidableEq

structure PositionRecord (D : Type) where
  dealId : String
  dealReference : String
  symbol : String
  epic : String
  direction : String
  size : D
  level : ℤ
  stopLevel : ℤ
  limitLevel : ℤ
  strategyId : String
  strategyName : String
  openedAtMicros : ℤ
  deriving DecidableEq

structure DealReceipt where
  strategyId : String
  dealId : String
  strategyName : String
  deriving DecidableEq

/-- One position as the broker reports it. -/
structure IgPosition (D : Type) where
  epic : String
  dealReference : String
  dealId : String
  direction : String
  createdDate : String
  dealSize : D
  openLevel : D
  stopLevel : D
  limitLevel : D
  deriving DecidableEq

abbrev Payload (D : Type) := Stored (PositionRecord D)

/-- A record needs its reference, its symbol and its direction; the rest may be absent. -/
def decodePositionRecord {D : Type} : Payload D → Option (PositionRecord D)
  | .value record =>
    if record.dealReference = "" ∨ record.symbol = "" ∨ record.direction = "" then none
    else some record
  | .malformed => none

def decodeDealReceipt : Stored DealReceipt → Option DealReceipt
  | .value receipt => some receipt
  | .malformed => none

/-- Closed deals are kept for sixty days. -/
def kHistoryTtl : ℤ := 60 * 86400 * second

/-- How long a record lives that is written at the open. -/
def kPositionTtl : ℤ := 300 * second

def kReceiptTtl : ℤ := 60 * 86400 * second

/-- The keys of the store, one map for each family. -/
structure PositionStore (D : Type) where
  lists : AList fun _ : String => Stored (List String)
  positions : Expiring.Store String (Payload D) ℤ
  history : Expiring.Store String (Payload D) ℤ
  receipts : Expiring.Store (String × String) (Stored DealReceipt) ℤ

/-- A store command, the request for the broker's book, or a look at the clock. -/
inductive Command (D : Type)
  | getList (strategyId : String)
  | setList (strategyId : String) (dealIds : List String)
  | deleteList (strategyId : String)
  | scanLists
  | getPosition (dealId : String)
  | getMultiple (dealIds : List String)
  | setPosition (dealId : String) (payload : Payload D) (ttl : ℤ)
  | getDelete (dealId : String)
  | setHistory (dealId : String) (payload : Payload D)
  | getReceipt (dealReference symbol : String)
  | setReceipt (dealReference symbol : String) (payload : Stored DealReceipt)
  | fetchPositions
  | readClock

/-- What a command answers; none when it fails, which a look at the clock does not. -/
abbrev Command.Answer {D : Type} : Command D → Type
  | .getList _ => Option (Option (Stored (List String)))
  | .scanLists => Option (List String)
  | .getPosition _ | .getDelete _ => Option (Option (Payload D))
  | .getMultiple _ => Option (String → Option (Payload D))
  | .getReceipt _ _ => Option (Option (Stored DealReceipt))
  | .fetchPositions => Option (List (IgPosition D))
  | .deleteList _ => Option Unit
  | .setList _ _ | .setPosition _ _ _ | .setHistory _ _ | .setReceipt _ _ _ => Option Bool
  | .readClock => ℤ

namespace PositionStore

variable {D : Type} (store : PositionStore D)

def empty : PositionStore D where
  lists := ∅
  positions := .empty
  history := .empty
  receipts := .empty

/-- The answer of the store at an instant, or of the broker for its book. -/
def answer (now : ℤ) (book : List (IgPosition D)) (reply : Reply) : (c : Command D) → c.Answer
  | .getList strategyId => reply.answer (store.lists.lookup strategyId)
  | .scanLists => reply.answer (store.lists.keys.insertionSort (· ≤ ·))
  | .getPosition dealId | .getDelete dealId => reply.answer (store.positions.get now dealId)
  | .getMultiple dealIds => reply.answer fun dealId =>
    if dealId ∈ dealIds then store.positions.get now dealId else none
  | .getReceipt dealReference symbol =>
    reply.answer (store.receipts.get now (dealReference, symbol))
  | .fetchPositions => reply.answer book
  | .deleteList _ => reply.answer ()
  | .setList _ _ | .setPosition _ _ _ | .setHistory _ _ | .setReceipt _ _ _ => reply.answer true
  | .readClock => now

/-- The store after a command that it ran. -/
def effect (now : ℤ) : Command D → PositionStore D
  | .setList strategyId dealIds =>
    { store with lists := store.lists.insert strategyId (.value dealIds) }
  | .deleteList strategyId => { store with lists := store.lists.erase strategyId }
  | .setPosition dealId payload ttl =>
    { store with positions := store.positions.set dealId payload (now + ttl) }
  | .getDelete dealId => { store with positions := store.positions.delete dealId }
  | .setHistory dealId payload =>
    { store with history := store.history.set dealId payload (now + kHistoryTtl) }
  | .setReceipt dealReference symbol payload =>
    { store with
      receipts := store.receipts.set (dealReference, symbol) payload (now + kReceiptTtl) }
  | .getList _ | .scanLists | .getPosition _ | .getMultiple _ | .getReceipt _ _
  | .fetchPositions | .readClock => store

/-- A command with the way it ends: its answer, if there is one, and the store. -/
def exec (now : ℤ) (book : List (IgPosition D)) (reply : Reply) (c : Command D)
    (store : PositionStore D) : c.Answer × PositionStore D :=
  (store.answer now book reply c, if reply.runs then store.effect now c else store)

@[simp] theorem exec_answered (now : ℤ) (book : List (IgPosition D)) (c : Command D) :
    exec now book .answered c store =
      (store.answer now book .answered c, store.effect now c) := rfl

end PositionStore

/-! ## Operations -/

abbrev StoreProgram (D α : Type) := Program (Command D) Command.Answer α

variable {D : Type}

/-- One command, as a program. -/
def command (c : Command D) : StoreProgram D c.Answer := .call c .done

/-- What reading a list can tell: its deals, that there is none, or nothing. -/
inductive ListState
  | ok (dealIds : List String)
  | missing
  | failed
  deriving DecidableEq

def ListState.ofAnswer : Option (Option (Stored (List String))) → ListState
  | none => .failed
  | some none => .missing
  | some (some .malformed) => .failed
  | some (some (.value dealIds)) => .ok dealIds

def fetchList (strategyId : String) : StoreProgram D ListState := do
  let value ← command (.getList strategyId)
  return .ofAnswer value

/-- The deals whose records a read of many has found. -/
def liveDeals (dealIds : List String) (found : String → Option (Payload D)) : List String :=
  dealIds.filter fun dealId => (found dealId).isSome

/-- A write that failed counts as not stored. -/
def stored (answer : Option Bool) : Bool := answer.getD false

def savePosition (dealId : String) (payload : Payload D) (ttl : ℤ) : StoreProgram D Bool := do
  let answer ← command (.setPosition dealId payload ttl)
  return stored answer

def saveDealReceipt (dealReference symbol : String) (payload : Stored DealReceipt) :
    StoreProgram D Bool := do
  let answer ← command (.setReceipt dealReference symbol payload)
  return stored answer

def getPositionPayload (dealId : String) : StoreProgram D (Option (Option (Payload D))) :=
  command (.getPosition dealId)

/-- A receipt that cannot be read is as one that is not there. -/
def getDealReceipt (dealReference symbol : String) :
    StoreProgram D (Option (Stored DealReceipt)) := do
  let answer ← command (.getReceipt dealReference symbol)
  return answer.join

def listStrategyIds : StoreProgram D (Option (List String)) := command .scanLists

/-- Append the deal to the list of its strategy, unless it is there. -/
def addPosition (strategyId dealId : String) : StoreProgram D Bool := do
  match ← fetchList strategyId with
  | .failed => return false
  | .missing =>
    let answer ← command (.setList strategyId [dealId])
    return stored answer
  | .ok dealIds =>
    if dealId ∈ dealIds then return true
    else
      let answer ← command (.setList strategyId (dealIds ++ [dealId]))
      return stored answer

/-- The listed deals whose record is alive, with it, in list order. -/
def getPositionPayloads (strategyId : String) :
    StoreProgram D (Option (List (String × Payload D))) := do
  match ← fetchList strategyId with
  | .failed => return none
  | .missing => return some []
  | .ok [] => return some []
  | .ok (dealId :: dealIds) =>
    match ← command (.getMultiple (dealId :: dealIds)) with
    | none => return none
    | some found =>
      return some ((dealId :: dealIds).filterMap fun id => (found id).map (id, ·))

def getPositionCount (strategyId : String) : StoreProgram D (Option ℕ) := do
  let payloads ← getPositionPayloads strategyId
  return payloads.map List.length

/-- Write the surviving deals back, or drop a list that has none. -/
def rewriteList (strategyId : String) (survivors : List String) : StoreProgram D Bool := do
  if survivors = [] then
    let removed ← command (.deleteList strategyId)
    return removed.isSome
  else
    let answer ← command (.setList strategyId survivors)
    return stored answer

/-- Keep of a list the deals whose record is alive. -/
def refreshPositionList (strategyId : String) : StoreProgram D Bool := do
  match ← fetchList strategyId with
  | .missing => return true
  | .failed => return false
  | .ok [] => rewriteList strategyId []
  | .ok (dealId :: dealIds) =>
    match ← command (.getMultiple (dealId :: dealIds)) with
    | none => return false
    | some found => rewriteList strategyId (liveDeals (dealId :: dealIds) found)

/-- Take the record of a closed deal and keep it as history. -/
def archivePosition (dealId : String) (payload : Option (Payload D)) : StoreProgram D Unit :=
  match payload with
  | some payload => do
    let _ ← command (.setHistory dealId payload)
    return ()
  | none => return ()

/-- Move a closed deal to the history and strike it from the list of its strategy. -/
def removePosition (strategyId dealId : String) : StoreProgram D Bool := do
  match ← command (.getDelete dealId) with
  | none => return false
  | some payload =>
    archivePosition dealId payload
    match ← fetchList strategyId with
    | .missing => return true
    | .failed => return false
    | .ok dealIds =>
      let answer ← command (.setList strategyId (dealIds.filter (· ≠ dealId)))
      return stored answer

/-- How a removal goes on once the record is archived: it takes the deal off the list. -/
def strikeDeal (strategyId dealId : String) : StoreProgram D Bool := do
  match ← fetchList strategyId with
  | .missing => return true
  | .failed => return false
  | .ok dealIds =>
    let answer ← command (.setList strategyId (dealIds.filter (· ≠ dealId)))
    return stored answer

/-! ## What the readers see -/

/-- The deals of a list as it is stored. -/
def dealsOf : Option (Stored (List String)) → List String
  | some (.value dealIds) => dealIds
  | _ => []

namespace PositionStore

variable (store : PositionStore D) (now : ℤ) {strategyId dealId : String}

/-- The deals in the list of a strategy; none when there is no list. -/
def listed (strategyId : String) : List String := dealsOf (store.lists.lookup strategyId)

/-- The listed deals that have a live record, with it; none when the list cannot be read. -/
def payloads (strategyId : String) : Option (List (String × Payload D)) :=
  if store.lists.lookup strategyId = some .malformed then none
  else some ((store.listed strategyId).filterMap fun id =>
    (store.positions.get now id).map (id, ·))

/-- No list is a text that cannot be read. -/
def Readable : Prop := ∀ strategyId, store.lists.lookup strategyId ≠ some .malformed

variable {store now} {book : List (IgPosition D)}

theorem run_saveDealReceipt {symbol : String} (payload : Stored DealReceipt) :
    ((saveDealReceipt dealId symbol payload).run (exec now book .answered) store).2 =
      { store with
        receipts := store.receipts.set (dealId, symbol) payload (now + kReceiptTtl) } := rfl

theorem Readable.setList (h : store.Readable) (now : ℤ) (dealIds : List String) :
    (store.effect now (.setList strategyId dealIds)).Readable ∧
      ∀ id, (store.effect now (.setList strategyId dealIds)).listed id =
        if id = strategyId then dealIds else store.listed id := by
  constructor
  · intro id
    by_cases hid : id = strategyId
    · subst hid
      simp [effect]
    · simpa [effect, AList.lookup_insert_ne hid] using h id
  · intro id
    by_cases hid : id = strategyId
    · subst hid
      simp [effect, listed, dealsOf]
    · simp [effect, listed, AList.lookup_insert_ne hid, hid]

/-- The append writes only the list, and only to add the deal. -/
theorem run_addPosition (now : ℤ) (book : List (IgPosition D)) (strategyId dealId : String)
    (h : store.Readable) :
    let s := ((addPosition strategyId dealId).run (exec now book .answered) store).2
    s.positions = store.positions ∧ s.receipts = store.receipts ∧ s.Readable ∧
      ∀ id deal, deal ∈ s.listed id ↔
        deal ∈ store.listed id ∨ id = strategyId ∧ deal = dealId := by
  have hwrite : ∀ dealIds : List String, dealIds = store.listed strategyId ++ [dealId] →
      ∀ id deal, deal ∈ (store.effect now (.setList strategyId dealIds)).listed id ↔
        deal ∈ store.listed id ∨ id = strategyId ∧ deal = dealId := by
    rintro _ rfl id deal
    rw [(h.setList now _).2]
    split
    · rename_i hid
      simp [hid]
    · rename_i hid
      simp [hid]
  cases hlookup : store.lists.lookup strategyId with
  | none =>
    simp only [addPosition, fetchList, command, Program.call_bind, Program.run_call, exec_answered,
      answer, Reply.answer, effect, hlookup, ListState.ofAnswer, Program.pure_eq,
      Program.done_bind]
    refine ⟨rfl, rfl, (h.setList now _).1, hwrite _ ?_⟩
    simp [listed, dealsOf, hlookup]
  | some text =>
    cases text with
    | malformed => exact absurd hlookup (h strategyId)
    | value dealIds =>
      have hlisted : store.listed strategyId = dealIds := by simp [listed, dealsOf, hlookup]
      simp only [addPosition, fetchList, command, Program.call_bind, Program.run_call,
        exec_answered, answer, Reply.answer, effect, hlookup, ListState.ofAnswer, Program.pure_eq,
        Program.done_bind]
      by_cases hmem : dealId ∈ dealIds
      · rw [if_pos hmem]
        refine ⟨rfl, rfl, h, fun id deal => (or_iff_left_of_imp ?_).symm⟩
        rintro ⟨rfl, rfl⟩
        exact hlisted.symm ▸ hmem
      · rw [if_neg hmem]
        exact ⟨rfl, rfl, (h.setList now _).1, hwrite _ (by rw [hlisted])⟩

/-- The refresh writes only the list, and keeps of it the deals with a live record. -/
theorem run_refreshPositionList (now : ℤ) (book : List (IgPosition D)) (strategyId : String)
    (h : store.Readable) :
    let s := ((refreshPositionList strategyId).run (exec now book .answered) store).2
    s.positions = store.positions ∧ s.receipts = store.receipts ∧ s.Readable ∧
      ∀ id deal, deal ∈ s.listed id ↔
        deal ∈ store.listed id ∧ (id = strategyId → store.positions.Held now deal) := by
  have hrewrite : ∀ survivors : List String,
      (∀ deal, deal ∈ survivors ↔ deal ∈ store.listed strategyId ∧
        store.positions.Held now deal) →
      let s := ((rewriteList strategyId survivors).run (exec now book .answered) store).2
      s.positions = store.positions ∧ s.receipts = store.receipts ∧ s.Readable ∧
        ∀ id deal, deal ∈ s.listed id ↔
          deal ∈ store.listed id ∧ (id = strategyId → store.positions.Held now deal) := by
    intro survivors hsurvivors
    by_cases hnil : survivors = []
    · simp only [rewriteList, if_pos hnil, command, Program.call_bind, Program.run_call,
        exec_answered]
      refine ⟨rfl, rfl, fun id => ?_, fun id deal => ?_⟩
      · by_cases hid : id = strategyId
        · subst hid
          simp [effect]
        · simpa [effect, AList.lookup_erase_ne hid] using h id
      · by_cases hid : id = strategyId
        · subst hid
          have := hsurvivors deal
          simp only [hnil, List.not_mem_nil, false_iff] at this
          simpa [effect, listed, dealsOf] using this
        · simp [effect, listed, AList.lookup_erase_ne hid, hid]
    · simp only [rewriteList, if_neg hnil, command, Program.call_bind, Program.run_call,
        exec_answered]
      refine ⟨rfl, rfl, (h.setList now _).1, fun id deal => ?_⟩
      change deal ∈ (store.effect now (.setList strategyId survivors)).listed id ↔ _
      rw [(h.setList now _).2]
      split
      · rename_i hid
        subst hid
        simpa using hsurvivors deal
      · rename_i hid
        simp [hid]
  cases hlookup : store.lists.lookup strategyId with
  | none =>
    simp only [refreshPositionList, fetchList, command, Program.call_bind, Program.run_call,
      exec_answered, answer, Reply.answer, effect, hlookup, ListState.ofAnswer, Program.pure_eq,
      Program.done_bind]
    refine ⟨rfl, rfl, h, fun id deal => (and_iff_left_of_imp ?_).symm⟩
    rintro hmem rfl
    simp [listed, dealsOf, hlookup] at hmem
  | some text =>
    cases text with
    | malformed => exact absurd hlookup (h strategyId)
    | value dealIds =>
      have hlisted : store.listed strategyId = dealIds := by simp [listed, dealsOf, hlookup]
      simp only [refreshPositionList, fetchList, command, Program.call_bind, Program.run_call,
        exec_answered, answer, Reply.answer, effect, hlookup, ListState.ofAnswer, Program.pure_eq,
        Program.done_bind]
      cases dealIds with
      | nil => exact hrewrite [] (by simp [hlisted])
      | cons dealId dealIds =>
        refine hrewrite _ fun deal => ?_
        rw [hlisted, liveDeals, List.mem_filter]
        refine and_congr_right fun hmem => ?_
        rw [if_pos hmem, Expiring.Store.Held]

/-- The reader of the payloads computes them and changes nothing. -/
theorem run_getPositionPayloads :
    (getPositionPayloads strategyId).run (PositionStore.exec now book .answered) store =
      (store.payloads now strategyId, store) := by
  cases h : store.lists.lookup strategyId with
  | none =>
    simp [getPositionPayloads, fetchList, command, exec, answer, Reply.answer, Reply.runs, effect, h,
      ListState.ofAnswer, payloads, listed, dealsOf]
  | some text =>
    cases text with
    | malformed =>
      simp [getPositionPayloads, fetchList, command, exec, answer, Reply.answer, Reply.runs, effect, h,
        ListState.ofAnswer, payloads]
    | value dealIds =>
      cases dealIds with
      | nil =>
        simp [getPositionPayloads, fetchList, command, exec, answer, Reply.answer, Reply.runs, effect, h,
          ListState.ofAnswer, payloads, listed, dealsOf]
      | cons dealId dealIds =>
        simp only [getPositionPayloads, fetchList, command, exec, answer, Reply.answer,
          Reply.runs, effect, h, ListState.ofAnswer, payloads, listed, dealsOf, Program.call_bind, Program.done_bind,
          Program.pure_eq, Program.run_call, Program.run_done, if_true, Option.some.injEq,
          reduceCtorEq, if_false, Prod.mk.injEq, and_true]
        refine List.filterMap_congr fun id hid => ?_
        rw [if_pos hid]

theorem run_getPositionCount :
    (getPositionCount strategyId).run (PositionStore.exec now book .answered) store =
      ((store.payloads now strategyId).map List.length, store) := by
  rw [getPositionCount, Program.run_bind, run_getPositionPayloads]
  rfl

theorem mem_payloads {payloads : List (String × Payload D)}
    (h : store.payloads now strategyId = some payloads) :
    dealId ∈ payloads.map Prod.fst ↔
      dealId ∈ store.listed strategyId ∧ store.positions.Held now dealId := by
  unfold PositionStore.payloads at h
  split at h
  · cases h
  · cases h
    simp only [List.map_filterMap, List.mem_filterMap, Option.map_map, Option.map_eq_some_iff,
      Function.comp_apply, Expiring.Store.Held, Option.isSome_iff_exists]
    constructor
    · rintro ⟨id, hid, payload, hget, rfl⟩
      exact ⟨hid, payload, hget⟩
    · rintro ⟨hid, payload, hget⟩
      exact ⟨dealId, hid, payload, hget, rfl⟩

/-- A list that names a deal can be read. -/
theorem payloads_of_mem (now : ℤ) (h : dealId ∈ store.listed strategyId) :
    ∃ payloads, store.payloads now strategyId = some payloads := by
  refine ⟨_, if_neg fun hmal => ?_⟩
  simp [listed, dealsOf, hmal] at h

end PositionStore

end Positions

end BacktestEngine

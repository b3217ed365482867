import BacktestEngine.Library.Expiring
import BacktestEngine.Library.Transition
import BacktestEngine.Models.Trade

/-! # The shared position book and the workers that count it

The workers of one strategy share its list of deals, the expiring record of each
deal and one trade lock for each direction. A worker counts the listed deals whose
record is alive, keeps the count for a while, takes the lock and places its order;
each store command is one step, and any of them may fail.
-/

namespace BacktestEngine

namespace Live

/-- The cap of the strategy and the lifetimes of its keys. -/
structure CapConfig where
  maxOpenTrades : ℤ
  cacheTtl : ℤ := 15 * second
  lockTtl : ℤ := 30 * second
  positionTtl : ℤ := 300 * second
  failureTtl : ℤ := 120 * second

structure CachedCount where
  count : ℕ
  freshUntil : ℤ
  deriving DecidableEq

/-- A deal the broker has accepted and not closed, with the worker that opened it. -/
structure OpenDeal (ι : Type) where
  reference : String
  opener : ι
  acceptedAt : ℤ
  deriving DecidableEq

/-- Where the thread of a worker stands: in the cap check, the placement, the booking of an
accepted deal or the removal of a closed one. -/
inductive Stage
  | idle
  | listed (direction : Direction) (readAt : ℤ) (dealIds : List String)
  | admitted (direction : Direction) (count : ℕ) (readAt : ℤ)
  | gated (direction : Direction) (count : ℕ) (readAt : ℤ)
  | placing (direction : Direction) (count : ℕ) (readAt : ℤ)
  | landed (direction : Direction) (reference : String)
  | accepted (reference : String)
  | saved (reference : String)
  | appending (reference : String) (dealIds : List String)
  | booked
  | removing (reference : String) (closed : Bool)
  | unlisting (reference : String) (closed : Bool)
  | trimming (reference : String) (dealIds : List String) (closed : Bool)
  deriving DecidableEq

structure CapWorker where
  cache : Option CachedCount
  heldUntil : Direction → Option ℤ
  stage : Stage

/-- The broker's deals of the strategy, its keys in the store and its workers. -/
structure CapState (ι : Type) where
  now : ℤ
  broker : List (OpenDeal ι)
  positionList : List String
  positions : Expiring.Store String Unit ℤ
  locks : Expiring.Store Direction Unit ℤ
  workers : ι → CapWorker

/-- One command of a worker, the broker or the producer. A command that does not reach the store
fails. -/
inductive CapAction (ι : Type)
  | advance (elapsed : ℕ)
  | signal (i : ι) (direction : Direction) (reached : Bool)
  | count (i : ι) (reached : Bool)
  | gate (i : ι) (reached : Bool)
  | request (i : ι) (clear reached : Bool)
  | accept (i : ι) (reference : String)
  | outcome (i : ι) (status : OpenStatus) (reached : Bool)
  | savePosition (i : ι) (reached : Bool)
  | readList (i : ι) (reached : Bool)
  | writeList (i : ι) (reached : Bool)
  | invalidate (i : ι)
  | closePosition (i : ι) (reference : String)
  | closeGone (i : ι) (reference : String)
  | takePosition (i : ι) (reached : Bool)
  | brokerCloses (reference : String)
  | producerSaves (reference : String) (ttl : ℤ)
  | producerLists (dealIds : List String)

namespace CapState

variable {ι : Type} [DecidableEq ι] (cfg : CapConfig) (s : CapState ι)

def modify (i : ι) (f : CapWorker → CapWorker) : CapState ι :=
  { s with workers := Function.update s.workers i (f (s.workers i)) }

def goTo (i : ι) (stage : Stage) : CapState ι := s.modify i fun w => { w with stage := stage }

/-- The listed deals whose record is alive. -/
def survivors (dealIds : List String) : List String :=
  dealIds.filter fun reference => decide (s.positions.Held s.now reference)

/-- The cached count while it is fresh, with the instant it was read. -/
def freshCount (i : ι) : Option (ℕ × ℤ) :=
  match (s.workers i).cache with
  | some cached =>
    if s.now < cached.freshUntil then some (cached.count, cached.freshUntil - cfg.cacheTtl)
    else none
  | none => none

/-- The cap check on a count. -/
def belowCap (i : ι) (direction : Direction) (count : ℕ) (readAt : ℤ) : CapState ι :=
  s.goTo i (if (count : ℤ) < cfg.maxOpenTrades then .admitted direction count readAt else .idle)

/-- Write the lock, and remember locally how long it is held. -/
def setLock (i : ι) (direction : Direction) (ttl : ℤ) : CapState ι :=
  let s := { s with locks := s.locks.set direction () (s.now + ttl) }
  s.modify i fun w =>
    { w with heldUntil := Function.update w.heldUntil direction (some (s.now + ttl)) }

/-- Start the lock again, unless the store is not reached. -/
def extendLock (i : ι) (direction : Direction) (ttl : ℤ) (reached : Bool) : CapState ι :=
  if reached then s.setLock i direction ttl else s

/-- Drop the lock; locally it is forgotten also when the store is not reached. -/
def releaseLock (i : ι) (direction : Direction) (reached : Bool) : CapState ι :=
  let s := s.modify i fun w => { w with heldUntil := Function.update w.heldUntil direction none }
  if reached then { s with locks := s.locks.delete direction } else s

/-- The worker knows that it holds the lock. -/
def KnownHeld (i : ι) (direction : Direction) : Prop :=
  ∃ expiry ∈ (s.workers i).heldUntil direction, s.now < expiry

instance (i : ι) (direction : Direction) : Decidable (s.KnownHeld i direction) :=
  inferInstanceAs (Decidable (∃ expiry ∈ (s.workers i).heldUntil direction, s.now < expiry))

/-- After a removal only a close that the broker confirmed drops the cached count. -/
def afterRemoval (closed : Bool) : Stage := if closed then .booked else .idle

def step (s : CapState ι) : CapAction ι → Option (CapState ι)
  | .advance elapsed => some { s with now := s.now + elapsed }
  | .signal i direction reached =>
    match (s.workers i).stage with
    | .idle =>
      match s.freshCount cfg i with
      | some (count, readAt) => some (s.belowCap cfg i direction count readAt)
      | none =>
        if reached then some (s.goTo i (.listed direction s.now s.positionList)) else some s
    | _ => none
  | .count i reached =>
    match (s.workers i).stage with
    | .listed direction readAt dealIds =>
      if reached then
        let count := (s.survivors dealIds).length
        let cached : CachedCount := { count := count, freshUntil := readAt + cfg.cacheTtl }
        let s := s.modify i fun w => { w with cache := some cached }
        some (s.belowCap cfg i direction count readAt)
      else some (s.goTo i .idle)
    | _ => none
  | .gate i reached =>
    match (s.workers i).stage with
    | .admitted direction count readAt =>
      if s.KnownHeld i direction ∨ ¬reached ∨ s.locks.Held s.now direction then
        some (s.goTo i .idle)
      else some ((s.setLock i direction cfg.lockTtl).goTo i (.gated direction count readAt))
    | _ => none
  | .request i clear reached =>
    match (s.workers i).stage with
    | .gated direction count readAt =>
      if clear then
        some ((s.extendLock i direction cfg.lockTtl reached).goTo i
          (.placing direction count readAt))
      else some (s.goTo i .idle)
    | _ => none
  | .accept i reference =>
    match (s.workers i).stage with
    | .placing direction _ _ =>
      if reference ∈ s.broker.map OpenDeal.reference then none
      else
        let deal : OpenDeal ι := ⟨reference, i, s.now⟩
        let s := { s with broker := s.broker ++ [deal] }
        some (s.goTo i (.landed direction reference))
    | _ => none
  | .outcome i status reached =>
    match (s.workers i).stage, status with
    | .placing direction _ _, .rejected =>
      some ((s.releaseLock i direction reached).goTo i .idle)
    | .placing direction _ _, .failed =>
      some ((s.extendLock i direction cfg.failureTtl reached).goTo i .idle)
    | .landed _ reference, .accepted => some (s.goTo i (.accepted reference))
    | .landed direction _, .failed =>
      some ((s.extendLock i direction cfg.failureTtl reached).goTo i .idle)
    | _, _ => none
  | .savePosition i reached =>
    match (s.workers i).stage with
    | .accepted reference =>
      let positions :=
        if reached then s.positions.set reference () (s.now + cfg.positionTtl) else s.positions
      let s := { s with positions := positions }
      some (s.goTo i (.saved reference))
    | _ => none
  | .readList i reached =>
    match (s.workers i).stage with
    | .saved reference =>
      if !reached || decide (reference ∈ s.positionList) then some (s.goTo i .booked)
      else some (s.goTo i (.appending reference s.positionList))
    | .unlisting reference closed =>
      if reached then some (s.goTo i (.trimming reference s.positionList closed))
      else some (s.goTo i (afterRemoval closed))
    | _ => none
  | .writeList i reached =>
    match (s.workers i).stage with
    | .appending reference dealIds =>
      let s := { s with positionList := if reached then dealIds ++ [reference] else s.positionList }
      some (s.goTo i .booked)
    | .trimming reference dealIds closed =>
      let trimmed := dealIds.filter fun dealId => dealId ≠ reference
      let s := { s with positionList := if reached then trimmed else s.positionList }
      some (s.goTo i (afterRemoval closed))
    | _ => none
  | .invalidate i =>
    match (s.workers i).stage with
    | .booked => some (s.modify i fun w => { w with cache := none, stage := .idle })
    | _ => none
  | .closePosition i reference =>
    match (s.workers i).stage with
    | .idle =>
      if reference ∈ s.broker.map OpenDeal.reference then
        let s := { s with broker := s.broker.filter fun deal => deal.reference ≠ reference }
        some (s.goTo i (.removing reference true))
      else none
    | _ => none
  | .closeGone i reference =>
    match (s.workers i).stage with
    | .idle => some (s.goTo i (.removing reference false))
    | _ => none
  | .takePosition i reached =>
    match (s.workers i).stage with
    | .removing reference closed =>
      if reached then
        let s := { s with positions := s.positions.delete reference }
        some (s.goTo i (.unlisting reference closed))
      else some (s.goTo i (afterRemoval closed))
    | _ => none
  | .brokerCloses reference =>
    some { s with broker := s.broker.filter fun deal => deal.reference ≠ reference }
  | .producerSaves reference ttl =>
    some { s with positions := s.positions.set reference () (s.now + ttl) }
  | .producerLists dealIds => some { s with positionList := dealIds }

/-- Workers that have just started, over a book that may hold deals already. -/
def fresh (now : ℤ) (broker : List (OpenDeal ι)) (positionList : List String)
    (positions : Expiring.Store String Unit ℤ) (locks : Expiring.Store Direction Unit ℤ) :
    CapState ι where
  now := now
  broker := broker
  positionList := positionList
  positions := positions
  locks := locks
  workers _ := ⟨none, fun _ => none, .idle⟩

end CapState

end Live

end BacktestEngine

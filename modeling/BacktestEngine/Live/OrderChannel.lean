import Mathlib.Data.Int.Order.Basic
import Mathlib.Order.WithBot
import BacktestEngine.Library.Expiring
import BacktestEngine.Library.Transition
import BacktestEngine.Live.ClusterTable
import BacktestEngine.Models.Trade

/-! # Order channels and the cluster gate

A channel takes the check lock of every cluster of its symbol, reads their sets
and places the order. When the broker accepts, it starts the locks again for the
time the producer needs to rebuild the sets from the broker's book. Each command
is one step, any may fail, and locks and sets expire.
-/

namespace BacktestEngine

namespace Clusters

/-- How long a check lock keeps other checks off a cluster. -/
def checkLockTtl : ℤ := 10 * second

/-- How long the lock holds after an accepted open. -/
def openedTtl : ℤ := 120 * second

/-- How long a rebuilt set is kept. -/
def setTtl : ℤ := 300 * second

/-- A deal that a channel opened and the broker has not closed. -/
structure ClusterDeal where
  symbol : String
  strategyName : String
  dealReference : String
  deriving DecidableEq

/-- Where a channel stands in a request. While it checks and places, it knows the clusters it has
locked and when; while it reads the sets, those that have let it pass. -/
inductive ChannelStage
  | idle
  | locking (symbol strategyName : String) (taken : List (String × ℤ)) (toLock : List String)
  | reading (symbol strategyName : String) (taken : List (String × ℤ)) (passed toRead : List String)
  | placing (symbol strategyName : String) (taken : List (String × ℤ))
  | landed (symbol : String)
  | marking (symbol : String) (toMark : List String)
  deriving DecidableEq

/-- Where the producer stands: the sets still to be swapped in, and the one to be given its
expiry. -/
inductive ProducerStage
  | idle
  | swapping (todo : List (String × List String))
  | expiring (cluster : String) (todo : List (String × List String))
  deriving DecidableEq

/-- The broker's deals, the cluster keys of the store, the channels and the producer. A set that
has just been swapped in has no expiry yet. -/
structure ClusterState (ι : Type) where
  now : ℤ
  broker : List ClusterDeal
  locks : Expiring.Store String String ℤ
  sets : Expiring.Store String (List String) (WithTop ℤ)
  channels : ι → ChannelStage
  producer : ProducerStage

inductive ClusterAction (ι : Type)
  | advance (elapsed : ℕ)
  | request (i : ι) (symbol strategyName : String)
  | takeLock (i : ι) (reached : Bool)
  | readSet (i : ι) (reached : Bool)
  | accept (i : ι) (dealReference : String)
  | outcome (i : ι) (status : OpenStatus)
  | markOpened (i : ι) (reached : Bool)
  | brokerCloses (dealReference : String)
  | fetch (others : List ClusterMember)
  | swap (reached : Bool)
  | expire (reached : Bool)

namespace ClusterState

variable {ι : Type} [DecidableEq ι] (s : ClusterState ι)

def goTo (i : ι) (stage : ChannelStage) : ClusterState ι :=
  { s with channels := Function.update s.channels i stage }

/-- The members of a set; a set that is gone has none. -/
def members (cluster : String) : List String := (s.sets.get (s.now : WithTop ℤ) cluster).getD []

/-- The broker's book as the producer sees it, with the deals opened elsewhere. -/
def fetched (others : List ClusterMember) : List ClusterMember :=
  s.broker.map (fun deal => ⟨deal.symbol, deal.strategyName, deal.dealReference⟩) ++ others

/-- With every lock taken the sets are read; before that the next lock is tried. -/
def afterLock (symbol strategyName : String) (taken : List (String × ℤ)) :
    List String → ChannelStage
  | [] => .reading symbol strategyName taken [] (groupsFor symbol)
  | toLock => .locking symbol strategyName taken toLock

/-- With every set passed the order is placed; before that the next set is read. -/
def afterRead (symbol strategyName : String) (taken : List (String × ℤ)) (passed : List String) :
    List String → ChannelStage
  | [] => .placing symbol strategyName taken
  | toRead => .reading symbol strategyName taken passed toRead

def afterMark (symbol : String) : List String → ChannelStage
  | [] => .idle
  | toMark => .marking symbol toMark

def step (s : ClusterState ι) : ClusterAction ι → Option (ClusterState ι)
  | .advance elapsed => some { s with now := s.now + elapsed }
  | .request i symbol strategyName =>
    match s.channels i with
    | .idle =>
      if groupsFor symbol = [] then some s
      else some (s.goTo i (.locking symbol strategyName [] (groupsFor symbol)))
    | _ => none
  | .takeLock i reached =>
    match s.channels i with
    | .locking symbol strategyName taken (cluster :: toLock) =>
      if !reached || decide (s.locks.Held s.now cluster) then some (s.goTo i .idle)
      else
        let s := { s with locks := s.locks.set cluster symbol (s.now + checkLockTtl) }
        some (s.goTo i (afterLock symbol strategyName (taken ++ [(cluster, s.now)]) toLock))
    | _ => none
  | .readSet i reached =>
    match s.channels i with
    | .reading symbol strategyName taken passed (cluster :: toRead) =>
      if reached ∧ evaluateClusterGroup (s.members cluster) symbol strategyName
          (clusterLimit cluster) (isStrictCluster cluster) = .allowed then
        some (s.goTo i (afterRead symbol strategyName taken (passed ++ [cluster]) toRead))
      else some (s.goTo i .idle)
    | _ => none
  | .accept i dealReference =>
    match s.channels i with
    | .placing symbol strategyName _ =>
      let deal : ClusterDeal := ⟨symbol, strategyName, dealReference⟩
      let s := { s with broker := s.broker ++ [deal] }
      some (s.goTo i (.landed symbol))
    | _ => none
  | .outcome i status =>
    match s.channels i, status with
    | .placing .., .rejected | .placing .., .failed => some (s.goTo i .idle)
    | .landed symbol, .accepted => some (s.goTo i (afterMark symbol (groupsFor symbol)))
    | .landed _, .failed => some (s.goTo i .idle)
    | _, _ => none
  | .markOpened i reached =>
    match s.channels i with
    | .marking symbol (cluster :: toMark) =>
      let locks := if reached then s.locks.set cluster symbol (s.now + openedTtl) else s.locks
      let s := { s with locks := locks }
      some (s.goTo i (afterMark symbol toMark))
    | _ => none
  | .brokerCloses dealReference =>
    some { s with broker := s.broker.filter fun deal => deal.dealReference ≠ dealReference }
  | .fetch others =>
    match s.producer with
    | .idle => some { s with producer := .swapping (groupMembersByCluster (s.fetched others)) }
    | _ => none
  | .swap reached =>
    match s.producer with
    | .swapping [] => some { s with producer := .idle }
    | .swapping ((cluster, values) :: todo) =>
      if reached then
        some { s with
          sets := s.sets.set cluster values ⊤
          producer := .expiring cluster todo }
      else some { s with producer := .swapping todo }
    | _ => none
  | .expire reached =>
    match s.producer with
    | .expiring cluster todo =>
      let sets := if reached then s.sets.expire cluster ((s.now + setTtl : ℤ) : WithTop ℤ)
        else s.sets
      some { s with
        sets := sets
        producer := .swapping todo }
    | _ => none

/-- Channels that have just started, over a book and keys that may be left from before. -/
def fresh (now : ℤ) (broker : List ClusterDeal) (locks : Expiring.Store String String ℤ)
    (sets : Expiring.Store String (List String) (WithTop ℤ)) : ClusterState ι where
  now := now
  broker := broker
  locks := locks
  sets := sets
  channels _ := .idle
  producer := .idle

end ClusterState

end Clusters

end BacktestEngine

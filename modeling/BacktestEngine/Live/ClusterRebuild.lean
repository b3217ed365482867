import Mathlib.Data.Finset.Lattice.Lemmas
import Mathlib.Data.Set.Function
import BacktestEngine.Live.ClusterTable

/-! # Rebuilding the cluster sets

The members of a cluster are written to a temporary key that is then renamed over the set of
the cluster. A leftover under the temporary key is cleared first; what a command of the client
comes to is anything between an answer and a skip of the open breaker.
-/

namespace BacktestEngine

namespace Clusters

/-! ## The server -/

/-- What may stand under a key. -/
inductive RedisValue
  | set (members : Finset String)
  | other
  deriving DecidableEq

/-- A value, and the milliseconds it has left when it expires. -/
structure RedisEntry where
  value : RedisValue
  ttl : Option ℤ
  deriving DecidableEq

abbrev Keyspace := String → Option RedisEntry

inductive SyncCommand
  | del (key : String)
  | sadd (key value : String)
  | rename (source destination : String)
  | pexpire (key : String) (ttl : ℤ)

/-- The keys that a command may write. -/
def SyncCommand.keys : SyncCommand → List String
  | .del key | .sadd key _ | .pexpire key _ => [key]
  | .rename source destination => [source, destination]

inductive ServerReply
  | integer (n : ℤ)
  | ok
  | error (what : String)

def serve (s : Keyspace) : SyncCommand → ServerReply × Keyspace
  | .del key => (.integer (if (s key).isSome then 1 else 0), Function.update s key none)
  | .sadd key value =>
    match s key with
    | none => (.integer 1, Function.update s key (some ⟨.set {value}, none⟩))
    | some ⟨.set members, ttl⟩ =>
      (.integer (if value ∈ members then 0 else 1),
        Function.update s key (some ⟨.set (insert value members), ttl⟩))
    | some ⟨.other, _⟩ =>
      (.error "WRONGTYPE Operation against a key holding the wrong kind of value", s)
  | .rename source destination =>
    match s source with
    | none => (.error "ERR no such key", s)
    | some entry =>
      (.ok, Function.update (Function.update s source none) destination (some entry))
  | .pexpire key ttl =>
    match s key with
    | none => (.integer 0, s)
    | some entry =>
      (.integer 1, Function.update s key (if ttl ≤ 0 then none else some { entry with ttl := ttl }))

/-! ## The client -/

/-- What a command comes to. The open breaker skips it; one that is lost may have been carried out
all the same; one that is refused is answered by an error of the server. -/
inductive Delivery
  | answered
  | skipped
  | lost (carriedOut : Bool)
  | refused
  deriving DecidableEq

/-- The reply that reaches the client, and the reason when none does: it is empty for a skip. -/
def exec (delivery : Delivery) (command : SyncCommand) (s : Keyspace) :
    Except String ServerReply × Keyspace :=
  match delivery with
  | .answered => (.ok (serve s command).1, (serve s command).2)
  | .skipped => (.error "", s)
  | .lost carriedOut =>
    (.error "timed out (Redis unreachable?)", if carriedOut then (serve s command).2 else s)
  | .refused => (.ok (.error "LOADING Redis is loading the dataset in memory"), s)

/-- The reply has to be a number; an error of the server is thrown. -/
def execValue : Except String ServerReply → Except String ℤ
  | .ok (.integer n) => .ok n
  | .ok .ok => .error "Expects a number."
  | .ok (.error what) => .error what
  | .error what => .error what

/-- Any reply will do, an error of the server among them. -/
def execIgnore : Except String ServerReply → Except String Unit
  | .ok _ => .ok ()
  | .error what => .error what

def deleteKey (delivery : Delivery) (key : String) (s : Keyspace) : Except String Bool × Keyspace :=
  let (reply, s) := exec delivery (.del key) s
  ((execValue reply).map fun n => decide (0 < n), s)

def setAdd (delivery : Delivery) (key value : String) (s : Keyspace) :
    Except String Bool × Keyspace :=
  let (reply, s) := exec delivery (.sadd key value) s
  ((execValue reply).map fun n => decide (n ≠ 0), s)

def keyRename (delivery : Delivery) (source destination : String) (s : Keyspace) :
    Except String Bool × Keyspace :=
  let (reply, s) := exec delivery (.rename source destination) s
  ((execIgnore reply).map fun _ => true, s)

def setTTL (delivery : Delivery) (key : String) (ttl : ℤ) (s : Keyspace) :
    Except String Bool × Keyspace :=
  let (reply, s) := exec delivery (.pexpire key ttl) s
  ((execValue reply).map fun n => decide (n ≠ 0), s)

/-! ## The producer -/

/-- What the commands for a cluster come to. -/
structure ClusterOutcomes where
  clear : Delivery
  add : String → Delivery
  cleanup : Delivery
  swap : Delivery
  expire : Delivery

def clusterKey (cluster : String) : String := "CG#" ++ cluster

def tempKey (nonce cluster : String) : String := "temp_CG#" ++ cluster ++ "#" ++ nonce

variable (nonce : String) (ttl : ℤ) (outcomes : String → ClusterOutcomes)

/-- Whether every value was added, up to the first that was not. -/
def fill (o : ClusterOutcomes) (key : String) : List String → Keyspace → Bool × Keyspace
  | [], s => (true, s)
  | value :: values, s =>
    match setAdd (o.add value) key value s with
    | (.error _, s) => (false, s)
    | (.ok _, s) => fill o key values s

/-- The swap of the filled key, and the new lifetime. -/
def swapIn (o : ClusterOutcomes) (cluster : String) (s : Keyspace) : Bool × Keyspace :=
  match keyRename o.swap (tempKey nonce cluster) (clusterKey cluster) s with
  | (.error _, s) => (false, s)
  | (.ok _, s) =>
    match setTTL o.expire (clusterKey cluster) ttl s with
    | (.error _, s) => (false, s)
    | (.ok _, s) => (true, s)

def rebuild (o : ClusterOutcomes) (cluster : String) (values : List String) (s : Keyspace) :
    Bool × Keyspace :=
  match fill o (tempKey nonce cluster) values s with
  | (false, s) => (false, (deleteKey o.cleanup (tempKey nonce cluster) s).2)
  | (true, s) => swapIn nonce ttl o cluster s

def syncCluster (o : ClusterOutcomes) (cluster : String) (values : List String) (s : Keyspace) :
    Bool × Keyspace :=
  match deleteKey o.clear (tempKey nonce cluster) s with
  -- a skip has an empty reason and goes on
  | (.error what, s) => if what ≠ "" then (false, s) else rebuild nonce ttl o cluster values s
  | (.ok _, s) => rebuild nonce ttl o cluster values s

def syncEach : List (String × List String) → Keyspace → Bool × Keyspace
  | [], s => (true, s)
  | (cluster, values) :: rest, s =>
    let (synced, s) := syncCluster nonce ttl (outcomes cluster) cluster values s
    let (others, s) := syncEach rest s
    (synced && others, s)

def syncAllClusters (members : List ClusterMember) (s : Keyspace) : Bool × Keyspace :=
  syncEach nonce ttl outcomes (groupMembersByCluster members) s

end Clusters

end BacktestEngine

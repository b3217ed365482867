import Mathlib.Data.List.Dedup
import Mathlib.Data.List.Sort
import Mathlib.Data.String.Basic
import BacktestEngine.Library.BinarySearch

/-! # Risk clusters

Every tradable symbol belongs to one or more clusters, and every cluster has a
capacity. The tables are sorted and searched by key. The verdict on a cluster is
read off the members of its set, which carry a symbol, a strategy and a reference.
-/

namespace BacktestEngine

namespace Clusters

structure SymbolClusters where
  symbol : String
  groups : List String
  deriving DecidableEq, Repr

structure ClusterRule where
  cluster : String
  limit : ℕ
  strict : Bool
  deriving DecidableEq, Repr

def kClusterTable : List SymbolClusters := [
  ⟨"AUDNZD", ["Commodity_FX", "Crosses", "AUD_Pairs"]⟩,
  ⟨"AUDUSD", ["USD_Forex", "Commodity_FX", "AUD_Pairs"]⟩,
  ⟨"AUSIDXAUD", ["Asian_Index"]⟩,
  ⟨"BRENTCMDUSD", ["Energy"]⟩,
  ⟨"COPPERCMDUSD", ["Industrial_Metals"]⟩,
  ⟨"DEUIDXEUR", ["EU_Index"]⟩,
  ⟨"EURAUD", ["Crosses", "EUR_Pairs", "AUD_Pairs"]⟩,
  ⟨"EURCHF", ["Crosses", "EUR_Pairs"]⟩,
  ⟨"EURGBP", ["Crosses", "EUR_Pairs", "GBP_Pairs"]⟩,
  ⟨"EURJPY", ["Crosses", "EUR_Pairs", "JPY_Pairs"]⟩,
  ⟨"EURNOK", ["Commodity_FX", "Crosses", "EUR_Pairs", "Scandi_Pairs"]⟩,
  ⟨"EURUSD", ["USD_Forex", "EUR_Pairs"]⟩,
  ⟨"FRAIDXEUR", ["EU_Index"]⟩,
  ⟨"GBPAUD", ["Crosses", "GBP_Pairs", "AUD_Pairs"]⟩,
  ⟨"GBPJPY", ["Crosses", "GBP_Pairs", "JPY_Pairs"]⟩,
  ⟨"GBPUSD", ["USD_Forex", "GBP_Pairs"]⟩,
  ⟨"GBRIDXGBP", ["UK_Index"]⟩,
  ⟨"HKGIDXHKD", ["Asian_Index"]⟩,
  ⟨"JPNIDXJPY", ["Asian_Index"]⟩,
  ⟨"LIGHTCMDUSD", ["Energy"]⟩,
  ⟨"NGASCMDUSD", ["Energy"]⟩,
  ⟨"NZDUSD", ["USD_Forex", "Commodity_FX"]⟩,
  ⟨"USA30IDXUSD", ["US_Index"]⟩,
  ⟨"USA500IDXUSD", ["US_Index"]⟩,
  ⟨"USATECHIDXUSD", ["US_Index"]⟩,
  ⟨"USDCAD", ["USD_Forex", "Commodity_FX"]⟩,
  ⟨"USDCHF", ["USD_Forex"]⟩,
  ⟨"USDJPY", ["USD_Forex", "JPY_Pairs"]⟩,
  ⟨"USDSEK", ["USD_Forex", "Scandi_Pairs"]⟩,
  ⟨"XAGUSD", ["Precious_Metals"]⟩,
  ⟨"XAUUSD", ["Precious_Metals"]⟩]

def kClusterRules : List ClusterRule := [
  ⟨"AUD_Pairs", 2, false⟩,
  ⟨"Asian_Index", 1, true⟩,
  ⟨"Commodity_FX", 2, false⟩,
  ⟨"Crosses", 2, false⟩,
  ⟨"EUR_Pairs", 2, false⟩,
  ⟨"EU_Index", 1, true⟩,
  ⟨"Energy", 1, true⟩,
  ⟨"GBP_Pairs", 2, false⟩,
  ⟨"Industrial_Metals", 1, true⟩,
  ⟨"JPY_Pairs", 2, false⟩,
  ⟨"Precious_Metals", 1, true⟩,
  ⟨"Scandi_Pairs", 1, false⟩,
  ⟨"UK_Index", 1, true⟩,
  ⟨"USD_Forex", 2, false⟩,
  ⟨"US_Index", 1, true⟩]

theorem kClusterTable_sorted : (kClusterTable.map SymbolClusters.symbol).Pairwise (· < ·) := by
  decide

theorem kClusterRules_sorted : (kClusterRules.map ClusterRule.cluster).Pairwise (· < ·) := by
  decide

/-- The clusters of a symbol; an unmapped symbol has none. -/
def groupsFor (symbol : String) : List String :=
  match BinarySearch.find SymbolClusters.symbol kClusterTable symbol with
  | some entry => entry.groups
  | none => []

def findRule (cluster : String) : Option ClusterRule :=
  BinarySearch.find ClusterRule.cluster kClusterRules cluster

/-- The capacity of a cluster, one for a cluster without a rule. -/
def clusterLimit (cluster : String) : ℕ :=
  match findRule cluster with
  | some rule => rule.limit
  | none => 1

def isStrictCluster (cluster : String) : Bool :=
  match findRule cluster with
  | some rule => rule.strict
  | none => false

/-- A symbol has the clusters of its row, and none without a row. -/
theorem mem_groupsFor {symbol cluster : String} : cluster ∈ groupsFor symbol ↔
    ∃ entry ∈ kClusterTable, entry.symbol = symbol ∧ cluster ∈ entry.groups := by
  unfold groupsFor
  split
  · rename_i entry h
    have hfound := (BinarySearch.find_eq_some_iff kClusterTable_sorted).mp h
    constructor
    · exact fun hc => ⟨entry, hfound.1, hfound.2, hc⟩
    · rintro ⟨entry', hmem, hsymbol, hc⟩
      have := (BinarySearch.find_eq_some_iff kClusterTable_sorted).mpr ⟨hmem, hsymbol⟩
      rw [h] at this
      cases this
      exact hc
  · rename_i h
    rw [BinarySearch.find_eq_none_iff kClusterTable_sorted] at h
    refine iff_of_false List.not_mem_nil ?_
    rintro ⟨entry, hmem, hsymbol, -⟩
    exact h entry hmem hsymbol

/-- Every cluster can hold a deal. -/
theorem clusterLimit_pos (cluster : String) : 0 < clusterLimit cluster := by
  have hall : ∀ rule ∈ kClusterRules, 0 < rule.limit := by decide
  unfold clusterLimit
  split
  · rename_i rule h
    exact hall rule ((BinarySearch.find_eq_some_iff kClusterRules_sorted).mp h).1
  · exact Nat.one_pos

/-- Every cluster of the symbol table has a rule. -/
theorem groups_have_rules :
    ∀ entry ∈ kClusterTable, ∀ cluster ∈ entry.groups, (findRule cluster).isSome := by decide

/-! ## The members of a cluster -/

/-- A broker deal as the producer reports it. -/
structure ClusterMember where
  symbol : String
  strategyName : String
  dealReference : String
  deriving DecidableEq

def clusterMemberString (member : ClusterMember) : String :=
  member.symbol ++ "#" ++ member.strategyName ++ "#" ++ member.dealReference

/-- The symbol and the strategy of a member; none when there is no separator. -/
def splitMember (member : String) : Option (String × String) :=
  match member.toList.span fun c => c ≠ '#' with
  | (_, []) => none
  | (symbol, _ :: rest) =>
    some (String.ofList symbol, String.ofList (rest.takeWhile fun c => c ≠ '#'))

inductive ClusterVerdict
  | allowed
  | groupFull
  | symbolStrategyStacked
  | strategyNotDiverse
  deriving DecidableEq, Repr

/-- Capacity first, then the same strategy on the same symbol, then diversity where it is strict. -/
def evaluateClusterGroup (members : List String) (symbol strategyName : String) (limit : ℕ)
    (strict : Bool) : ClusterVerdict :=
  if limit ≤ members.length then .groupFull
  else if members.any fun member => splitMember member = some (symbol, strategyName) then
    .symbolStrategyStacked
  else if strict && members.any fun member =>
      (splitMember member).any fun parts => parts.2 = strategyName then .strategyNotDiverse
  else .allowed

/-- A cluster that lets an entry through has room for it. -/
theorem length_lt_of_allowed {members : List String} {symbol strategyName : String} {limit : ℕ}
    {strict : Bool} (h : evaluateClusterGroup members symbol strategyName limit strict = .allowed) :
    members.length < limit := by
  unfold evaluateClusterGroup at h
  split at h
  · cases h
  · rename_i hroom
    exact not_le.mp hroom

/-- Each cluster of the members with its distinct member strings, both in order. -/
def groupMembersByCluster (members : List ClusterMember) : List (String × List String) :=
  let clusters := (members.flatMap fun member => groupsFor member.symbol).dedup
  (clusters.insertionSort (· ≤ ·)).map fun cluster =>
    let inside := members.filter fun member => cluster ∈ groupsFor member.symbol
    (cluster, ((inside.map clusterMemberString).dedup).insertionSort (· ≤ ·))

end Clusters

end BacktestEngine

import BacktestEngine.Live.ClusterSwap

/-! # All or nothing

A rebuild goes through the clusters one by one, and each has keys of its own.
-/

namespace BacktestEngine

namespace Clusters

variable {nonce : String} {ttl : ℤ} {outcomes : String → ClusterOutcomes} {o : ClusterOutcomes}
  {cluster key : String} {values : List String} {s : Keyspace}

/-! ## All clusters -/

theorem not_swaps_of_refused (h : o.swap = .refused) : ¬ Swaps o := by
  rintro (hanswered | hlost)
  · cases h.symm.trans hanswered
  · cases h.symm.trans hlost

variable (nonce outcomes s) in
/-- Every cluster becomes what its own commands make of its own keys. -/
theorem syncEach_outcome (httl : 0 < ttl) {entries : List (String × List String)}
    (hnodup : (entries.map Prod.fst).Nodup) (hne : ∀ entry ∈ entries, entry.2 ≠ []) :
    ((syncEach nonce ttl outcomes entries s).1 = true ↔
      ∀ entry ∈ entries, Reports (outcomes entry.1) entry.2 (s (tempKey nonce entry.1))) ∧
    (∀ entry ∈ entries, ∃ synced, Outcome ttl (outcomes entry.1) entry.2
      (s (tempKey nonce entry.1)) (s (clusterKey entry.1)) synced
      ((syncEach nonce ttl outcomes entries s).2 (clusterKey entry.1))) ∧
    ∀ other, (∀ entry ∈ entries, other ≠ tempKey nonce entry.1 ∧ other ≠ clusterKey entry.1) →
      (syncEach nonce ttl outcomes entries s).2 other = s other := by
  induction entries generalizing s with
  | nil => exact ⟨iff_of_true rfl nofun, nofun, fun _ _ => rfl⟩
  | cons first rest ih =>
    obtain ⟨cluster, values⟩ := first
    obtain ⟨hnew, hnodup⟩ := List.nodup_cons.mp hnodup
    obtain ⟨hvalues, hne⟩ := List.forall_mem_cons.mp hne
    have hfirst : Outcome ttl (outcomes cluster) values (s (tempKey nonce cluster))
        (s (clusterKey cluster)) _ _ := syncCluster_outcome httl hvalues
    obtain ⟨hreported, houtcomes, hframe⟩ :=
      ih (syncCluster nonce ttl (outcomes cluster) cluster values s).2 hnodup hne
    have hne' : ∀ entry ∈ rest, entry.1 ≠ cluster := by
      intro entry hentry heq
      exact hnew (List.mem_map.mpr ⟨entry, hentry, heq⟩)
    have htemp : ∀ entry ∈ rest, (syncCluster nonce ttl (outcomes cluster) cluster values s).2
        (tempKey nonce entry.1) = s (tempKey nonce entry.1) := fun entry hentry =>
      syncCluster_ne (tempKey_injective.ne (hne' entry hentry)) (tempKey_ne _ _)
    have hkey : ∀ entry ∈ rest, (syncCluster nonce ttl (outcomes cluster) cluster values s).2
        (clusterKey entry.1) = s (clusterKey entry.1) := fun entry hentry =>
      syncCluster_ne (tempKey_ne _ _).symm (clusterKey_injective.ne (hne' entry hentry))
    refine ⟨?_, ?_, ?_⟩
    · rw [syncEach, Bool.and_eq_true, hfirst.reported, hreported, List.forall_mem_cons]
      refine and_congr_right fun _ => forall₂_congr fun entry hentry => ?_
      rw [htemp entry hentry]
    · rw [List.forall_mem_cons]
      constructor
      · refine ⟨(syncCluster nonce ttl (outcomes cluster) cluster values s).1, ?_⟩
        rw [syncEach]
        dsimp only
        rw [hframe _ fun entry hentry => ⟨(tempKey_ne _ _).symm,
          clusterKey_injective.ne (hne' entry hentry).symm⟩]
        exact hfirst
      · intro entry hentry
        obtain ⟨synced, houtcome⟩ := houtcomes entry hentry
        rw [htemp entry hentry, hkey entry hentry] at houtcome
        exact ⟨synced, houtcome⟩
    · intro other hother
      obtain ⟨⟨htemp', hkey'⟩, hrest⟩ := List.forall_mem_cons.mp hother
      exact (hframe other hrest).trans (syncCluster_ne htemp' hkey')

theorem nodup_groups (members : List ClusterMember) :
    ((groupMembersByCluster members).map Prod.fst).Nodup := by
  unfold groupMembersByCluster
  rw [List.map_map]
  change (List.map id _).Nodup
  rw [List.map_id]
  exact (List.perm_insertionSort _ _).nodup_iff.mpr (List.nodup_dedup _)

/-- A cluster that is rebuilt has members. -/
theorem groups_ne_nil {members : List ClusterMember} {entry : String × List String}
    (h : entry ∈ groupMembersByCluster members) : entry.2 ≠ [] := by
  obtain ⟨cluster, hcluster, rfl⟩ := List.mem_map.mp h
  rw [List.mem_insertionSort, List.mem_dedup, List.mem_flatMap] at hcluster
  obtain ⟨member, hmember, hgroup⟩ := hcluster
  apply List.ne_nil_of_mem (a := clusterMemberString member)
  rw [List.mem_insertionSort, List.mem_dedup]
  exact List.mem_map_of_mem (List.mem_filter.mpr ⟨hmember, decide_eq_true hgroup⟩)

/-- Every set of a cluster with members is the old one or the new one, and the new one with a new
lifetime when the rebuild counts as done. -/
structure AllOrNothing (nonce : String) (ttl : ℤ) (outcomes : String → ClusterOutcomes)
    (members : List ClusterMember) (s : Keyspace) : Prop where
  whole : ∀ entry ∈ groupMembersByCluster members,
    valueOf ((syncAllClusters nonce ttl outcomes members s).2 (clusterKey entry.1)) =
        valueOf (s (clusterKey entry.1)) ∨
      valueOf ((syncAllClusters nonce ttl outcomes members s).2 (clusterKey entry.1)) =
        some (.set entry.2.toFinset)
  rebuilt : (syncAllClusters nonce ttl outcomes members s).1 = true →
    ∀ entry ∈ groupMembersByCluster members,
      (syncAllClusters nonce ttl outcomes members s).2 (clusterKey entry.1) =
        some ⟨.set entry.2.toFinset, some ttl⟩

/-- A rebuild is all or nothing exactly when no leftover is swapped in behind a skipped clearing,
unless that happens to make the old set and the rebuild is not reported, and no rebuild is reported
over a refused swap of a set that is not the new one yet. -/
theorem allOrNothing_iff (httl : 0 < ttl) (members : List ClusterMember) (s : Keyspace) :
    AllOrNothing nonce ttl outcomes members s ↔
      (∀ entry ∈ groupMembersByCluster members,
        Merges (outcomes entry.1) entry.2 (s (tempKey nonce entry.1)) →
          valueOf (s (clusterKey entry.1)) = some (.set
            (stale (outcomes entry.1) (s (tempKey nonce entry.1)) ∪ entry.2.toFinset))) ∧
      ((∀ entry ∈ groupMembersByCluster members,
          Reports (outcomes entry.1) entry.2 (s (tempKey nonce entry.1))) →
        ∀ entry ∈ groupMembersByCluster members,
          ¬ Merges (outcomes entry.1) entry.2 (s (tempKey nonce entry.1)) ∧
          ((outcomes entry.1).swap = .refused →
            valueOf (s (clusterKey entry.1)) = some (.set entry.2.toFinset))) := by
  obtain ⟨hreported, houtcomes, -⟩ :=
    syncEach_outcome nonce outcomes s httl (nodup_groups members) fun _ => groups_ne_nil
  constructor
  · rintro ⟨hwhole, hrebuilt⟩
    have hcovers : ∀ entry ∈ groupMembersByCluster members,
        Merges (outcomes entry.1) entry.2 (s (tempKey nonce entry.1)) →
          valueOf ((syncAllClusters nonce ttl outcomes members s).2 (clusterKey entry.1)) ≠
            some (.set entry.2.toFinset) := by
      intro entry hentry hmerges hnew
      obtain ⟨synced, houtcome⟩ := houtcomes entry hentry
      rw [syncAllClusters, houtcome.swapped hmerges.fills hmerges.swaps] at hnew
      exact hmerges.stale (Finset.union_eq_right.mp (RedisValue.set.inj (Option.some.inj hnew)))
    refine ⟨?_, ?_⟩
    · intro entry hentry hmerges
      obtain ⟨synced, houtcome⟩ := houtcomes entry hentry
      obtain hold | hnew := hwhole entry hentry
      · rw [← hold]
        exact houtcome.swapped hmerges.fills hmerges.swaps
      · exact absurd hnew (hcovers entry hentry hmerges)
    · intro hreports entry hentry
      have hvalue := congrArg valueOf (hrebuilt (hreported.mpr hreports) entry hentry)
      refine ⟨fun hmerges => hcovers entry hentry hmerges hvalue, fun hrefused => ?_⟩
      obtain ⟨synced, houtcome⟩ := houtcomes entry hentry
      rw [← houtcome.kept fun h => not_swaps_of_refused hrefused h.2]
      exact hvalue
  · rintro ⟨hmerged, hdone⟩
    refine ⟨?_, ?_⟩
    · intro entry hentry
      obtain ⟨synced, houtcome⟩ := houtcomes entry hentry
      by_cases hswap : Fills (outcomes entry.1) entry.2 (s (tempKey nonce entry.1)) ∧
          Swaps (outcomes entry.1)
      · have hfinal := houtcome.swapped hswap.1 hswap.2
        by_cases hstale : stale (outcomes entry.1) (s (tempKey nonce entry.1)) ⊆
            entry.2.toFinset
        · rw [Finset.union_eq_right.mpr hstale] at hfinal
          exact .inr hfinal
        · exact .inl (hfinal.trans (hmerged entry hentry ⟨hswap.1, hswap.2, hstale⟩).symm)
      · exact .inl (houtcome.kept hswap)
    · intro hsynced entry hentry
      have hreports := hreported.mp hsynced
      obtain ⟨hclean, hrefused⟩ := hdone hreports entry hentry
      obtain ⟨synced, houtcome⟩ := houtcomes entry hentry
      have hfills := (hreports entry hentry).fills
      have hvalue : valueOf ((syncAllClusters nonce ttl outcomes members s).2
          (clusterKey entry.1)) = some (.set entry.2.toFinset) := by
        obtain hanswered | hrefuse := (hreports entry hentry).swap
        · have hstale : stale (outcomes entry.1) (s (tempKey nonce entry.1)) ⊆
              entry.2.toFinset := by
            by_contra hstale
            exact hclean ⟨hfills, .inl hanswered, hstale⟩
          rw [syncAllClusters, houtcome.swapped hfills (.inl hanswered),
            Finset.union_eq_right.mpr hstale]
        · rw [syncAllClusters, houtcome.kept fun h => not_swaps_of_refused hrefuse h.2]
          exact hrefused hrefuse
      obtain ⟨final, hfinal, hset⟩ := Option.map_eq_some_iff.mp hvalue
      have hfresh := houtcome.fresh (houtcome.reported.mpr (hreports entry hentry)) final hfinal
      obtain ⟨value, left⟩ := final
      cases hset
      cases hfresh
      exact hfinal

/-! ## Two rebuilds -/

/-- Every command is answered. -/
def allAnswered : ClusterOutcomes where
  clear := .answered
  add _ := .answered
  cleanup := .answered
  swap := .answered
  expire := .answered

def openDeal : ClusterMember := ⟨"USA500IDXUSD", "FvgStrategy", "NEW"⟩

/-- The set that a rebuild replaces, and what an earlier one left behind. -/
def beforeRebuild : Keyspace := fun key =>
  if key = clusterKey "US_Index" then some ⟨.set {"USA30IDXUSD#FvgStrategy#OLD"}, some 60000⟩
  else if key = tempKey "nonce" "US_Index" then
    some ⟨.set {"USATECHIDXUSD#FvgStrategy#CLOSED"}, none⟩
  else none

theorem groups_openDeal : groupMembersByCluster [openDeal] =
    [("US_Index", ["USA500IDXUSD#FvgStrategy#NEW"])] := by
  decide

theorem allOrNothing_answered : (0 : ℤ) < 300000 ∧
    AllOrNothing "nonce" 300000 (fun _ => allAnswered) [openDeal] beforeRebuild := by
  refine ⟨by decide, (allOrNothing_iff (by decide) _ _).mpr ⟨?_, ?_⟩⟩
  · rintro entry - hmerges
    exact absurd (Finset.empty_subset _) hmerges.stale
  · rintro - entry -
    exact ⟨fun hmerges => hmerges.stale (Finset.empty_subset _), nofun⟩

/-- A clearing that is skipped lets a closed deal into the set, and a refused swap is reported as
done. -/
theorem not_allOrNothing :
    ¬ AllOrNothing "nonce" 300000 (fun _ => { allAnswered with clear := .skipped }) [openDeal]
      beforeRebuild ∧
    ¬ AllOrNothing "nonce" 300000 (fun _ => { allAnswered with swap := .refused }) [openDeal]
      beforeRebuild := by
  have hgroup : ("US_Index", ["USA500IDXUSD#FvgStrategy#NEW"]) ∈
      groupMembersByCluster [openDeal] := by
    rw [groups_openDeal]
    exact List.mem_cons_self
  constructor
  · intro h
    have hwhole := h.whole _ hgroup
    rw [syncAllClusters, groups_openDeal] at hwhole
    revert hwhole
    decide
  · intro h
    have hrebuilt := h.rebuilt
    rw [syncAllClusters, groups_openDeal] at hrebuilt
    have hdone := hrebuilt (by decide) _ List.mem_cons_self
    revert hdone
    decide

end Clusters

end BacktestEngine

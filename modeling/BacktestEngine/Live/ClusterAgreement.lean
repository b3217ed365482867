import Mathlib.Data.Finset.Card
import BacktestEngine.Live.ClusterTable

/-! # The producer and the gate

The producer writes the members of a cluster as strings, and the gate reads symbols and
strategies off them again. What the gate decides is a matter of the set of members.
-/

namespace BacktestEngine

namespace Clusters

/-! ## One member -/

/-- A member whose symbol and strategy have no separator. -/
def ClusterMember.Plain (member : ClusterMember) : Prop :=
  '#' ∉ member.symbol.toList ∧ '#' ∉ member.strategyName.toList

theorem clusterMemberString_toList (member : ClusterMember) :
    (clusterMemberString member).toList =
      member.symbol.toList ++ '#' :: (member.strategyName.toList ++ '#' ::
        member.dealReference.toList) := by
  simp [clusterMemberString]

/-- Up to the first separator. -/
theorem span_separator {s t : List Char} (hs : '#' ∉ s) :
    (s ++ '#' :: t).span (fun c => c ≠ '#') = (s, '#' :: t) := by
  have hplain : ∀ c ∈ s, decide (c ≠ '#') = true := by
    intro c hc
    apply decide_eq_true
    rintro rfl
    exact hs hc
  rw [List.span_eq_takeWhile_dropWhile, List.takeWhile_append_of_pos hplain,
    List.dropWhile_append_of_pos hplain]
  simp

/-- What the gate reads is what the producer wrote, whatever the reference is. -/
theorem splitMember_clusterMemberString {member : ClusterMember} (h : member.Plain) :
    splitMember (clusterMemberString member) = some (member.symbol, member.strategyName) := by
  have hstrategy : (member.strategyName.toList ++ '#' :: member.dealReference.toList).takeWhile
      (fun c => c ≠ '#') = member.strategyName.toList := by
    have hspan := span_separator (t := member.dealReference.toList) h.2
    rw [List.span_eq_takeWhile_dropWhile] at hspan
    exact (Prod.mk.inj hspan).1
  unfold splitMember
  rw [clusterMemberString_toList, span_separator h.1]
  simp only [hstrategy, String.ofList_toList]

/-- Different members are different strings. -/
theorem clusterMemberString_injOn {member member' : ClusterMember} (h : member.Plain)
    (h' : member'.Plain) (heq : clusterMemberString member = clusterMemberString member') :
    member = member' := by
  have hsplit := congrArg splitMember heq
  rw [splitMember_clusterMemberString h, splitMember_clusterMemberString h', Option.some.injEq,
    Prod.mk.injEq] at hsplit
  obtain ⟨hsymbol, hstrategy⟩ := hsplit
  have hlist := congrArg String.toList heq
  rw [clusterMemberString_toList, clusterMemberString_toList, hsymbol, hstrategy,
    List.append_cancel_left_eq, List.cons.injEq, List.append_cancel_left_eq, List.cons.injEq,
    String.toList_inj] at hlist
  obtain ⟨symbol, strategyName, dealReference⟩ := member
  obtain ⟨symbol', strategyName', dealReference'⟩ := member'
  cases hsymbol
  cases hstrategy
  cases hlist.2.2
  rfl

/-! ## The members of a cluster -/

/-- The distinct members of a cluster. -/
def membersOf (cluster : String) (members : List ClusterMember) : Finset ClusterMember :=
  members.toFinset.filter fun member => cluster ∈ groupsFor member.symbol

theorem mem_membersOf {cluster : String} {members : List ClusterMember} {member : ClusterMember} :
    member ∈ membersOf cluster members ↔ member ∈ members ∧ cluster ∈ groupsFor member.symbol := by
  rw [membersOf, Finset.mem_filter, List.mem_toFinset]

/-- The strings that the gate reads for a cluster; a set that was never written is empty. -/
def stringsOf (cluster : String) (members : List ClusterMember) : List String :=
  ((groupMembersByCluster members).lookup cluster).getD []

theorem lookup_map_self {α β : Type} [DecidableEq α] (f : α → β) (a : α) (l : List α) :
    (l.map fun x => (x, f x)).lookup a = if a ∈ l then some (f a) else none := by
  induction l with
  | nil => rfl
  | cons x l ih =>
    rw [List.map_cons, List.lookup_cons]
    by_cases hx : a = x
    · subst hx
      simp
    · rw [beq_false_of_ne hx, ih]
      simp [hx]

theorem stringsOf_eq (cluster : String) (members : List ClusterMember) :
    stringsOf cluster members = (((members.filter fun member =>
      cluster ∈ groupsFor member.symbol).map clusterMemberString).dedup).insertionSort (· ≤ ·) := by
  unfold stringsOf groupMembersByCluster
  dsimp only
  rw [lookup_map_self (fun cluster => (((members.filter fun member =>
    cluster ∈ groupsFor member.symbol).map clusterMemberString).dedup).insertionSort (· ≤ ·))]
  split_ifs with hcluster
  · rfl
  · have hnone : (members.filter fun member => cluster ∈ groupsFor member.symbol) = [] := by
      rw [List.filter_eq_nil_iff]
      intro member hmember hgroup
      apply hcluster
      rw [List.mem_insertionSort, List.mem_dedup, List.mem_flatMap]
      exact ⟨member, hmember, of_decide_eq_true hgroup⟩
    rw [hnone]
    rfl

theorem mem_stringsOf {cluster : String} {members : List ClusterMember} {string : String} :
    string ∈ stringsOf cluster members ↔
      ∃ member ∈ membersOf cluster members, clusterMemberString member = string := by
  rw [stringsOf_eq, List.mem_insertionSort, List.mem_dedup, List.mem_map]
  simp only [mem_membersOf, List.mem_filter, decide_eq_true_eq]

theorem nodup_stringsOf (cluster : String) (members : List ClusterMember) :
    (stringsOf cluster members).Nodup := by
  rw [stringsOf_eq]
  exact (List.perm_insertionSort _ _).nodup_iff.mpr (List.nodup_dedup _)

/-- The set of strings has as many as the cluster has members. -/
theorem length_stringsOf {cluster : String} {members : List ClusterMember}
    (h : ∀ member ∈ members, member.Plain) :
    (stringsOf cluster members).length = (membersOf cluster members).card := by
  have himage : (stringsOf cluster members).toFinset =
      (membersOf cluster members).image clusterMemberString := by
    ext string
    rw [List.mem_toFinset, mem_stringsOf, Finset.mem_image]
  rw [← List.toFinset_card_of_nodup (nodup_stringsOf cluster members), himage]
  apply Finset.card_image_of_injOn
  intro member hmember member' hmember' heq
  exact clusterMemberString_injOn (h member (mem_membersOf.mp hmember).1)
    (h member' (mem_membersOf.mp hmember').1) heq

/-! ## The verdict -/

/-- What the gate decides for a candidate on what the producer has written. -/
def gateVerdict (cluster : String) (members : List ClusterMember) (symbol strategyName : String) :
    ClusterVerdict :=
  evaluateClusterGroup (stringsOf cluster members) symbol strategyName (clusterLimit cluster)
    (isStrictCluster cluster)

/-- What the portfolio's rules say of a candidate, given the members of a cluster. -/
def ruling (cluster : String) (inside : Finset ClusterMember) (symbol strategyName : String) :
    ClusterVerdict :=
  if clusterLimit cluster ≤ inside.card then .groupFull
  else if ∃ member ∈ inside, member.symbol = symbol ∧ member.strategyName = strategyName then
    .symbolStrategyStacked
  else if isStrictCluster cluster ∧ ∃ member ∈ inside, member.strategyName = strategyName then
    .strategyNotDiverse
  else .allowed

section

variable {cluster symbol strategyName : String} {members others : List ClusterMember}

theorem stacked_iff (h : ∀ member ∈ members, member.Plain) :
    ((stringsOf cluster members).any fun string =>
        splitMember string = some (symbol, strategyName)) = true ↔
      ∃ member ∈ membersOf cluster members,
        member.symbol = symbol ∧ member.strategyName = strategyName := by
  rw [List.any_eq_true]
  constructor
  · rintro ⟨string, hstring, hsplit⟩
    obtain ⟨member, hmember, rfl⟩ := mem_stringsOf.mp hstring
    rw [splitMember_clusterMemberString (h member (mem_membersOf.mp hmember).1),
      decide_eq_true_eq, Option.some.injEq, Prod.mk.injEq] at hsplit
    exact ⟨member, hmember, hsplit⟩
  · rintro ⟨member, hmember, rfl, rfl⟩
    refine ⟨clusterMemberString member, mem_stringsOf.mpr ⟨member, hmember, rfl⟩, ?_⟩
    rw [splitMember_clusterMemberString (h member (mem_membersOf.mp hmember).1)]
    exact decide_eq_true rfl

theorem notDiverse_iff (h : ∀ member ∈ members, member.Plain) :
    ((stringsOf cluster members).any fun string =>
        (splitMember string).any fun parts => parts.2 = strategyName) = true ↔
      ∃ member ∈ membersOf cluster members, member.strategyName = strategyName := by
  rw [List.any_eq_true]
  constructor
  · rintro ⟨string, hstring, hsplit⟩
    obtain ⟨member, hmember, rfl⟩ := mem_stringsOf.mp hstring
    rw [splitMember_clusterMemberString (h member (mem_membersOf.mp hmember).1)] at hsplit
    exact ⟨member, hmember, of_decide_eq_true hsplit⟩
  · rintro ⟨member, hmember, rfl⟩
    refine ⟨clusterMemberString member, mem_stringsOf.mpr ⟨member, hmember, rfl⟩, ?_⟩
    rw [splitMember_clusterMemberString (h member (mem_membersOf.mp hmember).1)]
    exact decide_eq_true rfl

/-- The strings lose nothing that the rules look at. -/
theorem gateVerdict_eq (h : ∀ member ∈ members, member.Plain) :
    gateVerdict cluster members symbol strategyName =
      ruling cluster (membersOf cluster members) symbol strategyName := by
  unfold gateVerdict evaluateClusterGroup ruling
  rw [length_stringsOf h]
  simp only [stacked_iff h, Bool.and_eq_true, notDiverse_iff h]

/-- The verdict is a matter of the members, however often and in which order they are listed. -/
theorem gateVerdict_congr (h : ∀ member, member ∈ others ↔ member ∈ members) :
    gateVerdict cluster others symbol strategyName =
      gateVerdict cluster members symbol strategyName := by
  have hperm : (stringsOf cluster others).Perm (stringsOf cluster members) := by
    rw [List.perm_ext_iff_of_nodup (nodup_stringsOf ..) (nodup_stringsOf ..)]
    intro string
    simp only [mem_stringsOf, mem_membersOf, h]
  unfold gateVerdict evaluateClusterGroup
  rw [hperm.length_eq, hperm.any_eq, hperm.any_eq]

theorem allowed_iff {strings : List String} {limit : ℕ} {strict : Bool} :
    evaluateClusterGroup strings symbol strategyName limit strict = .allowed ↔
      strings.length < limit ∧
        (∀ string ∈ strings, splitMember string ≠ some (symbol, strategyName)) ∧
        (strict = true → ∀ string ∈ strings, ∀ parts ∈ splitMember string,
          parts.2 ≠ strategyName) := by
  unfold evaluateClusterGroup
  split_ifs with hfull hstacked hdiverse
  · exact iff_of_false (by simp) fun h => absurd h.1 (not_lt.mpr hfull)
  · refine iff_of_false (by simp) fun h => ?_
    obtain ⟨string, hmem, hsplit⟩ := List.any_eq_true.mp hstacked
    exact h.2.1 string hmem (of_decide_eq_true hsplit)
  · refine iff_of_false (by simp) fun h => ?_
    obtain ⟨hstrict, hany⟩ := (Bool.and_eq_true _ _).mp hdiverse
    obtain ⟨string, hmem, hsplit⟩ := List.any_eq_true.mp hany
    obtain ⟨parts, hparts, hname⟩ := (Option.any_eq_true _ _).mp hsplit
    exact h.2.2 hstrict string hmem parts hparts (of_decide_eq_true hname)
  · refine iff_of_true rfl ⟨not_le.mp hfull, fun string hmem hsplit => ?_,
      fun hstrict string hmem parts hparts hname => ?_⟩
    · exact hstacked (List.any_eq_true.mpr ⟨string, hmem, decide_eq_true hsplit⟩)
    · apply hdiverse
      rw [hstrict, Bool.true_and, List.any_eq_true]
      refine ⟨string, hmem, ?_⟩
      rw [Option.mem_def.mp hparts]
      exact decide_eq_true hname

/-- A member more lets no one through who was kept out. -/
theorem gateVerdict_mono (h : ∀ member ∈ members, member ∈ others)
    (hallowed : gateVerdict cluster others symbol strategyName = .allowed) :
    gateVerdict cluster members symbol strategyName = .allowed := by
  have hsubset : stringsOf cluster members ⊆ stringsOf cluster others := by
    intro string hstring
    obtain ⟨member, hmember, heq⟩ := mem_stringsOf.mp hstring
    rw [mem_membersOf] at hmember
    exact mem_stringsOf.mpr ⟨member, mem_membersOf.mpr ⟨h member hmember.1, hmember.2⟩, heq⟩
  have hlength := ((nodup_stringsOf cluster members).subperm hsubset).length_le
  obtain ⟨hroom, hunstacked, hdiverse⟩ := allowed_iff.mp hallowed
  apply allowed_iff.mpr
  exact ⟨hlength.trans_lt hroom, fun string hmem => hunstacked string (hsubset hmem),
    fun hstrict string hmem => hdiverse hstrict string (hsubset hmem)⟩

/-- On what the producer has written, the gate rules on the members themselves; how they are listed
does not matter, and more of them do not let a candidate through. -/
theorem cluster_gate_agrees (h : ∀ member ∈ members, member.Plain)
    (cluster symbol strategyName : String) :
    gateVerdict cluster members symbol strategyName =
        ruling cluster (membersOf cluster members) symbol strategyName ∧
      (∀ others, (∀ member, member ∈ others ↔ member ∈ members) →
        gateVerdict cluster others symbol strategyName =
          gateVerdict cluster members symbol strategyName) ∧
      ∀ others, (∀ member ∈ members, member ∈ others) →
        gateVerdict cluster members symbol strategyName ≠ .allowed →
          gateVerdict cluster others symbol strategyName ≠ .allowed := by
  refine ⟨gateVerdict_eq h, fun others hothers => gateVerdict_congr hothers, ?_⟩
  intro others hothers hblocked hallowed
  exact hblocked (gateVerdict_mono hothers hallowed)

/-- A strategy that has a deal on the symbol is kept out, although the reference of the deal has a
separator. -/
theorem cluster_gate_agrees_stacked :
    gateVerdict "EUR_Pairs" [⟨"EURUSD", "Momentum", "DI#1"⟩] "EURUSD" "Momentum" =
      .symbolStrategyStacked := by
  have hplain : ∀ member ∈ [(⟨"EURUSD", "Momentum", "DI#1"⟩ : ClusterMember)], member.Plain := by
    simp [ClusterMember.Plain]
  rw [(cluster_gate_agrees hplain "EUR_Pairs" "EURUSD" "Momentum").1]
  decide

end

end Clusters

end BacktestEngine

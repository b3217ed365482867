import BacktestEngine.Live.ClusterRebuild

/-! # The rebuild of one cluster

The temporary key is filled on top of what a skipped clearing left there, and an error that the
server answers to the swap passes for a swap. Nothing else than a swap changes the set.
-/

namespace BacktestEngine

namespace Clusters

/-! ## One cluster -/

/-- The members of a key that a set may be made of; none when it holds another kind of value. -/
def membersOf? : Option RedisEntry → Option (Finset String)
  | none => some ∅
  | some ⟨.set members, _⟩ => some members
  | some ⟨.other, _⟩ => none

/-- The members that a skipped clearing leaves under the temporary key. -/
def stale (o : ClusterOutcomes) (leftover : Option RedisEntry) : Finset String :=
  if o.clear = .skipped then (membersOf? leftover).getD ∅ else ∅

/-- The clearing is answered or skipped, no value of another kind is left, and every value of the
cluster is added. -/
structure Fills (o : ClusterOutcomes) (values : List String) (leftover : Option RedisEntry) :
    Prop where
  cleared : o.clear = .answered ∨ o.clear = .skipped
  plain : o.clear = .skipped → ∀ entry, leftover = some entry → entry.value ≠ .other
  added : ∀ value ∈ values, o.add value = .answered

/-- The swap is carried out. -/
def Swaps (o : ClusterOutcomes) : Prop := o.swap = .answered ∨ o.swap = .lost true

/-- The cluster counts as synced: an error of the server is no failure of the swap. -/
structure Reports (o : ClusterOutcomes) (values : List String) (leftover : Option RedisEntry) :
    Prop where
  fills : Fills o values leftover
  swap : o.swap = .answered ∨ o.swap = .refused
  expire : o.expire = .answered

/-- A leftover that no clearing removed is swapped in with the members of the cluster. -/
structure Merges (o : ClusterOutcomes) (values : List String) (leftover : Option RedisEntry) :
    Prop where
  fills : Fills o values leftover
  swaps : Swaps o
  stale : ¬ stale o leftover ⊆ values.toFinset

def valueOf (entry : Option RedisEntry) : Option RedisValue := entry.map RedisEntry.value

/-- What becomes of the set of a cluster. -/
structure Outcome (ttl : ℤ) (o : ClusterOutcomes) (values : List String)
    (leftover previous : Option RedisEntry) (synced : Bool) (final : Option RedisEntry) :
    Prop where
  reported : synced = true ↔ Reports o values leftover
  swapped : Fills o values leftover → Swaps o →
    valueOf final = some (.set (stale o leftover ∪ values.toFinset))
  kept : ¬ (Fills o values leftover ∧ Swaps o) → valueOf final = valueOf previous
  fresh : synced = true → ∀ entry, final = some entry → entry.ttl = some ttl

variable {nonce : String} {ttl : ℤ} {o : ClusterOutcomes} {cluster key : String}
  {values : List String} {s : Keyspace}

theorem tempKey_ne (cluster cluster' : String) : tempKey nonce cluster ≠ clusterKey cluster' := by
  intro h
  have hchars := congrArg String.toList h
  simp [tempKey, clusterKey] at hchars

theorem tempKey_injective : Function.Injective (tempKey nonce) := by
  intro cluster cluster' h
  have hchars := congrArg String.toList h
  simpa [tempKey, String.toList_inj] using hchars

theorem clusterKey_injective : Function.Injective clusterKey := by
  intro cluster cluster' h
  exact (String.append_right_inj "CG#").mp h

theorem serve_ne {command : SyncCommand} {other : String} (h : other ∉ command.keys) :
    (serve s command).2 other = s other := by
  cases command with
  | del key => exact Function.update_of_ne (List.ne_of_not_mem_cons h) _ _
  | sadd key value =>
    have hne := List.ne_of_not_mem_cons h
    cases hentry : s key with
    | none => simp only [serve, hentry, Function.update_of_ne hne]
    | some entry =>
      obtain ⟨stored, ttl⟩ := entry
      cases stored <;> simp only [serve, hentry, Function.update_of_ne hne]
  | rename source destination =>
    have hne := List.ne_of_not_mem_cons h
    have hne' := List.ne_of_not_mem_cons (List.not_mem_of_not_mem_cons h)
    cases hentry : s source <;>
      simp only [serve, hentry, Function.update_of_ne hne, Function.update_of_ne hne']
  | pexpire key ttl =>
    have hne := List.ne_of_not_mem_cons h
    cases hentry : s key <;> simp only [serve, hentry, Function.update_of_ne hne]

/-- A command leaves the keys alone that it does not name, whatever it comes to. -/
theorem exec_ne (delivery : Delivery) {command : SyncCommand} {other : String}
    (h : other ∉ command.keys) : (exec delivery command s).2 other = s other := by
  cases delivery with
  | answered => exact serve_ne h
  | lost carriedOut =>
    cases carriedOut with
    | true => exact serve_ne h
    | false => rfl
  | skipped => rfl
  | refused => rfl

theorem deleteKey_ne (delivery : Delivery) {other : String} (h : other ≠ key) :
    (deleteKey delivery key s).2 other = s other := exec_ne delivery (List.mem_singleton.not.mpr h)

theorem setAdd_ne (delivery : Delivery) (value : String) {other : String} (h : other ≠ key) :
    (setAdd delivery key value s).2 other = s other :=
  exec_ne delivery (List.mem_singleton.not.mpr h)

theorem keyRename_ne (delivery : Delivery) {source destination other : String}
    (hsource : other ≠ source) (hdestination : other ≠ destination) :
    (keyRename delivery source destination s).2 other = s other :=
  exec_ne delivery (List.not_mem_cons_of_ne_of_not_mem hsource
    (List.mem_singleton.not.mpr hdestination))

theorem setTTL_ne (delivery : Delivery) {other : String} (h : other ≠ key) :
    (setTTL delivery key ttl s).2 other = s other := exec_ne delivery (List.mem_singleton.not.mpr h)

theorem serve_sadd {value : String} {members : Finset String}
    (h : membersOf? (s key) = some members) : ∃ n ttl, serve s (.sadd key value) =
      (.integer n, Function.update s key (some ⟨.set (insert value members), ttl⟩)) := by
  cases hentry : s key with
  | none =>
    rw [hentry] at h
    cases h
    refine ⟨1, none, ?_⟩
    simp only [serve, hentry]
    rfl
  | some entry =>
    obtain ⟨stored, ttl⟩ := entry
    rw [hentry] at h
    cases stored with
    | set stored =>
      cases h
      refine ⟨if value ∈ members then 0 else 1, ttl, ?_⟩
      simp only [serve, hentry]
    | other => cases h

theorem setAdd_answered {value : String} {members : Finset String}
    (h : membersOf? (s key) = some members) : ∃ added ttl, setAdd .answered key value s =
      (.ok added, Function.update s key (some ⟨.set (insert value members), ttl⟩)) := by
  obtain ⟨n, ttl, hserve⟩ := serve_sadd h
  refine ⟨decide (n ≠ 0), ttl, ?_⟩
  unfold setAdd exec
  rw [hserve]
  rfl

theorem setAdd_ok {delivery : Delivery} {value : String} {added : Bool}
    (h : (setAdd delivery key value s).1 = .ok added) :
    delivery = .answered ∧ (membersOf? (s key)).isSome := by
  cases delivery with
  | answered =>
    refine ⟨rfl, ?_⟩
    cases hentry : s key with
    | none => rfl
    | some entry =>
      obtain ⟨stored, ttl⟩ := entry
      cases stored with
      | set stored => rfl
      | other =>
        simp only [setAdd, exec, serve, hentry] at h
        cases h
  | skipped => cases h
  | lost carriedOut => cases h
  | refused => cases h

theorem fill_ne {other : String} (h : other ≠ key) :
    (fill o key values s).2 other = s other := by
  induction values generalizing s with
  | nil => rfl
  | cons value values ih =>
    have hone : (setAdd (o.add value) key value s).2 other = s other := setAdd_ne _ value h
    unfold fill
    split
    · rename_i hadd
      rw [hadd] at hone
      exact hone
    · rename_i hadd
      rw [hadd] at hone
      exact ih.trans hone

theorem fill_added {members : Finset String} (hadd : ∀ value ∈ values, o.add value = .answered)
    (hmembers : membersOf? (s key) = some members) (hne : values ≠ []) :
    ∃ ttl, fill o key values s =
      (true, Function.update s key (some ⟨.set (members ∪ values.toFinset), ttl⟩)) := by
  induction values generalizing s members with
  | nil => exact absurd rfl hne
  | cons value rest ih =>
    obtain ⟨hvalue, hrest⟩ := List.forall_mem_cons.mp hadd
    obtain ⟨added, ttl, hone⟩ : ∃ added ttl, setAdd .answered key value s = _ :=
      setAdd_answered hmembers
    rw [fill, hvalue, hone]
    dsimp only
    have hunion : insert value members ∪ rest.toFinset = members ∪ (value :: rest).toFinset := by
      rw [List.toFinset_cons, Finset.insert_union, Finset.union_insert]
    cases rest with
    | nil =>
      refine ⟨ttl, ?_⟩
      rw [← hunion, List.toFinset_nil, Finset.union_empty]
      rfl
    | cons next rest =>
      have hmembers' : membersOf? (Function.update s key
          (some ⟨.set (insert value members), ttl⟩) key) = some (insert value members) := by
        rw [Function.update_self]
        rfl
      obtain ⟨ttl', hfilled⟩ := ih hrest hmembers' (List.cons_ne_nil _ _)
      refine ⟨ttl', ?_⟩
      rw [hfilled, Function.update_idem, hunion]

theorem fill_true (h : (fill o key values s).1 = true) :
    (∀ value ∈ values, o.add value = .answered) ∧
      (values ≠ [] → (membersOf? (s key)).isSome) := by
  induction values generalizing s with
  | nil => exact ⟨nofun, fun hne => absurd rfl hne⟩
  | cons value rest ih =>
    unfold fill at h
    split at h
    · cases h
    · rename_i added s' hadd
      obtain ⟨hanswered, hmembers⟩ := setAdd_ok (congrArg Prod.fst hadd)
      exact ⟨List.forall_mem_cons.mpr ⟨hanswered, (ih h).1⟩, fun _ => hmembers⟩

/-! ## The swap -/

theorem valueOf_pexpire (httl : 0 < ttl) :
    valueOf ((serve s (.pexpire key ttl)).2 key) = valueOf (s key) := by
  cases hentry : s key with
  | none => simp only [serve, hentry]
  | some entry =>
    simp only [serve, hentry, Function.update_self, if_neg httl.not_ge]
    rfl

theorem valueOf_setTTL (httl : 0 < ttl) (delivery : Delivery) :
    valueOf ((setTTL delivery key ttl s).2 key) = valueOf (s key) := by
  cases delivery with
  | answered => exact valueOf_pexpire httl
  | lost carriedOut =>
    cases carriedOut with
    | true => exact valueOf_pexpire httl
    | false => rfl
  | _ => rfl

theorem setTTL_ok (delivery : Delivery) (key : String) (ttl : ℤ) (s : Keyspace) :
    (∃ set, (setTTL delivery key ttl s).1 = .ok set) ↔ delivery = .answered := by
  constructor
  · rintro ⟨set, h⟩
    cases delivery <;> first | rfl | cases h
  · rintro rfl
    cases hentry : s key with
    | none => exact ⟨false, by simp only [setTTL, exec, serve, hentry]; rfl⟩
    | some entry => exact ⟨true, by simp only [setTTL, exec, serve, hentry]; rfl⟩

theorem ttl_setTTL (httl : 0 < ttl) {entry : RedisEntry}
    (h : (setTTL .answered key ttl s).2 key = some entry) : entry.ttl = some ttl := by
  cases hentry : s key with
  | none =>
    simp only [setTTL, exec, serve, hentry] at h
    cases h
  | some old =>
    simp only [setTTL, exec, serve, hentry, Function.update_self, if_neg httl.not_ge] at h
    cases h
    rfl

section Rename

variable {source destination : String} {entry : RedisEntry}

/-- A refused swap passes for one that was answered. -/
theorem keyRename_ok (delivery : Delivery) (source destination : String) (s : Keyspace) :
    (∃ swapped, (keyRename delivery source destination s).1 = .ok swapped) ↔
      delivery = .answered ∨ delivery = .refused := by
  cases delivery with
  | answered => exact iff_of_true ⟨true, rfl⟩ (.inl rfl)
  | skipped => exact iff_of_false nofun (by simp)
  | lost carriedOut => exact iff_of_false nofun (by simp)
  | refused => exact iff_of_true ⟨true, rfl⟩ (.inr rfl)

theorem keyRename_carriedOut {delivery : Delivery}
    (h : delivery = .answered ∨ delivery = .lost true) (hentry : s source = some entry) :
    (keyRename delivery source destination s).2 destination = some entry := by
  have hserve : (serve s (.rename source destination)).2 destination = some entry := by
    simp only [serve, hentry]
    exact Function.update_self ..
  obtain rfl | rfl := h
  · exact hserve
  · exact hserve

theorem keyRename_left {delivery : Delivery}
    (h : ¬ (delivery = .answered ∨ delivery = .lost true)) :
    (keyRename delivery source destination s).2 = s := by
  cases delivery with
  | answered => exact absurd (.inl rfl) h
  | lost carriedOut =>
    cases carriedOut with
    | true => exact absurd (.inr rfl) h
    | false => rfl
  | skipped => rfl
  | refused => rfl

end Rename

/-- What the swap of a filled temporary key makes of the set. -/
structure SwapOutcome (ttl : ℤ) (o : ClusterOutcomes) (filled : RedisValue)
    (previous : Option RedisEntry) (synced : Bool) (final : Option RedisEntry) : Prop where
  reported : synced = true ↔ (o.swap = .answered ∨ o.swap = .refused) ∧ o.expire = .answered
  swapped : Swaps o → valueOf final = some filled
  kept : ¬ Swaps o → valueOf final = valueOf previous
  fresh : synced = true → ∀ entry, final = some entry → entry.ttl = some ttl

theorem swapIn_outcome (httl : 0 < ttl) {entry : RedisEntry}
    (hentry : s (tempKey nonce cluster) = some entry) :
    SwapOutcome ttl o entry.value (s (clusterKey cluster)) (swapIn nonce ttl o cluster s).1
      ((swapIn nonce ttl o cluster s).2 (clusterKey cluster)) := by
  have hok := keyRename_ok o.swap (tempKey nonce cluster) (clusterKey cluster) s
  have hswapped : Swaps o → (keyRename o.swap (tempKey nonce cluster) (clusterKey cluster) s).2
      (clusterKey cluster) = some entry := fun h => keyRename_carriedOut h hentry
  have hkept : ¬ Swaps o → (keyRename o.swap (tempKey nonce cluster) (clusterKey cluster) s).2 =
      s := keyRename_left
  unfold swapIn
  cases hrename : keyRename o.swap (tempKey nonce cluster) (clusterKey cluster) s with
  | mk swapped s' =>
    rw [hrename] at hok hswapped hkept
    cases swapped with
    | error what =>
      have hnone : ¬ (o.swap = .answered ∨ o.swap = .refused) := fun h => nomatch hok.mpr h
      refine ⟨iff_of_false nofun fun h => hnone h.1, ?_, ?_, nofun⟩
      · exact fun hswaps => congrArg valueOf (hswapped hswaps)
      · exact fun hswaps => congrArg (fun s => valueOf (s (clusterKey cluster))) (hkept hswaps)
    | ok swapped =>
      have hsome := hok.mp ⟨swapped, rfl⟩
      have hvalue : valueOf ((setTTL o.expire (clusterKey cluster) ttl s').2 (clusterKey cluster)) =
          valueOf (s' (clusterKey cluster)) := valueOf_setTTL httl o.expire
      have hanswered := setTTL_ok o.expire (clusterKey cluster) ttl s'
      dsimp only at hswapped hkept ⊢
      cases hexpire : setTTL o.expire (clusterKey cluster) ttl s' with
      | mk set s'' =>
        rw [hexpire] at hvalue hanswered
        have hnew : Swaps o → valueOf (s'' (clusterKey cluster)) = some entry.value := by
          intro hswaps
          rw [hvalue, hswapped hswaps]
          rfl
        have hold : ¬ Swaps o →
            valueOf (s'' (clusterKey cluster)) = valueOf (s (clusterKey cluster)) := by
          intro hswaps
          rw [hvalue, hkept hswaps]
        cases set with
        | error what =>
          have hlost : ¬ o.expire = .answered := fun h => nomatch hanswered.mpr h
          exact ⟨iff_of_false nofun fun h => hlost h.2, hnew, hold, nofun⟩
        | ok set =>
          have hexpires := hanswered.mp ⟨set, rfl⟩
          refine ⟨iff_of_true rfl ⟨hsome, hexpires⟩, hnew, hold, fun _ final hentry => ?_⟩
          rw [hexpires] at hexpire
          have hstored := congrArg (fun r => r.2 (clusterKey cluster)) hexpire
          exact ttl_setTTL httl (hstored.trans hentry)

theorem swapIn_ne {other : String} (htemp : other ≠ tempKey nonce cluster)
    (hkey : other ≠ clusterKey cluster) : (swapIn nonce ttl o cluster s).2 other = s other := by
  have hrename : (keyRename o.swap (tempKey nonce cluster) (clusterKey cluster) s).2 other =
      s other := keyRename_ne o.swap htemp hkey
  unfold swapIn
  split
  · rename_i hrun
    rw [hrun] at hrename
    exact hrename
  · rename_i s' hrun
    rw [hrun] at hrename
    have hexpire : (setTTL o.expire (clusterKey cluster) ttl s').2 other = s' other :=
      setTTL_ne o.expire hkey
    split
    · rename_i hrun'
      rw [hrun'] at hexpire
      exact hexpire.trans hrename
    · rename_i hrun'
      rw [hrun'] at hexpire
      exact hexpire.trans hrename

theorem rebuild_ne {other : String} (htemp : other ≠ tempKey nonce cluster)
    (hkey : other ≠ clusterKey cluster) :
    (rebuild nonce ttl o cluster values s).2 other = s other := by
  have hfill : (fill o (tempKey nonce cluster) values s).2 other = s other := fill_ne htemp
  unfold rebuild
  split
  · rename_i hrun
    rw [hrun] at hfill
    exact (deleteKey_ne o.cleanup htemp).trans hfill
  · rename_i hrun
    rw [hrun] at hfill
    exact (swapIn_ne htemp hkey).trans hfill

/-- Only the two keys of a cluster are written. -/
theorem syncCluster_ne {other : String} (htemp : other ≠ tempKey nonce cluster)
    (hkey : other ≠ clusterKey cluster) :
    (syncCluster nonce ttl o cluster values s).2 other = s other := by
  have hclear : (deleteKey o.clear (tempKey nonce cluster) s).2 other = s other :=
    deleteKey_ne o.clear htemp
  unfold syncCluster
  split
  · rename_i hrun
    rw [hrun] at hclear
    split_ifs
    · exact hclear
    · exact (rebuild_ne htemp hkey).trans hclear
  · rename_i hrun
    rw [hrun] at hclear
    exact (rebuild_ne htemp hkey).trans hclear

/-- A temporary key that can be filled is filled and swapped in. -/
theorem rebuild_filled (httl : 0 < ttl) {members : Finset String} (hne : values ≠ [])
    (hadd : ∀ value ∈ values, o.add value = .answered)
    (hmembers : membersOf? (s (tempKey nonce cluster)) = some members) :
    SwapOutcome ttl o (.set (members ∪ values.toFinset)) (s (clusterKey cluster))
      (rebuild nonce ttl o cluster values s).1
      ((rebuild nonce ttl o cluster values s).2 (clusterKey cluster)) := by
  obtain ⟨left, hfill⟩ := fill_added hadd hmembers hne
  have hother : clusterKey cluster ≠ tempKey nonce cluster := (tempKey_ne _ _).symm
  have hswap : SwapOutcome ttl o _ _ _ _ := swapIn_outcome httl
    (Function.update_self (tempKey nonce cluster)
      (some ⟨.set (members ∪ values.toFinset), left⟩) s)
  rw [Function.update_of_ne hother] at hswap
  unfold rebuild
  rw [hfill]
  exact hswap

/-- One that cannot be filled leaves the set as it was. -/
theorem rebuild_unfilled (hne : values ≠ [])
    (h : ¬ ((∀ value ∈ values, o.add value = .answered) ∧
      (membersOf? (s (tempKey nonce cluster))).isSome)) :
    (rebuild nonce ttl o cluster values s).1 = false ∧
      (rebuild nonce ttl o cluster values s).2 (clusterKey cluster) = s (clusterKey cluster) := by
  have hother : clusterKey cluster ≠ tempKey nonce cluster := (tempKey_ne _ _).symm
  have hsame : (fill o (tempKey nonce cluster) values s).2 (clusterKey cluster) =
      s (clusterKey cluster) := fill_ne hother
  unfold rebuild
  split
  · rename_i hrun
    rw [hrun] at hsame
    exact ⟨rfl, (deleteKey_ne o.cleanup hother).trans hsame⟩
  · rename_i hrun
    obtain ⟨hadd, hmembers⟩ := fill_true (congrArg Prod.fst hrun)
    exact absurd ⟨hadd, hmembers hne⟩ h

section Assemble

variable {leftover previous final : Option RedisEntry} {synced : Bool} {members : Finset String}

theorem stale_of_skipped (h : o.clear = .skipped) (hmembers : membersOf? leftover = some members) :
    stale o leftover = members := by
  rw [stale, if_pos h, hmembers]
  rfl

theorem Outcome.of_filled (hfills : Fills o values leftover) (hstale : stale o leftover = members)
    (h : SwapOutcome ttl o (.set (members ∪ values.toFinset)) previous synced final) :
    Outcome ttl o values leftover previous synced final := by
  refine ⟨h.reported.trans ?_, ?_, ?_, h.fresh⟩
  · exact ⟨fun hs => ⟨hfills, hs.1, hs.2⟩, fun hreports => ⟨hreports.swap, hreports.expire⟩⟩
  · intro _ hswaps
    rw [hstale]
    exact h.swapped hswaps
  · exact fun hkept => h.kept fun hswaps => hkept ⟨hfills, hswaps⟩

theorem Outcome.of_unfilled (hfills : ¬ Fills o values leftover) (hsynced : synced = false)
    (hfinal : final = previous) : Outcome ttl o values leftover previous synced final := by
  subst hsynced hfinal
  exact ⟨iff_of_false nofun fun h => hfills h.fills, fun h => absurd h hfills, fun _ => rfl, nofun⟩

end Assemble

theorem syncCluster_outcome (httl : 0 < ttl) (hne : values ≠ []) :
    Outcome ttl o values (s (tempKey nonce cluster)) (s (clusterKey cluster))
      (syncCluster nonce ttl o cluster values s).1
      ((syncCluster nonce ttl o cluster values s).2 (clusterKey cluster)) := by
  have hother : clusterKey cluster ≠ tempKey nonce cluster := (tempKey_ne _ _).symm
  cases hclear : o.clear with
  | answered =>
    have hrun : syncCluster nonce ttl o cluster values s =
        rebuild nonce ttl o cluster values (Function.update s (tempKey nonce cluster) none) := by
      rw [syncCluster, hclear]
      rfl
    have hmembers : membersOf? (Function.update s (tempKey nonce cluster) none
        (tempKey nonce cluster)) = some ∅ := by
      rw [Function.update_self]
      rfl
    have hsame : Function.update s (tempKey nonce cluster) none (clusterKey cluster) =
        s (clusterKey cluster) := Function.update_of_ne hother _ _
    rw [hrun]
    by_cases hadd : ∀ value ∈ values, o.add value = .answered
    · have hswap := rebuild_filled httl hne hadd hmembers
      rw [hsame] at hswap
      apply Outcome.of_filled ⟨.inl hclear, ?_, hadd⟩ ?_ hswap
      · exact fun h => absurd (hclear.symm.trans h) (by decide)
      · rw [stale, if_neg]
        exact fun h => absurd (hclear.symm.trans h) (by decide)
    · obtain ⟨hsynced, hfinal⟩ := rebuild_unfilled hne fun h => hadd h.1
      exact .of_unfilled (fun h => hadd h.added) hsynced (hfinal.trans hsame)
  | skipped =>
    have hrun : syncCluster nonce ttl o cluster values s =
        rebuild nonce ttl o cluster values s := by
      rw [syncCluster, hclear]
      rfl
    rw [hrun]
    by_cases hfill : (∀ value ∈ values, o.add value = .answered) ∧
        (membersOf? (s (tempKey nonce cluster))).isSome
    · obtain ⟨members, hmembers⟩ := Option.isSome_iff_exists.mp hfill.2
      refine .of_filled ⟨.inr hclear, ?_, hfill.1⟩ (stale_of_skipped hclear hmembers)
        (rebuild_filled httl hne hfill.1 hmembers)
      rintro - ⟨stored, left⟩ hentry rfl
      rw [hentry] at hmembers
      cases hmembers
    · obtain ⟨hsynced, hfinal⟩ := rebuild_unfilled hne hfill
      refine .of_unfilled (fun h => hfill ⟨h.added, ?_⟩) hsynced hfinal
      cases hentry : s (tempKey nonce cluster) with
      | none => rfl
      | some entry =>
        obtain ⟨stored, left⟩ := entry
        cases stored with
        | set stored => rfl
        | other => exact absurd rfl (h.plain hclear _ hentry)
  | lost carriedOut =>
    have hrun : syncCluster nonce ttl o cluster values s =
        (false, (deleteKey (.lost carriedOut) (tempKey nonce cluster) s).2) := by
      rw [syncCluster, hclear]
      rfl
    rw [hrun]
    have hsame : (deleteKey (.lost carriedOut) (tempKey nonce cluster) s).2 (clusterKey cluster) =
        s (clusterKey cluster) := deleteKey_ne _ hother
    refine .of_unfilled (fun h => ?_) rfl hsame
    obtain hcleared | hcleared := h.cleared
    · cases hclear.symm.trans hcleared
    · cases hclear.symm.trans hcleared
  | refused =>
    have hrun : syncCluster nonce ttl o cluster values s = (false, s) := by
      rw [syncCluster, hclear]
      rfl
    rw [hrun]
    refine .of_unfilled (fun h => ?_) rfl rfl
    obtain hcleared | hcleared := h.cleared
    · cases hclear.symm.trans hcleared
    · cases hclear.symm.trans hcleared

end Clusters

end BacktestEngine

import Mathlib.Algebra.Order.Group.Int
import BacktestEngine.Library.Lease
import BacktestEngine.Library.Transition
import BacktestEngine.Live.ClusterTable
import BacktestEngine.Models.Trade

/-! # Concurrent cluster checks

Any number of checks take the lock of every cluster of their symbol, one command at a
time, then read the sets; accepted opens overwrite the locks meanwhile. A check that
lets its entry through holds every lock it took for itself for the whole lifetime the
check gave it.
-/

namespace BacktestEngine

namespace Clusters

open Lease (Reply)

/-- The lifetimes a check and an accepted open give to a lock. -/
structure LockTtls where
  lockTtl : ℤ := 10 * second
  openedTtl : ℤ := 120 * second

/-- Where one call stands: a check with the locks it has taken and when, or the marking after an
accepted open. -/
inductive CheckStage
  | idle
  | locking (symbol strategyName : String) (taken : List (String × ℤ)) (toLock : List String)
  | reading (symbol strategyName : String) (taken : List (String × ℤ)) (toRead : List String)
  | returned (symbol : String) (taken : List (String × ℤ)) (blocked : Bool)
  | marking (symbol : String) (toMark : List String)
  | marked
  deriving DecidableEq

/-- The cluster keys, the calls in progress and the writes each lock has seen. -/
structure CheckState (ι : Type) where
  now : ℤ
  locks : Expiring.Store String String ℤ
  sets : String → List String
  calls : ι → CheckStage
  log : String → List (Lease.Write ι ℤ)

/-- One command of a call, or what happens around the calls. -/
inductive CheckAction (ι : Type)
  | advance (elapsed : ℕ)
  | sync (cluster : String) (members : List String)
  | isClusterBlocked (i : ι) (symbol strategyName : String)
  | setIfNotExists (i : ι) (reply : Reply)
  | setMembers (i : ι) (reply : Reply)
  | markOpened (i : ι) (symbol : String)
  | setString (i : ι) (reply : Reply)

namespace CheckState

variable {ι : Type} [DecidableEq ι] (ttls : LockTtls) (s : CheckState ι)

def goTo (i : ι) (stage : CheckStage) : CheckState ι :=
  { s with calls := Function.update s.calls i stage }

/-- With every lock taken the sets are read; before that the next lock is tried. -/
def afterTaking (symbol strategyName : String) (taken : List (String × ℤ)) :
    List String → CheckStage
  | [] => .reading symbol strategyName taken (groupsFor symbol)
  | toLock => .locking symbol strategyName taken toLock

/-- With every set passed the entry is let through; before that the next set is read. -/
def afterReading (symbol strategyName : String) (taken : List (String × ℤ)) :
    List String → CheckStage
  | [] => .returned symbol taken false
  | toRead => .reading symbol strategyName taken toRead

def afterMarking (symbol : String) : List String → CheckStage
  | [] => .marked
  | toMark => .marking symbol toMark

def step (s : CheckState ι) : CheckAction ι → Option (CheckState ι)
  | .advance elapsed => some { s with now := s.now + elapsed }
  | .sync cluster members => some { s with sets := Function.update s.sets cluster members }
  | .isClusterBlocked i symbol strategyName =>
    match s.calls i with
    | .idle =>
      if groupsFor symbol = [] then some (s.goTo i (.returned symbol [] true))
      else some (s.goTo i (.locking symbol strategyName [] (groupsFor symbol)))
    | _ => none
  | .setIfNotExists i reply =>
    match s.calls i with
    | .locking symbol strategyName taken (cluster :: toLock) =>
      if reply.runs && !decide (s.locks.Held s.now cluster) then
        let locks := s.locks.set cluster symbol (s.now + ttls.lockTtl)
        if reply = .answered then
          let log := Lease.record s.log cluster (.acquired i s.now ttls.lockTtl)
          some ({ s with locks := locks, log := log }.goTo i
            (afterTaking symbol strategyName (taken ++ [(cluster, s.now)]) toLock))
        else
          let log := Lease.record s.log cluster (.stored i s.now ttls.lockTtl)
          some ({ s with locks := locks, log := log }.goTo i (.returned symbol taken true))
      else some (s.goTo i (.returned symbol taken true))
    | _ => none
  | .setMembers i reply =>
    match s.calls i with
    | .reading symbol strategyName taken (cluster :: toRead) =>
      if reply = .answered ∧ evaluateClusterGroup (s.sets cluster) symbol strategyName
          (clusterLimit cluster) (isStrictCluster cluster) = .allowed then
        some (s.goTo i (afterReading symbol strategyName taken toRead))
      else some (s.goTo i (.returned symbol taken true))
    | _ => none
  | .markOpened i symbol =>
    match s.calls i with
    | .idle => some (s.goTo i (afterMarking symbol (groupsFor symbol)))
    | _ => none
  | .setString i reply =>
    match s.calls i with
    | .marking symbol (cluster :: toMark) =>
      let stage := afterMarking symbol toMark
      if reply.runs then
        let locks := s.locks.set cluster symbol (s.now + ttls.openedTtl)
        let log := Lease.record s.log cluster (.stored i s.now ttls.openedTtl)
        some ({ s with locks := locks, log := log }.goTo i stage)
      else some (s.goTo i stage)
    | _ => none

/-- Calls that have not started, over keys that may be left from before. -/
def fresh (now : ℤ) (locks : Expiring.Store String String ℤ) (sets : String → List String) :
    CheckState ι where
  now := now
  locks := locks
  sets := sets
  calls _ := .idle
  log _ := []

/-- A command of a check that Redis does not answer. -/
def Fails (i : ι) : CheckAction ι → Prop
  | .setIfNotExists j reply | .setMembers j reply => j = i ∧ reply ≠ .answered
  | _ => False

variable {ttls s}

@[simp] theorem goTo_calls_self (i : ι) (stage : CheckStage) : (s.goTo i stage).calls i = stage :=
  Function.update_self ..

theorem goTo_calls_ne {i j : ι} (hj : j ≠ i) (stage : CheckStage) :
    (s.goTo i stage).calls j = s.calls j := Function.update_of_ne hj ..

/-! ## What the calls know -/

/-- The locks a call has taken are in their logs, and they are the clusters it has gone through. -/
def Holds (log : String → List (Lease.Write ι ℤ)) (ttl : ℤ) (i : ι) : CheckStage → Prop
  | .locking symbol _ taken toLock =>
    (∀ entry ∈ taken, .acquired i entry.2 ttl ∈ log entry.1) ∧
      taken.map Prod.fst ++ toLock = groupsFor symbol
  | .reading symbol _ taken _ | .returned symbol taken false =>
    (∀ entry ∈ taken, .acquired i entry.2 ttl ∈ log entry.1) ∧
      taken.map Prod.fst = groupsFor symbol
  | _ => True

/-- The logs describe the locks, no lock is written for less than a check asks for, and every call
holds what it has taken. -/
structure Invariant (ttls : LockTtls) (s : CheckState ι) : Prop where
  tracks : Lease.Tracks s.locks s.log s.now
  long : ∀ cluster, ∀ w ∈ s.log cluster, ∃ ttl, w.ttl = some ttl ∧ ttls.lockTtl ≤ ttl
  holds : ∀ i, Holds s.log ttls.lockTtl i (s.calls i)

omit [DecidableEq ι] in
theorem Holds.mono {log log' : String → List (Lease.Write ι ℤ)} {ttl : ℤ} {i : ι}
    {stage : CheckStage} (h : Holds log ttl i stage)
    (hsub : ∀ cluster, ∀ w ∈ log cluster, w ∈ log' cluster) : Holds log' ttl i stage := by
  cases stage with
  | locking symbol strategyName taken toLock =>
    exact ⟨fun entry hentry => hsub _ _ (h.1 entry hentry), h.2⟩
  | reading symbol strategyName taken toRead =>
    exact ⟨fun entry hentry => hsub _ _ (h.1 entry hentry), h.2⟩
  | returned symbol taken blocked =>
    cases blocked with
    | false => exact ⟨fun entry hentry => hsub _ _ (h.1 entry hentry), h.2⟩
    | true => trivial
  | _ => trivial

/-- A call moves on, and the logs and locks stay. -/
theorem Invariant.goTo (inv : Invariant ttls s) {i : ι} {stage : CheckStage}
    (h : Holds s.log ttls.lockTtl i stage) : Invariant ttls (s.goTo i stage) := by
  refine ⟨inv.tracks, inv.long, fun j => ?_⟩
  by_cases hj : j = i
  · subst hj
    rwa [goTo_calls_self]
  · rw [goTo_calls_ne hj]
    exact inv.holds j

omit [DecidableEq ι] in
/-- One write, logged, that is long enough. -/
theorem Invariant.write (inv : Invariant ttls s) {cluster symbol : String}
    {w : Lease.Write ι ℤ} {ttl : ℤ} (httl : w.ttl = some ttl) (hle : ttls.lockTtl ≤ ttl)
    (htracks : Lease.Tracks (s.locks.set cluster symbol (s.now + ttl))
      (Lease.record s.log cluster w) s.now) :
    Invariant ttls { s with
      locks := s.locks.set cluster symbol (s.now + ttl)
      log := Lease.record s.log cluster w } := by
  refine ⟨htracks, fun k v hv => ?_, fun j => ?_⟩
  · rcases Lease.of_mem_record hv with hv | ⟨-, rfl⟩
    · exact inv.long k v hv
    · exact ⟨ttl, httl, hle⟩
  · exact (inv.holds j).mono fun k v hv => Lease.mem_record_of_mem hv

omit [DecidableEq ι] in
theorem afterTaking_holds {log : String → List (Lease.Write ι ℤ)} {ttl : ℤ} {i : ι}
    {symbol strategyName : String} {taken : List (String × ℤ)} {toLock : List String}
    (h : Holds log ttl i (.locking symbol strategyName taken toLock)) :
    Holds log ttl i (afterTaking symbol strategyName taken toLock) := by
  cases toLock with
  | nil => exact ⟨h.1, by simpa using h.2⟩
  | cons cluster toLock => exact h

omit [DecidableEq ι] in
theorem afterReading_holds {log : String → List (Lease.Write ι ℤ)} {ttl : ℤ} {i : ι}
    {symbol strategyName : String} {taken : List (String × ℤ)} {toRead : List String}
    (h : Holds log ttl i (.reading symbol strategyName taken toRead)) (rest : List String) :
    Holds log ttl i (afterReading symbol strategyName taken rest) := by
  cases rest with
  | nil => exact h
  | cons cluster rest => exact h

omit [DecidableEq ι] in
theorem afterMarking_holds (log : String → List (Lease.Write ι ℤ)) (ttl : ℤ) (i : ι)
    (symbol : String) (toMark : List String) : Holds log ttl i (afterMarking symbol toMark) := by
  cases toMark <;> trivial

/-! ## One step -/

theorem Invariant.setIfNotExists (inv : Invariant ttls s)
    {i : ι} {reply : Reply} {s' : CheckState ι}
    (hstep : step ttls s (.setIfNotExists i reply) = some s') : Invariant ttls s' := by
  simp only [step] at hstep
  split at hstep
  · rename_i symbol strategyName taken cluster toLock hcall
    have hold := inv.holds i
    rw [hcall] at hold
    split at hstep
    · rename_i hfree
      have habsent : ¬ s.locks.Held s.now cluster := by
        simpa using (Bool.and_eq_true_iff.mp hfree).2
      split at hstep
      · cases hstep
        refine (inv.write rfl le_rfl (inv.tracks.acquire habsent symbol ttls.lockTtl)).goTo ?_
        refine afterTaking_holds ⟨fun entry hentry => ?_, ?_⟩
        · rcases List.mem_append.mp hentry with hentry | hentry
          · exact Lease.mem_record_of_mem (hold.1 entry hentry)
          · rw [List.mem_singleton.mp hentry]
            simp
        · rw [List.map_append, List.append_assoc]
          exact hold.2
      · cases hstep
        exact (inv.write rfl le_rfl (inv.tracks.put symbol ttls.lockTtl)).goTo trivial
    · cases hstep
      exact inv.goTo trivial
  · cases hstep

theorem step_invariant (hle : ttls.lockTtl ≤ ttls.openedTtl) (s : CheckState ι)
    (a : CheckAction ι) (s' : CheckState ι) (inv : Invariant ttls s)
    (hstep : step ttls s a = some s') : Invariant ttls s' := by
  cases a with
  | advance elapsed =>
    cases hstep
    exact ⟨inv.tracks.later (by simp), inv.long, inv.holds⟩
  | sync cluster members =>
    cases hstep
    exact ⟨inv.tracks, inv.long, inv.holds⟩
  | isClusterBlocked i symbol strategyName =>
    simp only [step] at hstep
    split at hstep
    · split at hstep
      · cases hstep
        exact inv.goTo trivial
      · cases hstep
        exact inv.goTo ⟨fun _ hentry => absurd hentry List.not_mem_nil, rfl⟩
    · cases hstep
  | setIfNotExists i reply => exact inv.setIfNotExists hstep
  | setMembers i reply =>
    simp only [step] at hstep
    split at hstep
    · rename_i symbol strategyName taken cluster toRead hcall
      have hold := inv.holds i
      rw [hcall] at hold
      split at hstep
      · cases hstep
        exact inv.goTo (afterReading_holds hold toRead)
      · cases hstep
        exact inv.goTo trivial
    · cases hstep
  | markOpened i symbol =>
    simp only [step] at hstep
    split at hstep
    · cases hstep
      exact inv.goTo (afterMarking_holds ..)
    · cases hstep
  | setString i reply =>
    simp only [step] at hstep
    split at hstep
    · rename_i symbol cluster toMark hcall
      split at hstep
      · cases hstep
        exact (inv.write rfl hle (inv.tracks.put symbol ttls.openedTtl)).goTo
          (afterMarking_holds ..)
      · cases hstep
        exact inv.goTo (afterMarking_holds ..)
    · cases hstep

omit [DecidableEq ι] in
theorem fresh_invariant (ttls : LockTtls) (now : ℤ) (locks : Expiring.Store String String ℤ)
    (sets : String → List String) : Invariant ttls (fresh now locks sets : CheckState ι) :=
  ⟨.fresh locks now, fun _ _ h => absurd h List.not_mem_nil, fun _ => trivial⟩

/-! ## Failing commands -/

/-- A call that has returned stays as it is. -/
theorem step_returned {i : ι} {symbol : String} {taken : List (String × ℤ)} {blocked : Bool}
    {a : CheckAction ι} {s' : CheckState ι} (hcall : s.calls i = .returned symbol taken blocked)
    (hstep : step ttls s a = some s') : s'.calls i = .returned symbol taken blocked := by
  have hgo : ∀ {t : CheckState ι} {j : ι} {stage : CheckStage}, t.calls = s.calls →
      (∀ symbol taken blocked, s.calls j ≠ .returned symbol taken blocked) →
      (t.goTo j stage).calls i = .returned symbol taken blocked := by
    intro t j stage ht hj
    have hne : i ≠ j := fun h => hj symbol taken blocked (h ▸ hcall)
    rw [goTo_calls_ne hne, ht, hcall]
  cases a with
  | advance elapsed =>
    cases hstep
    exact hcall
  | sync cluster members =>
    cases hstep
    exact hcall
  | isClusterBlocked j symbol strategyName =>
    simp only [step] at hstep
    split at hstep
    · rename_i hj
      split at hstep <;>
      · cases hstep
        exact hgo rfl (by simp [hj])
    · cases hstep
  | setIfNotExists j reply =>
    simp only [step] at hstep
    split at hstep
    · rename_i hj
      split at hstep
      · split at hstep <;>
        · cases hstep
          exact hgo rfl (by simp [hj])
      · cases hstep
        exact hgo rfl (by simp [hj])
    · cases hstep
  | setMembers j reply =>
    simp only [step] at hstep
    split at hstep
    · rename_i hj
      split at hstep <;>
      · cases hstep
        exact hgo rfl (by simp [hj])
    · cases hstep
  | markOpened j symbol =>
    simp only [step] at hstep
    split at hstep
    · rename_i hj
      cases hstep
      exact hgo rfl (by simp [hj])
    · cases hstep
  | setString j reply =>
    simp only [step] at hstep
    split at hstep
    · rename_i hj
      split at hstep <;>
      · cases hstep
        exact hgo rfl (by simp [hj])
    · cases hstep

/-- A check whose command fails returns that the entry is blocked. -/
theorem step_fails {i : ι} {a : CheckAction ι} {s' : CheckState ι} (hfails : Fails i a)
    (hstep : step ttls s a = some s') : ∃ symbol taken, s'.calls i = .returned symbol taken true := by
  cases a with
  | setIfNotExists j reply =>
    obtain ⟨rfl, hreply⟩ := hfails
    simp only [step] at hstep
    split at hstep
    · split at hstep <;>
      · cases hstep
        exact ⟨_, _, goTo_calls_self ..⟩
    · cases hstep
  | setMembers j reply =>
    obtain ⟨rfl, hreply⟩ := hfails
    simp only [step] at hstep
    split at hstep
    · rw [if_neg fun h => hreply h.1] at hstep
      cases hstep
      exact ⟨_, _, goTo_calls_self ..⟩
    · cases hstep
  | _ => exact hfails.elim

theorem run_returned {i : ι} {symbol : String} {taken : List (String × ℤ)} {blocked : Bool}
    {actions : List (CheckAction ι)} {s' : CheckState ι}
    (hcall : s.calls i = .returned symbol taken blocked)
    (hrun : Transition.exec (step ttls) s actions = some s') :
    s'.calls i = .returned symbol taken blocked :=
  Transition.exec_invariant (I := fun t => t.calls i = .returned symbol taken blocked)
    (fun _ _ _ h hstep => step_returned h hstep) hcall hrun

theorem run_fails {i : ι} : ∀ {actions : List (CheckAction ι)} {s s' : CheckState ι},
    (∃ a ∈ actions, Fails i a) → Transition.exec (step ttls) s actions = some s' →
      ∃ symbol taken, s'.calls i = .returned symbol taken true
  | [], _, _, ⟨_, ha, _⟩, _ => absurd ha List.not_mem_nil
  | a :: actions, s, s', ⟨b, hb, hfails⟩, hrun => by
    obtain ⟨t, hstep, hrest⟩ := Transition.exec_cons.mp hrun
    rcases List.mem_cons.mp hb with rfl | hb
    · obtain ⟨symbol, taken, hcall⟩ := step_fails hfails hstep
      exact ⟨symbol, taken, run_returned hcall hrest⟩
    · exact run_fails ⟨b, hb, hfails⟩ hrest

/-- Two checks that both let their entry through took each lock they share a lock's lifetime
apart, and a check that Redis fails lets nothing through. -/
theorem cluster_check_exclusive {ttls : LockTtls} (hle : ttls.lockTtl ≤ ttls.openedTtl) {now : ℤ}
    {locks : Expiring.Store String String ℤ} {sets : String → List String}
    {actions : List (CheckAction ι)} {s : CheckState ι}
    (hrun : Transition.exec (step ttls) (fresh now locks sets) actions = some s) :
    (∀ i j symbol symbol' taken taken', i ≠ j → s.calls i = .returned symbol taken false →
      s.calls j = .returned symbol' taken' false →
      ∀ cluster ∈ groupsFor symbol, cluster ∈ groupsFor symbol' →
        (∃ t, (cluster, t) ∈ taken) ∧ (∃ u, (cluster, u) ∈ taken') ∧
          ∀ t u, (cluster, t) ∈ taken → (cluster, u) ∈ taken' → ttls.lockTtl ≤ |t - u|) ∧
    ∀ i, (∃ a ∈ actions, Fails i a) → ∃ symbol taken, s.calls i = .returned symbol taken true := by
  refine ⟨fun i j symbol symbol' taken taken' hne hi hj cluster hc hc' => ?_,
    fun i hfails => run_fails hfails hrun⟩
  have inv : Invariant ttls s := Transition.exec_invariant (step_invariant hle)
    (fresh_invariant ttls now locks sets) hrun
  have holdi := inv.holds i
  have holdj := inv.holds j
  rw [hi] at holdi
  rw [hj] at holdj
  refine ⟨?_, ?_, fun t u ht hu => ?_⟩
  · rw [← holdi.2, List.mem_map] at hc
    obtain ⟨entry, hentry, rfl⟩ := hc
    exact ⟨entry.2, hentry⟩
  · rw [← holdj.2, List.mem_map] at hc'
    obtain ⟨entry, hentry, rfl⟩ := hc'
    exact ⟨entry.2, hentry⟩
  · exact (inv.tracks.legal cluster).apart (inv.long cluster) hne (holdi.1 _ ht) (holdj.1 _ hu)

/-- Two index checks, the second once the first one's lock has lapsed. -/
theorem cluster_check_exclusive_index :
    let check := fun (i : Bool) symbol => [CheckAction.isClusterBlocked i symbol "alpha",
      .setIfNotExists i .answered, .setMembers i .answered]
    let actions := check false "USA30IDXUSD" ++ [.advance 10000000] ++ check true "USA500IDXUSD"
    ∃ s : CheckState Bool,
      Transition.exec (step {}) (fresh 0 .empty fun _ => []) actions = some s ∧
      s.calls false = .returned "USA30IDXUSD" [("US_Index", 0)] false ∧
      s.calls true = .returned "USA500IDXUSD" [("US_Index", 10000000)] false ∧
      (10000000 : ℤ) ≤ |0 - 10000000| := by
  intro check actions
  have hrun : Transition.exec (step {}) (fresh 0 .empty fun _ => []) actions = some _ := rfl
  refine ⟨_, hrun, rfl, rfl, ?_⟩
  exact ((cluster_check_exclusive (by decide) hrun).1 false true "USA30IDXUSD" "USA500IDXUSD"
    [("US_Index", 0)] [("US_Index", 10000000)] (by decide) rfl rfl "US_Index" (by decide)
    (by decide)).2.2 0 10000000 (by decide) (by decide)

end CheckState

end Clusters

end BacktestEngine

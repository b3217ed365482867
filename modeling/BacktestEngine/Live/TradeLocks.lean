import Mathlib.Algebra.Order.Group.Int
import BacktestEngine.Library.Lease
import BacktestEngine.Library.Transition

/-! # Trade locks

One key for each strategy and direction, which an instance sets when it is absent, sets
again to keep it, and deletes. Each instance remembers until when the locks it set are
held, and answers from that memory while it can. A call is its clock read and the
command it sends, and a command may fail without the caller knowing whether it ran.
-/

namespace BacktestEngine

namespace Live

open Lease (Reply)

def lockKey (strategyUuid direction : String) : String :=
  "LOCK#" ++ strategyUuid ++ "#" ++ direction

/-- A call between its clock read and the answer to its command. -/
inductive LockCall
  | idle
  | checking (key : String) (start ttl : ℤ)
  | extending (key : String) (start ttl : ℤ)
  | releasing (key : String)
  deriving DecidableEq

/-- The key that the command in flight may set. -/
def LockCall.writes : LockCall → Option String
  | .checking key _ _ | .extending key _ _ => some key
  | .idle | .releasing _ => none

/-- The lock keys, the memory and the call of each instance, and the writes each key has seen. -/
structure LockState (ι : Type) where
  now : ℤ
  redis : Expiring.Store String String ℤ
  heldUntil : ι → String → Option ℤ
  calls : ι → LockCall
  log : String → List (Lease.Write ι ℤ)

inductive LockAction (ι : Type)
  | advance (elapsed : ℕ)
  | isThereATradeLock (i : ι) (strategyUuid direction : String) (ttl : ℤ)
  | setIfNotExists (i : ι) (reply : Reply)
  | extendLock (i : ι) (strategyUuid direction : String) (ttl : ℤ)
  | setString (i : ι) (reply : Reply)
  | releaseLock (i : ι) (strategyUuid direction : String)
  | deleteKey (i : ι) (reply : Reply)

/-- The instance that acts. -/
def LockAction.caller {ι : Type} : LockAction ι → Option ι
  | .advance _ => none
  | .isThereATradeLock i _ _ _ | .setIfNotExists i _ | .extendLock i _ _ _ | .setString i _
  | .releaseLock i _ _ | .deleteKey i _ => some i

/-- What a call of `isThereATradeLock` returns. -/
structure LockAnswer (ι : Type) where
  caller : ι
  key : String
  locked : Bool
  deriving DecidableEq

namespace LockState

variable {ι : Type} [DecidableEq ι] (owner : ι → String) (s : LockState ι)

def goTo (i : ι) (call : LockCall) : LockState ι :=
  { s with calls := Function.update s.calls i call }

/-- Remember, or forget, until when a lock is held. -/
def remember (i : ι) (key : String) (entry : Option ℤ) : LockState ι :=
  { s with
    heldUntil := Function.update s.heldUntil i (Function.update (s.heldUntil i) key entry) }

/-- The store sets the key for a time to live, and the write is logged. -/
def write (i : ι) (key : String) (ttl : ℤ) (w : Lease.Write ι ℤ) : LockState ι :=
  { s with
    redis := s.redis.set key (owner i) (s.now + ttl)
    log := Lease.record s.log key w }

/-- One step, with what it makes `isThereATradeLock` return. -/
def transition (s : LockState ι) : LockAction ι → Option (LockState ι × Option (LockAnswer ι))
  | .advance elapsed => some ({ s with now := s.now + elapsed }, none)
  | .isThereATradeLock i strategyUuid direction ttl =>
    let key := lockKey strategyUuid direction
    match s.calls i with
    | .idle =>
      match s.heldUntil i key with
      | some until_ =>
        if s.now < until_ then some (s, some ⟨i, key, true⟩)
        else some ((s.remember i key none).goTo i (.checking key s.now ttl), none)
      | none => some (s.goTo i (.checking key s.now ttl), none)
    | _ => none
  | .setIfNotExists i reply =>
    match s.calls i with
    | .checking key start ttl =>
      if reply.runs && !decide (s.redis.Held s.now key) then
        if reply = .answered then
          let s' := s.write owner i key ttl (.acquired i s.now ttl)
          some ((s'.remember i key (some (start + ttl))).goTo i .idle, some ⟨i, key, false⟩)
        else
          let s' := s.write owner i key ttl (.stored i s.now ttl)
          some (s'.goTo i .idle, some ⟨i, key, true⟩)
      else some (s.goTo i .idle, some ⟨i, key, true⟩)
    | _ => none
  | .extendLock i strategyUuid direction ttl =>
    match s.calls i with
    | .idle => some (s.goTo i (.extending (lockKey strategyUuid direction) s.now ttl), none)
    | _ => none
  | .setString i reply =>
    match s.calls i with
    | .extending key start ttl =>
      let s' := if reply.runs then s.write owner i key ttl (.stored i s.now ttl) else s
      if reply = .answered then some ((s'.remember i key (some (start + ttl))).goTo i .idle, none)
      else some (s'.goTo i .idle, none)
    | _ => none
  | .releaseLock i strategyUuid direction =>
    let key := lockKey strategyUuid direction
    match s.calls i with
    | .idle => some ((s.remember i key none).goTo i (.releasing key), none)
    | _ => none
  | .deleteKey i reply =>
    match s.calls i with
    | .releasing key =>
      if reply.runs then
        let s' := { s with
          redis := s.redis.delete key
          log := Lease.record s.log key (.deleted i s.now) }
        some (s'.goTo i .idle, none)
      else some (s.goTo i .idle, none)
    | _ => none

def step (s : LockState ι) (a : LockAction ι) : Option (LockState ι) :=
  (s.transition owner a).map Prod.fst

/-- The step makes a call on this key return that it is free. -/
def ReturnsFree (s : LockState ι) (i : ι) (key : String) (a : LockAction ι) : Prop :=
  ∃ s', s.transition owner a = some (s', some ⟨i, key, false⟩)

/-- The step deletes the key. -/
def Deletes (key : String) (s : LockState ι) : LockAction ι → Prop
  | .deleteKey i reply => s.calls i = .releasing key ∧ reply.runs
  | _ => False

/-- Instances that have just been made, over keys that may be left from before. -/
def fresh (now : ℤ) (redis : Expiring.Store String String ℤ) : LockState ι where
  now := now
  redis := redis
  heldUntil _ _ := none
  calls _ := .idle
  log _ := []

variable {owner s} {s' : LockState ι} {a : LockAction ι} {answer : Option (LockAnswer ι)}

@[simp] theorem goTo_calls_self (i : ι) (call : LockCall) : (s.goTo i call).calls i = call :=
  Function.update_self ..

/-- What a step can do to the store: nothing, acquire an absent key, store one, or delete one. -/
inductive Effect (s s' : LockState ι) (a : LockAction ι) : Option (LockAnswer ι) → Prop
  | quiet {r} (now : s.now ≤ s'.now) (redis : s'.redis = s.redis) (log : s'.log = s.log)
      (locked : ∀ caller key, r ≠ some ⟨caller, key, false⟩) : Effect s s' a r
  | acquire (i : ι) (key value : String) (ttl : ℤ) (absent : ¬ s.redis.Held s.now key)
      (now : s'.now = s.now) (redis : s'.redis = s.redis.set key value (s.now + ttl))
      (log : s'.log = Lease.record s.log key (.acquired i s.now ttl)) :
      Effect s s' a (some ⟨i, key, false⟩)
  | store {r} (i : ι) (key value : String) (ttl : ℤ) (now : s'.now = s.now)
      (redis : s'.redis = s.redis.set key value (s.now + ttl))
      (log : s'.log = Lease.record s.log key (.stored i s.now ttl))
      (locked : ∀ caller key, r ≠ some ⟨caller, key, false⟩) : Effect s s' a r
  | delete {r} (i : ι) (key : String) (deletes : Deletes key s a) (now : s'.now = s.now)
      (redis : s'.redis = s.redis.delete key)
      (log : s'.log = Lease.record s.log key (.deleted i s.now))
      (locked : ∀ caller key, r ≠ some ⟨caller, key, false⟩) : Effect s s' a r

theorem effect_of_transition (h : s.transition owner a = some (s', answer)) :
    Effect s s' a answer := by
  cases a with
  | advance elapsed =>
    cases h
    exact .quiet (by simp) rfl rfl (by simp)
  | isThereATradeLock i strategyUuid direction ttl =>
    simp only [transition] at h
    split at h
    · split at h
      · split at h <;>
        · cases h
          exact .quiet le_rfl rfl rfl (by simp)
      · cases h
        exact .quiet le_rfl rfl rfl (by simp)
    · cases h
  | setIfNotExists i reply =>
    simp only [transition] at h
    split at h
    · rename_i key start ttl hcall
      split at h
      · rename_i hfree
        split at h
        · cases h
          refine .acquire i key (owner i) ttl ?_ rfl rfl rfl
          simpa using (Bool.and_eq_true_iff.mp hfree).2
        · cases h
          exact .store i key (owner i) ttl rfl rfl rfl (by simp)
      · cases h
        exact .quiet le_rfl rfl rfl (by simp)
    · cases h
  | extendLock i strategyUuid direction ttl =>
    simp only [transition] at h
    split at h
    · cases h
      exact .quiet le_rfl rfl rfl (by simp)
    · cases h
  | setString i reply =>
    simp only [transition] at h
    split at h
    · rename_i key start ttl hcall
      split at h
      · rename_i hreply
        cases h
        rw [hreply]
        exact .store i key (owner i) ttl rfl rfl rfl (by simp)
      · cases h
        by_cases hruns : reply.runs
        · rw [if_pos hruns]
          exact .store i key (owner i) ttl rfl rfl rfl (by simp)
        · rw [if_neg hruns]
          exact .quiet le_rfl rfl rfl (by simp)
    · cases h
  | releaseLock i strategyUuid direction =>
    simp only [transition] at h
    split at h
    · cases h
      exact .quiet le_rfl rfl rfl (by simp)
    · cases h
  | deleteKey i reply =>
    simp only [transition] at h
    split at h
    · rename_i key hcall
      split at h
      · rename_i hruns
        cases h
        exact .delete i key ⟨hcall, hruns⟩ rfl rfl rfl (by simp)
      · cases h
        exact .quiet le_rfl rfl rfl (by simp)
    · cases h

/-- An instance that does not act keeps its memory and its call. -/
theorem frame_of_transition (h : s.transition owner a = some (s', answer)) {j : ι}
    (hj : a.caller ≠ some j) : s'.heldUntil j = s.heldUntil j ∧ s'.calls j = s.calls j := by
  cases a with
  | advance elapsed =>
    cases h
    exact ⟨rfl, rfl⟩
  | isThereATradeLock i strategyUuid direction ttl =>
    have hne : j ≠ i := fun h => hj (h ▸ rfl)
    simp only [transition] at h
    split at h
    · split at h
      · split at h <;>
        · cases h
          simp [remember, goTo, Function.update_of_ne hne]
      · cases h
        simp [goTo, Function.update_of_ne hne]
    · cases h
  | setIfNotExists i reply =>
    have hne : j ≠ i := fun h => hj (h ▸ rfl)
    simp only [transition] at h
    split at h
    · split at h
      · split at h <;>
        · cases h
          simp [remember, goTo, write, Function.update_of_ne hne]
      · cases h
        simp [goTo, Function.update_of_ne hne]
    · cases h
  | extendLock i strategyUuid direction ttl =>
    have hne : j ≠ i := fun h => hj (h ▸ rfl)
    simp only [transition] at h
    split at h
    · cases h
      simp [goTo, Function.update_of_ne hne]
    · cases h
  | setString i reply =>
    have hne : j ≠ i := fun h => hj (h ▸ rfl)
    simp only [transition] at h
    split at h
    · split at h <;>
      · cases h
        cases reply <;> simp [remember, goTo, write, Reply.runs, Function.update_of_ne hne]
    · cases h
  | releaseLock i strategyUuid direction =>
    have hne : j ≠ i := fun h => hj (h ▸ rfl)
    simp only [transition] at h
    split at h
    · cases h
      simp [remember, goTo, Function.update_of_ne hne]
    · cases h
  | deleteKey i reply =>
    have hne : j ≠ i := fun h => hj (h ▸ rfl)
    simp only [transition] at h
    split at h
    · split at h <;>
      · cases h
        simp [goTo, Function.update_of_ne hne]
    · cases h

/-- A step leaves a key as it is, deletes it, or is the set of it that an instance has in flight,
which is logged. -/
theorem redis_of_transition (h : s.transition owner a = some (s', answer)) (key : String) :
    s'.redis key = s.redis key ∨ s'.redis key = none ∨
      (∃ i, a.caller = some i ∧ (s.calls i).writes = some key) ∧
        ∃ w, s'.log key = s.log key ++ [w] ∧ w.ttl.isSome := by
  cases a with
  | advance elapsed =>
    cases h
    exact .inl rfl
  | isThereATradeLock i strategyUuid direction ttl =>
    left
    simp only [transition] at h
    split at h
    · split at h
      · split at h <;>
        · cases h
          rfl
      · cases h
        rfl
    · cases h
  | setIfNotExists i reply =>
    simp only [transition] at h
    split at h
    · rename_i k start ttl hcall
      by_cases hk : key = k
      · subst hk
        split at h
        · right; right
          split at h <;>
          · cases h
            exact ⟨⟨i, rfl, by rw [hcall]; rfl⟩, _, Lease.record_self _, rfl⟩
        · cases h
          exact .inl rfl
      · left
        split at h
        · split at h <;>
          · cases h
            exact Function.update_of_ne hk ..
        · cases h
          rfl
    · cases h
  | extendLock i strategyUuid direction ttl =>
    left
    simp only [transition] at h
    split at h
    · cases h
      rfl
    · cases h
  | setString i reply =>
    simp only [transition] at h
    split at h
    · rename_i k start ttl hcall
      by_cases hk : key = k
      · subst hk
        cases reply with
        | answered | lost =>
          cases h
          exact .inr (.inr ⟨⟨i, rfl, by rw [hcall]; rfl⟩, _, Lease.record_self _, rfl⟩)
        | unreached =>
          cases h
          exact .inl rfl
      · left
        cases reply with
        | answered | lost =>
          cases h
          exact Function.update_of_ne hk ..
        | unreached =>
          cases h
          rfl
    · cases h
  | releaseLock i strategyUuid direction =>
    left
    simp only [transition] at h
    split at h
    · cases h
      rfl
    · cases h
  | deleteKey i reply =>
    simp only [transition] at h
    split at h
    · rename_i k hcall
      split at h
      · cases h
        by_cases hk : key = k
        · subst hk
          exact .inr (.inl (Function.update_self ..))
        · exact .inl (Function.update_of_ne hk ..)
      · cases h
        exact .inl rfl
    · cases h

omit [DecidableEq ι] in
theorem Effect.tracks (h : Effect s s' a answer) (ht : Lease.Tracks s.redis s.log s.now) :
    Lease.Tracks s'.redis s'.log s'.now := by
  cases h with
  | quiet now redis log locked =>
    rw [redis, log]
    exact ht.later now
  | acquire i key value ttl absent now redis log =>
    rw [redis, log, now]
    exact ht.acquire absent value ttl
  | store i key value ttl now redis log locked =>
    rw [redis, log, now]
    exact ht.put value ttl
  | delete i key deletes now redis log locked =>
    rw [redis, log, now]
    exact ht.drop

theorem transition_of_step (h : s.step owner a = some s') :
    ∃ answer, s.transition owner a = some (s', answer) := by
  obtain ⟨⟨t, answer⟩, ht, rfl⟩ := Option.map_eq_some_iff.mp h
  exact ⟨answer, ht⟩

theorem run_tracks {actions : List (LockAction ι)}
    (ht : Lease.Tracks s.redis s.log s.now)
    (hrun : Transition.exec (step owner) s actions = some s') :
    Lease.Tracks s'.redis s'.log s'.now := by
  refine Transition.exec_invariant (I := fun t => Lease.Tracks t.redis t.log t.now) ?_ ht hrun
  intro t a t' ht hstep
  obtain ⟨answer, htrans⟩ := transition_of_step hstep
  exact (effect_of_transition htrans).tracks ht

omit [DecidableEq ι] in
/-- A step that does not delete the key adds to its log no deletion. -/
theorem Effect.log_kept {key : String} (h : Effect s s' a answer) (hkept : ¬ Deletes key s a) :
    ∃ more, s'.log key = s.log key ++ more ∧ ∀ who time, .deleted who time ∉ more := by
  have hrecord : ∀ (k : String) (w : Lease.Write ι ℤ),
      (k = key → ∀ who time, w ≠ .deleted who time) →
      ∃ more, Lease.record s.log k w key = s.log key ++ more ∧
        ∀ who time, .deleted who time ∉ more := by
    intro k w hw
    by_cases hk : k = key
    · subst hk
      refine ⟨[w], Lease.record_self k, fun who time hmem => ?_⟩
      exact hw rfl who time (List.mem_singleton.mp hmem).symm
    · refine ⟨[], ?_, fun _ _ => List.not_mem_nil⟩
      rw [Lease.record, Function.update_of_ne (Ne.symm hk), List.append_nil]
  cases h with
  | quiet now redis log locked => exact ⟨[], by rw [log, List.append_nil], fun _ _ => List.not_mem_nil⟩
  | acquire i k value ttl absent now redis log =>
    rw [log]
    exact hrecord k _ fun _ _ _ h => by cases h
  | store i k value ttl now redis log locked =>
    rw [log]
    exact hrecord k _ fun _ _ _ h => by cases h
  | delete i k deletes now redis log locked =>
    rw [log]
    exact hrecord k _ fun hk => absurd (hk ▸ deletes) hkept

theorem run_log_kept {key : String} {actions : List (LockAction ι)}
    (hkept : Transition.Along (step owner) (fun t a => ¬ Deletes key t a) s actions)
    (hrun : Transition.exec (step owner) s actions = some s') :
    ∃ more, s'.log key = s.log key ++ more ∧ ∀ who time, .deleted who time ∉ more := by
  refine Transition.exec_invariant_along (I := fun t => ∃ more, t.log key = s.log key ++ more ∧
    ∀ who time, .deleted who time ∉ more) ?_ ⟨[], by simp, fun _ _ => List.not_mem_nil⟩ hkept hrun
  rintro t a t' ⟨more, hlog, hmore⟩ hnot hstep
  obtain ⟨answer, htrans⟩ := transition_of_step hstep
  obtain ⟨next, hlog', hnext⟩ := (effect_of_transition htrans).log_kept hnot
  refine ⟨more ++ next, by rw [hlog', hlog, List.append_assoc], fun who time hmem => ?_⟩
  rcases List.mem_append.mp hmem with hmem | hmem
  · exact hmore who time hmem
  · exact hnext who time hmem

/-- A call that returns free found the key absent and has acquired it. -/
theorem ReturnsFree.acquired {i : ι} {key : String} (h : ReturnsFree owner s i key a)
    (hstep : s.step owner a = some s') :
    ¬ s.redis.Held s.now key ∧ ∃ ttl, s'.log key = s.log key ++ [.acquired i s.now ttl] := by
  obtain ⟨t, ht⟩ := h
  have heq : t = s' := by simpa [step, ht] using hstep
  subst heq
  generalize hr : some (⟨i, key, false⟩ : LockAnswer ι) = r at ht
  cases effect_of_transition ht with
  | acquire j k value ttl absent now redis log =>
    cases hr
    exact ⟨absent, ttl, by rw [log, Lease.record_self]⟩
  | quiet now redis log locked => exact absurd hr.symm (locked i key)
  | store j k value ttl now redis log locked => exact absurd hr.symm (locked i key)
  | delete j k deletes now redis log locked => exact absurd hr.symm (locked i key)

/-- A lock that is remembered as held is answered from memory. -/
theorem transition_cached {i : ι} {strategyUuid direction : String} {ttl until_ : ℤ}
    (huntil : s.heldUntil i (lockKey strategyUuid direction) = some until_)
    (hidle : s.calls i = .idle) (hlt : s.now < until_) :
    s.transition owner (.isThereATradeLock i strategyUuid direction ttl) =
      some (s, some ⟨i, lockKey strategyUuid direction, true⟩) := by
  simp only [transition, hidle, huntil, if_pos hlt]

/-- A memory that has run out is as none. -/
theorem transition_stale {i : ι} {strategyUuid direction : String} {ttl until_ : ℤ}
    (huntil : s.heldUntil i (lockKey strategyUuid direction) = some until_)
    (hidle : s.calls i = .idle) (hle : until_ ≤ s.now) :
    s.transition owner (.isThereATradeLock i strategyUuid direction ttl) =
      (s.remember i (lockKey strategyUuid direction) none).transition owner
        (.isThereATradeLock i strategyUuid direction ttl) := by
  simp only [transition, remember, goTo, hidle, huntil, if_neg (not_lt.mpr hle),
    Function.update_self]

/-- What the start of a check does: it answers from memory, or drops what it remembers and asks the
store. -/
theorem isThereATradeLock_cases {i : ι} {strategyUuid direction : String} {ttl : ℤ}
    (hidle : s.calls i = .idle)
    (h : s.transition owner (.isThereATradeLock i strategyUuid direction ttl) = some (s', answer)) :
    let key := lockKey strategyUuid direction
    (s' = s ∧ answer = some ⟨i, key, true⟩ ∧ ∃ until_, s.heldUntil i key = some until_ ∧
      s.now < until_) ∨
    (s' = (s.remember i key none).goTo i (.checking key s.now ttl) ∧ answer = none ∧
      ∀ until_, s.heldUntil i key = some until_ → until_ ≤ s.now) := by
  intro key
  simp only [transition, hidle] at h
  split at h
  · rename_i until_ huntil
    split at h
    · rename_i hlt
      cases h
      exact .inl ⟨rfl, rfl, until_, huntil, hlt⟩
    · rename_i hle
      cases h
      refine .inr ⟨rfl, rfl, fun t ht => ?_⟩
      cases huntil.symm.trans ht
      exact not_lt.mp hle
  · rename_i hnone
    cases h
    refine .inr ⟨?_, rfl, fun t ht => by cases hnone.symm.trans ht⟩
    have hself : Function.update (s.heldUntil i) key none = s.heldUntil i :=
      Function.update_eq_self_iff.mpr hnone.symm
    rw [remember, hself, Function.update_eq_self]

/-- What the end of a check does: it returns free when it has set the absent key and knows it, and
locked otherwise. -/
theorem setIfNotExists_cases {i : ι} {reply : Reply} {key : String} {start ttl : ℤ}
    (hcall : s.calls i = .checking key start ttl)
    (h : s.transition owner (.setIfNotExists i reply) = some (s', answer)) :
    s'.calls i = .idle ∧ (∀ k ≠ key, s'.redis k = s.redis k) ∧
    (∀ k ≠ key, s'.heldUntil i k = s.heldUntil i k) ∧
    if reply = .answered ∧ ¬ s.redis.Held s.now key then
      answer = some ⟨i, key, false⟩ ∧ s'.heldUntil i key = some (start + ttl)
    else answer = some ⟨i, key, true⟩ := by
  simp only [transition, hcall] at h
  by_cases hheld : s.redis.Held s.now key
  · rw [if_neg (fun h => h.2 hheld)]
    rw [decide_eq_true hheld, Bool.not_true, Bool.and_false, if_neg Bool.false_ne_true] at h
    cases h
    simp [goTo]
  · rw [decide_eq_false hheld, Bool.not_false, Bool.and_true] at h
    cases reply with
    | answered =>
      cases h
      rw [if_pos ⟨rfl, hheld⟩]
      refine ⟨Function.update_self .., fun k hk => Function.update_of_ne hk .., fun k hk => ?_,
        rfl, ?_⟩
      · simp [goTo, remember, write, Function.update_of_ne hk]
      · simp [goTo, remember]
    | lost =>
      cases h
      rw [if_neg (fun h => by cases h.1)]
      exact ⟨Function.update_self .., fun k hk => Function.update_of_ne hk .., fun k hk => rfl, rfl⟩
    | unreached =>
      cases h
      rw [if_neg (fun h => by cases h.1)]
      exact ⟨Function.update_self .., fun k hk => rfl, fun k hk => rfl, rfl⟩

theorem setString_idle {i : ι} {reply : Reply} {key : String} {start ttl : ℤ}
    (hcall : s.calls i = .extending key start ttl)
    (h : s.transition owner (.setString i reply) = some (s', answer)) : s'.calls i = .idle := by
  simp only [transition, hcall] at h
  split at h <;>
  · cases h
    exact Function.update_self ..

/-! ## Exclusion -/

/-- A call returns free only when the key is absent in the store; two that do, with no deletion
between them, are the time to live last stored apart; and what an instance remembers makes a call
answer locked or changes nothing. -/
theorem trade_lock_exclusion (owner : ι → String) (now : ℤ)
    (redis : Expiring.Store String String ℤ) (strategyUuid direction : String) :
    let key := lockKey strategyUuid direction
    (∀ s i a, ReturnsFree owner s i key a → ¬ s.redis.Held s.now key) ∧
    (∀ before between s₁ s₂ s₃ i j a b,
      Transition.exec (step owner) (fresh now redis) before = some s₁ →
      ReturnsFree owner s₁ i key a → s₁.step owner a = some s₂ →
      Transition.Along (step owner) (fun t c => ¬ Deletes key t c) s₂ between →
      Transition.exec (step owner) s₂ between = some s₃ → ReturnsFree owner s₃ j key b →
      ∃ ttl, Lease.lastTtl (s₃.log key) = some ttl ∧ s₁.now + ttl ≤ s₃.now) ∧
    ∀ (s : LockState ι) i ttl until_, s.heldUntil i key = some until_ → s.calls i = .idle →
      (s.now < until_ → s.transition owner (.isThereATradeLock i strategyUuid direction ttl) =
        some (s, some ⟨i, key, true⟩)) ∧
      (until_ ≤ s.now → s.transition owner (.isThereATradeLock i strategyUuid direction ttl) =
        (s.remember i key none).transition owner
          (.isThereATradeLock i strategyUuid direction ttl)) := by
  intro key
  refine ⟨fun s i a h => ?_, ?_, ?_⟩
  · obtain ⟨s', hs'⟩ := h
    have hstep : s.step owner a = some s' := by rw [step, hs', Option.map_some]
    exact (ReturnsFree.acquired ⟨s', hs'⟩ hstep).1
  · intro before between s₁ s₂ s₃ i j a b hbefore hfirst hstep hkept hbetween hsecond
    have ht₁ := run_tracks (Lease.Tracks.fresh redis now) hbefore
    obtain ⟨answer, htrans⟩ := transition_of_step hstep
    have ht₃ := run_tracks ((effect_of_transition htrans).tracks ht₁) hbetween
    obtain ⟨-, τ, hlog₂⟩ := hfirst.acquired hstep
    obtain ⟨more, hlog₃, hmore⟩ := run_log_kept hkept hbetween
    have habsent : ¬ s₃.redis.Held s₃.now key := by
      obtain ⟨s', hs'⟩ := hsecond
      exact (ReturnsFree.acquired ⟨s', hs'⟩ (by rw [step, hs', Option.map_some])).1
    have hsplit : s₃.log key = s₁.log key ++ .acquired i s₁.now τ :: more := by
      rw [hlog₃, hlog₂, List.append_assoc, List.singleton_append]
    exact (ht₃.legal key).outlived hsplit hmore (ht₃.free habsent)
  · intro s i ttl until_ huntil hidle
    exact ⟨transition_cached huntil hidle, transition_stale huntil hidle⟩

/-- An extension to five seconds cuts a lock of thirty short, and another instance takes it when
those have run out. -/
theorem trade_lock_exclusion_shortened :
    let key := lockKey "alpha" "LONG"
    let before : List (LockAction Bool) :=
      [.isThereATradeLock false "alpha" "LONG" 30000000]
    let between : List (LockAction Bool) := [.advance 20000000,
      .extendLock false "alpha" "LONG" 5000000, .setString false .answered, .advance 5000000,
      .isThereATradeLock true "alpha" "LONG" 30000000]
    ∃ s₁ s₂ s₃, Transition.exec (step fun _ => "live") (fresh 0 .empty) before = some s₁ ∧
      s₁.step (fun _ => "live") (.setIfNotExists false .answered) = some s₂ ∧
      Transition.exec (step fun _ => "live") s₂ between = some s₃ ∧
      ∃ ttl, Lease.lastTtl (s₃.log key) = some ttl ∧ s₁.now + ttl ≤ s₃.now := by
  intro key before between
  refine ⟨_, _, _, rfl, rfl, rfl, ?_⟩
  refine (trade_lock_exclusion (fun _ => "live") 0 .empty "alpha" "LONG").2.1 before between _ _ _
    false true (.setIfNotExists false .answered) (.setIfNotExists true .answered) rfl ⟨_, rfl⟩ rfl ?_ rfl
    ⟨_, rfl⟩
  simp [between, Transition.Along, Deletes]

end LockState

end Live

end BacktestEngine

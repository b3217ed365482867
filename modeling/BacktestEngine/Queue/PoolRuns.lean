import BacktestEngine.Queue.ThreadPool

/-! # Runs of the thread pool

No wake-up is lost, so a pool comes to rest whatever its threads do first: calls return, tasks run,
and a destructor that has begun joins every worker.
-/

namespace BacktestEngine

namespace ThreadPool

open Transition RangeBar

variable {n : ℕ} {κ τ ε : Type}

/-- Where the threads can be, told by how far destruction is. -/
structure Places (s : State n κ τ ε) : Prop where
  ended : ∀ w, (s.workers w).hasEnded = true → s.stopped w = true ∧ s.tasks = []
  stopped : ∀ w, s.stopped w = true →
    s.life ≠ .alive ∧ workAvailable.asleep (s.workers w) = false
  calls : s.life ≠ .alive → ∀ k, (s.callers k).submits = false
  destroyed : s.life = .destroyed → ∀ w, (s.workers w).hasEnded = true

section Places

variable {s s' : State n κ τ ε} {w : Fin n} {worker : Worker τ ε}

/-- A worker that has not ended goes on. -/
theorem Places.update (h : Places s) (hw : (s.workers w).hasEnded = false)
    (hended : worker.hasEnded = true → s.stopped w = true ∧ s.tasks = [])
    (hasleep : s.stopped w = true → workAvailable.asleep worker = false)
    (hworkers : s'.workers = Function.update s.workers w worker)
    (hstopped : s'.stopped = s.stopped) (hlife : s'.life = s.life)
    (htasks : s.tasks = [] → s'.tasks = [])
    (hcalls : ∀ k, (s'.callers k).submits = (s.callers k).submits) : Places s' := by
  constructor
  · rw [hworkers, hstopped]
    intro v hv
    rcases eq_or_ne v w with rfl | hne
    · rw [Function.update_self] at hv
      exact (hended hv).imp_right htasks
    · rw [Function.update_of_ne hne] at hv
      exact (h.ended v hv).imp_right htasks
  · rw [hworkers, hstopped, hlife]
    intro v hv
    refine ⟨(h.stopped v hv).1, ?_⟩
    rcases eq_or_ne v w with rfl | hne
    · rw [Function.update_self]
      exact hasleep hv
    · rw [Function.update_of_ne hne]
      exact (h.stopped v hv).2
  · rw [hlife]
    exact fun hdying k => (hcalls k).trans (h.calls hdying k)
  · rw [hlife]
    intro hdead
    cases hw.symm.trans (h.destroyed hdead w)

theorem Places.setCaller [DecidableEq κ] (h : Places s) (k : κ) {caller : Caller τ}
    (hcaller : s.life ≠ .alive → caller.submits = false) : Places (s.setCaller k caller) where
  ended := h.ended
  stopped := h.stopped
  calls hdying := (Function.forall_update_iff _ fun _ (c : Caller τ) => c.submits = false).mpr
    ⟨hcaller hdying, fun j _ => h.calls hdying j⟩
  destroyed := h.destroyed

/-- Who is in a call of `submit` is so before destruction. -/
theorem Places.alive (h : Places s) {k : κ} (hk : (s.callers k).submits = true) :
    s.life = .alive := by
  by_contra hdying
  cases hk.symm.trans (h.calls hdying k)

theorem Places.push (h : Places s) (halive : s.life = .alive) (task : τ)
    {woken : Option (Fin n)} (hwoken : workAvailable.MayWake s.workers woken) :
    Places (s.push task woken) where
  ended v hv := by
    have hended : ((s.push task woken).workers v).hasEnded = (s.workers v).hasEnded :=
      ConditionVariable.apply_notifyOne (fun _ hb => eq_asleep hb ▸ rfl) hwoken v
    rw [hended] at hv
    exact absurd halive (h.stopped v (h.ended v hv).1).1
  stopped v hv := absurd halive (h.stopped v hv).1
  calls hdying := absurd halive hdying
  destroyed hdead := by cases halive.symm.trans hdead

theorem Places.requestStop (h : Places s) (hlife : s.life = .destroying) (w : Fin n) :
    Places (s.requestStop w) := by
  have hended (v : Fin n) :
      ((s.requestStop w).workers v).hasEnded = (s.workers v).hasEnded := by
    unfold State.requestStop
    dsimp only
    split_ifs
    · exact ConditionVariable.apply_notifyAll (fun _ hb => eq_asleep hb ▸ rfl) v
    · rfl
  constructor
  · intro v hv
    rw [hended] at hv
    refine ⟨?_, (h.ended v hv).2⟩
    rcases eq_or_ne v w with rfl | hne
    · exact Function.update_self ..
    · exact (Function.update_of_ne hne ..).trans (h.ended v hv).1
  · intro v hv
    refine ⟨fun halive => (by cases hlife.symm.trans halive), ?_⟩
    unfold State.requestStop
    dsimp only
    split_ifs with hasleep
    · exact ConditionVariable.asleep_notifyAll
    · rcases eq_or_ne v w with rfl | hne
      · exact Bool.eq_false_iff.mpr hasleep
      · exact (h.stopped v ((Function.update_of_ne hne ..).symm.trans hv)).2
  · exact h.calls
  · exact fun hdead v => (hended v).trans (h.destroyed hdead v)

theorem submits_wake (b : Caller τ) (h : slotFree.asleep b = true) :
    (slotFree.wake b).submits = b.submits := by
  obtain ⟨task, rfl⟩ := eq_blocked h
  rfl

theorem submits_rouse (b : Caller τ) (h : idle.asleep b = true) :
    (idle.wake b).submits = b.submits :=
  eq_idling h ▸ rfl

theorem Places.steps [DecidableEq κ] {a : Action n κ τ ε} (h : Places s) (hstep : Steps s a s') :
    Places s' := by
  cases hstep with
  | submit k task _ hlife => exact h.setCaller k fun hdying => absurd hlife hdying
  | push k task woken hk _ hwoken =>
    have halive : s.life = .alive := h.alive (k := k) (hk ▸ rfl)
    exact (h.push halive task hwoken).setCaller k fun _ => rfl
  | block k task woken hk =>
    have halive : s.life = .alive := h.alive (k := k) (hk ▸ rfl)
    exact h.setCaller k fun hdying => absurd halive hdying
  | wait k => exact h.setCaller k fun _ => rfl
  | waited k => exact h.setCaller k fun _ => rfl
  | idle k => exact h.setCaller k fun _ => rfl
  | takeError => exact ⟨h.ended, h.stopped, h.calls, h.destroyed⟩
  | take w task rest hw htasks =>
    refine h.update (hw ▸ rfl) (fun hended => by cases hended) (fun _ => rfl) rfl rfl rfl
      (fun hnil => ?_) fun _ => rfl
    cases htasks.symm.trans hnil
  | sleep w hw htasks hstop =>
    refine h.update (hw ▸ rfl) (fun hended => by cases hended) (fun hstopped => ?_) rfl rfl rfl id
      fun _ => rfl
    cases hstop.symm.trans hstopped
  | exit w hw htasks hstop =>
    exact h.update (hw ▸ rfl) (fun _ => ⟨hstop, htasks⟩) (fun _ => rfl) rfl rfl rfl id fun _ => rfl
  | execute w task thrown hw =>
    exact h.update (hw ▸ rfl) (fun hended => by cases hended) (fun _ => rfl) rfl rfl rfl id
      fun _ => rfl
  | finish w thrown hw =>
    refine h.update (hw ▸ rfl) (fun hended => by cases hended) (fun _ => rfl) rfl rfl rfl id
      fun k => ?_
    dsimp only [State.finish, State.publishInFlight]
    split_ifs
    · exact ConditionVariable.apply_notifyAll submits_rouse k
    · rfl
  | release w woken hw hwoken =>
    exact h.update (hw ▸ rfl) (fun hended => by cases hended) (fun _ => rfl) rfl rfl rfl id
      fun k => ConditionVariable.apply_notifyOne submits_wake hwoken k
  | wakeWorker w hw =>
    exact h.update (hw ▸ rfl) (fun hended => by cases hended) (fun _ => rfl) rfl rfl rfl id
      fun _ => rfl
  | unblock k task hk =>
    have halive : s.life = .alive := h.alive (k := k) (hk ▸ rfl)
    exact h.setCaller k fun hdying => absurd halive hdying
  | rouse k => exact h.setCaller k fun _ => rfl
  | destroy hlife hcallers =>
    refine ⟨h.ended, fun v hv => ?_, fun _ => hcallers, fun hdead => by cases hdead⟩
    exact absurd hlife (h.stopped v hv).1
  | requestStop w hlife => exact h.requestStop hlife w
  | joined hlife hended =>
    refine ⟨h.ended, fun v hv => ⟨fun halive => (by cases halive), (h.stopped v hv).2⟩, fun _ => ?_,
      fun _ => hended⟩
    exact h.calls fun halive => by cases hlife.symm.trans halive

end Places

/-! ## Wake-ups -/

/-- Whether a worker is about to look for a task. -/
def Worker.looks : Worker τ ε → ℕ
  | .awake => 1
  | _ => 0

/-- Whether a worker has still to tell that it has freed a slot. -/
def Worker.notifies : Worker τ ε → ℕ
  | .notifying => 1
  | _ => 0

/-- Whether a call of `submit` is about to look for a slot. -/
def Caller.asks : Caller τ → ℕ
  | .submitting _ => 1
  | _ => 0

/-- No wake-up is lost: for tasks, for slots, and for those that wait until nothing is in flight. -/
structure Awake [Fintype κ] (s : State n κ τ ε) : Prop where
  work : workAvailable.Covered Worker.looks s.workers s.tasks.length 0
  slots : slotFree.Covered Caller.asks s.callers (capacity n - s.inFlight)
    (∑ w, (s.workers w).notifies)
  waits : s.inFlight = 0 → ∀ k, idle.asleep (s.callers k) = false

section Awake

variable [Fintype κ] {s s' : State n κ τ ε} {w : Fin n} {worker : Worker τ ε}

/-- A worker goes on that neither frees a slot nor tells of one. -/
theorem Awake.setWorker (h : Awake s)
    (hwork : workAvailable.Covered Worker.looks (Function.update s.workers w worker)
      s'.tasks.length 0)
    (hnotifies : worker.notifies = (s.workers w).notifies)
    (hworkers : s'.workers = Function.update s.workers w worker)
    (hcallers : s'.callers = s.callers) (hinFlight : s'.inFlight = s.inFlight) : Awake s' := by
  have hslots := h.slots
  have hwaits := h.waits
  rw [← hcallers, ← hinFlight, ← Tally.sum_update_of_eq (f := Worker.notifies) hnotifies,
    ← hworkers] at hslots
  rw [← hcallers, ← hinFlight] at hwaits
  rw [← hworkers] at hwork
  exact ⟨hwork, hslots, hwaits⟩

theorem Awake.finish (h : Awake s) {thrown : Option ε} (hw : s.workers w = .executed thrown) :
    Awake (s.finish w thrown) := by
  have hcallers {γ : Type} {f : Caller τ → γ}
      (hf : ∀ b, idle.asleep b = true → f (idle.wake b) = f b) (k : κ) :
      f ((s.finish w thrown).callers k) = f (s.callers k) := by
    dsimp only [State.finish, State.publishInFlight]
    split_ifs
    · exact ConditionVariable.apply_notifyAll hf k
    · rfl
  constructor
  · refine h.work.update rfl ?_
    rw [hw]
    exact le_rfl
  · have hsum : ∑ v, (Function.update s.workers w .notifying v).notifies + 0 =
      ∑ v, (s.workers v).notifies + 1 := sum_update Worker.notifies hw _
    refine h.slots.congr (hcallers fun _ hb => eq_idling hb ▸ rfl)
      (hcallers fun _ hb => eq_idling hb ▸ rfl) ?_
    dsimp only [State.finish, State.publishInFlight]
    omega
  · intro hzero k
    dsimp only [State.finish, State.publishInFlight] at hzero ⊢
    rw [if_pos hzero]
    exact ConditionVariable.asleep_notifyAll

theorem Awake.requestStop (h : Awake s) (w : Fin n) : Awake (s.requestStop w) := by
  have hslots : slotFree.Covered Caller.asks s.callers (capacity n - s.inFlight)
      (∑ v, (workAvailable.notifyAll s.workers v).notifies) := by
    rw [Finset.sum_congr rfl fun v _ => ConditionVariable.apply_notifyAll
      (fun _ hb => eq_asleep hb ▸ rfl) v]
    exact h.slots
  unfold State.requestStop
  split_ifs
  · exact ⟨ConditionVariable.covered_notifyAll, hslots, h.waits⟩
  · exact ⟨h.work, h.slots, h.waits⟩

variable [DecidableEq κ] {k : κ} {caller : Caller τ}

/-- A caller goes on. -/
theorem Awake.setCaller (h : Awake s)
    (hslots : slotFree.Covered Caller.asks (Function.update s.callers k caller)
      (capacity n - s.inFlight) (∑ w, (s.workers w).notifies))
    (hidle : s.inFlight = 0 → idle.asleep caller = false) : Awake (s.setCaller k caller) where
  work := h.work
  slots := hslots
  waits hzero := (Function.forall_update_iff _ fun _ (c : Caller τ) => idle.asleep c = false).mpr
    ⟨hidle hzero, fun j _ => h.waits hzero j⟩

/-- A caller goes on without sleeping, and asks for a slot if it did before. -/
theorem Awake.setCaller_of_asks (h : Awake s) (hasleep : slotFree.asleep caller = false)
    (hasks : (s.callers k).asks ≤ caller.asks)
    (hidle : s.inFlight = 0 → idle.asleep caller = false) : Awake (s.setCaller k caller) :=
  h.setCaller (h.slots.update hasleep (Nat.add_le_add_left hasks _)) hidle

theorem Awake.push (h : Awake s) {task : τ} {woken : Option (Fin n)}
    (hk : s.callers k = .submitting task) (hroom : s.inFlight < capacity n)
    (hwoken : workAvailable.MayWake s.workers woken) :
    Awake ((s.push task woken).setCaller k .away) where
  work := by
    refine h.work.notifyOne (fun _ hb => eq_asleep hb ▸ rfl) hwoken ?_
    exact (congrArg (· + 0) List.length_append).le
  slots := by
    have hnotifies : ∑ w, (workAvailable.notifyOne s.workers woken w).notifies =
        ∑ w, (s.workers w).notifies :=
      Finset.sum_congr rfl fun w _ => ConditionVariable.apply_notifyOne
        (fun _ hb => eq_asleep hb ▸ rfl) hwoken w
    have hasks : (s.callers k).asks = 1 := hk ▸ rfl
    dsimp only [State.setCaller, State.push, State.publishInFlight]
    rw [hnotifies]
    refine h.slots.update rfl ?_
    rw [hasks]
    omega
  waits hzero := absurd hzero (Nat.succ_ne_zero _)

theorem Awake.release (h : Awake s) {woken : Option κ} (hw : s.workers w = .notifying)
    (hwoken : slotFree.MayWake s.callers woken) :
    Awake { s.setWorker w .awake with callers := slotFree.notifyOne s.callers woken } where
  work := by
    refine h.work.update rfl ?_
    rw [hw]
    exact Nat.le_succ _
  slots := by
    have hsum : ∑ v, (Function.update s.workers w .awake v).notifies + 1 =
      ∑ v, (s.workers v).notifies + 0 := sum_update Worker.notifies hw _
    refine h.slots.notifyOne (fun b hb => ?_) hwoken ?_
    · obtain ⟨task, rfl⟩ := eq_blocked hb
      rfl
    · dsimp only [State.setWorker]
      omega
  waits hzero j := by
    refine (ConditionVariable.apply_notifyOne (fun b hb => ?_) hwoken j).trans (h.waits hzero j)
    obtain ⟨task, rfl⟩ := eq_blocked hb
    rfl

theorem Awake.steps {a : Action n κ τ ε} (h : Awake s) (hstep : Steps s a s') : Awake s' := by
  cases hstep with
  | submit k task hk => exact h.setCaller_of_asks rfl (hk ▸ Nat.zero_le _) fun _ => rfl
  | push k task woken hk hroom hwoken => exact h.push hk hroom hwoken
  | block k task woken hk hfull =>
    exact h.setCaller (ConditionVariable.covered_of_eq_zero (Nat.sub_eq_zero_of_le hfull))
      fun _ => rfl
  | wait k hk => exact h.setCaller_of_asks rfl (hk ▸ le_rfl) fun _ => rfl
  | waited k hk => exact h.setCaller_of_asks rfl (hk ▸ le_rfl) fun _ => rfl
  | idle k hk hne => exact h.setCaller_of_asks rfl (hk ▸ le_rfl) fun hzero => absurd hzero hne
  | takeError => exact ⟨h.work, h.slots, h.waits⟩
  | take w task rest hw htasks =>
    refine h.setWorker (h.work.update rfl ?_) (hw ▸ rfl) rfl rfl rfl
    rw [hw, htasks]
    exact le_rfl
  | sleep w hw htasks =>
    have hnone : s.tasks.length = 0 := List.length_eq_zero_iff.mpr htasks
    exact h.setWorker (ConditionVariable.covered_of_eq_zero hnone) (hw ▸ rfl) rfl rfl rfl
  | exit w hw htasks =>
    have hnone : s.tasks.length = 0 := List.length_eq_zero_iff.mpr htasks
    exact h.setWorker (ConditionVariable.covered_of_eq_zero hnone) (hw ▸ rfl) rfl rfl rfl
  | execute w task thrown hw =>
    exact h.setWorker (h.work.update rfl (hw ▸ le_rfl)) (hw ▸ rfl) rfl rfl rfl
  | finish w thrown hw => exact h.finish hw
  | release w woken hw hwoken => exact h.release hw hwoken
  | wakeWorker w hw =>
    exact h.setWorker (h.work.update rfl (hw ▸ Nat.le_succ _)) (hw ▸ rfl) rfl rfl rfl
  | unblock k task hk => exact h.setCaller_of_asks rfl (hk ▸ Nat.zero_le _) fun _ => rfl
  | rouse k hk => exact h.setCaller_of_asks rfl (hk ▸ le_rfl) fun _ => rfl
  | destroy => exact ⟨h.work, h.slots, h.waits⟩
  | requestStop w => exact h.requestStop w
  | joined => exact ⟨h.work, h.slots, h.waits⟩

end Awake

/-! ## Progress -/

/-- What the threads of the pool and the calls in progress do by themselves. -/
def Action.own : Action n κ τ ε → Bool
  | .slot _ _ => true
  | .idle _ => true
  | .take _ => true
  | .execute _ _ => true
  | .finish _ => true
  | .release _ _ => true
  | .requestStop _ => true
  | .joined => true
  | _ => false

/-- Nothing is left to do: no call is in progress and no task queued or in hand. -/
def Rests (s : State n κ τ ε) : Prop :=
  s.life = .destroyed ∨ s.life = .alive ∧ s.tasks = [] ∧ (∀ w, (s.workers w).inHand = 0) ∧
    ∀ k, s.callers k = .away

section Progress

variable [Fintype κ] [DecidableEq κ] {s : State n κ τ ε}

/-- One of the pool's own steps is possible. -/
def Goes (s : State n κ τ ε) : Prop :=
  ∃ a s', Action.own a = true ∧ step s a = some s'

theorem goes_of_isSome (a : Action n κ τ ε) (ha : a.own = true) (h : (step s a).isSome = true) :
    Goes s := by
  obtain ⟨s', hs'⟩ := Option.isSome_iff_exists.mp h
  exact ⟨a, s', ha, hs'⟩

/-- A worker that neither sleeps nor has ended has a step to take. -/
theorem goes_of_worker {w : Fin n} (hasleep : workAvailable.asleep (s.workers w) = false)
    (hended : (s.workers w).hasEnded = false) : Goes s := by
  cases hw : s.workers w with
  | awake =>
    cases htasks : s.tasks with
    | nil =>
      refine goes_of_isSome (.take w) rfl ?_
      simp [step, hw, htasks]
    | cons task rest =>
      refine goes_of_isSome (.take w) rfl ?_
      simp [step, hw, htasks]
  | asleep =>
    rw [hw] at hasleep
    cases hasleep
  | executing task =>
    refine goes_of_isSome (.execute w none) rfl ?_
    simp [step, hw]
  | executed thrown =>
    refine goes_of_isSome (.finish w) rfl ?_
    simp [step, hw]
  | notifying =>
    obtain ⟨woken, hwoken⟩ := ConditionVariable.exists_mayWake slotFree s.callers
    refine goes_of_isSome (.release w woken) rfl ?_
    simp [step, hw, if_pos hwoken]
  | ended =>
    rw [hw] at hended
    cases hended

theorem goes_of_submitting {k : κ} {task : τ} (hk : s.callers k = .submitting task) : Goes s := by
  obtain ⟨woken, hwoken⟩ := ConditionVariable.exists_mayWake workAvailable s.workers
  by_cases hroom : s.inFlight < capacity n
  · refine goes_of_isSome (.slot k woken) rfl ?_
    simp [step, hk, if_pos hroom, if_pos hwoken]
  · refine goes_of_isSome (.slot k woken) rfl ?_
    simp [step, hk, if_neg hroom]

theorem goes_of_waiting {k : κ} (hk : s.callers k = .waiting) (hlife : s.life ≠ .destroyed) :
    Goes s := by
  cases hlife' : s.life with
  | alive =>
    refine goes_of_isSome (.idle k) rfl ?_
    simp [step, hk, hlife']
  | destroying =>
    refine goes_of_isSome (.idle k) rfl ?_
    simp [step, hk, hlife']
  | destroyed => exact absurd hlife' hlife

/-- The destructor has a step to take when every worker sleeps or has ended. -/
theorem goes_of_destroying (h : Places s) (hlife : s.life = .destroying)
    (hworkers : ∀ w, workAvailable.asleep (s.workers w) = false →
      (s.workers w).hasEnded = true) : Goes s := by
  by_cases hended : ∀ w, (s.workers w).hasEnded = true
  · exact ⟨.joined, _, rfl, if_pos ⟨hlife, hended⟩⟩
  · obtain ⟨w, hw⟩ := not_forall.mp hended
    have hstop : s.stopped w = false :=
      Bool.eq_false_iff.mpr fun hstopped => hw (hworkers w (h.stopped w hstopped).2)
    refine ⟨.requestStop w, _, rfl, if_pos ⟨hlife, hstop, fun v hv => ?_⟩⟩
    exact hworkers v (h.stopped v hv).2

theorem sum_eq_zero_of_forall {ι β : Type*} [Fintype ι] {f : β → ℕ} {g : ι → β}
    (h : ∀ i, f (g i) = 0) : ∑ i, f (g i) = 0 :=
  Finset.sum_eq_zero fun i _ => h i

/-- A pool that has not come to rest goes on by itself. -/
theorem goes_of_not_rests (hinv : Inv s) (hplaces : Places s) (hawake : Awake s)
    (hcapacity : 0 < capacity n) (hrests : ¬ Rests s) : Goes s := by
  by_contra hstuck
  have hlife : s.life ≠ .destroyed := fun hdead => hrests (Or.inl hdead)
  have hworkers (w : Fin n) (hasleep : workAvailable.asleep (s.workers w) = false) :
      (s.workers w).hasEnded = true :=
    Bool.of_not_eq_false fun hended => hstuck (goes_of_worker hasleep hended)
  have hlooks (w : Fin n) : (s.workers w).looks = 0 ∧ (s.workers w).notifies = 0 ∧
      (s.workers w).inHand = 0 := by
    have hw := hworkers w
    cases hworker : s.workers w with
    | asleep => exact ⟨rfl, rfl, rfl⟩
    | ended => exact ⟨rfl, rfl, rfl⟩
    | _ =>
      rw [hworker] at hw
      cases hw rfl
  have htasks : s.tasks = [] := by
    rcases hawake.work with hnobody | hle
    · -- every worker has ended, and none ends while there are tasks
      have hn : 0 < n := by
        by_contra hzero
        obtain rfl : n = 0 := Nat.eq_zero_of_not_pos hzero
        cases hcapacity
      exact (hplaces.ended ⟨0, hn⟩ (hworkers _ (hnobody _))).2
    · rw [sum_eq_zero_of_forall fun w => (hlooks w).1] at hle
      exact List.length_eq_zero_iff.mp (Nat.le_zero.mp hle)
  have hzero : s.inFlight = 0 := by
    rw [hinv.inFlight, htasks, sum_eq_zero_of_forall fun w => (hlooks w).2.2]
    rfl
  have hasks (k : κ) : (s.callers k).asks = 0 := by
    cases hk : s.callers k with
    | submitting task => exact absurd (goes_of_submitting hk) hstuck
    | _ => rfl
  have hcallers (k : κ) : s.callers k = .away := by
    cases hk : s.callers k with
    | away => rfl
    | submitting task => exact absurd (goes_of_submitting hk) hstuck
    | blocked task =>
      rcases hawake.slots with hnobody | hle
      · have hblocked := hnobody k
        rw [hk] at hblocked
        cases hblocked
      · rw [sum_eq_zero_of_forall hasks, sum_eq_zero_of_forall fun w => (hlooks w).2.1,
          hzero] at hle
        omega
    | waiting => exact absurd (goes_of_waiting hk hlife) hstuck
    | idling =>
      have hidle := hawake.waits hzero k
      rw [hk] at hidle
      cases hidle
  cases hlife' : s.life with
  | alive => exact hrests (Or.inr ⟨hlife', htasks, fun w => (hlooks w).2.2, hcallers⟩)
  | destroying => exact hstuck (goes_of_destroying hplaces hlife' hworkers)
  | destroyed => exact hlife hlife'

end Progress

/-! ## What is left to do -/

/-- The steps that a worker has left, where each task that finishes may wake all callers. -/
def Worker.left (callers : ℕ) : Worker τ ε → ℕ
  | .awake => 1
  | .asleep => 0
  | .executing _ => callers + 5
  | .executed _ => callers + 4
  | .notifying => 3
  | .ended => 0

def Caller.left (callers : ℕ) : Caller τ → ℕ
  | .away => 0
  | .submitting _ => callers + 7
  | .blocked _ => callers + 6
  | .waiting => 1
  | .idling => 0

/-- A stop may wake all workers. -/
def stopsLeft (threads : ℕ) (stopped : Bool) : ℕ := if stopped then 0 else threads + 1

def Life.left : Life → ℕ
  | .destroyed => 0
  | _ => 1

/-- What the pool and the calls in progress have left to do. -/
def left [Fintype κ] (s : State n κ τ ε) : ℕ :=
  ∑ w, (s.workers w).left (Fintype.card κ) + ∑ k, (s.callers k).left (Fintype.card κ) +
    s.tasks.length * (Fintype.card κ + 5) + ∑ w, stopsLeft n (s.stopped w) + s.life.left

section Left

variable [Fintype κ] {s s' : State n κ τ ε} {w : Fin n}

theorem left_setWorker {old worker : Worker τ ε} (hw : s.workers w = old)
    (h : worker.left (Fintype.card κ) < old.left (Fintype.card κ)) :
    left (s.setWorker w worker) < left s := by
  have hsum := sum_update (Worker.left (Fintype.card κ)) hw worker
  dsimp only [left, State.setWorker]
  omega

theorem left_finish {thrown : Option ε} (hw : s.workers w = .executed thrown) :
    left (s.finish w thrown) < left s := by
  have hsum : ∑ v, (Function.update s.workers w .notifying v).left (Fintype.card κ) +
      (Fintype.card κ + 4) = ∑ v, (s.workers v).left (Fintype.card κ) + 3 :=
    sum_update (Worker.left _) hw _
  have hcallers : ∑ k, ((s.finish w thrown).callers k).left (Fintype.card κ) ≤
      ∑ k, (s.callers k).left (Fintype.card κ) + Fintype.card κ := by
    dsimp only [State.finish, State.publishInFlight]
    split_ifs
    · exact ConditionVariable.sum_notifyAll_le fun _ hb => eq_idling hb ▸ rfl
    · exact Nat.le_add_right _ _
  dsimp only [left, State.finish, State.publishInFlight] at hcallers ⊢
  omega

theorem left_requestStop (hstop : s.stopped w = false) : left (s.requestStop w) < left s := by
  have hsum : ∑ v, stopsLeft n (Function.update s.stopped w true v) + (n + 1) =
      ∑ v, stopsLeft n (s.stopped v) + 0 := by
    have hupdate := Tally.sum_update (stopsLeft n) s.stopped w true
    rwa [hstop] at hupdate
  have hworkers : ∑ v, ((s.requestStop w).workers v).left (Fintype.card κ) ≤
      ∑ v, (s.workers v).left (Fintype.card κ) + n := by
    unfold State.requestStop
    dsimp only
    split_ifs
    · refine (ConditionVariable.sum_notifyAll_le fun _ hb => eq_asleep hb ▸ rfl).trans_eq ?_
      rw [Fintype.card_fin]
    · exact Nat.le_add_right _ _
  dsimp only [left, State.requestStop] at hworkers ⊢
  omega

variable [DecidableEq κ] {k : κ}

theorem left_setCaller {old caller : Caller τ} (hk : s.callers k = old)
    (h : caller.left (Fintype.card κ) < old.left (Fintype.card κ)) :
    left (s.setCaller k caller) < left s := by
  have hsum := Tally.sum_update (Caller.left (Fintype.card κ)) s.callers k caller
  rw [hk] at hsum
  dsimp only [left, State.setCaller]
  omega

theorem left_push {task : τ} {woken : Option (Fin n)} (hk : s.callers k = .submitting task)
    (hwoken : workAvailable.MayWake s.workers woken) :
    left ((s.push task woken).setCaller k .away) < left s := by
  have hsum : ∑ j, (Function.update s.callers k .away j).left (Fintype.card κ) +
      (Fintype.card κ + 7) = ∑ j, (s.callers j).left (Fintype.card κ) + 0 := by
    have hupdate := Tally.sum_update (Caller.left (Fintype.card κ)) s.callers k .away
    rwa [hk] at hupdate
  have hworkers := ConditionVariable.sum_notifyOne_le
    (f := Worker.left (Fintype.card κ)) (fun _ hb => eq_asleep hb ▸ rfl) hwoken
  dsimp only [left, State.setCaller, State.push, State.publishInFlight]
  rw [List.length_append, List.length_singleton, Nat.add_mul, Nat.one_mul]
  omega

theorem left_release {woken : Option κ} (hw : s.workers w = .notifying)
    (hwoken : slotFree.MayWake s.callers woken) :
    left { s.setWorker w .awake with callers := slotFree.notifyOne s.callers woken } < left s := by
  have hsum : ∑ v, (Function.update s.workers w .awake v).left (Fintype.card κ) + 3 =
      ∑ v, (s.workers v).left (Fintype.card κ) + 1 := sum_update (Worker.left _) hw _
  have hcallers := ConditionVariable.sum_notifyOne_le
    (f := Caller.left (Fintype.card κ)) (fun _ hb => (eq_blocked hb).elim fun _ h => h ▸ rfl) hwoken
  dsimp only [left, State.setWorker]
  omega

/-- Each of the pool's own steps leaves less to do. -/
theorem left_steps {a : Action n κ τ ε} (ha : a.own = true) (hstep : Steps s a s') :
    left s' < left s := by
  cases hstep with
  | push k task woken hk _ hwoken => exact left_push hk hwoken
  | block k task woken hk => exact left_setCaller hk (Nat.lt_succ_self _)
  | waited k hk => exact left_setCaller hk Nat.zero_lt_one
  | idle k hk => exact left_setCaller hk Nat.zero_lt_one
  | take w task rest hw htasks =>
    have hsum : ∑ v, (Function.update s.workers w (.executing task) v).left (Fintype.card κ) + 1 =
        ∑ v, (s.workers v).left (Fintype.card κ) + (Fintype.card κ + 5) :=
      sum_update (Worker.left _) hw _
    dsimp only [left, State.setWorker]
    rw [htasks, List.length_cons, Nat.add_mul, Nat.one_mul]
    omega
  | sleep w hw => exact left_setWorker hw Nat.zero_lt_one
  | exit w hw => exact left_setWorker hw Nat.zero_lt_one
  | execute w task thrown hw => exact left_setWorker hw (Nat.lt_succ_self _)
  | finish w thrown hw => exact left_finish hw
  | release w woken hw hwoken => exact left_release hw hwoken
  | requestStop w _ hstop => exact left_requestStop hstop
  | joined hlife =>
    dsimp only [left]
    rw [hlife]
    exact Nat.lt_succ_self _
  | _ => cases ha

end Left

/-! ## Runs -/

section Runs

theorem places_construct (gauge : Option ℤ) :
    Places ({ gauge := gauge } : State n κ τ ε) where
  ended _ h := by cases h
  stopped _ h := by cases h
  calls h := absurd rfl h
  destroyed h := by cases h

theorem life_steps [DecidableEq κ] {s s' : State n κ τ ε} {a : Action n κ τ ε}
    (hstep : Steps s a s') (hdying : s.life ≠ .alive) : s'.life ≠ .alive := by
  cases hstep with
  | destroy => exact fun h => by cases h
  | joined => exact fun h => by cases h
  | _ => exact hdying

variable [Fintype κ]

theorem awake_construct (gauge : Option ℤ) : Awake ({ gauge := gauge } : State n κ τ ε) where
  work := ConditionVariable.covered_of_eq_zero rfl
  slots := Or.inl fun _ => rfl
  waits _ _ := rfl

/-- What holds of a pool in every state that it reaches. -/
structure Sound (s : State n κ τ ε) : Prop where
  inv : Inv s
  places : Places s
  awake : Awake s

variable {s₀ s s' : State n κ τ ε}

/-- A pool that is destroyed has executed what was submitted. -/
theorem Sound.executed (h : Sound s) (hn : 1 ≤ n) (hdead : s.life = .destroyed) :
    s.executed.Perm s.submitted := by
  have hheld : ∑ w, (s.workers w).held = 0 := by
    refine Finset.sum_eq_zero fun w _ => ?_
    have hended := h.places.destroyed hdead w
    cases hw : s.workers w with
    | ended => rfl
    | _ =>
      rw [hw] at hended
      cases hended
  have htasks : s.tasks = [] := (h.places.ended ⟨0, hn⟩ (h.places.destroyed hdead _)).2
  have hcounted := h.inv.counted
  rw [hheld, htasks, add_zero] at hcounted
  exact Multiset.coe_eq_coe.mp ((add_zero _).symm.trans hcounted)

/-- In a pool that fits 32 bits the gauge is the count. -/
theorem Sound.gauge_eq (h : Sound s) (hthreads : n ≤ kMaxThreads) (hn : n < 2 ^ 30) {value : ℤ}
    (hvalue : s.gauge = some value) (hne : s.submitted ≠ []) : value = s.inFlight := by
  have hbounded := h.inv.bounded
  rw [capacity_eq hthreads] at hbounded
  rw [h.inv.gauge value hvalue hne]
  exact toInt32_of_small (by omega) (by omega)

variable [DecidableEq κ] {gauge : Option ℤ} {as : List (Action n κ τ ε)} {a : Action n κ τ ε}

theorem Sound.next (h : Sound s) (hstep : step s a = some s') : Sound s' :=
  ⟨h.inv.steps (steps_of_step hstep), h.places.steps (steps_of_step hstep),
    h.awake.steps (steps_of_step hstep)⟩

theorem sound_of_exec (hpool : construct n gauge = some s₀) (hrun : exec step s₀ as = some s) :
    Sound s := by
  obtain ⟨-, rfl⟩ := construct_eq_some hpool
  refine exec_invariant (fun _ _ _ h hstep => h.next hstep) ?_ hrun
  exact ⟨inv_construct gauge, places_construct gauge, awake_construct gauge⟩

/-- `wait` returns when nothing is queued and no task in hand. -/
theorem Sound.waited (h : Sound s) {k : κ} (hstep : step s (.idle k) = some s')
    (hreturned : s'.callers k = .away) : s'.tasks = [] ∧ ∀ w, (s'.workers w).inHand = 0 := by
  have hidle (caller : Caller τ) : (s.setCaller k caller).callers k = caller :=
    Function.update_self ..
  cases steps_of_step hstep with
  | waited _ _ hzero =>
    have hinFlight := h.inv.inFlight
    rw [hzero] at hinFlight
    obtain ⟨htasks, hinHand⟩ := Nat.add_eq_zero_iff.mp hinFlight.symm
    exact ⟨List.length_eq_zero_iff.mp htasks, fun w =>
      Finset.sum_eq_zero_iff.mp hinHand w (Finset.mem_univ w)⟩
  | idle =>
    rw [hidle] at hreturned
    cases hreturned

/-- Destruction that has begun comes to its end. -/
theorem Sound.destroyed (h : Sound s) (hcapacity : 0 < capacity n) (hdying : s.life ≠ .alive) :
    Inevitable step (fun a => Action.own a = true) (·.life = .destroyed) s := by
  refine inevitable_of_measure (I := fun s => Sound s ∧ s.life ≠ .alive) left
    (fun _ _ _ h _ hstep => ⟨h.1.next hstep, life_steps (steps_of_step hstep) h.2⟩)
    (fun _ _ _ _ ha hstep => left_steps ha (steps_of_step hstep)) (fun s h hnot => ?_)
    ⟨h, hdying⟩
  refine goes_of_not_rests h.1.inv h.1.places h.1.awake hcapacity fun hrests => ?_
  exact hrests.elim hnot fun halive => h.2 halive.1

/-- In every state that a pool reaches, each task that was submitted is queued, or held by one
worker, or executed, and when the pool is destroyed it is executed; what is in flight is what is
queued or in hand, and no more than two for each worker; the gauge shows it as a 32-bit number;
`wait` returns when there is nothing; and an error that was taken is what the first task threw that
has thrown since the last one was. A destructor that has begun comes to its end. -/
theorem thread_pool (hn : 1 ≤ n) (hpool : construct n gauge = some s₀)
    (hrun : exec step s₀ as = some s) :
    ((s.executed : Multiset τ) + ∑ w, (s.workers w).held + s.tasks = s.submitted ∧
      (s.life = .destroyed → s.executed.Perm s.submitted)) ∧
    (s.inFlight = s.tasks.length + ∑ w, (s.workers w).inHand ∧ s.inFlight ≤ 2 * n) ∧
    (∀ value, s.gauge = some value → s.submitted ≠ [] →
      value = toInt32 s.inFlight ∧ (n < 2 ^ 30 → value = s.inFlight)) ∧
    (∀ k s', step s (.idle k) = some s' → s'.callers k = .away →
      s'.tasks = [] ∧ ∀ w, (s'.workers w).inHand = 0) ∧
    (∀ before err after, s.events = before ++ .took err :: after → err = firstThrown before) ∧
    (s.life = .destroying →
      Inevitable step (fun a => Action.own a = true) (·.life = .destroyed) s) := by
  have hsound : Sound s := sound_of_exec hpool hrun
  have hthreads : n ≤ kMaxThreads := (construct_eq_some hpool).1
  have hcapacity : capacity n = 2 * n := capacity_eq hthreads
  refine ⟨⟨hsound.inv.counted, hsound.executed hn⟩, ⟨hsound.inv.inFlight, ?_⟩,
    fun value hvalue hne => ⟨hsound.inv.gauge value hvalue hne, fun hsmall => ?_⟩,
    fun k s' hstep hreturned => hsound.waited hstep hreturned, hsound.inv.took,
    fun hdying => hsound.destroyed (by omega) fun halive => ?_⟩
  · exact hcapacity ▸ hsound.inv.bounded
  · exact hsound.gauge_eq hthreads hsmall hvalue hne
  · cases hdying.symm.trans halive

/-- A task that throws, a `wait` that sleeps until it is finished, and destruction. -/
def oneTask : List (Action 1 Unit ℕ String) :=
  let w : Fin 1 := ⟨0, Nat.one_pos⟩
  [.submit () 7, .slot () none, .take w, .wait (), .idle (), .execute w (some "failed"), .finish w,
    .idle (), .release w none, .takeError, .destroy, .requestStop w, .take w, .joined]

theorem thread_pool_one_task : ∃ s₀ s, construct 1 (some 0) = some s₀ ∧
    exec step s₀ oneTask = some s ∧ s.executed.Perm s.submitted ∧
      s.events = [.finished (some "failed"), .took (some "failed")] := by
  obtain ⟨s₀, s, hpool, hrun, hdead, hevents⟩ : ∃ s₀ s, construct 1 (some 0) = some s₀ ∧
      exec step s₀ oneTask = some s ∧ s.life = .destroyed ∧
        s.events = [.finished (some "failed"), .took (some "failed")] :=
    ⟨_, _, rfl, rfl, rfl, rfl⟩
  exact ⟨s₀, s, hpool, hrun, (thread_pool le_rfl hpool hrun).1.2 hdead, hevents⟩

/-- Whatever a pool is at, it comes to rest by itself: tasks are executed, and calls return. -/
theorem comes_to_rest (hn : 1 ≤ n) (hpool : construct n gauge = some s₀)
    (hrun : exec step s₀ as = some s) :
    Inevitable step (fun a => Action.own a = true) Rests s := by
  have hcapacity : capacity n = 2 * n := capacity_eq (construct_eq_some hpool).1
  refine inevitable_of_measure left (fun _ _ _ h _ hstep => Sound.next h hstep)
    (fun _ _ _ _ ha hstep => left_steps ha (steps_of_step hstep)) (fun s h hrests => ?_)
    (sound_of_exec hpool hrun)
  exact goes_of_not_rests h.inv h.places h.awake (by omega) hrests

/-- A worker has the task in hand, and a `wait` sleeps. -/
theorem comes_to_rest_one_task : ∃ s₀ s, construct 1 (some 0) = some s₀ ∧
    exec step s₀ (oneTask.take 5) = some s ∧
      Inevitable step (fun a => Action.own a = true) Rests s := by
  obtain ⟨s₀, s, hpool, hrun⟩ : ∃ s₀ s, construct 1 (some 0) = some s₀ ∧
      exec step s₀ (oneTask.take 5) = some s := ⟨_, _, rfl, rfl⟩
  exact ⟨s₀, s, hpool, hrun, comes_to_rest le_rfl hpool hrun⟩

end Runs

/-! ## The size of a pool -/

/-- Four fifths of the threads that the machine has, in 32 bits, and one if that is not known. -/
def poolThreads (hw : ℕ) : ℕ := if hw ≠ 0 then max 1 (hw * 4 % 2 ^ 32 / 5) else 1

/-- The count of a pool of this size fits its gauge. -/
theorem poolThreads_bounds (hw : ℕ) : 1 ≤ poolThreads hw ∧ poolThreads hw < 2 ^ 30 := by
  unfold poolThreads
  split_ifs
  · omega
  · decide

section Gauge

variable [Fintype κ] [DecidableEq κ] {gauge : Option ℤ} {value : ℤ}

/-- The gauge of such a pool shows what is in flight. -/
theorem gauge_of_poolThreads {hw : ℕ} {as : List (Action (poolThreads hw) κ τ ε)}
    {s₀ s : State (poolThreads hw) κ τ ε} (hpool : construct (poolThreads hw) gauge = some s₀)
    (hrun : exec step s₀ as = some s) (hvalue : s.gauge = some value) (hne : s.submitted ≠ []) :
    value = s.inFlight :=
  (sound_of_exec hpool hrun).gauge_eq (construct_eq_some hpool).1 (poolThreads_bounds hw).2 hvalue
    hne

/-- When `wait` has returned the gauge of any pool shows that it is drained. -/
theorem gauge_of_waited {as : List (Action n κ τ ε)} {s₀ s s' : State n κ τ ε} {k : κ}
    (hpool : construct n gauge = some s₀) (hrun : exec step s₀ as = some s)
    (hstep : step s (.idle k) = some s') (hreturned : s'.callers k = .away)
    (hvalue : s'.gauge = some value) (hne : s'.submitted ≠ []) : value = 0 := by
  have hsound : Sound s := sound_of_exec hpool hrun
  obtain ⟨htasks, hinHand⟩ := hsound.waited hstep hreturned
  have hinv : Inv s' := (hsound.next hstep).inv
  have hzero : s'.inFlight = 0 := by
    rw [hinv.inFlight, htasks, sum_eq_zero_of_forall hinHand]
    rfl
  rw [hinv.gauge value hvalue hne, hzero]
  rfl

end Gauge

/-- So many submits, one after the other, while no worker looks for a task. -/
def flood : ℕ → List (Action n Unit Unit Unit)
  | 0 => []
  | m + 1 => .submit () () :: .slot () none :: flood m

def flooded (n m : ℕ) : State n Unit Unit Unit where
  tasks := List.replicate m ()
  inFlight := m
  gauge := some (toInt32 m)
  submitted := List.replicate m ()

theorem push_flooded (m : ℕ) (caller : Caller Unit) :
    (((flooded n m).setCaller () caller).push () none).setCaller () .away =
      flooded n (m + 1) := by
  have hcallers : Function.update (Function.update (flooded n m).callers () caller) () .away =
      fun _ => .away := funext fun _ => rfl
  dsimp only [State.setCaller, State.push, State.publishInFlight]
  rw [hcallers]
  simp only [flooded, List.replicate_succ']
  rfl

theorem step_slot_flooded {m : ℕ} (h : m < capacity n) :
    step ((flooded n m).setCaller () (.submitting ())) (.slot () none) =
      some (flooded n (m + 1)) := by
  rw [← push_flooded m (.submitting ())]
  exact (if_pos h).trans (if_pos fun _ => rfl)

theorem exec_flood : ∀ j m, m + j ≤ capacity n →
    exec step (flooded n m) (flood j) = some (flooded n (m + j))
  | 0, _, _ => rfl
  | j + 1, m, h => by
    refine exec_cons.mpr ⟨_, rfl, exec_cons.mpr ⟨_, step_slot_flooded (by omega), ?_⟩⟩
    rw [exec_flood j (m + 1) (by omega), Nat.add_right_comm, Nat.add_assoc]

/-- The gauge of a pool that is too large shows a negative number. -/
theorem gauge_wraps : ∃ s₀ s : State (2 ^ 30) Unit Unit Unit,
    construct (2 ^ 30) (some 0) = some s₀ ∧ exec step s₀ (flood (2 ^ 31)) = some s ∧
      s.inFlight = 2 ^ 31 ∧ s.gauge = some (-2 ^ 31) := by
  refine ⟨flooded (2 ^ 30) 0, flooded (2 ^ 30) (2 ^ 31), rfl, ?_, rfl, rfl⟩
  rw [exec_flood (2 ^ 31) 0 (by decide), zero_add]

end ThreadPool

end BacktestEngine

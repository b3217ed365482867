import BacktestEngine.Live.TradeLocks
import BacktestEngine.Models.Trade

/-! # The gate and the order channel of one worker

A worker's gate takes the trade lock of a signal with an instance of its own, and its
order channel keeps, releases or extends the same lock with another. Both work on one
store, beside any number of other clients. A journal records for each lock how the
worker's signals ended and when another client set it.
-/

namespace BacktestEngine

namespace Live

open Lease (Reply)

/-- The clients of the lock keys. -/
inductive Client (κ : Type)
  | gate
  | channel
  | other (k : κ)
  deriving DecidableEq

/-- What happened on a lock, as its worker sees it. -/
inductive Passage
  | passed (clock : ℤ)
  | blocked
  | rejected (released : Bool)
  | ended
  | setByOther
  deriving DecidableEq

/-- Where the worker stands with a signal: at the gate, with the cluster check, around the broker's
answer, or in what follows from it. -/
inductive GateStage
  | idle
  | gating (strategyUuid direction : String) (clock : ℤ)
  | requesting (strategyUuid direction : String)
  | extending (strategyUuid direction : String) (clock : ℤ)
  | placing (strategyUuid direction : String)
  | releasing (strategyUuid direction : String)
  | braking (strategyUuid direction : String) (clock : ℤ)
  deriving DecidableEq

/-- The lifetimes of a lock, and the name each client writes into it. -/
structure GateConfig (κ : Type) where
  lockTtl : ℤ := 30 * second
  failureTtl : ℤ := 120 * second
  owner : Client κ → String

/-- The lock keys with the calls of all clients, the worker and its journal, latest entry first. -/
structure GateState (κ : Type) where
  locks : LockState (Client κ)
  stage : GateStage
  journal : String → List Passage

inductive GateAction (κ : Type)
  | advance (elapsed : ℕ)
  | signal (strategyUuid direction : String)
  | gateReply (reply : Reply)
  | request (known blocked : Bool)
  | extendReply (reply : Reply)
  | outcome (status : OpenStatus)
  | releaseReply (reply : Reply)
  | brakeReply (reply : Reply)
  | other (action : LockAction (Client κ))

namespace GateState

variable {κ : Type} [DecidableEq κ] (cfg : GateConfig κ) (s : GateState κ)

def note (key : String) (entry : Passage) : String → List Passage :=
  Function.update s.journal key (entry :: s.journal key)

/-- The journal with an entry for each lock that a step has set. -/
def noteSet (locks : LockState (Client κ)) : String → List Passage := fun key =>
  if ((locks.log key).drop (s.locks.log key).length).any fun w => w.ttl.isSome then
    .setByOther :: s.journal key
  else s.journal key

/-- The end of a gate call that began at this clock reading. -/
def gated (strategyUuid direction : String) (clock : ℤ) (locks : LockState (Client κ))
    (answer : LockAnswer (Client κ)) : GateState κ :=
  let key := lockKey strategyUuid direction
  if answer.locked then
    { s with
      locks := locks
      stage := .idle
      journal := s.note key .blocked }
  else
    { s with
      locks := locks
      stage := .requesting strategyUuid direction
      journal := s.note key (.passed clock) }

/-- A command of the channel, with the stage and the journal it leads to. -/
def channelStep (action : LockAction (Client κ)) (stage : GateStage)
    (journal : String → List Passage) : Option (GateState κ) :=
  match s.locks.transition cfg.owner action with
  | some (locks, _) => some { s with locks := locks, stage := stage, journal := journal }
  | none => none

def step (s : GateState κ) : GateAction κ → Option (GateState κ)
  | .advance elapsed => s.channelStep cfg (.advance elapsed) s.stage s.journal
  | .signal strategyUuid direction =>
    match s.stage with
    | .idle =>
      match s.locks.transition cfg.owner
          (.isThereATradeLock .gate strategyUuid direction cfg.lockTtl) with
      | some (locks, some answer) => some (s.gated strategyUuid direction s.locks.now locks answer)
      | some (locks, none) =>
        some { s with locks := locks, stage := .gating strategyUuid direction s.locks.now }
      | none => none
    | _ => none
  | .gateReply reply =>
    match s.stage with
    | .gating strategyUuid direction clock =>
      match s.locks.transition cfg.owner (.setIfNotExists .gate reply) with
      | some (locks, some answer) => some (s.gated strategyUuid direction clock locks answer)
      | _ => none
    | _ => none
  | .request known blocked =>
    match s.stage with
    | .requesting strategyUuid direction =>
      if known && !blocked then
        s.channelStep cfg (.extendLock .channel strategyUuid direction cfg.lockTtl)
          (.extending strategyUuid direction s.locks.now) s.journal
      else
        some { s with
          stage := .idle
          journal := s.note (lockKey strategyUuid direction) .ended }
    | _ => none
  | .extendReply reply =>
    match s.stage with
    | .extending strategyUuid direction _ =>
      s.channelStep cfg (.setString .channel reply) (.placing strategyUuid direction) s.journal
    | _ => none
  | .outcome status =>
    match s.stage with
    | .placing strategyUuid direction =>
      match status with
      | .accepted =>
        some { s with
          stage := .idle
          journal := s.note (lockKey strategyUuid direction) .ended }
      | .rejected =>
        s.channelStep cfg (.releaseLock .channel strategyUuid direction)
          (.releasing strategyUuid direction) s.journal
      | .failed =>
        s.channelStep cfg (.extendLock .channel strategyUuid direction cfg.failureTtl)
          (.braking strategyUuid direction s.locks.now) s.journal
    | _ => none
  | .releaseReply reply =>
    match s.stage with
    | .releasing strategyUuid direction =>
      s.channelStep cfg (.deleteKey .channel reply) .idle
        (s.note (lockKey strategyUuid direction) (.rejected (decide (reply = .answered))))
    | _ => none
  | .brakeReply reply =>
    match s.stage with
    | .braking strategyUuid direction _ =>
      s.channelStep cfg (.setString .channel reply) .idle
        (s.note (lockKey strategyUuid direction) .ended)
    | _ => none
  | .other action =>
    match action.caller with
    | some (.other _) =>
      match s.locks.transition cfg.owner action with
      | some (locks, _) => some { s with locks := locks, journal := s.noteSet locks }
      | none => none
    | _ => none

/-- A worker that has just started, over keys that may be left from before. -/
def fresh (now : ℤ) (redis : Expiring.Store String String ℤ) : GateState κ where
  locks := .fresh now redis
  stage := .idle
  journal _ := []

/-- The action is another client's, or none's. -/
def Around : GateAction κ → Prop
  | .advance _ | .other _ => True
  | _ => False

end GateState

namespace GateStage

/-- The call of the gate's instance in this stage. -/
def gateCall (ttl : ℤ) : GateStage → LockCall
  | gating strategyUuid direction clock => .checking (lockKey strategyUuid direction) clock ttl
  | _ => .idle

/-- The call of the channel's instance in this stage. -/
def channelCall (lockTtl failureTtl : ℤ) : GateStage → LockCall
  | extending strategyUuid direction clock =>
    .extending (lockKey strategyUuid direction) clock lockTtl
  | releasing strategyUuid direction => .releasing (lockKey strategyUuid direction)
  | braking strategyUuid direction clock =>
    .extending (lockKey strategyUuid direction) clock failureTtl
  | _ => .idle

/-- The lock a gate call is about. -/
def gateKey : GateStage → Option String
  | gating strategyUuid direction _ => some (lockKey strategyUuid direction)
  | _ => none

/-- The lock of the order on its way. -/
def orderKey : GateStage → Option String
  | idle | gating _ _ _ => none
  | requesting strategyUuid direction | extending strategyUuid direction _
  | placing strategyUuid direction | releasing strategyUuid direction
  | braking strategyUuid direction _ => some (lockKey strategyUuid direction)

end GateStage

namespace GateState

variable {κ : Type} [DecidableEq κ] (cfg : GateConfig κ)

/-- The gate remembers a lock it passed, also after the channel has released it; the store does not
hold a lock that was released last. -/
structure Inv (s : GateState κ) : Prop where
  gate : s.locks.calls .gate = s.stage.gateCall cfg.lockTtl
  channel : s.locks.calls .channel = s.stage.channelCall cfg.lockTtl cfg.failureTtl
  memory : ∀ key clock older, (s.journal key = .passed clock :: older ∨
    s.journal key = .rejected true :: .passed clock :: older) → s.stage.gateKey ≠ some key →
    s.locks.heldUntil .gate key = some (clock + cfg.lockTtl)
  released : ∀ key older, s.journal key = .rejected true :: older → s.locks.redis key = none
  busy : ∀ key older, s.stage.orderKey = some key → s.journal key ≠ .rejected true :: older

variable {cfg} {s s' : GateState κ}

omit [DecidableEq κ] in
theorem Inv.fresh (now : ℤ) (redis : Expiring.Store String String ℤ) :
    Inv cfg (GateState.fresh now redis) where
  gate := rfl
  channel := rfl
  memory _ _ _ h := by rcases h with h | h <;> cases h
  released _ _ h := by cases h
  busy _ _ h := by cases h

omit [DecidableEq κ] in
/-- A step after which the gate's instance and the lock of the order are what they were, and which
notes at most ends and sets of others. -/
theorem Inv.frame (hi : Inv cfg s) (hgate : s'.locks.calls .gate = s'.stage.gateCall cfg.lockTtl)
    (hchannel : s'.locks.calls .channel = s'.stage.channelCall cfg.lockTtl cfg.failureTtl)
    (hmemory : s'.locks.heldUntil .gate = s.locks.heldUntil .gate)
    (hkey : s'.stage.gateKey = s.stage.gateKey)
    (horder : ∀ key, s'.stage.orderKey = some key → s.stage.orderKey = some key)
    (hjournal : ∀ key, s'.journal key = s.journal key ∨
      s'.journal key = .ended :: s.journal key ∨ s'.journal key = .setByOther :: s.journal key)
    (hreleased : ∀ key older, s'.journal key = s.journal key →
      s.journal key = .rejected true :: older → s'.locks.redis key = none) : Inv cfg s' where
  gate := hgate
  channel := hchannel
  memory key clock older h hne := by
    rw [hmemory]
    rcases hjournal key with hj | hj | hj
    · exact hi.memory key clock older (hj ▸ h) (hkey ▸ hne)
    · rw [hj] at h
      simp at h
    · rw [hj] at h
      simp at h
  released key older h := by
    rcases hjournal key with hj | hj | hj
    · exact hreleased key older hj (hj ▸ h)
    · rw [hj] at h
      simp at h
    · rw [hj] at h
      simp at h
  busy key older hstage h := by
    rcases hjournal key with hj | hj | hj
    · exact hi.busy key older (horder key hstage) (hj ▸ h)
    · rw [hj] at h
      simp at h
    · rw [hj] at h
      simp at h

omit [DecidableEq κ] in
theorem note_of_ended (key k : String) :
    s.note key .ended k = s.journal k ∨ s.note key .ended k = .ended :: s.journal k := by
  by_cases hk : k = key
  · subst hk
    exact .inr (Function.update_self ..)
  · exact .inl (Function.update_of_ne hk ..)

/-- A command of the channel that deletes nothing keeps the invariant, with no note or an end. -/
theorem Inv.channelStep (hi : Inv cfg s) {action : LockAction (Client κ)} {stage : GateStage}
    {journal : String → List Passage} (h : s.channelStep cfg action stage journal = some s')
    (hcaller : action.caller ≠ some .gate)
    (hgate : s.locks.calls .gate = stage.gateCall cfg.lockTtl)
    (hchannel : ∀ locks answer, s.locks.transition cfg.owner action = some (locks, answer) →
      locks.calls .channel = stage.channelCall cfg.lockTtl cfg.failureTtl)
    (hother : ∀ k, action.caller ≠ some (.other k))
    (hkey : stage.gateKey = s.stage.gateKey)
    (horder : ∀ key, stage.orderKey = some key → s.stage.orderKey = some key)
    (hjournal : ∀ key, journal key = s.journal key ∨ journal key = .ended :: s.journal key) :
    Inv cfg s' := by
  unfold GateState.channelStep at h
  split at h
  · rename_i locks answer ht
    cases h
    obtain ⟨hmemory, hcalls⟩ := LockState.frame_of_transition ht hcaller
    refine hi.frame (hcalls.trans hgate) (hchannel locks answer ht) hmemory hkey horder
      (fun key => (hjournal key).imp_right .inl) ?_
    intro key older _ hhead
    rcases LockState.redis_of_transition ht key with hr | hr | ⟨⟨i, hi', hwrites⟩, -⟩
    · exact hr.trans (hi.released key older hhead)
    · exact hr
    · cases i with
      | gate => exact absurd hi' hcaller
      | other k => exact absurd hi' (hother k)
      | channel =>
        rw [hi.channel] at hwrites
        refine absurd hhead (hi.busy key older ?_)
        cases hstage : s.stage <;> rw [hstage] at hwrites <;> simp_all [GateStage.channelCall,
          LockCall.writes, GateStage.orderKey]
  · cases h

omit [DecidableEq κ] in
/-- The end of a gate call on a lock: what the gate remembers of it is what the journal says. -/
theorem Inv.gated (hi : Inv cfg s) {strategyUuid direction : String} {clock : ℤ}
    {locks : LockState (Client κ)} {answer : LockAnswer (Client κ)}
    (hgate : locks.calls .gate = .idle) (hchannel : locks.calls .channel = .idle)
    (hself : answer.locked = false →
      locks.heldUntil .gate (lockKey strategyUuid direction) = some (clock + cfg.lockTtl))
    (hkey : s.stage.gateKey = none ∨ s.stage.gateKey = some (lockKey strategyUuid direction))
    (hmemory : ∀ key ≠ lockKey strategyUuid direction,
      locks.heldUntil .gate key = s.locks.heldUntil .gate key)
    (hredis : ∀ key ≠ lockKey strategyUuid direction, locks.redis key = s.locks.redis key) :
    Inv cfg (s.gated strategyUuid direction clock locks answer) := by
  have hne : ∀ key ≠ lockKey strategyUuid direction, s.stage.gateKey ≠ some key := by
    intro key hk h
    rcases hkey with hkey | hkey
    · rw [hkey] at h
      cases h
    · rw [hkey] at h
      exact hk (Option.some.inj h).symm
  unfold GateState.gated
  split
  · refine ⟨hgate, hchannel, ?_, ?_, fun _ _ h => by cases h⟩
    · intro key clock' older h _
      by_cases hk : key = lockKey strategyUuid direction
      · subst hk
        simp [note] at h
      · simp only [note, Function.update_of_ne hk] at h
        rw [hmemory key hk]
        exact hi.memory key clock' older h (hne key hk)
    · intro key older h
      by_cases hk : key = lockKey strategyUuid direction
      · subst hk
        simp [note] at h
      · simp only [note, Function.update_of_ne hk] at h
        rw [hredis key hk]
        exact hi.released key older h
  · rename_i hlocked
    refine ⟨hgate, hchannel, ?_, ?_, ?_⟩
    · intro key clock' older h _
      by_cases hk : key = lockKey strategyUuid direction
      · subst hk
        simp only [note, Function.update_self, List.cons.injEq, Passage.passed.injEq,
          reduceCtorEq, false_and, or_false] at h
        rw [hself (Bool.eq_false_iff.mpr hlocked), h.1]
      · simp only [note, Function.update_of_ne hk] at h
        rw [hmemory key hk]
        exact hi.memory key clock' older h (hne key hk)
    · intro key older h
      by_cases hk : key = lockKey strategyUuid direction
      · subst hk
        simp [note] at h
      · simp only [note, Function.update_of_ne hk] at h
        rw [hredis key hk]
        exact hi.released key older h
    · intro key older hstage h
      cases hstage
      simp [note] at h

theorem Inv.signal (hi : Inv cfg s) {strategyUuid direction : String}
    (h : s.step cfg (.signal strategyUuid direction) = some s') : Inv cfg s' := by
  simp only [GateState.step] at h
  split at h
  · rename_i hstage
    have hidle : s.locks.calls .gate = .idle := hi.gate.trans (by rw [hstage]; rfl)
    have hchannel : s.locks.calls .channel = .idle := hi.channel.trans (by rw [hstage]; rfl)
    split at h
    · rename_i locks answer ht
      cases h
      rcases LockState.isThereATradeLock_cases hidle ht with ⟨rfl, ha, -⟩ | ⟨-, ha, -⟩
      · cases ha
        exact hi.gated hidle hchannel (by simp) (.inl (by rw [hstage]; rfl)) (fun _ _ => rfl)
          fun _ _ => rfl
      · cases ha
    · rename_i locks ht
      cases h
      rcases LockState.isThereATradeLock_cases hidle ht with ⟨-, ha, -⟩ | ⟨rfl, -, -⟩
      · cases ha
      · refine ⟨by simp [LockState.goTo, GateStage.gateCall], ?_, ?_, hi.released,
          fun _ _ h => by cases h⟩
        · simpa [LockState.goTo, LockState.remember, GateStage.channelCall] using hchannel
        · intro key clock older hhead hne
          have hk : key ≠ lockKey strategyUuid direction := fun h => hne (by rw [h]; rfl)
          have := hi.memory key clock older hhead (by rw [hstage]; simp [GateStage.gateKey])
          simpa [LockState.goTo, LockState.remember, Function.update_of_ne hk] using this
    · cases h
  · cases h

theorem Inv.gateReply (hi : Inv cfg s) {reply : Reply}
    (h : s.step cfg (.gateReply reply) = some s') : Inv cfg s' := by
  simp only [GateState.step] at h
  split at h
  · rename_i strategyUuid direction clock hstage
    have hcall := hi.gate
    have hchannel := hi.channel
    simp only [hstage, GateStage.gateCall, GateStage.channelCall] at hcall hchannel
    split at h
    · rename_i locks answer ht
      cases h
      obtain ⟨hidle, hredis, hmemory, hanswer⟩ := LockState.setIfNotExists_cases hcall ht
      have hkept := LockState.frame_of_transition ht (j := .channel) (by simp [LockAction.caller])
      refine hi.gated hidle (hkept.2.trans hchannel) ?_ (.inr (by rw [hstage]; rfl)) hmemory hredis
      intro hfree
      split at hanswer
      · exact hanswer.2
      · rw [Option.some.inj hanswer] at hfree
        cases hfree
    · cases h
  · cases h

/-- A released lock is gone from the store, and the gate still remembers it. -/
theorem Inv.releaseReply (hi : Inv cfg s) {reply : Reply}
    (h : s.step cfg (.releaseReply reply) = some s') : Inv cfg s' := by
  simp only [GateState.step] at h
  split at h
  · rename_i strategyUuid direction hstage
    have hgate := hi.gate
    have hcall := hi.channel
    simp only [hstage, GateStage.gateCall, GateStage.channelCall] at hgate hcall
    unfold GateState.channelStep at h
    split at h
    · rename_i locks answer ht
      cases h
      obtain ⟨hmemory, hcalls⟩ :=
        LockState.frame_of_transition ht (j := .gate) (by simp [LockAction.caller])
      refine ⟨hcalls.trans hgate, ?_, ?_, ?_, fun _ _ h => by cases h⟩
      · simp only [LockState.transition, hcall] at ht
        split at ht <;>
        · cases ht
          exact LockState.goTo_calls_self ..
      · intro key clock older hhead _
        rw [hmemory]
        refine hi.memory key clock older ?_ (by rw [hstage]; simp [GateStage.gateKey])
        by_cases hk : key = lockKey strategyUuid direction
        · subst hk
          simp only [note, Function.update_self, List.cons.injEq, reduceCtorEq, false_and,
            false_or] at hhead
          exact .inl hhead.2
        · simpa only [note, Function.update_of_ne hk] using hhead
      · intro key older hhead
        by_cases hk : key = lockKey strategyUuid direction
        · subst hk
          simp only [note, Function.update_self, List.cons.injEq, Passage.rejected.injEq,
            decide_eq_true_eq] at hhead
          obtain ⟨rfl, -⟩ := hhead
          simp only [LockState.transition, hcall] at ht
          cases ht
          exact Function.update_self ..
        · simp only [note, Function.update_of_ne hk] at hhead
          rcases LockState.redis_of_transition ht key with hr | hr | ⟨⟨i, hi', hwrites⟩, -⟩
          · exact hr.trans (hi.released key older hhead)
          · exact hr
          · cases hi'
            rw [hcall] at hwrites
            cases hwrites
    · cases h
  · cases h

/-- Another client sets a lock only with an entry in the journal. -/
theorem Inv.other (hi : Inv cfg s) {action : LockAction (Client κ)}
    (h : s.step cfg (.other action) = some s') : Inv cfg s' := by
  simp only [GateState.step] at h
  split at h
  · rename_i k hcaller
    split at h
    · rename_i locks answer ht
      cases h
      have hgate := LockState.frame_of_transition ht (j := .gate) (by simp [hcaller])
      have hchannel := LockState.frame_of_transition ht (j := .channel) (by simp [hcaller])
      refine hi.frame (hgate.2.trans hi.gate) (hchannel.2.trans hi.channel) hgate.1 rfl
        (fun _ h => h) ?_ ?_
      · intro key
        simp only [noteSet]
        split
        · exact .inr (.inr rfl)
        · exact .inl rfl
      · intro key older hsame hhead
        rcases LockState.redis_of_transition ht key with hr | hr | ⟨-, w, hlog, hw⟩
        · exact hr.trans (hi.released key older hhead)
        · exact hr
        · simp [noteSet, hlog, hw] at hsame
    · cases h
  · cases h

theorem inv_step {action : GateAction κ} (hi : Inv cfg s) (h : s.step cfg action = some s') :
    Inv cfg s' := by
  have hkeep : ∀ key, s.journal key = s.journal key ∨ s.journal key = .ended :: s.journal key :=
    fun _ => .inl rfl
  cases action with
  | advance elapsed =>
    simp only [GateState.step] at h
    refine hi.channelStep h (by simp [LockAction.caller]) hi.gate ?_ (by simp [LockAction.caller])
      rfl (fun _ h => h) hkeep
    intro locks answer ht
    cases ht
    exact hi.channel
  | signal strategyUuid direction => exact hi.signal h
  | gateReply reply => exact hi.gateReply h
  | request known blocked =>
    simp only [GateState.step] at h
    split at h
    · rename_i strategyUuid direction hstage
      have hgate := hi.gate
      have hcall := hi.channel
      simp only [hstage, GateStage.gateCall, GateStage.channelCall] at hgate hcall
      split at h
      · refine hi.channelStep h (by simp [LockAction.caller]) hgate ?_ (by simp [LockAction.caller])
          (by rw [hstage]; rfl) (by rw [hstage]; exact fun _ h => h) hkeep
        intro locks answer ht
        simp only [LockState.transition, hcall] at ht
        cases ht
        exact LockState.goTo_calls_self ..
      · cases h
        refine hi.frame hgate hcall rfl (by rw [hstage]; rfl) (fun _ h => by cases h) ?_ ?_
        · exact fun key => (note_of_ended _ key).imp_right .inl
        · exact fun key older _ hhead => hi.released key older hhead
    · cases h
  | extendReply reply =>
    simp only [GateState.step] at h
    split at h
    · rename_i strategyUuid direction clock hstage
      have hgate := hi.gate
      have hcall := hi.channel
      simp only [hstage, GateStage.gateCall, GateStage.channelCall] at hgate hcall
      refine hi.channelStep h (by simp [LockAction.caller]) hgate ?_ (by simp [LockAction.caller])
        (by rw [hstage]; rfl) (by rw [hstage]; exact fun _ h => h) hkeep
      exact fun locks answer ht => LockState.setString_idle hcall ht
    · cases h
  | outcome status =>
    simp only [GateState.step] at h
    split at h
    · rename_i strategyUuid direction hstage
      have hgate := hi.gate
      have hcall := hi.channel
      simp only [hstage, GateStage.gateCall, GateStage.channelCall] at hgate hcall
      cases status with
      | accepted =>
        cases h
        refine hi.frame hgate hcall rfl (by rw [hstage]; rfl) (fun _ h => by cases h) ?_ ?_
        · exact fun key => (note_of_ended _ key).imp_right .inl
        · exact fun key older _ hhead => hi.released key older hhead
      | rejected | failed =>
        refine hi.channelStep h (by simp [LockAction.caller]) hgate ?_ (by simp [LockAction.caller])
          (by rw [hstage]; rfl) (by rw [hstage]; exact fun _ h => h) hkeep
        intro locks answer ht
        simp only [LockState.transition, hcall] at ht
        cases ht
        exact LockState.goTo_calls_self ..
    · cases h
  | releaseReply reply => exact hi.releaseReply h
  | brakeReply reply =>
    simp only [GateState.step] at h
    split at h
    · rename_i strategyUuid direction clock hstage
      have hgate := hi.gate
      have hcall := hi.channel
      simp only [hstage, GateStage.gateCall, GateStage.channelCall] at hgate hcall
      refine hi.channelStep h (by simp [LockAction.caller]) hgate ?_ (by simp [LockAction.caller])
        (by rw [hstage]; rfl) (fun _ h => by cases h) (note_of_ended _)
      exact fun locks answer ht => LockState.setString_idle hcall ht
    · cases h
  | other action => exact hi.other h

theorem run_inv {now : ℤ} {redis : Expiring.Store String String ℤ} {actions : List (GateAction κ)}
    (h : Transition.exec (step cfg) (GateState.fresh now redis) actions = some s) : Inv cfg s :=
  Transition.exec_invariant (fun _ _ _ => inv_step) (.fresh now redis) h

/-- What happens around the worker leaves it where it stands. -/
theorem stage_of_around {actions : List (GateAction κ)}
    (haround : Transition.Along (step cfg) (fun _ a => Around a) s actions)
    (h : Transition.exec (step cfg) s actions = some s') : s'.stage = s.stage := by
  refine Transition.exec_invariant_along (I := fun t => t.stage = s.stage) ?_ rfl haround h
  intro t a t' ht ha hstep
  cases a with
  | advance elapsed =>
    cases hstep
    exact ht
  | other action =>
    simp only [GateState.step] at hstep
    split at hstep
    · split at hstep
      · cases hstep
        exact ht
      · cases hstep
    · cases hstep
  | signal | gateReply | request | extendReply | outcome | releaseReply | brakeReply =>
    exact ha.elim

/-! ## Re-entry -/

/-- After a rejection whose release succeeded, and with no set by another client, the worker's next
signal on the lock passes exactly when its call is answered and the gate's memory of the passage
before, which the release does not reach, has run out. -/
theorem early_reentry (cfg : GateConfig κ) {now : ℤ} {redis : Expiring.Store String String ℤ}
    {before between : List (GateAction κ)} {s s₁ s₂ : GateState κ}
    {strategyUuid direction : String} {clock : ℤ} {older : List Passage} (reply : Reply)
    (hbefore : Transition.exec (step cfg) (fresh now redis) before = some s)
    (hrejected : s.journal (lockKey strategyUuid direction) =
      .rejected true :: .passed clock :: older)
    (hsignal : s.step cfg (.signal strategyUuid direction) = some s₁)
    (haround : Transition.Along (step cfg) (fun _ a => Around a) s₁ between)
    (hbetween : Transition.exec (step cfg) s₁ between = some s₂)
    (hquiet : s₂.journal (lockKey strategyUuid direction) =
      s₁.journal (lockKey strategyUuid direction)) :
    (∃ s', s₂.step cfg (.gateReply reply) = some s' ∧ s'.journal (lockKey strategyUuid direction) =
      .passed s.locks.now :: s₂.journal (lockKey strategyUuid direction)) ↔
    reply = .answered ∧ clock + cfg.lockTtl ≤ s.locks.now := by
  have hi := run_inv hbefore
  have hi₁ := inv_step hi hsignal
  have hi₂ : Inv cfg s₂ := Transition.exec_invariant (fun _ _ _ => inv_step) hi₁ hbetween
  have hstage₂ := stage_of_around haround hbetween
  simp only [GateState.step] at hsignal
  split at hsignal
  · rename_i hstage
    have hidle : s.locks.calls .gate = .idle := hi.gate.trans (by rw [hstage]; rfl)
    have hheld : s.locks.heldUntil .gate (lockKey strategyUuid direction) =
        some (clock + cfg.lockTtl) :=
      hi.memory _ clock older (.inr hrejected) (by rw [hstage]; simp [GateStage.gateKey])
    split at hsignal
    · -- The memory is fresh: the call has ended, and there is nothing to answer.
      rename_i locks answer ht
      cases hsignal
      rcases LockState.isThereATradeLock_cases hidle ht with ⟨rfl, ha, until_, huntil, hlt⟩ |
        ⟨-, ha, -⟩
      · cases ha
        cases hheld.symm.trans huntil
        have hblocked : s₂.stage = .idle := hstage₂.trans rfl
        refine iff_of_false ?_ fun h => absurd h.2 (not_le.mpr hlt)
        rintro ⟨s', hs', -⟩
        simp [GateState.step, hblocked] at hs'
      · cases ha
    · rename_i locks ht
      cases hsignal
      rcases LockState.isThereATradeLock_cases hidle ht with ⟨-, ha, -⟩ | ⟨rfl, -, hstale⟩
      · cases ha
      · have habsent : ¬ s₂.locks.redis.Held s₂.locks.now (lockKey strategyUuid direction) := by
          have hnone := hi₂.released _ _ (hquiet.trans hrejected)
          simp [Expiring.Store.Held, Expiring.Store.get, hnone]
        have hcall := hi₂.gate
        rw [hstage₂] at hcall
        refine Iff.trans ?_ (and_iff_left (hstale _ hheld)).symm
        constructor
        · rintro ⟨s', hs', hpassed⟩
          by_contra hreply
          simp only [GateState.step, hstage₂] at hs'
          split at hs'
          · rename_i locks' answer ht'
            have hanswer := (LockState.setIfNotExists_cases hcall ht').2.2.2
            rw [if_neg (fun h => hreply h.1)] at hanswer
            cases hanswer
            cases hs'
            simp [gated, note] at hpassed
          · cases hs'
        · rintro rfl
          have ht' : ∃ locks, s₂.locks.transition cfg.owner (.setIfNotExists .gate .answered) =
              some (locks, some ⟨.gate, lockKey strategyUuid direction, false⟩) := by
            simp only [LockState.transition, hcall, GateStage.gateCall, decide_eq_false habsent,
              Reply.runs, Bool.not_false, Bool.and_self, if_true]
            exact ⟨_, rfl⟩
          obtain ⟨locks', ht'⟩ := ht'
          refine ⟨s₂.gated strategyUuid direction s.locks.now locks'
            ⟨.gate, lockKey strategyUuid direction, false⟩, ?_, ?_⟩
          · simp only [GateState.step, hstage₂, ht']
          · simp [gated, note]
    · cases hsignal
  · cases hsignal

/-- Two seconds after a rejection the store no longer holds the lock, and the gate still answers
that it is held. -/
theorem early_reentry_blocked :
    let cfg : GateConfig Unit := { owner := fun _ => "live" }
    let key := lockKey "alpha" "LONG"
    let before : List (GateAction Unit) := [.signal "alpha" "LONG", .gateReply .answered,
      .request true false, .extendReply .answered, .outcome .rejected, .releaseReply .answered,
      .advance 2000000]
    ∃ s s', Transition.exec (step cfg) (fresh 0 .empty) before = some s ∧
      s.journal key = [.rejected true, .passed 0] ∧ s.locks.now < cfg.lockTtl ∧
      s.locks.redis.get s.locks.now key = none ∧
      s.step cfg (.signal "alpha" "LONG") = some s' ∧ s'.stage = .idle ∧
      s'.journal key = .blocked :: s.journal key := by
  intro cfg key before
  refine ⟨_, _, rfl, rfl, ?_, rfl, rfl, rfl, rfl⟩
  decide

/-- A passage whose lock the store set a second after the gate had read its clock: at thirty seconds
the gate has forgotten it, the lock would have a second left, and the signal passes. -/
theorem early_reentry_late :
    let cfg : GateConfig Unit := { owner := fun _ => "live" }
    let key := lockKey "alpha" "LONG"
    let before : List (GateAction Unit) := [.signal "alpha" "LONG", .advance 1000000,
      .gateReply .answered, .request true false, .extendReply .answered, .outcome .rejected,
      .releaseReply .answered, .advance 29000000]
    ∃ s s₁, Transition.exec (step cfg) (fresh 0 .empty) before = some s ∧
      s.step cfg (.signal "alpha" "LONG") = some s₁ ∧
      ((∃ s', s₁.step cfg (.gateReply .answered) = some s' ∧
          s'.journal key = .passed s.locks.now :: s₁.journal key) ↔
        Reply.answered = .answered ∧ 0 + cfg.lockTtl ≤ s.locks.now) ∧
      0 + cfg.lockTtl ≤ s.locks.now := by
  intro cfg key before
  have hrun : Transition.exec (step cfg) (fresh 0 .empty) before = some _ := rfl
  have haround : ∀ s, Transition.Along (step cfg) (fun _ a => Around a) s [] := fun _ => trivial
  have hbetween : ∀ s, Transition.exec (step cfg) s [] = some s := fun _ => rfl
  refine ⟨_, _, hrun, rfl, ?_, by decide⟩
  exact early_reentry cfg .answered hrun rfl rfl (haround _) (hbetween _) rfl

end GateState

end Live

end BacktestEngine

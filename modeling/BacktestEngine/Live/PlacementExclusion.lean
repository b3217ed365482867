import BacktestEngine.Live.OpenPlacement
import BacktestEngine.Live.TradeLocks

/-! # Placements in flight

Any number of workers share a strategy. Each takes the trade lock at its gate, extends it
before it places an order, and releases or extends it again when the placement has ended.
The lock is a lease: it keeps the others out as long as what its holder does takes less
than its time to live.
-/

namespace BacktestEngine

namespace Live

/-! ## How long a placement takes -/

/-- The longest an exchange with the broker takes. -/
def attemptTimeout : ℤ := 30 * second

/-- The longest a request takes that is tried again this many times. -/
def executeBound : ℕ → ℤ
  | 0 => attemptTimeout
  | retries + 1 => executeBound retries + 2 ^ (retries + 1) * second + attemptTimeout

/-- The pause before every poll of a confirm but the first, 300 milliseconds. -/
def confirmDelay : ℤ := 300000

/-- The longest the exchanges of a trace take, with the pauses between its polls. -/
def traceBound (trace : List RequestExchange) : ℤ :=
  (trace.map fun exchange => executeBound exchange.command.options.transportRetries).sum +
    (trace.length - 2 : ℕ) * confirmDelay

/-- The longest an open takes in the transport. -/
def openBound (confirmAttempts : ℕ) : ℤ :=
  executeBound 0 + confirmAttempts * executeBound 2 + (confirmAttempts - 1 : ℕ) * confirmDelay

theorem attemptTimeout_nonneg : 0 ≤ attemptTimeout := by decide

theorem executeBound_nonneg (retries : ℕ) : 0 ≤ executeBound retries := by
  induction retries with
  | zero => exact attemptTimeout_nonneg
  | succ retries ih =>
    have hpause : 0 ≤ 2 ^ (retries + 1) * second := by unfold second; positivity
    have htimeout := attemptTimeout_nonneg
    simp only [executeBound]
    omega

/-- Whatever becomes of its requests, an open stays within its bound. -/
theorem makeOpen_traceBound {D : Type} [JsonText D] (confirmAttempts : ℕ) (order : TradeOpenObj D)
    (context : OrderContext) (peer : Program.Peer BrokerRequest fun _ => RequestOutcome) :
    traceBound ((makeOpen ask confirmAttempts order context).play peer).1 ≤
      openBound confirmAttempts := by
  obtain ⟨outcome, polls, htrace, hplaced⟩ :=
    makeOpen_yields (Program.yields_play peer (makeOpen ask confirmAttempts order context))
  have hpolls : polls.map (fun exchange => executeBound exchange.command.options.transportRetries) =
      List.replicate polls.length (executeBound 2) := by
    rw [List.eq_replicate_iff]
    constructor
    · exact List.length_map _
    · intro bound hbound
      obtain ⟨poll, hpoll, rfl⟩ := List.mem_map.mp hbound
      obtain ⟨confirmReference, hconfirm⟩ := hplaced.confirms poll hpoll
      rw [hconfirm]
      rfl
  have hlength := hplaced.atMost
  have hexecute : (polls.length : ℤ) * executeBound 2 ≤ confirmAttempts * executeBound 2 :=
    mul_le_mul_of_nonneg_right (by exact_mod_cast hlength) (executeBound_nonneg 2)
  have hdelay : ((polls.length - 1 : ℕ) : ℤ) * confirmDelay ≤
      (confirmAttempts - 1 : ℕ) * confirmDelay :=
    mul_le_mul_of_nonneg_right (by exact_mod_cast Nat.sub_le_sub_right hlength 1) (by decide)
  rw [htrace, traceBound, openBound, List.map_cons, hpolls, List.sum_cons, List.sum_replicate,
    nsmul_eq_mul]
  exact add_le_add (add_le_add_right hexecute _) hdelay

/-! ## Workers -/

/-- The two instances of the locks that a worker has. -/
inductive LockRole
  | gate
  | channel
  deriving DecidableEq

/-- Where a worker stands with a signal, when it last set the lock, and when the placement
ended. -/
inductive FlightStage
  | idle
  | gating (strategyUuid direction : String)
  | checking (strategyUuid direction : String) (passedAt : ℤ)
  | extending (strategyUuid direction : String) (passedAt : ℤ)
  | placing (strategyUuid direction : String) (extendedAt : ℤ)
  | releasing (strategyUuid direction : String) (extendedAt endedAt : ℤ)
  | braking (strategyUuid direction : String) (extendedAt endedAt : ℤ)
  deriving DecidableEq

structure FlightConfig (κ : Type) where
  lockTtl : ℤ := 30 * second
  failureTtl : ℤ := 120 * second
  owner : κ × LockRole → String

structure FlightState (κ : Type) where
  locks : LockState (κ × LockRole)
  workers : κ → FlightStage

/-- What can happen; every command on the locks is answered. -/
inductive FlightAction (κ : Type)
  | advance (elapsed : ℕ)
  | signal (k : κ) (strategyUuid direction : String)
  | gateReply (k : κ)
  | request (k : κ) (known blocked : Bool)
  | extendReply (k : κ)
  | outcome (k : κ) (status : OpenStatus)
  | releaseReply (k : κ)
  | brakeReply (k : κ)

namespace FlightState

variable {κ : Type} [DecidableEq κ] (cfg : FlightConfig κ) (s : FlightState κ)

/-- The worker goes on to a stage while the locks become these. -/
def goTo (k : κ) (locks : LockState (κ × LockRole)) (stage : FlightStage) : FlightState κ :=
  ⟨locks, Function.update s.workers k stage⟩

/-- A command on the locks, and the stage it leads the worker to. -/
def command (k : κ) (action : LockAction (κ × LockRole)) (stage : FlightStage) :
    Option (FlightState κ) :=
  (s.locks.transition cfg.owner action).map fun result => s.goTo k result.1 stage

/-- The stage after the gate has answered. -/
def gated (strategyUuid direction : String) (answer : LockAnswer (κ × LockRole)) : FlightStage :=
  if answer.locked then .idle else .checking strategyUuid direction s.locks.now

def step (s : FlightState κ) : FlightAction κ → Option (FlightState κ)
  | .advance elapsed =>
    (s.locks.transition cfg.owner (.advance elapsed)).map fun result => { s with locks := result.1 }
  | .signal k strategyUuid direction =>
    match s.workers k with
    | .idle =>
      match s.locks.transition cfg.owner
          (.isThereATradeLock (k, .gate) strategyUuid direction cfg.lockTtl) with
      | some (locks, some answer) => some (s.goTo k locks (s.gated strategyUuid direction answer))
      | some (locks, none) => some (s.goTo k locks (.gating strategyUuid direction))
      | none => none
    | _ => none
  | .gateReply k =>
    match s.workers k with
    | .gating strategyUuid direction =>
      match s.locks.transition cfg.owner (.setIfNotExists (k, .gate) .answered) with
      | some (locks, some answer) => some (s.goTo k locks (s.gated strategyUuid direction answer))
      | _ => none
    | _ => none
  | .request k known blocked =>
    match s.workers k with
    | .checking strategyUuid direction passedAt =>
      if known && !blocked then
        s.command cfg k (.extendLock (k, .channel) strategyUuid direction cfg.lockTtl)
          (.extending strategyUuid direction passedAt)
      else some (s.goTo k s.locks .idle)
    | _ => none
  | .extendReply k =>
    match s.workers k with
    | .extending strategyUuid direction _ =>
      s.command cfg k (.setString (k, .channel) .answered)
        (.placing strategyUuid direction s.locks.now)
    | _ => none
  | .outcome k status =>
    match s.workers k with
    | .placing strategyUuid direction extendedAt =>
      match status with
      | .accepted => some (s.goTo k s.locks .idle)
      | .rejected =>
        s.command cfg k (.releaseLock (k, .channel) strategyUuid direction)
          (.releasing strategyUuid direction extendedAt s.locks.now)
      | .failed =>
        s.command cfg k (.extendLock (k, .channel) strategyUuid direction cfg.failureTtl)
          (.braking strategyUuid direction extendedAt s.locks.now)
    | _ => none
  | .releaseReply k =>
    match s.workers k with
    | .releasing _ _ _ _ => s.command cfg k (.deleteKey (k, .channel) .answered) .idle
    | _ => none
  | .brakeReply k =>
    match s.workers k with
    | .braking _ _ _ _ => s.command cfg k (.setString (k, .channel) .answered) .idle
    | _ => none

/-- Workers that have just started, over keys that may be left from before. -/
def fresh (now : ℤ) (redis : Expiring.Store String String ℤ) : FlightState κ where
  locks := .fresh now redis
  workers _ := .idle

end FlightState

/-! ## Latencies -/

/-- The longest a worker takes from the gate's set to its `extendLock`, from there to the outcome
of the placement, and from there to the last command on the lock. -/
structure Latency where
  check : ℕ
  place : ℕ
  settle : ℕ

namespace FlightStage

/-- The lock of a signal on its way, and when the worker last set it. -/
def lease : FlightStage → Option (String × ℤ)
  | idle | gating _ _ => none
  | checking strategyUuid direction passedAt | extending strategyUuid direction passedAt =>
    some (lockKey strategyUuid direction, passedAt)
  | placing strategyUuid direction extendedAt | releasing strategyUuid direction extendedAt _
  | braking strategyUuid direction extendedAt _ => some (lockKey strategyUuid direction, extendedAt)

/-- The worker has not been in its stage for too long. -/
def Timely (lat : Latency) (now : ℤ) : FlightStage → Prop
  | idle | gating _ _ => True
  | checking _ _ passedAt | extending _ _ passedAt => now ≤ passedAt + lat.check
  | placing _ _ extendedAt => now ≤ extendedAt + lat.place
  | releasing _ _ extendedAt endedAt | braking _ _ extendedAt endedAt =>
    endedAt ≤ extendedAt + lat.place ∧ now ≤ endedAt + lat.settle

/-- The calls of the worker's two instances. -/
def Awaits (lockTtl failureTtl : ℤ) (gate channel : LockCall) : FlightStage → Prop
  | gating strategyUuid direction =>
    (∃ start, gate = .checking (lockKey strategyUuid direction) start lockTtl) ∧ channel = .idle
  | extending strategyUuid direction _ =>
    gate = .idle ∧ ∃ start, channel = .extending (lockKey strategyUuid direction) start lockTtl
  | releasing strategyUuid direction _ _ =>
    gate = .idle ∧ channel = .releasing (lockKey strategyUuid direction)
  | braking strategyUuid direction _ _ =>
    gate = .idle ∧ ∃ start, channel = .extending (lockKey strategyUuid direction) start failureTtl
  | idle | checking _ _ _ | placing _ _ _ => gate = .idle ∧ channel = .idle

/-- A timely worker is within its lease when the lease covers every latency. -/
theorem Timely.lt {lat : Latency} {now since lockTtl : ℤ} {stage : FlightStage} {key : String}
    (h : stage.Timely lat now) (hlease : stage.lease = some (key, since))
    (hcheck : lat.check < lockTtl) (hplace : lat.place + lat.settle < lockTtl) :
    now < since + lockTtl := by
  cases stage with
  | idle | gating => cases hlease
  | checking | extending | placing =>
    cases hlease
    simp only [Timely] at h
    omega
  | releasing | braking =>
    cases hlease
    simp only [Timely] at h
    omega

end FlightStage

namespace FlightState

variable {κ : Type} [DecidableEq κ] {cfg : FlightConfig κ} {lat : Latency} {s s' : FlightState κ}

/-- No worker is late. -/
def Timely (lat : Latency) (s : FlightState κ) : Prop :=
  ∀ k, (s.workers k).Timely lat s.locks.now

variable (cfg lat) in
/-- The step leaves no worker late. -/
def InTime (s : FlightState κ) (action : FlightAction κ) : Prop :=
  ∀ s', s.step cfg action = some s' → s'.Timely lat

/-- The worker's placement is between its `extendLock` and its outcome. -/
def Placing (s : FlightState κ) (k : κ) (strategyUuid direction : String) : Prop :=
  ∃ extendedAt, s.workers k = .placing strategyUuid direction extendedAt

variable (cfg) in
/-- The worker is about to delete a lock that another has acquired since its own ran out. -/
def DeletesForeign (s : FlightState κ) (k : κ) : Prop :=
  ∃ strategyUuid direction extendedAt endedAt,
    s.workers k = .releasing strategyUuid direction extendedAt endedAt ∧
      s.locks.redis.Held s.locks.now (lockKey strategyUuid direction) ∧
      ∃ j ≠ k, ∃ time ttl, extendedAt + cfg.lockTtl ≤ time ∧
        .acquired (j, .gate) time ttl ∈ s.locks.log (lockKey strategyUuid direction)

variable (cfg) in
/-- What the trade lock is to keep apart. -/
structure Excludes (s : FlightState κ) : Prop where
  alone : ∀ i j strategyUuid direction, s.Placing i strategyUuid direction →
    s.Placing j strategyUuid direction → i = j
  own : ∀ k, ¬ s.DeletesForeign cfg k

/-! ## The lease covers the latencies -/

variable (cfg lat) in
/-- Every signal on its way has its lock to itself until the time to live has passed. -/
structure Inv (s : FlightState κ) : Prop where
  tracks : Lease.Tracks s.locks.redis s.locks.log s.locks.now
  timely : s.Timely lat
  awaits : ∀ k, (s.workers k).Awaits cfg.lockTtl cfg.failureTtl (s.locks.calls (k, .gate))
    (s.locks.calls (k, .channel))
  leased : ∀ k key since, (s.workers k).lease = some (key, since) →
    ∃ value, s.locks.redis key = some (value, since + cfg.lockTtl)
  alone : ∀ i j key since since', (s.workers i).lease = some (key, since) →
    (s.workers j).lease = some (key, since') → i = j

omit [DecidableEq κ] in
theorem Inv.fresh (now : ℤ) (redis : Expiring.Store String String ℤ) :
    Inv cfg lat (FlightState.fresh now redis) := by
  constructor
  · exact .fresh redis now
  · exact fun _ => trivial
  · exact fun _ => ⟨rfl, rfl⟩
  · intro k key since h
    cases h
  · intro i j key since since' h
    cases h

omit [DecidableEq κ] in
/-- A lock on its way is held in the store. -/
theorem Inv.held (hi : Inv cfg lat s) (hcheck : lat.check < cfg.lockTtl)
    (hplace : lat.place + lat.settle < cfg.lockTtl) {k : κ} {key : String} {since : ℤ}
    (h : (s.workers k).lease = some (key, since)) : s.locks.redis.Held s.locks.now key := by
  obtain ⟨value, hvalue⟩ := hi.leased k key since h
  exact Expiring.Store.held_iff.mpr ⟨value, _, hvalue, (hi.timely k).lt h hcheck hplace⟩

omit [DecidableEq κ] in
theorem Inv.excludes (hi : Inv cfg lat s) (hcheck : lat.check < cfg.lockTtl)
    (hplace : lat.place + lat.settle < cfg.lockTtl) : s.Excludes cfg := by
  constructor
  · rintro i j strategyUuid direction ⟨since, hsince⟩ ⟨since', hsince'⟩
    exact hi.alone i j (lockKey strategyUuid direction) since since' (by rw [hsince]; rfl)
      (by rw [hsince']; rfl)
  · rintro k ⟨strategyUuid, direction, extendedAt, endedAt, hstage, -, j, -, time, ttl, hlate, hmem⟩
    have hpast : time ≤ s.locks.now := hi.tracks.past _ _ hmem
    have hlease : (s.workers k).lease = some (lockKey strategyUuid direction, extendedAt) := by
      rw [hstage]
      rfl
    have hlt := (hi.timely k).lt hlease hcheck hplace
    omega

/-- A worker's command keeps the invariant when it keeps the locks of the others, and what it leaves
on its way is leased and no other's. -/
theorem Inv.act (hi : Inv cfg lat s) {k : κ} {action : LockAction (κ × LockRole)}
    {locks : LockState (κ × LockRole)} {answer : Option (LockAnswer (κ × LockRole))}
    {stage : FlightStage} (h : s.locks.transition cfg.owner action = some (locks, answer))
    (hcaller : ∀ j ≠ k, ∀ role, action.caller ≠ some (j, role))
    (htimely : (s.goTo k locks stage).Timely lat)
    (hawaits : stage.Awaits cfg.lockTtl cfg.failureTtl (locks.calls (k, .gate))
      (locks.calls (k, .channel)))
    (hothers : ∀ j ≠ k, ∀ key since, (s.workers j).lease = some (key, since) →
      locks.redis key = s.locks.redis key)
    (hleased : ∀ key since, stage.lease = some (key, since) →
      ∃ value, locks.redis key = some (value, since + cfg.lockTtl))
    (halone : ∀ j ≠ k, ∀ key since since', stage.lease = some (key, since) →
      (s.workers j).lease ≠ some (key, since')) : Inv cfg lat (s.goTo k locks stage) := by
  have hself : (s.goTo k locks stage).workers k = stage := Function.update_self ..
  have hother : ∀ j ≠ k, (s.goTo k locks stage).workers j = s.workers j :=
    fun j hj => Function.update_of_ne hj ..
  constructor
  · exact (LockState.effect_of_transition h).tracks hi.tracks
  · exact htimely
  · intro j
    by_cases hj : j = k
    · rw [hj, hself]
      exact hawaits
    · rw [hother j hj]
      have hgate := (LockState.frame_of_transition h (hcaller j hj .gate)).2
      have hchannel := (LockState.frame_of_transition h (hcaller j hj .channel)).2
      simp only [goTo, hgate, hchannel]
      exact hi.awaits j
  · intro j key since hlease
    by_cases hj : j = k
    · rw [hj, hself] at hlease
      exact hleased key since hlease
    · rw [hother j hj] at hlease
      rw [goTo, hothers j hj key since hlease]
      exact hi.leased j key since hlease
  · intro i j key since since' hi' hj'
    by_cases hik : i = k
    · by_cases hjk : j = k
      · rw [hik, hjk]
      · rw [hik, hself] at hi'
        rw [hother j hjk] at hj'
        exact absurd hj' (halone j hjk key since since' hi')
    · rw [hother i hik] at hi'
      by_cases hjk : j = k
      · rw [hjk, hself] at hj'
        exact absurd hi' (halone i hik key since' since hj')
      · rw [hother j hjk] at hj'
        exact hi.alone i j key since since' hi' hj'

theorem Inv.advance (hi : Inv cfg lat s) {elapsed : ℕ}
    (h : s.step cfg (.advance elapsed) = some s') (htimely : s'.Timely lat) : Inv cfg lat s' := by
  cases h
  constructor
  · exact hi.tracks.later (by simp)
  · exact htimely
  · exact hi.awaits
  · exact hi.leased
  · exact hi.alone

/-- A command that starts or ends a call, and sets no lock, keeps what is on its way. -/
theorem Inv.call (hi : Inv cfg lat s) {k : κ} {action : LockAction (κ × LockRole)}
    {locks : LockState (κ × LockRole)} {answer : Option (LockAnswer (κ × LockRole))}
    {stage : FlightStage} (h : s.locks.transition cfg.owner action = some (locks, answer))
    (hcaller : ∀ j ≠ k, ∀ role, action.caller ≠ some (j, role))
    (htimely : (s.goTo k locks stage).Timely lat)
    (hawaits : stage.Awaits cfg.lockTtl cfg.failureTtl (locks.calls (k, .gate))
      (locks.calls (k, .channel)))
    (hredis : locks.redis = s.locks.redis)
    (hlease : ∀ key since, stage.lease = some (key, since) →
      (s.workers k).lease = some (key, since)) : Inv cfg lat (s.goTo k locks stage) := by
  apply hi.act h hcaller htimely hawaits
  · intro j _ key since _
    rw [hredis]
  · intro key since hstage
    rw [hredis]
    exact hi.leased k key since (hlease key since hstage)
  · intro j hj key since since' hstage hother
    exact hj (hi.alone j k key since' since hother (hlease key since hstage))

/-- A signal that has ended without a command leaves the others as they are. -/
theorem Inv.drop (hi : Inv cfg lat s) {k : κ} (hgate : s.locks.calls (k, .gate) = .idle)
    (hchannel : s.locks.calls (k, .channel) = .idle)
    (htimely : (s.goTo k s.locks .idle).Timely lat) : Inv cfg lat (s.goTo k s.locks .idle) := by
  have hadvance : s.locks.transition cfg.owner (.advance 0) = some (s.locks, none) := by
    simp [LockState.transition]
  apply hi.call hadvance (by simp [LockAction.caller]) htimely ⟨hgate, hchannel⟩ rfl
  intro key since hlease
  cases hlease

omit [DecidableEq κ] in
theorem ne_of_caller {k : κ} {role : LockRole} {action : LockAction (κ × LockRole)}
    (h : action.caller = some (k, role)) :
    ∀ j ≠ k, ∀ r, action.caller ≠ some (j, r) := by
  intro j hj r hr
  rw [h] at hr
  cases hr
  exact hj rfl

theorem Inv.signal (hi : Inv cfg lat s) {k : κ} {strategyUuid direction : String}
    (h : s.step cfg (.signal k strategyUuid direction) = some s') (htimely : s'.Timely lat) :
    Inv cfg lat s' := by
  simp only [step] at h
  split at h
  · rename_i hstage
    have hcalls := hi.awaits k
    rw [hstage] at hcalls
    obtain ⟨hgate, hchannel⟩ := hcalls
    split at h
    · rename_i locks answer ht
      cases h
      obtain ⟨rfl, hanswer, -⟩ | ⟨-, hanswer, -⟩ := LockState.isThereATradeLock_cases hgate ht
      · cases hanswer
        exact hi.drop hgate hchannel htimely
      · cases hanswer
    · rename_i locks ht
      cases h
      obtain ⟨-, hanswer, -⟩ | ⟨rfl, -, -⟩ := LockState.isThereATradeLock_cases hgate ht
      · cases hanswer
      · apply hi.call ht (ne_of_caller rfl) htimely _ rfl
        · intro key since hlease
          cases hlease
        · constructor
          · exact ⟨_, LockState.goTo_calls_self ..⟩
          · simpa [LockState.goTo, LockState.remember] using hchannel
    · cases h
  · cases h

theorem Inv.gateReply (hi : Inv cfg lat s) (hcheck : lat.check < cfg.lockTtl)
    (hplace : lat.place + lat.settle < cfg.lockTtl) {k : κ}
    (h : s.step cfg (.gateReply k) = some s') (htimely : s'.Timely lat) : Inv cfg lat s' := by
  simp only [step] at h
  split at h
  · rename_i strategyUuid direction hstage
    have hcalls := hi.awaits k
    rw [hstage] at hcalls
    obtain ⟨⟨start, hgate⟩, hchannel⟩ := hcalls
    by_cases hheld : s.locks.redis.Held s.locks.now (lockKey strategyUuid direction)
    · -- another set the lock, and the signal is dropped
      have ht : s.locks.transition cfg.owner (.setIfNotExists (k, .gate) .answered) =
          some (s.locks.goTo (k, .gate) .idle,
            some ⟨(k, .gate), lockKey strategyUuid direction, true⟩) := by
        simp [LockState.transition, hgate, hheld]
      rw [ht] at h
      cases h
      apply hi.call ht (ne_of_caller rfl) htimely _ rfl
      · intro key since hlease
        cases hlease
      · constructor
        · exact LockState.goTo_calls_self ..
        · simpa [LockState.goTo] using hchannel
    · have ht : ∃ locks, s.locks.transition cfg.owner (.setIfNotExists (k, .gate) .answered) =
          some (locks, some ⟨(k, .gate), lockKey strategyUuid direction, false⟩) ∧
          locks.redis = s.locks.redis.set (lockKey strategyUuid direction) (cfg.owner (k, .gate))
            (s.locks.now + cfg.lockTtl) ∧ locks.calls (k, .gate) = .idle ∧
          locks.calls (k, .channel) = .idle := by
        simp [LockState.transition, hgate, hheld, Lease.Reply.runs, LockState.goTo,
          LockState.remember, LockState.write, hchannel]
      obtain ⟨locks, ht, hredis, hgate', hchannel'⟩ := ht
      rw [ht] at h
      cases h
      have hfree : ∀ j since, (s.workers j).lease ≠ some (lockKey strategyUuid direction, since) :=
        fun j since hlease => hheld (hi.held hcheck hplace hlease)
      apply hi.act ht (ne_of_caller rfl) htimely ⟨hgate', hchannel'⟩
      · intro j _ key since hlease
        have hne : key ≠ lockKey strategyUuid direction := by
          rintro rfl
          exact hfree j since hlease
        rw [hredis]
        exact Function.update_of_ne hne ..
      · intro key since hlease
        cases hlease
        rw [hredis]
        exact ⟨_, Function.update_self ..⟩
      · intro j _ key since since' hlease
        cases hlease
        exact hfree j since'
  · cases h

/-- A worker sets or deletes the lock of its own signal, which is no other's. -/
theorem Inv.write (hi : Inv cfg lat s) {k : κ} {action : LockAction (κ × LockRole)}
    {locks : LockState (κ × LockRole)} {answer : Option (LockAnswer (κ × LockRole))}
    {stage : FlightStage} {key : String} {since : ℤ}
    (hlease : (s.workers k).lease = some (key, since))
    (h : s.locks.transition cfg.owner action = some (locks, answer))
    (hcaller : ∀ j ≠ k, ∀ role, action.caller ≠ some (j, role))
    (htimely : (s.goTo k locks stage).Timely lat)
    (hawaits : stage.Awaits cfg.lockTtl cfg.failureTtl (locks.calls (k, .gate))
      (locks.calls (k, .channel)))
    (hredis : ∀ other ≠ key, locks.redis other = s.locks.redis other)
    (hleased : ∀ own start, stage.lease = some (own, start) →
      own = key ∧ ∃ value, locks.redis key = some (value, start + cfg.lockTtl)) :
    Inv cfg lat (s.goTo k locks stage) := by
  have hne : ∀ j ≠ k, ∀ other start, (s.workers j).lease = some (other, start) → other ≠ key := by
    rintro j hj other start hother rfl
    exact hj (hi.alone j k _ start since hother hlease)
  apply hi.act h hcaller htimely hawaits
  · intro j hj other start hother
    exact hredis other (hne j hj other start hother)
  · intro own start hstage
    obtain ⟨rfl, hvalue⟩ := hleased own start hstage
    exact hvalue
  · intro j hj own start start' hstage hother
    exact hne j hj own start' hother (hleased own start hstage).1

theorem command_cases {k : κ} {action : LockAction (κ × LockRole)} {stage : FlightStage}
    (h : s.command cfg k action stage = some s') :
    ∃ locks answer, s.locks.transition cfg.owner action = some (locks, answer) ∧
      s' = s.goTo k locks stage := by
  obtain ⟨⟨locks, answer⟩, ht, rfl⟩ := Option.map_eq_some_iff.mp h
  exact ⟨locks, answer, ht, rfl⟩

theorem Inv.request (hi : Inv cfg lat s) {k : κ} {known blocked : Bool}
    (h : s.step cfg (.request k known blocked) = some s') (htimely : s'.Timely lat) :
    Inv cfg lat s' := by
  simp only [step] at h
  split at h
  · rename_i strategyUuid direction passedAt hstage
    have hcalls := hi.awaits k
    rw [hstage] at hcalls
    obtain ⟨hgate, hchannel⟩ := hcalls
    split at h
    · obtain ⟨locks, answer, ht, rfl⟩ := command_cases h
      have hstep := ht
      simp only [LockState.transition, hchannel, Option.some.injEq, Prod.mk.injEq] at hstep
      obtain ⟨rfl, -⟩ := hstep
      apply hi.call ht (ne_of_caller rfl) htimely _ rfl
      · intro key since hlease
        rwa [hstage]
      · constructor
        · simpa [LockState.goTo] using hgate
        · exact ⟨_, LockState.goTo_calls_self ..⟩
    · cases h
      exact hi.drop hgate hchannel htimely
  · cases h

/-- What an answered set of a worker's own lock does. -/
theorem setString_eq {k : κ} {key : String} {start ttl : ℤ}
    (hcall : s.locks.calls (k, .channel) = .extending key start ttl) {locks : LockState (κ × LockRole)}
    {answer : Option (LockAnswer (κ × LockRole))}
    (h : s.locks.transition cfg.owner (.setString (k, .channel) .answered) = some (locks, answer)) :
    locks.now = s.locks.now ∧ locks.calls (k, .channel) = .idle ∧
      locks.calls (k, .gate) = s.locks.calls (k, .gate) ∧
      locks.redis = s.locks.redis.set key (cfg.owner (k, .channel)) (s.locks.now + ttl) := by
  simp only [LockState.transition, hcall] at h
  cases h
  simp [LockState.goTo, LockState.remember, LockState.write, Lease.Reply.runs]

theorem Inv.extendReply (hi : Inv cfg lat s) {k : κ} (h : s.step cfg (.extendReply k) = some s')
    (htimely : s'.Timely lat) : Inv cfg lat s' := by
  simp only [step] at h
  split at h
  · rename_i strategyUuid direction passedAt hstage
    have hcalls := hi.awaits k
    rw [hstage] at hcalls
    obtain ⟨hgate, start, hchannel⟩ := hcalls
    obtain ⟨locks, answer, ht, rfl⟩ := command_cases h
    obtain ⟨-, hchannel', hgate', hredis⟩ := setString_eq hchannel ht
    have hlease : (s.workers k).lease = some (lockKey strategyUuid direction, passedAt) := by
      rw [hstage]
      rfl
    apply hi.write hlease ht (ne_of_caller rfl) htimely ⟨hgate'.trans hgate, hchannel'⟩
    · intro other hother
      rw [hredis]
      exact Function.update_of_ne hother ..
    · intro own start' hown
      cases hown
      rw [hredis]
      exact ⟨rfl, _, Function.update_self ..⟩
  · cases h

theorem Inv.outcome (hi : Inv cfg lat s) {k : κ} {status : OpenStatus}
    (h : s.step cfg (.outcome k status) = some s') (htimely : s'.Timely lat) :
    Inv cfg lat s' := by
  simp only [step] at h
  split at h
  · rename_i strategyUuid direction extendedAt hstage
    have hcalls := hi.awaits k
    rw [hstage] at hcalls
    obtain ⟨hgate, hchannel⟩ := hcalls
    cases status with
    | accepted =>
      cases h
      exact hi.drop hgate hchannel htimely
    | rejected =>
      obtain ⟨locks, answer, ht, rfl⟩ := command_cases h
      have hstep := ht
      simp only [LockState.transition, hchannel, Option.some.injEq, Prod.mk.injEq] at hstep
      obtain ⟨rfl, -⟩ := hstep
      apply hi.call ht (ne_of_caller rfl) htimely _ rfl
      · intro key since hlease
        rwa [hstage]
      · constructor
        · simpa [LockState.goTo, LockState.remember] using hgate
        · exact LockState.goTo_calls_self ..
    | failed =>
      obtain ⟨locks, answer, ht, rfl⟩ := command_cases h
      have hstep := ht
      simp only [LockState.transition, hchannel, Option.some.injEq, Prod.mk.injEq] at hstep
      obtain ⟨rfl, -⟩ := hstep
      apply hi.call ht (ne_of_caller rfl) htimely _ rfl
      · intro key since hlease
        rwa [hstage]
      · constructor
        · simpa [LockState.goTo] using hgate
        · exact ⟨_, LockState.goTo_calls_self ..⟩
  · cases h

theorem Inv.releaseReply (hi : Inv cfg lat s) {k : κ} (h : s.step cfg (.releaseReply k) = some s')
    (htimely : s'.Timely lat) : Inv cfg lat s' := by
  simp only [step] at h
  split at h
  · rename_i strategyUuid direction extendedAt endedAt hstage
    have hcalls := hi.awaits k
    rw [hstage] at hcalls
    obtain ⟨hgate, hchannel⟩ := hcalls
    obtain ⟨locks, answer, ht, rfl⟩ := command_cases h
    have hlease : (s.workers k).lease = some (lockKey strategyUuid direction, extendedAt) := by
      rw [hstage]
      rfl
    have hstep := ht
    simp only [LockState.transition, hchannel] at hstep
    cases hstep
    apply hi.write hlease ht (ne_of_caller rfl) htimely
    · constructor
      · simpa [LockState.goTo] using hgate
      · exact LockState.goTo_calls_self ..
    · intro other hother
      exact Function.update_of_ne hother ..
    · intro own start hown
      cases hown
  · cases h

theorem Inv.brakeReply (hi : Inv cfg lat s) {k : κ} (h : s.step cfg (.brakeReply k) = some s')
    (htimely : s'.Timely lat) : Inv cfg lat s' := by
  simp only [step] at h
  split at h
  · rename_i strategyUuid direction extendedAt endedAt hstage
    have hcalls := hi.awaits k
    rw [hstage] at hcalls
    obtain ⟨hgate, start, hchannel⟩ := hcalls
    obtain ⟨locks, answer, ht, rfl⟩ := command_cases h
    obtain ⟨-, hchannel', hgate', hredis⟩ := setString_eq hchannel ht
    have hlease : (s.workers k).lease = some (lockKey strategyUuid direction, extendedAt) := by
      rw [hstage]
      rfl
    apply hi.write hlease ht (ne_of_caller rfl) htimely ⟨hgate'.trans hgate, hchannel'⟩
    · intro other hother
      rw [hredis]
      exact Function.update_of_ne hother ..
    · intro own start' hown
      cases hown
  · cases h

theorem inv_step (hcheck : lat.check < cfg.lockTtl) (hplace : lat.place + lat.settle < cfg.lockTtl)
    {action : FlightAction κ} (hi : Inv cfg lat s) (htimely : s.InTime cfg lat action)
    (h : s.step cfg action = some s') : Inv cfg lat s' := by
  have htimely' := htimely s' h
  cases action with
  | advance elapsed => exact hi.advance h htimely'
  | signal k strategyUuid direction => exact hi.signal h htimely'
  | gateReply k => exact hi.gateReply hcheck hplace h htimely'
  | request k known blocked => exact hi.request h htimely'
  | extendReply k => exact hi.extendReply h htimely'
  | outcome k status => exact hi.outcome h htimely'
  | releaseReply k => exact hi.releaseReply h htimely'
  | brakeReply k => exact hi.brakeReply h htimely'

/-- In a run without a late worker, workers whose lease covers every latency are kept apart. -/
theorem run_excludes (hcheck : lat.check < cfg.lockTtl)
    (hplace : lat.place + lat.settle < cfg.lockTtl) {now : ℤ}
    {redis : Expiring.Store String String ℤ} {actions : List (FlightAction κ)}
    (htimely : Transition.Along (step cfg) (InTime cfg lat) (FlightState.fresh now redis) actions)
    (hrun : Transition.exec (step cfg) (FlightState.fresh now redis) actions = some s) :
    s.Excludes cfg :=
  have hi : Inv cfg lat s := Transition.exec_invariant_along
    (fun _ _ _ hi htimely h => inv_step hcheck hplace hi htimely h) (.fresh now redis) htimely hrun
  hi.excludes hcheck hplace

/-! ## Workers that outlive their lease -/

section

/-- Two workers that share a strategy. -/
def sharing (lockTtl failureTtl : ℤ) : FlightConfig Bool := ⟨lockTtl, failureTtl, fun _ => "live"⟩

attribute [local simp] Transition.Along Transition.exec InTime Timely FlightStage.Timely
  FlightState.step FlightState.goTo command gated sharing FlightState.fresh LockState.fresh
  LockState.transition LockState.goTo LockState.remember LockState.write Lease.Reply.runs
  Expiring.Store.Held Expiring.Store.get Expiring.Store.set Expiring.Store.empty

variable (failureTtl : ℤ) {lat : Latency} (n p q : ℕ)

/-- The second worker passes the gate while the first is still with the cluster check. -/
def overtakenAtCheck (n : ℕ) : List (FlightAction Bool) :=
  [.signal false "alpha" "LONG", .gateReply false, .advance n, .signal true "alpha" "LONG",
    .gateReply true, .request false true false, .extendReply false, .request true true false,
    .extendReply true]

theorem overtakenAtCheck_inTime (h : n ≤ lat.check) :
    Transition.Along (step (sharing n failureTtl)) (InTime (sharing n failureTtl) lat)
      (fresh 0 .empty) (overtakenAtCheck n) := by
  simp [overtakenAtCheck]
  omega

theorem overtakenAtCheck_placing : ∃ t,
    Transition.exec (step (sharing n failureTtl)) (fresh 0 .empty) (overtakenAtCheck n) = some t ∧
      t.Placing false "alpha" "LONG" ∧ t.Placing true "alpha" "LONG" := by
  simp [overtakenAtCheck, Placing]

/-- The second worker passes the gate while the first is still placing its order. -/
def overtakenInPlacement (n : ℕ) : List (FlightAction Bool) :=
  [.signal false "alpha" "LONG", .gateReply false, .request false true false, .extendReply false,
    .advance n, .signal true "alpha" "LONG", .gateReply true, .request true true false,
    .extendReply true]

theorem overtakenInPlacement_inTime (h : n ≤ lat.place) :
    Transition.Along (step (sharing n failureTtl)) (InTime (sharing n failureTtl) lat)
      (fresh 0 .empty) (overtakenInPlacement n) := by
  simp [overtakenInPlacement]
  omega

theorem overtakenInPlacement_placing : ∃ t,
    Transition.exec (step (sharing n failureTtl)) (fresh 0 .empty) (overtakenInPlacement n) =
        some t ∧
      t.Placing false "alpha" "LONG" ∧ t.Placing true "alpha" "LONG" := by
  simp [overtakenInPlacement, Placing]

/-- The second worker passes the gate while the first one's release is on its way. -/
def releasedLate (p q : ℕ) : List (FlightAction Bool) :=
  [.signal false "alpha" "LONG", .gateReply false, .request false true false, .extendReply false,
    .advance p, .outcome false .rejected, .advance q, .signal true "alpha" "LONG", .gateReply true]

theorem releasedLate_inTime (hplace : p ≤ lat.place) (hsettle : q ≤ lat.settle) :
    Transition.Along (step (sharing (p + q : ℕ) failureTtl))
      (InTime (sharing (p + q : ℕ) failureTtl) lat) (fresh 0 .empty) (releasedLate p q) := by
  simp [releasedLate]
  omega

theorem releasedLate_deletes (hpos : 0 < p + q) : ∃ t,
    Transition.exec (step (sharing (p + q : ℕ) failureTtl)) (fresh 0 .empty) (releasedLate p q) =
        some t ∧ t.DeletesForeign (sharing (p + q : ℕ) failureTtl) false := by
  simp [releasedLate, DeletesForeign]
  omega

end

/-- In every run of any number of workers without a late one, the trade lock keeps placements
apart. -/
def KeepsApart (lockTtl failureTtl : ℤ) (lat : Latency) : Prop :=
  ∀ (κ : Type) [DecidableEq κ] (owner : κ × LockRole → String) (now : ℤ)
    (redis : Expiring.Store String String ℤ) (actions : List (FlightAction κ)) (t : FlightState κ),
    Transition.Along (step ⟨lockTtl, failureTtl, owner⟩) (InTime ⟨lockTtl, failureTtl, owner⟩ lat)
      (fresh now redis) actions →
    Transition.exec (step ⟨lockTtl, failureTtl, owner⟩) (fresh now redis) actions = some t →
      t.Excludes ⟨lockTtl, failureTtl, owner⟩

/-- The trade lock keeps placements apart when, and only when, its time to live is longer than a
worker takes from the gate to its `extendLock`, and longer than from there to the last command on
the lock. -/
theorem placement_exclusion (lockTtl failureTtl : ℤ) (lat : Latency) (hpos : 0 < lockTtl) :
    KeepsApart lockTtl failureTtl lat ↔
      lat.check < lockTtl ∧ lat.place + lat.settle < lockTtl := by
  constructor
  · intro hkeeps
    obtain ⟨n, rfl⟩ := Int.eq_ofNat_of_zero_le hpos.le
    constructor
    · by_contra hlate
      obtain ⟨t, hrun, hfirst, hsecond⟩ := overtakenAtCheck_placing failureTtl n
      have hexcludes := hkeeps Bool _ 0 .empty _ t
        (overtakenAtCheck_inTime failureTtl n (by omega)) hrun
      exact Bool.false_ne_true (hexcludes.alone _ _ _ _ hfirst hsecond)
    · by_contra hlate
      by_cases hplace : n ≤ lat.place
      · obtain ⟨t, hrun, hfirst, hsecond⟩ := overtakenInPlacement_placing failureTtl n
        have hexcludes := hkeeps Bool _ 0 .empty _ t
          (overtakenInPlacement_inTime failureTtl n hplace) hrun
        exact Bool.false_ne_true (hexcludes.alone _ _ _ _ hfirst hsecond)
      · have hsum : lat.place + (n - lat.place) = n := by omega
        have hsettle : n - lat.place ≤ lat.settle := by omega
        have hrun := releasedLate_deletes failureTtl lat.place (n - lat.place) (by omega)
        have htimely := releasedLate_inTime failureTtl lat.place (n - lat.place) le_rfl hsettle
        rw [hsum] at hrun htimely
        obtain ⟨t, hrun, hdeletes⟩ := hrun
        exact (hkeeps Bool _ 0 .empty _ t htimely hrun).own false hdeletes
  · rintro ⟨hcheck, hplace⟩ κ _ owner now redis actions t htimely hrun
    exact run_excludes hcheck hplace htimely hrun

/-- A placement of half a minute, well within what an open may take, outlives a lock of thirty
seconds, and another worker places for the same strategy and direction beside it. -/
theorem placement_exclusion_overtaken :
    let cfg := sharing (30 * second) (120 * second)
    let lat : Latency := ⟨0, (openBound 3).toNat, 0⟩
    let actions := overtakenInPlacement 30000000
    Transition.Along (step cfg) (InTime cfg lat) (fresh 0 .empty) actions ∧
      ∃ t, Transition.exec (step cfg) (fresh 0 .empty) actions = some t ∧
        t.Placing false "alpha" "LONG" ∧ t.Placing true "alpha" "LONG" :=
  ⟨overtakenInPlacement_inTime (120 * second) 30000000 (by decide),
    overtakenInPlacement_placing (120 * second) 30000000⟩

/-- A lock of four hundred seconds covers the longest open. -/
theorem placement_exclusion_covered :
    KeepsApart (400 * second) (120 * second) ⟨8000000, (openBound 3).toNat, 2000000⟩ :=
  (placement_exclusion (400 * second) (120 * second) ⟨8000000, (openBound 3).toNat, 2000000⟩
    (by decide)).mpr (by decide)

end FlightState

end Live

end BacktestEngine

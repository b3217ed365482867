import Mathlib.Data.List.Nodup
import BacktestEngine.Queue.DrainLoops

/-! # Names that a drain loses

A popped name is in the hands of one worker until its payload is submitted, or a
document is recorded in its place. A load that throws drops the name of the worker,
and a payload that does not parse drops its own: what is left of such a name is the
text of the document. Nothing ever puts a name back.
-/

namespace BacktestEngine

open QueueKeys Transition

/-- A list that names are pushed to. -/
def NameList (json : QueueJson) (key : String) : Prop :=
  ∃ (kind : DrainKind) (runId : String), key = (kind.drain json).listKey runId

theorem getElem?_listKey (json : QueueJson) (kind : DrainKind) (runId : String) :
    ((kind.drain json).listKey runId).toList[28]? = some ':' ∨
      ((kind.drain json).listKey runId).toList[18]? = some 'S' := by
  cases kind with
  | runs =>
    right
    change (strategyPrefix ++ runId).toList[18]? = some 'S'
    rw [String.toList_append, List.getElem?_append_left (by decide)]
    decide
  | experiments =>
    left
    change (experimentPrefix ++ runId).toList[28]? = some ':'
    rw [String.toList_append, List.getElem?_append_left (by decide)]
    decide

/-- No run is advertised on a list of names. -/
theorem NameList.not_queue {json : QueueJson} {key : String} (h : NameList json key)
    (kind : DrainKind) : key ∉ (kind.drain json).queues := by
  obtain ⟨kd, runId, rfl⟩ := h
  intro hqueue
  have hall : ∀ queue ∈ experimentRun :: runQueues,
      queue.toList[28]? ≠ some ':' ∧ queue.toList[18]? ≠ some 'S' := by decide
  have hmem : (kd.drain json).listKey runId ∈ experimentRun :: runQueues := by
    cases kind with
    | runs => exact List.mem_cons_of_mem _ hqueue
    | experiments => exact List.mem_cons.mpr (.inl (List.mem_singleton.mp hqueue))
  rcases getElem?_listKey json kd runId with h | h
  · exact (hall _ hmem).1 h
  · exact (hall _ hmem).2 h

theorem DrainPhase.held_of_untaken {phase : DrainPhase} {name : String}
    (h : phase.untaken = some name) : phase.held = some name := by
  cases phase with
  | loading queue descriptor runId payloadKey => exact h
  | claimed queue descriptor runId payloadKey => exact h
  | _ => cases h

namespace DrainState

variable (json : QueueJson) (kind : ℕ → DrainKind)

/-- The worker that popped the name still has it. -/
def Held (s : DrainState) (c : Claim) : Prop := (s.worker c.worker).held = some c.key

/-- The payload was taken and submitted to the pool. -/
def Submitted (s : DrainState) (c : Claim) : Prop :=
  ∃ payload, ⟨c.worker, c.key, payload⟩ ∈ s.submitted

/-- A document that names the name was recorded by the worker that had it. -/
def Recorded (s : DrainState) (c : Claim) : Prop :=
  ∃ r ∈ s.documents, r.worker = c.worker ∧ r.about = some c.key ∧ r.doc.Names c.key

/-- The name is on a list again. -/
def Returned (s : DrainState) (c : Claim) : Prop :=
  ∃ key, NameList json key ∧ c.key ∈ s.redis.lists key

/-- Exactly one of the three ends of a name. -/
def Settled (s : DrainState) (c : Claim) : Prop :=
  (s.Submitted c ∧ ¬ s.Recorded c ∧ ¬ s.Returned json c) ∨
    (¬ s.Submitted c ∧ s.Recorded c ∧ ¬ s.Returned json c) ∨
    (¬ s.Submitted c ∧ ¬ s.Recorded c ∧ s.Returned json c)

/-- The name that an action drops, and the document it leaves in its place. -/
def dropping (s : DrainState) : DrainAction → Option (String × EngineException)
  | .load w (some thrown) =>
    match s.worker w with
    | .loading _ _ _ payloadKey => some (payloadKey, (drainOf json kind w).abortedDoc thrown)
    | _ => none
  | .work w =>
    match s.worker w with
    | .holding _ _ runId payloadKey payload =>
      match (drainOf json kind w).parsePayload payload with
      | .ok () => none
      | .error what => some (payloadKey, (drainOf json kind w).skippedDoc runId what)
    | _ => none
  | _ => none

/-- A name is only dropped for a document that can be recorded and names it. -/
def Told (s : DrainState) (a : DrainAction) : Prop :=
  ∀ dropped ∈ s.dropping json kind a,
    json.dumps dropped.2 = true ∧ dropped.2.Names dropped.1

instance (s : DrainState) (a : DrainAction) : Decidable (s.Told json kind a) :=
  inferInstanceAs (Decidable (∀ dropped ∈ s.dropping json kind a, _ ∧ _))

/-- What one step can do. -/
inductive Steps (s : DrainState) : DrainAction → DrainState → Prop
  | set (key value) : Steps s (.set key value) { s with redis := s.redis.set key value }
  | push (kd runId name) (hfresh : name ∉ s.pushed) (hstored : s.redis.strings name ≠ none) :
      Steps s (.push kd runId name) { s with
        pushed := name :: s.pushed
        redis := s.redis.listPushFront ((kd.drain json).listKey runId) name }
  | advertise (kd queue descriptor) (hqueue : queue ∈ (kd.drain json).queues) :
      Steps s (.advertise kd queue descriptor)
        { s with redis := s.redis.listPushFront queue descriptor }
  | move (a w phase) (hheld : phase.held = (s.worker w).held)
      (huntaken : phase.untaken = (s.worker w).untaken) : Steps s a (s.moveTo w phase)
  | report (a w phase doc) (hw : (s.worker w).held = none) (hphase : phase.held = none)
      (huntaken : phase.untaken = none) :
      Steps s a ((s.putEngineException json w none doc).moveTo w phase)
  | pop (w phase name) (kd : DrainKind) (runId) (hw : (s.worker w).held = none)
      (hname : (s.redis.lists ((kd.drain json).listKey runId)).getLast? = some name)
      (hheld : phase.held = some name) (huntaken : phase.untaken = some name) :
      Steps s (.work w) ({ s with
        redis := (s.redis.listPopBack ((kd.drain json).listKey runId)).2
        popped := ⟨w, name⟩ :: s.popped }.moveTo w phase)
  | take (w phase name) (hw : (s.worker w).untaken = some name)
      (hheld : (s.worker w).held = some name) (hphase : phase.held = some name)
      (huntaken : phase.untaken = none) :
      Steps s (.work w) ({ s with redis := (s.redis.getDelete name).2 }.moveTo w phase)
  | missing (w phase name) (hw : (s.worker w).untaken = some name)
      (hnone : s.redis.strings name = none) : Steps s (.work w) (s.moveTo w phase)
  | submit (w phase name payload) (hw : (s.worker w).held = some name)
      (hphase : phase.held = none) (huntaken : phase.untaken = none) :
      Steps s (.work w)
        ({ s with submitted := ⟨w, name, payload⟩ :: s.submitted }.moveTo w phase)
  | drop (a w phase name doc) (hdrop : s.dropping json kind a = some (name, doc))
      (hw : (s.worker w).held = some name) (hphase : phase.held = none)
      (huntaken : phase.untaken = none) :
      Steps s a ((s.putEngineException json w (some name) doc).moveTo w phase)
  | retire (w queue descriptor) (hw : (s.worker w).held = none) :
      Steps s (.work w) ({ s with redis := s.redis.listRemove queue descriptor }.moveTo w .top)

variable {json kind} {s s' : DrainState} {a : DrainAction} {w : ℕ}

theorem Steps.move_of {phase phase' : DrainPhase} (hw : s.worker w = phase)
    (hheld : phase'.held = phase.held) (huntaken : phase'.untaken = phase.untaken) :
    Steps json kind s a (s.moveTo w phase') := by
  subst hw
  exact .move a w phase' hheld huntaken

theorem Steps.report_of {phase phase' : DrainPhase} {doc : EngineException}
    (hw : s.worker w = phase) (hheld : phase.held = none) (hheld' : phase'.held = none)
    (huntaken' : phase'.untaken = none) :
    Steps json kind s a ((s.putEngineException json w none doc).moveTo w phase') := by
  subst hw
  exact .report a w phase' doc hheld hheld' huntaken'

theorem steps_of_work (h : s.work json kind w = some s') : Steps json kind s (.work w) s' := by
  unfold work at h
  dsimp only at h
  cases hw : s.worker w with
  | top =>
    rw [hw] at h
    cases h
    exact .move_of hw rfl rfl
  | looking queues =>
    rw [hw] at h
    cases queues with
    | nil =>
      cases h
      exact .move_of hw rfl rfl
    | cons queue queues =>
      dsimp only at h
      split at h
      · cases h
        exact .move_of hw rfl rfl
      · cases h
        exact .move_of hw rfl rfl
  | peeked queue descriptor =>
    rw [hw] at h
    dsimp only at h
    split at h
    · cases h
      exact .report_of hw rfl rfl rfl
    · cases h
      exact .move_of hw rfl rfl
  | claiming queue descriptor runId =>
    rw [hw] at h
    dsimp only at h
    split at h
    · cases h
      exact .move_of hw rfl rfl
    · rename_i name redis hpop
      cases h
      obtain rfl := congrArg Prod.snd hpop
      exact .pop w _ name (kind w) runId (by rw [hw]; rfl) (congrArg Prod.fst hpop) rfl rfl
  | loading queue descriptor runId name =>
    rw [hw] at h
    cases h
  | claimed queue descriptor runId name =>
    rw [hw] at h
    dsimp only at h
    split at h
    · rename_i redis hget
      cases h
      exact .missing w _ name (by rw [hw]; rfl) (congrArg Prod.fst hget)
    · rename_i payload redis hget
      cases h
      obtain rfl := congrArg Prod.snd hget
      exact .take w _ name (by rw [hw]; rfl) (by rw [hw]; rfl) rfl rfl
  | holding queue descriptor runId name payload =>
    rw [hw] at h
    dsimp only at h
    cases hparse : (drainOf json kind w).parsePayload payload with
    | ok u =>
      rw [hparse] at h
      cases h
      exact .submit w _ name payload (by rw [hw]; rfl) rfl rfl
    | error what =>
      rw [hparse] at h
      cases h
      apply Steps.drop
      · unfold dropping
        dsimp only
        rw [hw]
        dsimp only
        rw [hparse]
      · rw [hw]; rfl
      · rfl
      · rfl
  | resumed queue descriptor runId =>
    rw [hw] at h
    cases h
    exact .move_of hw rfl rfl
  | popping queue descriptor runId =>
    rw [hw] at h
    dsimp only at h
    split at h
    · cases h
      exact .move_of hw rfl rfl
    · rename_i name redis hpop
      cases h
      obtain rfl := congrArg Prod.snd hpop
      exact .pop w _ name (kind w) runId (by rw [hw]; rfl) (congrArg Prod.fst hpop) rfl rfl
  | retiring queue descriptor =>
    rw [hw] at h
    cases h
    exact .retire w queue descriptor (by rw [hw]; rfl)
  | stopping =>
    rw [hw] at h
    cases h
    exact .move_of hw rfl rfl
  | parked =>
    rw [hw] at h
    cases h
  | aborted =>
    rw [hw] at h
    cases h

theorem steps_of_load {thrown : Option Thrown} (h : s.load json kind w thrown = some s') :
    Steps json kind s (.load w thrown) s' := by
  unfold load at h
  split at h
  · rename_i queue descriptor runId name hw
    cases thrown with
    | none =>
      cases h
      exact .move_of hw rfl rfl
    | some thrown =>
      cases h
      apply Steps.drop
      · unfold dropping
        dsimp only
        rw [hw]
      · rw [hw]; rfl
      · rfl
      · rfl
  · cases h

theorem steps_of_taskFailed {thrown : Thrown} (h : s.taskFailed json kind w thrown = some s') :
    Steps json kind s (.taskFailed w thrown) s' := by
  unfold taskFailed at h
  split at h
  · rename_i hw
    cases h
    exact .report_of hw rfl rfl rfl
  · rename_i hw
    cases h
    exact .report_of hw rfl rfl rfl
  · cases h

theorem steps_of_stop (h : s.stop json kind w = some s') : Steps json kind s (.stop w) s' := by
  unfold stop at h
  split at h
  · split at h
    · rename_i hw
      cases h
      exact .move_of hw rfl rfl
    · rename_i queue descriptor runId hw
      cases h
      exact .move_of hw rfl rfl
    · cases h
  · cases h

/-- A step of the system is one of the listed ones. -/
theorem steps_of_step (h : step json kind s a = some s') : Steps json kind s a s' := by
  cases a with
  | set key value =>
    cases h
    exact .set key value
  | push kd runId name =>
    change s.push json kd runId name = some s' at h
    unfold push at h
    split at h
    · cases h
    · rename_i hguard
      cases h
      rw [not_or] at hguard
      exact .push kd runId name hguard.1 hguard.2
  | advertise kd queue descriptor =>
    change s.advertise json kd queue descriptor = some s' at h
    unfold advertise at h
    split at h
    · cases h
      exact .advertise kd queue descriptor ‹_›
    · cases h
  | work w => exact steps_of_work h
  | load w thrown => exact steps_of_load h
  | taskFailed w thrown => exact steps_of_taskFailed h
  | stop w => exact steps_of_stop h

/-! ## Where the names are -/

variable (json) in
/-- A name on a list was never popped and has its payload; a popped name is in the hands of its
worker, or in one submission, or in one document. -/
structure Inv (s : DrainState) : Prop where
  offered : ∀ key, NameList json key → ∀ name ∈ s.redis.lists key,
    name ∈ s.pushed ∧ name ∉ s.popped.map Claim.key ∧ s.redis.strings name ≠ none
  nodup : ∀ key, NameList json key → (s.redis.lists key).Nodup
  unique : ∀ key key', NameList json key → NameList json key' →
    ∀ name ∈ s.redis.lists key, name ∈ s.redis.lists key' → key = key'
  claims : (s.popped.map Claim.key).Nodup
  known : ∀ c ∈ s.popped, c.key ∈ s.pushed
  holder : ∀ w name, (s.worker w).held = some name → ⟨w, name⟩ ∈ s.popped ∧
    (∀ e ∈ s.submitted, e.key ≠ name) ∧ ∀ r ∈ s.documents, r.about ≠ some name
  stored : ∀ w name, (s.worker w).untaken = some name → s.redis.strings name ≠ none
  handed : ∀ e ∈ s.submitted, ⟨e.worker, e.key⟩ ∈ s.popped
  reported : ∀ r ∈ s.documents, ∀ name, r.about = some name → ⟨r.worker, name⟩ ∈ s.popped ∧
    ∀ e ∈ s.submitted, e.key ≠ name

theorem Inv.claim_eq (inv : Inv json s) {c c' : Claim} (h : c ∈ s.popped) (h' : c' ∈ s.popped)
    (hkey : c.key = c'.key) : c = c' :=
  List.inj_on_of_nodup_map inv.claims h h' hkey

@[simp] theorem moveTo_worker (s : DrainState) (w : ℕ) (phase : DrainPhase) (w' : ℕ) :
    (s.moveTo w phase).worker w' = if w' = w then phase else s.worker w' :=
  Function.update_apply ..

theorem putEngineException_moveTo (s : DrainState) (w w' : ℕ) (phase : DrainPhase)
    (about : Option String) (doc : EngineException) :
    (s.moveTo w phase).putEngineException json w' about doc =
      (s.putEngineException json w' about doc).moveTo w phase := by
  unfold putEngineException
  split <;> rfl

section Documents

variable (s : DrainState) (w : ℕ) (about : Option String) (doc : EngineException)

/-- Recording a document changes nothing else. -/
theorem putEngineException_eq : s.putEngineException json w about doc =
    { s with documents := (s.putEngineException json w about doc).documents } := by
  unfold putEngineException
  split <;> rfl

theorem mem_documents {r : Report} : r ∈ (s.putEngineException json w about doc).documents ↔
    (json.dumps doc = true ∧ r = ⟨w, about, doc⟩) ∨ r ∈ s.documents := by
  unfold putEngineException
  split
  · rename_i hdumps
    simp only [List.mem_cons, hdumps, true_and]
  · rename_i hdumps
    simp only [hdumps, Bool.false_eq_true, false_and, false_or]

end Documents

/-! ## One step keeps the invariant -/

theorem Inv.moveTo (inv : Inv json s) {phase : DrainPhase}
    (hheld : ∀ name, phase.held = some name → ⟨w, name⟩ ∈ s.popped ∧
      (∀ e ∈ s.submitted, e.key ≠ name) ∧ ∀ r ∈ s.documents, r.about ≠ some name)
    (huntaken : ∀ name, phase.untaken = some name → s.redis.strings name ≠ none) :
    Inv json (s.moveTo w phase) where
  offered := inv.offered
  nodup := inv.nodup
  unique := inv.unique
  claims := inv.claims
  known := inv.known
  holder w' name h := by
    rw [moveTo_worker] at h
    split at h
    · rename_i hw
      subst hw
      exact hheld name h
    · exact inv.holder w' name h
  stored w' name h := by
    rw [moveTo_worker] at h
    split at h
    · exact huntaken name h
    · exact inv.stored w' name h
  handed := inv.handed
  reported := inv.reported

theorem Inv.release (inv : Inv json s) {phase : DrainPhase} (hheld : phase.held = none)
    (huntaken : phase.untaken = none) : Inv json (s.moveTo w phase) := by
  apply inv.moveTo
  · intro name h
    rw [hheld] at h
    cases h
  · intro name h
    rw [huntaken] at h
    cases h

theorem Inv.submit (inv : Inv json s) {name : String} (payload : String)
    (hclaim : ⟨w, name⟩ ∈ s.popped) (hfree : ∀ w', (s.worker w').held ≠ some name)
    (hdocs : ∀ r ∈ s.documents, r.about ≠ some name) :
    Inv json { s with submitted := ⟨w, name, payload⟩ :: s.submitted } where
  offered := inv.offered
  nodup := inv.nodup
  unique := inv.unique
  claims := inv.claims
  known := inv.known
  holder w' name' h := by
    obtain ⟨hpopped, hsubmitted, hreported⟩ := inv.holder w' name' h
    refine ⟨hpopped, List.forall_mem_cons.mpr ⟨?_, hsubmitted⟩, hreported⟩
    rintro rfl
    exact hfree w' h
  stored := inv.stored
  handed := List.forall_mem_cons.mpr ⟨hclaim, inv.handed⟩
  reported r hr name' h := by
    obtain ⟨hpopped, hsubmitted⟩ := inv.reported r hr name' h
    refine ⟨hpopped, List.forall_mem_cons.mpr ⟨?_, hsubmitted⟩⟩
    rintro rfl
    exact hdocs r hr h

theorem Inv.document (inv : Inv json s) (about : Option String) (doc : EngineException)
    (hclaim : ∀ name, about = some name → ⟨w, name⟩ ∈ s.popped ∧
      (∀ w', (s.worker w').held ≠ some name) ∧ ∀ e ∈ s.submitted, e.key ≠ name) :
    Inv json (s.putEngineException json w about doc) := by
  rw [putEngineException_eq]
  constructor
  case offered => exact inv.offered
  case nodup => exact inv.nodup
  case unique => exact inv.unique
  case claims => exact inv.claims
  case known => exact inv.known
  case stored => exact inv.stored
  case handed => exact inv.handed
  case holder =>
    intro w' name h
    obtain ⟨hpopped, hsubmitted, hreported⟩ := inv.holder w' name h
    refine ⟨hpopped, hsubmitted, fun r hr => ?_⟩
    rcases (mem_documents s w about doc).mp hr with ⟨-, rfl⟩ | hr
    · intro habout
      exact (hclaim name habout).2.1 w' h
    · exact hreported r hr
  case reported =>
    intro r hr name h
    rcases (mem_documents s w about doc).mp hr with ⟨-, rfl⟩ | hr
    · exact ⟨(hclaim name h).1, (hclaim name h).2.2⟩
    · exact inv.reported r hr name h

/-- The store after a command of the other side: lists only shrink, and no payload of a name that
is offered or untaken goes. -/
theorem Inv.shrink (inv : Inv json s) (redis : RedisStore)
    (hlists : ∀ key, NameList json key → (redis.lists key).Sublist (s.redis.lists key))
    (hstrings : ∀ name, s.redis.strings name ≠ none → redis.strings name ≠ none ∨
      (name ∈ s.popped.map Claim.key ∧ ∀ w, (s.worker w).untaken ≠ some name)) :
    Inv json { s with redis := redis } where
  offered key hkey name hname := by
    obtain ⟨hpushed, hpopped, hstored⟩ := inv.offered key hkey name ((hlists key hkey).subset hname)
    refine ⟨hpushed, hpopped, ?_⟩
    rcases hstrings name hstored with h | ⟨h, -⟩
    · exact h
    · exact absurd h hpopped
  nodup key hkey := (inv.nodup key hkey).sublist (hlists key hkey)
  unique key key' hkey hkey' name hname hname' :=
    inv.unique key key' hkey hkey' name ((hlists key hkey).subset hname)
      ((hlists key' hkey').subset hname')
  claims := inv.claims
  known := inv.known
  holder := inv.holder
  stored w name h := by
    rcases hstrings name (inv.stored w name h) with hs | ⟨-, hfree⟩
    · exact hs
    · exact absurd h (hfree w)
  handed := inv.handed
  reported := inv.reported

theorem Inv.push (inv : Inv json s) {key name : String} (hkey : NameList json key)
    (hfresh : name ∉ s.pushed) (hstored : s.redis.strings name ≠ none) :
    Inv json { s with
      pushed := name :: s.pushed
      redis := s.redis.listPushFront key name } := by
  have hunpopped : name ∉ s.popped.map Claim.key := by
    intro h
    obtain ⟨c, hc, rfl⟩ := List.mem_map.mp h
    exact hfresh (inv.known c hc)
  have hunlisted : ∀ key', NameList json key' → name ∉ s.redis.lists key' :=
    fun key' hkey' h => hfresh (inv.offered key' hkey' name h).1
  have hlists : ∀ key', (s.redis.listPushFront key name).lists key' =
      if key' = key then name :: s.redis.lists key else s.redis.lists key' := by simp
  constructor
  case claims => exact inv.claims
  case holder => exact inv.holder
  case stored => exact inv.stored
  case handed => exact inv.handed
  case reported => exact inv.reported
  case known => exact fun c hc => List.mem_cons_of_mem _ (inv.known c hc)
  case offered =>
    intro key' hkey' name' hname'
    have hold : name' ∈ s.redis.lists key' → name' ∈ name :: s.pushed ∧
        name' ∉ s.popped.map Claim.key ∧ s.redis.strings name' ≠ none := by
      intro h
      obtain ⟨hpushed, hrest⟩ := inv.offered key' hkey' name' h
      exact ⟨List.mem_cons_of_mem _ hpushed, hrest⟩
    rw [hlists] at hname'
    split at hname'
    · rename_i hk
      rcases List.mem_cons.mp hname' with rfl | h
      · exact ⟨List.mem_cons_self, hunpopped, hstored⟩
      · exact hold (hk ▸ h)
    · exact hold hname'
  case nodup =>
    intro key' hkey'
    rw [hlists]
    split
    · exact List.nodup_cons.mpr ⟨hunlisted key hkey, inv.nodup key hkey⟩
    · exact inv.nodup key' hkey'
  case unique =>
    intro key₁ key₂ hkey₁ hkey₂ name' h₁ h₂
    rw [hlists] at h₁ h₂
    by_cases hname : name' = name
    · subst hname
      have honly : ∀ key', NameList json key' → name' ∈ (if key' = key then
          name' :: s.redis.lists key else s.redis.lists key') → key' = key := by
        intro key' hkey' h
        split at h
        · assumption
        · exact absurd h (hunlisted key' hkey')
      exact (honly key₁ hkey₁ h₁).trans (honly key₂ hkey₂ h₂).symm
    · have hrest : ∀ key', name' ∈ (if key' = key then name :: s.redis.lists key
          else s.redis.lists key') → name' ∈ s.redis.lists key' := by
        intro key' h
        split at h
        · rename_i hk
          exact hk ▸ (List.mem_cons.mp h).resolve_left hname
        · exact h
      exact inv.unique key₁ key₂ hkey₁ hkey₂ name' (hrest key₁ h₁) (hrest key₂ h₂)

theorem notMem_dropLast {l : List String} {name : String} (hnodup : l.Nodup)
    (hlast : l.getLast? = some name) : name ∉ l.dropLast := by
  intro h
  obtain ⟨init, rfl⟩ := List.getLast?_eq_some_iff.mp hlast
  rw [List.dropLast_concat] at h
  exact (List.nodup_append.mp hnodup).2.2 name h name (List.mem_singleton_self name) rfl

/-- The popped name leaves its list, and it was on no other. -/
theorem Inv.pop (inv : Inv json s) {key name : String} (hkey : NameList json key)
    (hname : (s.redis.lists key).getLast? = some name) :
    Inv json { s with
      redis := (s.redis.listPopBack key).2
      popped := ⟨w, name⟩ :: s.popped } := by
  have hmem : name ∈ s.redis.lists key := List.mem_of_getLast? hname
  obtain ⟨hpushed, hunpopped, hstored⟩ := inv.offered key hkey name hmem
  have hsub : ∀ key', ((s.redis.listPopBack key).2.lists key').Sublist (s.redis.lists key') := by
    intro key'
    rw [RedisStore.listPopBack_lists]
    split
    · rename_i hk
      exact hk ▸ List.dropLast_sublist _
    · exact List.Sublist.refl _
  constructor
  case stored => exact inv.stored
  case nodup => exact fun key' hkey' => (inv.nodup key' hkey').sublist (hsub key')
  case unique =>
    exact fun key₁ key₂ hkey₁ hkey₂ name' h₁ h₂ => inv.unique key₁ key₂ hkey₁ hkey₂ name'
      ((hsub key₁).subset h₁) ((hsub key₂).subset h₂)
  case claims => exact List.nodup_cons.mpr ⟨hunpopped, inv.claims⟩
  case known => exact List.forall_mem_cons.mpr ⟨hpushed, inv.known⟩
  case holder =>
    intro w' name' h
    obtain ⟨hpopped, hrest⟩ := inv.holder w' name' h
    exact ⟨List.mem_cons_of_mem _ hpopped, hrest⟩
  case handed => exact fun e he => List.mem_cons_of_mem _ (inv.handed e he)
  case reported =>
    intro r hr name' h
    obtain ⟨hpopped, hrest⟩ := inv.reported r hr name' h
    exact ⟨List.mem_cons_of_mem _ hpopped, hrest⟩
  case offered =>
    intro key' hkey' name' hname'
    obtain ⟨hpushed', hunpopped', hstored'⟩ :=
      inv.offered key' hkey' name' ((hsub key').subset hname')
    refine ⟨hpushed', ?_, hstored'⟩
    rw [List.map_cons, List.mem_cons, not_or]
    refine ⟨?_, hunpopped'⟩
    rintro rfl
    obtain rfl := inv.unique key key' hkey hkey' name' hmem ((hsub key').subset hname')
    rw [RedisStore.listPopBack_lists, if_pos rfl] at hname'
    exact notMem_dropLast (inv.nodup key hkey) hname hname'

/-- After its worker let go of a name, nobody holds it. -/
theorem Inv.unheld (inv : Inv json s) {name : String} {phase : DrainPhase}
    (hw : (s.worker w).held = some name) (hphase : phase.held = none) (w' : ℕ) :
    ((s.moveTo w phase).worker w').held ≠ some name := by
  rw [moveTo_worker]
  split
  · rw [hphase]
    exact (Option.some_ne_none name).symm
  · rename_i hne
    intro h
    have heq := inv.claim_eq (inv.holder w' name h).1 (inv.holder w name hw).1 rfl
    exact hne (congrArg Claim.worker heq)

theorem Inv.unhanded (inv : Inv json s) {name : String} (h : name ∉ s.popped.map Claim.key) :
    (∀ e ∈ s.submitted, e.key ≠ name) ∧ ∀ r ∈ s.documents, r.about ≠ some name := by
  constructor
  · rintro e he rfl
    exact h (List.mem_map.mpr ⟨_, inv.handed e he, rfl⟩)
  · intro r hr habout
    exact h (List.mem_map.mpr ⟨_, (inv.reported r hr name habout).1, rfl⟩)

/-- Every step keeps the invariant. -/
theorem Inv.step (inv : Inv json s) (h : Steps json kind s a s') : Inv json s' := by
  cases h with
  | set key value =>
    apply inv.shrink
    · exact fun _ _ => List.Sublist.refl _
    · intro name hname
      left
      rw [RedisStore.set_strings]
      split
      · exact Option.some_ne_none value
      · exact hname
  | push kd runId name hfresh hstored => exact inv.push ⟨kd, runId, rfl⟩ hfresh hstored
  | advertise kd queue descriptor hqueue =>
    apply inv.shrink
    · intro key hkey
      rw [RedisStore.listPushFront_lists, if_neg]
      rintro rfl
      exact hkey.not_queue kd hqueue
    · exact fun _ hname => .inl hname
  | move a w phase hheld huntaken =>
    apply inv.moveTo
    · intro name h
      exact inv.holder w name (hheld ▸ h)
    · intro name h
      exact inv.stored w name (huntaken ▸ h)
  | report a w phase doc hw hphase huntaken =>
    rw [← putEngineException_moveTo]
    apply (inv.release hphase huntaken).document
    rintro name' ⟨⟩
  | pop w phase name kd runId hw hname hheld huntaken =>
    have hmem := List.mem_of_getLast? hname
    obtain ⟨-, hunpopped, hstored⟩ := inv.offered _ ⟨kd, runId, rfl⟩ name hmem
    apply (inv.pop ⟨kd, runId, rfl⟩ hname).moveTo
    · intro name' h
      obtain rfl := Option.some.inj (hheld.symm.trans h)
      exact ⟨List.mem_cons_self, inv.unhanded hunpopped⟩
    · intro name' h
      obtain rfl := Option.some.inj (huntaken.symm.trans h)
      exact hstored
  | take w phase name hw hheld hphase huntaken =>
    have hmoved : Inv json (s.moveTo w phase) := by
      apply inv.moveTo
      · intro name' h
        obtain rfl := Option.some.inj (hphase.symm.trans h)
        exact inv.holder w name hheld
      · intro name' h
        rw [huntaken] at h
        cases h
    apply hmoved.shrink (s.redis.getDelete name).2
    · exact fun _ _ => List.Sublist.refl _
    · intro name' hname'
      by_cases hne : name' = name
      · subst hne
        right
        refine ⟨List.mem_map.mpr ⟨_, (inv.holder w name' hheld).1, rfl⟩, fun w' h => ?_⟩
        rw [moveTo_worker] at h
        split at h
        · rw [huntaken] at h
          cases h
        · rename_i hother
          have hheld' := DrainPhase.held_of_untaken h
          have heq := inv.claim_eq (inv.holder w' name' hheld').1 (inv.holder w name' hheld).1 rfl
          exact hother (congrArg Claim.worker heq)
      · left
        rw [RedisStore.getDelete_strings, if_neg hne]
        exact hname'
  | missing w phase name hw hnone => exact absurd hnone (inv.stored w name hw)
  | submit w phase name payload hw hphase huntaken =>
    obtain ⟨hpopped, -, hdocs⟩ := inv.holder w name hw
    exact (inv.release hphase huntaken).submit payload hpopped (inv.unheld hw hphase) hdocs
  | drop a w phase name doc hdrop hw hphase huntaken =>
    obtain ⟨hpopped, hsubmitted, -⟩ := inv.holder w name hw
    rw [← putEngineException_moveTo]
    apply (inv.release hphase huntaken).document
    rintro name' ⟨⟩
    exact ⟨hpopped, inv.unheld hw hphase, hsubmitted⟩
  | retire w queue descriptor hw =>
    apply (inv.release rfl rfl).shrink
    · intro key _
      rw [RedisStore.listRemove_lists]
      split
      · rename_i hk
        exact hk ▸ List.filter_sublist
      · exact List.Sublist.refl _
    · exact fun _ hname => .inl hname

/-! ## What becomes of a name -/

variable {c : Claim}

theorem held_moveTo {phase : DrainPhase} : (s.moveTo w phase).Held c ↔
    if c.worker = w then phase.held = some c.key else s.Held c := by
  rw [Held, moveTo_worker]
  split
  · exact Iff.rfl
  · exact Iff.rfl

theorem submitted_cons {payload name : String} :
    Submitted { s with submitted := ⟨w, name, payload⟩ :: s.submitted } c ↔
      c = ⟨w, name⟩ ∨ s.Submitted c := by
  constructor
  · rintro ⟨payload', he⟩
    rcases List.mem_cons.mp he with he | he
    · cases he
      exact .inl rfl
    · exact .inr ⟨payload', he⟩
  · rintro (rfl | ⟨payload', he⟩)
    · exact ⟨payload, List.mem_cons_self⟩
    · exact ⟨payload', List.mem_cons_of_mem _ he⟩

theorem popped_put {about : Option String} {doc : EngineException} :
    (s.putEngineException json w about doc).popped = s.popped := by
  rw [putEngineException_eq]

theorem submitted_put {about : Option String} {doc : EngineException} :
    (s.putEngineException json w about doc).Submitted c ↔ s.Submitted c := by
  rw [putEngineException_eq]
  exact Iff.rfl

theorem recorded_put {about : Option String} {doc : EngineException} :
    (s.putEngineException json w about doc).Recorded c ↔
      (json.dumps doc = true ∧ w = c.worker ∧ about = some c.key ∧ doc.Names c.key) ∨
        s.Recorded c := by
  constructor
  · rintro ⟨r, hr, hworker, habout, hnames⟩
    rcases (mem_documents s w about doc).mp hr with ⟨hdumps, rfl⟩ | hr
    · exact .inl ⟨hdumps, hworker, habout, hnames⟩
    · exact .inr ⟨r, hr, hworker, habout, hnames⟩
  · rintro (⟨hdumps, hworker, habout, hnames⟩ | ⟨r, hr, hrest⟩)
    · exact ⟨⟨w, about, doc⟩, (mem_documents s w about doc).mpr (.inl ⟨hdumps, rfl⟩), hworker,
        habout, hnames⟩
    · exact ⟨r, (mem_documents s w about doc).mpr (.inr hr), hrest⟩

theorem held_put {about : Option String} {doc : EngineException} {phase : DrainPhase} :
    ((s.putEngineException json w about doc).moveTo w phase).Held c ↔
      if c.worker = w then phase.held = some c.key else s.Held c := by
  rw [putEngineException_eq]
  exact held_moveTo

/-- A name that was let go of keeps what it came to. -/
theorem Inv.released (inv : Inv json s) (hc : c ∈ s.popped) (hfree : ¬ s.Held c)
    (h : Steps json kind s a s') : c ∈ s'.popped ∧ ¬ s'.Held c ∧
      (s'.Submitted c ↔ s.Submitted c) ∧ (s'.Recorded c ↔ s.Recorded c) := by
  cases h with
  | set key value => exact ⟨hc, hfree, Iff.rfl, Iff.rfl⟩
  | push kd runId name hfresh hstored => exact ⟨hc, hfree, Iff.rfl, Iff.rfl⟩
  | advertise kd queue descriptor hqueue => exact ⟨hc, hfree, Iff.rfl, Iff.rfl⟩
  | move a w phase hheld huntaken =>
    refine ⟨hc, ?_, Iff.rfl, Iff.rfl⟩
    rw [held_moveTo]
    split
    · rename_i hw
      rw [hheld, ← hw]
      exact hfree
    · exact hfree
  | report a w phase doc hw hphase huntaken =>
    refine ⟨?_, ?_, submitted_put, ?_⟩
    · change c ∈ (s.putEngineException json w _ doc).popped
      rw [popped_put]
      exact hc
    · rw [held_put]
      split
      · rw [hphase]
        exact (Option.some_ne_none c.key).symm
      · exact hfree
    · apply recorded_put.trans
      constructor
      · rintro (⟨-, -, habout, -⟩ | hrecorded)
        · cases habout
        · exact hrecorded
      · exact .inr
  | pop w phase name kd runId hw hname hheld huntaken =>
    have hunpopped := (inv.offered _ ⟨kd, runId, rfl⟩ name (List.mem_of_getLast? hname)).2.1
    refine ⟨List.mem_cons_of_mem _ hc, ?_, Iff.rfl, Iff.rfl⟩
    rw [held_moveTo]
    split
    · rw [hheld]
      rintro ⟨⟩
      exact hunpopped (List.mem_map.mpr ⟨c, hc, rfl⟩)
    · exact hfree
  | take w phase name hw hheld hphase huntaken =>
    refine ⟨hc, ?_, Iff.rfl, Iff.rfl⟩
    rw [held_moveTo]
    split
    · rename_i hw
      rw [hphase, ← hheld, ← hw]
      exact hfree
    · exact hfree
  | missing w phase name hw hnone => exact absurd hnone (inv.stored w name hw)
  | submit w phase name payload hw hphase huntaken =>
    refine ⟨hc, ?_, submitted_cons.trans ?_, Iff.rfl⟩
    · rw [held_moveTo]
      split
      · rw [hphase]
        exact (Option.some_ne_none c.key).symm
      · exact hfree
    · constructor
      · rintro (rfl | hsubmitted)
        · exact absurd hw hfree
        · exact hsubmitted
      · exact .inr
  | drop a w phase name doc hdrop hw hphase huntaken =>
    refine ⟨?_, ?_, submitted_put, ?_⟩
    · change c ∈ (s.putEngineException json w _ doc).popped
      rw [popped_put]
      exact hc
    · rw [held_put]
      split
      · rw [hphase]
        exact (Option.some_ne_none c.key).symm
      · exact hfree
    · apply recorded_put.trans
      constructor
      · rintro (⟨-, rfl, habout, -⟩ | hrecorded)
        · cases habout
          exact absurd hw hfree
        · exact hrecorded
      · exact .inr
  | retire w queue descriptor hw =>
    refine ⟨hc, ?_, Iff.rfl, Iff.rfl⟩
    rw [held_moveTo]
    split
    · exact (Option.some_ne_none c.key).symm
    · exact hfree

theorem popped_step (h : Steps json kind s a s') (hc : c ∈ s'.popped) :
    c ∈ s.popped ∨ s'.Held c := by
  cases h with
  | report a w phase doc hw hphase huntaken =>
    change c ∈ (s.putEngineException json w none doc).popped at hc
    rw [popped_put] at hc
    exact .inl hc
  | pop w phase name kd runId hw hname hheld huntaken =>
    rcases List.mem_cons.mp hc with rfl | hc
    · right
      rw [held_moveTo, if_pos rfl]
      exact hheld
    · exact .inl hc
  | drop a w phase name doc hdrop hw hphase huntaken =>
    change c ∈ (s.putEngineException json w (some name) doc).popped at hc
    rw [popped_put] at hc
    exact .inl hc
  | _ => exact .inl hc

/-- A name in the hands of a worker stays there, or is submitted, or is dropped for a document. -/
theorem Inv.held_step (inv : Inv json s) (hheld : s.Held c) (h : Steps json kind s a s') :
    s'.Held c ∨ (s'.Submitted c ∧ ¬ s'.Recorded c) ∨
      ∃ doc, s.dropping json kind a = some (c.key, doc) ∧ ¬ s'.Submitted c ∧
        (s'.Recorded c ↔ json.dumps doc = true ∧ doc.Names c.key) := by
  obtain ⟨-, hsubmitted, hdocs⟩ := inv.holder c.worker c.key hheld
  have hunsubmitted : ¬ s.Submitted c := fun ⟨payload, he⟩ => hsubmitted _ he rfl
  have hunrecorded : ¬ s.Recorded c := fun ⟨r, hr, _, habout, _⟩ => hdocs r hr habout
  cases h with
  | set key value => exact .inl hheld
  | push kd runId name hfresh hstored => exact .inl hheld
  | advertise kd queue descriptor hqueue => exact .inl hheld
  | move a w phase hphase huntaken =>
    left
    rw [held_moveTo]
    split
    · rename_i hw
      rw [hphase, ← hw]
      exact hheld
    · exact hheld
  | report a w phase doc hw hphase huntaken =>
    left
    rw [held_put, if_neg]
    · exact hheld
    · rintro rfl
      rw [Held, hw] at hheld
      cases hheld
  | pop w phase name kd runId hw hname hphase huntaken =>
    left
    rw [held_moveTo, if_neg]
    · exact hheld
    · rintro rfl
      rw [Held, hw] at hheld
      cases hheld
  | take w phase name hw hname hphase huntaken =>
    left
    rw [held_moveTo]
    split
    · rename_i hworker
      rw [hphase, ← hname, ← hworker]
      exact hheld
    · exact hheld
  | missing w phase name hw hnone => exact absurd hnone (inv.stored w name hw)
  | submit w phase name payload hw hphase huntaken =>
    by_cases hworker : c.worker = w
    · subst hworker
      obtain rfl := Option.some.inj (hheld.symm.trans hw)
      exact .inr (.inl ⟨submitted_cons.mpr (.inl rfl), hunrecorded⟩)
    · left
      rw [held_moveTo, if_neg hworker]
      exact hheld
  | drop a w phase name doc hdrop hw hphase huntaken =>
    by_cases hworker : c.worker = w
    · subst hworker
      obtain rfl := Option.some.inj (hheld.symm.trans hw)
      refine .inr (.inr ⟨doc, hdrop, fun h => hunsubmitted (submitted_put.mp h), ?_⟩)
      apply recorded_put.trans
      constructor
      · rintro (⟨hdumps, -, -, hnames⟩ | hrecorded)
        · exact ⟨hdumps, hnames⟩
        · exact absurd hrecorded hunrecorded
      · rintro ⟨hdumps, hnames⟩
        exact .inl ⟨hdumps, rfl, rfl, hnames⟩
    · left
      rw [held_put, if_neg hworker]
      exact hheld
  | retire w queue descriptor hw =>
    left
    rw [held_moveTo, if_neg]
    · exact hheld
    · rintro rfl
      rw [Held, hw] at hheld
      cases hheld

theorem dropped_step {name : String} {doc : EngineException}
    (h : step json kind s a = some s') (hdrop : s.dropping json kind a = some (name, doc)) :
    ∃ w phase, s.Held ⟨w, name⟩ ∧ phase.held = none ∧
      s' = (s.putEngineException json w (some name) doc).moveTo w phase := by
  unfold dropping at hdrop
  split at hdrop
  · rename_i w thrown
    split at hdrop
    · rename_i queue descriptor runId payloadKey hw
      cases hdrop
      change s.load json kind w (some thrown) = some s' at h
      unfold load at h
      rw [hw] at h
      cases h
      exact ⟨w, .aborted, by rw [Held, hw]; rfl, rfl, rfl⟩
    · cases hdrop
  · rename_i w
    split at hdrop
    · rename_i queue descriptor runId payloadKey payload hw
      change s.work json kind w = some s' at h
      unfold work at h
      rw [hw] at h
      dsimp only at h
      cases hparse : (drainOf json kind w).parsePayload payload with
      | ok u =>
        rw [hparse] at hdrop
        cases hdrop
      | error what =>
        rw [hparse] at hdrop h
        cases hdrop
        cases h
        exact ⟨w, .resumed queue descriptor runId, by rw [Held, hw]; rfl, rfl, rfl⟩
    · cases hdrop
  · cases hdrop

/-- The name is gone: nobody has it, and neither a submission nor a document is left of it. -/
structure Lost (s : DrainState) (c : Claim) : Prop where
  popped : c ∈ s.popped
  unheld : ¬ s.Held c
  unsubmitted : ¬ s.Submitted c
  unrecorded : ¬ s.Recorded c

theorem Inv.lost_step (inv : Inv json s) (hlost : s.Lost c) (h : Steps json kind s a s') :
    s'.Lost c := by
  obtain ⟨hpopped, hunheld, hsubmitted, hrecorded⟩ := inv.released hlost.popped hlost.unheld h
  constructor
  · exact hpopped
  · exact hunheld
  · rw [hsubmitted]
    exact hlost.unsubmitted
  · rw [hrecorded]
    exact hlost.unrecorded

/-- Names are not pushed twice, so a popped name is on no list. -/
theorem Inv.not_returned (inv : Inv json s) (hc : c ∈ s.popped) : ¬ s.Returned json c := by
  rintro ⟨key, hkey, hmem⟩
  exact (inv.offered key hkey c.key hmem).2.1 (List.mem_map.mpr ⟨c, hc, rfl⟩)

theorem Inv.settled_iff (inv : Inv json s) (hc : c ∈ s.popped) : s.Settled json c ↔
    (s.Submitted c ∧ ¬ s.Recorded c) ∨ (¬ s.Submitted c ∧ s.Recorded c) := by
  have hgone := inv.not_returned hc
  unfold Settled
  tauto

variable (json) in
/-- Every popped name is in the hands of its worker or came to exactly one end. -/
def Accounted (s : DrainState) : Prop := ∀ c ∈ s.popped, s.Held c ∨ s.Settled json c

/-- A step that drops no name untold keeps the account. -/
theorem Inv.accounted_step (inv : Inv json s) (inv' : Inv json s') (hall : s.Accounted json)
    (htold : s.Told json kind a) (h : Steps json kind s a s') : s'.Accounted json := by
  intro c hc'
  by_cases hheld' : s'.Held c
  · exact .inl hheld'
  right
  rw [inv'.settled_iff hc']
  have hc : c ∈ s.popped := (popped_step h hc').resolve_right hheld'
  by_cases hheld : s.Held c
  · rcases inv.held_step hheld h with hkept | hsubmitted | ⟨doc, hdrop, hunsubmitted, hrecorded⟩
    · exact absurd hkept hheld'
    · exact .inl hsubmitted
    · exact .inr ⟨hunsubmitted, hrecorded.mpr (htold _ hdrop)⟩
  · obtain ⟨-, -, hsubmitted, hrecorded⟩ := inv.released hc hheld h
    rw [hsubmitted, hrecorded]
    exact (inv.settled_iff hc).mp ((hall c hc).resolve_left hheld)

/-- A name dropped untold is lost. -/
theorem Inv.lost_of_dropped (inv : Inv json s) {name : String} {doc : EngineException}
    (h : DrainState.step json kind s a = some s')
    (hdrop : s.dropping json kind a = some (name, doc))
    (huntold : ¬ (json.dumps doc = true ∧ doc.Names name)) : ∃ w, s'.Lost ⟨w, name⟩ := by
  obtain ⟨w, phase, hheld, hphase, rfl⟩ := dropped_step h hdrop
  obtain ⟨hpopped, hsubmitted, hdocs⟩ := inv.holder w name hheld
  refine ⟨w, ?_⟩
  constructor
  · change ⟨w, name⟩ ∈ (s.putEngineException json w (some name) doc).popped
    rw [popped_put]
    exact hpopped
  · rw [held_put, if_pos rfl, hphase]
    exact (Option.some_ne_none name).symm
  · intro h
    obtain ⟨payload, he⟩ := submitted_put.mp h
    exact hsubmitted _ he rfl
  · intro h
    rcases recorded_put.mp h with ⟨hdumps, -, -, hnames⟩ | ⟨r, hr, -, habout, -⟩
    · exact huntold ⟨hdumps, hnames⟩
    · exact hdocs r hr habout

theorem start_inv : Inv json start := by
  constructor
  case nodup => exact fun _ _ => List.nodup_nil
  case claims => exact List.nodup_nil
  case offered => rintro key - name ⟨⟩
  case unique => rintro key key' - - name ⟨⟩
  case known => rintro c ⟨⟩
  case holder => rintro w name ⟨⟩
  case stored => rintro w name ⟨⟩
  case handed => rintro e ⟨⟩
  case reported => rintro r ⟨⟩

/-- A lost name stays lost. -/
theorem Inv.lost_run {t : DrainState} {as : List DrainAction} (inv : Inv json s)
    (hlost : s.Lost c) (h : exec (DrainState.step json kind) s as = some t) : t.Lost c := by
  have hboth : Inv json t ∧ t.Lost c := by
    apply exec_invariant (I := fun s => Inv json s ∧ s.Lost c) _ ⟨inv, hlost⟩ h
    rintro s a s' ⟨inv, hlost⟩ hstep
    have hs := steps_of_step hstep
    exact ⟨inv.step hs, inv.lost_step hlost hs⟩
  exact hboth.2

/-- Runs whose steps drop no name untold keep the account. -/
theorem Inv.accounted_run {t : DrainState} {as : List DrainAction} (inv : Inv json s)
    (hall : s.Accounted json) (htold : Along (DrainState.step json kind) (Told json kind) s as)
    (h : exec (DrainState.step json kind) s as = some t) : t.Accounted json := by
  have hboth : Inv json t ∧ t.Accounted json := by
    apply exec_invariant_along (I := fun s => Inv json s ∧ s.Accounted json) _ ⟨inv, hall⟩ htold h
    rintro s a s' ⟨inv, hall⟩ htold hstep
    have hs := steps_of_step hstep
    exact ⟨inv.step hs, inv.accounted_step (inv.step hs) hall htold hs⟩
  exact hboth.2

/-- In a run that ends with every name accounted for, no name was dropped untold. -/
theorem Inv.told_of_accounted {t : DrainState} {as : List DrainAction} (inv : Inv json s)
    (h : exec (DrainState.step json kind) s as = some t) (hall : t.Accounted json) :
    Along (DrainState.step json kind) (Told json kind) s as := by
  induction as generalizing s with
  | nil => trivial
  | cons a as ih =>
    obtain ⟨s', hstep, hrest⟩ := exec_cons.mp h
    have inv' : Inv json s' := inv.step (steps_of_step hstep)
    apply along_cons hstep
    · rintro ⟨name, doc⟩ hdrop
      by_contra huntold
      obtain ⟨w, hlost⟩ := inv.lost_of_dropped hstep hdrop huntold
      have hend := inv'.lost_run hlost hrest
      have invt : Inv json t := exec_invariant
        (fun _ _ _ inv hs => inv.step (steps_of_step hs)) inv' hrest
      rcases hall _ hend.popped with hheld | hsettled
      · exact hend.unheld hheld
      · rcases (invt.settled_iff hend.popped).mp hsettled with ⟨hsub, -⟩ | ⟨-, hrec⟩
        · exact hend.unsubmitted hsub
        · exact hend.unrecorded hrec
    · exact ih inv' hrest

/-- The invariant holds in every reachable state. -/
theorem run_inv {as : List DrainAction} (h : exec (step json kind) start as = some s) :
    Inv json s :=
  exec_invariant (fun _ _ _ inv hs => inv.step (steps_of_step hs)) start_inv h

/-- Every popped name that its worker no longer has is submitted, or recorded by name, or back on
its list, and only one of these, exactly in the runs in which every exception of a load or of a
payload's parser that drops a name leaves a document with that name in its text. -/
theorem popped_names_settled_iff (json : QueueJson) (kind : ℕ → DrainKind) (as : List DrainAction)
    (h : exec (step json kind) start as = some s) :
    (∀ c ∈ s.popped, ¬ s.Held c → s.Settled json c) ↔
      Along (step json kind) (Told json kind) start as := by
  have haccounted : (∀ c ∈ s.popped, ¬ s.Held c → s.Settled json c) ↔ s.Accounted json := by
    constructor
    · intro hall c hc
      exact or_iff_not_imp_left.mpr (hall c hc)
    · intro hall c hc
      exact (hall c hc).resolve_left
  rw [haccounted]
  constructor
  · exact start_inv.told_of_accounted h
  · intro htold
    apply start_inv.accounted_run _ htold h
    rintro c ⟨⟩

/-! ## A load that throws -/

/-- Texts that parse to run a, and documents that can be recorded. -/
def sampleJson : QueueJson where
  parseRunConfiguration _ := .ok "a"
  parseStrategy _ := .ok ()
  parseExperimentRun _ := .ok "a"
  parseExperiment _ := .ok ()
  dumps _ := true

/-- One name is queued and popped, and then the ticks of its run are loaded. -/
def sampleActions (kd : DrainKind) (thrown : Option Thrown) : List DrainAction :=
  [.set "PAYLOAD:a:8c1f" "e30=", .push kd "a" "PAYLOAD:a:8c1f",
    .advertise kd ((kd.drain sampleJson).queues.headD "") "e30=",
    .work 0, .work 0, .work 0, .work 0, .load 0 thrown]

set_option maxRecDepth 10000 in
theorem sampleActions_view (kd : DrainKind) :
    (exec (step sampleJson fun _ => kd) start
      (sampleActions kd (some (.standard "connection refused")))).map
        (fun s => (s.popped, s.worker 0, s.submitted, s.documents.map fun r => r.doc.message)) =
      some ([⟨0, "PAYLOAD:a:8c1f"⟩], .aborted, [], ["connection refused"]) := by
  cases kd <;> decide

theorem not_names_of_refused {doc : EngineException} (h : doc.message = "connection refused") :
    ¬ doc.Names "PAYLOAD:a:8c1f" := by
  have huuid : payloadUuid "PAYLOAD:a:8c1f" = ['8', 'c', '1', 'f'] := by decide
  have htext : "connection refused".toList = ['c', 'o', 'n', 'n', 'e', 'c', 't', 'i', 'o', 'n',
    ' ', 'r', 'e', 'f', 'u', 's', 'e', 'd'] := by decide
  rw [EngineException.Names, h, huuid, htext]
  decide

theorem sample_lost (kd : DrainKind) : ¬ ∀ (json : QueueJson) (as : List DrainAction)
    (s : DrainState), exec (step json fun _ => kd) start as = some s →
      ∀ c ∈ s.popped, ¬ s.Held c → s.Settled json c := by
  intro hall
  obtain ⟨s, hs, hview⟩ := Option.map_eq_some_iff.mp (sampleActions_view kd)
  simp only [Prod.mk.injEq] at hview
  obtain ⟨hpopped, hworker, hsubmitted, hdocuments⟩ := hview
  have hc : (⟨0, "PAYLOAD:a:8c1f"⟩ : Claim) ∈ s.popped := hpopped ▸ List.mem_cons_self
  have hsettled := hall sampleJson _ s hs _ hc (by rw [Held, hworker]; decide)
  rcases ((run_inv hs).settled_iff hc).mp hsettled with ⟨⟨payload, he⟩, -⟩ | ⟨-, r, hr, -, -, hnames⟩
  · rw [hsubmitted] at he
    cases he
  · have hmessage : r.doc.message = "connection refused" := by
      have hmem := List.mem_map_of_mem (f := fun r : Report => r.doc.message) hr
      rw [hdocuments] at hmem
      exact List.mem_singleton.mp hmem
    exact not_names_of_refused hmessage hnames

/-- In both loops the name that was popped before a load that throws is lost. -/
theorem popped_name_lost :
    (¬ ∀ (json : QueueJson) (as : List DrainAction) (s : DrainState),
      exec (step json fun _ => .runs) start as = some s →
        ∀ c ∈ s.popped, ¬ s.Held c → s.Settled json c) ∧
    (¬ ∀ (json : QueueJson) (as : List DrainAction) (s : DrainState),
      exec (step json fun _ => .experiments) start as = some s →
        ∀ c ∈ s.popped, ¬ s.Held c → s.Settled json c) :=
  ⟨sample_lost .runs, sample_lost .experiments⟩

set_option maxRecDepth 10000 in
/-- A load that returns, and the name is submitted. -/
theorem popped_names_settled_iff_loaded :
    ∃ s, exec (step sampleJson fun _ => .runs) start
        (sampleActions .runs none ++ [.work 0, .work 0]) = some s ∧
      s.popped = [⟨0, "PAYLOAD:a:8c1f"⟩] ∧
      ∀ c ∈ s.popped, ¬ s.Held c → s.Settled sampleJson c := by
  have hview : (exec (step sampleJson fun _ => .runs) start
      (sampleActions .runs none ++ [.work 0, .work 0])).map (fun s => s.popped) =
        some [⟨0, "PAYLOAD:a:8c1f"⟩] := by decide
  obtain ⟨s, hs, hpopped⟩ := Option.map_eq_some_iff.mp hview
  exact ⟨s, hs, hpopped, (popped_names_settled_iff sampleJson _ _ hs).mpr (by decide)⟩

end DrainState

end BacktestEngine

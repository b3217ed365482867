import Mathlib.Data.List.Nodup
import BacktestEngine.Queue.WorkQueue

/-! # Safety of the work queue

A run is advertised after its last name is pushed, so the list of an advertised
run only shrinks. A worker that found it empty may therefore retire the advert at
any later time, and the store hands every payload out once.
-/

namespace BacktestEngine

open QueueKeys Transition

def Command.setKey : Command → Option String
  | .set key _ => some key
  | .push _ _ => none
  | .advertise _ _ => none

/-- The payload keys a list of commands will still set. -/
def setKeys (commands : List Command) : List String := commands.filterMap Command.setKey

/-- Run ids and payload keys do not repeat. -/
structure Distinct (jobs : List RunJob) : Prop where
  runIds : (jobs.map RunJob.runId).Nodup
  payloadKeys : (jobs.flatMap RunJob.payloadKeys).Nodup

/-- A descriptor that parses at all names its own run. -/
def Named (codec : Codec) (jobs : List RunJob) : Prop :=
  ∀ job ∈ jobs, ∀ runId, codec.parseRunId (job.descriptor codec) = some runId → runId = job.runId

section Programs

variable {codec : Codec} {jobs : List RunJob} {i : ℕ}

theorem mem_setKeys {commands : List Command} {key : String} :
    key ∈ setKeys commands ↔ ∃ value, Command.set key value ∈ commands := by
  simp only [setKeys, List.mem_filterMap]
  constructor
  · rintro ⟨c, hc, he⟩
    cases c with
    | set k v =>
      cases he
      exact ⟨v, hc⟩
    | push l n => cases he
    | advertise q d => cases he
  · rintro ⟨value, hc⟩
    exact ⟨_, hc, rfl⟩

theorem mem_pushKeyedStream {listKey : String} : ∀ {chunks : List (List KeyedPayload)} {c : Command},
    c ∈ (pushKeyedStream codec listKey chunks).1 →
      (∃ key value, c = .set key value) ∨ ∃ name, c = .push listKey name
  | [], c, h => by cases h
  | chunk :: chunks, c, h => by
    rw [pushKeyedStream] at h
    split at h
    · cases h
    split at h
    · cases h
    rcases List.mem_append.mp h with h | h
    · rcases List.mem_append.mp h with h | h
      · obtain ⟨payload, -, rfl⟩ := List.mem_map.mp h
        exact .inl ⟨_, _, rfl⟩
      · obtain ⟨payload, -, rfl⟩ := List.mem_map.mp h
        exact .inr ⟨_, rfl⟩
    · exact mem_pushKeyedStream h

theorem setKeys_chunk (codec : Codec) (listKey : String) (chunk : List KeyedPayload) :
    setKeys (chunkCommands codec listKey chunk) = chunk.map KeyedPayload.key := by
  have hpush : chunk.filterMap (Command.setKey ∘ fun payload => Command.push listKey payload.key) =
      [] := List.filterMap_eq_nil_iff.mpr fun _ _ => rfl
  rw [setKeys, chunkCommands, List.filterMap_append, List.filterMap_map, List.filterMap_map, hpush,
    List.append_nil]
  exact congrFun List.filterMap_eq_map chunk

theorem setKeys_stream (listKey : String) : ∀ chunks : List (List KeyedPayload),
    (setKeys (pushKeyedStream codec listKey chunks).1).Sublist
      (chunks.flatten.map KeyedPayload.key)
  | [] => List.Sublist.refl _
  | chunk :: chunks => by
    rw [pushKeyedStream]
    split
    · exact List.nil_sublist _
    split
    · exact List.nil_sublist _
    rw [List.flatten_cons, List.map_append, setKeys, List.filterMap_append]
    refine List.Sublist.append ?_ (setKeys_stream listKey chunks)
    rw [← setKeys_chunk codec listKey chunk, setKeys]

theorem setKeys_advert (job : RunJob) : setKeys (job.advert codec) = [] := by
  unfold RunJob.advert
  split <;> rfl

theorem setKeys_commands (job : RunJob) :
    (setKeys (job.commands codec)).Sublist job.payloadKeys := by
  have h : setKeys (job.advert codec) = [] := setKeys_advert job
  rw [RunJob.commands, setKeys, List.filterMap_append]
  rw [setKeys] at h
  rw [h, List.append_nil]
  exact setKeys_stream _ _

/-- What a program is made of. -/
theorem mem_program {c : Command} (h : c ∈ QueueState.program codec jobs i) :
    ∃ job, jobs[i]? = some job ∧ ((∃ key value, c = .set key value) ∨
      (∃ name, c = .push (strategyKey job.runId) name) ∨
      c = .advertise job.queueKey (job.descriptor codec)) := by
  unfold QueueState.program at h
  cases hjob : jobs[i]? with
  | none =>
    rw [hjob] at h
    cases h
  | some job =>
    rw [hjob] at h
    refine ⟨job, rfl, ?_⟩
    rcases List.mem_append.mp h with h | h
    · rcases mem_pushKeyedStream h with h | h
      · exact .inl h
      · exact .inr (.inl h)
    · unfold RunJob.advert at h
      split at h
      · exact .inr (.inr (List.mem_singleton.mp h))
      · cases h

/-- The advert is the last command of a program. -/
theorem advertise_last {queueKey descriptor : String} {rest : List Command}
    (h : .advertise queueKey descriptor :: rest <:+ QueueState.program codec jobs i) : rest = [] := by
  obtain ⟨before, heq⟩ := h
  have hmem : Command.advertise queueKey descriptor ∈ QueueState.program codec jobs i :=
    heq ▸ List.mem_append_right before List.mem_cons_self
  obtain ⟨job, hjob, -⟩ := mem_program hmem
  have hnot : Command.advertise queueKey descriptor ∉
      (pushKeyedStream codec (strategyKey job.runId) job.chunks).1 := by
    intro hm
    rcases mem_pushKeyedStream hm with ⟨_, _, hc⟩ | ⟨_, hc⟩ <;> cases hc
  rw [QueueState.program, hjob, Option.map_some, Option.getD_some, RunJob.commands,
    RunJob.advert] at heq
  by_contra hne
  refine hnot ?_
  split at heq
  · have hdrop := congrArg List.dropLast heq
    rw [List.dropLast_append_of_ne_nil (List.cons_ne_nil _ _), List.dropLast_concat,
      List.dropLast_cons_of_ne_nil hne] at hdrop
    rw [← hdrop]
    exact List.mem_append_right _ List.mem_cons_self
  · rw [List.append_nil] at heq
    rw [← heq]
    exact List.mem_append_right _ List.mem_cons_self

theorem Distinct.index_eq (hd : Distinct jobs) {i' : ℕ} {job job' : RunJob}
    (h : jobs[i]? = some job) (h' : jobs[i']? = some job') (he : job.runId = job'.runId) :
    i = i' := by
  have hlt : i < (jobs.map RunJob.runId).length := by
    rw [List.length_map]
    exact (List.getElem?_eq_some_iff.mp h).1
  refine (List.getElem?_inj hlt hd.runIds).mp ?_
  rw [List.getElem?_map, List.getElem?_map, h, h', Option.map_some, Option.map_some, he]

theorem Distinct.setKeys_nodup (hd : Distinct jobs) (i : ℕ) :
    (setKeys (QueueState.program codec jobs i)).Nodup := by
  unfold QueueState.program
  cases hjob : jobs[i]? with
  | none => exact List.nodup_nil
  | some job =>
    have hall := (List.nodup_flatMap.mp hd.payloadKeys).1 job (List.mem_of_getElem? hjob)
    exact (setKeys_commands job).nodup hall

theorem Distinct.setKeys_disjoint (hd : Distinct jobs) {i' : ℕ} (hne : i ≠ i') {key : String}
    (h : key ∈ setKeys (QueueState.program codec jobs i)) :
    key ∉ setKeys (QueueState.program codec jobs i') := by
  have hpair := List.pairwise_iff_getElem.mp (List.nodup_flatMap.mp hd.payloadKeys).2
  have hkey : ∀ {n : ℕ}, key ∈ setKeys (QueueState.program codec jobs n) →
      ∃ hn : n < jobs.length, key ∈ jobs[n].payloadKeys := by
    intro n hn
    unfold QueueState.program at hn
    cases hjob : jobs[n]? with
    | none =>
      rw [hjob] at hn
      cases hn
    | some job =>
      rw [hjob] at hn
      obtain ⟨hlt, hget⟩ := List.getElem?_eq_some_iff.mp hjob
      exact ⟨hlt, hget ▸ (setKeys_commands job).subset hn⟩
  intro h'
  obtain ⟨hlt, hk⟩ := hkey h
  obtain ⟨hlt', hk'⟩ := hkey h'
  rcases Nat.lt_or_gt_of_ne hne with hi | hi
  · exact hpair i i' hlt hlt' hi hk hk'
  · exact hpair i' i hlt' hlt hi hk' hk

end Programs

namespace QueueState

variable (codec : Codec) (jobs : List RunJob)

/-- The steps of a worker that leave the store alone. -/
inductive Moves (s : QueueState) : Phase → Phase → Prop
  | look : Moves s .top (.looking runQueues)
  | idle : Moves s (.looking []) .top
  | skip {q qs} : Moves s (.looking (q :: qs)) (.looking qs)
  | peek {q qs d} (h : d ∈ s.redis.lists q) : Moves s (.looking (q :: qs)) (.peeked q d)
  | poison {q d} (h : codec.parseRunId d = none) : Moves s (.peeked q d) (.retiring q d)
  | parse {q d r} (h : codec.parseRunId d = some r) : Moves s (.peeked q d) (.popping q d r)
  | drained {q d r} (h : s.redis.lists (strategyKey r) = []) :
      Moves s (.popping q d r) (.retiring q d)
  | missing {q d r k} : Moves s (.claimed q d r k) (.resumed q d r)
  | again {q d r} : Moves s (.resumed q d r) (.popping q d r)
  | parkTop : Moves s .top .parked
  | parkResumed {q d r} : Moves s (.resumed q d r) .parked
  | crash {phase} : Moves s phase .crashed

/-- What one step of the system can do. -/
inductive Steps (s : QueueState) : QueueState → Prop
  | move (w phase) (h : Moves codec s (s.worker w) phase) : Steps s (s.moveTo w phase)
  | claim (w q d r k) (hw : s.worker w = .popping q d r) :
      Steps s ({ s with redis := (s.redis.listPopBack (strategyKey r)).2 }.moveTo w
        (.claimed q d r k))
  | take (w q d r k p) (hw : s.worker w = .claimed q d r k) (hk : s.redis.strings k = some p) :
      Steps s ({ s with redis := (s.redis.getDelete k).2, taken := ⟨w, k, p⟩ :: s.taken }.moveTo w
        (.holding q d r k p))
  | submit (w q d r k p) (hw : s.worker w = .holding q d r k p) (hp : codec.parseStrategy p = true) :
      Steps s { s.moveTo w (.resumed q d r) with submitted := ⟨w, k, p⟩ :: s.submitted }
  | report (w q d r k p) (hw : s.worker w = .holding q d r k p)
      (hp : codec.parseStrategy p = false) :
      Steps s { s.moveTo w (.resumed q d r) with reported := ⟨w, k, p⟩ :: s.reported }
  | retire (w q d) (hw : s.worker w = .retiring q d) :
      Steps s ({ s with redis := s.redis.listRemove q d }.moveTo w .top)
  | set (i k v rest) (hi : s.pending i = .set k v :: rest) :
      Steps s { s with pending := Function.update s.pending i rest, redis := s.redis.set k v }
  | push (i l name rest) (hi : s.pending i = .push l name :: rest) :
      Steps s { s with
        pending := Function.update s.pending i rest
        redis := s.redis.listPushFront l name }
  | advertise (i q d rest) (hi : s.pending i = .advertise q d :: rest) :
      Steps s { s with
        pending := Function.update s.pending i rest
        redis := s.redis.listPushFront q d
        advertised := Function.update s.advertised i true }

variable {codec jobs} {s s' : QueueState}

theorem steps_of_produce {i : ℕ} (h : s.produce i = some s') : Steps codec s s' := by
  unfold produce at h
  split at h
  · cases h
  · rename_i command rest hi
    cases command with
    | set k v =>
      cases h
      exact .set i k v rest hi
    | push l name =>
      cases h
      exact .push i l name rest hi
    | advertise q d =>
      cases h
      exact .advertise i q d rest hi

theorem steps_of_work {w : ℕ} (h : s.work codec w = some s') : Steps codec s s' := by
  unfold work at h
  split at h
  · rename_i hw
    cases h
    exact .move w _ (hw ▸ .look)
  · rename_i hw
    cases h
    exact .move w _ (hw ▸ .idle)
  · rename_i q qs hw
    split at h
    · cases h
      exact .move w _ (hw ▸ .skip)
    · rename_i d hd
      cases h
      exact .move w _ (hw ▸ .peek (List.mem_of_getLast? hd))
  · rename_i q d hw
    split at h
    · rename_i hp
      cases h
      exact .move w _ (hw ▸ .poison hp)
    · rename_i r hp
      cases h
      exact .move w _ (hw ▸ .parse hp)
  · rename_i q d r hw
    split at h
    · rename_i redis hpop
      cases h
      have hnone : (s.redis.lists (strategyKey r)).getLast? = none := congrArg Prod.fst hpop
      exact .move w _ (hw ▸ .drained (List.getLast?_eq_none_iff.mp hnone))
    · rename_i k redis hpop
      cases h
      obtain rfl : (s.redis.listPopBack (strategyKey r)).2 = redis := congrArg Prod.snd hpop
      exact .claim w q d r k hw
  · rename_i q d r k hw
    split at h
    · cases h
      exact .move w _ (hw ▸ .missing)
    · rename_i p redis hget
      cases h
      obtain rfl : (s.redis.getDelete k).2 = redis := congrArg Prod.snd hget
      exact .take w q d r k p hw (congrArg Prod.fst hget)
  · rename_i q d r k p hw
    split at h
    · rename_i hp
      cases h
      exact .submit w q d r k p hw hp
    · rename_i hp
      cases h
      exact .report w q d r k p hw (Bool.eq_false_iff.mpr hp)
  · rename_i q d r hw
    cases h
    exact .move w _ (hw ▸ .again)
  · rename_i q d hw
    cases h
    exact .retire w q d hw
  · cases h
  · cases h

/-- A step of the system is one of the listed ones. -/
theorem steps_of_step {a : QueueAction} (h : step codec s a = some s') : Steps codec s s' := by
  cases a with
  | produce i => exact steps_of_produce h
  | work w => exact steps_of_work h
  | stop w =>
    change s.stop w = some s' at h
    unfold stop at h
    split at h
    · rename_i hw
      cases h
      exact .move w _ (hw ▸ .parkTop)
    · rename_i q d r hw
      cases h
      exact .move w _ (hw ▸ .parkResumed)
    · cases h
  | crash w =>
    cases h
    exact .move w _ .crash

/-! ## The invariant -/

variable (codec jobs)

/-- The descriptor belongs to a run that was advertised. -/
def Known (s : QueueState) (d : String) : Prop :=
  ∃ i job, jobs[i]? = some job ∧ job.descriptor codec = d ∧ s.advertised i = true

/-- The payload was submitted if it parses, and reported if it does not. -/
def Settled (s : QueueState) (e : Taken) : Prop :=
  (codec.parseStrategy e.payload = true ∧ e ∈ s.submitted) ∨
    (codec.parseStrategy e.payload = false ∧ e ∈ s.reported)

/-- What a worker carries is backed by the store: a run it drains was advertised, and the list
of a run it retires is empty. -/
def Backed (s : QueueState) : Phase → Prop
  | .looking queues => ∀ q ∈ queues, q ∈ runQueues
  | .peeked _ d => s.Known codec jobs d
  | .popping _ d r | .claimed _ d r _ | .holding _ d r _ _ | .resumed _ d r =>
    s.Known codec jobs d ∧ codec.parseRunId d = some r
  | .retiring _ d => s.Known codec jobs d ∧
    ∀ r, codec.parseRunId d = some r → s.redis.lists (strategyKey r) = []
  | .top | .parked | .crashed => True

structure Inv (s : QueueState) : Prop where
  suffix : ∀ i, s.pending i <:+ program codec jobs i
  last : ∀ i, s.advertised i = true → s.pending i = []
  unset : ∀ i, ∀ k ∈ setKeys (s.pending i), s.redis.strings k = none ∧ k ∉ s.taken.map Taken.key
  consumed : ∀ k ∈ s.taken.map Taken.key, s.redis.strings k = none
  once : (s.taken.map Taken.key).Nodup
  queued : ∀ q ∈ runQueues, ∀ d ∈ s.redis.lists q, s.Known codec jobs d
  phases : ∀ w, s.Backed codec jobs (s.worker w)
  offered : ∀ i job, jobs[i]? = some job → codec.parseRunId (job.descriptor codec) ≠ none →
    s.advertised i = true → job.descriptor codec ∈ s.redis.lists job.queueKey ∨
      s.redis.lists (strategyKey job.runId) = []
  handled : ∀ e ∈ s.taken, s.Settled codec e ∨
    (∃ q d r, s.worker e.worker = .holding q d r e.key e.payload) ∨
      s.worker e.worker = .crashed

variable {codec jobs}

theorem Known.step {d : String} (h : Steps codec s s') (hk : s.Known codec jobs d) :
    s'.Known codec jobs d := by
  obtain ⟨i, job, hjob, hd, ha⟩ := hk
  refine ⟨i, job, hjob, hd, ?_⟩
  cases h with
  | advertise i' q d rest hi =>
    simp only [Function.update_apply]
    split
    · rfl
    · exact ha
  | _ => exact ha

theorem Inv.pending_program (inv : Inv codec jobs s) {i : ℕ} {c : Command} {rest : List Command}
    (hi : s.pending i = c :: rest) : c ∈ program codec jobs i :=
  (inv.suffix i).subset (hi ▸ List.mem_cons_self)

/-- The list of an advertised run stays empty once it is empty. -/
theorem Inv.stays_empty (inv : Inv codec jobs s) (hd : Distinct jobs) (hn : Named codec jobs)
    (h : Steps codec s s') {d r : String} (hk : s.Known codec jobs d)
    (hp : codec.parseRunId d = some r) (he : s.redis.lists (strategyKey r) = []) :
    s'.redis.lists (strategyKey r) = [] := by
  cases h with
  | move w phase hm => exact he
  | claim w q d' r' k hw =>
    simp only [moveTo_redis, RedisStore.listPopBack_lists]
    split
    · rename_i heq
      rw [← heq, he, List.dropLast_nil]
    · exact he
  | take w q d' r' k p hw hs => exact he
  | submit w q d' r' k p hw hs => exact he
  | report w q d' r' k p hw hs => exact he
  | retire w q d' hw =>
    simp only [moveTo_redis, RedisStore.listRemove_lists]
    split
    · rename_i heq
      rw [← heq, he, List.filter_nil]
    · exact he
  | set i k v rest hi => exact he
  | push i l name rest hi =>
    simp only [RedisStore.listPushFront_lists]
    rw [if_neg, he]
    rintro rfl
    obtain ⟨job, hjob, hc⟩ := mem_program (inv.pending_program hi)
    obtain ⟨i', job', hjob', hd', ha⟩ := hk
    rcases hc with ⟨_, _, hc⟩ | ⟨_, hc⟩ | hc
    · cases hc
    · have hr' := hn job' (List.mem_of_getElem? hjob') r (hd' ▸ hp)
      have hr : r = job.runId := strategyKey_injective (Command.push.inj hc).1
      have hidx := hd.index_eq hjob hjob' (hr.symm.trans hr')
      have hlast := inv.last i' ha
      rw [← hidx, hi] at hlast
      cases hlast
    · cases hc
  | advertise i q d' rest hi =>
    simp only [RedisStore.listPushFront_lists]
    rw [if_neg, he]
    rintro rfl
    obtain ⟨job, hjob, hc⟩ := mem_program (inv.pending_program hi)
    rcases hc with ⟨_, _, hc⟩ | ⟨_, hc⟩ | hc
    · cases hc
    · cases hc
    · have hq : strategyKey r = job.queueKey := (Command.advertise.inj hc).1
      exact strategyKey_not_runQueue r (hq ▸ job.queued)

theorem Inv.suffix_step (inv : Inv codec jobs s) (h : Steps codec s s') (i : ℕ) :
    s'.pending i <:+ program codec jobs i := by
  have hrest : ∀ {i' : ℕ} {c : Command} {rest : List Command}, s.pending i' = c :: rest →
      Function.update s.pending i' rest i <:+ program codec jobs i := by
    intro i' c rest hi
    rw [Function.update_apply]
    split
    · rename_i heq
      rw [heq]
      exact (List.suffix_cons c rest).trans (hi ▸ inv.suffix i')
    · exact inv.suffix i
  cases h with
  | set i' k v rest hi => exact hrest hi
  | push i' l name rest hi => exact hrest hi
  | advertise i' q d rest hi => exact hrest hi
  | _ => exact inv.suffix i

theorem Inv.last_step (inv : Inv codec jobs s) (h : Steps codec s s') (i : ℕ)
    (ha : s'.advertised i = true) : s'.pending i = [] := by
  have hrest : ∀ {i' : ℕ} {c : Command} {rest : List Command}, s.pending i' = c :: rest →
      s.advertised i = true → Function.update s.pending i' rest i = [] := by
    intro i' c rest hi ha
    have hlast := inv.last i ha
    rw [Function.update_apply]
    split
    · rename_i heq
      rw [heq, hi] at hlast
      cases hlast
    · exact hlast
  cases h with
  | set i' k v rest hi => exact hrest hi ha
  | push i' l name rest hi => exact hrest hi ha
  | advertise i' q d rest hi =>
    by_cases heq : i = i'
    · subst heq
      exact (Function.update_self ..).trans (advertise_last (hi ▸ inv.suffix i))
    · exact hrest hi ((Function.update_of_ne heq ..).symm.trans ha)
  | _ => exact inv.last i ha

/-- Executing a command leaves the keys still to be set distinct from the one it sets. -/
theorem Inv.setKeys_rest (inv : Inv codec jobs s) (hd : Distinct jobs) {i i' : ℕ} {k key v : String}
    {rest : List Command} (hi : s.pending i = .set k v :: rest)
    (hkey : key ∈ setKeys (Function.update s.pending i rest i')) :
    key ∈ setKeys (s.pending i') ∧ key ≠ k := by
  have hmem : k ∈ setKeys (program codec jobs i) :=
    mem_setKeys.mpr ⟨v, inv.pending_program hi⟩
  rw [Function.update_apply] at hkey
  split at hkey
  · rename_i heq
    subst heq
    have hsub : (setKeys (s.pending i')).Sublist (setKeys (program codec jobs i')) :=
      (inv.suffix i').sublist.filterMap _
    have hprogram : (setKeys (program codec jobs i')).Nodup := hd.setKeys_nodup i'
    have hnodup := hsub.nodup hprogram
    rw [hi] at hnodup ⊢
    refine ⟨List.mem_cons_of_mem _ hkey, ?_⟩
    rintro rfl
    exact (List.nodup_cons.mp hnodup).1 hkey
  · rename_i hne
    refine ⟨hkey, ?_⟩
    rintro rfl
    exact hd.setKeys_disjoint (Ne.symm hne) hmem
      (((inv.suffix i').sublist.filterMap _).subset hkey)

theorem setKeys_update {i i' : ℕ} {c : Command} {key : String} {rest : List Command}
    (hi : s.pending i = c :: rest)
    (hkey : key ∈ setKeys (Function.update s.pending i rest i')) : key ∈ setKeys (s.pending i') := by
  rw [Function.update_apply] at hkey
  split at hkey
  · rename_i heq
    obtain ⟨value, hv⟩ := mem_setKeys.mp hkey
    exact mem_setKeys.mpr ⟨value, heq ▸ hi ▸ List.mem_cons_of_mem _ hv⟩
  · exact hkey

theorem Inv.unset_step (inv : Inv codec jobs s) (hd : Distinct jobs) (h : Steps codec s s') (i : ℕ)
    (key : String) (hkey : key ∈ setKeys (s'.pending i)) :
    s'.redis.strings key = none ∧ key ∉ s'.taken.map Taken.key := by
  cases h with
  | take w q d r k p hw hk =>
    obtain ⟨hnone, htaken⟩ := inv.unset i key hkey
    have hne : key ≠ k := by
      rintro rfl
      rw [hnone] at hk
      cases hk
    refine ⟨?_, ?_⟩
    · rw [moveTo_redis, RedisStore.getDelete_strings, if_neg hne]
      exact hnone
    · exact List.not_mem_cons_of_ne_of_not_mem hne htaken
  | set i' k v rest hi =>
    obtain ⟨hmem, hne⟩ := inv.setKeys_rest hd hi hkey
    obtain ⟨hnone, htaken⟩ := inv.unset i key hmem
    refine ⟨?_, htaken⟩
    rw [RedisStore.set_strings, if_neg hne]
    exact hnone
  | push i' l name rest hi => exact inv.unset i key (setKeys_update hi hkey)
  | advertise i' q d rest hi => exact inv.unset i key (setKeys_update hi hkey)
  | _ => exact inv.unset i key hkey

theorem Inv.consumed_step (inv : Inv codec jobs s) (h : Steps codec s s') :
    ∀ k ∈ s'.taken.map Taken.key, s'.redis.strings k = none := by
  cases h with
  | take w q d r k p hw hk =>
    intro key hkey
    rw [moveTo_redis, RedisStore.getDelete_strings]
    split
    · rfl
    · rename_i hne
      exact inv.consumed key ((List.mem_cons.mp hkey).resolve_left hne)
  | set i k v rest hi =>
    intro key hkey
    rw [RedisStore.set_strings, if_neg]
    · exact inv.consumed key hkey
    · rintro rfl
      have hmem : key ∈ setKeys (s.pending i) := hi ▸ List.mem_cons_self
      exact (inv.unset i key hmem).2 hkey
  | _ => exact inv.consumed

theorem Inv.once_step (inv : Inv codec jobs s) (h : Steps codec s s') :
    (s'.taken.map Taken.key).Nodup := by
  cases h with
  | take w q d r k p hw hk =>
    refine List.nodup_cons.mpr ⟨fun hmem => ?_, inv.once⟩
    rw [inv.consumed k hmem] at hk
    cases hk
  | _ => exact inv.once

theorem Inv.queued_step (inv : Inv codec jobs s) (h : Steps codec s s') (q : String)
    (hq : q ∈ runQueues) (d : String) (hd : d ∈ s'.redis.lists q) : s'.Known codec jobs d := by
  have hstep : ∀ {d}, s.Known codec jobs d → s'.Known codec jobs d := fun hk => hk.step h
  cases h with
  | claim w q' d' r k hw =>
    rw [moveTo_redis, RedisStore.listPopBack_lists] at hd
    split at hd
    · rename_i heq
      exact absurd (heq ▸ hq) (strategyKey_not_runQueue r)
    · exact inv.queued q hq d hd
  | retire w q' d' hw =>
    rw [moveTo_redis, RedisStore.listRemove_lists] at hd
    split at hd
    · rename_i heq
      exact inv.queued q hq d (heq ▸ (List.mem_filter.mp hd).1)
    · exact inv.queued q hq d hd
  | push i l name rest hi =>
    rw [RedisStore.listPushFront_lists, if_neg] at hd
    · exact inv.queued q hq d hd
    · rintro rfl
      obtain ⟨job, -, hc⟩ := mem_program (inv.pending_program hi)
      rcases hc with ⟨_, _, hc⟩ | ⟨_, hc⟩ | hc
      · cases hc
      · exact strategyKey_not_runQueue job.runId ((Command.push.inj hc).1 ▸ hq)
      · cases hc
  | advertise i q' d' rest hi =>
    rw [RedisStore.listPushFront_lists] at hd
    split at hd
    · rename_i heq
      rcases List.mem_cons.mp hd with rfl | hd
      · obtain ⟨job, hjob, hc⟩ := mem_program (inv.pending_program hi)
        rcases hc with ⟨_, _, hc⟩ | ⟨_, hc⟩ | hc
        · cases hc
        · cases hc
        · exact ⟨i, job, hjob, (Command.advertise.inj hc).2.symm, Function.update_self ..⟩
      · exact hstep (inv.queued q hq d (heq ▸ hd))
    · exact hstep (inv.queued q hq d hd)
  | _ => exact inv.queued q hq d hd

theorem Backed.move (inv : Inv codec jobs s) {phase phase' : Phase}
    (hb : s.Backed codec jobs phase) (h : Moves codec s phase phase') :
    s.Backed codec jobs phase' := by
  cases h with
  | look => exact fun q hq => hq
  | skip => exact fun q hq => hb q (List.mem_cons_of_mem _ hq)
  | peek hd => exact inv.queued _ (hb _ List.mem_cons_self) _ hd
  | poison hp =>
    refine ⟨hb, fun r hr => ?_⟩
    rw [hp] at hr
    cases hr
  | parse hp => exact ⟨hb, hp⟩
  | drained he =>
    refine ⟨hb.1, fun r hr => ?_⟩
    rw [hb.2] at hr
    exact Option.some.inj hr ▸ he
  | missing => exact hb
  | again => exact hb
  | idle | parkTop | parkResumed | crash => trivial

theorem Backed.step (inv : Inv codec jobs s) (hd : Distinct jobs) (hn : Named codec jobs)
    (h : Steps codec s s') {phase : Phase} (hb : s.Backed codec jobs phase) :
    s'.Backed codec jobs phase := by
  cases phase with
  | looking queues => exact hb
  | peeked q d => exact Known.step h hb
  | popping q d r => exact ⟨hb.1.step h, hb.2⟩
  | claimed q d r k => exact ⟨hb.1.step h, hb.2⟩
  | holding q d r k p => exact ⟨hb.1.step h, hb.2⟩
  | resumed q d r => exact ⟨hb.1.step h, hb.2⟩
  | retiring q d =>
    exact ⟨hb.1.step h, fun r hr => inv.stays_empty hd hn h hb.1 hr (hb.2 r hr)⟩
  | top | parked | crashed => trivial

theorem Inv.phases_step (inv : Inv codec jobs s) (hd : Distinct jobs) (hn : Named codec jobs)
    (h : Steps codec s s') (v : ℕ) : s'.Backed codec jobs (s'.worker v) := by
  have hstep : ∀ {phase}, s.Backed codec jobs phase → s'.Backed codec jobs phase :=
    fun hb => hb.step inv hd hn h
  have hmoved : ∀ (w : ℕ) (phase : Phase), s.Backed codec jobs phase →
      s'.Backed codec jobs (Function.update s.worker w phase v) := by
    intro w phase hb
    rw [Function.update_apply]
    split
    · exact hstep hb
    · exact hstep (inv.phases v)
  cases h with
  | move w phase hm => exact hmoved w phase ((inv.phases w).move inv hm)
  | claim w q d r k hw => exact hmoved w (.claimed q d r k) (hw ▸ inv.phases w :)
  | take w q d r k p hw hk => exact hmoved w (.holding q d r k p) (hw ▸ inv.phases w :)
  | submit w q d r k p hw hp => exact hmoved w (.resumed q d r) (hw ▸ inv.phases w :)
  | report w q d r k p hw hp => exact hmoved w (.resumed q d r) (hw ▸ inv.phases w :)
  | retire w q d hw => exact hmoved w .top trivial
  | set i k v' rest hi => exact hstep (inv.phases v)
  | push i l name rest hi => exact hstep (inv.phases v)
  | advertise i q d rest hi => exact hstep (inv.phases v)

theorem parse_eq (hn : Named codec jobs) {i : ℕ} {job : RunJob} (hjob : jobs[i]? = some job)
    (hp : codec.parseRunId (job.descriptor codec) ≠ none) :
    codec.parseRunId (job.descriptor codec) = some job.runId := by
  obtain ⟨r, hr⟩ := Option.ne_none_iff_exists'.mp hp
  rw [hr, hn job (List.mem_of_getElem? hjob) r hr]

/-- An advert leaves its queue only when a worker retires it. -/
theorem Inv.advert_step (inv : Inv codec jobs s) (h : Steps codec s s') {q d : String}
    (hq : q ∈ runQueues) (hd : d ∈ s.redis.lists q) :
    d ∈ s'.redis.lists q ∨ ∃ w, s.worker w = .retiring q d := by
  cases h with
  | claim w q' d' r k hw =>
    refine .inl ?_
    rw [moveTo_redis, RedisStore.listPopBack_lists, if_neg]
    · exact hd
    · rintro rfl
      exact strategyKey_not_runQueue r hq
  | retire w q' d' hw =>
    rw [moveTo_redis, RedisStore.listRemove_lists]
    split
    · rename_i heq
      subst heq
      by_cases hne : d = d'
      · exact .inr ⟨w, hne ▸ hw⟩
      · exact .inl (List.mem_filter.mpr ⟨hd, by simpa using hne⟩)
    · exact .inl hd
  | push i l name rest hi =>
    refine .inl ?_
    rw [RedisStore.listPushFront_lists]
    split
    · rename_i heq
      exact List.mem_cons_of_mem _ (heq ▸ hd)
    · exact hd
  | advertise i q' d' rest hi =>
    refine .inl ?_
    rw [RedisStore.listPushFront_lists]
    split
    · rename_i heq
      exact List.mem_cons_of_mem _ (heq ▸ hd)
    · exact hd
  | _ => exact .inl hd

theorem advertised_step (h : Steps codec s s') {i : ℕ} (ha : s'.advertised i = true) :
    s.advertised i = true ∨ ∃ q d rest, s.pending i = .advertise q d :: rest ∧
      s'.redis = s.redis.listPushFront q d := by
  cases h with
  | advertise i' q d rest hi =>
    by_cases heq : i = i'
    · exact .inr ⟨q, d, rest, heq ▸ hi, rfl⟩
    · exact .inl ((Function.update_of_ne heq ..).symm.trans ha)
  | _ => exact .inl ha

theorem Inv.offered_step (inv : Inv codec jobs s) (hd : Distinct jobs) (hn : Named codec jobs)
    (h : Steps codec s s') (i : ℕ) (job : RunJob) (hjob : jobs[i]? = some job)
    (hp : codec.parseRunId (job.descriptor codec) ≠ none) (ha : s'.advertised i = true) :
    job.descriptor codec ∈ s'.redis.lists job.queueKey ∨
      s'.redis.lists (strategyKey job.runId) = [] := by
  have hparse := parse_eq hn hjob hp
  rcases advertised_step h ha with hold | ⟨q, d, rest, hi, hredis⟩
  · have hk : s.Known codec jobs (job.descriptor codec) := ⟨i, job, hjob, rfl, hold⟩
    rcases inv.offered i job hjob hp hold with hm | he
    · rcases inv.advert_step h job.queued hm with hm | ⟨w, hw⟩
      · exact .inl hm
      · have hb := inv.phases w
        rw [hw] at hb
        exact .inr (inv.stays_empty hd hn h hk hparse (hb.2 _ hparse))
    · exact .inr (inv.stays_empty hd hn h hk hparse he)
  · obtain ⟨job', hjob', hc⟩ := mem_program (inv.pending_program hi)
    rw [hjob] at hjob'
    cases hjob'
    rcases hc with ⟨_, _, hc⟩ | ⟨_, hc⟩ | hc
    · cases hc
    · cases hc
    · obtain ⟨rfl, rfl⟩ := Command.advertise.inj hc
      refine .inl ?_
      rw [hredis, RedisStore.listPushFront_lists, if_pos rfl]
      exact List.mem_cons_self

theorem Settled.step (h : Steps codec s s') {e : Taken} (he : s.Settled codec e) :
    s'.Settled codec e := by
  cases h with
  | submit w q d r k p hw hp =>
    exact he.imp (fun h => ⟨h.1, List.mem_cons_of_mem _ h.2⟩) id
  | report w q d r k p hw hp =>
    exact he.imp id fun h => ⟨h.1, List.mem_cons_of_mem _ h.2⟩
  | _ => exact he

/-- A worker gives a payload up only by submitting or reporting it, or by crashing. -/
theorem holding_step (h : Steps codec s s') {v : ℕ} {q d r k p : String}
    (hv : s.worker v = .holding q d r k p) :
    s'.worker v = .holding q d r k p ∨ s'.worker v = .crashed ∨ s'.Settled codec ⟨v, k, p⟩ := by
  have hother : ∀ {w : ℕ} {phase : Phase}, (v = w → False) →
      Function.update s.worker w phase v = .holding q d r k p :=
    fun hne => (Function.update_of_ne hne ..).trans hv
  cases h with
  | move w phase hm =>
    by_cases heq : v = w
    · subst heq
      rw [hv] at hm
      cases hm
      exact .inr (.inl (Function.update_self ..))
    · exact .inl (hother heq)
  | claim w q' d' r' k' hw =>
    refine .inl (hother ?_)
    rintro rfl
    rw [hv] at hw
    cases hw
  | take w q' d' r' k' p' hw hk =>
    refine .inl (hother ?_)
    rintro rfl
    rw [hv] at hw
    cases hw
  | submit w q' d' r' k' p' hw hp =>
    by_cases heq : v = w
    · subst heq
      rw [hv] at hw
      cases hw
      exact .inr (.inr (.inl ⟨hp, List.mem_cons_self⟩))
    · exact .inl (hother heq)
  | report w q' d' r' k' p' hw hp =>
    by_cases heq : v = w
    · subst heq
      rw [hv] at hw
      cases hw
      exact .inr (.inr (.inr ⟨hp, List.mem_cons_self⟩))
    · exact .inl (hother heq)
  | retire w q' d' hw =>
    refine .inl (hother ?_)
    rintro rfl
    rw [hv] at hw
    cases hw
  | set i k' v' rest hi => exact .inl hv
  | push i l name rest hi => exact .inl hv
  | advertise i q' d' rest hi => exact .inl hv

theorem crashed_step (h : Steps codec s s') {v : ℕ} (hv : s.worker v = .crashed) :
    s'.worker v = .crashed := by
  have hother : ∀ {w : ℕ} {phase old : Phase}, s.worker w = old → old ≠ .crashed →
      Function.update s.worker w phase v = .crashed := by
    intro w phase old hw hne
    rw [Function.update_of_ne, hv]
    rintro rfl
    exact hne (hw.symm.trans hv)
  cases h with
  | move w phase hm =>
    by_cases heq : v = w
    · subst heq
      rw [hv] at hm
      cases hm
      exact Function.update_self ..
    · exact (Function.update_of_ne heq ..).trans hv
  | claim w q d r k hw => exact hother hw (by simp)
  | take w q d r k p hw hk => exact hother hw (by simp)
  | submit w q d r k p hw hp => exact hother hw (by simp)
  | report w q d r k p hw hp => exact hother hw (by simp)
  | retire w q d hw => exact hother hw (by simp)
  | set i k v' rest hi => exact hv
  | push i l name rest hi => exact hv
  | advertise i q d rest hi => exact hv

theorem Inv.handled_step (inv : Inv codec jobs s) (h : Steps codec s s') :
    ∀ e ∈ s'.taken, s'.Settled codec e ∨
      (∃ q d r, s'.worker e.worker = .holding q d r e.key e.payload) ∨
        s'.worker e.worker = .crashed := by
  have hold : ∀ e ∈ s.taken, s'.Settled codec e ∨
      (∃ q d r, s'.worker e.worker = .holding q d r e.key e.payload) ∨
        s'.worker e.worker = .crashed := by
    intro e he
    rcases inv.handled e he with hs | ⟨q, d, r, hw⟩ | hw
    · exact .inl (hs.step h)
    · rcases holding_step h hw with hw | hw | hs
      · exact .inr (.inl ⟨q, d, r, hw⟩)
      · exact .inr (.inr hw)
      · exact .inl hs
    · exact .inr (.inr (crashed_step h hw))
  intro e he
  cases h with
  | take w q d r k p hw hk =>
    rcases List.mem_cons.mp he with rfl | he
    · exact .inr (.inl ⟨q, d, r, Function.update_self ..⟩)
    · exact hold e he
  | _ => exact hold e he

theorem Inv.step (inv : Inv codec jobs s) (hd : Distinct jobs) (hn : Named codec jobs)
    (h : Steps codec s s') : Inv codec jobs s' where
  suffix := inv.suffix_step h
  last := inv.last_step h
  unset := inv.unset_step hd h
  consumed := inv.consumed_step h
  once := inv.once_step h
  queued := inv.queued_step h
  phases := inv.phases_step hd hn h
  offered := inv.offered_step hd hn h
  handled := inv.handled_step h

theorem start_inv : Inv codec jobs (start codec jobs) where
  suffix _ := List.suffix_rfl
  last _ h := by cases h
  unset _ _ _ := ⟨rfl, List.not_mem_nil⟩
  consumed _ h := by cases h
  once := List.nodup_nil
  queued _ _ _ h := by cases h
  phases _ := trivial
  offered _ _ _ _ h := by cases h
  handled _ h := by cases h

/-- The invariant holds in every reachable state. -/
theorem run_inv (hd : Distinct jobs) (hn : Named codec jobs) {as : List QueueAction}
    (h : exec (step codec) (start codec jobs) as = some s) : Inv codec jobs s :=
  exec_invariant (fun _ _ _ inv hs => inv.step hd hn (steps_of_step hs)) start_inv h

/-- From an empty list of an advertised run, the list is empty for good. -/
theorem Inv.empty_run (inv : Inv codec jobs s) (hd : Distinct jobs) (hn : Named codec jobs)
    {d r : String} (hk : s.Known codec jobs d) (hp : codec.parseRunId d = some r)
    (he : s.redis.lists (strategyKey r) = []) {as : List QueueAction}
    (h : exec (QueueState.step codec) s as = some s') : s'.redis.lists (strategyKey r) = [] := by
  have hall : Inv codec jobs s' ∧ s'.Known codec jobs d ∧ s'.redis.lists (strategyKey r) = [] := by
    refine exec_invariant (I := fun t => Inv codec jobs t ∧ t.Known codec jobs d ∧
      t.redis.lists (strategyKey r) = []) ?_ ⟨inv, hk, he⟩ h
    rintro t a t' ⟨inv, hk, he⟩ ht
    have hs := steps_of_step ht
    exact ⟨inv.step hd hn hs, hk.step hs, inv.stays_empty hd hn hs hk hp he⟩
  exact hall.2.2

/-- The work queue over every interleaving of producers and workers, crashes and stops included.
No payload is taken twice; the advert of a run that parses leaves its queue only when the list of
the run is empty for good, and is there or still to come while the list is not; and a parked
worker has submitted every payload it took that parses and reported the others. -/
theorem work_queue_safe (hd : Distinct jobs) (hn : Named codec jobs) (as : List QueueAction)
    (h : exec (step codec) (start codec jobs) as = some s) :
    (s.taken.map Taken.key).Nodup ∧
    (∀ job ∈ jobs, codec.parseRunId (job.descriptor codec) ≠ none → ∀ a t,
      step codec s a = some t → job.descriptor codec ∈ s.redis.lists job.queueKey →
      job.descriptor codec ∉ t.redis.lists job.queueKey →
      ∀ bs u, exec (step codec) s bs = some u → u.redis.lists (strategyKey job.runId) = []) ∧
    (∀ i job, jobs[i]? = some job → codec.parseRunId (job.descriptor codec) ≠ none →
      s.redis.lists (strategyKey job.runId) ≠ [] →
      job.descriptor codec ∈ s.redis.lists job.queueKey ∨ s.advertised i = false) ∧
    (∀ w, s.worker w = .parked → ∀ e ∈ s.taken, e.worker = w →
      (codec.parseStrategy e.payload = true ∧ e ∈ s.submitted) ∨
        (codec.parseStrategy e.payload = false ∧ e ∈ s.reported)) := by
  have inv := run_inv hd hn h
  refine ⟨inv.once, ?_, ?_, ?_⟩
  · intro job hjob hp a t ht hm hout bs u hu
    obtain ⟨i, hi⟩ := List.mem_iff_getElem?.mp hjob
    rcases inv.advert_step (steps_of_step ht) job.queued hm with hin | ⟨w, hw⟩
    · exact absurd hin hout
    · have hb := inv.phases w
      rw [hw] at hb
      have hparse := parse_eq hn hi hp
      exact inv.empty_run hd hn hb.1 hparse (hb.2 _ hparse) hu
  · intro i job hi hp hne
    cases ha : s.advertised i with
    | false => exact .inr rfl
    | true => exact .inl ((inv.offered i job hi hp ha).resolve_right hne)
  · rintro w hw e he rfl
    rcases inv.handled e he with hs | ⟨q, d, r, hh⟩ | hc
    · exact hs
    · rw [hw] at hh
      cases hh
    · rw [hw] at hc
      cases hc

/-! ## Texts that do not parse -/

/-- A run descriptor of run a, and an empty object, which is neither a run nor a strategy. -/
def sampleCodec : Codec where
  b64encode raw := if raw = "\x7b\x7d" then "e30=" else
    "eyJSVU5fSUQiOiJhIiwiU1lNQk9MUyI6IkVVUlVTRCIsIkxBU1RfTU9OVEhTIjoxfQ=="
  parseRunId text := if text = "e30=" then none else some "a"
  parseStrategy _ := false

def sampleJob (rawDescriptor : String) : RunJob where
  runId := "a"
  queueKey := QueueKeys.run
  rawDescriptor := rawDescriptor
  chunks := [[⟨"BACKTESTING_QUEUE_STRATEGY_PAYLOAD:a:u", "\x7b\x7d"⟩]]
  queued := List.mem_cons_self

def rawRun : String :=
  "\x7b\"RUN_ID\":\"a\",\"SYMBOLS\":\"EURUSD\",\"LAST_MONTHS\":1\x7d"

theorem sampleJob_distinct (raw : String) : Distinct [sampleJob raw] :=
  ⟨List.nodup_singleton _, List.nodup_singleton _⟩

theorem sampleJob_named (raw : String) : Named sampleCodec [sampleJob raw] := by
  intro job hjob runId h
  obtain rfl := List.mem_singleton.mp hjob
  unfold sampleCodec at h
  dsimp only at h
  split at h
  · cases h
  · cases h
    rfl

/-- A worker parks without having submitted a payload that does not parse, and a run whose
descriptor does not parse is retired while names are in its list. -/
theorem work_queue_poison :
    (¬ ∀ (codec : Codec) (jobs : List RunJob), Distinct jobs → Named codec jobs → ∀ as s,
      exec (step codec) (start codec jobs) as = some s → ∀ w, s.worker w = .parked →
        ∀ e ∈ s.taken, e.worker = w → e ∈ s.submitted) ∧
    (¬ ∀ (codec : Codec) (jobs : List RunJob), Distinct jobs → Named codec jobs → ∀ as s,
      exec (step codec) (start codec jobs) as = some s → ∀ i job, jobs[i]? = some job →
        s.redis.lists (strategyKey job.runId) ≠ [] →
          job.descriptor codec ∈ s.redis.lists job.queueKey ∨ s.advertised i = false) := by
  constructor
  · intro h
    have hview : (exec (step sampleCodec) (start sampleCodec [sampleJob rawRun])
        [.produce 0, .produce 0, .produce 0, .work 0, .work 0, .work 0, .work 0, .work 0, .work 0,
          .stop 0]).map (fun s => (s.worker 0, s.taken, s.submitted)) =
        some (.parked, [⟨0, "BACKTESTING_QUEUE_STRATEGY_PAYLOAD:a:u", "e30="⟩], []) := by decide
    obtain ⟨s, hs, hv⟩ := Option.map_eq_some_iff.mp hview
    simp only [Prod.mk.injEq] at hv
    have hsub := h _ _ (sampleJob_distinct _) (sampleJob_named _) _ s hs 0 hv.1
      ⟨0, "BACKTESTING_QUEUE_STRATEGY_PAYLOAD:a:u", "e30="⟩
      (hv.2.1 ▸ List.mem_cons_self) rfl
    rw [hv.2.2] at hsub
    cases hsub
  · intro h
    have hview : (exec (step sampleCodec) (start sampleCodec [sampleJob "\x7b\x7d"])
        [.produce 0, .produce 0, .produce 0, .work 0, .work 0, .work 0, .work 0]).map
          (fun s => (s.redis.lists QueueKeys.run, s.redis.lists (strategyKey "a"), s.advertised 0)) =
        some ([], ["BACKTESTING_QUEUE_STRATEGY_PAYLOAD:a:u"], true) := by decide
    obtain ⟨s, hs, hv⟩ := Option.map_eq_some_iff.mp hview
    simp only [Prod.mk.injEq] at hv
    rcases h _ _ (sampleJob_distinct _) (sampleJob_named _) _ s hs 0 (sampleJob "\x7b\x7d") rfl
      (by rw [show (sampleJob "\x7b\x7d").runId = "a" from rfl, hv.2.1]; simp) with hm | ha
    · rw [show (sampleJob "\x7b\x7d").queueKey = QueueKeys.run from rfl, hv.1] at hm
      cases hm
    · rw [hv.2.2] at ha
      cases ha

/-- One worker drains a run with one name. -/
theorem work_queue_safe_sample :
    ∃ s, exec (step sampleCodec) (start sampleCodec [sampleJob rawRun])
      [.produce 0, .produce 0, .produce 0, .work 0, .work 0, .work 0, .work 0, .work 0] = some s ∧
      (s.taken.map Taken.key).Nodup := by
  have hview : (exec (step sampleCodec) (start sampleCodec [sampleJob rawRun])
      [.produce 0, .produce 0, .produce 0, .work 0, .work 0, .work 0, .work 0, .work 0]).isSome =
        true := by decide
  obtain ⟨s, hs⟩ := Option.isSome_iff_exists.mp hview
  exact ⟨s, hs, (work_queue_safe (sampleJob_distinct _) (sampleJob_named _) _ hs).1⟩

end QueueState

end BacktestEngine

import BacktestEngine.Library.Transition
import BacktestEngine.Reporting.OutcomeDocuments

/-! # The ladder at work

Loads queue strategies, workers run them in any order, lose them or send them on, and every run
files its documents. However the workers take turns, the runs of a strategy are the first windows
of its ladder in their order, and all but the last of them cleared the gate.
-/

namespace BacktestEngine

open ElasticClient Operations OutcomeIndex Rolling TradingDefinitions Transition

namespace Ladder

/-- A strategy that waits to be run: the descriptor of its run, and its payload. -/
structure Job where
  descriptor : List UInt8
  payload : List UInt8

structure Seed (D : Type) where
  run : RunConfiguration D
  strategy : StrategyConfig

/-- A run that has ended, with the number of documents that were put before one threw. -/
structure Run (D : Type) where
  config : Configuration D
  outcome : Operations.Outcome D
  put : ℕ

structure State (D : Type) where
  seeds : List (Seed D)
  runIds : List String
  queue : List Job
  finished : List (Run D)
  direct : List (Run D)

def State.start {D : Type} : State D := ⟨[], [], [], [], []⟩

/-- A load queues a strategy, a worker finishes one or loses it, and somebody runs one by hand. -/
inductive Action (D : Type)
  | load (seed : Seed D)
  | finish (i : ℕ) (outcome : Operations.Outcome D) (newRunId : String) (pushed : Bool) (put : ℕ)
  | lose (i : ℕ)
  | direct (run : Run D)

def Seed.start {D : Type} (seed : Seed D) : Window :=
  ⟨seed.run.lastMonths, seed.run.offsetMonths⟩

/-- The seed's configuration over a window. -/
def Seed.over {D : Type} (seed : Seed D) (runId : String) (window : Window) : Configuration D :=
  seedOver seed.run seed.strategy runId window

@[simp] theorem Seed.over_strategy {D : Type} (seed : Seed D) (runId : String) (window : Window) :
    (seed.over runId window).strategy = seed.strategy := rfl

@[simp] theorem Seed.over_runId {D : Type} (seed : Seed D) (runId : String) (window : Window) :
    (seed.over runId window).runId = runId := rfl

def Run.filed {D : Type} (tradesEnabled : Bool) (r : Run D) : List (Document D) :=
  (documents tradesEnabled r.config r.outcome).take r.put

/-- The runs of a strategy, in the order that they ended. -/
def runsOf {D : Type} (finished : List (Run D)) (uuid : String) : List (Run D) :=
  finished.filter fun r => r.config.strategy.uuid = uuid

section Steps

variable (text : JsonLibrary) {D : Type} [NatCast D] [DecimalText D]

/-- What a run that ends leaves on the queue. -/
def chained (config : Configuration D) (status : RunStatus) (newRunId : String) (pushed : Bool) :
    List Job :=
  match chainedWindow config status with
  | none => []
  | some next =>
    match queueNextWindow text config next newRunId with
    | .ok sent => if pushed then [⟨sent.descriptor, sent.payload⟩] else []
    | .error _ => []

def Job.config (job : Job) : Option (Configuration D) :=
  (reassemble text job.descriptor job.payload).toOption

def step (s : State D) : Action D → Option (State D)
  | .load seed =>
    match encode text seed.run, encode text seed.strategy with
    | .ok descriptor, .ok payload =>
      some { s with
        seeds := s.seeds ++ [seed]
        runIds := s.runIds ++ [seed.run.runId]
        queue := s.queue ++ [⟨descriptor, payload⟩] }
    | _, _ => none
  | .finish i outcome newRunId pushed put =>
    s.queue[i]?.map fun job =>
      match job.config text with
      -- a configuration that does not parse is dropped
      | none => { s with queue := s.queue.eraseIdx i }
      | some config =>
        { s with
          runIds := s.runIds ++ [newRunId]
          queue := s.queue.eraseIdx i ++ chained text config outcome.status newRunId pushed
          finished := s.finished ++ [⟨config, outcome, put⟩] }
  | .lose i => s.queue[i]?.map fun _ => { s with queue := s.queue.eraseIdx i }
  | .direct run => some { s with direct := s.direct ++ [run] }

/-- Identifiers are random, so that none comes twice, and a sweep counts no bars below nought. -/
def Sound (s : State D) : Action D → Prop
  | .load seed => seed.strategy.BarsNonnegative ∧
      ∀ seed' ∈ s.seeds, seed'.strategy.uuid ≠ seed.strategy.uuid
  | .finish _ _ newRunId _ _ => newRunId ∉ s.runIds
  | .lose _ => True
  | .direct _ => True

end Steps

/-! ## The stages of a strategy -/

section Stages

variable {D : Type} {seed : Seed D} {runs : List (Run D)} {window : Window}

/-- The runs that took a strategy to a window. -/
inductive Climbed (seed : Seed D) : List (Run D) → Window → Prop
  | start : Climbed seed [] seed.start
  | next {runs : List (Run D)} {window next : Window} (runId : String)
      (outcome : Operations.Outcome D) (put : ℕ) (hclimbed : Climbed seed runs window)
      (hstatus : outcome.status = .completed)
      (hnext : nextWindow window.lastMonths window.offsetMonths = some next) :
      Climbed seed (runs ++ [⟨seed.over runId window, outcome, put⟩]) next

/-- A strategy waits at a window, or was lost on the way to it, or has ended there. -/
inductive Stage (seed : Seed D) : List (Run D) → List (Configuration D) → Prop
  | waiting {runs : List (Run D)} {window : Window} (runId : String)
      (hclimbed : Climbed seed runs window) : Stage seed runs [seed.over runId window]
  | lost {runs : List (Run D)} {window : Window} (hclimbed : Climbed seed runs window) :
      Stage seed runs []
  | ended {runs : List (Run D)} {window : Window} (runId : String)
      (outcome : Operations.Outcome D) (put : ℕ) (hclimbed : Climbed seed runs window) :
      Stage seed (runs ++ [⟨seed.over runId window, outcome, put⟩]) []

theorem getElem?_concat {α : Type} {xs : List α} {x y : α} {k : ℕ} :
    (xs ++ [y])[k]? = some x ↔ xs[k]? = some x ∨ k = xs.length ∧ y = x := by
  rcases lt_trichotomy k xs.length with hk | rfl | hk
  · rw [List.getElem?_append_left hk]
    simp [hk.ne]
  · simp
  · rw [List.getElem?_append_right hk.le, List.getElem?_eq_none (by simp; omega),
      List.getElem?_eq_none hk.le]
    simp [hk.ne']

theorem Climbed.advance (h : Climbed seed runs window) :
    Rolling.advance seed.start runs.length = some window := by
  induction h with
  | start => rfl
  | next runId outcome put hclimbed hstatus hnext ih =>
    rw [List.length_append, List.length_singleton, Rolling.advance, ih]
    exact hnext

/-- Each run is over the window that as many steps lead to, and cleared the gate. -/
theorem Climbed.run (h : Climbed seed runs window) {k : ℕ} {r : Run D} (hr : runs[k]? = some r) :
    ∃ runId window, Rolling.advance seed.start k = some window ∧
      r.config = seed.over runId window ∧ r.outcome.status = .completed := by
  induction h with
  | start => simp at hr
  | @next runs window next runId outcome put hclimbed hstatus hnext ih =>
    rcases getElem?_concat.mp hr with hr | ⟨rfl, rfl⟩
    · exact ih hr
    · exact ⟨runId, window, hclimbed.advance, rfl, hstatus⟩

/-- The runs of a strategy are over the windows of its ladder, and all but the last cleared the
gate. -/
theorem Stage.run {waiting : List (Configuration D)} (h : Stage seed runs waiting) {k : ℕ}
    {r : Run D} (hr : runs[k]? = some r) :
    ∃ runId window, Rolling.advance seed.start k = some window ∧
      r.config = seed.over runId window ∧
      (k + 1 < runs.length → r.outcome.status = .completed) := by
  cases h with
  | waiting runId hclimbed =>
    obtain ⟨runId', window', hadvance, hconfig, hstatus⟩ := hclimbed.run hr
    exact ⟨runId', window', hadvance, hconfig, fun _ => hstatus⟩
  | lost hclimbed =>
    obtain ⟨runId', window', hadvance, hconfig, hstatus⟩ := hclimbed.run hr
    exact ⟨runId', window', hadvance, hconfig, fun _ => hstatus⟩
  | ended runId outcome put hclimbed =>
    rcases getElem?_concat.mp hr with hr | ⟨rfl, rfl⟩
    · obtain ⟨runId', window', hadvance, hconfig, hstatus⟩ := hclimbed.run hr
      exact ⟨runId', window', hadvance, hconfig, fun _ => hstatus⟩
    · refine ⟨runId, _, hclimbed.advance, rfl, fun hlt => ?_⟩
      simp at hlt

/-- A strategy that waits, waits once. -/
theorem Stage.of_append {before after : List (Configuration D)} {config : Configuration D}
    (h : Stage seed runs (before ++ config :: after)) :
    before = [] ∧ after = [] ∧
      ∃ runId window, Climbed seed runs window ∧ config = seed.over runId window := by
  generalize hwaiting : before ++ config :: after = waiting at h
  cases h with
  | waiting runId hclimbed =>
    rcases List.append_eq_singleton_iff.mp hwaiting with ⟨rfl, hone⟩ | ⟨-, hnone⟩
    · obtain ⟨rfl, rfl⟩ := List.cons.inj hone
      exact ⟨rfl, rfl, runId, _, hclimbed, rfl⟩
    · simp at hnone
  | lost hclimbed => simp at hwaiting
  | ended runId outcome put hclimbed => simp at hwaiting

end Stages

/-! ## The ladder without the wire -/

/-- What the state says, with configurations in the place of their texts. -/
structure Ledger (D : Type) where
  seeds : List (Seed D)
  runIds : List String
  waiting : List (Configuration D)
  finished : List (Run D)

namespace Ledger

variable {D : Type}

def waitingOf (l : Ledger D) (uuid : String) : List (Configuration D) :=
  l.waiting.filter fun config => config.strategy.uuid = uuid

/-- The configurations that were queued and not lost. -/
def configs (l : Ledger D) : List (Configuration D) := l.finished.map Run.config ++ l.waiting

/-- A strategy is loaded, lost, or run and perhaps sent on over the next window. -/
inductive Turn (l : Ledger D) : Ledger D → Prop
  | idle : Turn l l
  | load (seed : Seed D) (hbars : seed.strategy.BarsNonnegative)
      (hnew : ∀ seed' ∈ l.seeds, seed'.strategy.uuid ≠ seed.strategy.uuid) :
      Turn l
        { seeds := l.seeds ++ [seed]
          runIds := l.runIds ++ [seed.run.runId]
          waiting := l.waiting ++ [seed.over seed.run.runId seed.start]
          finished := l.finished }
  | lose {before after : List (Configuration D)} {config : Configuration D}
      (hwaiting : l.waiting = before ++ config :: after) :
      Turn l { l with waiting := before ++ after }
  | finish {before after sent : List (Configuration D)} {config : Configuration D}
      (outcome : Operations.Outcome D) (newRunId : String) (put : ℕ)
      (hwaiting : l.waiting = before ++ config :: after) (hnew : newRunId ∉ l.runIds)
      (hsent : sent = [] ∨ ∃ next, outcome.status = .completed ∧
        nextWindow config.lastMonths config.offsetMonths = some next ∧
        sent = [seedOver config.toRunConfiguration config.strategy newRunId next]) :
      Turn l
        { seeds := l.seeds
          runIds := l.runIds ++ [newRunId]
          waiting := before ++ after ++ sent
          finished := l.finished ++ [⟨config, outcome, put⟩] }

/-- Every strategy is at a stage of its ladder, and what runs is known. -/
structure Inv (l : Ledger D) : Prop where
  stage : ∀ seed ∈ l.seeds, Stage seed (runsOf l.finished seed.strategy.uuid)
    (l.waitingOf seed.strategy.uuid)
  known : ∀ config ∈ l.configs, config.runId ∈ l.runIds ∧
    ∃ seed ∈ l.seeds, config.strategy.uuid = seed.strategy.uuid
  bars : ∀ seed ∈ l.seeds, seed.strategy.BarsNonnegative
  apart : (l.configs.map fun config => (config.runId, config.strategy.uuid)).Nodup

variable {l l' : Ledger D} {config : Configuration D} {before after sent : List (Configuration D)}

theorem runsOf_eq_nil {uuid : String} (h : ∀ c ∈ l.configs, c.strategy.uuid ≠ uuid) :
    runsOf l.finished uuid = [] := by
  rw [runsOf, List.filter_eq_nil_iff]
  intro r hr
  simpa using h r.config (List.mem_append_left _ (List.mem_map_of_mem hr))

theorem waitingOf_eq_nil {uuid : String} (h : ∀ c ∈ l.configs, c.strategy.uuid ≠ uuid) :
    l.waitingOf uuid = [] := by
  rw [waitingOf, List.filter_eq_nil_iff]
  intro c hc
  simpa using h c (List.mem_append_right _ hc)

/-- A strategy that waits is the only one of its name that does. -/
theorem Inv.waiting (inv : Inv l) (h : l.waiting = before ++ config :: after) {seed : Seed D}
    (hseed : seed ∈ l.seeds) (huuid : config.strategy.uuid = seed.strategy.uuid) :
    (∃ runId window, Climbed seed (runsOf l.finished seed.strategy.uuid) window ∧
      config = seed.over runId window) ∧
    (before ++ after).filter (fun c => c.strategy.uuid = seed.strategy.uuid) = [] := by
  have hof : l.waitingOf seed.strategy.uuid =
      before.filter (fun c => c.strategy.uuid = seed.strategy.uuid) ++
        config :: after.filter (fun c => c.strategy.uuid = seed.strategy.uuid) := by
    simp [waitingOf, h, huuid]
  obtain ⟨hbefore, hafter, hclimbed⟩ := (hof ▸ inv.stage seed hseed).of_append
  rw [List.filter_append, hbefore, hafter]
  exact ⟨hclimbed, rfl⟩

/-- What comes beside the configurations is known, and has a name of its own. -/
theorem Inv.apart_append (inv : Inv l) {more : List (Configuration D)}
    (hmore : (more.map fun c => (c.runId, c.strategy.uuid)).Nodup)
    (hnew : ∀ c ∈ more, ∀ c' ∈ l.configs,
      c'.runId ≠ c.runId ∨ c'.strategy.uuid ≠ c.strategy.uuid) :
    ((l.configs ++ more).map fun c => (c.runId, c.strategy.uuid)).Nodup := by
  rw [List.map_append]
  apply List.Nodup.append inv.apart hmore
  intro key hkey hkey'
  obtain ⟨c', hc', rfl⟩ := List.mem_map.mp hkey
  obtain ⟨c, hc, heq⟩ := List.mem_map.mp hkey'
  obtain ⟨hrunId, huuid⟩ := Prod.mk.inj heq
  rcases hnew c hc c' hc' with h | h
  · exact h hrunId.symm
  · exact h huuid.symm

theorem Inv.load (inv : Inv l) (seed : Seed D) (hbars : seed.strategy.BarsNonnegative)
    (hnew : ∀ seed' ∈ l.seeds, seed'.strategy.uuid ≠ seed.strategy.uuid) :
    Inv
      { seeds := l.seeds ++ [seed]
        runIds := l.runIds ++ [seed.run.runId]
        waiting := l.waiting ++ [seed.over seed.run.runId seed.start]
        finished := l.finished } := by
  have hother : ∀ c ∈ l.configs, c.strategy.uuid ≠ seed.strategy.uuid := by
    intro c hc
    obtain ⟨-, seed', hseed', huuid⟩ := inv.known c hc
    exact huuid ▸ hnew seed' hseed'
  have hconfigs : l.finished.map Run.config ++
      (l.waiting ++ [seed.over seed.run.runId seed.start]) =
        l.configs ++ [seed.over seed.run.runId seed.start] := (List.append_assoc _ _ _).symm
  constructor
  · intro seed' hseed'
    rcases List.mem_append.mp hseed' with hseed' | hseed'
    · have huuid : seed.strategy.uuid ≠ seed'.strategy.uuid := fun h => hnew seed' hseed' h.symm
      simpa [runsOf, waitingOf, huuid] using inv.stage seed' hseed'
    · obtain rfl := List.mem_singleton.mp hseed'
      have hruns := runsOf_eq_nil hother
      have hwaiting := waitingOf_eq_nil hother
      have hstage : Stage seed' [] [seed'.over seed'.run.runId seed'.start] := .waiting _ .start
      unfold runsOf at hruns
      unfold waitingOf at hwaiting
      simpa [runsOf, waitingOf, hruns, hwaiting] using hstage
  · unfold configs
    rw [hconfigs]
    intro c hc
    rcases List.mem_append.mp hc with hc | hc
    · obtain ⟨hrunId, seed', hseed', huuid⟩ := inv.known c hc
      exact ⟨List.mem_append_left _ hrunId, seed', List.mem_append_left _ hseed', huuid⟩
    · obtain rfl := List.mem_singleton.mp hc
      exact ⟨by simp, seed, by simp, rfl⟩
  · intro seed' hseed'
    rcases List.mem_append.mp hseed' with hseed' | hseed'
    · exact inv.bars seed' hseed'
    · exact List.mem_singleton.mp hseed' ▸ hbars
  · unfold configs
    rw [hconfigs]
    apply inv.apart_append (by simp)
    intro c hc c' hc'
    obtain rfl := List.mem_singleton.mp hc
    exact .inr (hother c' hc')

theorem Inv.lose (inv : Inv l) (hwaiting : l.waiting = before ++ config :: after) :
    Inv { l with waiting := before ++ after } := by
  have hsub : (l.finished.map Run.config ++ (before ++ after)).Sublist l.configs := by
    unfold configs
    rw [hwaiting]
    exact ((List.sublist_cons_self config after).append_left before).append_left _
  constructor
  · intro seed hseed
    by_cases huuid : config.strategy.uuid = seed.strategy.uuid
    · obtain ⟨⟨runId, window, hclimbed, -⟩, hnone⟩ := inv.waiting hwaiting hseed huuid
      unfold waitingOf
      dsimp only
      rw [hnone]
      exact .lost hclimbed
    · simpa [runsOf, waitingOf, hwaiting, huuid] using inv.stage seed hseed
  · intro c hc
    exact inv.known c (hsub.subset hc)
  · exact inv.bars
  · exact inv.apart.sublist (hsub.map _)

theorem Inv.finish (inv : Inv l) (outcome : Operations.Outcome D) (newRunId : String) (put : ℕ)
    (hwaiting : l.waiting = before ++ config :: after) (hnew : newRunId ∉ l.runIds)
    (hsent : sent = [] ∨ ∃ next, outcome.status = .completed ∧
      nextWindow config.lastMonths config.offsetMonths = some next ∧
      sent = [seedOver config.toRunConfiguration config.strategy newRunId next]) :
    Inv
      { seeds := l.seeds
        runIds := l.runIds ++ [newRunId]
        waiting := before ++ after ++ sent
        finished := l.finished ++ [⟨config, outcome, put⟩] } := by
  have hperm : ((l.finished ++ [(⟨config, outcome, put⟩ : Run D)]).map Run.config ++
      (before ++ after ++ sent)).Perm (l.configs ++ sent) := by
    unfold configs
    simp only [hwaiting, List.map_append, List.map_cons, List.map_nil, List.append_assoc,
      List.cons_append, List.nil_append]
    apply List.Perm.append_left
    exact List.perm_middle.symm
  have hmem : config ∈ l.configs := by
    simp [configs, hwaiting]
  have hsame : ∀ c ∈ sent, c.runId = newRunId ∧ c.strategy = config.strategy := by
    intro c hc
    rcases hsent with rfl | ⟨next, -, -, rfl⟩
    · simp at hc
    · obtain rfl := List.mem_singleton.mp hc
      exact ⟨rfl, rfl⟩
  constructor
  · intro seed hseed
    by_cases huuid : config.strategy.uuid = seed.strategy.uuid
    · obtain ⟨⟨runId, window, hclimbed, rfl⟩, hnone⟩ := inv.waiting hwaiting hseed huuid
      have hruns : Stage seed (runsOf l.finished seed.strategy.uuid ++
          [⟨seed.over runId window, outcome, put⟩]) sent := by
        rcases hsent with rfl | ⟨next, hstatus, hnext, rfl⟩
        · exact .ended runId outcome put hclimbed
        · exact .waiting newRunId (.next runId outcome put hclimbed hstatus hnext)
      have hall : sent.filter (fun c => c.strategy.uuid = seed.strategy.uuid) = sent := by
        rw [List.filter_eq_self]
        intro c hc
        simp [(hsame c hc).2]
      unfold runsOf at hruns
      unfold runsOf waitingOf
      dsimp only
      rw [List.filter_append (before ++ after), hnone, hall]
      simpa using hruns
    · have hnone : sent.filter (fun c => c.strategy.uuid = seed.strategy.uuid) = [] := by
        rw [List.filter_eq_nil_iff]
        intro c hc
        simpa [(hsame c hc).2] using huuid
      simpa [runsOf, waitingOf, hwaiting, huuid, hnone] using inv.stage seed hseed
  · intro c hc
    rcases List.mem_append.mp (hperm.mem_iff.mp hc) with hc | hc
    · obtain ⟨hrunId, hseed⟩ := inv.known c hc
      exact ⟨List.mem_append_left _ hrunId, hseed⟩
    · obtain ⟨hrunId, hstrategy⟩ := hsame c hc
      exact ⟨by simp [hrunId], hstrategy ▸ (inv.known config hmem).2⟩
  · exact inv.bars
  · apply ((hperm.map _).nodup_iff).mpr
    apply inv.apart_append
    · rcases hsent with rfl | ⟨next, -, -, rfl⟩ <;> simp
    · intro c hc c' hc'
      refine .inl fun h => hnew ?_
      rw [← (hsame c hc).1, ← h]
      exact (inv.known c' hc').1

theorem Inv.turn (inv : Inv l) (h : Turn l l') : Inv l' := by
  cases h with
  | idle => exact inv
  | load seed hbars hnew => exact inv.load seed hbars hnew
  | lose hwaiting => exact inv.lose hwaiting
  | finish outcome newRunId put hwaiting hnew hsent =>
    exact inv.finish outcome newRunId put hwaiting hnew hsent

end Ledger

/-! ## The wire changes nothing -/

section Wire

variable {text : JsonLibrary} {D : Type} [NatCast D] [DecimalText D] {s s' : State D}
  {a : Action D} {config : Configuration D} {status : RunStatus} {newRunId : String}
  {pushed : Bool}

open Ledger

variable (text) in
def State.ledger (s : State D) : Ledger D :=
  ⟨s.seeds, s.runIds, s.queue.filterMap (Job.config text), s.finished⟩

variable (text) in
/-- Taking a job off the queue takes its configuration off those that wait. -/
theorem waiting_eraseIdx {i : ℕ} {job : Job} (h : s.queue[i]? = some job) :
    ∃ before after, (s.ledger text).waiting =
        before ++ ((job.config text).toList ++ after) ∧
      (s.queue.eraseIdx i).filterMap (Job.config (D := D) text) = before ++ after := by
  obtain ⟨hi, rfl⟩ := List.getElem?_eq_some_iff.mp h
  refine ⟨(s.queue.take i).filterMap (Job.config text),
    (s.queue.drop (i + 1)).filterMap (Job.config text), ?_, ?_⟩
  · unfold State.ledger
    dsimp only
    conv_lhs => rw [← List.take_append_drop i s.queue, ← List.getElem_cons_drop hi]
    rw [List.filterMap_append, List.filterMap_cons]
    cases s.queue[i].config (D := D) text <;> simp
  · rw [List.eraseIdx_eq_take_drop_succ, List.filterMap_append]

/-- A run that ends sends on the same strategy over the next window, or nothing. -/
theorem chained_cases (htext : text.ParsesDumps) (hdecimal : DecimalText.RoundTrips D)
    (hbars : config.strategy.BarsNonnegative) {sent : List (Configuration D)}
    (hsent : (chained text config status newRunId pushed).filterMap (Job.config text) = sent) :
    sent = [] ∨ ∃ next, status = .completed ∧
      nextWindow config.lastMonths config.offsetMonths = some next ∧
      sent = [seedOver config.toRunConfiguration config.strategy newRunId next] := by
  subst hsent
  unfold chained
  cases hchained : chainedWindow config status with
  | none => exact .inl rfl
  | some next =>
    dsimp only
    cases hqueued : queueNextWindow text config next newRunId with
    | error error => exact .inl rfl
    | ok queued =>
      cases pushed with
      | false => exact .inl rfl
      | true =>
        have hparsed := reassemble_queueNextWindow htext hdecimal hbars hqueued
        unfold chainedWindow at hchained
        split_ifs at hchained with hstatus
        refine .inr ⟨next, hstatus, hchained, ?_⟩
        simp [Job.config, hparsed, Except.toOption]

theorem turn_of_load (htext : text.ParsesDumps) (hdecimal : DecimalText.RoundTrips D)
    {seed : Seed D} (hsound : Sound s (.load seed)) (h : step text s (.load seed) = some s') :
    Turn (s.ledger text) (s'.ledger text) := by
  dsimp only [step] at h
  cases hrun : encode text seed.run with
  | error error =>
    simp [hrun] at h
  | ok descriptor =>
    cases hstrategy : encode text seed.strategy with
    | error error => simp [hrun, hstrategy] at h
    | ok payload =>
      simp only [hrun, hstrategy, Option.some.injEq] at h
      subst h
      have hparsed : Job.config text ⟨descriptor, payload⟩ =
          some (seed.over seed.run.runId seed.start) := by
        simp only [Job.config, reassemble_encode htext hdecimal hsound.1 hrun hstrategy]
        rfl
      have hturn := Turn.load (l := s.ledger text) seed hsound.1 hsound.2
      simpa [State.ledger, hparsed] using hturn

theorem turn_of_erase {i : ℕ} {job : Job} (hjob : s.queue[i]? = some job) :
    Turn (s.ledger text) (({ s with queue := s.queue.eraseIdx i } : State D).ledger text) := by
  obtain ⟨before, after, hwaiting, herased⟩ := waiting_eraseIdx text hjob
  have hledger : ({ s with queue := s.queue.eraseIdx i } : State D).ledger text =
      { s.ledger text with waiting := before ++ after } := by
    unfold State.ledger
    rw [herased]
  rw [hledger]
  cases hconfig : job.config (D := D) text with
  | none =>
    rw [hconfig, Option.toList_none, List.nil_append] at hwaiting
    rw [← hwaiting]
    exact .idle
  | some config =>
    rw [hconfig] at hwaiting
    exact .lose hwaiting

/-- Through the wire, a step is a turn of the ladder without it. -/
theorem turn_of_step (htext : text.ParsesDumps) (hdecimal : DecimalText.RoundTrips D)
    (inv : (s.ledger text).Inv) (hsound : Sound s a) (h : step text s a = some s') :
    Turn (s.ledger text) (s'.ledger text) := by
  cases a with
  | load seed => exact turn_of_load htext hdecimal hsound h
  | finish i outcome newRunId pushed put =>
    obtain ⟨job, hjob, hs'⟩ := Option.map_eq_some_iff.mp h
    cases hconfig : job.config (D := D) text with
    | none =>
      simp only [hconfig] at hs'
      exact hs' ▸ turn_of_erase hjob
    | some config =>
      simp only [hconfig] at hs'
      obtain ⟨before, after, hwaiting, herased⟩ := waiting_eraseIdx text hjob
      rw [hconfig, Option.toList_some, List.singleton_append] at hwaiting
      have hbars : config.strategy.BarsNonnegative := by
        obtain ⟨-, seed, hseed, huuid⟩ := inv.known config (by simp [configs, hwaiting])
        obtain ⟨⟨runId, window, -, rfl⟩, -⟩ := inv.waiting hwaiting hseed huuid
        exact inv.bars seed hseed
      have hsent := @chained_cases text D _ _ config outcome.status newRunId pushed htext hdecimal
        hbars _ rfl
      have hturn := Turn.finish outcome newRunId put hwaiting hsound hsent
      rw [← herased, ← List.filterMap_append] at hturn
      exact hs' ▸ hturn
  | lose i =>
    obtain ⟨job, hjob, rfl⟩ := Option.map_eq_some_iff.mp h
    exact turn_of_erase hjob
  | direct run =>
    obtain rfl := Option.some.inj h
    exact .idle

theorem start_inv : ((State.start : State D).ledger text).Inv where
  stage := by
    intro seed hseed
    cases hseed
  known := by
    intro config hconfig
    cases hconfig
  bars := by
    intro seed hseed
    cases hseed
  apart := List.nodup_nil

theorem run_inv (htext : text.ParsesDumps) (hdecimal : DecimalText.RoundTrips D)
    {as : List (Action D)} (hsound : Along (step text) Sound .start as)
    (h : exec (step text) .start as = some s) : (s.ledger text).Inv :=
  exec_invariant_along (I := fun s => (s.ledger text).Inv)
    (fun _ _ _ inv hs hstep => inv.turn (turn_of_step htext hdecimal inv hs hstep))
    start_inv hsound h

end Wire

/-! ## What a run of the system shows -/

section Runs

variable {text : JsonLibrary} {D : Type} [NatCast D] [DecimalText D]

theorem advance_eq_none_of_le {start : Window} {m n : ℕ} (h : advance start m = none)
    (hmn : m ≤ n) : advance start n = none := by
  induction n, hmn using Nat.le_induction with
  | base => exact h
  | succ n hmn ih => rw [advance, ih, Option.bind_none]

end Runs

/-! One strategy, loaded over the last slice, that completes it and the full history. -/

section Sample

attribute [local instance] instDecimalTextNat

/-- The two ends of a descriptor's text. -/
def descriptorText (lastMonths offsetMonths runId : String) : List UInt8 :=
  asciiBytes "\x7b\"BATCH\":" ++ (asciiBytes ("\"2026-28\",\"ENTRY_SLIPPAGE_TENTH_PIPS\":3," ++
    "\"EXECUTION_TS\":\"2026-07-06T06:00:00Z\",\"LAST_MONTHS\":") ++ (asciiBytes lastMonths ++
    asciiBytes (",\"MAX_LOSS_PERCENT\":\"5\",\"MAX_OPEN_TRADES\":1,\"MAX_TRADES_PER_MINUTE\":60," ++
      "\"OFFSET_MONTHS\":" ++ offsetMonths ++ ",\"PEAK_HOURS_ONLY\":true," ++
      "\"REPORT_FAILURES\":false,\"RUN_ID\":\"" ++ runId ++
      "\",\"STARTING_BALANCE\":\"10000\",\"SYMBOLS\":\"EURUSD\"\x7d")))

def sampleSeed : Seed ℕ where
  run := { sampleRun with lastMonths := 3, offsetMonths := 6 }
  strategy := sampleStrategy

def sampleNext : RunConfiguration ℕ :=
  { sampleRun with runId := "next", lastMonths := 9, offsetMonths := 0 }

/-- The texts of the sample. -/
def sampleTexts : List (Except JsonError JsonValue × List UInt8) :=
  [(toJson sampleSeed.run, descriptorText "3" "6" "run"),
   (toJson sampleNext, descriptorText "9" "0" "next"),
   (toJson sampleStrategy, sampleStrategyText)]

theorem sampleTexts_nodup : (sampleTexts.map Prod.snd).Nodup := by
  have hbatch : asciiBytes "\x7b\"BATCH\":" = [123, 34, 66, 65, 84, 67, 72, 34, 58] := by
    simp [asciiBytes]
  have hohlc : asciiBytes "\x7b\"OHLC_VARIABLES\":" =
      [123, 34, 79, 72, 76, 67, 95, 86, 65, 82, 73, 65, 66, 76, 69, 83, 34, 58] := by
    simp [asciiBytes]
  have hmonths : asciiBytes "3" = [51] ∧ asciiBytes "9" = [57] := by
    simp [asciiBytes]
  have hruns : descriptorText "3" "6" "run" ≠ descriptorText "9" "0" "next" := by
    unfold descriptorText
    rw [hmonths.1, hmonths.2]
    intro h
    have hrest := List.append_cancel_left (List.append_cancel_left h)
    exact append_ne_append (i := 0) (by decide) (by decide) (by decide) _ _ hrest
  have hstrategy : ∀ lastMonths offsetMonths runId,
      descriptorText lastMonths offsetMonths runId ≠ sampleStrategyText := by
    intro lastMonths offsetMonths runId
    unfold descriptorText sampleStrategyText
    rw [hbatch, hohlc]
    exact append_ne_append (i := 2) (by decide) (by decide) (by decide) _ _
  simp only [sampleTexts, List.map_cons, List.map_nil, List.nodup_cons, List.mem_cons,
    List.not_mem_nil, or_false, not_or, not_false_eq_true, List.nodup_nil, and_true]
  exact ⟨⟨hruns, hstrategy _ _ _⟩, hstrategy _ _ _⟩

attribute [irreducible] descriptorText

open Classical in
/-- A library that knows some values and their texts. -/
noncomputable def tableText (table : List (Except JsonError JsonValue × List UInt8)) :
    JsonLibrary where
  dump j :=
    match table.find? fun e => e.1 = .ok j with
    | some e => .ok e.2
    | none => .error .type
  parse bytes :=
    match table.find? fun e => e.2 = bytes with
    | some e => e.1
    | none => .error .parse

theorem tableText_parsesDumps {table : List (Except JsonError JsonValue × List UInt8)}
    (h : (table.map Prod.snd).Nodup) : (tableText table).ParsesDumps := by
  intro j bytes hdump
  unfold tableText at *
  dsimp only at *
  split at hdump
  · rename_i e hfound
    obtain rfl := Except.ok.inj hdump
    have hmem := List.mem_of_find?_eq_some hfound
    have hvalue : e.1 = .ok j := by
      simpa using List.find?_some hfound
    split
    · rename_i e' hfound'
      have htext : e'.2 = e.2 := by
        simpa using List.find?_some hfound'
      rw [List.inj_on_of_nodup_map h (List.mem_of_find?_eq_some hfound') hmem htext]
      exact hvalue
    · rename_i hnone
      have hne := List.find?_eq_none.mp hnone e hmem
      simp at hne
  · cases hdump

/-- What is in the table can be sent. -/
theorem encode_tableText {α : Type} [Serializer α] {a : α} (ha : ReadsBack a)
    {table : List (Except JsonError JsonValue × List UInt8)} {bytes : List UInt8}
    (h : (toJson a, bytes) ∈ table) : ∃ sent, encode (tableText table) a = .ok sent := by
  obtain ⟨j, hto, -⟩ := ha
  have hdump : ∃ text, (tableText table).dump j = .ok text := by
    unfold tableText
    dsimp only
    split
    · exact ⟨_, rfl⟩
    · rename_i hnone
      have hne := List.find?_eq_none.mp hnone _ h
      simp [hto] at hne
  obtain ⟨text, htext⟩ := hdump
  refine ⟨Base64.b64encode text, ?_⟩
  rw [encode, hto]
  change ((tableText table).dump j >>= _) = _
  rw [htext]
  rfl

def sampleOutcome : Operations.Outcome ℕ where
  status := .completed
  closedTrades := ["T1"]
  results := ⟨0, 0, 0, 0, 0, 0, 0, 0, 0, 0, 0, none, 0, 0, 0, 0, 0, 0, 0⟩

def sampleTurns : List (Action ℕ) :=
  [.load sampleSeed, .finish 0 sampleOutcome "next" true 3, .finish 0 sampleOutcome "last" true 3]

/-- The strategy climbs to the full history. -/
theorem sample_climbs : ∃ s : State ℕ,
    exec (step (tableText sampleTexts)) .start sampleTurns = some s ∧
    Along (step (tableText sampleTexts)) Sound .start sampleTurns ∧
    s.finished = [⟨sampleSeed.over "run" ⟨3, 6⟩, sampleOutcome, 3⟩,
      ⟨sampleSeed.over "next" kFullHistory, sampleOutcome, 3⟩] := by
  have htext := tableText_parsesDumps sampleTexts_nodup
  have hreads : ∀ run : RunConfiguration ℕ, ReadsBack run :=
    readsBack_runConfiguration naturals_roundTrip
  obtain ⟨descriptor, hrun⟩ := encode_tableText (hreads sampleSeed.run)
    (show (_, descriptorText "3" "6" "run") ∈ sampleTexts by simp [sampleTexts])
  obtain ⟨descriptor', hnext⟩ := encode_tableText (hreads sampleNext)
    (show (_, descriptorText "9" "0" "next") ∈ sampleTexts by simp [sampleTexts])
  obtain ⟨payload, hstrategy⟩ : ∃ payload,
      encode (tableText sampleTexts) sampleSeed.strategy = .ok payload :=
    encode_tableText (readsBack_strategyConfig sampleStrategy_bars)
      (show (_, sampleStrategyText) ∈ sampleTexts by simp [sampleTexts, sampleSeed])
  have hparsed : Job.config (tableText sampleTexts) ⟨descriptor, payload⟩ =
      some (sampleSeed.over "run" ⟨3, 6⟩) := by
    simp only [Job.config, reassemble_encode htext naturals_roundTrip sampleStrategy_bars hrun
      hstrategy]
    rfl
  have hparsed' : Job.config (tableText sampleTexts) ⟨descriptor', payload⟩ =
      some (sampleSeed.over "next" kFullHistory) := by
    simp only [Job.config, reassemble_encode htext naturals_roundTrip sampleStrategy_bars hnext
      hstrategy]
    rfl
  have hqueued : queueNextWindow (tableText sampleTexts) (sampleSeed.over "run" ⟨3, 6⟩)
      kFullHistory "next" = .ok
        { strategyKey := "BACKTESTING_QUEUE_STRATEGY:" ++ "next"
          payloadKey := "BACKTESTING_QUEUE_STRATEGY_PAYLOAD:" ++ "next" ++ ":" ++
            sampleStrategy.uuid
          payload
          queueKey := queueKeyFor kFullHistory
          descriptor := descriptor' } := by
    have hpayload : encode (tableText sampleTexts) (sampleSeed.over "run" ⟨3, 6⟩).strategy =
        .ok payload := hstrategy
    have hdescriptor : encode (tableText sampleTexts)
        (nextRunConfiguration (sampleSeed.over "run" ⟨3, 6⟩) kFullHistory "next") =
          .ok descriptor' := hnext
    unfold queueNextWindow
    rw [hpayload, hdescriptor]
    rfl
  have hchained : chained (tableText sampleTexts) (sampleSeed.over "run" ⟨3, 6⟩) .completed "next"
      true = [⟨descriptor', payload⟩] := by
    have hwindow : chainedWindow (sampleSeed.over "run" ⟨3, 6⟩) .completed = some kFullHistory := by
      decide
    simp only [chained, hwindow, hqueued, if_true]
  have hlast : chained (tableText sampleTexts) (sampleSeed.over "next" kFullHistory) .completed
      "last" true = [] := by
    have hwindow : chainedWindow (sampleSeed.over "next" kFullHistory) .completed = none := by
      decide
    simp only [chained, hwindow]
  have hload : step (tableText sampleTexts) .start (.load sampleSeed) =
      some ⟨[sampleSeed], ["run"], [⟨descriptor, payload⟩], [], []⟩ := by
    simp only [step, hrun, hstrategy]
    rfl
  have hfirst : step (tableText sampleTexts)
      ⟨[sampleSeed], ["run"], [⟨descriptor, payload⟩], [], []⟩
      (.finish 0 sampleOutcome "next" true 3) =
        some ⟨[sampleSeed], ["run", "next"], [⟨descriptor', payload⟩],
          [⟨sampleSeed.over "run" ⟨3, 6⟩, sampleOutcome, 3⟩], []⟩ := by
    simp [step, hparsed, hchained, sampleOutcome]
  have hsecond : step (tableText sampleTexts) ⟨[sampleSeed], ["run", "next"],
      [⟨descriptor', payload⟩], [⟨sampleSeed.over "run" ⟨3, 6⟩, sampleOutcome, 3⟩], []⟩
      (.finish 0 sampleOutcome "last" true 3) =
        some ⟨[sampleSeed], ["run", "next", "last"], [],
          [⟨sampleSeed.over "run" ⟨3, 6⟩, sampleOutcome, 3⟩,
            ⟨sampleSeed.over "next" kFullHistory, sampleOutcome, 3⟩], []⟩ := by
    simp [step, hparsed', hlast, sampleOutcome]
  refine ⟨_, exec_cons.mpr ⟨_, hload, exec_cons.mpr ⟨_, hfirst, exec_cons.mpr
    ⟨_, hsecond, exec_nil⟩⟩⟩, ?_, rfl⟩
  apply along_cons hload
  · exact ⟨sampleStrategy_bars, by simp [State.start]⟩
  apply along_cons hfirst
  · simp [Sound]
  apply along_cons hsecond
  · simp [Sound]
  trivial

end Sample

end Ladder

end BacktestEngine

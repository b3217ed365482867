import BacktestEngine.Library.SortedMap
import BacktestEngine.Library.Tally
import BacktestEngine.Library.Transition
import BacktestEngine.Reporting.ElasticPublisher
import Mathlib.Data.Fintype.Sum
import Mathlib.Tactic.DeriveFintype

/-! # Handing documents over

Documents are buffered by index and handed over in batches, by a thread that passes from time to
time, by whoever flushes, and on destruction. A batch is taken under the lock and delivered outside
of it.
-/

namespace BacktestEngine

namespace DocumentBatcher

open Transition Elastic

/-- The documents of one index, as they are passed on. -/
abbrev Delivery := String × List BulkDoc

/-- Who flushes: any other thread, the batcher's own, or the one that destroys it. -/
inductive Thread (κ : Type)
  | caller (k : κ)
  | flusher
  | destructor
  deriving DecidableEq, Fintype

/-- A flush that has taken its batch: what it has still to deliver, and what deliveries returned. -/
structure Flush where
  rest : List Delivery
  worst : ℤ
  codes : List ℤ

inductive Flusher
  | waiting
  | flushing
  | ended
  deriving DecidableEq

inductive Life
  | alive
  | joining
  | tail
  | destroyed
  deriving DecidableEq

structure State (κ : Type) where
  pending : SortedMap String (List BulkDoc) := ∅
  stop : Bool := false
  flusher : Flusher := .waiting
  life : Life := .alive
  flushes : Thread κ → Option Flush := fun _ => none
  enqueued : List (String × BulkDoc) := []
  delivered : List Delivery := []
  /-- What the deliveries of a flush returned, and what it returned itself. -/
  returned : List (List ℤ × ℤ) := []

inductive Action (κ : Type)
  | enqueue (index : String) (docs : List BulkDoc)
  | swap (t : Thread κ)
  | deliver (t : Thread κ) (rc : ℤ)
  | finish (t : Thread κ)
  | wake
  | destroy
  | join

variable {κ : Type}

/-- Documents are appended to those of their index; a single one is a list of one. -/
def append (pending : SortedMap String (List BulkDoc)) (index : String) (docs : List BulkDoc) :
    SortedMap String (List BulkDoc) :=
  pending.update index fun queued => queued.getD [] ++ docs

/-- Who may call flush: other threads while the batcher is there, its own after it has found
something pending, and the destructor when it has joined that one. -/
def mayFlush (s : State κ) : Thread κ → Bool
  | .caller _ => s.life != .destroyed
  | .flusher => s.flusher == .flushing
  | .destructor => s.life == .tail

/-- A flush returns, and its thread goes on. -/
def flushed [DecidableEq κ] (s : State κ) (t : Thread κ) (codes : List ℤ) (worst : ℤ) : State κ :=
  let s := { s with
    flushes := Function.update s.flushes t none
    returned := s.returned ++ [(codes, worst)] }
  match t with
  | .caller _ => s
  | .flusher => { s with flusher := .waiting }
  | .destructor => { s with life := .destroyed }

/-- Nothing is enqueued after destruction begins. -/
def step [DecidableEq κ] (s : State κ) : Action κ → Option (State κ)
  | .enqueue index docs =>
    if s.life = .alive then
      some { s with
        pending := append s.pending index docs
        enqueued := s.enqueued ++ docs.map fun doc => (index, doc) }
    else none
  | .swap t =>
    if s.flushes t = none ∧ mayFlush s t = true then
      if s.pending.entries = [] then some (flushed s t [] 0)
      else some { s with
        pending := ∅
        flushes := Function.update s.flushes t (some ⟨s.pending.entries, 0, []⟩) }
    else none
  | .deliver t rc =>
    match s.flushes t with
    | some ⟨delivery :: rest, worst, codes⟩ =>
      some { s with
        delivered := s.delivered ++ [delivery]
        flushes := Function.update s.flushes t
          (some ⟨rest, if rc ≠ 0 then rc else worst, codes ++ [rc]⟩) }
    | _ => none
  | .finish t =>
    match s.flushes t with
    | some ⟨[], worst, codes⟩ => some (flushed s t codes worst)
    | _ => none
  | .wake =>
    if s.flusher = .waiting then
      if s.stop = true then some { s with flusher := .ended }
      else if s.pending.entries = [] then some s
      else some { s with flusher := .flushing }
    else none
  | .destroy =>
    if s.life = .alive then some { s with stop := true, life := .joining } else none
  | .join =>
    if s.life = .joining ∧ s.flusher = .ended then some { s with life := .tail } else none

/-! ## Where the documents are -/

/-- The documents that were enqueued for an index, in their order. -/
def enqueuedFor (index : String) (enqueued : List (String × BulkDoc)) : List BulkDoc :=
  (enqueued.filter (·.1 = index)).map Prod.snd

/-- The documents that are passed under an index. -/
def under (index : String) (deliveries : List Delivery) : List BulkDoc :=
  deliveries.flatMap fun delivery => if delivery.1 = index then delivery.2 else []

def pendingFor (index : String) (pending : SortedMap String (List BulkDoc)) : List BulkDoc :=
  (pending.get? index).getD []

/-- The documents of an index that a flush has taken and not delivered yet. -/
def held (index : String) (flush : Option Flush) : List BulkDoc :=
  flush.elim [] fun flush => under index flush.rest

/-- What every action of every thread keeps. -/
structure Inv [Fintype κ] (s : State κ) : Prop where
  counted : ∀ index doc, (under index s.delivered).count doc +
    ∑ t, (held index (s.flushes t)).count doc + (pendingFor index s.pending).count doc =
      (enqueuedFor index s.enqueued).count doc
  last : ∀ index, pendingFor index s.pending <:+ enqueuedFor index s.enqueued
  ordered : ∀ delivery ∈ s.delivered, delivery.2 <:+: enqueuedFor delivery.1 s.enqueued
  taken : ∀ t flush, s.flushes t = some flush →
    ∀ delivery ∈ flush.rest, delivery.2 <:+: enqueuedFor delivery.1 s.enqueued
  worst : ∀ t flush, s.flushes t = some flush → flush.worst = 0 → ∀ rc ∈ flush.codes, rc = 0
  returned : ∀ result ∈ s.returned, result.2 = 0 → ∀ rc ∈ result.1, rc = 0

/-- Where the threads of the batcher are. -/
structure Places (s : State κ) : Prop where
  flusher : s.flushes .flusher ≠ none → s.flusher = .flushing
  destructor : s.flushes .destructor ≠ none → s.life = .tail ∧ s.pending.entries = []
  joined : s.life = .tail ∨ s.life = .destroyed → s.flusher = .ended
  destroyed : s.life = .destroyed → s.pending.entries = []

/-! ## Lists of documents -/

section Documents

variable {index : String} {docs : List BulkDoc} {pending : SortedMap String (List BulkDoc)}
  {delivery : Delivery} {deliveries : List Delivery}

theorem enqueuedFor_append (index i : String) (docs : List BulkDoc)
    (enqueued : List (String × BulkDoc)) :
    enqueuedFor i (enqueued ++ docs.map fun doc => (index, doc)) =
      enqueuedFor i enqueued ++ if index = i then docs else [] := by
  rw [enqueuedFor, enqueuedFor, List.filter_append, List.map_append]
  congr 1
  split_ifs with h <;> simp [List.filter_map, h, Function.comp_def]

theorem pendingFor_append (i : String) : pendingFor i (append pending index docs) =
    pendingFor i pending ++ if index = i then docs else [] := by
  unfold pendingFor append
  split_ifs with h
  · rw [h, SortedMap.get?_update_self, Option.getD_some]
  · rw [SortedMap.get?_update_of_ne (Ne.symm h), List.append_nil]

/-- What is under an index in a batch is what was pending for it. -/
theorem under_entries (index : String) (pending : SortedMap String (List BulkDoc)) :
    under index pending.entries = pendingFor index pending := by
  refine (SortedMap.flatMap_entries pending index id).trans ?_
  rw [pendingFor]
  cases pending.get? index <;> rfl

theorem pendingFor_of_mem (h : delivery ∈ pending.entries) :
    pendingFor delivery.1 pending = delivery.2 := by
  rw [pendingFor, SortedMap.get?_eq_some_iff.mpr h]
  rfl

theorem pendingFor_of_entries (h : pending.entries = []) (index : String) :
    pendingFor index pending = [] := by
  rw [← under_entries, h]
  rfl

theorem under_append (deliveries more : List Delivery) (index : String) :
    under index (deliveries ++ more) = under index deliveries ++ under index more :=
  List.flatMap_append

theorem under_cons (index : String) : under index (delivery :: deliveries) =
    under index [delivery] ++ under index deliveries :=
  under_append [delivery] deliveries index

end Documents

/-! ## What an action does -/

section Inversion

variable [DecidableEq κ] {s s' : State κ} {t : Thread κ} {index : String} {docs : List BulkDoc}
  {rc : ℤ}

theorem step_enqueue (h : step s (.enqueue index docs) = some s') :
    s.life = .alive ∧ s' = { s with
      pending := append s.pending index docs
      enqueued := s.enqueued ++ docs.map fun doc => (index, doc) } := by
  simp only [step] at h
  split_ifs at h with hlife
  exact ⟨hlife, (Option.some_inj.mp h).symm⟩

/-- A flush that finds nothing pending returns at once; any other takes all that is pending. -/
theorem step_swap (h : step s (.swap t) = some s') :
    s.flushes t = none ∧ mayFlush s t = true ∧
      (s.pending.entries = [] ∧ s' = flushed s t [] 0 ∨
        s' = { s with
          pending := ∅
          flushes := Function.update s.flushes t (some ⟨s.pending.entries, 0, []⟩) }) := by
  simp only [step] at h
  split_ifs at h with hready hempty
  · exact ⟨hready.1, hready.2, Or.inl ⟨hempty, (Option.some_inj.mp h).symm⟩⟩
  · exact ⟨hready.1, hready.2, Or.inr (Option.some_inj.mp h).symm⟩

theorem step_deliver (h : step s (.deliver t rc) = some s') :
    ∃ delivery rest worst codes, s.flushes t = some ⟨delivery :: rest, worst, codes⟩ ∧
      s' = { s with
        delivered := s.delivered ++ [delivery]
        flushes := Function.update s.flushes t
          (some ⟨rest, if rc ≠ 0 then rc else worst, codes ++ [rc]⟩) } := by
  simp only [step] at h
  split at h
  · next hflush => exact ⟨_, _, _, _, hflush, (Option.some_inj.mp h).symm⟩
  · cases h

theorem step_finish (h : step s (.finish t) = some s') :
    ∃ worst codes, s.flushes t = some ⟨[], worst, codes⟩ ∧ s' = flushed s t codes worst := by
  simp only [step] at h
  split at h
  · next hflush => exact ⟨_, _, hflush, (Option.some_inj.mp h).symm⟩
  · cases h

theorem step_wake (h : step s .wake = some s') :
    s.flusher = .waiting ∧ (s' = { s with flusher := .ended } ∨ s' = s ∨
      s' = { s with flusher := .flushing }) := by
  simp only [step] at h
  split_ifs at h with hwaiting
  · exact ⟨hwaiting, Or.inl (Option.some_inj.mp h).symm⟩
  · exact ⟨hwaiting, Or.inr (Or.inl (Option.some_inj.mp h).symm)⟩
  · exact ⟨hwaiting, Or.inr (Or.inr (Option.some_inj.mp h).symm)⟩

theorem step_destroy (h : step s .destroy = some s') :
    s.life = .alive ∧ s' = { s with stop := true, life := .joining } := by
  simp only [step] at h
  split_ifs at h with hlife
  exact ⟨hlife, (Option.some_inj.mp h).symm⟩

theorem step_join (h : step s .join = some s') :
    s.life = .joining ∧ s.flusher = .ended ∧ s' = { s with life := .tail } := by
  simp only [step] at h
  split_ifs at h with hready
  exact ⟨hready.1, hready.2, (Option.some_inj.mp h).symm⟩

end Inversion

/-! ## Steps -/

section Steps

variable [Fintype κ] {s s' : State κ} {t : Thread κ}

/-- Where the threads are makes no difference to the documents. -/
theorem Inv.congr (h : Inv s) (hpending : s'.pending = s.pending)
    (hflushes : s'.flushes = s.flushes) (henqueued : s'.enqueued = s.enqueued)
    (hdelivered : s'.delivered = s.delivered)
    (hreturned : s'.returned = s.returned) : Inv s' := by
  obtain ⟨hcounted, hlast, hordered, htaken, hworst, hreturns⟩ := h
  rw [← hpending, ← hflushes, ← henqueued, ← hdelivered] at hcounted
  rw [← hpending, ← henqueued] at hlast
  rw [← hdelivered, ← henqueued] at hordered
  rw [← hflushes, ← henqueued] at htaken
  rw [← hflushes] at hworst
  rw [← hreturned] at hreturns
  exact ⟨hcounted, hlast, hordered, htaken, hworst, hreturns⟩

theorem Inv.enqueue (h : Inv s) (index : String) (docs : List BulkDoc) :
    Inv { s with
      pending := append s.pending index docs
      enqueued := s.enqueued ++ docs.map fun doc => (index, doc) } := by
  have hinfix {l : List BulkDoc} {i : String} (hl : l <:+: enqueuedFor i s.enqueued) :
      l <:+: enqueuedFor i (s.enqueued ++ docs.map fun doc => (index, doc)) := by
    rw [enqueuedFor_append]
    exact hl.trans (List.prefix_append _ _).isInfix
  refine ⟨fun i doc => ?_, fun i => ?_, fun delivery hmem => hinfix (h.ordered delivery hmem),
    fun t flush hflush delivery hmem => hinfix (h.taken t flush hflush delivery hmem), h.worst,
    h.returned⟩
  · have hcounted := h.counted i doc
    dsimp only
    rw [enqueuedFor_append, pendingFor_append, List.count_append, List.count_append]
    omega
  · obtain ⟨before, hbefore⟩ := h.last i
    refine ⟨before, ?_⟩
    dsimp only
    rw [enqueuedFor_append, pendingFor_append, ← List.append_assoc, hbefore]

variable [DecidableEq κ]

omit [Fintype κ] in
/-- What holds of the flushes holds when one of them goes on. -/
theorem forall_update {P : Flush → Prop} {flushes : Thread κ → Option Flush} {flush : Option Flush}
    (hflush : ∀ f, flush = some f → P f) (h : ∀ u f, flushes u = some f → P f) :
    ∀ u f, Function.update flushes t flush u = some f → P f := by
  intro u f hu
  rcases eq_or_ne u t with rfl | hne
  · rw [Function.update_self] at hu
    exact hflush f hu
  · rw [Function.update_of_ne hne] at hu
    exact h u f hu

/-- A flush takes all that is pending. -/
theorem Inv.swap (h : Inv s) (hnone : s.flushes t = none) :
    Inv { s with
      pending := ∅
      flushes := Function.update s.flushes t (some ⟨s.pending.entries, 0, []⟩) } := by
  refine ⟨fun i doc => ?_, fun i => ?_, h.ordered, forall_update ?_ h.taken,
    forall_update ?_ h.worst, h.returned⟩
  · have hcounted := h.counted i doc
    have hsum := Tally.sum_update (fun flush => (held i flush).count doc) s.flushes t
      (some ⟨s.pending.entries, 0, []⟩)
    have hheld : held i (some ⟨s.pending.entries, 0, []⟩) = pendingFor i s.pending :=
      under_entries i s.pending
    have hnothing : held i (s.flushes t) = [] := by
      rw [hnone]
      rfl
    have hempty : pendingFor i ∅ = [] := rfl
    dsimp only at hsum ⊢
    rw [hheld, hnothing] at hsum
    rw [hempty]
    simp only [List.count_nil] at hsum ⊢
    omega
  · exact List.nil_suffix
  · rintro _ hflush delivery hmem
    cases hflush
    have hlast := (h.last delivery.1).isInfix
    rwa [pendingFor_of_mem hmem] at hlast
  · rintro _ hflush _ rc hrc
    cases hflush
    exact absurd hrc List.not_mem_nil

/-- One delivery: it is no more held, and a failure stays known. -/
theorem Inv.deliver (h : Inv s) {delivery : Delivery} {rest : List Delivery} {worst : ℤ}
    {codes : List ℤ} (hflush : s.flushes t = some ⟨delivery :: rest, worst, codes⟩) (rc : ℤ) :
    Inv { s with
      delivered := s.delivered ++ [delivery]
      flushes := Function.update s.flushes t
        (some ⟨rest, if rc ≠ 0 then rc else worst, codes ++ [rc]⟩) } := by
  have htaken := h.taken t _ hflush
  refine ⟨fun i doc => ?_, h.last, fun d hd => ?_, forall_update ?_ h.taken,
    forall_update ?_ h.worst, h.returned⟩
  · have hcounted := h.counted i doc
    have hsum := Tally.sum_update (fun flush => (held i flush).count doc) s.flushes t
      (some ⟨rest, if rc ≠ 0 then rc else worst, codes ++ [rc]⟩)
    have hbefore : held i (s.flushes t) = under i [delivery] ++ under i rest := by
      rw [hflush]
      exact under_cons i
    have hafter : held i (some ⟨rest, if rc ≠ 0 then rc else worst, codes ++ [rc]⟩) =
        under i rest := rfl
    dsimp only at hsum ⊢
    rw [hbefore, hafter, List.count_append] at hsum
    rw [under_append, List.count_append]
    omega
  · obtain hd | hd := List.mem_append.mp hd
    · exact h.ordered d hd
    · rw [List.mem_singleton.mp hd]
      exact htaken delivery List.mem_cons_self
  · rintro _ hrest d hd
    cases hrest
    exact htaken d (List.mem_cons_of_mem _ hd)
  · rintro _ hrest
    cases hrest
    dsimp only
    split_ifs with hrc
    · exact fun hzero => absurd hzero hrc
    · intro hzero code hcode
      obtain hcode | hcode := List.mem_append.mp hcode
      · exact h.worst t _ hflush hzero code hcode
      · rw [List.mem_singleton.mp hcode]
        exact not_not.mp hrc

/-- A flush that holds nothing returns. -/
theorem Inv.flushed (h : Inv s) {codes : List ℤ} {worst : ℤ}
    (hheld : ∀ index, held index (s.flushes t) = [])
    (hcodes : worst = 0 → ∀ rc ∈ codes, rc = 0) : Inv (flushed s t codes worst) := by
  have hreturn : Inv { s with
      flushes := Function.update s.flushes t none
      returned := s.returned ++ [(codes, worst)] } := by
    refine ⟨fun i doc => ?_, h.last, h.ordered, forall_update ?_ h.taken,
      forall_update ?_ h.worst, fun result hresult => ?_⟩
    · refine Eq.trans ?_ (h.counted i doc)
      congr 2
      refine Tally.sum_update_of_eq (f := fun flush => (held i flush).count doc) ?_
      rw [hheld i]
      rfl
    · rintro _ hflush
      cases hflush
    · rintro _ hflush
      cases hflush
    · obtain hresult | hresult := List.mem_append.mp hresult
      · exact h.returned result hresult
      · rw [List.mem_singleton.mp hresult]
        exact hcodes
  cases t with
  | caller k => exact hreturn
  | flusher => exact hreturn.congr rfl rfl rfl rfl rfl
  | destructor => exact hreturn.congr rfl rfl rfl rfl rfl

theorem Inv.step (h : Inv s) {a : Action κ} (hstep : step s a = some s') : Inv s' := by
  cases a with
  | enqueue index docs =>
    obtain ⟨-, rfl⟩ := step_enqueue hstep
    exact h.enqueue index docs
  | swap t =>
    obtain ⟨hnone, -, ⟨-, rfl⟩ | rfl⟩ := step_swap hstep
    · refine h.flushed (fun index => ?_) fun _ rc hrc => absurd hrc List.not_mem_nil
      rw [hnone]
      rfl
    · exact h.swap hnone
  | deliver t rc =>
    obtain ⟨delivery, rest, worst, codes, hflush, rfl⟩ := step_deliver hstep
    exact h.deliver hflush rc
  | finish t =>
    obtain ⟨worst, codes, hflush, rfl⟩ := step_finish hstep
    refine h.flushed (fun index => ?_) (h.worst t _ hflush)
    rw [hflush]
    rfl
  | wake =>
    obtain ⟨-, rfl | rfl | rfl⟩ := step_wake hstep
    · exact h.congr rfl rfl rfl rfl rfl
    · exact h
    · exact h.congr rfl rfl rfl rfl rfl
  | destroy =>
    obtain ⟨-, rfl⟩ := step_destroy hstep
    exact h.congr rfl rfl rfl rfl rfl
  | join =>
    obtain ⟨-, -, rfl⟩ := step_join hstep
    exact h.congr rfl rfl rfl rfl rfl

end Steps

/-! ## Threads -/

section Threads

variable {s s' : State κ} {t : Thread κ}

/-- Where a thread is that may flush, or that does. -/
def Busy (s : State κ) : Thread κ → Prop
  | .caller _ => True
  | .flusher => s.flusher = .flushing
  | .destructor => s.life = .tail

theorem busy_of_mayFlush (h : mayFlush s t = true) : Busy s t := by
  cases t with
  | caller k => trivial
  | flusher => exact eq_of_beq h
  | destructor => exact eq_of_beq h

theorem Places.busy (h : Places s) (hflush : s.flushes t ≠ none) : Busy s t := by
  cases t with
  | caller k => trivial
  | flusher => exact h.flusher hflush
  | destructor => exact (h.destructor hflush).1

variable [DecidableEq κ]

/-- A flush that has begun goes on. -/
theorem Places.deliver (h : Places s) {flush flush' : Flush} (hflush : s.flushes t = some flush)
    (hflushes : s'.flushes = Function.update s.flushes t (some flush'))
    (hflusher : s'.flusher = s.flusher) (hlife : s'.life = s.life)
    (hpending : s'.pending = s.pending) : Places s' := by
  have hbusy (u : Thread κ) (hu : s'.flushes u ≠ none) : s.flushes u ≠ none := by
    rw [hflushes] at hu
    rcases eq_or_ne u t with rfl | hne
    · rw [hflush]
      exact Option.some_ne_none flush
    · rwa [Function.update_of_ne hne] at hu
  constructor
  · rw [hflusher]
    exact fun hu => h.flusher (hbusy _ hu)
  · rw [hlife, hpending]
    exact fun hu => h.destructor (hbusy _ hu)
  · rw [hlife, hflusher]
    exact h.joined
  · rw [hlife, hpending]
    exact h.destroyed

theorem Places.swap (h : Places s) (hbusy : Busy s t) {flush : Flush}
    (hflushes : s'.flushes = Function.update s.flushes t (some flush))
    (hflusher : s'.flusher = s.flusher) (hlife : s'.life = s.life) (hpending : s'.pending = ∅) :
    Places s' := by
  have hempty : s'.pending.entries = [] := by
    rw [hpending]
    rfl
  constructor
  · rw [hflushes, hflusher]
    intro hu
    rcases eq_or_ne Thread.flusher t with rfl | hne
    · exact hbusy
    · rw [Function.update_of_ne hne] at hu
      exact h.flusher hu
  · rw [hflushes, hlife]
    intro hu
    refine ⟨?_, hempty⟩
    rcases eq_or_ne Thread.destructor t with rfl | hne
    · exact hbusy
    · rw [Function.update_of_ne hne] at hu
      exact (h.destructor hu).1
  · rw [hlife, hflusher]
    exact h.joined
  · exact fun _ => hempty

theorem flushes_flushed (s : State κ) (t : Thread κ) (codes : List ℤ) (worst : ℤ) :
    (flushed s t codes worst).flushes = Function.update s.flushes t none := by
  cases t <;> rfl

/-- A flush returns to a thread that flushed. -/
theorem Places.flushed (h : Places s) (hbusy : Busy s t)
    (hpending : t = .destructor → s.pending.entries = []) (codes : List ℤ) (worst : ℤ) :
    Places (flushed s t codes worst) := by
  have hkept (u : Thread κ) (hu : Function.update s.flushes t none u ≠ none) :
      s.flushes u ≠ none := by
    rcases eq_or_ne u t with rfl | hne
    · rw [Function.update_self] at hu
      exact absurd rfl hu
    · rwa [Function.update_of_ne hne] at hu
  cases t with
  | caller k =>
    exact ⟨fun hu => h.flusher (hkept _ hu), fun hu => h.destructor (hkept _ hu), h.joined,
      h.destroyed⟩
  | flusher =>
    refine ⟨fun hu => ?_, fun hu => h.destructor (hkept _ hu), fun hlife => ?_, h.destroyed⟩
    · rw [flushes_flushed, Function.update_self] at hu
      exact absurd rfl hu
    · cases (h.joined hlife).symm.trans hbusy
  | destructor =>
    refine ⟨fun hu => h.flusher (hkept _ hu), fun hu => ?_, fun _ => h.joined (Or.inl hbusy),
      fun _ => hpending rfl⟩
    rw [flushes_flushed, Function.update_self] at hu
    exact absurd rfl hu

theorem Places.step (h : Places s) {a : Action κ} (hstep : step s a = some s') : Places s' := by
  cases a with
  | enqueue index docs =>
    obtain ⟨hlife, rfl⟩ := step_enqueue hstep
    refine ⟨h.flusher, fun hu => ?_, h.joined, fun hdead => ?_⟩
    · cases hlife.symm.trans (h.destructor hu).1
    · cases hlife.symm.trans hdead
  | swap t =>
    obtain ⟨-, hmay, ⟨hempty, rfl⟩ | rfl⟩ := step_swap hstep
    · exact h.flushed (busy_of_mayFlush hmay) (fun _ => hempty) _ _
    · exact h.swap (busy_of_mayFlush hmay) rfl rfl rfl rfl
  | deliver t rc =>
    obtain ⟨delivery, rest, worst, codes, hflush, rfl⟩ := step_deliver hstep
    exact h.deliver hflush rfl rfl rfl rfl
  | finish t =>
    obtain ⟨worst, codes, hflush, rfl⟩ := step_finish hstep
    have hne : s.flushes t ≠ none := by
      rw [hflush]
      exact Option.some_ne_none _
    refine h.flushed (h.busy hne) (fun ht => ?_) _ _
    rw [ht] at hne
    exact (h.destructor hne).2
  | wake =>
    obtain ⟨hwaiting, hs'⟩ := step_wake hstep
    have hidle : s.flushes .flusher = none := by
      by_contra hu
      cases hwaiting.symm.trans (h.flusher hu)
    have hnot : ¬ (s.life = .tail ∨ s.life = .destroyed) := by
      intro hlife
      cases hwaiting.symm.trans (h.joined hlife)
    obtain rfl | rfl | rfl := hs'
    · exact ⟨fun hu => absurd hidle hu, h.destructor, fun _ => rfl, h.destroyed⟩
    · exact h
    · exact ⟨fun _ => rfl, h.destructor, fun hlife => absurd hlife hnot, h.destroyed⟩
  | destroy =>
    obtain ⟨hlife, rfl⟩ := step_destroy hstep
    refine ⟨h.flusher, fun hu => ?_, fun hjoined => ?_, fun hdead => by cases hdead⟩
    · cases hlife.symm.trans (h.destructor hu).1
    · obtain hjoined | hjoined := hjoined <;> cases hjoined
  | join =>
    obtain ⟨hlife, hended, rfl⟩ := step_join hstep
    refine ⟨h.flusher, fun hu => ?_, fun _ => hended, fun hdead => by cases hdead⟩
    cases hlife.symm.trans (h.destructor hu).1

end Threads

/-! ## Runs -/

section Runs

variable [Fintype κ]

theorem inv_init : Inv ({} : State κ) := by
  constructor
  · intro index doc
    simp [under, held, pendingFor, enqueuedFor]
  · exact fun _ => List.nil_suffix
  · exact fun _ h => absurd h List.not_mem_nil
  · exact fun _ _ h => by cases h
  · exact fun _ _ h => by cases h
  · exact fun _ h => absurd h List.not_mem_nil

omit [Fintype κ] in
theorem places_init : Places ({} : State κ) :=
  ⟨fun h => absurd rfl h, fun h => absurd rfl h, fun h => by cases h <;> contradiction,
    fun h => by cases h⟩

variable [DecidableEq κ]

/-- At every moment of every run each document that was enqueued is delivered, or held by one flush
that has taken it, or pending, under the index that it was enqueued for; a delivery has documents in
the order in which they were enqueued. When the batcher is destroyed nothing is pending, and only
flushes of other threads may hold anything; without these everything is delivered once. A flush
returns 0 only if its deliveries did. -/
theorem documents_handed_off {as : List (Action κ)} {s : State κ}
    (hrun : exec step {} as = some s) :
    (∀ index doc, (under index s.delivered).count doc +
      ∑ t, (held index (s.flushes t)).count doc + (pendingFor index s.pending).count doc =
        (enqueuedFor index s.enqueued).count doc) ∧
    (∀ delivery ∈ s.delivered, delivery.2 <:+: enqueuedFor delivery.1 s.enqueued) ∧
    (s.life = .destroyed → s.pending.entries = [] ∧ s.flushes .flusher = none ∧
      s.flushes .destructor = none) ∧
    (s.life = .destroyed → (∀ k, s.flushes (.caller k) = none) →
      ∀ index, (under index s.delivered).Perm (enqueuedFor index s.enqueued)) ∧
    ∀ result ∈ s.returned, result.2 = 0 → ∀ rc ∈ result.1, rc = 0 := by
  have hinv : Inv s := exec_invariant (fun _ _ _ h hstep => h.step hstep) inv_init hrun
  have hplaces : Places s := exec_invariant (fun _ _ _ h hstep => h.step hstep) places_init hrun
  have hdead (hlife : s.life = .destroyed) : s.pending.entries = [] ∧ s.flushes .flusher = none ∧
      s.flushes .destructor = none := by
    refine ⟨hplaces.destroyed hlife, ?_, ?_⟩
    · by_contra hu
      cases (hplaces.joined (Or.inr hlife)).symm.trans (hplaces.flusher hu)
    · by_contra hu
      cases hlife.symm.trans (hplaces.destructor hu).1
  refine ⟨hinv.counted, hinv.ordered, hdead, fun hlife hcallers index => ?_, hinv.returned⟩
  obtain ⟨hempty, hflusher, hdestructor⟩ := hdead hlife
  rw [List.perm_iff_count]
  intro doc
  have hcounted := hinv.counted index doc
  have hheld : ∑ t, (held index (s.flushes t)).count doc = 0 := by
    refine Finset.sum_eq_zero fun t _ => ?_
    have hnone : s.flushes t = none := by
      cases t with
      | caller k => exact hcallers k
      | flusher => exact hflusher
      | destructor => exact hdestructor
    rw [hnone]
    rfl
  rw [hheld, pendingFor_of_entries hempty] at hcounted
  exact hcounted

/-- A document that is still enqueued when the batcher is destroyed. -/
def lastDocument : List (Action Unit) :=
  [.enqueue "results" [⟨"1", "run"⟩], .destroy, .wake, .join, .swap .destructor,
    .deliver .destructor 0, .finish .destructor]

theorem documents_handed_off_last : ∃ s, exec step {} lastDocument = some s ∧
    (under "results" s.delivered).Perm (enqueuedFor "results" s.enqueued) := by
  obtain ⟨s, hs, hlife, hcallers⟩ : ∃ s, exec step {} lastDocument = some s ∧
      s.life = .destroyed ∧ ∀ k, s.flushes (.caller k) = none := ⟨_, rfl, rfl, fun _ => rfl⟩
  exact ⟨s, hs, (documents_handed_off hs).2.2.2.1 hlife hcallers "results"⟩

/-- Destruction does not wait for a flush of another thread that has taken the documents. -/
theorem destroyed_before_delivery : ∃ s, exec step ({} : State Unit)
    [.enqueue "results" [⟨"1", "run"⟩], .swap (.caller ()), .destroy, .wake, .join,
      .swap .destructor] = some s ∧ s.life = .destroyed ∧
    enqueuedFor "results" s.enqueued = [⟨"1", "run"⟩] ∧ s.delivered = [] :=
  ⟨_, rfl, rfl, by decide, rfl⟩

end Runs

end DocumentBatcher

end BacktestEngine

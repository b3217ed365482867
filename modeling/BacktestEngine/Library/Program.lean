import Mathlib.Data.List.Basic

/-! # Programs of commands

A program issues its commands one at a time and goes on with the answer to each. It
can be run against a state that answers at once, or taken one command at a time
beside other programs. A rule for each command says what it asks and what it gives,
and the weakest precondition folds these rules over the program. Where any answer may
come, a program is described by the exchanges it can have before it ends.
-/

universe u

/-- A computation that ends, or issues a command and waits for its answer. -/
inductive Program (C : Type u) (R : C → Type) (α : Type) : Type u
  | done (a : α)
  | call (c : C) (k : R c → Program C R α)

namespace Program

variable {C : Type u} {R : C → Type} {α β : Type} {S : Type*}

def bind : Program C R α → (α → Program C R β) → Program C R β
  | done a, f => f a
  | call c k, f => call c fun r => (k r).bind f

instance : Monad (Program C R) where
  pure := done
  bind := bind

/-- The same work for each element of a list, in order. -/
def each (f : β → Program C R Unit) : List β → Program C R Unit
  | [] => done ()
  | b :: bs => f b >>= fun _ => each f bs

@[simp] theorem pure_eq (a : α) : (pure a : Program C R α) = done a := rfl

@[simp] theorem done_bind (a : α) (f : α → Program C R β) : done a >>= f = f a := rfl

@[simp] theorem call_bind (c : C) (k : R c → Program C R α) (f : α → Program C R β) :
    call c k >>= f = call c fun r => k r >>= f := rfl

/-! ## Running -/

/-- Run to the end on a state that answers every command. -/
def run (exec : (c : C) → S → R c × S) : Program C R α → S → α × S
  | done a, s => (a, s)
  | call c k, s => (k (exec c s).1).run exec (exec c s).2

variable {exec : (c : C) → S → R c × S}

@[simp] theorem run_done (a : α) (s : S) : (done a : Program C R α).run exec s = (a, s) := rfl

@[simp] theorem run_call (c : C) (k : R c → Program C R α) (s : S) :
    (call c k).run exec s = (k (exec c s).1).run exec (exec c s).2 := rfl

@[simp] theorem run_bind (p : Program C R α) (f : α → Program C R β) (s : S) :
    (p >>= f).run exec s = (f (p.run exec s).1).run exec (p.run exec s).2 := by
  induction p generalizing s with
  | done a => rfl
  | call c k ih => exact ih _ _

/-- A program that may throw goes on with what it gives, or stops. -/
theorem run_except_bind {ε : Type} (p : ExceptT ε (Program C R) α) (f : α → ExceptT ε (Program C R) β)
    (s : S) : (p >>= f).run.run exec s =
      match (p.run.run exec s).1 with
      | .ok a => (f a).run.run exec (p.run.run exec s).2
      | .error e => (.error e, (p.run.run exec s).2) := by
  rw [ExceptT.run_bind, run_bind]
  cases (p.run.run exec s).1 <;> rfl

/-- What the work for each element keeps, the loop keeps. -/
theorem run_each {f : β → Program C R Unit} {I : S → Prop} {bs : List β}
    (hf : ∀ b ∈ bs, ∀ s, I s → I ((f b).run exec s).2) {s : S} (hs : I s) :
    I ((each f bs).run exec s).2 := by
  induction bs generalizing s with
  | nil => exact hs
  | cons b bs ih =>
    rw [each, run_bind]
    exact ih (fun c hc => hf c (List.mem_cons_of_mem b hc)) (hf b List.mem_cons_self s hs)

/-- What the work for an element establishes, and the work for every other keeps, holds of each
element after the loop. -/
theorem run_each_all {f : β → Program C R Unit} {I : S → Prop} {P : β → S → Prop} {bs : List β}
    (hf : ∀ b ∈ bs, ∀ s, I s → I ((f b).run exec s).2 ∧ P b ((f b).run exec s).2)
    (hkeep : ∀ b ∈ bs, ∀ c s, I s → P c s → P c ((f b).run exec s).2) {s : S} (hs : I s) :
    ∀ b ∈ bs, P b ((each f bs).run exec s).2 := by
  have hlater : ∀ (cs : List β) (c : β) (s : S), cs ⊆ bs → I s → P c s →
      P c ((each f cs).run exec s).2 := by
    intro cs
    induction cs with
    | nil => exact fun _ _ _ _ hc => hc
    | cons b cs ih =>
      intro c s hsub hs hc
      have hb := hsub List.mem_cons_self
      rw [each, run_bind]
      exact ih c _ (List.subset_of_cons_subset hsub) (hf b hb s hs).1 (hkeep b hb c s hs hc)
  have hall : ∀ (cs : List β) (s : S), cs ⊆ bs → I s → ∀ b ∈ cs, P b ((each f cs).run exec s).2 := by
    intro cs
    induction cs with
    | nil => exact fun _ _ _ _ hb => (List.not_mem_nil hb).elim
    | cons b cs ih =>
      intro s hsub hs c hc
      have hb := hf b (hsub List.mem_cons_self) s hs
      have hsub' := List.subset_of_cons_subset hsub
      rw [each, run_bind]
      rcases List.mem_cons.mp hc with rfl | hc
      · exact hlater cs c _ hsub' hb.1 hb.2
      · exact ih _ hsub' hb.1 c hc
  exact hall bs s (List.Subset.refl bs) hs

/-! ## Rules for the commands -/

variable {G : Type*} (Φ : (c : C) → (R c → G → Prop) → G → Prop)

/-- What has to hold for the program to end in the postcondition, by the rules of its commands. -/
def wp : Program C R α → (α → G → Prop) → G → Prop
  | done a, post => post a
  | call c k, post => Φ c fun r => (k r).wp post

@[simp] theorem wp_done (a : α) (post : α → G → Prop) :
    (done a : Program C R α).wp Φ post = post a := rfl

@[simp] theorem wp_call (c : C) (k : R c → Program C R α) (post : α → G → Prop) :
    (call c k).wp Φ post = Φ c fun r => (k r).wp Φ post := rfl

@[simp] theorem wp_bind (p : Program C R α) (f : α → Program C R β) (post : β → G → Prop) :
    (p >>= f).wp Φ post = p.wp Φ fun a => (f a).wp Φ post := by
  induction p with
  | done a => rfl
  | call c k ih => exact congrArg (Φ c) (funext ih)

/-- A rule gives no less for a weaker postcondition. -/
def Monotone : Prop := ∀ c Q Q' g, (∀ r g, Q r g → Q' r g) → Φ c Q g → Φ c Q' g

variable {Φ}

theorem wp_mono (hΦ : Monotone Φ) {p : Program C R α} {post post' : α → G → Prop}
    (hpost : ∀ a g, post a g → post' a g) {g : G} (h : p.wp Φ post g) : p.wp Φ post' g := by
  induction p generalizing g with
  | done a => exact hpost a g h
  | call c k ih => exact hΦ c _ _ g (fun r g' hr => ih r hr) h

theorem wp_each (hΦ : Monotone Φ) {f : β → Program C R Unit} {I : G → Prop} {bs : List β}
    (hf : ∀ b ∈ bs, ∀ g, I g → (f b).wp Φ (fun _ => I) g) {g : G} (hg : I g) :
    (each f bs).wp Φ (fun _ => I) g := by
  induction bs generalizing g with
  | nil => exact hg
  | cons b bs ih =>
    rw [each, wp_bind]
    refine wp_mono hΦ (fun _ g' hg' => ?_) (hf b List.mem_cons_self g hg)
    exact ih (fun c hc => hf c (List.mem_cons_of_mem b hc)) hg'

/-! ## Exchanges -/

/-- A command and the answer it was given. -/
structure Exchange (C : Type u) (R : C → Type) where
  command : C
  answer : R command

/-- The program can have these exchanges and end in this result. -/
def Yields : Program C R α → List (Exchange C R) → α → Prop
  | done a, trace, b => trace = [] ∧ b = a
  | call c k, trace, b => ∃ r rest, trace = ⟨c, r⟩ :: rest ∧ (k r).Yields rest b

variable {trace : List (Exchange C R)}

@[simp] theorem yields_done {a b : α} :
    (done a : Program C R α).Yields trace b ↔ trace = [] ∧ b = a := Iff.rfl

@[simp] theorem yields_call {c : C} {k : R c → Program C R α} {b : α} :
    (call c k).Yields trace b ↔ ∃ r rest, trace = ⟨c, r⟩ :: rest ∧ (k r).Yields rest b := Iff.rfl

theorem yields_bind {p : Program C R α} {f : α → Program C R β} {b : β} :
    (p >>= f).Yields trace b ↔
      ∃ a first rest, trace = first ++ rest ∧ p.Yields first a ∧ (f a).Yields rest b := by
  induction p generalizing trace with
  | done a =>
    constructor
    · intro h
      exact ⟨a, [], trace, rfl, ⟨rfl, rfl⟩, h⟩
    · rintro ⟨_, _, rest, rfl, ⟨rfl, rfl⟩, h⟩
      exact h
  | call c k ih =>
    constructor
    · rintro ⟨r, rest, rfl, h⟩
      obtain ⟨a, first, later, rfl, hp, hf⟩ := (ih r).mp h
      exact ⟨a, ⟨c, r⟩ :: first, later, rfl, ⟨r, first, rfl, hp⟩, hf⟩
    · rintro ⟨a, _, later, rfl, ⟨r, first, rfl, hp⟩, hf⟩
      exact ⟨r, first ++ later, rfl, (ih r).mpr ⟨a, first, later, rfl, hp, hf⟩⟩

/-- A throw ends the program with the exchanges it has had. -/
theorem yields_except_bind {ε : Type} {p : ExceptT ε (Program C R) α}
    {f : α → ExceptT ε (Program C R) β} {result : Except ε β} :
    (p >>= f).run.Yields trace result ↔
      (∃ a first rest, trace = first ++ rest ∧ p.run.Yields first (.ok a) ∧
        (f a).run.Yields rest result) ∨
      ∃ e, p.run.Yields trace (.error e) ∧ result = .error e := by
  rw [ExceptT.run_bind, yields_bind]
  constructor
  · rintro ⟨a | a, first, rest, rfl, hp, hf⟩
    · obtain ⟨rfl, rfl⟩ := hf
      exact .inr ⟨a, by rwa [List.append_nil], rfl⟩
    · exact .inl ⟨a, first, rest, rfl, hp, hf⟩
  · rintro (⟨a, first, rest, rfl, hp, hf⟩ | ⟨e, hp, rfl⟩)
    · exact ⟨.ok a, first, rest, rfl, hp, hf⟩
    · exact ⟨.error e, trace, [], (List.append_nil trace).symm, hp, rfl, rfl⟩

/-- What answers each command, from all that was exchanged before it. -/
abbrev Peer (C : Type u) (R : C → Type) : Type u := List (Exchange C R) → (c : C) → R c

/-- The exchanges with a peer from a point on, and the result. -/
def playFrom (peer : Peer C R) : Program C R α → List (Exchange C R) → List (Exchange C R) × α
  | done a, _ => ([], a)
  | call c k, before =>
    let exchange : Exchange C R := ⟨c, peer before c⟩
    let later := (k exchange.answer).playFrom peer (before ++ [exchange])
    (exchange :: later.1, later.2)

def play (peer : Peer C R) (p : Program C R α) : List (Exchange C R) × α := p.playFrom peer []

theorem yields_playFrom (peer : Peer C R) (p : Program C R α) (before : List (Exchange C R)) :
    p.Yields (p.playFrom peer before).1 (p.playFrom peer before).2 := by
  induction p generalizing before with
  | done a => exact ⟨rfl, rfl⟩
  | call c k ih => exact ⟨peer before c, _, rfl, ih _ _⟩

/-- Whatever the peer answers, the run is one the program can have. -/
theorem yields_play (peer : Peer C R) (p : Program C R α) :
    p.Yields (p.play peer).1 (p.play peer).2 :=
  yields_playFrom peer p []

end Program

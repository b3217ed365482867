import Mathlib.Data.Option.Basic

/-! # Executable transition systems

A step function is partial: a state where an action is not enabled has no
successor. What one step preserves holds after every run, and what one step
preserves under a guard holds after every run whose steps all meet the guard.
-/

namespace Transition

variable {S A : Type*} (step : S → A → Option S)

/-- Run a list of actions, failing at the first one that is not enabled. -/
def exec : S → List A → Option S
  | s, [] => some s
  | s, a :: as => (step s a).bind fun s' => exec s' as

/-- Every step of the run starts in a state and with an action that meet the guard. -/
def Along (G : S → A → Prop) : S → List A → Prop
  | _, [] => True
  | s, a :: as => G s a ∧ ∀ s', step s a = some s' → Along G s' as

instance decidableAlong {G : S → A → Prop} [∀ s a, Decidable (G s a)] :
    ∀ s as, Decidable (Along step G s as)
  | _, [] => isTrue trivial
  | s, a :: as =>
    match h : step s a with
    | none => decidable_of_iff (G s a) (by simp [Along, h])
    | some s' =>
      have := decidableAlong (G := G) s' as
      decidable_of_iff (G s a ∧ Along step G s' as) (by simp [Along, h])

variable {step} {s s' t : S} {a : A} {as bs : List A} {I : S → Prop} {G : S → A → Prop}

@[simp] theorem exec_nil : exec step s [] = some s := rfl

theorem exec_cons : exec step s (a :: as) = some t ↔ ∃ s', step s a = some s' ∧
    exec step s' as = some t := by
  simp [exec, Option.bind_eq_some_iff]

/-- An invariant of the guarded steps is an invariant of the guarded runs. -/
theorem exec_invariant_along (hstep : ∀ s a s', I s → G s a → step s a = some s' → I s') :
    ∀ {as : List A} {s : S}, I s → Along step G s as → exec step s as = some t → I t
  | [], _, hs, _, h => by
    cases h
    exact hs
  | a :: as, s, hs, hg, h => by
    obtain ⟨s', ha, has⟩ := exec_cons.mp h
    exact exec_invariant_along hstep (hstep s a s' hs hg.1 ha) (hg.2 s' ha) has

theorem along_cons (hstep : step s a = some s') (hg : G s a) (h : Along step G s' as) :
    Along step G s (a :: as) :=
  ⟨hg, fun _ ht => Option.some.inj (hstep.symm.trans ht) ▸ h⟩

theorem Along.mono {G' : S → A → Prop} (hG : ∀ s a, G s a → G' s a) :
    ∀ {as : List A} {s : S}, Along step G s as → Along step G' s as
  | [], _, _ => trivial
  | _ :: _, s, ⟨hg, h⟩ => ⟨hG s _ hg, fun s' hs' => (h s' hs').mono hG⟩

theorem along_of_forall (h : ∀ s a, G s a) : ∀ {as : List A} {s : S}, Along step G s as
  | [], _ => trivial
  | _ :: _, s => ⟨h s _, fun _ _ => along_of_forall h⟩

/-- A guard that only looks at the actions. -/
theorem along_of_forall_mem {P : A → Prop} :
    ∀ {as : List A} {s : S}, (∀ a ∈ as, P a) → Along step (fun _ a => P a) s as
  | [], _, _ => trivial
  | a :: _, _, h => ⟨h a List.mem_cons_self, fun _ _ =>
      along_of_forall_mem fun b hb => h b (List.mem_cons_of_mem a hb)⟩

/-- An invariant of every step is an invariant of every run. -/
theorem exec_invariant (hstep : ∀ s a s', I s → step s a = some s' → I s')
    (hs : I s) (h : exec step s as = some t) : I t :=
  exec_invariant_along (fun s a s' hi _ => hstep s a s' hi) hs
    (along_of_forall (G := fun _ _ => True) fun _ _ => trivial) h

end Transition

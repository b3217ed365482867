import Mathlib.Data.List.DropRight
import Mathlib.Data.List.MinMax
import Mathlib.Order.RelClasses

/-! # Monotonic deques

Entries come in the order of their times, and those from before a moving cut are
dropped. The deque keeps only the entries that no later one beats or equals, so that
its front is the best entry from the cut on.
-/

namespace MonotoneDeque

variable {T α : Type*} [LinearOrder T]

/-- Drop the entries from before the cut off the front. -/
def expire (cut : T) (deque : List (T × α)) : List (T × α) :=
  deque.dropWhile fun e => e.1 < cut

/-- Take the entries that the new one beats or equals off the back, and append it. -/
def push (r : α → α → Prop) [DecidableRel r] (entry : T × α) (deque : List (T × α)) :
    List (T × α) :=
  deque.rdropWhile (fun e => r e.2 entry.2) ++ [entry]

/-- The deque holds entries that were fed, none from before the cut, in the order of their times
and each better than the next; every entry from the cut on is beaten or equalled by one of them
that is no older. -/
structure Keeps (r : α → α → Prop) (cut : T) (fed deque : List (T × α)) : Prop where
  sub : ∀ e ∈ deque, e ∈ fed
  recent : ∀ e ∈ deque, cut ≤ e.1
  timed : deque.Pairwise fun e e' => e.1 ≤ e'.1
  falling : deque.Pairwise fun e e' => ¬ r e.2 e'.2
  beaten : ∀ e ∈ fed, cut ≤ e.1 → ∃ d ∈ deque, e.1 ≤ d.1 ∧ r e.2 d.2

variable {r : α → α → Prop} {cut : T} {fed deque : List (T × α)} {entry : T × α}

theorem keeps_nil (r : α → α → Prop) (cut : T) : Keeps r cut [] ([] : List (T × α)) where
  sub _ h := h
  recent _ h := (List.not_mem_nil h).elim
  timed := .nil
  falling := .nil
  beaten _ h := (List.not_mem_nil h).elim

theorem mem_expire (htimed : deque.Pairwise fun e e' => e.1 ≤ e'.1) :
    entry ∈ expire cut deque ↔ entry ∈ deque ∧ cut ≤ entry.1 := by
  induction deque with
  | nil => simp [expire]
  | cons front deque ih =>
    obtain ⟨hfront, htimed⟩ := List.pairwise_cons.mp htimed
    by_cases hold : front.1 < cut
    · have hdrop : expire cut (front :: deque) = expire cut deque :=
        List.dropWhile_cons_of_pos (decide_eq_true hold)
      rw [hdrop, ih htimed, List.mem_cons, or_and_right, or_iff_right]
      rintro ⟨rfl, hcut⟩
      exact hcut.not_gt hold
    · have hkeep : expire cut (front :: deque) = front :: deque :=
        List.dropWhile_cons_of_neg (by simpa using hold)
      rw [hkeep]
      refine ⟨fun h => ⟨h, ?_⟩, And.left⟩
      rcases List.mem_cons.mp h with rfl | hmem
      · exact not_lt.mp hold
      · exact (not_lt.mp hold).trans (hfront entry hmem)

/-- The cut can move on: what expires is older than everything that still counts. -/
theorem Keeps.expire {cut' : T} (h : Keeps r cut fed deque) (hcut : cut ≤ cut') :
    Keeps r cut' fed (expire cut' deque) where
  sub e he := h.sub e ((mem_expire h.timed).mp he).1
  recent e he := ((mem_expire h.timed).mp he).2
  timed := h.timed.sublist (List.dropWhile_sublist _)
  falling := h.falling.sublist (List.dropWhile_sublist _)
  beaten e he hrecent := by
    obtain ⟨d, hd, htime, hbeaten⟩ := h.beaten e he (hcut.trans hrecent)
    exact ⟨d, (mem_expire h.timed).mpr ⟨hd, hrecent.trans htime⟩, htime, hbeaten⟩

theorem better_of_not [Std.Total r] {a b : α} (h : ¬ r a b) : r b a :=
  (total_of r a b).resolve_left h

section

variable [IsTrans α r] [Std.Total r]

omit [LinearOrder T] in
/-- In a deque whose values fall, what the last entry is better than, all are better than. -/
theorem not_of_last {last : T × α} {kept : List (T × α)}
    (hfalling : (kept ++ [last]).Pairwise fun e e' => ¬ r e.2 e'.2) {value : α}
    (hlast : ¬ r last.2 value) : ∀ e ∈ kept ++ [last], ¬ r e.2 value := by
  intro e he hbeaten
  rcases List.mem_append.mp he with hkept | hmem
  · have hbetter : ¬ r e.2 last.2 :=
      (List.pairwise_append.mp hfalling).2.2 e hkept last (List.mem_singleton_self last)
    exact hlast (trans_of r (better_of_not hbetter) hbeaten)
  · rw [List.mem_singleton.mp hmem] at hbeaten
    exact hlast hbeaten

variable [DecidableRel r]

omit [LinearOrder T] in
/-- What is kept of the deque is better than the new entry. -/
theorem not_of_mem_rdropWhile (hfalling : deque.Pairwise fun e e' => ¬ r e.2 e'.2) {value : α} :
    ∀ e ∈ deque.rdropWhile (fun e => r e.2 value), ¬ r e.2 value := by
  have hkept : (deque.rdropWhile fun e => r e.2 value).Pairwise fun e e' => ¬ r e.2 e'.2 :=
    hfalling.sublist (List.rdropWhile_prefix _ _).sublist
  intro e he
  have hne := List.ne_nil_of_mem he
  have hlast := List.rdropWhile_last_not (fun e : T × α => decide (r e.2 value)) deque hne
  rw [← List.dropLast_append_getLast hne] at hkept he
  exact not_of_last hkept (by simpa using hlast) e he

/-- The new entry is fed and takes the place of those it beats or equals. -/
theorem Keeps.push (h : Keeps r cut fed deque) (hrecent : cut ≤ entry.1)
    (hlast : ∀ e ∈ fed, e.1 ≤ entry.1) : Keeps r cut (entry :: fed) (push r entry deque) := by
  have hsub := (List.rdropWhile_prefix (l := deque) fun e => decide (r e.2 entry.2)).sublist
  have hmem : ∀ e, e ∈ MonotoneDeque.push r entry deque ↔
      e ∈ deque.rdropWhile (fun e => r e.2 entry.2) ∨ e = entry := by
    simp [MonotoneDeque.push]
  constructor
  · intro e he
    rcases (hmem e).mp he with hkept | rfl
    · exact List.mem_cons_of_mem entry (h.sub e (hsub.subset hkept))
    · exact List.mem_cons_self
  · intro e he
    rcases (hmem e).mp he with hkept | rfl
    · exact h.recent e (hsub.subset hkept)
    · exact hrecent
  · refine List.pairwise_append.mpr ⟨h.timed.sublist hsub, List.pairwise_singleton _ _, ?_⟩
    intro e he d hd
    rw [List.mem_singleton.mp hd]
    exact hlast e (h.sub e (hsub.subset he))
  · refine List.pairwise_append.mpr ⟨h.falling.sublist hsub, List.pairwise_singleton _ _, ?_⟩
    intro e he d hd
    rw [List.mem_singleton.mp hd]
    exact not_of_mem_rdropWhile h.falling e he
  · intro e he hcut
    rcases List.mem_cons.mp he with rfl | hfed
    · exact ⟨e, (hmem e).mpr (.inr rfl), le_rfl, refl_of r e.2⟩
    · obtain ⟨d, hd, htime, hbeaten⟩ := h.beaten e hfed hcut
      rw [← deque.rdropWhile_append_rtakeWhile (p := fun e => decide (r e.2 entry.2))] at hd
      rcases List.mem_append.mp hd with hkept | htaken
      · exact ⟨d, (hmem d).mpr (.inl hkept), htime, hbeaten⟩
      · have hequal : r d.2 entry.2 := by simpa using List.mem_rtakeWhile_imp htaken
        exact ⟨entry, (hmem entry).mpr (.inr rfl), hlast e hfed, trans_of r hbeaten hequal⟩

end

/-- The front is the best of the entries from the cut on. -/
theorem Keeps.front [IsTrans α r] [Std.Total r] (h : Keeps r cut fed deque) {front : T × α}
    (hfront : deque.head? = some front) :
    front ∈ fed ∧ cut ≤ front.1 ∧ ∀ e ∈ fed, cut ≤ e.1 → r e.2 front.2 := by
  obtain ⟨rest, rfl⟩ := List.head?_eq_some_iff.mp hfront
  refine ⟨h.sub front List.mem_cons_self, h.recent front List.mem_cons_self, ?_⟩
  intro e he hcut
  obtain ⟨d, hd, -, hbeaten⟩ := h.beaten e he hcut
  rcases List.mem_cons.mp hd with rfl | hrest
  · exact hbeaten
  · have hbetter := (List.pairwise_cons.mp h.falling).1 d hrest
    exact trans_of r hbeaten (better_of_not hbetter)

/-- The deque is empty when nothing was fed from the cut on. -/
theorem Keeps.head?_eq_none_iff (h : Keeps r cut fed deque) :
    deque.head? = none ↔ ∀ e ∈ fed, e.1 < cut := by
  rw [List.head?_eq_none_iff]
  constructor
  · rintro rfl e he
    by_contra hrecent
    obtain ⟨d, hd, -⟩ := h.beaten e he (not_lt.mp hrecent)
    exact List.not_mem_nil hd
  · intro hold
    refine List.eq_nil_iff_forall_not_mem.mpr fun e he => ?_
    exact (h.recent e he).not_gt (hold e (h.sub e he))

/-! ## Greatest and least values -/

/-- The values of the entries from the cut on. -/
def since (cut : T) (fed : List (T × α)) : List α := (fed.filter fun e => cut ≤ e.1).map Prod.snd

theorem mem_since {value : α} :
    value ∈ since cut fed ↔ ∃ e ∈ fed, cut ≤ e.1 ∧ e.2 = value := by
  simp [since, and_assoc]

theorem since_eq_nil_iff : since cut fed = [] ↔ ∀ e ∈ fed, e.1 < cut := by
  simp [since, List.filter_eq_nil_iff]

variable [LinearOrder α]

theorem Keeps.max? (h : Keeps (· ≤ ·) cut fed deque) :
    deque.head?.map Prod.snd = (since cut fed).max? := by
  cases hfront : deque.head? with
  | none =>
    rw [since_eq_nil_iff.mpr (h.head?_eq_none_iff.mp hfront)]
    rfl
  | some front =>
    obtain ⟨hmem, hcut, hbest⟩ := h.front hfront
    refine (List.max?_eq_some_iff.mpr ⟨mem_since.mpr ⟨front, hmem, hcut, rfl⟩, ?_⟩).symm
    intro value hvalue
    obtain ⟨e, he, hrecent, rfl⟩ := mem_since.mp hvalue
    exact hbest e he hrecent

theorem Keeps.min? (h : Keeps (· ≥ ·) cut fed deque) :
    deque.head?.map Prod.snd = (since cut fed).min? := by
  cases hfront : deque.head? with
  | none =>
    rw [since_eq_nil_iff.mpr (h.head?_eq_none_iff.mp hfront)]
    rfl
  | some front =>
    obtain ⟨hmem, hcut, hbest⟩ := h.front hfront
    refine (List.min?_eq_some_iff.mpr ⟨mem_since.mpr ⟨front, hmem, hcut, rfl⟩, ?_⟩).symm
    intro value hvalue
    obtain ⟨e, he, hrecent, rfl⟩ := mem_since.mp hvalue
    exact hbest e he hrecent

end MonotoneDeque

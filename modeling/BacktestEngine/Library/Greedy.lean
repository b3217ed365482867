import Mathlib.Data.List.Induction
import Mathlib.Data.List.Pairwise
import Mathlib.Data.List.Perm.Basic
import Mathlib.Order.Lattice

/-! # Greedy selection

A walk along a list takes every element that conflicts with none taken before it, until enough
are taken. Where an element conflicts with itself, one that comes again changes nothing; and a
stable sort before the walk keeps it so.
-/

namespace Greedy

variable {α β : Type*}

/-! ## First occurrences -/

section Firsts

variable [DecidableEq α] {l l' : List α} {a : α}

theorem eraseDups_concat (l : List α) (a : α) :
    (l ++ [a]).eraseDups = if a ∈ l then l.eraseDups else l.eraseDups ++ [a] := by
  rw [List.eraseDups_append, List.cons_removeAll, List.nil_removeAll]
  split_ifs with hnew hmem hmem <;> simp_all [List.eraseDups_cons]

theorem eraseDups_sublist (l : List α) : l.eraseDups.Sublist l := by
  induction l using List.reverseRecOn with
  | nil => exact List.Sublist.refl _
  | append_singleton l a ih =>
    rw [eraseDups_concat]
    split_ifs
    · exact ih.trans (List.sublist_append_left _ _)
    · exact ih.append (List.Sublist.refl _)

theorem filter_eraseDups (p : α → Bool) (l : List α) :
    l.eraseDups.filter p = (l.filter p).eraseDups := by
  induction l using List.reverseRecOn with
  | nil => rfl
  | append_singleton l a ih =>
    rw [eraseDups_concat, List.filter_append]
    cases hp : p a with
    | false => split_ifs <;> simp [hp, ih]
    | true =>
      have hmem : a ∈ l.filter p ↔ a ∈ l := by simp [hp]
      rw [List.filter_singleton, hp, cond_true, eraseDups_concat]
      split_ifs <;> simp_all

end Firsts

/-- Copies of elements put in behind the elements they are copies of. -/
inductive Copies (l : List α) : List α → Prop
  | refl : Copies l l
  | copy {before after : List α} {a : α} (h : Copies l (before ++ after)) (ha : a ∈ before) :
    Copies l (before ++ a :: after)

namespace Copies

variable {l l' : List α}

theorem eraseDups_eq [DecidableEq α] (h : Copies l l') : l'.eraseDups = l.eraseDups := by
  induction h with
  | refl => rfl
  | copy h ha ih =>
    rw [← ih, List.eraseDups_append, List.eraseDups_append, List.cons_removeAll]
    simp [ha]

theorem filter (p : α → Bool) (h : Copies l l') : Copies (l.filter p) (l'.filter p) := by
  induction h with
  | refl => exact .refl
  | @copy before after a h ha ih =>
    rw [List.filter_append] at ih ⊢
    cases hp : p a with
    | false => rwa [List.filter_cons_of_neg (by simp [hp])]
    | true =>
      rw [List.filter_cons_of_pos hp]
      exact ih.copy (List.mem_filter.mpr ⟨ha, hp⟩)

/-- A block of copies. -/
theorem block {before after : List α} (h : Copies l (before ++ after)) (block : List α)
    (hblock : ∀ a ∈ block, a ∈ before) : Copies l (before ++ (block ++ after)) := by
  induction block with
  | nil => exact h
  | cons a block ih =>
    obtain ⟨ha, hrest⟩ := List.forall_mem_cons.mp hblock
    exact (ih hrest).copy ha

theorem flatMap (f : α → List β) (h : Copies l l') : Copies (l.flatMap f) (l'.flatMap f) := by
  induction h with
  | refl => exact .refl
  | @copy before after a h ha ih =>
    rw [List.flatMap_append] at ih ⊢
    exact ih.block (f a) fun b hb => List.mem_flatMap.mpr ⟨a, ha, hb⟩

end Copies

/-! ## Order and classes -/

section Classes

variable [LinearOrder β] {score : α → β} {l l' : List α}

/-- A sorted list is determined by what it holds of each class, in its order. -/
theorem eq_of_classes (hl : l.Pairwise fun a b => score a ≤ score b)
    (hl' : l'.Pairwise fun a b => score a ≤ score b)
    (h : ∀ b, (l.filter fun a => score a = b) = l'.filter fun a => score a = b) : l = l' := by
  induction l generalizing l' with
  | nil =>
    cases l' with
    | nil => rfl
    | cons a' rest' => simpa using h (score a')
  | cons a rest ih =>
    cases l' with
    | nil => simpa using h (score a)
    | cons a' rest' =>
      obtain ⟨hhead, hrest⟩ := List.pairwise_cons.mp hl
      obtain ⟨hhead', hrest'⟩ := List.pairwise_cons.mp hl'
      have hmem : ∀ x, x ∈ a :: rest ↔ x ∈ a' :: rest' := fun x => by
        have hclass := congrArg (x ∈ ·) (h (score x))
        simpa only [List.mem_filter, decide_true, and_true, eq_iff_iff] using hclass
      have hle : score a ≤ score a' := by
        obtain heq | hin := List.mem_cons.mp ((hmem a').mpr List.mem_cons_self)
        · exact (congrArg score heq).ge
        · exact hhead a' hin
      have hge : score a' ≤ score a := by
        obtain heq | hin := List.mem_cons.mp ((hmem a).mp List.mem_cons_self)
        · exact (congrArg score heq).ge
        · exact hhead' a hin
      have hscore : score a' = score a := hge.antisymm hle
      have hfirst := h (score a)
      rw [List.filter_cons_of_pos (by simp), List.filter_cons_of_pos (by simpa using hscore)]
        at hfirst
      obtain rfl : a = a' := (List.cons.inj hfirst).1
      refine congrArg (a :: ·) (ih hrest hrest' fun b => ?_)
      have hclass := h b
      by_cases hb : score a = b
      · rw [List.filter_cons_of_pos (by simpa using hb),
          List.filter_cons_of_pos (by simpa using hb)] at hclass
        exact (List.cons.inj hclass).2
      · rwa [List.filter_cons_of_neg (by simpa using hb),
          List.filter_cons_of_neg (by simpa using hb)] at hclass

variable (score) in
/-- The elements by descending score, equal ones in the order they had. -/
def ranked (l : List α) : List α := l.mergeSort fun a b => decide (score b ≤ score a)

theorem le_trans_ranked (a b c : α) (hab : decide (score b ≤ score a) = true)
    (hbc : decide (score c ≤ score b) = true) : decide (score c ≤ score a) = true :=
  decide_eq_true ((of_decide_eq_true hbc).trans (of_decide_eq_true hab))

theorem le_total_ranked (a b : α) :
    (decide (score b ≤ score a) || decide (score a ≤ score b)) = true := by
  rw [Bool.or_eq_true, decide_eq_true_eq, decide_eq_true_eq]
  exact le_total _ _

theorem pairwise_ranked (l : List α) : (ranked score l).Pairwise fun a b => score b ≤ score a :=
  (List.pairwise_mergeSort le_trans_ranked le_total_ranked l).imp of_decide_eq_true

variable (score) in
theorem mem_ranked {a : α} : a ∈ ranked score l ↔ a ∈ l := List.mem_mergeSort

/-- The elements of one score keep their order. -/
theorem filter_ranked (l : List α) (b : β) :
    ((ranked score l).filter fun a => score a = b) = l.filter fun a => score a = b := by
  have hclass : (l.filter fun a => score a = b).Pairwise
      fun a c => decide (score c ≤ score a) = true := by
    apply List.pairwise_of_forall_mem_list
    intro a ha c hc
    have hscore := of_decide_eq_true (List.mem_filter.mp ha).2
    have hscore' := of_decide_eq_true (List.mem_filter.mp hc).2
    exact decide_eq_true (hscore'.trans hscore.symm).le
  have hsub := (List.sublist_mergeSort le_trans_ranked le_total_ranked hclass
    List.filter_sublist).filter fun a => decide (score a = b)
  rw [List.filter_filter] at hsub
  simp only [Bool.and_self] at hsub
  exact (hsub.eq_of_length ((List.mergeSort_perm l _).filter _).length_eq.symm).symm

theorem ranked_unique (hsorted : l'.Pairwise fun a b => score b ≤ score a)
    (h : ∀ b, (l'.filter fun a => score a = b) = l.filter fun a => score a = b) :
    l' = ranked score l :=
  eq_of_classes (β := βᵒᵈ) hsorted (pairwise_ranked l)
    fun b => (h (OrderDual.ofDual b)).trans (filter_ranked l _).symm

/-- The first of the greatest elements comes first. -/
theorem head?_ranked (l : List α) :
    (ranked score l).head? = l.find? fun a => l.all fun b => decide (score b ≤ score a) := by
  cases hranked : ranked score l with
  | nil =>
    have hnil : l = [] := List.eq_nil_iff_forall_not_mem.mpr fun a ha => by
      have hmem := (mem_ranked score).mpr ha
      rw [hranked] at hmem
      cases hmem
    rw [hnil]
    rfl
  | cons best rest =>
    have hbest : ∀ b ∈ l, score b ≤ score best := fun b hb => by
      have hmem := (mem_ranked score).mpr hb
      have hsorted : (ranked score l).Pairwise fun a b => score b ≤ score a := pairwise_ranked l
      rw [hranked] at hmem hsorted
      obtain heq | hin := List.mem_cons.mp hmem
      · exact (congrArg score heq).le
      · exact (List.pairwise_cons.mp hsorted).1 b hin
    have hin : best ∈ l := (mem_ranked score).mp (hranked ▸ List.mem_cons_self)
    have hclass : (l.filter fun a => l.all fun b => decide (score b ≤ score a)) =
        l.filter fun a => score a = score best := by
      apply List.filter_congr
      intro a ha
      rw [Bool.eq_iff_iff, List.all_eq_true, decide_eq_true_eq]
      constructor
      · exact fun hall => (hbest a ha).antisymm (of_decide_eq_true (hall best hin))
      · exact fun hscore b hb => decide_eq_true ((hbest b hb).trans hscore.ge)
    rw [← List.head?_filter, hclass, ← filter_ranked, hranked,
      List.filter_cons_of_pos (by simp)]
    rfl

/-- Sorting and leaving out what came before can be done in either order. -/
theorem eraseDups_ranked [DecidableEq α] (l : List α) :
    (ranked score l).eraseDups = ranked score l.eraseDups := by
  apply ranked_unique
  · exact (pairwise_ranked l).sublist (eraseDups_sublist _)
  · intro b
    rw [filter_eraseDups, filter_ranked, filter_eraseDups]

end Classes

/-! ## The walk -/

section Walk

variable (conflicts : α → α → Prop) [DecidableRel conflicts] (cap : ℕ)

/-- There is no room for an element, or it conflicts with one that was taken. -/
def Settled (picked : List α) (a : α) : Prop :=
  picked.length = cap ∨ ∃ p ∈ picked, conflicts a p

instance (picked : List α) (a : α) : Decidable (Settled conflicts cap picked a) :=
  inferInstanceAs (Decidable (_ ∨ _))

def take (picked : List α) (a : α) : List α :=
  if Settled conflicts cap picked a then picked else picked ++ [a]

def select (l : List α) : List α := l.foldl (take conflicts cap) []

variable {conflicts cap} {l l' picked : List α} {a : α}

theorem select_concat (l : List α) (a : α) :
    select conflicts cap (l ++ [a]) = take conflicts cap (select conflicts cap l) a := by
  rw [select, List.foldl_concat]
  rfl

variable (conflicts cap) in
/-- What the walk adds comes from the list it goes along. -/
theorem foldl_sublist (picked l : List α) :
    ∃ later, l.foldl (take conflicts cap) picked = picked ++ later ∧ later.Sublist l := by
  induction l using List.reverseRecOn with
  | nil => exact ⟨[], (List.append_nil _).symm, List.Sublist.refl _⟩
  | append_singleton l a ih =>
    obtain ⟨later, hlater, hsub⟩ := ih
    rw [List.foldl_concat, take]
    split_ifs
    · exact ⟨later, hlater, hsub.trans (List.sublist_append_left _ _)⟩
    · refine ⟨later ++ [a], ?_, hsub.append (List.Sublist.refl _)⟩
      rw [hlater, List.append_assoc]

theorem prefix_foldl (picked l : List α) : picked <+: l.foldl (take conflicts cap) picked := by
  obtain ⟨later, hlater, -⟩ := foldl_sublist conflicts cap picked l
  exact ⟨later, hlater.symm⟩

/-- What was taken stays. -/
theorem prefix_select (l l' : List α) :
    select conflicts cap l <+: select conflicts cap (l ++ l') := by
  rw [select, select, List.foldl_append]
  exact prefix_foldl _ _

theorem select_sublist (l : List α) : (select conflicts cap l).Sublist l := by
  obtain ⟨later, hlater, hsub⟩ := foldl_sublist conflicts cap [] l
  rw [select, hlater]
  exact hsub

theorem length_select_le (l : List α) : (select conflicts cap l).length ≤ cap := by
  induction l using List.reverseRecOn with
  | nil => exact Nat.zero_le _
  | append_singleton l a ih =>
    rw [select_concat, take]
    split_ifs with hsettled
    · exact ih
    · have hroom : (select conflicts cap l).length ≠ cap := fun h => hsettled (.inl h)
      rw [List.length_append, List.length_singleton]
      omega

theorem pairwise_select (l : List α) :
    (select conflicts cap l).Pairwise fun p a => ¬ conflicts a p := by
  induction l using List.reverseRecOn with
  | nil => exact .nil
  | append_singleton l a ih =>
    rw [select_concat, take]
    split_ifs with hsettled
    · exact ih
    · rw [List.pairwise_append]
      refine ⟨ih, List.pairwise_singleton _ _, fun p hp b hb => ?_⟩
      rw [List.mem_singleton.mp hb]
      exact fun hconflict => hsettled (.inr ⟨p, hp, hconflict⟩)

/-- The first element is taken, when one may be. -/
theorem head?_select (hcap : 0 < cap) (l : List α) :
    (select conflicts cap l).head? = l.head? := by
  cases l with
  | nil => rfl
  | cons a l =>
    have hfirst : take conflicts cap [] a = [a] := by
      refine if_neg ?_
      rintro (hfull | ⟨p, hp, -⟩)
      · exact hcap.ne hfull
      · cases hp
    obtain ⟨later, hlater, -⟩ := foldl_sublist conflicts cap [a] l
    rw [select, List.foldl_cons, hfirst, hlater]
    rfl

theorem foldl_full (h : picked.length = cap) (l : List α) :
    l.foldl (take conflicts cap) picked = picked := by
  induction l with
  | nil => rfl
  | cons a l ih => rw [List.foldl_cons, take, if_pos (.inl h), ih]

theorem Settled.later (h : Settled conflicts cap picked a) (l : List α) :
    Settled conflicts cap (l.foldl (take conflicts cap) picked) a := by
  obtain hfull | ⟨p, hp, hconflict⟩ := h
  · rw [foldl_full hfull]
    exact .inl hfull
  · exact .inr ⟨p, (prefix_foldl picked l).mem hp, hconflict⟩

theorem settled_take (hrefl : ∀ a, conflicts a a) (picked : List α) (a : α) :
    Settled conflicts cap (take conflicts cap picked a) a := by
  unfold take
  split_ifs with hsettled
  · exact hsettled
  · exact .inr ⟨a, by simp, hrefl a⟩

/-- An element that comes again changes nothing. -/
theorem select_again (hrefl : ∀ a, conflicts a a) (h : a ∈ l) :
    select conflicts cap (l ++ [a]) = select conflicts cap l := by
  obtain ⟨before, after, rfl⟩ := List.append_of_mem h
  have hsettled : Settled conflicts cap (select conflicts cap (before ++ a :: after)) a := by
    rw [List.append_cons, select, List.foldl_append]
    rw [List.foldl_concat]
    exact (settled_take hrefl _ a).later after
  rw [select_concat, take, if_pos hsettled]

theorem select_eraseDups [DecidableEq α] (hrefl : ∀ a, conflicts a a) (l : List α) :
    select conflicts cap l.eraseDups = select conflicts cap l := by
  induction l using List.reverseRecOn with
  | nil => rfl
  | append_singleton l a ih =>
    rw [eraseDups_concat]
    split_ifs with hmem
    · rw [ih, select_again hrefl hmem]
    · rw [select_concat, select_concat, ih]

/-- Copies behind their originals change nothing, and neither does a stable sort before the walk. -/
theorem Copies.select_ranked [LinearOrder β] {score : α → β} (hrefl : ∀ a, conflicts a a)
    (h : Copies l l') : select conflicts cap (ranked score l') =
      select conflicts cap (ranked score l) := by
  classical
  calc select conflicts cap (ranked score l')
    _ = select conflicts cap (ranked score l'.eraseDups) := by
      rw [← eraseDups_ranked, select_eraseDups hrefl]
    _ = select conflicts cap (ranked score l.eraseDups) := by rw [h.eraseDups_eq]
    _ = select conflicts cap (ranked score l) := by
      rw [← eraseDups_ranked, select_eraseDups hrefl]

variable (conflicts cap) in
/-- Where an element stands, it is taken, or conflicts with one taken before it, or comes after the
walk has taken enough. -/
theorem select_split (before : List α) (a : α) (after : List α) :
    (∃ later, select conflicts cap (before ++ a :: after) =
      select conflicts cap before ++ a :: later ∧ later.Sublist after) ∨
    (∃ p ∈ select conflicts cap before, conflicts a p) ∨
    select conflicts cap (before ++ a :: after) = select conflicts cap before ∧
      (select conflicts cap before).length = cap := by
  by_cases hsettled : Settled conflicts cap (select conflicts cap before) a
  · obtain hfull | hconflict := hsettled
    · refine .inr (.inr ⟨?_, hfull⟩)
      rw [select, List.foldl_append]
      exact foldl_full hfull _
    · exact .inr (.inl hconflict)
  · refine .inl ?_
    have htake : select conflicts cap (before ++ [a]) = select conflicts cap before ++ [a] := by
      rw [select_concat, take, if_neg hsettled]
    obtain ⟨later, hlater, hsub⟩ := foldl_sublist conflicts cap
      (select conflicts cap (before ++ [a])) after
    refine ⟨later, ?_, hsub⟩
    rw [List.append_cons, select, List.foldl_append]
    change List.foldl _ (select conflicts cap (before ++ [a])) after = _
    rw [hlater, htake, List.append_assoc]
    rfl

end Walk

end Greedy

/-
  Sorting by a key that does not tell all elements apart.

  What is computed from a sorted list does not depend on the order before the
  sort, as far as neighbours with the same key may be exchanged
  (`eq_of_perm_of_swap`, `sortDesc_eq_of_perm`).
-/
import Mathlib.Data.List.Sort

namespace SortByKey

variable {α β κ : Type*} [LinearOrder κ] (key : α → κ)

/-- `list.sort(key=key, reverse=True)`: larger keys first, and equal ones stay in their order. -/
def sortDesc (l : List α) : List α := l.insertionSort fun a b => key b ≤ key a

/-- The elements stand in the order of their keys. -/
def Descending (l : List α) : Prop := l.Pairwise fun a b => key b ≤ key a

theorem sortDesc_perm (l : List α) : (sortDesc key l).Perm l := List.perm_insertionSort _ l

theorem descending_sortDesc (l : List α) : Descending key (sortDesc key l) :=
  have : Std.Total fun a b : α => key b ≤ key a := ⟨fun _ _ => le_total _ _⟩
  have : IsTrans α fun a b : α => key b ≤ key a := ⟨fun _ _ _ hab hbc => hbc.trans hab⟩
  List.pairwise_insertionSort _ l

variable {key}

/-- What stands before an element of a sorted list has no smaller key. -/
theorem key_le_of_sortDesc_eq {l pre post : List α} {a : α} (h : sortDesc key l = pre ++ a :: post) :
    ∀ x ∈ pre, x ∈ l ∧ key a ≤ key x := by
  intro x hx
  have hdescending : Descending key (pre ++ a :: post) := h ▸ descending_sortDesc key l
  have hmem : x ∈ sortDesc key l := by
    rw [h]
    exact List.mem_append_left _ hx
  exact ⟨(sortDesc_perm key l).mem_iff.mp hmem,
    (List.pairwise_append.mp hdescending).2.2 x hx a List.mem_cons_self⟩

omit [LinearOrder κ] in
/-- An element moves to the front through elements with its key. -/
theorem moveFront (f : List α → β) {a : α} {pre : List α} (post : List α)
    (hkey : ∀ x ∈ pre, key x = key a)
    (hswap : ∀ x ∈ pre, ∀ before after, f (before ++ x :: a :: after) = f (before ++ a :: x :: after)) :
    f (pre ++ a :: post) = f (a :: (pre ++ post)) := by
  induction pre generalizing f with
  | nil => rfl
  | cons x pre ih =>
    have hrest : ∀ y ∈ pre, ∀ before after, f (x :: (before ++ y :: a :: after)) =
        f (x :: (before ++ a :: y :: after)) :=
      fun y hy before after => hswap y (List.mem_cons_of_mem _ hy) (x :: before) after
    calc f (x :: pre ++ a :: post) = f (x :: a :: (pre ++ post)) :=
          ih (fun l => f (x :: l)) (fun y hy => hkey y (List.mem_cons_of_mem _ hy)) hrest
      _ = f (a :: (x :: pre ++ post)) := hswap x List.mem_cons_self [] _

/-- **Two descending lists of the same elements** agree for a function that lets neighbours with the
same key be exchanged. -/
theorem eq_of_perm_of_swap (f : List α → β) {l l' : List α} (hl : Descending key l)
    (hl' : Descending key l') (hperm : l.Perm l')
    (hswap : ∀ a ∈ l, ∀ b ∈ l, key a = key b → ∀ before after,
      f (before ++ a :: b :: after) = f (before ++ b :: a :: after)) : f l = f l' := by
  induction l generalizing f l' with
  | nil => rw [hperm.nil_eq]
  | cons a l ih =>
    obtain ⟨pre, post, rfl⟩ := List.append_of_mem (hperm.subset List.mem_cons_self)
    obtain ⟨ha, hl⟩ := List.pairwise_cons.mp hl
    have hpre : ∀ x ∈ pre, x ∈ a :: l :=
      fun x hx => hperm.mem_iff.mpr (List.mem_append_left _ hx)
    -- what stands before `a` in one list and not before it in the other has its key
    have hkey : ∀ x ∈ pre, key x = key a := by
      intro x hx
      have hge : key a ≤ key x :=
        (List.pairwise_append.mp hl').2.2 x hx a List.mem_cons_self
      rcases List.mem_cons.mp (hpre x hx) with rfl | hmem
      · rfl
      · exact le_antisymm (ha x hmem) hge
    have hrest : l.Perm (pre ++ post) :=
      (List.perm_cons a).mp (hperm.trans List.perm_middle)
    have hdescending : Descending key (pre ++ post) :=
      hl'.sublist ((List.Sublist.refl pre).append (List.sublist_cons_self a post))
    calc f (a :: l) = f (a :: (pre ++ post)) :=
          ih (fun l => f (a :: l)) hl hdescending hrest fun x hx y hy hxy before after =>
            hswap x (List.mem_cons_of_mem _ hx) y (List.mem_cons_of_mem _ hy) hxy (a :: before) after
      _ = f (pre ++ a :: post) := by
        refine (moveFront f post hkey fun x hx before after => ?_).symm
        exact hswap x (hpre x hx) a List.mem_cons_self (hkey x hx) before after

/-- **The order before the sort** does not matter for such a function. -/
theorem sortDesc_eq_of_perm (f : List α → β) {l l' : List α} (hperm : l.Perm l')
    (hswap : ∀ a ∈ l, ∀ b ∈ l, key a = key b → ∀ before after,
      f (before ++ a :: b :: after) = f (before ++ b :: a :: after)) :
    f (sortDesc key l) = f (sortDesc key l') := by
  have hsorted : (sortDesc key l).Perm (sortDesc key l') :=
    (sortDesc_perm key l).trans (hperm.trans (sortDesc_perm key l').symm)
  refine eq_of_perm_of_swap f (descending_sortDesc key l) (descending_sortDesc key l') hsorted ?_
  intro a ha b hb
  exact hswap a ((sortDesc_perm key l).mem_iff.mp ha) b ((sortDesc_perm key l).mem_iff.mp hb)

end SortByKey

/-
  The order in which Python iterates over a `set`.

  Python does not promise any order: whatever depends on it is proved for every
  `SetOrder`.
-/
import Mathlib.Data.List.Dedup

namespace Py

/-- An order of the distinct elements for every list that a `set` is built from. -/
structure SetOrder (α : Type*) [DecidableEq α] where
  order : List α → List α
  perm : ∀ l, (order l).Perm l.dedup

namespace SetOrder

variable {α : Type*} [DecidableEq α]

/-- The order of the last occurrences. -/
def ofDedup : SetOrder α := ⟨List.dedup, fun _ => .refl _⟩

/-- An order that starts with an element, if there is one. -/
def startingWith (a : α) : SetOrder α where
  order l := if a ∈ l then a :: l.dedup.erase a else l.dedup
  perm l := by
    split_ifs with h
    · exact (List.perm_cons_erase (List.mem_dedup.mpr h)).symm
    · exact .refl _

theorem order_startingWith {a : α} {l : List α} (h : a ∈ l) :
    (startingWith a).order l = a :: l.dedup.erase a := if_pos h

@[simp] theorem mem_order (s : SetOrder α) {a : α} {l : List α} : a ∈ s.order l ↔ a ∈ l := by
  rw [(s.perm l).mem_iff, List.mem_dedup]

@[simp] theorem order_nil (s : SetOrder α) : s.order [] = [] := (s.perm []).eq_nil

theorem order_eq_nil (s : SetOrder α) {l : List α} : s.order l = [] ↔ l = [] := by
  constructor
  · intro h
    refine List.eq_nil_iff_forall_not_mem.mpr fun a ha => ?_
    have hmem := (mem_order s).mpr ha
    rw [h] at hmem
    cases hmem
  · rintro rfl
    exact order_nil s

@[simp] theorem order_singleton (s : SetOrder α) (a : α) : s.order [a] = [a] :=
  List.perm_singleton.mp (s.perm [a])

end SetOrder

end Py

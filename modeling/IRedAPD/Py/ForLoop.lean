/-
  `for x in xs` over a list that the body of the loop changes.

  A list iterator is an index into the list as it is at the moment: the loop
  ends when the index has reached its length.  `forMutated` runs such a loop on
  a state that holds the list.  A body that makes the list no longer is run at
  most as often as the list is long at the start, which is the fuel of `forEach`.

  Two bodies matter here.  One that removes the element it is at makes the loop
  pass over the next one, so what the loop sees are the elements of `everyOther`
  (`forEach_removing`).  One that pops the first element each time ends after half
  of the list (`forEach_popping`).
-/
import Mathlib.Data.List.Chain
import Mathlib.Tactic.Common

namespace Py

variable {σ α : Type*}

/-- `for x in items: body`, from index `i`. -/
def forMutated (items : σ → List α) (body : α → σ → σ) : ℕ → ℕ → σ → σ
  | 0, _, s => s
  | fuel + 1, i, s =>
    match (items s)[i]? with
    | none => s
    | some x => forMutated items body fuel (i + 1) (body x s)

/-- The loop from the beginning. -/
def forEach (items : σ → List α) (body : α → σ → σ) (s : σ) : σ :=
  forMutated items body (items s).length 0 s

theorem forMutated_of_length_le (items : σ → List α) (body : α → σ → σ) (fuel : ℕ) {i : ℕ} {s : σ}
    (h : (items s).length ≤ i) : forMutated items body fuel i s = s := by
  cases fuel with
  | zero => rfl
  | succ fuel => rw [forMutated, List.getElem?_eq_none h]

theorem forMutated_succ (items : σ → List α) (body : α → σ → σ) (fuel : ℕ) {i : ℕ} {s : σ} {x : α}
    (h : (items s)[i]? = some x) :
    forMutated items body (fuel + 1) i s = forMutated items body fuel (i + 1) (body x s) := by
  rw [forMutated, h]

/-! ### A body that removes the element -/

/-- What the loop sees of a list when it removes the elements with the property: the one after a
removed element is passed over. -/
def everyOther (p : α → Bool) : List α → List α
  | [] => []
  | [x] => [x]
  | x :: y :: xs => x :: (if p x then everyOther p xs else everyOther p (y :: xs))

theorem everyOther_cons_of_pos {p : α → Bool} {x : α} (h : p x = true) (xs : List α) :
    everyOther p (x :: xs) = x :: everyOther p xs.tail := by
  cases xs with
  | nil => rfl
  | cons y xs => rw [everyOther, if_pos h, List.tail_cons]

theorem everyOther_cons_of_neg {p : α → Bool} {x : α} (h : p x = false) (xs : List α) :
    everyOther p (x :: xs) = x :: everyOther p xs := by
  cases xs with
  | nil => rfl
  | cons y xs => rw [everyOther, h, if_neg Bool.false_ne_true]

theorem mem_of_mem_everyOther {p : α → Bool} {xs : List α} {x : α} (h : x ∈ everyOther p xs) :
    x ∈ xs := by
  induction xs using everyOther.induct with
  | case1 => exact h
  | case2 y => exact h
  | case3 y z xs ih₁ ih₂ =>
    cases hy : p y with
    | true =>
      rw [everyOther_cons_of_pos hy] at h
      rcases List.mem_cons.mp h with rfl | h
      · exact List.mem_cons_self
      · exact List.mem_cons_of_mem _ (List.mem_cons_of_mem _ (ih₁ h))
    | false =>
      rw [everyOther_cons_of_neg hy] at h
      rcases List.mem_cons.mp h with rfl | h
      · exact List.mem_cons_self
      · exact List.mem_cons_of_mem _ (ih₂ h)

theorem everyOther_congr {p q : α → Bool} {xs : List α} (h : ∀ x ∈ xs, p x = q x) :
    everyOther p xs = everyOther q xs := by
  induction xs using everyOther.induct with
  | case1 => rfl
  | case2 y => rfl
  | case3 y z xs ih₁ ih₂ =>
    have hy := h y List.mem_cons_self
    cases hp : p y with
    | true =>
      have hq : q y = true := hy.symm.trans hp
      rw [everyOther_cons_of_pos hp, everyOther_cons_of_pos hq, List.tail_cons]
      rw [ih₁ fun x hx => h x (List.mem_cons_of_mem _ (List.mem_cons_of_mem _ hx))]
    | false =>
      have hq : q y = false := hy.symm.trans hp
      rw [everyOther_cons_of_neg hp, everyOther_cons_of_neg hq]
      rw [ih₂ fun x hx => h x (List.mem_cons_of_mem _ hx)]

/-- `xs.remove(x)` takes away the first `x`; what follows the index moves up by one place. -/
theorem drop_erase_of_getElem? [BEq α] [LawfulBEq α] {xs : List α} {i : ℕ} {x : α} (h : xs[i]? = some x) :
    (xs.erase x).drop (i + 1) = (xs.drop (i + 1)).tail := by
  obtain ⟨hi, hx⟩ := List.getElem?_eq_some_iff.mp h
  have hmem : x ∈ xs.take (i + 1) := by
    rw [List.mem_take_iff_getElem]
    exact ⟨i, by omega, hx⟩
  have hsplit : xs.erase x = (xs.take (i + 1)).erase x ++ xs.drop (i + 1) := by
    rw [← List.erase_append_left _ hmem, List.take_append_drop]
  have hlen : ((xs.take (i + 1)).erase x).length = i := by
    rw [List.length_erase_of_mem hmem, List.length_take]
    omega
  have hdrop : (xs.erase x).drop i = xs.drop (i + 1) := by
    rw [hsplit]
    exact List.drop_left' hlen
  rw [← List.drop_drop, hdrop, List.drop_one]

theorem isChain_cons_of_neg {p : α → Bool} {x : α} {xs : List α} (h : p x = false)
    (hxs : xs.IsChain fun x y => ¬ (p x = true ∧ p y = true)) :
    (x :: xs).IsChain fun x y => ¬ (p x = true ∧ p y = true) := by
  cases xs with
  | nil => exact List.isChain_singleton x
  | cons y xs =>
    exact List.isChain_cons_cons.mpr
      ⟨fun hboth => Bool.false_ne_true (h.symm.trans hboth.1), hxs⟩

/-- **Every such element is seen** exactly when no two of them stand next to each other. -/
theorem forall_mem_everyOther_iff {p : α → Bool} {xs : List α} (hxs : xs.Nodup) :
    (∀ x ∈ xs, p x = true → x ∈ everyOther p xs) ↔
      xs.IsChain fun x y => ¬ (p x = true ∧ p y = true) := by
  induction xs using everyOther.induct with
  | case1 => simp
  | case2 y => simp [everyOther]
  | case3 y z xs ih₁ ih₂ =>
    obtain ⟨hy, hzs⟩ := List.nodup_cons.mp hxs
    obtain ⟨hz, hnodup⟩ := List.nodup_cons.mp hzs
    rw [List.isChain_cons_cons]
    -- an element that is removed hides the next one
    cases hpy : p y with
    | false =>
      rw [everyOther_cons_of_neg hpy, ← ih₂ hzs]
      constructor
      · intro h
        refine ⟨fun hboth => Bool.false_ne_true hboth.1, fun x hx hpx => ?_⟩
        rcases List.mem_cons.mp (h x (List.mem_cons_of_mem _ hx) hpx) with rfl | hmem
        · exact absurd hx hy
        · exact hmem
      · rintro ⟨-, h⟩ x hx hpx
        rcases List.mem_cons.mp hx with rfl | hx
        · exact List.mem_cons_self
        · exact List.mem_cons_of_mem _ (h x hx hpx)
    | true =>
      rw [everyOther_cons_of_pos hpy, List.tail_cons]
      constructor
      · intro h
        have hpz : p z = false := by
          rw [Bool.eq_false_iff]
          intro hpz
          rcases List.mem_cons.mp (h z (by simp) hpz) with rfl | hmem
          · exact hy List.mem_cons_self
          · exact hz (mem_of_mem_everyOther hmem)
        refine ⟨fun hboth => Bool.false_ne_true (hpz.symm.trans hboth.2), ?_⟩
        refine isChain_cons_of_neg hpz ((ih₁ hnodup).mp fun x hx hpx => ?_)
        rcases List.mem_cons.mp (h x (by simp [hx]) hpx) with rfl | hmem
        · exact absurd (List.mem_cons_of_mem z hx) hy
        · exact hmem
      · rintro ⟨hnot, hchain⟩ x hx hpx
        rcases List.mem_cons.mp hx with rfl | hx
        · exact List.mem_cons_self
        · rcases List.mem_cons.mp hx with rfl | hx
          · exact absurd ⟨rfl, hpx⟩ hnot
          · exact List.mem_cons_of_mem _ ((ih₁ hnodup).mpr hchain.of_cons x hx hpx)

/-- A loop whose body removes the elements with a property, and notes something of each element it
sees. -/
theorem forEach_removing [BEq α] [LawfulBEq α] {β : Type*} (items : σ → List α) (body : α → σ → σ)
    (p : α → Bool) (notes : σ → List β) (note : α → List β)
    (hitems : ∀ x s, items (body x s) = if p x then (items s).erase x else items s)
    (hnotes : ∀ x s, notes (body x s) = notes s ++ note x) (s : σ) :
    notes (forEach items body s) = notes s ++ (everyOther p (items s)).flatMap note := by
  -- by induction on the fuel, from any position
  have hloop : ∀ (fuel i : ℕ) (s : σ), (items s).length ≤ fuel + i →
      notes (forMutated items body fuel i s) =
        notes s ++ (everyOther p ((items s).drop i)).flatMap note := by
    intro fuel
    induction fuel with
    | zero =>
      intro i s h
      rw [forMutated, List.drop_eq_nil_of_le (by omega), everyOther, List.flatMap_nil,
        List.append_nil]
    | succ fuel ih =>
      intro i s h
      by_cases hi : (items s).length ≤ i
      · rw [forMutated_of_length_le items body _ hi, List.drop_eq_nil_of_le hi, everyOther,
          List.flatMap_nil, List.append_nil]
      · have hlt : i < (items s).length := by omega
        have hget := List.getElem?_eq_getElem hlt
        have hdrop : (items s).drop i = (items s)[i] :: (items s).drop (i + 1) :=
          List.drop_eq_getElem_cons hlt
        have hrest := hitems (items s)[i] s
        rw [forMutated_succ items body _ hget, hdrop]
        cases hp : p (items s)[i] with
        | true =>
          rw [hp, if_pos rfl] at hrest
          -- the next position is the second of what is left
          have hlen : (items (body (items s)[i] s)).length ≤ fuel + (i + 1) := by
            rw [hrest, List.length_erase_of_mem (List.getElem_mem hlt)]
            omega
          rw [ih (i + 1) _ hlen, hnotes, hrest, drop_erase_of_getElem? hget,
            everyOther_cons_of_pos hp, List.flatMap_cons, List.append_assoc]
        | false =>
          rw [hp, if_neg Bool.false_ne_true] at hrest
          have hlen : (items (body (items s)[i] s)).length ≤ fuel + (i + 1) := by
            rw [hrest]
            omega
          rw [ih (i + 1) _ hlen, hnotes, hrest, everyOther_cons_of_neg hp, List.flatMap_cons,
            List.append_assoc]
  have h := hloop (items s).length 0 s le_rfl
  rwa [List.drop_zero] at h

/-- What is left of the list was in it. -/
theorem mem_of_mem_forEach {items : σ → List α} {body : α → σ → σ}
    (hitems : ∀ x s, ∀ y ∈ items (body x s), y ∈ items s) {s : σ} {y : α}
    (hy : y ∈ items (forEach items body s)) : y ∈ items s := by
  have hloop : ∀ (fuel i : ℕ) (s : σ), y ∈ items (forMutated items body fuel i s) → y ∈ items s := by
    intro fuel
    induction fuel with
    | zero => exact fun i s h => h
    | succ fuel ih =>
      intro i s h
      rw [forMutated] at h
      split at h
      · exact h
      · exact hitems _ s y (ih _ _ h)
  exact hloop _ 0 s hy

/-! ### A body that pops the first element -/

/-- **Half of the list is seen**: a loop whose body pops the first element, and notes something of
the list it finds, ends when as many elements are gone as are left. -/
theorem forEach_popping {β : Type*} (items : σ → List α) (body : α → σ → σ) (notes : σ → List β)
    (note : List α → β) (hitems : ∀ x s, items (body x s) = (items s).tail)
    (hnotes : ∀ x s, notes (body x s) = notes s ++ [note (items s)]) (s : σ) :
    notes (forEach items body s) =
      notes s ++ (List.range (((items s).length + 1) / 2)).map fun k => note ((items s).drop k) := by
  have hloop : ∀ (fuel i : ℕ) (s : σ), (items s).length ≤ fuel + i →
      notes (forMutated items body fuel i s) = notes s ++
        (List.range (((items s).length - i + 1) / 2)).map fun k => note ((items s).drop k) := by
    intro fuel
    induction fuel with
    | zero =>
      intro i s h
      have hzero : ((items s).length - i + 1) / 2 = 0 := by omega
      rw [forMutated, hzero, List.range_zero, List.map_nil, List.append_nil]
    | succ fuel ih =>
      intro i s h
      by_cases hi : (items s).length ≤ i
      · have hzero : ((items s).length - i + 1) / 2 = 0 := by omega
        rw [forMutated_of_length_le items body _ hi, hzero, List.range_zero, List.map_nil,
          List.append_nil]
      · have hlt : i < (items s).length := by omega
        have hget := List.getElem?_eq_getElem hlt
        have hlen : (items (body (items s)[i] s)).length = (items s).length - 1 := by
          rw [hitems, List.length_tail]
        have hcount : ((items s).length - i + 1) / 2 = ((items s).length - 1 - (i + 1) + 1) / 2 + 1 := by
          omega
        rw [forMutated_succ items body _ hget, ih (i + 1) _ (by omega), hnotes, hlen, hitems, hcount,
          List.range_succ_eq_map, List.map_cons, List.map_map, List.append_assoc, List.drop_zero,
          List.singleton_append]
        congr 2
        refine List.map_congr_left fun k _ => ?_
        rw [Function.comp_apply, List.drop_tail]
  have h := hloop (items s).length 0 s le_rfl
  rwa [Nat.sub_zero] at h

end Py

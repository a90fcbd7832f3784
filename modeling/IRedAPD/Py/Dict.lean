/-
  Python `dict`: an association list in insertion order.

  `set` overwrites the value of a key in place and appends a new key, so `get?`
  sees the last value written (`get?_set`).  Python compares dictionaries
  without regard to order; `Same` is that comparison.
-/
import Mathlib.Data.List.Basic
import Mathlib.Tactic.Common

namespace Py

/-- A Python `dict`, oldest key first. -/
abbrev Dict (κ ν : Type*) := List (κ × ν)

namespace Dict

variable {κ ν : Type*} [DecidableEq κ]

/-- `d.get(k)`, `none` when the key is missing (`d[k]` raises `KeyError`). -/
def get? : Dict κ ν → κ → Option ν
  | [], _ => none
  | (k', v) :: d, k => if k' = k then some v else get? d k

/-- `d[k] = v`. -/
def set : Dict κ ν → κ → ν → Dict κ ν
  | [], k, v => [(k, v)]
  | (k', v') :: d, k, v => if k' = k then (k', v) :: d else (k', v') :: set d k v

/-- `d.pop(k, None)`. -/
def erase (d : Dict κ ν) (k : κ) : Dict κ ν := d.filter fun p => p.1 ≠ k

/-- `if k in d: d[k] = f(d[k])`. -/
def modify (d : Dict κ ν) (k : κ) (f : ν → ν) : Dict κ ν :=
  d.map fun p => if p.1 = k then (p.1, f p.2) else p

/-- `for k in d: d[k] = f(d[k])`. -/
def mapValues {ν' : Type*} (d : Dict κ ν) (f : ν → ν') : Dict κ ν' := d.map fun p => (p.1, f p.2)

@[simp] theorem get?_nil (k : κ) : get? ([] : Dict κ ν) k = none := rfl

/-- A key that is not there is written at the end. -/
theorem set_of_notMem {d : Dict κ ν} {k : κ} (h : k ∉ d.map Prod.fst) (v : ν) :
    set d k v = d ++ [(k, v)] := by
  induction d with
  | nil => rfl
  | cons p d ih =>
    rw [List.map_cons, List.mem_cons, not_or] at h
    rw [set, if_neg (Ne.symm h.1), ih h.2]
    rfl

/-- What is in a dictionary after a write was there, or has been written. -/
theorem mem_set {d : Dict κ ν} {k : κ} {v : ν} {p : κ × ν} (h : p ∈ set d k v) :
    p ∈ d ∨ (p.1 = k ∧ p.2 = v) := by
  induction d with
  | nil =>
    rw [List.mem_singleton.mp h]
    exact .inr ⟨rfl, rfl⟩
  | cons q d ih =>
    rw [set] at h
    split_ifs at h with hk
    · rcases List.mem_cons.mp h with rfl | h
      · exact .inr ⟨hk, rfl⟩
      · exact .inl (List.mem_cons_of_mem _ h)
    · rcases List.mem_cons.mp h with rfl | h
      · exact .inl (List.mem_cons_self ..)
      · exact (ih h).imp_left (List.mem_cons_of_mem _)

/-- Reading after a write. -/
theorem get?_set (d : Dict κ ν) (k : κ) (v : ν) (k' : κ) :
    get? (set d k v) k' = if k = k' then some v else get? d k' := by
  induction d with
  | nil => simp [set, get?]
  | cons p d ih =>
    obtain ⟨k₀, v₀⟩ := p
    by_cases h : k₀ = k
    · subst h
      by_cases hk : k₀ = k' <;> simp [set, get?, hk]
    · by_cases hk : k₀ = k'
      · subst hk
        simp [set, get?, h, Ne.symm h]
      · simp [set, get?, h, hk, ih]

/-- Reading after a key has been removed. -/
theorem get?_erase (d : Dict κ ν) (k k' : κ) :
    get? (erase d k) k' = if k' = k then none else get? d k' := by
  induction d with
  | nil => simp [erase]
  | cons p d ih =>
    unfold erase at ih ⊢
    by_cases hp : p.1 = k
    · rw [List.filter_cons_of_neg (by simp [hp]), ih]
      by_cases hk : k' = k
      · rw [if_pos hk, if_pos hk]
      · rw [if_neg hk, if_neg hk, get?, if_neg (by rw [hp]; exact Ne.symm hk)]
    · rw [List.filter_cons_of_pos (by simp [hp]), get?, ih, get?]
      by_cases hk : p.1 = k'
      · rw [if_pos hk, if_pos hk, if_neg (by rw [← hk]; exact hp)]
      · rw [if_neg hk, if_neg hk]

/-- Reading after a value has been changed. -/
theorem get?_modify (d : Dict κ ν) (k : κ) (f : ν → ν) (k' : κ) :
    get? (modify d k f) k' = if k' = k then (get? d k').map f else get? d k' := by
  induction d with
  | nil => simp [modify]
  | cons p d ih =>
    unfold modify at ih ⊢
    rw [List.map_cons]
    by_cases hp : p.1 = k
    · rw [if_pos hp, get?, get?]
      by_cases hk : p.1 = k'
      · rw [if_pos hk, if_pos hk, if_pos (hk.symm.trans hp)]
        rfl
      · rw [if_neg hk, if_neg hk, ih]
    · rw [if_neg hp, get?, get?]
      by_cases hk : p.1 = k'
      · rw [if_pos hk, if_pos hk, if_neg (by rw [← hk]; exact hp)]
      · rw [if_neg hk, if_neg hk, ih]

/-- Reading after all values have been changed. -/
theorem get?_mapValues {ν' : Type*} (d : Dict κ ν) (f : ν → ν') (k : κ) :
    get? (mapValues d f) k = (get? d k).map f := by
  induction d with
  | nil => rfl
  | cons p d ih =>
    unfold mapValues at ih ⊢
    rw [List.map_cons, get?, get?]
    split_ifs
    · rfl
    · exact ih

/-- A dictionary without keys is empty. -/
theorem eq_nil_of_get? {d : Dict κ ν} (h : ∀ k, get? d k = none) : d = [] := by
  cases d with
  | nil => rfl
  | cons p d =>
    have := h p.1
    simp [get?] at this

/-- The keys after a write. -/
theorem mem_keys_set {d : Dict κ ν} {k : κ} {v : ν} {k' : κ} :
    k' ∈ (set d k v).map Prod.fst ↔ k' = k ∨ k' ∈ d.map Prod.fst := by
  induction d with
  | nil => simp [set]
  | cons p d ih =>
    rw [set]
    split_ifs with hp
    · simp [hp]
    · rw [List.map_cons, List.mem_cons, ih, List.map_cons, List.mem_cons]
      exact or_left_comm

/-- No key occurs twice. -/
theorem nodup_keys_set {d : Dict κ ν} (h : (d.map Prod.fst).Nodup) (k : κ) (v : ν) :
    ((set d k v).map Prod.fst).Nodup := by
  induction d with
  | nil => simp [set]
  | cons p d ih =>
    obtain ⟨hp, hd⟩ := List.nodup_cons.mp h
    rw [set]
    split_ifs with hk
    · exact h
    · refine List.nodup_cons.mpr ⟨?_, ih hd⟩
      rw [mem_keys_set]
      exact not_or.mpr ⟨hk, hp⟩

/-- What is stored is what is listed. -/
theorem get?_eq_some_iff {d : Dict κ ν} (h : (d.map Prod.fst).Nodup) {k : κ} {v : ν} :
    get? d k = some v ↔ (k, v) ∈ d := by
  induction d with
  | nil => simp
  | cons p d ih =>
    obtain ⟨hp, hd⟩ := List.nodup_cons.mp h
    rw [get?, List.mem_cons]
    by_cases hk : p.1 = k
    · subst hk
      rw [if_pos rfl]
      constructor
      · intro hv
        exact .inl (by rw [← Option.some.inj hv])
      · rintro (heq | hmem)
        · rw [← heq]
        · exact absurd (List.mem_map_of_mem hmem) hp
    · rw [if_neg hk, ih hd]
      constructor
      · exact .inr
      · rintro (heq | hmem)
        · exact absurd (congrArg Prod.fst heq).symm hk
        · exact hmem

theorem mem_of_get? {d : Dict κ ν} {k : κ} {v : ν} (h : get? d k = some v) : (k, v) ∈ d := by
  induction d with
  | nil => cases h
  | cons p d ih =>
    rw [get?] at h
    split_ifs at h with hk
    · rw [← hk, ← Option.some.inj h]
      exact List.mem_cons_self ..
    · exact List.mem_cons_of_mem _ (ih h)

omit [DecidableEq κ] in
theorem keys_mapValues {ν' : Type*} (d : Dict κ ν) (f : ν → ν') :
    (mapValues d f).map Prod.fst = d.map Prod.fst := by
  rw [mapValues, List.map_map]
  rfl

theorem keys_modify (d : Dict κ ν) (k : κ) (f : ν → ν) :
    (modify d k f).map Prod.fst = d.map Prod.fst := by
  rw [modify, List.map_map]
  refine List.map_congr_left fun p _ => ?_
  simp only [Function.comp_apply]
  split_ifs <;> rfl

theorem nodup_keys_erase {d : Dict κ ν} (h : (d.map Prod.fst).Nodup) (k : κ) :
    ((erase d k).map Prod.fst).Nodup := h.sublist (List.filter_sublist.map _)

/-- `d == d'`: the same keys with the same values, in any order. -/
def Same (d d' : Dict κ ν) : Prop := ∀ k, get? d k = get? d' k

end Dict

end Py

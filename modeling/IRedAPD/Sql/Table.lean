/-
  A table with an id that the database counts up and a unique key.

  A `Table` cannot hold two rows with the same id or the same key: an insert
  that would is refused (`insert`), and an update leaves the key as it is.  What
  is stored under a key is `find?`, and every statement has a lemma that says
  what it does to `find?`.
-/
import Mathlib.Data.List.Nodup
import Mathlib.Tactic.Common

namespace Sql

/-- A table of rows with an `AUTO_INCREMENT` id, and a unique index on a key. -/
@[ext]
structure Table {ρ κ : Type*} (key : ρ → κ) where
  rows : List (ℕ × ρ)
  nextId : ℕ
  nextId_pos : 0 < nextId
  id_pos : ∀ r ∈ rows, 0 < r.1
  id_lt : ∀ r ∈ rows, r.1 < nextId
  id_nodup : (rows.map Prod.fst).Nodup
  key_nodup : (rows.map fun r => key r.2).Nodup

namespace Table

variable {ρ κ : Type*} {key : ρ → κ}

/-- The table without rows. -/
def empty : Table key := ⟨[], 1, by simp, by simp, by simp, by simp, by simp⟩

/-- The table of one row. -/
def single (id : ℕ) (hid : 0 < id) (r : ρ) : Table key :=
  ⟨[(id, r)], id + 1, Nat.succ_pos id, by simpa using hid, by simp, by simp, by simp⟩

/-- `SELECT ... WHERE p` -/
def select (t : Table key) (p : ℕ × ρ → Bool) : List (ℕ × ρ) := t.rows.filter p

/-- A row with a new id and a new key after the others. -/
def push (t : Table key) (r : ρ) (h : ∀ row ∈ t.rows, key row.2 ≠ key r) : Table key where
  rows := t.rows ++ [(t.nextId, r)]
  nextId := t.nextId + 1
  nextId_pos := Nat.succ_pos _
  id_pos := by
    intro row hrow
    rcases List.mem_append.mp hrow with hrow | hrow
    · exact t.id_pos row hrow
    · rw [List.mem_singleton.mp hrow]
      exact t.nextId_pos
  id_lt := by
    intro row hrow
    rcases List.mem_append.mp hrow with hrow | hrow
    · exact Nat.lt_succ_of_lt (t.id_lt row hrow)
    · rw [List.mem_singleton.mp hrow]
      exact Nat.lt_succ_self _
  id_nodup := by
    rw [List.map_append, List.map_singleton]
    refine List.nodup_append.mpr ⟨t.id_nodup, List.nodup_singleton _, ?_⟩
    rintro id hid _ hnext rfl
    obtain ⟨row, hrow, rfl⟩ := List.mem_map.mp hid
    exact absurd (List.mem_singleton.mp hnext) (Nat.ne_of_lt (t.id_lt row hrow))
  key_nodup := by
    rw [List.map_append, List.map_singleton]
    refine List.nodup_append.mpr ⟨t.key_nodup, List.nodup_singleton _, ?_⟩
    rintro k hk _ hnext rfl
    obtain ⟨row, hrow, hkey⟩ := List.mem_map.mp hk
    exact h row hrow (hkey.trans (List.mem_singleton.mp hnext))

/-- `UPDATE ... SET f WHERE p`, of columns outside the key. -/
def update (t : Table key) (p : ℕ × ρ → Bool) (f : ρ → ρ) (hf : ∀ r, key (f r) = key r) :
    Table key where
  rows := t.rows.map fun r => if p r then (r.1, f r.2) else r
  nextId := t.nextId
  nextId_pos := t.nextId_pos
  id_pos := by
    intro row hrow
    obtain ⟨r, hr, rfl⟩ := List.mem_map.mp hrow
    split_ifs <;> exact t.id_pos r hr
  id_lt := by
    intro row hrow
    obtain ⟨r, hr, rfl⟩ := List.mem_map.mp hrow
    split_ifs <;> exact t.id_lt r hr
  id_nodup := by
    have hid : (Prod.fst ∘ fun r : ℕ × ρ => if p r then (r.1, f r.2) else r) = Prod.fst := by
      funext r
      simp only [Function.comp_apply]
      split_ifs <;> rfl
    rw [List.map_map, hid]
    exact t.id_nodup
  key_nodup := by
    have hkey : ((fun r : ℕ × ρ => key r.2) ∘ fun r => if p r then (r.1, f r.2) else r) =
        fun r => key r.2 := by
      funext r
      simp only [Function.comp_apply]
      split_ifs
      · exact hf r.2
      · rfl
    rw [List.map_map, hkey]
    exact t.key_nodup

/-- `DELETE ... WHERE p` -/
def delete (t : Table key) (p : ℕ × ρ → Bool) : Table key where
  rows := t.rows.filter fun r => !p r
  nextId := t.nextId
  nextId_pos := t.nextId_pos
  id_pos r hr := t.id_pos r (List.mem_filter.mp hr).1
  id_lt r hr := t.id_lt r (List.mem_filter.mp hr).1
  id_nodup := t.id_nodup.sublist (List.filter_sublist.map _)
  key_nodup := t.key_nodup.sublist (List.filter_sublist.map _)

/-- Rows with the same id are the same. -/
theorem eq_of_id_eq (t : Table key) {r r' : ℕ × ρ} (hr : r ∈ t.rows) (hr' : r' ∈ t.rows)
    (h : r.1 = r'.1) : r = r' := List.inj_on_of_nodup_map t.id_nodup hr hr' h

/-- Rows with the same key are the same. -/
theorem eq_of_key_eq (t : Table key) {r r' : ℕ × ρ} (hr : r ∈ t.rows) (hr' : r' ∈ t.rows)
    (h : key r.2 = key r'.2) : r = r' := List.inj_on_of_nodup_map t.key_nodup hr hr' h

/-- A deletion without rows to delete. -/
theorem delete_eq_self {t : Table key} {p : ℕ × ρ → Bool} (h : ∀ row ∈ t.rows, p row = false) :
    t.delete p = t := by
  have hrows : t.rows.filter (fun r => !p r) = t.rows := by
    rw [List.filter_eq_self]
    intro row hrow
    rw [h row hrow]
    rfl
  ext1
  · exact hrows
  · rfl

/-! ### The rows a statement leaves -/

theorem mem_rows_update {t : Table key} {p : ℕ × ρ → Bool} {f : ρ → ρ}
    (hf : ∀ r, key (f r) = key r) {row : ℕ × ρ} : row ∈ (t.update p f hf).rows ↔
      (row ∈ t.rows ∧ p row = false) ∨ ∃ r ∈ t.rows, p r = true ∧ row = (r.1, f r.2) := by
  unfold update
  simp only [List.mem_map]
  constructor
  · rintro ⟨r, hr, rfl⟩
    cases hp : p r with
    | false => exact .inl ⟨by simpa using hr, by simpa using hp⟩
    | true => exact .inr ⟨r, hr, hp, by simp⟩
  · rintro (⟨hrow, hp⟩ | ⟨r, hr, hp, rfl⟩)
    · exact ⟨row, hrow, by simp [hp]⟩
    · exact ⟨r, hr, by simp [hp]⟩

theorem mem_rows_delete {t : Table key} {p : ℕ × ρ → Bool} {row : ℕ × ρ} :
    row ∈ (t.delete p).rows ↔ row ∈ t.rows ∧ p row = false := by
  unfold delete
  rw [List.mem_filter, Bool.not_eq_true']

variable [DecidableEq κ]

/-- The row with this key. -/
def find? (t : Table key) (k : κ) : Option (ℕ × ρ) := t.rows.find? fun r => key r.2 = k

/-- `INSERT`: fails when there is a row with the key. -/
def insert (t : Table key) (r : ρ) : Option (Table key) :=
  if h : ∀ row ∈ t.rows, key row.2 ≠ key r then some (t.push r h) else none

/-- `INSERT` of several rows, which all are inserted or none. -/
def insertAll (t : Table key) : List ρ → Option (Table key)
  | [] => some t
  | r :: rs => (t.insert r).bind fun t => t.insertAll rs

theorem rows_insert {t t' : Table key} {r : ρ} (h : t.insert r = some t') :
    t'.rows = t.rows ++ [(t.nextId, r)] := by
  unfold insert at h
  split_ifs at h
  rw [← Option.some.inj h, push]

theorem mem_rows_insert {t t' : Table key} {r : ρ} (h : t.insert r = some t') {row : ℕ × ρ} :
    row ∈ t'.rows ↔ row ∈ t.rows ∨ row = (t.nextId, r) := by
  rw [rows_insert h, List.mem_append, List.mem_singleton]

/-! ### What is stored under a key -/

theorem find?_eq_some_iff {t : Table key} {k : κ} {r : ℕ × ρ} :
    t.find? k = some r ↔ r ∈ t.rows ∧ key r.2 = k := by
  constructor
  · intro h
    exact ⟨List.mem_of_find?_eq_some h, by simpa using List.find?_some h⟩
  · rintro ⟨hr, rfl⟩
    cases h : t.find? (key r.2) with
    | none =>
      have hno := List.find?_eq_none.mp h r hr
      simp at hno
    | some r' =>
      have hkey : key r'.2 = key r.2 := by simpa using List.find?_some h
      rw [t.eq_of_key_eq (List.mem_of_find?_eq_some h) hr hkey]

theorem find?_eq_none_iff {t : Table key} {k : κ} :
    t.find? k = none ↔ ∀ r ∈ t.rows, key r.2 ≠ k := by
  simp [find?, List.find?_eq_none]

/-- The rows with a key are the one that is stored under it. -/
theorem filter_key (t : Table key) (k : κ) :
    t.rows.filter (fun r => key r.2 = k) = (t.find? k).toList := by
  obtain ⟨rows, nextId, hpos, hid, hlt, hnodup, hkey⟩ := t
  unfold find?
  simp only
  clear hid hlt hnodup
  induction rows with
  | nil => rfl
  | cons r rows ih =>
    obtain ⟨hr, hrows⟩ := List.nodup_cons.mp hkey
    by_cases hk : key r.2 = k
    · rw [List.filter_cons_of_pos (by simpa using hk), List.find?_cons_of_pos (by simpa using hk)]
      -- the other rows have other keys
      have hnil : rows.filter (fun r => key r.2 = k) = [] := by
        rw [List.filter_eq_nil_iff]
        intro r' hr' hk'
        exact hr (List.mem_map.mpr ⟨r', hr', (of_decide_eq_true hk').trans hk.symm⟩)
      rw [hnil]
      rfl
    · rw [List.filter_cons_of_neg (by simpa using hk), List.find?_cons_of_neg (by simpa using hk)]
      exact ih hrows

/-- Two tables store the same under a key when they hold the same rows with it. -/
theorem find?_congr {t t' : Table key} {k : κ}
    (h : ∀ r, key r.2 = k → (r ∈ t.rows ↔ r ∈ t'.rows)) : t.find? k = t'.find? k := by
  cases ht' : t'.find? k with
  | some r =>
    obtain ⟨hr, hk⟩ := find?_eq_some_iff.mp ht'
    exact find?_eq_some_iff.mpr ⟨(h r hk).mpr hr, hk⟩
  | none =>
    refine find?_eq_none_iff.mpr fun r hr hk => ?_
    exact find?_eq_none_iff.mp ht' r ((h r hk).mp hr) hk

/-- An insert succeeds exactly when nothing is stored under the key. -/
theorem insert_eq_none_iff {t : Table key} {r : ρ} :
    t.insert r = none ↔ t.find? (key r) ≠ none := by
  unfold insert
  rw [ne_eq, find?_eq_none_iff]
  split_ifs with h
  · exact iff_of_false (by simp) (not_not.mpr h)
  · exact iff_of_true rfl h

/-- A row with a new key can be inserted. -/
theorem exists_insert {t : Table key} {r : ρ} (h : t.find? (key r) = none) :
    ∃ t', t.insert r = some t' :=
  Option.ne_none_iff_exists'.mp fun hnone => insert_eq_none_iff.mp hnone h

/-- The key of a row that is inserted is new. -/
theorem find?_of_insert {t t' : Table key} {r : ρ} (h : t.insert r = some t') :
    t.find? (key r) = none := by
  by_contra hne
  rw [insert_eq_none_iff.mpr hne] at h
  cases h

/-- Nothing is stored in a table without rows. -/
theorem find?_of_rows_eq_nil {t : Table key} (h : t.rows = []) (k : κ) : t.find? k = none := by
  unfold find?
  rw [h]
  rfl

/-- What an insert stores. -/
theorem find?_insert {t t' : Table key} {r : ρ} (h : t.insert r = some t') (k : κ) :
    t'.find? k = if key r = k then some (t.nextId, r) else t.find? k := by
  unfold insert at h
  split_ifs at h with hnew
  obtain rfl := Option.some.inj h
  by_cases hk : key r = k
  · rw [if_pos hk]
    exact find?_eq_some_iff.mpr ⟨List.mem_append_right _ (List.mem_singleton.mpr rfl), hk⟩
  · rw [if_neg hk]
    refine find?_congr fun row hrow => ?_
    constructor
    · intro hmem
      rcases List.mem_append.mp hmem with hold | hold
      · exact hold
      · rw [List.mem_singleton.mp hold] at hrow
        exact absurd hrow hk
    · exact List.mem_append_left _

/-- What is stored stays. -/
theorem find?_insert_of_some {t t' : Table key} {r : ρ} (h : t.insert r = some t') {k : κ}
    {row : ℕ × ρ} (hrow : t.find? k = some row) : t'.find? k = some row := by
  have hne : key r ≠ k := by
    rintro rfl
    rw [find?_of_insert h] at hrow
    cases hrow
  rw [find?_insert h, if_neg hne, hrow]

/-- What an insert of several rows stores. -/
theorem find?_insertAll {t t' : Table key} {rs : List ρ} (h : t.insertAll rs = some t') (k : κ) :
    (∃ id, ∃ r ∈ rs, key r = k ∧ t.find? k = none ∧ t'.find? k = some (id, r)) ∨
      ((∀ r ∈ rs, key r ≠ k) ∧ t'.find? k = t.find? k) := by
  induction rs generalizing t with
  | nil =>
    obtain rfl := Option.some.inj h
    exact .inr ⟨by simp, rfl⟩
  | cons r rs ih =>
    obtain ⟨t₁, ht₁, hrest⟩ := Option.bind_eq_some_iff.mp h
    have hfind := find?_insert ht₁ k
    have hnone : t.find? (key r) = none := find?_of_insert ht₁
    by_cases hk : key r = k
    · rw [if_pos hk] at hfind
      -- a later row with the same key would have been refused
      rcases ih hrest with ⟨id, r', -, -, hno, -⟩ | ⟨-, hsame⟩
      · rw [hno] at hfind
        cases hfind
      · exact .inl ⟨t.nextId, r, by simp, hk, by rw [← hk, hnone], by rw [hsame, hfind]⟩
    · rw [if_neg hk] at hfind
      rcases ih hrest with ⟨id, r', hr', hk', hno, hsome⟩ | ⟨hno, hsame⟩
      · exact .inl ⟨id, r', by simp [hr'], hk', by rw [← hfind, hno], hsome⟩
      · refine .inr ⟨?_, by rw [hsame, hfind]⟩
        intro r' hr'
        rcases List.mem_cons.mp hr' with rfl | hr'
        · exact hk
        · exact hno r' hr'

/-- Rows with new keys, which all differ, can be inserted. -/
theorem exists_insertAll {t : Table key} {rs : List ρ} (hnodup : (rs.map key).Nodup)
    (hnew : ∀ r ∈ rs, t.find? (key r) = none) : ∃ t', t.insertAll rs = some t' := by
  induction rs generalizing t with
  | nil => exact ⟨t, rfl⟩
  | cons r rs ih =>
    obtain ⟨hr, hrs⟩ := List.nodup_cons.mp hnodup
    obtain ⟨t₁, ht₁⟩ := exists_insert (hnew r (List.mem_cons_self ..))
    have hrest : ∀ r' ∈ rs, t₁.find? (key r') = none := by
      intro r' hr'
      have hne : key r ≠ key r' := fun heq => hr (heq ▸ List.mem_map_of_mem hr')
      rw [find?_insert ht₁, if_neg hne]
      exact hnew r' (List.mem_cons_of_mem _ hr')
    obtain ⟨t₂, ht₂⟩ := ih hrs hrest
    exact ⟨t₂, by rw [insertAll, ht₁, Option.bind_some, ht₂]⟩

/-! ### Inserts that may fail -/

/-- An insert that leaves the table when it fails. -/
def add (t : Table key) (r : ρ) : Table key := (t.insert r).getD t

/-- Such inserts one after another. -/
def addAll (t : Table key) (rs : List ρ) : Table key := rs.foldl add t

theorem find?_add (t : Table key) (r : ρ) (k : κ) :
    (t.add r).find? k = if key r = k then some ((t.find? k).getD (t.nextId, r)) else t.find? k := by
  unfold add
  cases hinsert : t.insert r with
  | none =>
    obtain ⟨row, hrow⟩ := Option.ne_none_iff_exists'.mp (insert_eq_none_iff.mp hinsert)
    split_ifs with hk
    · rw [Option.getD_none, ← hk, hrow, Option.getD_some]
    · rfl
  | some t' =>
    rw [Option.getD_some, find?_insert hinsert]
    split_ifs with hk
    · rw [← hk, find?_of_insert hinsert, Option.getD_none]
    · rfl

/-- What is stored stays. -/
theorem find?_add_of_some {t : Table key} {k : κ} {row : ℕ × ρ} (h : t.find? k = some row) (r : ρ) :
    (t.add r).find? k = some row := by
  rw [find?_add, h, Option.getD_some, ite_self]

theorem find?_addAll_of_some {t : Table key} {k : κ} {row : ℕ × ρ} (h : t.find? k = some row)
    (rs : List ρ) : (t.addAll rs).find? k = some row := by
  induction rs generalizing t with
  | nil => exact h
  | cons r rs ih => exact ih (find?_add_of_some h r)

/-- Something is stored under the keys of the rows. -/
theorem isSome_find?_addAll {t : Table key} {rs : List ρ} {k : κ} :
    ((t.addAll rs).find? k).isSome ↔ (t.find? k).isSome ∨ ∃ r ∈ rs, key r = k := by
  induction rs generalizing t with
  | nil => simp [addAll]
  | cons r rs ih =>
    have hcons : t.addAll (r :: rs) = (t.add r).addAll rs := rfl
    rw [hcons, ih, find?_add]
    split_ifs with hk
    · simp [hk]
    · simp [hk]

/-- Under other keys nothing changes. -/
theorem find?_addAll_of_ne {t : Table key} {rs : List ρ} {k : κ} (h : ∀ r ∈ rs, key r ≠ k) :
    (t.addAll rs).find? k = t.find? k := by
  induction rs generalizing t with
  | nil => rfl
  | cons r rs ih =>
    have hcons : t.addAll (r :: rs) = (t.add r).addAll rs := rfl
    rw [hcons, ih fun r' hr' => h r' (List.mem_cons_of_mem r hr'), find?_add,
      if_neg (h r List.mem_cons_self)]

/-- **A row with a new key is stored**, when the keys of the rows differ. -/
theorem find?_addAll_of_mem {t : Table key} {rs : List ρ} (hnodup : (rs.map key).Nodup) {r : ρ}
    (hr : r ∈ rs) (hnew : t.find? (key r) = none) :
    ∃ id, (t.addAll rs).find? (key r) = some (id, r) := by
  induction rs generalizing t with
  | nil => cases hr
  | cons r' rs ih =>
    obtain ⟨hr', hrs⟩ := List.nodup_cons.mp hnodup
    have hcons : t.addAll (r' :: rs) = (t.add r').addAll rs := rfl
    rw [hcons]
    rcases List.mem_cons.mp hr with rfl | hr
    · refine ⟨t.nextId, find?_addAll_of_some ?_ rs⟩
      rw [find?_add, if_pos rfl, hnew, Option.getD_none]
    · have hne : key r' ≠ key r := fun heq => hr' (heq ▸ List.mem_map_of_mem hr)
      apply ih hrs hr
      rw [find?_add, if_neg hne]
      exact hnew

/-- What an update stores. -/
theorem find?_update (t : Table key) (p : ℕ × ρ → Bool) (f : ρ → ρ) (hf : ∀ r, key (f r) = key r)
    (k : κ) :
    (t.update p f hf).find? k = (t.find? k).map fun r => if p r then (r.1, f r.2) else r := by
  have hkey : ∀ r : ℕ × ρ, key (if p r then (r.1, f r.2) else r).2 = key r.2 := by
    intro r
    split_ifs
    · exact hf r.2
    · rfl
  cases h : t.find? k with
  | some r =>
    obtain ⟨hr, rfl⟩ := find?_eq_some_iff.mp h
    exact find?_eq_some_iff.mpr ⟨List.mem_map_of_mem hr, hkey r⟩
  | none =>
    refine find?_eq_none_iff.mpr fun row hrow hk => ?_
    obtain ⟨r, hr, rfl⟩ := List.mem_map.mp hrow
    rw [hkey] at hk
    exact find?_eq_none_iff.mp h r hr hk

/-- What a deletion leaves. -/
theorem find?_delete (t : Table key) (p : ℕ × ρ → Bool) (k : κ) :
    (t.delete p).find? k = (t.find? k).filter fun r => !p r := by
  cases h : t.find? k with
  | some r =>
    obtain ⟨hr, hk⟩ := find?_eq_some_iff.mp h
    cases hp : p r with
    | false =>
      rw [Option.filter_some_pos (by simp [hp])]
      exact find?_eq_some_iff.mpr ⟨List.mem_filter.mpr ⟨hr, by simp [hp]⟩, hk⟩
    | true =>
      rw [Option.filter_some_neg (by simp [hp])]
      refine find?_eq_none_iff.mpr fun row hrow hk' => ?_
      obtain ⟨hmem, hrow⟩ := List.mem_filter.mp hrow
      rw [t.eq_of_key_eq hmem hr (hk'.trans hk.symm), hp] at hrow
      cases hrow
  | none =>
    refine find?_eq_none_iff.mpr fun row hrow => ?_
    exact find?_eq_none_iff.mp h row (List.mem_filter.mp hrow).1

end Table

end Sql

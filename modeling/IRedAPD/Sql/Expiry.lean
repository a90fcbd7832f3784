/-
  A table and the same table less rows that have expired.

  `Less` relates a table with one that has lost some of its expired rows.  It
  looks at what is stored under the keys of interest, so the ids and the order
  of the rows may differ, and rows may differ in columns that `same` passes
  over.  A statement that treats an expired row as absent keeps the relation:
  there is a lemma for each statement, and `renew` for an expired row that is
  reset on one side and inserted anew on the other.
-/
import IRedAPD.Sql.Table

namespace Sql

namespace Table

variable {ρ κ : Type*} {key : ρ → κ}

/-- What is stored under a key, before and after expired rows are lost. -/
inductive LessAt (expired : ρ → Prop) (same : ρ → ρ → Prop) :
    Option (ℕ × ρ) → Option (ℕ × ρ) → Prop
  | same {row row' : ℕ × ρ} (h : same row.2 row'.2) : LessAt expired same (some row) (some row')
  | gone {row : ℕ × ρ} (h : expired row.2) : LessAt expired same (some row) none
  | absent : LessAt expired same none none

variable {keys : κ → Prop} {expired expired' : ρ → Prop} {same : ρ → ρ → Prop}
  {o o' : Option (ℕ × ρ)}

/-- Both rows are changed. -/
theorem LessAt.map (h : LessAt expired same o o') {f f' : ℕ × ρ → ℕ × ρ}
    (hsame : ∀ row row', o = some row → o' = some row' → same row.2 row'.2 →
      same (f row).2 (f' row').2)
    (hgone : ∀ row, o = some row → o' = none → expired row.2 → expired (f row).2) :
    LessAt expired same (o.map f) (o'.map f') := by
  cases h with
  | same h => exact .same (hsame _ _ rfl rfl h)
  | gone h => exact .gone (hgone _ rfl rfl h)
  | absent => exact .absent

/-- Both rows are kept, or lost if they are to be deleted. -/
theorem LessAt.filter (h : LessAt expired same o o') {p p' : ℕ × ρ → Bool}
    (hp : ∀ row row', o = some row → o' = some row' → same row.2 row'.2 → p row = p' row') :
    LessAt expired same (o.filter p) (o'.filter p') := by
  cases h with
  | absent => exact .absent
  | @gone row h =>
    cases hkeep : p row with
    | true =>
      rw [Option.filter_some_pos hkeep]
      exact .gone h
    | false =>
      rw [Option.filter_some_neg (by simp [hkeep])]
      exact .absent
  | @same row row' h =>
    have hpp := hp row row' rfl rfl h
    cases hkeep : p row with
    | true =>
      rw [Option.filter_some_pos hkeep, Option.filter_some_pos (hpp ▸ hkeep)]
      exact .same h
    | false =>
      rw [Option.filter_some_neg (by simp [hkeep]), Option.filter_some_neg (by simp [← hpp, hkeep])]
      exact .absent

/-- The second row is lost if it is to be deleted. -/
theorem LessAt.filter_right (h : LessAt expired same o o') {p : ℕ × ρ → Bool}
    (hp : ∀ row row', o = some row → o' = some row' → same row.2 row'.2 → p row' = false →
      expired row.2) :
    LessAt expired same o (o'.filter p) := by
  cases h with
  | absent => exact .absent
  | gone h => exact .gone h
  | @same row row' h =>
    cases hkeep : p row' with
    | true =>
      rw [Option.filter_some_pos hkeep]
      exact .same h
    | false =>
      rw [Option.filter_some_neg (by simp [hkeep])]
      exact .gone (hp row row' rfl rfl h hkeep)

variable [DecidableEq κ]

/-- The second table is the first less some expired rows, as far as these keys go. -/
def Less (keys : κ → Prop) (expired : ρ → Prop) (same : ρ → ρ → Prop) (t t' : Table key) : Prop :=
  ∀ k, keys k → LessAt expired same (t.find? k) (t'.find? k)

theorem Less.refl (hsame : ∀ r, same r r) (t : Table key) : Less keys expired same t t := by
  intro k _
  cases t.find? k with
  | none => exact .absent
  | some row => exact .same (hsame row.2)

/-- Rows stay expired. -/
theorem Less.mono {t t' : Table key} (h : Less keys expired same t t')
    (hexpired : ∀ r, expired r → expired' r) : Less keys expired' same t t' := by
  intro k hk
  have hat := h k hk
  generalize t.find? k = o at hat ⊢
  generalize t'.find? k = o' at hat ⊢
  cases hat with
  | same hsame => exact .same hsame
  | gone hgone => exact .gone (hexpired _ hgone)
  | absent => exact .absent

/-! ### Statements -/

/-- Expired rows are deleted from the second table. -/
theorem Less.delete_right {t t' : Table key} (h : Less keys expired same t t')
    {p : ℕ × ρ → Bool}
    (hp : ∀ r row', same r row'.2 → p row' = true → expired r) :
    Less keys expired same t (t'.delete p) := by
  intro k hk
  rw [find?_delete]
  refine (h k hk).filter_right fun row row' _ _ hsame hdelete => hp row.2 row' hsame ?_
  simpa using hdelete

/-- The row an update leaves. -/
def updated (p : ℕ × ρ → Bool) (f : ρ → ρ) (row : ℕ × ρ) : ℕ × ρ :=
  if p row then (row.1, f row.2) else row

/-- Both tables are updated. -/
theorem Less.update {t t' : Table key} (h : Less keys expired same t t')
    {p p' : ℕ × ρ → Bool} {f f' : ρ → ρ} {hf : ∀ r, key (f r) = key r}
    {hf' : ∀ r, key (f' r) = key r}
    (hsame : ∀ row ∈ t.rows, ∀ row' ∈ t'.rows, key row.2 = key row'.2 → keys (key row.2) →
      same row.2 row'.2 → same (updated p f row).2 (updated p' f' row').2)
    (hgone : ∀ row ∈ t.rows, t'.find? (key row.2) = none → expired row.2 →
      expired (updated p f row).2) :
    Less keys expired same (t.update p f hf) (t'.update p' f' hf') := by
  intro k hk
  rw [find?_update, find?_update]
  refine (h k hk).map ?_ ?_
  · intro row row' hrow hrow' hsame'
    obtain ⟨hmem, hkey⟩ := find?_eq_some_iff.mp hrow
    obtain ⟨hmem', hkey'⟩ := find?_eq_some_iff.mp hrow'
    exact hsame row hmem row' hmem' (hkey.trans hkey'.symm) (hkey ▸ hk) hsame'
  · intro row hrow hnone
    obtain ⟨hmem, hkey⟩ := find?_eq_some_iff.mp hrow
    exact hgone row hmem (by rw [hkey, hnone])

/-- Rows are deleted from both tables. -/
theorem Less.delete {t t' : Table key} (h : Less keys expired same t t') {p p' : ℕ × ρ → Bool}
    (hp : ∀ row ∈ t.rows, ∀ row' ∈ t'.rows, key row.2 = key row'.2 → same row.2 row'.2 →
      p row = p' row') :
    Less keys expired same (t.delete p) (t'.delete p') := by
  intro k hk
  rw [find?_delete, find?_delete]
  refine (h k hk).filter fun row row' hrow hrow' hsame => ?_
  obtain ⟨hmem, hkey⟩ := find?_eq_some_iff.mp hrow
  obtain ⟨hmem', hkey'⟩ := find?_eq_some_iff.mp hrow'
  rw [hp row hmem row' hmem' (hkey.trans hkey'.symm) hsame]

/-- A row is inserted into both tables. -/
theorem Less.insert {t t' t₁ t₁' : Table key} (h : Less keys expired same t t') {r r' : ρ}
    (hkey : key r = key r') (hsame : same r r') (ht₁ : t.insert r = some t₁)
    (ht₁' : t'.insert r' = some t₁') : Less keys expired same t₁ t₁' := by
  intro k hk
  rw [find?_insert ht₁, find?_insert ht₁', ← hkey]
  split_ifs
  · exact .same hsame
  · exact h k hk

/-- **An expired row is reset in one table, and inserted anew in the other that has lost it.** -/
theorem Less.renew {t t' t₁' : Table key} (h : Less keys expired same t t') {row : ℕ × ρ} {r' : ρ}
    {p : ℕ × ρ → Bool} {f : ρ → ρ} {hf : ∀ r, key (f r) = key r}
    (hrow : t.find? (key r') = some row) (hp : ∀ row, p row = true ↔ key row.2 = key r')
    (hsame : same (f row.2) r') (ht₁' : t'.insert r' = some t₁') :
    Less keys expired same (t.update p f hf) t₁' := by
  intro k hk
  rw [find?_update, find?_insert ht₁']
  by_cases hkey : key r' = k
  · rw [if_pos hkey, ← hkey, hrow, Option.map_some,
      if_pos ((hp row).mpr (find?_eq_some_iff.mp hrow).2)]
    exact .same hsame
  · rw [if_neg hkey]
    have hother : (t.find? k).map (fun r => if p r then (r.1, f r.2) else r) = t.find? k := by
      cases ht : t.find? k with
      | none => rfl
      | some row =>
        have hne : ¬ p row = true := fun hpr =>
          hkey (((hp row).mp hpr).symm.trans (find?_eq_some_iff.mp ht).2)
        rw [Option.map_some, if_neg hne]
    rw [hother]
    exact h k hk

end Table

end Sql

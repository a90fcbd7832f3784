/-
  The ids of a page of rows, remembered while others write to the table.

  `Marked` says that every row whose id is on the page still satisfies the
  condition the page has been selected by.  New rows get new ids, so only an
  update of a row on the page can break it.
-/
import IRedAPD.Sql.Table

namespace Sql

namespace Table

variable {ρ κ : Type*} {key : ρ → κ}

/-- The ids are old, and the rows that have them satisfy the condition. -/
structure Marked (ids : List ℕ) (p : ℕ × ρ → Prop) (t : Table key) : Prop where
  id_lt : ∀ id ∈ ids, id < t.nextId
  holds : ∀ row ∈ t.rows, row.1 ∈ ids → p row

variable {ids : List ℕ} {p : ℕ × ρ → Prop} {t t' : Table key}

/-- A page marks its rows. -/
theorem marked_page (t : Table key) (q : ℕ × ρ → Bool) (limit : ℕ) :
    t.Marked (((t.select q).take limit).map Prod.fst) fun row => q row = true where
  id_lt := by
    intro id hid
    obtain ⟨row, hrow, rfl⟩ := List.mem_map.mp hid
    exact t.id_lt row (List.mem_filter.mp (List.mem_of_mem_take hrow)).1
  holds := by
    intro row hrow hid
    obtain ⟨row', hrow', heq⟩ := List.mem_map.mp hid
    obtain ⟨hmem, hq⟩ := List.mem_filter.mp (List.mem_of_mem_take hrow')
    rw [t.eq_of_id_eq hrow hmem heq.symm]
    exact hq

theorem Marked.delete (h : t.Marked ids p) (q : ℕ × ρ → Bool) : (t.delete q).Marked ids p where
  id_lt := h.id_lt
  holds := fun row hrow => h.holds row (mem_rows_delete.mp hrow).1

theorem Marked.update (h : t.Marked ids p) (q : ℕ × ρ → Bool) {f : ρ → ρ}
    (hf : ∀ r, key (f r) = key r)
    (hkeeps : ∀ row ∈ t.rows, row.1 ∈ ids → q row = true → p row → p (row.1, f row.2)) :
    (t.update q f hf).Marked ids p where
  id_lt := h.id_lt
  holds := by
    intro row hrow hid
    rcases (mem_rows_update hf).mp hrow with ⟨hold, -⟩ | ⟨r, hr, hq, rfl⟩
    · exact h.holds row hold hid
    · exact hkeeps r hr hid hq (h.holds r hr hid)

variable [DecidableEq κ]

theorem Marked.insert (h : t.Marked ids p) {r : ρ} (ht : t.insert r = some t') :
    t'.Marked ids p := by
  unfold Table.insert at ht
  split_ifs at ht
  obtain rfl := Option.some.inj ht
  constructor
  · exact fun id hid => Nat.lt_succ_of_lt (h.id_lt id hid)
  · intro row hrow hid
    rcases List.mem_append.mp hrow with hold | hnew
    · exact h.holds row hold hid
    · -- the new id is on no page
      rw [List.mem_singleton.mp hnew] at hid
      exact absurd (h.id_lt _ hid) (Nat.lt_irrefl _)

theorem Marked.insertAll (h : t.Marked ids p) {rs : List ρ} (ht : t.insertAll rs = some t') :
    t'.Marked ids p := by
  induction rs generalizing t with
  | nil =>
    rw [← Option.some.inj ht]
    exact h
  | cons r rs ih =>
    obtain ⟨t₁, ht₁, hrest⟩ := Option.bind_eq_some_iff.mp ht
    exact ih (h.insert ht₁) hrest

end Table

end Sql

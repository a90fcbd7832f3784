/-
  A run of `cleanup_sql_table` deletes all rows it is asked to, whatever the
  size of its pages.
-/
import IRedAPD.Tools.CleanupDb

namespace IRedAPD.CleanupDb

variable {ρ κ : Type*} {key : ρ → κ}

/-- The ids of a page are those of its rows only. -/
theorem mem_page_iff {t : Sql.Table key} {p : ℕ × ρ → Bool} {limit : ℕ} {row : ℕ × ρ}
    (hrow : row ∈ t.rows) :
    row.1 ∈ ((t.select p).take limit).map Prod.fst ↔ row ∈ (t.select p).take limit := by
  constructor
  · intro h
    obtain ⟨r, hr, hid⟩ := List.mem_map.mp h
    have hmem : r ∈ t.rows := (List.mem_filter.mp (List.mem_of_mem_take hr)).1
    rw [← t.eq_of_id_eq hmem hrow hid]
    exact hr
  · exact fun h => List.mem_map_of_mem h

/-- Deleting rows that are to be deleted anyway changes nothing. -/
theorem delete_delete {t : Sql.Table key} {p q : ℕ × ρ → Bool}
    (h : ∀ row ∈ t.rows, q row = true → p row = true) : (t.delete q).delete p = t.delete p := by
  ext1
  · show (t.rows.filter _).filter _ = t.rows.filter _
    rw [List.filter_filter]
    refine List.filter_congr fun row hrow => ?_
    cases hq : q row with
    | false => simp
    | true => simp [h row hrow hq]
  · rfl

/-- A page that is not empty leaves fewer rows to delete. -/
theorem length_select_delete_page {t : Sql.Table key} {p : ℕ × ρ → Bool} {limit : ℕ}
    (hpage : ((t.select p).take limit).map Prod.fst ≠ []) :
    ((t.delete fun row => (((t.select p).take limit).map Prod.fst).contains row.1).select p).length <
      (t.select p).length := by
  set page := (t.select p).take limit
  show ((t.rows.filter _).filter p).length < (t.rows.filter p).length
  obtain ⟨row, hmem⟩ := List.exists_mem_of_ne_nil page fun hnil => hpage (by rw [hnil]; rfl)
  rw [List.filter_filter, List.filter_congr (q := fun row => !(page.map Prod.fst).contains row.1 && p row)
    (fun row _ => Bool.and_comm _ _), ← List.filter_filter, List.length_filter_lt_length_iff_exists]
  refine ⟨row, List.mem_of_mem_take hmem, ?_⟩
  have hid : (page.map Prod.fst).contains row.1 = true :=
    List.contains_iff_mem.mpr (List.mem_map_of_mem hmem)
  rw [hid]
  simp

/-- **The loop deletes what it is asked to**, when it may take enough pages. -/
theorem cleanupLoop_eq {limit : ℕ} (hlimit : limit ≠ 0) (p : ℕ × ρ → Bool) (n : ℕ)
    (t : Sql.Table key) (hn : (t.select p).length ≤ n) : cleanupLoop limit p n t = t.delete p := by
  have hdone : ∀ t : Sql.Table key, t.select p = [] → t = t.delete p := by
    intro t hnil
    ext1
    · refine (List.filter_eq_self.mpr fun row hrow => ?_).symm
      have hp := List.filter_eq_nil_iff.mp hnil row hrow
      simpa using hp
    · rfl
  induction n generalizing t with
  | zero => exact hdone t (List.length_eq_zero_iff.mp (Nat.le_zero.mp hn))
  | succ n ih =>
    unfold cleanupLoop
    simp only
    by_cases hempty : (((t.select p).take limit).map Prod.fst).isEmpty = true
    · rw [if_pos hempty]
      have hnil : (t.select p).take limit = [] := List.map_eq_nil_iff.mp (List.isEmpty_iff.mp hempty)
      rcases List.take_eq_nil_iff.mp hnil with h | h
      · exact absurd h hlimit
      · exact hdone t h
    · rw [if_neg hempty]
      have hsub : ∀ row ∈ t.rows,
          (((t.select p).take limit).map Prod.fst).contains row.1 = true → p row = true := by
        intro row hrow hmem
        have hrow' := (mem_page_iff hrow).mp (List.contains_iff_mem.mp hmem)
        exact (List.mem_filter.mp (List.mem_of_mem_take hrow')).2
      have hlt := length_select_delete_page fun hnil => hempty (List.isEmpty_iff.mpr hnil)
      rw [ih _ (by omega), delete_delete hsub]

/-- **A run of `cleanup_sql_table`.** -/
theorem cleanupSqlTable_eq {settings : Settings} (hlimit : settings.cleanupQuerySizeLimit ≠ 0)
    (p : ℕ × ρ → Bool) (t : Sql.Table key) : cleanupSqlTable settings p t = t.delete p :=
  cleanupLoop_eq hlimit p _ t (List.length_filter_le _ _)

/-- A run deletes all rows it is asked to, or none when its pages are empty. -/
theorem cleanupSqlTable_cases (settings : Settings) (p : ℕ × ρ → Bool) (t : Sql.Table key) :
    cleanupSqlTable settings p t = t ∨ cleanupSqlTable settings p t = t.delete p := by
  by_cases hlimit : settings.cleanupQuerySizeLimit = 0
  · left
    unfold cleanupSqlTable
    rw [hlimit]
    cases t.rows.length with
    | zero => rfl
    | succ n =>
      unfold cleanupLoop
      rw [List.take_zero]
      rfl
  · exact .inr (cleanupSqlTable_eq hlimit p t)

/-- A run leaves no row that was not there. -/
theorem mem_of_mem_cleanupSqlTable {settings : Settings} {p : ℕ × ρ → Bool} {t : Sql.Table key}
    {row : ℕ × ρ} (h : row ∈ (cleanupSqlTable settings p t).rows) : row ∈ t.rows := by
  rcases cleanupSqlTable_cases settings p t with heq | heq
  · rw [heq] at h
    exact h
  · rw [heq] at h
    exact (Sql.Table.mem_rows_delete.mp h).1

/-- A run leaves the rows it is not asked to delete. -/
theorem mem_cleanupSqlTable_of_not {settings : Settings} {p : ℕ × ρ → Bool} {t : Sql.Table key}
    {row : ℕ × ρ} (hrow : row ∈ t.rows) (hp : p row = false) :
    row ∈ (cleanupSqlTable settings p t).rows := by
  rcases cleanupSqlTable_cases settings p t with heq | heq
  · rw [heq]
    exact hrow
  · rw [heq]
    exact Sql.Table.mem_rows_delete.mpr ⟨hrow, hp⟩

end IRedAPD.CleanupDb

/-
  Columns with a range.

  A statement that would store a value outside the range of a column fails in
  strict mode; otherwise the nearest value of the range is stored.  Within the
  range both modes store the value itself.
-/
import IRedAPD.Sql.Table
import Mathlib.Algebra.Group.Int.Defs

namespace Sql

/-- What becomes of a value outside the range. -/
inductive Mode where
  | strict
  | lenient
  deriving DecidableEq

/-- A column of numbers. -/
structure IntColumn where
  min : ℤ
  max : ℤ

/-- An unsigned column of some bits. -/
def IntColumn.unsigned (bits : ℕ) : IntColumn := ⟨0, 2 ^ bits - 1⟩

/-- The column holds the value. -/
def IntColumn.Holds (c : IntColumn) (v : ℤ) : Prop := c.min ≤ v ∧ v ≤ c.max

instance (c : IntColumn) (v : ℤ) : Decidable (c.Holds v) := inferInstanceAs (Decidable (_ ∧ _))

/-- What is stored for a value: `none` when the statement fails. -/
def IntColumn.store (c : IntColumn) (mode : Mode) (v : ℤ) : Option ℤ :=
  if c.Holds v then some v
  else
    match mode with
    | .strict => none
    | .lenient => some (if v < c.min then c.min else c.max)

/-- The same of a natural number in an unsigned column. -/
def IntColumn.storeNat (c : IntColumn) (mode : Mode) (n : ℕ) : Option ℕ :=
  (c.store mode n).map Int.toNat

theorem IntColumn.store_eq {c : IntColumn} {v : ℤ} (h : c.Holds v) (mode : Mode) :
    c.store mode v = some v := if_pos h

theorem IntColumn.storeNat_eq {c : IntColumn} {n : ℕ} (h : c.Holds n) (mode : Mode) :
    c.storeNat mode n = some n := by
  unfold IntColumn.storeNat
  rw [store_eq h, Option.map_some, Int.toNat_natCast]

/-- A column of texts of at most `size` characters. -/
def storeText {α : Type*} (size : ℕ) (mode : Mode) (s : List α) : Option (List α) :=
  if s.length ≤ size then some s
  else
    match mode with
    | .strict => none
    | .lenient => some (s.take size)

theorem storeText_eq {α : Type*} {size : ℕ} {s : List α} (h : s.length ≤ size) (mode : Mode) :
    storeText size mode s = some s := if_pos h

namespace Table

variable {ρ κ : Type*} {key : ρ → κ}

/-- `UPDATE ... SET f WHERE p`, which fails when a value of some row cannot be stored. -/
def tryUpdate (t : Table key) (p : ℕ × ρ → Bool) (f : ρ → Option ρ)
    (hf : ∀ r r', f r = some r' → key r' = key r) : Option (Table key) :=
  if t.rows.all fun row => !p row || (f row.2).isSome then
    some (t.update p (fun r => (f r).getD r) fun r => by
      cases h : f r with
      | none => rfl
      | some r' => exact hf r r' h)
  else none

/-- An update whose values can be stored. -/
theorem tryUpdate_eq {t : Table key} {p : ℕ × ρ → Bool} {f : ρ → Option ρ}
    {hf : ∀ r r', f r = some r' → key r' = key r} {g : ρ → ρ} (hg : ∀ r, key (g r) = key r)
    (h : ∀ row ∈ t.rows, p row = true → f row.2 = some (g row.2)) :
    t.tryUpdate p f hf = some (t.update p g hg) := by
  have hall : (t.rows.all fun row => !p row || (f row.2).isSome) = true := by
    rw [List.all_eq_true]
    intro row hrow
    cases hp : p row with
    | false => rfl
    | true => rw [h row hrow hp]; rfl
  unfold tryUpdate
  rw [if_pos hall, Option.some.injEq]
  have hrows : (t.rows.map fun r => if p r then (r.1, (f r.2).getD r.2) else r) =
      t.rows.map fun r => if p r then (r.1, g r.2) else r := by
    refine List.map_congr_left fun row hrow => ?_
    cases hp : p row with
    | false => rfl
    | true => rw [h row hrow hp]; rfl
  apply Table.ext
  · exact hrows
  · rfl

end Table

end Sql

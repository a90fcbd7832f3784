/-
  Statements whose texts are put between single quotes without escaping them.

  Such a statement is read as it is meant when its texts are plain: no character
  ends the literal or escapes another one, the driver finds no `%` and the SQL
  toolkit no parameter `:name` in it.  What a database makes of other statements
  is left open: an `Engine` is any database that does what the statements with
  plain texts say.
-/
import IRedAPD.Py.Str
import IRedAPD.Sql.Literal

namespace Sql

open Py

/-! ### Plain texts -/

section Plain

variable [Unicode]

/-- `\w` -/
def isNameChar (c : Char) : Bool := Unicode.isAlnum c || c == '_'

/-- A parameter `(?<![:\w\\]):(\w+)(?!:)` in a text that follows a character. -/
def bindsAfter : Char → List Char → Bool
  | _, [] => false
  | a, c :: s =>
    (c == ':' && !(a == ':' || isNameChar a || a == '\\') && s.head?.any isNameChar &&
        s.tail.head? != some ':') ||
      bindsAfter c s

theorem bindsAfter_cons_ne {c : Char} (hc : c ≠ ':') (a : Char) (s : List Char) :
    bindsAfter a (c :: s) = bindsAfter c s := by
  rw [bindsAfter, beq_false_of_ne hc]
  rfl

/-- A text without a colon holds no parameter. -/
theorem bindsAfter_append {w : List Char} (hw : ':' ∉ w) (a : Char) (s : List Char) :
    bindsAfter a (w ++ s) = bindsAfter (w.getLastD a) s := by
  induction w generalizing a with
  | nil => rfl
  | cons c w ih =>
    rw [List.mem_cons, not_or] at hw
    rw [List.cons_append, bindsAfter_cons_ne (Ne.symm hw.1), ih hw.2, List.getLastD_cons]

/-- No parameter starts after a letter. -/
theorem bindsAfter_of_name {a : Char} (ha : isNameChar a = true) (s : List Char) :
    bindsAfter a (':' :: s) = bindsAfter ':' s := by
  rw [bindsAfter, ha]
  simp

/-- Other characters before a text make no difference. -/
theorem bindsAfter_congr {a b : Char} (ha : isNameChar a = false) (ha' : a ≠ ':') (ha'' : a ≠ '\\')
    (hb : isNameChar b = false) (hb' : b ≠ ':') (hb'' : b ≠ '\\') (s : List Char) :
    bindsAfter a s = bindsAfter b s := by
  cases s with
  | nil => rfl
  | cons c s =>
    rw [bindsAfter, bindsAfter, ha, hb, beq_false_of_ne ha', beq_false_of_ne ha'', beq_false_of_ne hb',
      beq_false_of_ne hb'']

/-- A text that stands for itself between single quotes. -/
def isPlain (s : List Char) : Bool :=
  !s.contains '\'' && !s.contains '\\' && !s.contains '%' && !bindsAfter '\'' s

end Plain

/-! ### Engines -/

/-- Statements `ι` on tables `σ`: the texts between the quotes, and what the statement does when
they are read as they stand, `none` when it would violate a unique index. -/
structure Statements (ι σ : Type*) where
  texts : ι → List (List Char)
  effect : ι → σ → Option σ

/-- The statement holds plain texts only. -/
def Statements.IsPlain [Unicode] {ι σ : Type*} (S : Statements ι σ) (i : ι) : Prop :=
  ∀ t ∈ S.texts i, isPlain t = true

/-- A database that executes the statements, `error` with the text of an exception; `dup` are the
texts that tell of a duplicate key. -/
structure Engine [Unicode] {ι σ : Type*} (S : Statements ι σ) (dup : List Char → Bool) where
  exec : ι → σ → Except (List Char) σ
  exec_of_plain : ∀ {i}, S.IsPlain i → ∀ {s s'}, S.effect i s = some s' → exec i s = .ok s'
  exec_of_duplicate : ∀ {i}, S.IsPlain i → ∀ {s}, S.effect i s = none →
    ∃ e, exec i s = .error e ∧ dup e = true

instance [Unicode] {ι σ : Type*} (S : Statements ι σ) (i : ι) : Decidable (S.IsPlain i) :=
  inferInstanceAs (Decidable (∀ t ∈ S.texts i, isPlain t = true))

/-- The database that treats every other statement in one way. -/
def Engine.withOther [Unicode] {ι σ : Type*} (S : Statements ι σ) {dup : List Char → Bool}
    (other : σ → Except (List Char) σ) (duplicate : List Char) (hdup : dup duplicate = true) :
    Engine S dup where
  exec i s :=
    if S.IsPlain i then
      match S.effect i s with
      | some s' => .ok s'
      | none => .error duplicate
    else other s
  exec_of_plain := by
    intro i hi s s' hs
    rw [if_pos hi, hs]
  exec_of_duplicate := by
    intro i hi s hs
    rw [if_pos hi, hs]
    exact ⟨duplicate, rfl, hdup⟩

end Sql

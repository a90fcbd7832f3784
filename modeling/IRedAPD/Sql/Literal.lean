/-
  String literals of two SQL dialects, as their lexers read them.

  PostgreSQL with `standard_conforming_strings` on: a literal stands between
  single quotes, a doubled quote is a quote, and a backslash is a character like
  any other; double quotes delimit identifiers.

  MySQL in its default `sql_mode`: a literal stands between single or double
  quotes, a doubled quote of its own kind is a quote, and a backslash escapes
  the character after it.
-/
import Mathlib.Data.List.Basic
import Mathlib.Tactic.Common

namespace Sql

/-! ### PostgreSQL -/

/-- What follows the opening quote: the value and what is left after the closing quote. -/
def pgBody : List Char → Option (List Char × List Char)
  | [] => none
  | c :: s =>
    if c = '\'' then
      match s with
      | [] => some ([], [])
      | d :: s =>
        if d = '\'' then (pgBody s).map fun r => ('\'' :: r.1, r.2) else some ([], d :: s)
    else (pgBody s).map fun r => (c :: r.1, r.2)

/-- A string literal at the beginning of a text. -/
def pgLiteral : List Char → Option (List Char × List Char)
  | '\'' :: s => pgBody s
  | _ => none

/-! ### MySQL -/

/-- The characters an escape sequence stands for. -/
def mysqlEscape : Char → List Char
  | '0' => [Char.ofNat 0]
  | 'b' => [Char.ofNat 8]
  | 'n' => ['\n']
  | 'r' => ['\r']
  | 't' => ['\t']
  | 'Z' => [Char.ofNat 26]
  | '%' => ['\\', '%']
  | '_' => ['\\', '_']
  | c => [c]

/-- What follows the opening quote `q`. -/
def mysqlBody (q : Char) : List Char → Option (List Char × List Char)
  | [] => none
  | c :: s =>
    if c = '\\' then
      match s with
      | [] => none
      | d :: s => (mysqlBody q s).map fun r => (mysqlEscape d ++ r.1, r.2)
    else if c = q then
      match s with
      | [] => some ([], [])
      | d :: s => if d = q then (mysqlBody q s).map fun r => (q :: r.1, r.2) else some ([], d :: s)
    else (mysqlBody q s).map fun r => (c :: r.1, r.2)

/-- A string literal at the beginning of a text. -/
def mysqlLiteral : List Char → Option (List Char × List Char)
  | '\'' :: s => mysqlBody '\'' s
  | '"' :: s => mysqlBody '"' s
  | _ => none

/-! ### Reading plain text -/

theorem pgBody_cons {c : Char} (hc : c ≠ '\'') (s : List Char) :
    pgBody (c :: s) = (pgBody s).map fun r => (c :: r.1, r.2) := by
  rw [pgBody.eq_def]
  simp only [hc, if_false]

theorem pgBody_append {p : List Char} (hp : '\'' ∉ p) (s : List Char) :
    pgBody (p ++ s) = (pgBody s).map fun r => (p ++ r.1, r.2) := by
  induction p with
  | nil => simp
  | cons c p ih =>
    obtain ⟨hc, hp'⟩ : '\'' ≠ c ∧ '\'' ∉ p := by simpa using hp
    rw [List.cons_append, pgBody_cons (Ne.symm hc), ih hp', Option.map_map]
    rfl

/-- A closing quote that no quote follows. -/
theorem pgBody_close {post : List Char} (hpost : post.head? ≠ some '\'') :
    pgBody ('\'' :: post) = some ([], post) := by
  cases post with
  | nil => rfl
  | cons d s =>
    have hd : d ≠ '\'' := by simpa using hpost
    rw [pgBody.eq_def]
    simp only [if_true, hd, if_false]

theorem mysqlBody_cons {q c : Char} (hc : c ≠ '\\') (hq : c ≠ q) (s : List Char) :
    mysqlBody q (c :: s) = (mysqlBody q s).map fun r => (c :: r.1, r.2) := by
  rw [mysqlBody.eq_def]
  simp only [hc, hq, if_false]

theorem mysqlBody_append {q : Char} {p : List Char} (hp : ∀ c ∈ p, c ≠ '\\' ∧ c ≠ q)
    (s : List Char) : mysqlBody q (p ++ s) = (mysqlBody q s).map fun r => (p ++ r.1, r.2) := by
  induction p with
  | nil => simp
  | cons c p ih =>
    obtain ⟨hc, hq⟩ := hp c (by simp)
    rw [List.cons_append, mysqlBody_cons hc hq, ih fun d hd => hp d (by simp [hd]), Option.map_map]
    rfl

theorem mysqlBody_escape (q d : Char) (s : List Char) :
    mysqlBody q ('\\' :: d :: s) = (mysqlBody q s).map fun r => (mysqlEscape d ++ r.1, r.2) := by
  rw [mysqlBody.eq_def]
  simp only [if_true]

/-- A closing quote that no quote of its kind follows. -/
theorem mysqlBody_close {q : Char} (hq : q ≠ '\\') {post : List Char}
    (hpost : post.head? ≠ some q) : mysqlBody q (q :: post) = some ([], post) := by
  rw [mysqlBody.eq_def]
  simp only [hq, if_false, if_true]
  cases post with
  | nil => rfl
  | cons d s =>
    have hd : d ≠ q := by simpa using hpost
    simp only [hd, if_false]

end Sql

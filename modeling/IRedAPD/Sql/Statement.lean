/-
  The string literals of a whole statement, in the order a lexer reads them.

  A `Quoting` is what a lexer does at a quote.  A statement put together from
  fixed text and from texts between single quotes has these texts as its
  literals (`Quoting.Reads.part`, `Quoting.Reads.last`), as far as they hold
  neither single quotes nor backslashes.  Identifiers in quotes and comments are
  left out: the fixed text of a statement here holds none.
-/
import IRedAPD.Sql.Literal

namespace Sql

/-- A text without single quotes and backslashes. -/
def Quotable (x : List Char) : Prop := ∀ c ∈ x, c ≠ '\'' ∧ c ≠ '\\'

instance (x : List Char) : Decidable (Quotable x) := inferInstanceAs (Decidable (∀ c ∈ x, _))

theorem Quotable.append {x y : List Char} (hx : Quotable x) (hy : Quotable y) : Quotable (x ++ y) := by
  intro c hc
  rcases List.mem_append.mp hc with hc | hc
  · exact hx c hc
  · exact hy c hc

/-- Text outside of literals. -/
def Unquoted (p : List Char) : Prop := ∀ c ∈ p, c ≠ '\'' ∧ c ≠ '"'

instance (p : List Char) : Decidable (Unquoted p) := inferInstanceAs (Decidable (∀ c ∈ p, _))

theorem Unquoted.append {p q : List Char} (hp : Unquoted p) (hq : Unquoted q) : Unquoted (p ++ q) := by
  intro c hc
  rcases List.mem_append.mp hc with hc | hc
  · exact hp c hc
  · exact hq c hc

/-! ### Lexers -/

/-- How the literals of a dialect begin, and how one is read. -/
structure Quoting where
  opens : Char → Bool
  read : List Char → Option (List Char × List Char)
  opens_single : opens '\'' = true
  opens_only : ∀ {c}, opens c = true → c = '\'' ∨ c = '"'
  read_quotable : ∀ {x post}, Quotable x → post.head? ≠ some '\'' →
    read ('\'' :: (x ++ '\'' :: post)) = some (x, post)

/-- PostgreSQL -/
def pgQuoting : Quoting where
  opens c := c == '\''
  read := pgLiteral
  opens_single := rfl
  opens_only h := .inl (beq_iff_eq.mp h)
  read_quotable := by
    intro x post hx hpost
    have hmem : '\'' ∉ x := fun hmem => (hx _ hmem).1 rfl
    rw [pgLiteral, pgBody_append hmem, pgBody_close hpost, Option.map_some, List.append_nil]

/-- MySQL -/
def mysqlQuoting : Quoting where
  opens c := c == '\'' || c == '"'
  read := mysqlLiteral
  opens_single := rfl
  opens_only h := by simpa using h
  read_quotable := by
    intro x post hx hpost
    rw [mysqlLiteral, mysqlBody_append fun c hc => (hx c hc).symm, mysqlBody_close (by decide) hpost,
      Option.map_some, List.append_nil]

namespace Quoting

variable (q : Quoting)

/-- The literals of a statement, `none` when one of them is not closed.  The fuel bounds the number of
characters. -/
def literalsFrom : ℕ → List Char → Option (List (List Char))
  | 0, _ => some []
  | _ + 1, [] => some []
  | n + 1, c :: s =>
    if q.opens c then (q.read (c :: s)).bind fun r => (literalsFrom n r.2).map (r.1 :: ·)
    else literalsFrom n s

/-- The literals of a statement. -/
def literals (s : List Char) : Option (List (List Char)) := q.literalsFrom s.length s

variable {q}

theorem opens_eq_false {c : Char} (hc : c ≠ '\'' ∧ c ≠ '"') : q.opens c = false := by
  rw [Bool.eq_false_iff]
  intro h
  rcases q.opens_only h with rfl | rfl
  · exact hc.1 rfl
  · exact hc.2 rfl

/-- Text outside of literals is passed over. -/
theorem literalsFrom_append {p : List Char} (hp : Unquoted p) (n : ℕ) (s : List Char) :
    q.literalsFrom (n + p.length) (p ++ s) = q.literalsFrom n s := by
  induction p with
  | nil => rfl
  | cons c p ih =>
    have hc := opens_eq_false (q := q) (hp c List.mem_cons_self)
    rw [List.length_cons, ← Nat.add_assoc, List.cons_append, literalsFrom, hc, if_neg (by decide)]
    exact ih fun d hd => hp d (List.mem_cons_of_mem c hd)

/-- A text between single quotes is one literal. -/
theorem literalsFrom_quoted {x : List Char} (hx : Quotable x) {post : List Char}
    (hpost : post.head? ≠ some '\'') (n : ℕ) :
    q.literalsFrom (n + 1) ('\'' :: (x ++ '\'' :: post)) = (q.literalsFrom n post).map (x :: ·) := by
  rw [literalsFrom, if_pos q.opens_single, q.read_quotable hx hpost, Option.bind_some]

end Quoting

/-! ### Statements put together -/

/-- `'%s'` -/
def quoted (x : List Char) : List Char := '\'' :: (x ++ ['\''])

namespace Quoting

variable {q : Quoting}

/-- The literals of a text are these, whatever the fuel. -/
def Reads (q : Quoting) (s : List Char) (xs : List (List Char)) : Prop :=
  ∀ n, q.literalsFrom (n + s.length) s = some xs

theorem Reads.literals_eq {s : List Char} {xs : List (List Char)} (h : q.Reads s xs) :
    q.literals s = some xs := by
  have hn := h 0
  rwa [Nat.zero_add] at hn

theorem reads_nil : q.Reads [] [] := by
  intro n
  cases n <;> rfl

/-- Text before a literal. -/
theorem Reads.append {p s : List Char} {xs : List (List Char)} (hp : Unquoted p) (hs : q.Reads s xs) :
    q.Reads (p ++ s) xs := by
  intro n
  rw [List.length_append, Nat.add_comm p.length, ← Nat.add_assoc, literalsFrom_append hp, hs]

/-- A literal that no quote follows. -/
theorem Reads.quoted {x s : List Char} {xs : List (List Char)} (hx : Quotable x)
    (hpost : s.head? ≠ some '\'') (hs : q.Reads s xs) : q.Reads (quoted x ++ s) (x :: xs) := by
  intro n
  have hlen : n + (Sql.quoted x ++ s).length = (n + x.length + 1) + s.length + 1 := by
    simp only [Sql.quoted, List.length_append, List.length_cons, List.length_nil]
    omega
  have hshape : Sql.quoted x ++ s = '\'' :: (x ++ '\'' :: s) := by simp [Sql.quoted]
  rw [hlen, hshape, literalsFrom_quoted hx hpost, hs, Option.map_some]

/-- **A literal with the text around it.** -/
theorem Reads.part {p x p' s : List Char} {xs : List (List Char)} (hp : Unquoted p)
    (hx : Quotable x) (hp' : Unquoted p') (hne : p' ≠ []) (hs : q.Reads (p' ++ s) xs) :
    q.Reads (p ++ (Sql.quoted x ++ (p' ++ s))) (x :: xs) := by
  refine .append hp (.quoted hx ?_ hs)
  obtain ⟨c, p', rfl⟩ := List.exists_cons_of_ne_nil hne
  have hc := (hp' c List.mem_cons_self).1
  simpa using hc

/-- The last literal. -/
theorem Reads.last {p x p' : List Char} (hp : Unquoted p) (hx : Quotable x) (hp' : Unquoted p') :
    q.Reads (p ++ (Sql.quoted x ++ p')) [x] := by
  have hread : q.Reads p' [] := by
    have happend := reads_nil.append (q := q) hp'
    rwa [List.append_nil] at happend
  refine .append hp (.quoted hx ?_ hread)
  cases p' with
  | nil => simp
  | cons c p' =>
    have hc := (hp' c List.mem_cons_self).1
    simpa using hc

theorem Reads.end_quoted {p x : List Char} (hp : Unquoted p) (hx : Quotable x) :
    q.Reads (p ++ Sql.quoted x) [x] := by
  have hlast := Reads.last (q := q) hp hx (fun _ hc => absurd hc List.not_mem_nil)
  rwa [List.append_nil] at hlast

end Quoting

end Sql

/-
  Which values `sqlquote` quotes as the backend reads them.

  `repr` writes a Python literal.  PostgreSQL takes the backslashes of its
  escapes as data and a text in double quotes as an identifier; MySQL knows the
  escapes of the quotes, the backslash, tab, newline and carriage return, and
  drops the backslash of `\x`, `\u` and `\U`.  `sqlquote_iff` is the exact set
  of values each backend reads back.
-/
import IRedAPD.Sql.Literal
import IRedAPD.Web.Db

namespace IRedAPD

open Py Sql

variable [Unicode]

/-- The SQL backends. -/
inductive SqlBackend where
  | pgsql
  | mysql
  deriving DecidableEq, Repr

/-- The string literal at the beginning of a statement, and what is left of it. -/
def readLiteral : SqlBackend → Str → Option (Str × Str)
  | .pgsql => pgLiteral
  | .mysql => mysqlLiteral

/-- In any statement, where no quote follows, the quoted value is one literal of that value. -/
def StaysData (backend : SqlBackend) (v : Str) : Prop :=
  ∀ post : Str, post.head? ≠ some '\'' → post.head? ≠ some '"' →
    readLiteral backend (sqlquote v ++ post) = some (v, post)

/-! ### The characters `repr` writes -/

/-- A printable character is not escaped for its code point. -/
theorem isPrintable_of_mem {c : Char} (hc : c = '\'' ∨ c = '"' ∨ c = '\\') :
    Unicode.isPrintable c = true := by
  rcases hc with rfl | rfl | rfl <;> rw [Unicode.isPrintable_ascii _ (by decide)] <;> decide

omit [Unicode] in
/-- Hexadecimal digits are neither quotes nor backslashes. -/
theorem ne_of_mem_hexPad {w n : ℕ} {c : Char} (h : c ∈ hexPad w n) :
    c ≠ '\'' ∧ c ≠ '"' ∧ c ≠ '\\' := by
  have hdigit : ∀ k < 16, Nat.digitChar k ≠ '\'' ∧ Nat.digitChar k ≠ '"' ∧
      Nat.digitChar k ≠ '\\' := by decide
  induction w generalizing n with
  | zero => simp [hexPad] at h
  | succ w ih =>
    rw [hexPad, List.mem_append, List.mem_singleton] at h
    rcases h with h | rfl
    · exact ih h
    · exact hdigit _ (Nat.mod_lt _ (by omega))

omit [Unicode] in
@[simp] theorem length_hexPad (w n : ℕ) : (hexPad w n).length = w := by
  induction w generalizing n with
  | zero => rfl
  | succ w ih => rw [hexPad, List.length_append, ih]; rfl

/-- The characters MySQL reads back. -/
def MysqlPlain (c : Char) : Prop :=
  Unicode.isPrintable c = true ∨ c = '\t' ∨ c = '\n' ∨ c = '\r'

instance (c : Char) : Decidable (MysqlPlain c) := inferInstanceAs (Decidable (_ ∨ _))

/-- Every other character is escaped by its code point. -/
theorem reprChar_hex {q c : Char} (hq : q = '\'' ∨ q = '"') (hc : ¬ MysqlPlain c) :
    ∃ x w, 2 ≤ w ∧ mysqlEscape x = [x] ∧ reprChar q c = '\\' :: x :: hexPad w c.toNat := by
  obtain ⟨hp, ht, hn, hr⟩ : ¬ Unicode.isPrintable c = true ∧ c ≠ '\t' ∧ c ≠ '\n' ∧ c ≠ '\r' := by
    simpa [MysqlPlain] using hc
  have hesc : ¬ (c = q ∨ c = '\\') := by
    intro h
    refine hp (isPrintable_of_mem ?_)
    rcases h with rfl | rfl
    · rcases hq with h | h <;> simp [h]
    · simp
  rw [reprChar, if_neg hesc, if_neg ht, if_neg hn, if_neg hr, if_neg hp]
  split_ifs
  · exact ⟨'x', 2, by omega, rfl, rfl⟩
  · exact ⟨'u', 4, by omega, rfl, rfl⟩
  · exact ⟨'U', 8, by omega, rfl, rfl⟩

omit [Unicode] in
/-- A list rewritten character by character, none dropped, is itself exactly when no character
changes. -/
theorem flatMap_eq_self_iff {f : Char → Str} (hf : ∀ c, f c ≠ []) (v : Str) :
    v.flatMap f = v ↔ ∀ c ∈ v, f c = [c] := by
  have hlen : ∀ v : Str, v.length ≤ (v.flatMap f).length := by
    intro v
    induction v with
    | nil => simp
    | cons c v ih =>
      have hpos : 0 < (f c).length := List.length_pos_iff.mpr (hf c)
      rw [List.flatMap_cons, List.length_append, List.length_cons]
      omega
  induction v with
  | nil => simp
  | cons c v ih =>
    rw [List.flatMap_cons, List.forall_mem_cons]
    refine Iff.trans ?_ (and_congr_right' ih)
    constructor
    · intro h
      obtain ⟨d, ds, hd⟩ := List.exists_cons_of_ne_nil (hf c)
      have hds : ds = [] := by
        have h₁ := congrArg List.length h
        have h₂ := hlen v
        rw [hd, List.length_append, List.length_cons, List.length_cons] at h₁
        exact List.length_eq_zero_iff.mp (by omega)
      subst hds
      rw [hd, List.singleton_append, List.cons.injEq] at h
      exact ⟨by rw [hd, h.1], h.2⟩
    · rintro ⟨hc, hv⟩
      rw [hc, hv, List.singleton_append]

/-! ### MySQL -/

/-- What MySQL reads where `repr` wrote a character. -/
def mysqlValue (q c : Char) : Str := if MysqlPlain c then [c] else (reprChar q c).tail

theorem mysqlBody_reprChar {q : Char} (hq : q = '\'' ∨ q = '"') (c : Char) (s : Str) :
    mysqlBody q (reprChar q c ++ s) = (mysqlBody q s).map fun r => (mysqlValue q c ++ r.1, r.2) := by
  by_cases hplain : MysqlPlain c
  · have hv : mysqlValue q c = [c] := if_pos hplain
    rw [hv]
    -- the character is escaped by itself or by its letter
    have hletter : ∀ x : Char, reprChar q c = ['\\', x] → mysqlEscape x = [c] →
        mysqlBody q (reprChar q c ++ s) = (mysqlBody q s).map fun r => ([c] ++ r.1, r.2) := by
      intro x hrepr hx
      rw [hrepr, List.cons_append, List.singleton_append, mysqlBody_escape, hx]
    by_cases hesc : c = q ∨ c = '\\'
    · refine hletter c (if_pos hesc) ?_
      rcases hesc with rfl | rfl
      · rcases hq with rfl | rfl <;> rfl
      · rfl
    by_cases ht : c = '\t'
    · refine hletter 't' ?_ ?_
      · rw [reprChar, if_neg hesc, if_pos ht]
      · rw [ht]; rfl
    by_cases hn : c = '\n'
    · refine hletter 'n' ?_ ?_
      · rw [reprChar, if_neg hesc, if_neg ht, if_pos hn]
      · rw [hn]; rfl
    by_cases hr : c = '\r'
    · refine hletter 'r' ?_ ?_
      · rw [reprChar, if_neg hesc, if_neg ht, if_neg hn, if_pos hr]
      · rw [hr]; rfl
    · have hp : Unicode.isPrintable c = true := by simpa [MysqlPlain, ht, hn, hr] using hplain
      have hne := not_or.mp hesc
      rw [reprChar, if_neg hesc, if_neg ht, if_neg hn, if_neg hr, if_pos hp, List.singleton_append,
        mysqlBody_cons hne.2 hne.1]
      rfl
  · -- an escape by code point: the backslash is dropped
    obtain ⟨x, w, -, hx, hrepr⟩ := reprChar_hex hq hplain
    have hdigits : ∀ d ∈ hexPad w c.toNat, d ≠ '\\' ∧ d ≠ q := by
      intro d hd
      obtain ⟨h₁, h₂, h₃⟩ := ne_of_mem_hexPad hd
      rcases hq with rfl | rfl
      · exact ⟨h₃, h₁⟩
      · exact ⟨h₃, h₂⟩
    have hv : mysqlValue q c = x :: hexPad w c.toNat := by rw [mysqlValue, if_neg hplain, hrepr]; rfl
    rw [hv, hrepr, List.cons_append, List.cons_append, mysqlBody_escape, mysqlBody_append hdigits,
      Option.map_map, hx]
    rfl

omit [Unicode] in
/-- The quote in use is one of the two. -/
theorem reprQuote_eq (v : Str) : reprQuote v = '\'' ∨ reprQuote v = '"' := by
  unfold reprQuote
  split <;> simp

theorem sqlquote_append (v post : Str) :
    sqlquote v ++ post =
      reprQuote v :: (v.flatMap (reprChar (reprQuote v)) ++ (reprQuote v :: post)) := by
  simp [sqlquote, sqlify, Py.repr]

/-- MySQL reads the quoted text to its closing quote. -/
theorem mysqlLiteral_sqlquote (v : Str) {post : Str} (h₁ : post.head? ≠ some '\'')
    (h₂ : post.head? ≠ some '"') :
    mysqlLiteral (sqlquote v ++ post) = some (v.flatMap (mysqlValue (reprQuote v)), post) := by
  have hq := reprQuote_eq v
  have hpost : post.head? ≠ some (reprQuote v) := by
    rcases hq with h | h <;> rw [h] <;> assumption
  have hbody : ∀ s : Str, mysqlBody (reprQuote v) (s.flatMap (reprChar (reprQuote v)) ++
      (reprQuote v :: post)) = some (s.flatMap (mysqlValue (reprQuote v)), post) := by
    intro s
    induction s with
    | nil =>
      refine mysqlBody_close ?_ hpost
      rcases hq with h | h <;> rw [h] <;> decide
    | cons c s ih =>
      rw [List.flatMap_cons, List.append_assoc, mysqlBody_reprChar hq, ih]
      rfl
  rw [sqlquote_append, ← hbody]
  rcases hq with h | h <;> rw [h] <;> rfl

/-- When MySQL reads back a character. -/
theorem mysqlValue_eq_iff {q : Char} (hq : q = '\'' ∨ q = '"') (c : Char) :
    mysqlValue q c = [c] ↔ MysqlPlain c := by
  refine ⟨fun heq => ?_, fun h => if_pos h⟩
  by_contra hplain
  obtain ⟨x, w, hw, -, hrepr⟩ := reprChar_hex hq hplain
  have hlen := congrArg List.length heq
  rw [mysqlValue, if_neg hplain, hrepr, List.tail_cons, List.length_cons, length_hexPad,
    List.length_singleton] at hlen
  omega

theorem mysqlValue_ne_nil {q : Char} (hq : q = '\'' ∨ q = '"') (c : Char) :
    mysqlValue q c ≠ [] := by
  by_cases hplain : MysqlPlain c
  · rw [mysqlValue, if_pos hplain]
    simp
  · obtain ⟨x, w, -, -, hrepr⟩ := reprChar_hex hq hplain
    rw [mysqlValue, if_neg hplain, hrepr]
    simp

/-! ### PostgreSQL -/

/-- `repr` writes a single quote only for a single quote. -/
theorem not_mem_reprChar {c : Char} (hc : c ≠ '\'') : '\'' ∉ reprChar '\'' c := by
  have hhex : ∀ w n, '\'' ∉ hexPad w n := fun w n h => (ne_of_mem_hexPad h).1 rfl
  unfold reprChar
  split_ifs <;> simp [hhex, Ne.symm hc]

/-- A text with a single quote in it is not read to its end. -/
theorem pgBody_of_mem {v : Str} (hv : '\'' ∈ v) (x : Str) :
    pgBody (v.flatMap (reprChar '\'') ++ ['\'']) ≠ some (x, []) := by
  induction v generalizing x with
  | nil => simp at hv
  | cons c v ih =>
    rw [List.flatMap_cons, List.append_assoc]
    by_cases hc : c = '\''
    · -- `\'` ends the literal, unless the closing quote comes next
      subst hc
      have hesc : reprChar '\'' '\'' = ['\\', '\''] := by simp [reprChar]
      rw [hesc, List.cons_append, List.singleton_append, pgBody_cons (by decide)]
      cases v with
      | nil => simp [pgBody]
      | cons d v =>
        have hfirst : ∃ e s, reprChar '\'' d = e :: s ∧ e ≠ '\'' := by
          unfold reprChar
          split_ifs with h
          all_goals first
            | exact ⟨_, _, rfl, by decide⟩
            | exact ⟨d, [], rfl, fun hd => h (Or.inl hd)⟩
        obtain ⟨e, s, hs, he⟩ := hfirst
        rw [List.flatMap_cons, hs, pgBody_close (by simp [he])]
        simp
    · rw [pgBody_append (not_mem_reprChar hc)]
      intro heq
      rw [Option.map_eq_some_iff] at heq
      obtain ⟨⟨y, rest⟩, hy, heq⟩ := heq
      obtain ⟨-, rfl⟩ : reprChar '\'' c ++ y = x ∧ rest = [] := by simpa using heq
      exact ih (by simpa [Ne.symm hc] using hv) y hy

/-- Without single quotes, PostgreSQL reads the escapes as they are written. -/
theorem pgLiteral_sqlquote {v : Str} (hv : '\'' ∉ v) {post : Str} (h₁ : post.head? ≠ some '\'') :
    pgLiteral (sqlquote v ++ post) = some (v.flatMap (reprChar '\''), post) := by
  have hq : reprQuote v = '\'' := by simp [reprQuote, hv]
  have hbody : '\'' ∉ v.flatMap (reprChar '\'') := by
    rw [List.mem_flatMap]
    rintro ⟨c, hc, hmem⟩
    refine not_mem_reprChar ?_ hmem
    rintro rfl
    exact hv hc
  rw [sqlquote_append, hq, pgLiteral, pgBody_append hbody, pgBody_close h₁]
  simp

theorem reprChar_ne_nil (c : Char) : reprChar '\'' c ≠ [] := by
  unfold reprChar
  split_ifs <;> simp

/-- When PostgreSQL reads back a character that is not a single quote. -/
theorem reprChar_eq_iff {c : Char} (hc : c ≠ '\'') :
    reprChar '\'' c = [c] ↔ Unicode.isPrintable c = true ∧ c ≠ '\\' := by
  by_cases hplain : MysqlPlain c
  · by_cases hb : c = '\\'
    · simp [reprChar, hb]
    by_cases hctl : c = '\t' ∨ c = '\n' ∨ c = '\r'
    · refine iff_of_false (fun heq => ?_) fun h => ?_
      · have hlen := congrArg List.length heq
        rcases hctl with rfl | rfl | rfl <;> simp [reprChar] at hlen
      · have hp := h.1
        rcases hctl with rfl | rfl | rfl <;>
          · rw [Unicode.isPrintable_ascii _ (by decide)] at hp
            revert hp
            decide
    · have hp : Unicode.isPrintable c = true := by
        rcases hplain with h | h
        · exact h
        · exact absurd h hctl
      simp only [not_or] at hctl
      have hesc : ¬ (c = '\'' ∨ c = '\\') := not_or.mpr ⟨hc, hb⟩
      rw [reprChar, if_neg hesc, if_neg hctl.1, if_neg hctl.2.1, if_neg hctl.2.2, if_pos hp]
      exact iff_of_true rfl ⟨hp, hb⟩
  · obtain ⟨x, w, -, -, hrepr⟩ := reprChar_hex (Or.inl rfl) hplain
    rw [hrepr]
    refine iff_of_false (by simp) fun h => hplain (Or.inl h.1)

/-- **Quoted values stay data** exactly when PostgreSQL is given printable characters other than the
single quote and the backslash, and MySQL printable characters, tabs, newlines and carriage
returns. -/
theorem sqlquote_iff (backend : SqlBackend) (v : Str) :
    StaysData backend v ↔
      match backend with
      | .pgsql => ∀ c ∈ v, Unicode.isPrintable c = true ∧ c ≠ '\'' ∧ c ≠ '\\'
      | .mysql => ∀ c ∈ v, Unicode.isPrintable c = true ∨ c = '\t' ∨ c = '\n' ∨ c = '\r' := by
  cases backend with
  | pgsql =>
    by_cases hv : '\'' ∈ v
    · refine iff_of_false (fun hdata => ?_) fun h => (h _ hv).2.1 rfl
      have hread := hdata [] (by simp) (by simp)
      rw [List.append_nil] at hread
      rw [readLiteral, ← List.append_nil (sqlquote v), sqlquote_append] at hread
      rcases reprQuote_eq v with hq | hq
      · rw [hq] at hread
        exact pgBody_of_mem hv v hread
      · rw [hq] at hread
        simp [pgLiteral] at hread
    · have hread : StaysData .pgsql v ↔ v.flatMap (reprChar '\'') = v := by
        constructor
        · intro hdata
          have := hdata [] (by simp) (by simp)
          rw [readLiteral, pgLiteral_sqlquote hv (by simp)] at this
          exact congrArg Prod.fst (Option.some.inj this)
        · intro heq post h₁ _
          rw [readLiteral, pgLiteral_sqlquote hv h₁, heq]
      rw [hread, flatMap_eq_self_iff reprChar_ne_nil]
      refine forall₂_congr fun c hc => ?_
      have hne : c ≠ '\'' := fun h => hv (h ▸ hc)
      rw [reprChar_eq_iff hne]
      simp [hne]
  | mysql =>
    have hread : StaysData .mysql v ↔ v.flatMap (mysqlValue (reprQuote v)) = v := by
      constructor
      · intro hdata
        have := hdata [] (by simp) (by simp)
        rw [readLiteral, mysqlLiteral_sqlquote v (by simp) (by simp)] at this
        exact congrArg Prod.fst (Option.some.inj this)
      · intro heq post h₁ h₂
        rw [readLiteral, mysqlLiteral_sqlquote v h₁ h₂, heq]
    rw [hread, flatMap_eq_self_iff (mysqlValue_ne_nil (reprQuote_eq v))]
    exact forall₂_congr fun c _ => mysqlValue_eq_iff (reprQuote_eq v) c

omit [Unicode] in
/-- A `helo_name` of `'` and `"`: the statement holds `'\'"'`, which PostgreSQL reads as the literal
of a backslash, and what follows is no longer data. -/
theorem pgsql_both_quotes : ¬ @StaysData asciiUnicode .pgsql ['\'', '"'] := by
  intro hdata
  have hread := hdata [] (by decide) (by decide)
  have hcut : readLiteral .pgsql (@sqlquote asciiUnicode ['\'', '"'] ++ []) =
      some (['\\'], ['"', '\'']) := by decide
  rw [hcut] at hread
  revert hread
  decide

end IRedAPD

/-
  The `LIKE` operator: `%` stands for any text, `_` for any character, and a
  backslash takes the special meaning off the character after it.
-/
import Mathlib.Data.List.Infix
import Mathlib.Tactic.Common

namespace Sql

/-- `text LIKE pattern` -/
def like : List Char → List Char → Bool
  | [], s => s.isEmpty
  | '%' :: p, s => s.tails.any (like p)
  | '_' :: p, s =>
    match s with
    | [] => false
    | _ :: s => like p s
  | '\\' :: c :: p, s =>
    match s with
    | [] => false
    | d :: s => d == c && like p s
  | c :: p, s =>
    match s with
    | [] => false
    | d :: s => d == c && like p s

/-- A character that is not special stands for itself. -/
theorem like_cons {c : Char} (h₁ : c ≠ '%') (h₂ : c ≠ '_') (h₃ : c ≠ '\\') (p s : List Char) :
    like (c :: p) s = true ↔ ∃ t, s = c :: t ∧ like p t = true := by
  cases s with
  | nil =>
    rw [like.eq_def]
    simp [h₃]
  | cons d s =>
    have hplain : like (c :: p) (d :: s) = (d == c && like p s) := by
      rw [like.eq_def]
      split <;> simp_all
    rw [hplain, Bool.and_eq_true, beq_iff_eq]
    constructor
    · rintro ⟨rfl, h⟩
      exact ⟨s, rfl, h⟩
    · rintro ⟨t, ht, h⟩
      obtain ⟨rfl, rfl⟩ := List.cons.inj ht
      exact ⟨rfl, h⟩

/-- So does a text of such characters. -/
theorem like_append {p q s : List Char} (hp : ∀ c ∈ p, c ≠ '%' ∧ c ≠ '_' ∧ c ≠ '\\') :
    like (p ++ q) s = true ↔ ∃ t, s = p ++ t ∧ like q t = true := by
  induction p generalizing s with
  | nil => simp
  | cons c p ih =>
    obtain ⟨h₁, h₂, h₃⟩ := hp c (by simp)
    have ih := fun s => ih (s := s) fun c hc => hp c (by simp [hc])
    rw [List.cons_append, like_cons h₁ h₂ h₃]
    simp only [ih, List.cons_append]
    constructor
    · rintro ⟨_, rfl, t, rfl, ht⟩
      exact ⟨t, rfl, ht⟩
    · rintro ⟨t, rfl, ht⟩
      exact ⟨_, rfl, t, rfl, ht⟩

theorem like_percent {p s : List Char} :
    like ('%' :: p) s = true ↔ ∃ t, t <:+ s ∧ like p t = true := by
  rw [like.eq_def]
  simp only [List.any_eq_true, List.mem_tails]

/-- `LIKE 'p%%'` selects the texts that start with `p`. -/
theorem like_append_percent {p s : List Char} (hp : ∀ c ∈ p, c ≠ '%' ∧ c ≠ '_' ∧ c ≠ '\\') :
    like (p ++ ['%', '%']) s = true ↔ p <+: s := by
  rw [like_append hp]
  constructor
  · rintro ⟨t, rfl, -⟩
    exact List.prefix_append p t
  · rintro ⟨t, rfl⟩
    refine ⟨t, rfl, like_percent.mpr ⟨t, List.suffix_refl t, like_percent.mpr ⟨[], ?_, rfl⟩⟩⟩
    exact List.nil_suffix

/-! ### Patterns without special characters -/

theorem like_underscore {p : List Char} (a : Char) {s : List Char} (h : like p s = true) :
    like ('_' :: p) (a :: s) = true := by
  rw [like.eq_def]
  exact h

theorem like_backslash {c : Char} {p s : List Char} (h : like p s = true) :
    like ('\\' :: c :: p) (c :: s) = true := by
  rw [like.eq_def]
  simp [h]

theorem like_percent_cons {p : List Char} (a : Char) {s : List Char} (h : like p s = true) :
    like ('%' :: p) (a :: s) = true :=
  like_percent.mpr ⟨s, List.suffix_cons a s, h⟩

/-- Every character of the pattern stands for itself: it holds no `%` or `_`, and a backslash only
where no character follows. -/
def Literal (p : List Char) : Prop := (∀ c ∈ p, c ≠ '%' ∧ c ≠ '_') ∧ '\\' ∉ p.dropLast

/-- The pattern starts with a character that has a special meaning. -/
def Special : List Char → Prop
  | [] => False
  | c :: p => c = '%' ∨ c = '_' ∨ c = '\\' ∧ p ≠ []

/-- Such a pattern matches itself only. -/
theorem like_literal {p : List Char} (hp : Literal p) (s : List Char) : like p s = true ↔ s = p := by
  induction p generalizing s with
  | nil => simp [like]
  | cons c p ih =>
    obtain ⟨hplain, hlast⟩ := hp
    obtain ⟨h₁, h₂⟩ := hplain c List.mem_cons_self
    cases p with
    | nil =>
      by_cases h₃ : c = '\\'
      · subst h₃
        rw [like.eq_def]
        cases s with
        | nil => simp
        | cons d s => simp [like]
      · rw [like_cons h₁ h₂ h₃]
        simp [like]
    | cons d p =>
      rw [List.dropLast_cons_cons, List.mem_cons, not_or] at hlast
      have ih := ih ⟨fun a ha => hplain a (List.mem_cons_of_mem c ha), hlast.2⟩
      rw [like_cons h₁ h₂ (Ne.symm hlast.1)]
      constructor
      · rintro ⟨t, rfl, ht⟩
        rw [(ih t).mp ht]
      · rintro rfl
        exact ⟨d :: p, rfl, (ih _).mpr rfl⟩

/-- A pattern that is not so has a first special character. -/
theorem exists_special {p : List Char} (hp : ¬ Literal p) :
    ∃ p₁ p₂, p = p₁ ++ p₂ ∧ (∀ c ∈ p₁, c ≠ '%' ∧ c ≠ '_' ∧ c ≠ '\\') ∧ Special p₂ := by
  induction p with
  | nil => exact absurd ⟨by simp, by simp⟩ hp
  | cons c p ih =>
    by_cases hc : Special (c :: p)
    · exact ⟨[], c :: p, rfl, by simp, hc⟩
    · simp only [Special, not_or, not_and] at hc
      obtain ⟨h₁, h₂, h₃⟩ := hc
      have hlit : ¬ Literal p := by
        rintro ⟨hplain, hlast⟩
        refine hp ⟨fun a ha => ?_, fun hmem => ?_⟩
        · rcases List.mem_cons.mp ha with rfl | ha
          · exact ⟨h₁, h₂⟩
          · exact hplain a ha
        · cases p with
          | nil => simp at hmem
          | cons d p =>
            rw [List.dropLast_cons_cons, List.mem_cons] at hmem
            rcases hmem with heq | hmem
            · exact h₃ heq.symm (List.cons_ne_nil d p)
            · exact hlast hmem
      obtain ⟨p₁, p₂, rfl, hplain, hspecial⟩ := ih hlit
      refine ⟨c :: p₁, p₂, rfl, fun a ha => ?_, hspecial⟩
      rcases List.mem_cons.mp ha with rfl | ha
      · refine ⟨h₁, h₂, fun heq => h₃ heq fun hnil => ?_⟩
        rw [(List.append_eq_nil_iff.mp hnil).2] at hspecial
        exact hspecial
      · exact hplain a ha

/-! ### What a special character lets in -/

/-- The backslashes a text starts with. -/
def backslashes (s : List Char) : ℕ := (s.takeWhile (· == '\\')).length

theorem backslashes_backslash (s : List Char) : backslashes ('\\' :: s) = backslashes s + 1 := by
  simp [backslashes]

theorem backslashes_cons {c : Char} (hc : c ≠ '\\') (s : List Char) : backslashes (c :: s) = 0 := by
  simp [backslashes, hc]

/-- What follows another character does not count. -/
theorem backslashes_append_cons {c : Char} (hc : c ≠ '\\') (p s : List Char) :
    backslashes (p ++ c :: s) = backslashes p := by
  induction p with
  | nil => rw [List.nil_append, backslashes_cons hc, backslashes, List.takeWhile_nil, List.length_nil]
  | cons d p ih =>
    rw [List.cons_append]
    by_cases hd : d = '\\'
    · rw [hd, backslashes_backslash, backslashes_backslash, ih]
    · rw [backslashes_cons hd, backslashes_cons hd]

/-- Every pattern matches a text that is no longer and has no more backslashes before it; if it
starts with a special character, the text starts with another one or with fewer backslashes. -/
theorem exists_like : ∀ p : List Char, ∃ s, like p s = true ∧ s.length ≤ p.length ∧
    backslashes s ≤ backslashes p ∧
    (Special p → s.head? ≠ p.head? ∨ backslashes s < backslashes p)
  | [] => ⟨[], rfl, le_rfl, le_rfl, False.elim⟩
  | c :: p => by
    by_cases hwild : c = '%' ∨ c = '_'
    · obtain ⟨s, hs, hlen, -⟩ := exists_like p
      have hhead : ('x' :: s).head? ≠ (c :: p).head? := by
        rcases hwild with rfl | rfl <;> simp
      have hzero : backslashes ('x' :: s) = 0 := backslashes_cons (by decide) s
      refine ⟨'x' :: s, ?_, Nat.succ_le_succ hlen, by omega, fun _ => .inl hhead⟩
      rcases hwild with rfl | rfl
      · exact like_percent_cons 'x' hs
      · exact like_underscore 'x' hs
    · rw [not_or] at hwild
      by_cases hback : c = '\\'
      · subst hback
        cases p with
        | nil => exact ⟨['\\'], by decide, le_rfl, le_rfl, by simp [Special]⟩
        | cons d p =>
          obtain ⟨s, hs, hlen, hle, -⟩ := exists_like p
          have hlt : backslashes (d :: s) < backslashes ('\\' :: d :: p) := by
            rw [backslashes_backslash]
            by_cases hd : d = '\\'
            · rw [hd, backslashes_backslash, backslashes_backslash]
              omega
            · rw [backslashes_cons hd]
              exact Nat.succ_pos _
          have hlen' : (d :: s).length ≤ ('\\' :: d :: p).length := by
            simp only [List.length_cons]
            omega
          exact ⟨d :: s, like_backslash hs, hlen', hlt.le, fun _ => .inr hlt⟩
      · obtain ⟨s, hs, hlen, -⟩ := exists_like p
        have hplain : ¬ Special (c :: p) := by simp [Special, hwild, hback]
        have hzero : backslashes (c :: s) = 0 := backslashes_cons hback s
        exact ⟨c :: s, (like_cons hwild.1 hwild.2 hback p _).mpr ⟨s, rfl, hs⟩,
          Nat.succ_le_succ hlen, by omega, fun h => absurd h hplain⟩

example : like "a.%".toList "a.b.c".toList = true := by decide

end Sql

/-
  A request as the SQL statements it runs one after the other.

  A `Program` reads the tables, writes to them, and goes on with what it has
  read or with whether the write has succeeded.  `run` runs it without anything
  in between; a scheduler takes it apart statement by statement instead
  (`next`).
-/
import Mathlib.Logic.Function.Iterate
import Mathlib.Tactic.Common

namespace Sql

/-- Statements on tables `σ` with writes `ω`, and a result. -/
inductive Program (σ ω α : Type*) where
  | pure (a : α)
  | query (k : σ → Program σ ω α)
  | write (w : ω) (k : Bool → Program σ ω α)

namespace Program

variable {σ ω α : Type*}

/-- All statements, with the tables they leave; `exec` is `none` for a write that fails. -/
def run (exec : ω → σ → Option σ) : Program σ ω α → σ → α × σ
  | .pure a, s => (a, s)
  | .query k, s => (k s).run exec s
  | .write w k, s =>
    match exec w s with
    | some s' => (k true).run exec s'
    | none => (k false).run exec s

/-- The next statement, with what is left of the program. -/
def next (exec : ω → σ → Option σ) : Program σ ω α → σ → Program σ ω α × σ
  | .pure a, s => (.pure a, s)
  | .query k, s => (k s, s)
  | .write w k, s =>
    match exec w s with
    | some s' => (k true, s')
    | none => (k false, s)

/-- The write a program is about to run. -/
def pending : Program σ ω α → Option ω
  | .write w _ => some w
  | _ => none

/-- **Statement by statement**, a program ends with the result of `run`. -/
theorem exists_iterate_next (exec : ω → σ → Option σ) (p : Program σ ω α) (s : σ) :
    ∃ m, (fun q : Program σ ω α × σ => q.1.next exec q.2)^[m] (p, s) =
      (.pure (p.run exec s).1, (p.run exec s).2) := by
  induction p generalizing s with
  | pure a => exact ⟨0, rfl⟩
  | query k ih =>
    obtain ⟨m, hm⟩ := ih s s
    exact ⟨m + 1, hm⟩
  | write w k ih =>
    cases hexec : exec w s with
    | none =>
      obtain ⟨m, hm⟩ := ih false s
      refine ⟨m + 1, ?_⟩
      rw [Function.iterate_succ_apply]
      simp only [next, run, hexec]
      exact hm
    | some s' =>
      obtain ⟨m, hm⟩ := ih true s'
      refine ⟨m + 1, ?_⟩
      rw [Function.iterate_succ_apply]
      simp only [next, run, hexec]
      exact hm

/-- Every write a program may send satisfies a condition. -/
def Writes (allowed : ω → Prop) : Program σ ω α → Prop
  | .pure _ => True
  | .query k => ∀ s, (k s).Writes allowed
  | .write w k => allowed w ∧ ∀ ok, (k ok).Writes allowed

/-- The next statement leaves the tables as they are, or as the pending write leaves them. -/
theorem next_snd (exec : ω → σ → Option σ) (p : Program σ ω α) (s : σ) :
    (p.next exec s).2 = s ∨ ∃ w, p.pending = some w ∧ exec w s = some (p.next exec s).2 := by
  cases p with
  | pure a => exact .inl rfl
  | query k => exact .inl rfl
  | write w k =>
    cases hexec : exec w s with
    | none => exact .inl (by simp only [next, hexec])
    | some s' => exact .inr ⟨w, rfl, by simp only [next, hexec]⟩

/-- What is left of such a program. -/
theorem Writes.next {allowed : ω → Prop} {p : Program σ ω α} (h : p.Writes allowed)
    (exec : ω → σ → Option σ) (s : σ) : (p.next exec s).1.Writes allowed := by
  cases p with
  | pure a => exact h
  | query k => exact h s
  | write w k =>
    cases hexec : exec w s with
    | none => simpa only [Program.next, hexec] using h.2 false
    | some s' => simpa only [Program.next, hexec] using h.2 true

/-- **The frame rule**: what such writes keep, the next statement keeps. -/
theorem Writes.keeps {allowed : ω → Prop} {p : Program σ ω α} (h : p.Writes allowed)
    {exec : ω → σ → Option σ} (inv : σ → Prop)
    (hwrite : ∀ w s s', allowed w → exec w s = some s' → inv s → inv s') {s : σ} (hs : inv s) :
    inv (p.next exec s).2 := by
  rcases p.next_snd exec s with hsame | ⟨w, hpending, hexec⟩
  · rw [hsame]
    exact hs
  · cases p with
    | pure a => cases hpending
    | query k => cases hpending
    | write w' k =>
      obtain rfl := Option.some.inj hpending
      exact hwrite _ _ _ h.1 hexec hs

end Program

end Sql

/-
  A machine that answers inputs one after the other, and its history.

  `step i s` is the answer to the input `i` in the state `s`, with the state it
  leaves.  `after` is the state after some inputs and `history` lists them with
  their answers.  Inputs carry a time: `invariant` is the rule for a property
  of history and state that every step keeps, where a step may use that nothing
  in the history is later than its own input.

  Some inputs are silent: they change the state and get no answer.
  `answers_filter` is the rule for leaving them out, a simulation between the
  run without them and the run with them.
-/
import Mathlib.Data.List.Basic
import Mathlib.Tactic.Common

namespace History

variable {σ ι ο : Type*} (step : ι → σ → ο × σ)

/-- The state after some inputs. -/
def after (s : σ) : List ι → σ
  | [] => s
  | i :: is => after (step i s).2 is

/-- Some inputs with their answers. -/
def history (s : σ) : List ι → List (ι × ο)
  | [] => []
  | i :: is => (i, (step i s).1) :: history (step i s).2 is

theorem after_append (s : σ) (is js : List ι) :
    after step s (is ++ js) = after step (after step s is) js := by
  induction is generalizing s with
  | nil => rfl
  | cons i is ih => exact ih _

theorem history_append (s : σ) (is js : List ι) :
    history step s (is ++ js) = history step s is ++ history step (after step s is) js := by
  induction is generalizing s with
  | nil => rfl
  | cons i is ih => simp only [List.cons_append, history, after, ih]

theorem map_fst_history (s : σ) (is : List ι) : (history step s is).map Prod.fst = is := by
  induction is generalizing s with
  | nil => rfl
  | cons i is ih => simp only [history, List.map_cons, ih]

/-- The condition holds of every input in the state that it finds. -/
def Throughout (step : ι → σ → ο × σ) (cond : ι → σ → Prop) (s : σ) : List ι → Prop
  | [] => True
  | i :: is => cond i s ∧ Throughout step cond (step i s).2 is

/-- A condition that always holds. -/
theorem throughout_of_forall {step : ι → σ → ο × σ} {cond : ι → σ → Prop} (h : ∀ i s, cond i s)
    (s : σ) (is : List ι) : Throughout step cond s is := by
  induction is generalizing s with
  | nil => trivial
  | cons i is ih => exact ⟨h i s, ih _⟩

/-- A condition on the inputs and their answers. -/
theorem throughout_of_history {step : ι → σ → ο × σ} {ok : ι × ο → Prop} {s : σ} {is : List ι}
    (h : ∀ e ∈ history step s is, ok e) : Throughout step (fun i s => ok (i, (step i s).1)) s is := by
  induction is generalizing s with
  | nil => trivial
  | cons i is ih =>
    exact ⟨h _ (List.mem_cons_self ..), ih fun e he => h e (List.mem_cons_of_mem _ he)⟩

/-- A condition on the inputs alone. -/
theorem throughout_of_inputs {step : ι → σ → ο × σ} {ok : ι → Prop} {is : List ι}
    (h : ∀ i ∈ is, ok i) (s : σ) : Throughout step (fun i _ => ok i) s is := by
  induction is generalizing s with
  | nil => trivial
  | cons i is ih =>
    exact ⟨h i (List.mem_cons_self ..), ih (fun j hj => h j (List.mem_cons_of_mem _ hj)) _⟩

theorem Throughout.and {step : ι → σ → ο × σ} {cond cond' : ι → σ → Prop} {s : σ} {is : List ι}
    (h : Throughout step cond s is) (h' : Throughout step cond' s is) :
    Throughout step (fun i s => cond i s ∧ cond' i s) s is := by
  induction is generalizing s with
  | nil => trivial
  | cons i is ih => exact ⟨⟨h.1, h'.1⟩, ih h.2 h'.2⟩

theorem throughout_append {step : ι → σ → ο × σ} {cond : ι → σ → Prop} {s : σ} {is js : List ι} :
    Throughout step cond s (is ++ js) ↔
      Throughout step cond s is ∧ Throughout step cond (after step s is) js := by
  induction is generalizing s with
  | nil => exact (and_iff_right trivial).symm
  | cons i is ih =>
    show (cond i s ∧ Throughout step cond (step i s).2 (is ++ js)) ↔ _
    rw [ih]
    exact and_assoc.symm

/-- **The invariant rule under a condition.** A property of history and state that every step keeps
which meets the condition, when nothing in the history is later than its input, holds after inputs in
the order of their times that meet it. -/
theorem invariant_throughout {τ : Type*} [LE τ] {step : ι → σ → ο × σ} (time : ι → τ)
    (cond : ι → σ → Prop) (inv : List (ι × ο) → σ → Prop)
    (hstep : ∀ h s i, (∀ e ∈ h, time e.1 ≤ time i) → cond i s → inv h s →
      inv (h ++ [(i, (step i s).1)]) (step i s).2)
    {h : List (ι × ο)} {s : σ} (hinv : inv h s) {is : List ι}
    (hsorted : (h.map (fun e => time e.1) ++ is.map time).Pairwise (· ≤ ·))
    (hcond : Throughout step cond s is) :
    inv (h ++ history step s is) (after step s is) := by
  induction is generalizing h s with
  | nil => simpa [history, after] using hinv
  | cons i is ih =>
    have hle : ∀ e ∈ h, time e.1 ≤ time i := by
      intro e he
      exact (List.pairwise_append.mp hsorted).2.2 _ (List.mem_map_of_mem he) _ (by simp)
    have hnext := hstep h s i hle hcond.1 hinv
    have hrest := ih hnext (by simpa using hsorted) hcond.2
    simpa [history, after] using hrest

/-- **The invariant rule.** A property of history and state that every step keeps, when nothing in
the history is later than its input and its input and answer are as `ok` says, holds after inputs in
the order of their times. -/
theorem invariant {τ : Type*} [LE τ] {step : ι → σ → ο × σ} (time : ι → τ) (ok : ι × ο → Prop)
    (inv : List (ι × ο) → σ → Prop)
    (hstep : ∀ h s i, (∀ e ∈ h, time e.1 ≤ time i) → ok (i, (step i s).1) → inv h s →
      inv (h ++ [(i, (step i s).1)]) (step i s).2)
    {h : List (ι × ο)} {s : σ} (hinv : inv h s) {is : List ι}
    (hsorted : (h.map (fun e => time e.1) ++ is.map time).Pairwise (· ≤ ·))
    (hok : ∀ e ∈ history step s is, ok e) :
    inv (h ++ history step s is) (after step s is) :=
  invariant_throughout time (fun i s => ok (i, (step i s).1)) inv hstep hinv hsorted
    (throughout_of_history hok)

/-- The invariant rule when neither the times nor the answers matter. -/
theorem invariant_of_step {step : ι → σ → ο × σ} (inv : List (ι × ο) → σ → Prop)
    (hstep : ∀ h s i, inv h s → inv (h ++ [(i, (step i s).1)]) (step i s).2)
    {h : List (ι × ο)} {s : σ} (hinv : inv h s) (is : List ι) :
    inv (h ++ history step s is) (after step s is) := by
  induction is generalizing h s with
  | nil => simpa [history, after] using hinv
  | cons i is ih =>
    have hrest := ih (hstep h s i hinv)
    simpa [history, after] using hrest

/-! ### Silent inputs -/

section Silent

variable {step : ι → σ → Option ο × σ}

/-- The answers that are given. -/
def answers (step : ι → σ → Option ο × σ) (s : σ) (is : List ι) : List ο :=
  (history step s is).filterMap Prod.snd

theorem answers_cons (s : σ) (i : ι) (is : List ι) :
    answers step s (i :: is) = (step i s).1.toList ++ answers step (step i s).2 is := by
  unfold answers
  rw [history, List.filterMap_cons]
  cases (step i s).1 <;> rfl

theorem answers_append (s : σ) (is js : List ι) :
    answers step s (is ++ js) = answers step s is ++ answers step (after step s is) js := by
  unfold answers
  rw [history_append, List.filterMap_append]

/-- **The invariant rule for answers.** Where the condition holds, every step keeps the invariant and
gives no bad answer. -/
theorem forall_answers {cond : ι → σ → Prop} (inv : σ → Prop) (good : ο → Prop)
    (hstep : ∀ i s, cond i s → inv s →
      inv (step i s).2 ∧ ∀ o, (step i s).1 = some o → good o)
    {s : σ} (hinv : inv s) {is : List ι} (hcond : Throughout step cond s is) :
    ∀ o ∈ answers step s is, good o := by
  induction is generalizing s with
  | nil => exact fun o ho => by cases ho
  | cons i is ih =>
    obtain ⟨hnext, hgood⟩ := hstep i s hcond.1 hinv
    intro o ho
    rw [answers_cons, List.mem_append, Option.mem_toList] at ho
    rcases ho with ho | ho
    · exact hgood o ho
    · exact ih hnext hcond.2 o ho

/-- Where a condition fails, it fails for the first time. -/
theorem exists_first_of_not_throughout {cond : ι → σ → Prop} {s : σ} {is : List ι}
    (h : ¬ Throughout step cond s is) : ∃ before i rest, is = before ++ i :: rest ∧
      Throughout step cond s before ∧ ¬ cond i (after step s before) := by
  induction is generalizing s with
  | nil => exact absurd trivial h
  | cons i is ih =>
    by_cases hi : cond i s
    · obtain ⟨before, j, rest, rfl, hbefore, hj⟩ := ih fun hrest => h ⟨hi, hrest⟩
      exact ⟨i :: before, j, rest, rfl, ⟨hi, hbefore⟩, hj⟩
    · exact ⟨[], i, is, rfl, trivial, hi⟩

/-- **Leaving out the silent inputs.** The answers stay the same when a relation between the states
of the two runs is kept by the passing of time, by silent inputs on one side, and by every other
input that is in order on both sides, which it answers alike where the condition holds. -/
theorem answers_filter {τ : Type*} [LE τ] (time : ι → τ) (loud : ι → Bool)
    (ok : ι → Prop) (cond : ι → σ → Prop) (related : τ → σ → σ → Prop)
    (hmono : ∀ x y s s', x ≤ y → related x s s' → related y s s')
    (hsilent : ∀ i s s', loud i = false → related (time i) s s' →
      (step i s').1 = none ∧ related (time i) s (step i s').2)
    (hloud : ∀ i s s', ok i → loud i = true → cond i s → related (time i) s s' →
      (step i s').1 = (step i s).1 ∧ related (time i) (step i s).2 (step i s').2)
    {s s' : σ} {is : List ι} (hstart : ∀ i ∈ is, related (time i) s s')
    (hsorted : (is.map time).Pairwise (· ≤ ·)) (hok : ∀ i ∈ is, ok i)
    (hcond : Throughout step cond s (is.filter loud)) :
    answers step s' is = answers step s (is.filter loud) := by
  induction is generalizing s s' with
  | nil => rfl
  | cons i is ih =>
    obtain ⟨hle, hrest⟩ := List.pairwise_cons.mp hsorted
    have hlater : ∀ {s s' : σ}, related (time i) s s' → ∀ j ∈ is, related (time j) s s' :=
      fun h j hj => hmono _ _ _ _ (hle _ (List.mem_map_of_mem hj)) h
    have hnow := hstart i (List.mem_cons_self ..)
    have hokRest : ∀ j ∈ is, ok j := fun j hj => hok j (List.mem_cons_of_mem _ hj)
    cases hi : loud i with
    | false =>
      rw [List.filter_cons_of_neg (by simp [hi])] at hcond ⊢
      obtain ⟨hnone, hnext⟩ := hsilent i s s' hi hnow
      rw [answers_cons, hnone]
      exact ih (hlater hnext) hrest hokRest hcond
    | true =>
      rw [List.filter_cons_of_pos hi] at hcond ⊢
      obtain ⟨hanswer, hnext⟩ := hloud i s s' (hok i (List.mem_cons_self ..)) hi hcond.1 hnow
      rw [answers_cons, answers_cons, hanswer, ih (hlater hnext) hrest hokRest hcond.2]

end Silent

end History

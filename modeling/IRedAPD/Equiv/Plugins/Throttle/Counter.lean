/-
  The counters of the tracking records over whole runs.

  A tracking record has two counters, `cur_msgs` and `cur_quota`, and a rule for
  each (`Counter`).  As long as no statement fails, both hold exactly what has
  been recorded since `init_time` (`Tracked`): a call that finds the window over
  starts a new one, later than everything recorded before.

  A counter is limited when no counted call raises it above the value of its
  rule (`Fits`).  Then what is accepted under the rule in any window the record
  has ever had is within that value (`limit_of_run`); calls that are recorded
  and not decided by the rule only raise the counter.
-/
import IRedAPD.Equiv.Plugins.Throttle.Step
import IRedAPD.History
import Mathlib.Algebra.Order.Group.Int
import Mathlib.Algebra.Ring.Int.Defs

namespace IRedAPD.Throttle

open Py History

variable [Unicode]

instance (o : Output) : Decidable o.Accepts := inferInstanceAs (Decidable (_ = _))

/-! ### Sums over a history -/

section Total

variable {amount : Args → ℤ} {p q : Call × Output → Bool} {h : List (Call × Output)}

/-- The sum of the amounts of the calls of a history that have a property. -/
def total (amount : Args → ℤ) (p : Call × Output → Bool) (h : List (Call × Output)) : ℤ :=
  ((h.filter p).map fun e => amount e.1.2).sum

omit [Unicode] in
theorem total_concat (amount : Args → ℤ) (p : Call × Output → Bool) (h : List (Call × Output))
    (e : Call × Output) :
    total amount p (h ++ [e]) = total amount p h + if p e then amount e.1.2 else 0 := by
  unfold total
  rw [List.filter_append, List.map_append, List.sum_append, List.filter_singleton]
  cases p e <;> simp

omit [Unicode] in
theorem total_eq_zero (hp : ∀ e ∈ h, p e = false) : total amount p h = 0 := by
  unfold total
  rw [List.filter_eq_nil_iff.mpr fun e he => by rw [hp e he]; exact Bool.false_ne_true]
  rfl

omit [Unicode] in
/-- More calls have no lower sum. -/
theorem total_mono (hamount : ∀ e ∈ h, 0 ≤ amount e.1.2)
    (hpq : ∀ e ∈ h, p e = true → q e = true) : total amount p h ≤ total amount q h := by
  induction h using List.reverseRecOn with
  | nil => exact le_refl _
  | append_singleton h e ih =>
    rw [total_concat, total_concat]
    have hrest := ih (fun e' he' => hamount e' (List.mem_append_left _ he'))
      fun e' he' => hpq e' (List.mem_append_left _ he')
    have he : e ∈ h ++ [e] := List.mem_append_right _ (List.mem_singleton.mpr rfl)
    have hnonneg := hamount e he
    have hpe := hpq e he
    cases hp : p e with
    | true =>
      rw [hpe hp, if_pos rfl]
      omega
    | false =>
      rw [if_neg Bool.false_ne_true]
      split_ifs <;> omega

end Total

/-! ### Counters -/

/-- A counter of the tracking records, with the rule that limits it. -/
structure Counter where
  rule : Rule
  amount : Args → ℤ
  current : Tracking → ℤ
  isTracked : rule.isTracked = true
  current_notify : ∀ (time : ℕ) (r : Tracking), current (r.notify time) = current r
  current_next_none : ∀ (now : ℕ) (args : Args) (rcd : Setting) (k : Str),
    current (rcd.next now args k none) = amount args
  current_next_some : ∀ (now : ℕ) (args : Args) (rcd : Setting) (k : Str) (r : Tracking),
    current (rcd.next now args k (some r)) =
      (if r.expired now rcd.period then 0 else current r) + amount args

/-- `cur_msgs` -/
def Counter.messages : Counter where
  rule := .maxMsgs
  amount := Args.recipientCount
  current := Tracking.curMsgs
  isTracked := rfl
  current_notify _ _ := rfl
  current_next_none _ _ _ _ := rfl
  current_next_some now args rcd k r := by
    unfold Setting.next
    simp only
    by_cases h : r.expired now rcd.period = true
    · rw [if_pos h, if_pos h]
      exact (zero_add _).symm
    · rw [if_neg h, if_neg h]

/-- `cur_quota` -/
def Counter.quota : Counter where
  rule := .maxQuota
  amount := Args.size
  current := Tracking.curQuota
  isTracked := rfl
  current_notify _ _ := rfl
  current_next_none _ _ _ _ := rfl
  current_next_some now args rcd k r := by
    unfold Setting.next
    simp only
    by_cases h : r.expired now rcd.period = true
    · rw [if_pos h, if_pos h]
      exact (zero_add _).symm
    · rw [if_neg h, if_neg h]

/-- What a check of the rule starts from. -/
def Counter.start (c : Counter) (now : ℕ) (rcd : Setting) (r : Option Tracking) : ℤ :=
  r.elim 0 fun r => if r.expired now rcd.period then 0 else c.current r

omit [Unicode] in
/-- Recording a message adds its amount. -/
theorem Counter.current_next (c : Counter) (now : ℕ) (args : Args) (rcd : Setting) (k : Str)
    (r : Option Tracking) :
    c.current (rcd.next now args k r) = c.start now rcd r + c.amount args := by
  cases r with
  | none => rw [c.current_next_none, Counter.start, Option.elim_none, zero_add]
  | some r => exact c.current_next_some now args rcd k r

section Runs

variable (settings : Settings) (throttle : List Setting) (rcd : Setting)

/-- An accepted call that is recorded for a setting, under this text. -/
def Records (k : Str) (e : Call × Output) : Prop :=
  e.2.Accepts ∧ TracksFor settings throttle e.1 rcd k

instance (call : Call) (k : Str) : Decidable (TracksFor settings throttle call rcd k) :=
  decidable_of_iff ((effective settings throttle call .maxMsgs = some rcd ∨
      effective settings throttle call .maxQuota = some rcd) ∧ trackKeyOf call.2 rcd.account = k) <| by
    constructor
    · rintro ⟨heff | heff, hk⟩
      · exact ⟨.maxMsgs, rfl, heff, hk⟩
      · exact ⟨.maxQuota, rfl, heff, hk⟩
    · rintro ⟨rule, hrule, heff, hk⟩
      cases rule with
      | msgSize => cases hrule
      | maxRcpts => cases hrule
      | maxMsgs => exact ⟨.inl heff, hk⟩
      | maxQuota => exact ⟨.inr heff, hk⟩

instance (k : Str) (e : Call × Output) : Decidable (Records settings throttle rcd k e) :=
  inferInstanceAs (Decidable (_ ∧ _))

/-- A call that is accepted under the rule of a counter as the setting decides it, tracked under this
text. -/
def Counter.Counts (c : Counter) (k : Str) (e : Call × Output) : Prop :=
  e.2.Accepts ∧ effective settings throttle e.1 c.rule = some rcd ∧ trackKeyOf e.1.2 rcd.account = k

instance (c : Counter) (k : Str) (e : Call × Output) : Decidable (c.Counts settings throttle rcd k e) :=
  inferInstanceAs (Decidable (_ ∧ _ ∧ _))

/-- What has been recorded for a setting from a time on. -/
def Counter.recordedFrom (c : Counter) (k : Str) (start : ℕ) (h : List (Call × Output)) : ℤ :=
  total c.amount (fun e => Records settings throttle rcd k e ∧ start ≤ e.1.1.now) h

/-- What has been accepted under the rule from a time on. -/
def Counter.countedFrom (c : Counter) (k : Str) (start : ℕ) (h : List (Call × Output)) : ℤ :=
  total c.amount (fun e => c.Counts settings throttle rcd k e ∧ start ≤ e.1.1.now) h

/-- What has been accepted under the rule between two times. -/
def Counter.countedWithin (c : Counter) (k : Str) (start stop : ℕ) (h : List (Call × Output)) : ℤ :=
  total c.amount (fun e => c.Counts settings throttle rcd k e ∧ start ≤ e.1.1.now ∧ e.1.1.now ≤ stop) h

/-- A record holds what has been recorded since `init_time`. -/
structure CurrentWindow (k : Str) (h : List (Call × Output)) (r : Tracking) : Prop where
  initTime_pos : r.initTime ≠ 0
  initTime_mem : ∃ e ∈ h, e.1.1.now = r.initTime
  within : ∀ e ∈ h, Records settings throttle rcd k e → e.1.1.now ≤ r.initTime + rcd.period
  current_eq : ∀ c : Counter, c.current r = c.recordedFrom settings throttle rcd k r.initTime h

/-- The invariant of the records of a setting. -/
structure Tracked (h : List (Call × Output)) (t : TrackingTable) : Prop where
  absent : ∀ k, t.find? (rcd.id, k) = none → ∀ e ∈ h, ¬ Records settings throttle rcd k e
  window : ∀ k id r, t.find? (rcd.id, k) = some (id, r) → CurrentWindow settings throttle rcd k h r

variable {settings throttle rcd}

theorem Counter.Counts.records {c : Counter} {k : Str} {e : Call × Output}
    (h : c.Counts settings throttle rcd k e) : Records settings throttle rcd k e :=
  ⟨h.1, c.rule, c.isTracked, h.2.1, h.2.2⟩

/-- A call that is not recorded leaves a sum as it is. -/
theorem Counter.recordedFrom_concat_of_not (c : Counter) {k : Str} {start : ℕ}
    {h : List (Call × Output)} {e : Call × Output} (he : ¬ Records settings throttle rcd k e) :
    c.recordedFrom settings throttle rcd k start (h ++ [e]) =
      c.recordedFrom settings throttle rcd k start h := by
  unfold Counter.recordedFrom
  rw [total_concat, if_neg (by simpa using fun hr => absurd hr he), add_zero]

theorem Counter.recordedFrom_concat_of_records (c : Counter) {k : Str} {start : ℕ}
    {h : List (Call × Output)} {e : Call × Output} (he : Records settings throttle rcd k e)
    (hstart : start ≤ e.1.1.now) :
    c.recordedFrom settings throttle rcd k start (h ++ [e]) =
      c.recordedFrom settings throttle rcd k start h + c.amount e.1.2 := by
  unfold Counter.recordedFrom
  rw [total_concat, if_pos (by simpa using ⟨he, hstart⟩)]

/-- A call that is not counted leaves a sum as it is. -/
theorem Counter.countedFrom_concat_of_not (c : Counter) {k : Str} {start : ℕ}
    {h : List (Call × Output)} {e : Call × Output} (he : ¬ c.Counts settings throttle rcd k e) :
    c.countedFrom settings throttle rcd k start (h ++ [e]) =
      c.countedFrom settings throttle rcd k start h := by
  unfold Counter.countedFrom
  rw [total_concat, if_neg (by simpa using fun hc => absurd hc he), add_zero]

theorem Counter.countedFrom_concat_of_counts (c : Counter) {k : Str} {start : ℕ}
    {h : List (Call × Output)} {e : Call × Output} (he : c.Counts settings throttle rcd k e)
    (hstart : start ≤ e.1.1.now) :
    c.countedFrom settings throttle rcd k start (h ++ [e]) =
      c.countedFrom settings throttle rcd k start h + c.amount e.1.2 := by
  unfold Counter.countedFrom
  rw [total_concat, if_pos (by simpa using ⟨he, hstart⟩)]

/-- A call that is not counted, or later than the window, leaves its sum as it is. -/
theorem Counter.countedWithin_concat (c : Counter) {k : Str} {start stop : ℕ}
    {h : List (Call × Output)} {e : Call × Output}
    (he : c.Counts settings throttle rcd k e → stop < e.1.1.now) :
    c.countedWithin settings throttle rcd k start stop (h ++ [e]) =
      c.countedWithin settings throttle rcd k start stop h := by
  unfold Counter.countedWithin
  rw [total_concat, if_neg, add_zero]
  rw [decide_eq_true_eq]
  rintro ⟨hc, -, hstop⟩
  have := he hc
  omega

/-- A window holds no more than what has been accepted since its start. -/
theorem Counter.countedWithin_le (c : Counter) (k : Str) (start stop : ℕ) {h : List (Call × Output)}
    (hamount : ∀ e ∈ h, 0 ≤ c.amount e.1.2) :
    c.countedWithin settings throttle rcd k start stop h ≤
      c.countedFrom settings throttle rcd k start h :=
  total_mono hamount fun e _ hp => by
    rw [decide_eq_true_eq] at hp ⊢
    exact ⟨hp.1, hp.2.1⟩

/-- What is accepted under the rule is recorded. -/
theorem Counter.countedFrom_le (c : Counter) (k : Str) (start : ℕ) {h : List (Call × Output)}
    (hamount : ∀ e ∈ h, 0 ≤ c.amount e.1.2) :
    c.countedFrom settings throttle rcd k start h ≤ c.recordedFrom settings throttle rcd k start h :=
  total_mono hamount fun e _ hp => by
    rw [decide_eq_true_eq] at hp ⊢
    exact ⟨hp.1.records, hp.2⟩

/-! ### Exact counters -/

/-- A new window starts with the message that is recorded. -/
theorem currentWindow_of_new {k : Str} {h : List (Call × Output)} {e : Call × Output} {r : Tracking}
    (hle : ∀ e' ∈ h, e'.1.1.now ≤ e.1.1.now) (he : Records settings throttle rcd k e)
    (hinit : r.initTime = e.1.1.now) (hcur : ∀ c : Counter, c.current r = c.amount e.1.2)
    (hold : ∀ e' ∈ h, Records settings throttle rcd k e' → e'.1.1.now < e.1.1.now) :
    CurrentWindow settings throttle rcd k (h ++ [e]) r := by
  have hlast : e ∈ h ++ [e] := List.mem_append_right _ (List.mem_singleton.mpr rfl)
  refine ⟨?_, ⟨e, hlast, hinit.symm⟩, ?_, fun c => ?_⟩
  · rw [hinit]
    exact Nat.pos_iff_ne_zero.mp e.1.1.now_pos
  · intro e' he' _
    rw [hinit]
    rcases List.mem_append.mp he' with he' | he'
    · have := hle e' he'
      omega
    · rw [List.mem_singleton.mp he']
      omega
  · have hzero : c.recordedFrom settings throttle rcd k e.1.1.now h = 0 := by
      refine total_eq_zero fun e' he' => ?_
      rw [decide_eq_false_iff_not]
      rintro ⟨hr, hstart⟩
      have := hold e' he' hr
      omega
    rw [hinit, hcur, c.recordedFrom_concat_of_records he (le_refl _), hzero, zero_add]

/-- A window that is not over counts the message that is recorded. -/
theorem CurrentWindow.add {k : Str} {h : List (Call × Output)} {e : Call × Output} {r r' : Tracking}
    (hr : CurrentWindow settings throttle rcd k h r) (hle : ∀ e' ∈ h, e'.1.1.now ≤ e.1.1.now)
    (he : Records settings throttle rcd k e) (hlive : e.1.1.now ≤ r.initTime + rcd.period)
    (hinit : r'.initTime = r.initTime)
    (hcur : ∀ c : Counter, c.current r' = c.current r + c.amount e.1.2) :
    CurrentWindow settings throttle rcd k (h ++ [e]) r' := by
  obtain ⟨e₀, he₀, hinit₀⟩ := hr.initTime_mem
  have hstart : r.initTime ≤ e.1.1.now := by
    have := hle e₀ he₀
    omega
  refine ⟨by rw [hinit]; exact hr.initTime_pos, ⟨e₀, List.mem_append_left _ he₀, ?_⟩, ?_, fun c => ?_⟩
  · rw [hinit, hinit₀]
  · intro e' he' hrecords
    rw [hinit]
    rcases List.mem_append.mp he' with he' | he'
    · exact hr.within e' he' hrecords
    · rw [List.mem_singleton.mp he']
      exact hlive
  · rw [hinit, hcur, hr.current_eq, c.recordedFrom_concat_of_records he hstart]

/-- A call that is not recorded leaves the record as it is. -/
theorem CurrentWindow.of_not {k : Str} {h : List (Call × Output)} {e : Call × Output}
    {r r' : Tracking} (hr : CurrentWindow settings throttle rcd k h r)
    (he : ¬ Records settings throttle rcd k e) (hinit : r'.initTime = r.initTime)
    (hcur : ∀ c : Counter, c.current r' = c.current r) :
    CurrentWindow settings throttle rcd k (h ++ [e]) r' := by
  obtain ⟨e₀, he₀, hinit₀⟩ := hr.initTime_mem
  refine ⟨by rw [hinit]; exact hr.initTime_pos, ⟨e₀, List.mem_append_left _ he₀, ?_⟩, ?_, fun c => ?_⟩
  · rw [hinit, hinit₀]
  · intro e' he' hrecords
    rw [hinit]
    rcases List.mem_append.mp he' with he' | he'
    · exact hr.within e' he' hrecords
    · rw [List.mem_singleton.mp he'] at hrecords
      exact absurd hrecords he
  · rw [hinit, hcur, hr.current_eq, c.recordedFrom_concat_of_not he]

omit [Unicode] in
/-- Records that differ in the time of a notification have the same counters. -/
theorem Counter.current_of_core (c : Counter) {row row' : ℕ × Tracking} (h : core row = core row') :
    c.current row.2 = c.current row'.2 := by
  have hfields := congrArg (fun row => c.current row.2) h
  simpa only [core, c.current_notify] using hfields

omit [Unicode] in
theorem initTime_of_core {row row' : ℕ × Tracking} (h : core row = core row') :
    row.2.initTime = row'.2.initTime :=
  congrArg (fun row => row.2.initTime) h

section Step

variable (hids : (throttle.map (·.id)).Nodup) (hrcd : rcd ∈ throttle) {h : List (Call × Output)}
  {t : TrackingTable} {call : Call}
  (hagrees : ∀ rule, rule.isTracked = true → effective settings throttle call rule = some rcd →
    Agrees t call.2 rcd)
  (hfailed : (applyThrottle settings throttle call t).1.failed = [])
  (hinv : Tracked settings throttle rcd h t)

include hids hrcd hagrees hfailed hinv

/-- What a call does to the record of a setting whose records are as they should be: it is inserted,
starts a new window, counts the message, or stays as it is but for a notification. -/
theorem record_cases {k : Str} {id : ℕ} {r : Tracking}
    (hsome : (applyThrottle settings throttle call t).2.find? (rcd.id, k) = some (id, r)) :
    (Records settings throttle rcd k (call, (applyThrottle settings throttle call t).1) ∧
      r.initTime = call.1.now ∧ (∀ c : Counter, c.current r = c.amount call.2) ∧
      (∀ c : Counter, c.start call.1.now rcd ((t.find? (rcd.id, k)).map Prod.snd) = 0) ∧
      ∀ r', (t.find? (rcd.id, k)).map Prod.snd = some r' → r'.initTime + rcd.period < call.1.now) ∨
    (∃ id' r', t.find? (rcd.id, k) = some (id', r') ∧
      Records settings throttle rcd k (call, (applyThrottle settings throttle call t).1) ∧
      call.1.now ≤ r'.initTime + rcd.period ∧ r.initTime = r'.initTime ∧
      (∀ c : Counter, c.current r = c.current r' + c.amount call.2) ∧
      ∀ c : Counter, c.start call.1.now rcd (some r') = c.current r') ∨
    ∃ id' r', t.find? (rcd.id, k) = some (id', r') ∧
      ¬ Records settings throttle rcd k (call, (applyThrottle settings throttle call t).1) ∧
      r.initTime = r'.initTime ∧ ∀ c : Counter, c.current r = c.current r' := by
  rcases setting_cases_of_agrees hids hrcd hagrees hfailed k with ⟨haccepts, hrec⟩ | ⟨hsame, hnot⟩
  · have hrow : r = rcd.next call.1.now call.2 k ((t.find? (rcd.id, k)).map Prod.snd) := by
      have hrow := hrec.row
      rw [hsome] at hrow
      exact Option.some.inj hrow
    have hrecords : Records settings throttle rcd k
        (call, (applyThrottle settings throttle call t).1) := ⟨haccepts, hrec.tracks⟩
    have hcur : ∀ c : Counter, c.current r =
        c.start call.1.now rcd ((t.find? (rcd.id, k)).map Prod.snd) + c.amount call.2 := by
      intro c
      rw [hrow, c.current_next]
    cases hold : t.find? (rcd.id, k) with
    | none =>
      rw [hold, Option.map_none] at hrow hcur
      refine .inl ⟨hrecords, by rw [hrow]; rfl, fun c => ?_, fun c => rfl, fun r' hr' => ?_⟩
      · rw [hcur c]
        exact zero_add _
      · cases hr'
    | some row =>
      obtain ⟨id', r'⟩ := row
      rw [hold, Option.map_some] at hrow hcur
      have hr' := hinv.window k id' r' hold
      simp only [Setting.next] at hrow
      -- a window that has ended starts again, one that runs counts on
      by_cases hexpired : r'.expired call.1.now rcd.period = true
      · rw [if_pos hexpired] at hrow
        have hstart : ∀ c : Counter, c.start call.1.now rcd (some r') = 0 := fun c => if_pos hexpired
        refine .inl ⟨hrecords, by rw [hrow], fun c => ?_, hstart, fun r'' hr'' => ?_⟩
        · rw [hcur c, hstart c, zero_add]
        · rw [← Option.some.inj hr'']
          exact (of_decide_eq_true hexpired).2.2
      · rw [if_neg hexpired] at hrow
        have hstart : ∀ c : Counter, c.start call.1.now rcd (some r') = c.current r' :=
          fun c => if_neg hexpired
        have hlive : call.1.now ≤ r'.initTime + rcd.period := by
          by_contra hlt
          exact hexpired (decide_eq_true ⟨hrec.period_ne, hr'.initTime_pos, by omega⟩)
        refine .inr (.inl ⟨id', r', rfl, hrecords, hlive, ?_, fun c => ?_, hstart⟩)
        · rw [hrow]
          exact if_neg hr'.initTime_pos
        · rw [hcur c, hstart c]
  · rw [hsome, Option.map_some] at hsame
    obtain ⟨⟨id', r'⟩, hold, hcore⟩ := Option.map_eq_some_iff.mp hsame.symm
    exact .inr (.inr ⟨id', r', hold, hnot, (initTime_of_core hcore).symm,
      fun c => (c.current_of_core hcore).symm⟩)

/-- **One call keeps the counters exact.** -/
theorem tracked_step (hle : ∀ e ∈ h, e.1.1.now ≤ call.1.now) :
    Tracked settings throttle rcd (h ++ [(call, (applyThrottle settings throttle call t).1)])
      (applyThrottle settings throttle call t).2 := by
  refine ⟨?_, ?_⟩
  · intro k hnone
    rcases setting_cases_of_agrees hids hrcd hagrees hfailed k with ⟨-, hrec⟩ | ⟨hsame, hnot⟩
    · have hrow := hrec.row
      rw [hnone] at hrow
      cases hrow
    · rw [hnone, Option.map_none] at hsame
      intro e he hr
      rcases List.mem_append.mp he with he | he
      · exact hinv.absent k (Option.map_eq_none_iff.mp hsame.symm) e he hr
      · rw [List.mem_singleton.mp he] at hr
        exact hnot hr
  · intro k id r hsome
    rcases record_cases hids hrcd hagrees hfailed hinv hsome with
      ⟨hrecords, hinit, hcur, -, hover⟩ | ⟨id', r', hold, hrecords, hlive, hinit, hcur, -⟩ |
      ⟨id', r', hold, hnot, hinit, hcur⟩
    · refine currentWindow_of_new hle hrecords hinit hcur fun e he hr => ?_
      cases hold : t.find? (rcd.id, k) with
      | none => exact absurd hr (hinv.absent k hold e he)
      | some row =>
        -- the old window holds all that has been recorded
        have hwithin := (hinv.window k row.1 row.2 hold).within e he hr
        have hlt := hover row.2 (by rw [hold]; rfl)
        have hnow : (call, (applyThrottle settings throttle call t).1).1.1.now = call.1.now := rfl
        omega
    · exact (hinv.window k id' r' hold).add hle hrecords hlive hinit hcur
    · exact (hinv.window k id' r' hold).of_not hnot hinit hcur

end Step

/-! ### Limits -/

variable (settings throttle rcd) in
/-- A call that is accepted under the rule keeps the counter within its value. -/
def Counter.Fits (c : Counter) (call : Call) (t : TrackingTable) : Prop :=
  ∀ k, c.Counts settings throttle rcd k (call, (applyThrottle settings throttle call t).1) →
    c.start call.1.now rcd ((t.find? (rcd.id, k)).map Prod.snd) + c.amount call.2 ≤ c.rule.value rcd

variable (settings throttle rcd) in
/-- The invariant of a counter that is limited. -/
structure Limited (c : Counter) (h : List (Call × Output)) (t : TrackingTable) : Prop where
  amount_nonneg : ∀ e ∈ h, 0 ≤ c.amount e.1.2
  tracked : Tracked settings throttle rcd h t
  le_value : ∀ k id r, t.find? (rcd.id, k) = some (id, r) →
    c.countedFrom settings throttle rcd k r.initTime h ≤ c.rule.value rcd

variable (settings throttle rcd) in
/-- A window the record once had: it is the current one, or it is over and has kept the limit. -/
def HadWindow (c : Counter) (k : Str) (start : ℕ) (h : List (Call × Output)) (t : TrackingTable) :
    Prop :=
  ∃ id r, t.find? (rcd.id, k) = some (id, r) ∧ (r.initTime = start ∨
    (start + rcd.period < r.initTime ∧ c.countedWithin settings throttle rcd k start
      (start + rcd.period) h ≤ c.rule.value rcd))

/-- Nothing has been accepted in a window that starts after the one of the record. -/
theorem Tracked.countedFrom_eq_zero {h : List (Call × Output)} {t : TrackingTable}
    (hinv : Tracked settings throttle rcd h t) (c : Counter) {k : Str} {start : ℕ}
    (hover : ∀ r, (t.find? (rcd.id, k)).map Prod.snd = some r → r.initTime + rcd.period < start) :
    c.countedFrom settings throttle rcd k start h = 0 := by
  refine total_eq_zero fun e he => ?_
  rw [decide_eq_false_iff_not]
  rintro ⟨hc, hlater⟩
  cases hold : t.find? (rcd.id, k) with
  | none => exact hinv.absent k hold e he hc.records
  | some row =>
    have hwithin := (hinv.window k row.1 row.2 hold).within e he hc.records
    have hlt := hover row.2 (by rw [hold]; rfl)
    omega

section Step

variable (hids : (throttle.map (·.id)).Nodup) (hrcd : rcd ∈ throttle) {h : List (Call × Output)}
  {t : TrackingTable} {call : Call}
  (hagrees : ∀ rule, rule.isTracked = true → effective settings throttle call rule = some rcd →
    Agrees t call.2 rcd)
  (hfailed : (applyThrottle settings throttle call t).1.failed = []) {c : Counter}
  (hinv : Limited settings throttle rcd c h t) (hle : ∀ e ∈ h, e.1.1.now ≤ call.1.now)

include hids hrcd hagrees hfailed hinv hle

/-- **One call keeps a counter limited.** -/
theorem limited_step (hvalue : 0 ≤ c.rule.value rcd) (hamount : 0 ≤ c.amount call.2)
    (hfits : c.Fits settings throttle rcd call t) :
    Limited settings throttle rcd c (h ++ [(call, (applyThrottle settings throttle call t).1)])
      (applyThrottle settings throttle call t).2 := by
  set e : Call × Output := (call, (applyThrottle settings throttle call t).1)
  refine ⟨?_, tracked_step hids hrcd hagrees hfailed hinv.tracked hle, ?_⟩
  · intro e' he'
    rcases List.mem_append.mp he' with he' | he'
    · exact hinv.amount_nonneg e' he'
    · rw [List.mem_singleton.mp he']
      exact hamount
  · intro k id r hsome
    by_cases hcounts : c.Counts settings throttle rcd k e
    · have hlimit := hfits k hcounts
      rcases record_cases hids hrcd hagrees hfailed hinv.tracked hsome with
        ⟨-, hinit, -, hstart, hover⟩ | ⟨id', r', hold, -, hlive, hinit, -, hstart⟩ |
        ⟨-, -, -, hnot, -⟩
      · have hzero := hinv.tracked.countedFrom_eq_zero c hover
        rw [hstart c, zero_add] at hlimit
        rw [hinit, c.countedFrom_concat_of_counts hcounts (le_refl _), hzero, zero_add]
        exact hlimit
      · have hr' := hinv.tracked.window k id' r' hold
        have hcounted : c.countedFrom settings throttle rcd k r'.initTime h ≤ c.current r' := by
          rw [hr'.current_eq c]
          exact c.countedFrom_le k r'.initTime hinv.amount_nonneg
        obtain ⟨e₀, he₀, hinit₀⟩ := hr'.initTime_mem
        have hbegun : r'.initTime ≤ e.1.1.now := hinit₀ ▸ hle e₀ he₀
        rw [hold, Option.map_some, hstart c] at hlimit
        rw [hinit, c.countedFrom_concat_of_counts hcounts hbegun]
        exact le_trans (add_le_add_left hcounted _) hlimit
      · exact absurd hcounts.records hnot
    · rw [c.countedFrom_concat_of_not hcounts]
      rcases record_cases hids hrcd hagrees hfailed hinv.tracked hsome with
        ⟨-, hinit, -, -, hover⟩ | ⟨id', r', hold, -, -, hinit, -⟩ | ⟨id', r', hold, -, hinit, -⟩
      · -- nothing has been accepted in the window that the call starts
        rw [hinit, hinv.tracked.countedFrom_eq_zero c hover]
        exact hvalue
      · rw [hinit]
        exact hinv.le_value k id' r' hold
      · rw [hinit]
        exact hinv.le_value k id' r' hold

/-- **One call keeps the windows a record once had.** -/
theorem hadWindow_step {k : Str} {start : ℕ}
    (hwindow : HadWindow settings throttle rcd c k start h t) :
    HadWindow settings throttle rcd c k start
      (h ++ [(call, (applyThrottle settings throttle call t).1)])
      (applyThrottle settings throttle call t).2 := by
  set e : Call × Output := (call, (applyThrottle settings throttle call t).1) with he
  have hnow : e.1.1.now = call.1.now := rfl
  obtain ⟨id₀, r₀, hold₀, hstart⟩ := hwindow
  have hr₀ := hinv.tracked.window k id₀ r₀ hold₀
  obtain ⟨e₀, he₀, hinit₀⟩ := hr₀.initTime_mem
  have hbegun : r₀.initTime ≤ call.1.now := hinit₀ ▸ hle e₀ he₀
  obtain ⟨⟨id, r⟩, hsome⟩ : ∃ row,
      (applyThrottle settings throttle call t).2.find? (rcd.id, k) = some row := by
    rcases setting_cases_of_agrees hids hrcd hagrees hfailed k with
      ⟨-, hrec⟩ | ⟨hsame, -⟩
    · obtain ⟨row, hrow, -⟩ := Option.map_eq_some_iff.mp hrec.row
      exact ⟨row, hrow⟩
    · rw [hold₀, Option.map_some] at hsame
      obtain ⟨row, hrow, -⟩ := Option.map_eq_some_iff.mp hsame
      exact ⟨row, hrow⟩
  refine ⟨id, r, hsome, ?_⟩
  rcases record_cases hids hrcd hagrees hfailed hinv.tracked hsome with
    ⟨-, hinit, -, -, hover⟩ | ⟨id', r', hold, -, -, hinit, -⟩ | ⟨id', r', hold, hnot, hinit, -⟩
  · -- the new window starts after the old one, and so after all earlier ones
    have hlt := hover r₀ (by rw [hold₀]; rfl)
    refine .inr ?_
    rcases hstart with hstart | ⟨hlater, hkept⟩
    · rw [c.countedWithin_concat (fun _ => by omega)]
      refine ⟨by omega, le_trans (c.countedWithin_le k start _ hinv.amount_nonneg) ?_⟩
      rw [← hstart]
      exact hinv.le_value k id₀ r₀ hold₀
    · rw [c.countedWithin_concat (fun _ => by omega)]
      exact ⟨by omega, hkept⟩
  · -- the same window, with more in it or not
    rw [hold₀] at hold
    cases hold
    rw [hinit]
    rcases hstart with hstart | ⟨hlater, hkept⟩
    · exact .inl hstart
    · rw [c.countedWithin_concat (fun _ => by omega)]
      exact .inr ⟨hlater, hkept⟩
  · rw [hold₀] at hold
    cases hold
    rw [hinit, c.countedWithin_concat fun hc => absurd hc.records hnot]
    exact hstart

end Step

end Runs

/-! ### Runs -/

theorem map_now_history (settings : Settings) (throttle : List Setting) (t : TrackingTable)
    (calls : List Call) :
    (history (applyThrottle settings throttle) t calls).map (fun e => e.1.1.now) =
      calls.map (fun call => call.1.now) := by
  have hcalls := congrArg (List.map fun call : Call => call.1.now)
    (map_fst_history (applyThrottle settings throttle) t calls)
  rw [List.map_map] at hcalls
  exact hcalls

section

variable (settings : Settings) {throttle : List Setting} (hids : (throttle.map (·.id)).Nodup)
  {rcd : Setting} (hrcd : rcd ∈ throttle) (hkind : rcd.TracksClient ∨ rcd.TracksUser)

theorem tracked_empty : Tracked settings throttle rcd [] (Sql.Table.empty : TrackingTable) where
  absent k _ e he := absurd he List.not_mem_nil
  window k id r hrow := by cases hrow

/-- A call from a client, without a failing statement. -/
def Succeeds (e : Call × Output) : Prop :=
  IsClientAddress e.1.2.clientAddress ∧ e.2.failed = []

include hids hrcd hkind

/-- **The limit of a counter over whole runs.** When every call meets a condition under which it
succeeds and keeps the counter within the value of its rule, the window a tracking record has at some
point of the run holds no more than that value of what is accepted, in the whole run, under the rule
as the setting decides it. -/
theorem limit_of_run (c : Counter) (hvalue : 0 ≤ c.rule.value rcd)
    (cond : Call → TrackingTable → Prop)
    (hfits : ∀ call t, KeysOf rcd t → cond call t →
      Succeeds (call, (applyThrottle settings throttle call t).1) ∧ 0 ≤ c.amount call.2 ∧
        c.Fits settings throttle rcd call t)
    {before later : List Call}
    (hsorted : ((before ++ later).map (·.1.now)).Pairwise (· ≤ ·))
    (hcond : Throughout (applyThrottle settings throttle) cond Sql.Table.empty (before ++ later))
    {k : Str} {id : ℕ} {r : Tracking}
    (hrow : (after (applyThrottle settings throttle) Sql.Table.empty before).find? (rcd.id, k) =
      some (id, r)) :
    c.countedWithin settings throttle rcd k r.initTime (r.initTime + rcd.period)
        (history (applyThrottle settings throttle) Sql.Table.empty (before ++ later)) ≤
      c.rule.value rcd := by
  set step := applyThrottle settings throttle
  obtain ⟨hbefore, hlater⟩ := throughout_append.mp hcond
  rw [history_append]
  set h := history step Sql.Table.empty before with hh
  set t := after step Sql.Table.empty before
  rw [List.map_append] at hsorted
  have hstart : Limited settings throttle rcd c [] (Sql.Table.empty : TrackingTable) :=
    { amount_nonneg := fun e he => absurd he List.not_mem_nil
      tracked := tracked_empty settings
      le_value := fun k id r hrow => by cases hrow }
  have hstep : ∀ h t (call : Call), (∀ e ∈ h, e.1.1.now ≤ call.1.now) → cond call t →
      KeysOf rcd t ∧ Limited settings throttle rcd c h t →
      (KeysOf rcd (step call t).2 ∧
        Limited settings throttle rcd c (h ++ [(call, (step call t).1)]) (step call t).2) ∧
      ∀ k start, HadWindow settings throttle rcd c k start h t →
        HadWindow settings throttle rcd c k start (h ++ [(call, (step call t).1)])
          (step call t).2 := by
    rintro h t call hle hok ⟨hkeys, hinv⟩
    obtain ⟨⟨hclient, hfailed⟩, hamount, hfit⟩ := hfits call t hkeys hok
    have hagrees : ∀ rule, rule.isTracked = true →
        effective settings throttle call rule = some rcd → Agrees t call.2 rcd :=
      fun _ _ heff => agrees_of_keysOf heff hkind hclient hkeys
    exact ⟨⟨keysOf_step hids hrcd hkind hclient hkeys hfailed,
      limited_step hids hrcd hagrees hfailed hinv hle hvalue hamount hfit⟩,
      fun k start hwindow => hadWindow_step hids hrcd hagrees hfailed hinv hle hwindow⟩
  have hinv : KeysOf rcd t ∧ Limited settings throttle rcd c h t :=
    invariant_throughout (fun call : Call => call.1.now) cond
      (fun h t => KeysOf rcd t ∧ Limited settings throttle rcd c h t)
      (fun h t call hle hok hinv => (hstep h t call hle hok hinv).1)
      ⟨keysOf_empty rcd, hstart⟩ (List.pairwise_append.mp hsorted).1 hbefore
  -- from here on the window is one the record once had
  have htimes : h.map (fun e => e.1.1.now) = before.map (fun call => call.1.now) :=
    map_now_history settings throttle _ _
  have hend := invariant_throughout (fun call : Call => call.1.now) cond
    (fun h t => (KeysOf rcd t ∧ Limited settings throttle rcd c h t) ∧
      HadWindow settings throttle rcd c k r.initTime h t)
    (fun h t call hle hok hinv => ⟨(hstep h t call hle hok hinv.1).1,
      (hstep h t call hle hok hinv.1).2 k r.initTime hinv.2⟩)
    (h := h) (s := t) ⟨hinv, id, r, hrow, .inl rfl⟩ (by rw [htimes]; exact hsorted) hlater
  obtain ⟨⟨-, hlimited⟩, id', r', hrow', hcases⟩ := hend
  rcases hcases with hsame | ⟨-, hkept⟩
  · have hlimit := hlimited.le_value k id' r' hrow'
    rw [hsame] at hlimit
    exact le_trans (c.countedWithin_le k _ _ hlimited.amount_nonneg) hlimit
  · exact hkept

end

end IRedAPD.Throttle

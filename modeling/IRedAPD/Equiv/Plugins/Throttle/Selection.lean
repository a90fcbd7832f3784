/-
  Which throttle setting decides a rule.

  The loop over `throttle_records` gives every rule to the first record with a
  period and a non-negative value for it, whatever the other rules are
  (`valid_selection`); the tracking query asks for the pairs of a record with
  the client, and for those of a deciding record with the user.
-/
import IRedAPD.Plugins.Throttle

namespace IRedAPD.Throttle

open Py

variable [Unicode]

/-- The value of `t_settings` for a rule that a record decides. -/
def Setting.ofRule (rcd : Setting) (rule : Rule) : TSetting :=
  { tid := rcd.id, account := rcd.account, value := rule.value rcd, period := rcd.period }

/-- A record that decides a rule, unless an earlier one does. -/
def Setting.decides (rcd : Setting) (rule : Rule) : Bool :=
  rcd.period ≠ 0 ∧ 0 ≤ rule.value rcd

/-- The state of the loop: `seen` are the records so far, and `decider` those that decide a rule. -/
structure Selection.Valid (user clientAddress : Str) (seen : List Setting)
    (decider : Rule → Option Setting) (sel : Selection) : Prop where
  nodup : (sel.tSettings.map Prod.fst).Nodup
  settings : ∀ rule, sel.tSettings.get? rule = (decider rule).map (·.ofRule rule)
  continueCheck : ∀ rule, sel.continueCheck rule = (decider rule).isNone
  mem_seen : ∀ rule rcd, decider rule = some rcd → rcd ∈ seen
  ids : ∀ rule rcd, decider rule = some rcd → sel.tSettingIds.get? rcd.id = some rcd.account
  rules : ∀ tid account rule, rule ∈ (sel.tSettingRules.get? (tid, account)).getD [] ↔
    ∃ rcd, decider rule = some rcd ∧ rcd.id = tid ∧ rcd.account = account
  where_iff : ∀ p, p ∈ sel.trackingSqlWhere ↔
    (∃ rcd ∈ seen, rcd.period ≠ 0 ∧ p = (rcd.id, clientAddress)) ∨
      ∃ rule rcd, decider rule = some rcd ∧ p = (rcd.id, user)

/-- The decider of a rule once a record has been tried. -/
def decideBy (decider : Rule → Option Setting) (rcd : Setting) (rule : Rule) : Rule → Option Setting :=
  if (decider rule).isNone && decide (0 ≤ rule.value rcd) then Function.update decider rule (some rcd)
  else decider

omit [Unicode] in
/-- One rule of a record. -/
theorem Selection.Valid.takeRule {user clientAddress : Str} {seen : List Setting}
    {decider : Rule → Option Setting} {sel : Selection}
    (h : sel.Valid user clientAddress seen decider) {rcd : Setting} (hseen : rcd ∈ seen)
    (hid : sel.tSettingIds.get? rcd.id = some rcd.account) (rule : Rule) :
    (sel.takeRule user rcd rule).Valid user clientAddress seen (decideBy decider rcd rule) ∧
      (sel.takeRule user rcd rule).tSettingIds.get? rcd.id = some rcd.account := by
  unfold Selection.takeRule decideBy
  rw [h.continueCheck rule]
  split_ifs with htake
  · have hnone : decider rule = none := by simpa using (Bool.and_eq_true_iff.mp htake).1
    refine ⟨?_, hid⟩
    constructor
    · exact Dict.nodup_keys_set h.nodup _ _
    · intro rule'
      rw [Dict.get?_set]
      by_cases hr : rule = rule'
      · subst hr
        rw [if_pos rfl, Function.update_self]
        rfl
      · rw [if_neg hr, Function.update_of_ne (Ne.symm hr), h.settings]
    · intro rule'
      by_cases hr : rule' = rule
      · subst hr
        simp only [Function.update_self, Option.isNone_some]
      · simp only [Function.update_of_ne hr, h.continueCheck]
    · intro rule' rcd' hrcd'
      by_cases hr : rule' = rule
      · subst hr
        rw [Function.update_self] at hrcd'
        rw [← Option.some.inj hrcd']
        exact hseen
      · rw [Function.update_of_ne hr] at hrcd'
        exact h.mem_seen rule' rcd' hrcd'
    · intro rule' rcd' hrcd'
      by_cases hr : rule' = rule
      · subst hr
        rw [Function.update_self] at hrcd'
        rw [← Option.some.inj hrcd']
        exact hid
      · rw [Function.update_of_ne hr] at hrcd'
        exact h.ids rule' rcd' hrcd'
    · -- the rules listed under a setting: the one that it has just decided is new
      intro tid account rule'
      rw [Dict.get?_set]
      by_cases hkey : (rcd.id, rcd.account) = (tid, account)
      · obtain ⟨rfl, rfl⟩ := Prod.mk.inj hkey
        rw [if_pos rfl, Option.getD_some, List.mem_append, h.rules, List.mem_singleton]
        by_cases hr : rule' = rule
        · subst hr
          rw [Function.update_self]
          exact iff_of_true (.inr rfl) ⟨rcd, rfl, rfl, rfl⟩
        · rw [Function.update_of_ne hr]
          exact or_iff_left hr
      · rw [if_neg hkey, h.rules]
        by_cases hr : rule' = rule
        · subst hr
          rw [Function.update_self, hnone]
          refine iff_of_false (by simp) ?_
          rintro ⟨rcd', hrcd', rfl, rfl⟩
          rw [← Option.some.inj hrcd'] at hkey
          exact hkey rfl
        · rw [Function.update_of_ne hr]
    · intro p
      rw [List.mem_append, h.where_iff, List.mem_singleton, or_assoc]
      refine or_congr_right ?_
      constructor
      · rintro (⟨rule', rcd', hrcd', hp⟩ | hp)
        · -- the rule was undecided, so an earlier record decided another one
          have hr : rule' ≠ rule := by
            rintro rfl
            rw [hnone] at hrcd'
            cases hrcd'
          exact ⟨rule', rcd', by rw [Function.update_of_ne hr]; exact hrcd', hp⟩
        · exact ⟨rule, rcd, by rw [Function.update_self], hp⟩
      · rintro ⟨rule', rcd', hrcd', hp⟩
        by_cases hr : rule' = rule
        · subst hr
          rw [Function.update_self] at hrcd'
          rw [← Option.some.inj hrcd'] at hp
          exact .inr hp
        · rw [Function.update_of_ne hr] at hrcd'
          exact .inl ⟨rule', rcd', hrcd', hp⟩
  · exact ⟨h, hid⟩

omit [Unicode] in
/-- The decider after one rule. -/
theorem decideBy_apply (decider : Rule → Option Setting) (rcd : Setting) (rule rule' : Rule) :
    decideBy decider rcd rule rule' =
      if rule' = rule then (decider rule').or (if 0 ≤ rule'.value rcd then some rcd else none)
      else decider rule' := by
  unfold decideBy
  by_cases hr : rule' = rule
  · subst hr
    rw [if_pos rfl]
    cases hd : decider rule' with
    | none =>
      by_cases hv : 0 ≤ rule'.value rcd
      · simp [hv]
      · simp [hv, hd]
    | some d => simp [hd]
  · rw [if_neg hr]
    split_ifs
    · exact Function.update_of_ne hr _ _
    · rfl

omit [Unicode] in
/-- The decider after some rules. -/
theorem foldl_decideBy (decider : Rule → Option Setting) (rcd : Setting) (rules : List Rule)
    (rule : Rule) :
    rules.foldl (decideBy · rcd) decider rule =
      if rule ∈ rules then (decider rule).or (if 0 ≤ rule.value rcd then some rcd else none)
      else decider rule := by
  induction rules generalizing decider with
  | nil => simp
  | cons r rules ih =>
    rw [List.foldl_cons, ih, decideBy_apply]
    by_cases hr : rule = r
    · subst hr
      rw [if_pos rfl, if_pos (List.mem_cons_self ..)]
      -- a rule that has been tried is not decided again
      split_ifs <;> simp
    · rw [if_neg hr]
      simp only [List.mem_cons, hr, false_or]

omit [Unicode] in
/-- Several rules of a record. -/
theorem Selection.Valid.takeRules {user clientAddress : Str} {seen : List Setting}
    {decider : Rule → Option Setting} {sel : Selection}
    (h : sel.Valid user clientAddress seen decider) {rcd : Setting} (hseen : rcd ∈ seen)
    (hid : sel.tSettingIds.get? rcd.id = some rcd.account) (rules : List Rule) :
    (rules.foldl (Selection.takeRule user rcd) sel).Valid user clientAddress seen
      (rules.foldl (decideBy · rcd) decider) := by
  induction rules generalizing sel decider with
  | nil => exact h
  | cons rule rules ih =>
    obtain ⟨hvalid, hid'⟩ := h.takeRule hseen hid rule
    exact ih hvalid hid'

omit [Unicode] in
/-- **One record of the loop.** -/
theorem Selection.Valid.takeRecord {user clientAddress : Str} {seen : List Setting}
    {decider : Rule → Option Setting} {sel : Selection}
    (h : sel.Valid user clientAddress seen decider) {rcd : Setting}
    (hnew : ∀ s ∈ seen, s.id ≠ rcd.id) :
    (sel.takeRecord user clientAddress rcd).Valid user clientAddress (seen ++ [rcd])
      fun rule => (decider rule).or (if rcd.decides rule then some rcd else none) := by
  unfold Selection.takeRecord
  -- a record without a period decides nothing, and its keys are not looked up
  by_cases hperiod : rcd.period = 0
  · rw [if_pos hperiod]
    have hdecider : (fun rule => (decider rule).or (if rcd.decides rule then some rcd else none)) =
        decider := by
      funext rule
      simp [Setting.decides, hperiod]
    rw [hdecider]
    exact
      { h with
        mem_seen := fun rule rcd' hr => List.mem_append_left _ (h.mem_seen rule rcd' hr)
        where_iff := by
          intro p
          rw [h.where_iff]
          refine or_congr_left ?_
          constructor
          · rintro ⟨s, hs, hp⟩
            exact ⟨s, List.mem_append_left _ hs, hp⟩
          · rintro ⟨s, hs, hp, heq⟩
            rcases List.mem_append.mp hs with hs | hs
            · exact ⟨s, hs, hp, heq⟩
            · rw [List.mem_singleton.mp hs] at hp
              exact absurd hperiod hp }
  · rw [if_neg hperiod]
    have hdecider : (fun rule => (decider rule).or (if rcd.decides rule then some rcd else none)) =
        [Rule.msgSize, .maxRcpts, .maxMsgs, .maxQuota].foldl (decideBy · rcd) decider := by
      funext rule
      have hmem : rule ∈ [Rule.msgSize, .maxRcpts, .maxMsgs, .maxQuota] := by cases rule <;> decide
      rw [foldl_decideBy, if_pos hmem]
      simp [Setting.decides, hperiod]
    rw [hdecider]
    refine Selection.Valid.takeRules ?_ (List.mem_append_right _ (List.mem_singleton.mpr rfl)) ?_ _
    · -- no rule has been decided by a record with this id
      have hne : ∀ rule rcd', decider rule = some rcd' → rcd'.id ≠ rcd.id := fun rule rcd' hr =>
        hnew rcd' (h.mem_seen rule rcd' hr)
      constructor
      · exact h.nodup
      · exact h.settings
      · exact h.continueCheck
      · exact fun rule rcd' hr => List.mem_append_left _ (h.mem_seen rule rcd' hr)
      · intro rule rcd' hr
        rw [Dict.get?_set, if_neg (Ne.symm (hne rule rcd' hr))]
        exact h.ids rule rcd' hr
      · intro tid account rule
        rw [Dict.get?_set]
        by_cases hkey : (rcd.id, rcd.account) = (tid, account)
        · obtain ⟨rfl, rfl⟩ := Prod.mk.inj hkey
          rw [if_pos rfl]
          refine iff_of_false (by simp) ?_
          rintro ⟨rcd', hr, hid, -⟩
          exact hne rule rcd' hr hid
        · rw [if_neg hkey]
          exact h.rules tid account rule
      · intro p
        rw [List.mem_append, h.where_iff, List.mem_singleton, or_right_comm]
        refine or_congr_left ?_
        constructor
        · rintro (⟨s, hs, hp⟩ | hp)
          · exact ⟨s, List.mem_append_left _ hs, hp⟩
          · exact ⟨rcd, List.mem_append_right _ (List.mem_singleton.mpr rfl), hperiod, hp⟩
        · rintro ⟨s, hs, hp, heq⟩
          rcases List.mem_append.mp hs with hs | hs
          · exact .inl ⟨s, hs, hp, heq⟩
          · rw [List.mem_singleton.mp hs] at heq
            exact .inr heq
    · rw [Dict.get?_set, if_pos rfl]

omit [Unicode] in
/-- **The selection of a request.** Every rule is decided by the first record that decides it. -/
theorem valid_selection (args : Args) {records : List Setting}
    (hids : (records.map (·.id)).Nodup) :
    (selection args records).Valid args.user args.clientAddress records
      fun rule => records.find? (·.decides rule) := by
  unfold selection
  induction records using List.reverseRecOn with
  | nil => constructor <;> simp
  | append_singleton records rcd ih =>
    rw [List.map_append, List.nodup_append] at hids
    obtain ⟨hseen, -, hne⟩ := hids
    rw [List.foldl_append]
    have hnew : ∀ s ∈ records, s.id ≠ rcd.id := fun s hs =>
      hne s.id (List.mem_map_of_mem hs) rcd.id (by simp)
    have hvalid := (ih hseen).takeRecord hnew
    have hdecider : (fun rule => (records.find? (·.decides rule)).or
        (if rcd.decides rule then some rcd else none)) =
          fun rule => (records ++ [rcd]).find? (·.decides rule) := by
      funext rule
      rw [List.find?_append, List.find?_singleton]
    rw [hdecider] at hvalid
    exact hvalid

omit [Unicode] in
/-- The rules of a setting are those it decides. -/
theorem Selection.Valid.mem_rulesOf {user clientAddress : Str} {seen : List Setting}
    {decider : Rule → Option Setting} {sel : Selection}
    (h : sel.Valid user clientAddress seen decider) {tid : ℕ} {rule : Rule} :
    rule ∈ sel.rulesOf tid ↔ ∃ rcd, decider rule = some rcd ∧ rcd.id = tid := by
  unfold Selection.rulesOf
  constructor
  · intro hmem
    cases hacc : sel.tSettingIds.get? tid with
    | none => simp [hacc] at hmem
    | some account =>
      rw [hacc, Option.bind_some, h.rules] at hmem
      obtain ⟨rcd, hrcd, hid, -⟩ := hmem
      exact ⟨rcd, hrcd, hid⟩
  · rintro ⟨rcd, hrcd, rfl⟩
    rw [h.ids rule rcd hrcd, Option.bind_some, h.rules]
    exact ⟨rcd, hrcd, rfl, rfl⟩

end IRedAPD.Throttle

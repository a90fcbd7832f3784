/-
  What a call knows of `throttle_tracking`.

  `t_settings` keeps one set of tracking data for each rule, and the loop over
  the selected records overwrites it with every record of the rule's setting.
  When the only such record is the one under the setting's own track key
  (`Agrees`), that is what the checks see (`get?_load_of_agrees`).
-/
import IRedAPD.Equiv.Plugins.Throttle.Selection

namespace IRedAPD.Throttle

open Py

variable [Unicode]

/-- The rules that are tracked. -/
def Rule.isTracked : Rule → Bool
  | .maxMsgs | .maxQuota => true
  | .msgSize | .maxRcpts => false

/-- The value of `t_settings` for a tracked rule before the tracking data is loaded. -/
def Setting.tracked (args : Args) (rcd : Setting) (rule : Rule) : TSetting :=
  { rcd.ofRule rule with trackKey := [trackKeyOf args rcd.account] }

/-- The value of `t_settings` for a tracked rule with the data of a tracking record, if any. -/
def Setting.loaded (now : ℕ) (args : Args) (rcd : Setting) (rule : Rule)
    (row : Option (ℕ × Tracking)) : TSetting :=
  row.elim (rcd.tracked args rule) fun row => (rcd.tracked args rule).withRecord now row

/-- Of the tracking records of a setting that a call may select there is only the one under the
setting's own track key. -/
structure Agrees (t : TrackingTable) (args : Args) (rcd : Setting) : Prop where
  key : trackKeyOf args rcd.account = args.clientAddress ∨ trackKeyOf args rcd.account = args.user
  account : ∀ row ∈ t.rows, row.2.tid = rcd.id →
    row.2.account = args.clientAddress ∨ row.2.account = args.user →
      row.2.account = trackKeyOf args rcd.account

omit [Unicode] in
/-- The records of a request have the ids of the table. -/
theorem nodup_throttleRecords {throttle : List Setting} (hids : (throttle.map (·.id)).Nodup)
    (kind : Str) (addrs : List Str) :
    ((throttleRecords throttle kind addrs).map (·.id)).Nodup := by
  have hperm := List.perm_insertionSort (fun a b : Setting => b.priority ≤ a.priority)
    (throttle.filter fun s => s.kind == kind && addrs.contains s.account)
  exact (hperm.map _).nodup_iff.mpr (hids.sublist (List.filter_sublist.map _))

section Load

variable {now : ℕ} {args : Args} {seen : List Setting} {decider : Rule → Option Setting}
  {sel : Selection}

theorem get?_trackedSettings (hsel : sel.Valid args.user args.clientAddress seen decider)
    (rule : Rule) :
    (trackedSettings sel args).get? rule =
      if rule.isTracked then (decider rule).map fun rcd => rcd.tracked args rule else none := by
  unfold trackedSettings
  rw [Dict.get?_mapValues, Dict.get?_erase, Dict.get?_erase, hsel.settings]
  cases rule with
  | msgSize => simp [Rule.isTracked]
  | maxRcpts => simp [Rule.isTracked]
  | maxMsgs => simp [Rule.isTracked, Setting.tracked, Setting.ofRule, Function.comp_def]
  | maxQuota => simp [Rule.isTracked, Setting.tracked, Setting.ofRule, Function.comp_def]

omit [Unicode] in
/-- A record overwrites the data of the rules of its setting. -/
theorem get?_foldl_modify (row : ℕ × Tracking) (rules : List Rule) (d : Dict Rule TSetting)
    (rule : Rule) :
    (rules.foldl (fun d rule => d.modify rule (TSetting.withRecord now row)) d).get? rule =
      if rule ∈ rules then (d.get? rule).map (TSetting.withRecord now row) else d.get? rule := by
  induction rules generalizing d with
  | nil => simp
  | cons r rules ih =>
    rw [List.foldl_cons, ih, Dict.get?_modify]
    by_cases hr : rule = r
    · subst hr
      rw [if_pos rfl, if_pos (List.mem_cons_self ..)]
      -- overwriting twice is overwriting once
      split_ifs
      · rw [Option.map_map]
        rfl
      · rfl
    · rw [if_neg hr]
      simp only [List.mem_cons, hr, false_or]

/-- **The data a rule ends up with**: what the records of its setting leave one after the other. -/
theorem get?_load (hsel : sel.Valid args.user args.clientAddress seen decider)
    (rows : List (ℕ × Tracking)) (rule : Rule) :
    (load now sel args rows).tSettings.get? rule =
      ((trackedSettings sel args).get? rule).map fun ts =>
        (rows.filter fun row => row.2.tid = ts.tid).foldl (fun ts row => ts.withRecord now row) ts := by
  suffices h : ∀ ld : Loaded, (∀ ts, ld.tSettings.get? rule = some ts →
      ∃ rcd, decider rule = some rcd ∧ rcd.id = ts.tid) →
      (rows.foldl (Loaded.takeRecord now sel) ld).tSettings.get? rule =
        (ld.tSettings.get? rule).map fun ts => (rows.filter fun row => row.2.tid = ts.tid).foldl
          (fun ts row => ts.withRecord now row) ts by
    refine h _ fun ts hts => ?_
    rw [get?_trackedSettings hsel] at hts
    split_ifs at hts
    obtain ⟨rcd, hrcd, rfl⟩ := Option.map_eq_some_iff.mp hts
    exact ⟨rcd, hrcd, rfl⟩
  induction rows with
  | nil => simp
  | cons row rows ih =>
    intro ld hld
    have hget : (ld.takeRecord now sel row).tSettings.get? rule =
        if rule ∈ sel.rulesOf row.2.tid then (ld.tSettings.get? rule).map (TSetting.withRecord now row)
        else ld.tSettings.get? rule := get?_foldl_modify row _ _ rule
    rw [List.foldl_cons, ih]
    · cases hts : ld.tSettings.get? rule with
      | none => simp [hget, hts]
      | some ts =>
        obtain ⟨rcd, hrcd, hid⟩ := hld ts hts
        -- the record belongs to the setting of the rule when its `tid` says so
        have hrules : rule ∈ sel.rulesOf row.2.tid ↔ row.2.tid = ts.tid := by
          rw [hsel.mem_rulesOf]
          constructor
          · rintro ⟨rcd', hrcd', hid'⟩
            rw [hrcd] at hrcd'
            rw [← hid', ← Option.some.inj hrcd', hid]
          · intro htid
            exact ⟨rcd, hrcd, by rw [hid, htid]⟩
        by_cases htid : row.2.tid = ts.tid
        · rw [hget, if_pos (hrules.mpr htid), hts, Option.map_some, Option.map_some, Option.map_some,
            List.filter_cons_of_pos (by simpa using htid), List.foldl_cons]
          rfl
        · rw [hget, if_neg (fun h => htid (hrules.mp h)), hts, Option.map_some, Option.map_some,
            List.filter_cons_of_neg (by simpa using htid)]
    · intro ts hts
      rw [hget] at hts
      split_ifs at hts
      · obtain ⟨ts', hts', rfl⟩ := Option.map_eq_some_iff.mp hts
        exact hld ts' hts'
      · exact hld ts hts

omit [Unicode] in
/-- `tracking_ids` holds the id of every selected record. -/
theorem get?_trackingIds {rows : List (ℕ × Tracking)}
    (hkeys : (rows.map fun row => row.2.key).Nodup) (k : ℕ × Str) (ld : Loaded) :
    (rows.foldl (Loaded.takeRecord now sel) ld).trackingIds.get? k =
      ((rows.find? fun row => row.2.key = k).map Prod.fst).or (ld.trackingIds.get? k) := by
  induction rows generalizing ld with
  | nil => simp
  | cons row rows ih =>
    obtain ⟨hrow, hrows⟩ := List.nodup_cons.mp hkeys
    have hset : (ld.takeRecord now sel row).trackingIds.get? k =
        if row.2.key = k then some row.1 else ld.trackingIds.get? k := Dict.get?_set ..
    rw [List.foldl_cons, ih hrows, hset]
    by_cases hk : row.2.key = k
    · rw [if_pos hk, List.find?_cons_of_pos (by simpa using hk)]
      have hnone : rows.find? (fun row => row.2.key = k) = none := by
        rw [List.find?_eq_none]
        intro r hr hk'
        exact hrow (List.mem_map.mpr ⟨r, hr, (of_decide_eq_true hk').trans hk.symm⟩)
      rw [hnone]
      rfl
    · rw [if_neg hk, List.find?_cons_of_neg (by simpa using hk)]

/-- The tracking records a call selects. -/
def selected (sel : Selection) (t : TrackingTable) : List (ℕ × Tracking) :=
  t.select fun row => sel.trackingSqlWhere.contains row.2.key

omit [Unicode] in
/-- A selected record is stored under a key the query asks for. -/
theorem find?_selected (sel : Selection) (t : TrackingTable) (k : ℕ × Str) :
    (selected sel t).find? (fun row => row.2.key = k) =
      if k ∈ sel.trackingSqlWhere then t.find? k else none := by
  unfold selected Sql.Table.select Sql.Table.find?
  rw [List.find?_filter]
  by_cases hk : k ∈ sel.trackingSqlWhere
  · rw [if_pos hk]
    congr 1
    funext row
    by_cases hrow : row.2.key = k <;> simp [hrow, hk]
  · rw [if_neg hk, List.find?_eq_none]
    intro row _ hrow
    simp only [decide_eq_true_eq, List.contains_iff_mem] at hrow
    rw [hrow.2] at hrow
    exact hk hrow.1

omit [Unicode] in
/-- `tracking_ids` of a call. -/
theorem get?_trackingIds_selected (t : TrackingTable) (tSettings : Dict Rule TSetting)
    (k : ℕ × Str) :
    ((selected sel t).foldl (Loaded.takeRecord now sel) { tSettings }).trackingIds.get? k =
      if k ∈ sel.trackingSqlWhere then (t.find? k).map Prod.fst else none := by
  have hkeys : ((selected sel t).map fun row => row.2.key).Nodup :=
    t.key_nodup.sublist (List.filter_sublist.map _)
  rw [get?_trackingIds hkeys, find?_selected]
  split_ifs <;> simp

/-- The records of a setting that agrees with the call. -/
theorem filter_selected {t : TrackingTable} (hsel : sel.Valid args.user args.clientAddress seen decider)
    {rule : Rule} {rcd : Setting} (hdecider : decider rule = some rcd) (hperiod : rcd.period ≠ 0)
    (hagrees : Agrees t args rcd) :
    (selected sel t).filter (fun row => row.2.tid = rcd.id) =
      (t.find? (rcd.id, trackKeyOf args rcd.account)).toList := by
  have hwhere : (rcd.id, trackKeyOf args rcd.account) ∈ sel.trackingSqlWhere := by
    rw [hsel.where_iff]
    rcases hagrees.key with hkey | hkey
    · exact .inl ⟨rcd, hsel.mem_seen rule rcd hdecider, hperiod, by rw [hkey]⟩
    · exact .inr ⟨rule, rcd, hdecider, by rw [hkey]⟩
  rw [← Sql.Table.filter_key, selected, Sql.Table.select, List.filter_filter]
  refine List.filter_congr fun row hrow => ?_
  rw [Bool.eq_iff_iff, Bool.and_eq_true, decide_eq_true_eq, List.contains_iff_mem, decide_eq_true_eq]
  constructor
  · rintro ⟨htid, hmem⟩
    -- the query asks for the client or the user only
    have haccount : row.2.account = args.clientAddress ∨ row.2.account = args.user := by
      rcases (hsel.where_iff _).mp hmem with ⟨_, _, _, hp⟩ | ⟨_, _, _, hp⟩
      · exact .inl (Prod.mk.inj hp).2
      · exact .inr (Prod.mk.inj hp).2
    rw [Tracking.key, htid, hagrees.account row hrow htid haccount]
  · intro hkey
    rw [hkey]
    exact ⟨(Prod.mk.inj hkey).1, hwhere⟩

/-- **What the checks see of a setting that agrees with the call.** -/
theorem get?_load_of_agrees {t : TrackingTable}
    (hsel : sel.Valid args.user args.clientAddress seen decider) {rule : Rule}
    (hrule : rule.isTracked = true) {rcd : Setting} (hdecider : decider rule = some rcd)
    (hperiod : rcd.period ≠ 0) (hagrees : Agrees t args rcd) :
    (load now sel args (selected sel t)).tSettings.get? rule =
      some (rcd.loaded now args rule (t.find? (rcd.id, trackKeyOf args rcd.account))) := by
  rw [get?_load hsel, get?_trackedSettings hsel, if_pos hrule, hdecider, Option.map_some,
    Option.map_some]
  have hfilter := filter_selected hsel hdecider hperiod hagrees
  have htid : (rcd.tracked args rule).tid = rcd.id := rfl
  rw [htid, hfilter]
  cases t.find? (rcd.id, trackKeyOf args rcd.account) <;> rfl

/-- Whatever a call sees of a setting, its id is that of a record of the setting. -/
theorem mem_of_trackingId {t : TrackingTable}
    (hsel : sel.Valid args.user args.clientAddress seen decider) {rule : Rule} {ts : TSetting}
    (hts : (load now sel args (selected sel t)).tSettings.get? rule = some ts) :
    ∃ rcd, decider rule = some rcd ∧ ts.tid = rcd.id ∧ ts.period = rcd.period ∧
      ts.trackKey = [trackKeyOf args rcd.account] ∧ ts.value = rule.value rcd ∧
      ∀ id, ts.trackingId = some id → ∃ row ∈ t.rows, row.1 = id ∧ row.2.tid = rcd.id := by
  rw [get?_load hsel, get?_trackedSettings hsel] at hts
  obtain ⟨ts₀, hts₀, rfl⟩ := Option.map_eq_some_iff.mp hts
  split_ifs at hts₀
  obtain ⟨rcd, hrcd, rfl⟩ := Option.map_eq_some_iff.mp hts₀
  -- what the records do not change, and where the id comes from
  have hfold : ∀ (rows : List (ℕ × Tracking)) (ts : TSetting),
      let ts' := rows.foldl (fun ts row => TSetting.withRecord now row ts) ts
      ts'.tid = ts.tid ∧ ts'.period = ts.period ∧ ts'.trackKey = ts.trackKey ∧ ts'.value = ts.value ∧
        ∀ id, ts'.trackingId = some id → ts.trackingId = some id ∨ ∃ row ∈ rows, row.1 = id := by
    intro rows
    induction rows with
    | nil => exact fun ts => ⟨rfl, rfl, rfl, rfl, fun id hid => .inl hid⟩
    | cons row rows ih =>
      intro ts
      obtain ⟨h₁, h₂, h₃, h₄, h₅⟩ := ih (ts.withRecord now row)
      refine ⟨h₁, h₂, h₃, h₄, fun id hid => ?_⟩
      rcases h₅ id hid with hid | ⟨r, hr, hid⟩
      · exact .inr ⟨row, List.mem_cons_self .., Option.some.inj hid⟩
      · exact .inr ⟨r, List.mem_cons_of_mem _ hr, hid⟩
  obtain ⟨h₁, h₂, h₃, h₄, h₅⟩ := hfold ((selected sel t).filter fun row => row.2.tid = rcd.id)
    (rcd.tracked args rule)
  refine ⟨rcd, hrcd, h₁, h₂, h₃, h₄, fun id hid => ?_⟩
  rcases h₅ id hid with hid | ⟨row, hrow, hid⟩
  · cases hid
  · obtain ⟨hmem, htid⟩ := List.mem_filter.mp hrow
    exact ⟨row, (List.mem_filter.mp hmem).1, hid, of_decide_eq_true htid⟩

end Load

end IRedAPD.Throttle

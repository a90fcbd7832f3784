/-
  What a rejected message leaves behind.

  A check that rejects a message changes the time of a notification at most
  (`notCounted_of_recordingOf`), and one that passes it leaves the tracking
  records as they are only if what it collects changes nothing
  (`notCounted_record_iff`), which `changesNothing_iff` reads off the settings
  and the records.  The sender's check records the message before the
  recipient's check decides, so a message that the second one rejects has been
  counted by the first (`notCounted_iff`).
-/
import IRedAPD.Equiv.Plugins.Throttle.Cron
import IRedAPD.Plugins.Throttle.Restriction

namespace IRedAPD.Throttle

open Py

variable [Unicode]

/-- No row is added, and no row changes but in the time of its last notification. -/
def NotCounted (t t' : TrackingTable) : Prop := ∀ k, (t'.find? k).map core = (t.find? k).map core

/-! ### Checks that have nothing to record -/

/-- The records of a setting that a call selects. -/
def rowsOf (call : Call) (rcd : Setting) (t : TrackingTable) : List (ℕ × Tracking) :=
  t.select fun row => row.2.tid = rcd.id ∧
    (row.2.account = call.2.clientAddress ∨ row.2.account = call.2.user)

/-- A message without recipients and size, in the second of the last one, that leaves the window of
its record: it is the one of the record that the setting is loaded with. -/
structure Idle (now : ℕ) (args : Args) (rcd : Setting) (last row : ℕ × Tracking) : Prop where
  recipientCount : args.recipientCount = 0
  size : args.size = 0
  period : rcd.period = row.2.period
  lastTime : now = row.2.lastTime
  initTime : (if last.2.initTime = 0 then now else last.2.initTime) = row.2.initTime
  not_expired : row = last → row.2.expired now rcd.period = false

/-- The message passes the checks of a call. -/
structure Passes (settings : Settings) (throttle : List Setting) (call : Call) (addrs : List Str)
    (t : TrackingTable) : Prop where
  addrs_eq : possibleAddrs settings call.1 call.2 = .ok addrs
  selectThrottle : call.1.fails .selectThrottle = false
  selectTracking : call.1.fails .selectTracking = false
  message : checkMessage
    (selection call.2 (throttleRecords throttle (throttleKind call.2) addrs)) call.2 = none
  maxMsgs : maxMsgsExceeded call.1 call.2 (loadedFor call.1.now call.2
    (selection call.2 (throttleRecords throttle (throttleKind call.2) addrs)) t) = none
  maxQuota : maxQuotaExceeded call.1 (loadedFor call.1.now call.2
    (selection call.2 (throttleRecords throttle (throttleKind call.2) addrs)) t) = none

/-- A call has nothing to record: no setting that decides `max_msgs` or `max_quota` lacks a record, or
the insert fails, or the key of a record it has not found is in use; and the record of each such
setting is not updated, or by a message that leaves it as it is. -/
structure RecordsNothing (settings : Settings) (throttle : List Setting) (call : Call)
    (t : TrackingTable) : Prop where
  inserts : (∀ rcd, Decides settings throttle call rcd → rowRead call rcd t ≠ none) ∨
    call.1.fails .insertTracking = true ∨
    ∃ rcd, Decides settings throttle call rcd ∧ rowRead call rcd t = none ∧
      t.find? (rcd.id, trackKeyOf call.2 rcd.account) ≠ none
  updates : ∀ rcd row, Decides settings throttle call rcd → rowRead call rcd t = some row →
    call.1.fails (.updateTracking row.1) = true ∨
      ∀ last, (rowsOf call rcd t).getLast? = some last → Idle call.1.now call.2 rcd last row

/-- The statements of a call change nothing: the insert fails, or a key of it is in use, or there is
none; and every update fails, or stores what is there already. -/
structure ChangesNothing (env : Env) (rec : Recording) (t : TrackingTable) : Prop where
  inserts : rec.sqlInserts = [] ∨ env.fails .insertTracking = true ∨
    ∃ p ∈ rec.sqlInserts, t.find? p.1 ≠ none
  updates : ∀ u ∈ rec.sqlUpdates, env.fails (.updateTracking u.1) = true ∨
    ∀ row ∈ t.rows, row.1 = u.1 → u.2.apply row.2 = row.2

/-! ### Statements that change nothing -/

omit [Unicode] in
/-- An update leaves the time of the last notification. -/
theorem apply_eq_of_core {u : Update} {id : ℕ} {r : Tracking}
    (h : core (id, u.apply r) = core (id, r)) : u.apply r = r := by
  have hrow : (u.apply r).notify 0 = r.notify 0 := (Prod.mk.inj h).2
  have hback := congrArg (Tracking.notify r.lastNotifyTime) hrow
  exact hback

/-- **A message that is recorded leaves the records as they are only if its statements change
nothing.** -/
theorem notCounted_record_iff {env : Env} {args : Args} {sel : Selection} {t : TrackingTable}
    {rec : Recording} (hrec : collect env.now args (loadedFor env.now args sel t) = rec) :
    NotCounted t (record env rec t).2 ↔ ChangesNothing env rec t := by
  have hvalid := valid_collect env.now args (loadedFor env.now args sel t)
  rw [hrec] at hvalid
  have hkey : ∀ p ∈ rec.sqlInserts, p.2.key = p.1 := by
    intro p hp
    obtain ⟨q, -, hq, -, hr⟩ := hvalid.inserts p.1 p.2
      ((Dict.get?_eq_some_iff hvalid.inserts_nodup).mpr hp)
    rw [hr, ← hq]
    rfl
  have hkeys : (rec.sqlInserts.map Prod.snd).map Tracking.key = rec.sqlInserts.map Prod.fst := by
    rw [List.map_map]
    exact List.map_congr_left fun p hp => hkey p hp
  -- what a key has after both kinds of statements
  have hfind : ∀ k, (record env rec t).2.find? k =
      ((runInserts env rec.sqlInserts t).2.find? k).map fun row =>
        (row.1, if env.fails (.updateTracking row.1) then row.2
          else (rec.sqlUpdates.get? row.1).elim row.2 fun u => u.apply row.2) :=
    fun k => find?_runUpdates_of_fails hvalid.updates_nodup _ k
  constructor
  · intro h
    have hinserts : rec.sqlInserts = [] ∨ env.fails .insertTracking = true ∨
        ∃ p ∈ rec.sqlInserts, t.find? p.1 ≠ none := by
      -- otherwise the insert goes through and the first key has a new row
      by_contra hnot
      simp only [not_or, not_exists, not_and, ne_eq, not_not] at hnot
      obtain ⟨hne, hfails, hnew⟩ := hnot
      obtain ⟨p, hp⟩ := List.exists_mem_of_ne_nil _ hne
      obtain ⟨t', ht'⟩ : ∃ t', t.insertAll (rec.sqlInserts.map Prod.snd) = some t' := by
        refine Sql.Table.exists_insertAll (by rw [hkeys]; exact hvalid.inserts_nodup) fun r hr => ?_
        obtain ⟨q, hq, rfl⟩ := List.mem_map.mp hr
        rw [hkey q hq]
        exact hnew q hq
      have hrun : (runInserts env rec.sqlInserts t).2 = t' := by
        unfold runInserts
        rw [if_neg (by simpa using hne), if_neg hfails, ht']
      have hsame := h p.1
      rw [hfind, hrun, hnew p hp] at hsame
      rcases Sql.Table.find?_insertAll ht' p.1 with ⟨id, r, -, -, -, hsome⟩ | ⟨hno, -⟩
      · rw [hsome] at hsame
        cases hsame
      · exact hno p.2 (List.mem_map_of_mem hp) (hkey p hp)
    refine ⟨hinserts, fun u hu => ?_⟩
    by_cases hfails : env.fails (.updateTracking u.1) = true
    · exact .inl hfails
    refine .inr fun row hrow hid => ?_
    have hget := (Dict.get?_eq_some_iff hvalid.updates_nodup).mpr hu
    have hold := Sql.Table.find?_eq_some_iff.mpr ⟨hrow, rfl⟩
    -- the insert does not touch the row, so the update is what changes it
    have hkept : (runInserts env rec.sqlInserts t).2.find? row.2.key = some row := by
      rw [find?_runInserts_of_some hold]
    have hsame := h row.2.key
    rw [hfind, hkept, hold, Option.map_some, Option.map_some, Option.map_some, hid, hget,
      if_neg hfails, Option.elim_some, Option.some.injEq, ← hid] at hsame
    exact apply_eq_of_core hsame
  · rintro ⟨hinserts, hupdates⟩ k
    have hrun : (runInserts env rec.sqlInserts t).2 = t := by
      unfold runInserts
      rcases hinserts with hnil | hfails | ⟨p, hp, hsome⟩
      · rw [hnil]
        rfl
      · rw [if_pos hfails]
        split_ifs <;> rfl
      · split_ifs
        · rfl
        · rfl
        · cases hinsert : t.insertAll (rec.sqlInserts.map Prod.snd) with
          | none => rfl
          | some t' =>
            rcases Sql.Table.find?_insertAll hinsert p.1 with ⟨_, _, _, _, hnone, _⟩ | ⟨hno, -⟩
            · exact absurd hnone hsome
            · exact absurd (hkey p hp) (hno p.2 (List.mem_map_of_mem hp))
    rw [hfind, hrun, Option.map_map]
    cases hrow : t.find? k with
    | none => rfl
    | some row =>
      obtain ⟨hmem, -⟩ := Sql.Table.find?_eq_some_iff.mp hrow
      rw [Option.map_some, Option.map_some, Function.comp_apply]
      cases hget : Dict.get? rec.sqlUpdates row.1 with
      | none => simp
      | some u =>
        rcases hupdates (row.1, u) (Dict.mem_of_get? hget) with hfails | hsame
        · simp [hfails]
        · simp [hsame row hmem rfl]

/-- A call that does not pass every check, or has no setting, records nothing. -/
theorem notCounted_of_recordingOf {settings : Settings} {throttle : List Setting}
    (hids : (throttle.map (·.id)).Nodup) {call : Call} {t : TrackingTable}
    (hrec : recordingOf settings throttle call t = none) :
    NotCounted t (applyThrottle settings throttle call t).2 := by
  obtain ⟨env, args⟩ := call
  rcases applyThrottle_parts settings hids env args with ⟨sel, hreaches, happly⟩ | ⟨o, hearly⟩
  · rw [happly]
    rcases hreaches.ends t with ⟨e, -, hreject⟩ | ⟨hmsgs, hquota, -⟩
    · rw [hreject]
      exact find?_reject env args sel.throttleInfo e t
    · rw [hreaches.recordingOf_eq, hmsgs, hquota] at hrec
      cases hrec
  · rw [hearly.apply]
    exact fun k => rfl

/-! ### What is collected -/

omit [Unicode] in
/-- What a setting is loaded with: the record that is selected last. -/
theorem foldl_withRecord (now : ℕ) (ts : TSetting) {rows : List (ℕ × Tracking)}
    {last : ℕ × Tracking} (hlast : rows.getLast? = some last) :
    rows.foldl (fun ts row => ts.withRecord now row) ts = ts.withRecord now last := by
  obtain ⟨init, rfl⟩ := List.getLast?_eq_some_iff.mp hlast
  rw [List.foldl_append]
  induction init using List.reverseRecOn with
  | nil => rfl
  | append_singleton init row ih =>
    rw [List.foldl_append]
    -- the data of one record is overwritten by the data of the next
    exact ih (by simp)

/-- The row an update leaves is the row it finds if and only if the message is idle. -/
theorem updateOf_apply_eq_iff {now : ℕ} {args : Args} {rcd : Setting} {rule : Rule}
    {expired : List ℕ} {last row : ℕ × Tracking}
    (hexpired : row.1 ∈ expired ↔ row = last ∧ row.2.expired now rcd.period = true) :
    (updateOf now args expired ((rcd.tracked args rule).withRecord now last) row.1).apply row.2 =
      row.2 ↔ Idle now args rcd last row := by
  have hstores : ∀ u : Update, u.apply row.2 = row.2 ↔
      u.period = row.2.period ∧ u.lastTime = row.2.lastTime ∧ u.initTime = row.2.initTime ∧
        u.curMsgs.apply row.2.curMsgs = row.2.curMsgs ∧
          u.curQuota.apply row.2.curQuota = row.2.curQuota := by
    intro u
    constructor
    · intro h
      exact ⟨congrArg Tracking.period h, congrArg Tracking.lastTime h, congrArg Tracking.initTime h,
        congrArg Tracking.curMsgs h, congrArg Tracking.curQuota h⟩
    · rintro ⟨h₁, h₂, h₃, h₄, h₅⟩
      unfold Update.apply
      rw [h₁, h₂, h₃, h₄, h₅]
  rw [hstores]
  unfold updateOf
  by_cases hmem : row.1 ∈ expired
  · -- the window starts anew, which the record cannot have done already
    rw [if_pos (List.contains_iff_mem.mpr hmem)]
    obtain ⟨hlast, hover⟩ := hexpired.mp hmem
    constructor
    · rintro ⟨-, -, hinit, -, -⟩
      have hinit : now = row.2.initTime := hinit
      have hover := of_decide_eq_true hover
      omega
    · intro hidle
      rw [hidle.not_expired hlast] at hover
      cases hover
  · rw [if_neg fun hcontains => hmem (List.contains_iff_mem.mp hcontains)]
    constructor
    · rintro ⟨hperiod, htime, hinit, hmsgs, hquota⟩
      have hmsgs : row.2.curMsgs + args.recipientCount = row.2.curMsgs := hmsgs
      have hquota : row.2.curQuota + args.size = row.2.curQuota := hquota
      refine ⟨by omega, by omega, hperiod, htime, hinit, fun hlast => ?_⟩
      exact Bool.eq_false_iff.mpr fun hover => hmem (hexpired.mpr ⟨hlast, hover⟩)
    · intro hidle
      refine ⟨hidle.period, hidle.lastTime, hidle.initTime, ?_, ?_⟩
      · rw [hidle.recipientCount]
        exact Int.add_zero _
      · rw [hidle.size]
        exact Int.add_zero _

section Collected

variable {settings : Settings} {throttle : List Setting} {env : Env} {args : Args}
  {seen : List Setting} {sel : Selection} {t : TrackingTable} {rec : Recording}
  (hsel : sel.Valid args.user args.clientAddress seen (effective settings throttle (env, args)))
  (hids : (seen.map (·.id)).Nodup)
  (hperiod : ∀ rule rcd, effective settings throttle (env, args) rule = some rcd → rcd.period ≠ 0)
  (hrec : collect env.now args (loadedFor env.now args sel t) = rec)

/-- A record that is read is one of those selected. -/
theorem mem_rowsOf {rcd : Setting} {row : ℕ × Tracking}
    (hread : rowRead (env, args) rcd t = some row) : row ∈ rowsOf (env, args) rcd t := by
  unfold rowRead at hread
  split_ifs at hread with hreads
  obtain ⟨hmem, hkey⟩ := Sql.Table.find?_eq_some_iff.mp hread
  obtain ⟨htid, haccount⟩ := Prod.mk.inj hkey
  refine List.mem_filter.mpr ⟨hmem, decide_eq_true ⟨htid, ?_⟩⟩
  rw [haccount]
  exact hreads

include hsel hperiod

/-- The records of a deciding setting are those of the client and the user. -/
theorem filter_selected_eq {rule : Rule} {rcd : Setting}
    (hdecider : effective settings throttle (env, args) rule = some rcd) :
    (selected sel t).filter (fun row => row.2.tid = rcd.id) = rowsOf (env, args) rcd t := by
  unfold selected rowsOf Sql.Table.select
  rw [List.filter_filter]
  refine List.filter_congr fun row hrow => ?_
  rw [Bool.eq_iff_iff, Bool.and_eq_true, decide_eq_true_eq, List.contains_iff_mem, decide_eq_true_eq]
  refine and_congr_right fun htid => ?_
  rw [hsel.where_iff, Tracking.key, htid]
  constructor
  · rintro (⟨_, _, _, hp⟩ | ⟨_, _, _, hp⟩)
    · exact .inl (Prod.mk.inj hp).2
    · exact .inr (Prod.mk.inj hp).2
  · rintro (hclient | huser)
    · exact .inl ⟨rcd, hsel.mem_seen rule rcd hdecider, hperiod rule rcd hdecider, by rw [hclient]⟩
    · exact .inr ⟨rule, rcd, hdecider, by rw [huser]⟩

/-- What the checks see of a setting that has a record. -/
theorem get?_load_of_last {rcd : Setting} {last : ℕ × Tracking}
    (hlast : (rowsOf (env, args) rcd t).getLast? = some last) {rule : Rule}
    (hrule : rule.isTracked = true)
    (hdecider : effective settings throttle (env, args) rule = some rcd) :
    (loadedFor env.now args sel t).tSettings.get? rule =
      some ((rcd.tracked args rule).withRecord env.now last) := by
  have htid : (rcd.tracked args rule).tid = rcd.id := rfl
  rw [get?_load hsel, get?_trackedSettings hsel, if_pos hrule, hdecider, Option.map_some,
    Option.map_some, htid, filter_selected_eq hsel hperiod hdecider, foldl_withRecord env.now _ hlast]

include hrec

/-- **The keys that are inserted** are those of the deciding settings that have found no record. -/
theorem mem_sqlInserts_iff {k : ℕ × Str} :
    (∃ p ∈ rec.sqlInserts, p.1 = k) ↔
      ∃ rcd, Decides settings throttle (env, args) rcd ∧ rowRead (env, args) rcd t = none ∧
        (rcd.id, trackKeyOf args rcd.account) = k := by
  have hvalid := valid_collect env.now args (loadedFor env.now args sel t)
  rw [hrec] at hvalid
  constructor
  · rintro ⟨p, hp, rfl⟩
    obtain ⟨q, hq, hkey, hnone, -⟩ := hvalid.inserts p.1 p.2
      ((Dict.get?_eq_some_iff hvalid.inserts_nodup).mpr hp)
    obtain ⟨rule, rcd, hrule, hrcd, htid, haccount, -⟩ := exists_of_mem_trackPairs hsel hq
    have hpkey : p.1 = (rcd.id, trackKeyOf args rcd.account) := by rw [← hkey, htid, haccount]
    rw [hpkey, get?_trackingIds_of_decider hsel hrcd (hperiod rule rcd hrcd),
      Option.map_eq_none_iff] at hnone
    exact ⟨rcd, ⟨rule, hrule, hrcd⟩, hnone, hpkey.symm⟩
  · rintro ⟨rcd, ⟨rule, hrule, hrcd⟩, hnone, rfl⟩
    obtain ⟨ts, htid, hp⟩ := mem_trackPairs env t hsel hrule hrcd
    have hids : (loadedFor env.now args sel t).trackingIds.get?
        (ts.tid, trackKeyOf args rcd.account) = none := by
      rw [htid, get?_trackingIds_of_decider hsel hrcd (hperiod rule rcd hrcd), hnone, Option.map_none]
    obtain ⟨r, hr⟩ := Option.ne_none_iff_exists'.mp (hvalid.inserts_of_mem _ hp hids)
    rw [htid] at hr
    exact ⟨_, Dict.mem_of_get? hr, rfl⟩

include hids

/-- **The rows that are updated** are the records the deciding settings have found. -/
theorem exists_of_mem_sqlUpdates {u : ℕ × Update} (hu : u ∈ rec.sqlUpdates) :
    ∃ rcd row last, Decides settings throttle (env, args) rcd ∧
      rowRead (env, args) rcd t = some row ∧ row.1 = u.1 ∧
      (rowsOf (env, args) rcd t).getLast? = some last ∧
      (u.2.apply row.2 = row.2 ↔ Idle env.now args rcd last row) := by
  have hvalid := valid_collect env.now args (loadedFor env.now args sel t)
  rw [hrec] at hvalid
  obtain ⟨q, hq, hid, hupdate⟩ := hvalid.updates u.1 u.2
    ((Dict.get?_eq_some_iff hvalid.updates_nodup).mpr hu)
  obtain ⟨rule, rcd, hrule, hrcd, htid, haccount, hget⟩ := exists_of_mem_trackPairs hsel hq
  rw [htid, haccount, get?_trackingIds_of_decider hsel hrcd (hperiod rule rcd hrcd)] at hid
  obtain ⟨row, hread, hrow⟩ := Option.map_eq_some_iff.mp hid
  have hmem := mem_rowsOf hread
  obtain ⟨last, hlast⟩ : ∃ last, (rowsOf (env, args) rcd t).getLast? = some last :=
    Option.ne_none_iff_exists'.mp fun hnone =>
      List.ne_nil_of_mem hmem (List.getLast?_eq_none_iff.mp hnone)
  refine ⟨rcd, row, last, ⟨rule, hrule, hrcd⟩, hread, hrow, hlast, ?_⟩
  have hts := (get?_load_of_last hsel hperiod hlast hrule hrcd).symm.trans hget
  rw [hupdate, ← hrow, ← Option.some.inj hts]
  refine updateOf_apply_eq_iff ?_
  obtain ⟨hrow', htid'⟩ := List.mem_filter.mp hmem
  obtain ⟨hlast', -⟩ := List.mem_filter.mp (List.mem_of_getLast? hlast)
  exact mem_expiredTrackingIds_of_loaded hsel hids hrule hrcd hrow' hlast'
    (of_decide_eq_true htid').1 fun _ => get?_load_of_last hsel hperiod hlast

omit hids in
/-- Every record that a deciding setting has found is updated. -/
theorem exists_mem_sqlUpdates {rcd : Setting} {row : ℕ × Tracking}
    (hdecides : Decides settings throttle (env, args) rcd)
    (hread : rowRead (env, args) rcd t = some row) : ∃ u, (row.1, u) ∈ rec.sqlUpdates := by
  have hvalid := valid_collect env.now args (loadedFor env.now args sel t)
  rw [hrec] at hvalid
  obtain ⟨rule, hrule, hrcd⟩ := hdecides
  obtain ⟨ts, htid, hp⟩ := mem_trackPairs env t hsel hrule hrcd
  have hid : (loadedFor env.now args sel t).trackingIds.get? (ts.tid, trackKeyOf args rcd.account) =
      some row.1 := by
    rw [htid, get?_trackingIds_of_decider hsel hrcd (hperiod rule rcd hrcd), hread, Option.map_some]
  obtain ⟨u, hu⟩ := Option.ne_none_iff_exists'.mp (hvalid.updates_of_mem _ hp _ hid)
  exact ⟨u, Dict.mem_of_get? hu⟩

omit hperiod hrec in
/-- The record of a deciding setting is no other setting's. -/
theorem eq_of_rowRead {rcd rcd' : Setting} {row row' : ℕ × Tracking}
    (hdecides : Decides settings throttle (env, args) rcd)
    (hdecides' : Decides settings throttle (env, args) rcd')
    (hread : rowRead (env, args) rcd t = some row) (hread' : rowRead (env, args) rcd' t = some row')
    (hid : row.1 = row'.1) : rcd = rcd' ∧ row = row' := by
  obtain ⟨hrow, hkey⟩ := List.mem_filter.mp (mem_rowsOf hread)
  obtain ⟨hrow', hkey'⟩ := List.mem_filter.mp (mem_rowsOf hread')
  obtain rfl : row = row' := t.eq_of_id_eq hrow hrow' hid
  obtain ⟨rule, -, hrcd⟩ := hdecides
  obtain ⟨rule', -, hrcd'⟩ := hdecides'
  have htid : rcd.id = rcd'.id := (of_decide_eq_true hkey).1.symm.trans (of_decide_eq_true hkey').1
  exact ⟨hsel.eq_of_id_eq hids hrcd hrcd' htid, rfl⟩

/-- **A call that passes its checks changes nothing if and only if it has nothing to record.** -/
theorem changesNothing_iff :
    ChangesNothing env rec t ↔ RecordsNothing settings throttle (env, args) t := by
  have hkeys : ∀ {k}, (∃ p ∈ rec.sqlInserts, p.1 = k) ↔ _ := mem_sqlInserts_iff hsel hperiod hrec
  constructor
  · rintro ⟨hinserts, hupdates⟩
    refine ⟨?_, fun rcd row hdecides hread => ?_⟩
    · rcases hinserts with hnil | hfails | ⟨p, hp, hsome⟩
      · refine .inl fun rcd hdecides hnone => ?_
        obtain ⟨p, hp, -⟩ := hkeys.mpr ⟨rcd, hdecides, hnone, rfl⟩
        rw [hnil] at hp
        cases hp
      · exact .inr (.inl hfails)
      · obtain ⟨rcd, hdecides, hnone, hkey⟩ := hkeys.mp ⟨p, hp, rfl⟩
        exact .inr (.inr ⟨rcd, hdecides, hnone, by rw [hkey]; exact hsome⟩)
    · obtain ⟨u, hu⟩ := exists_mem_sqlUpdates hsel hperiod hrec hdecides hread
      obtain ⟨rcd', row', last, hdecides', hread', hid, hlast, hidle⟩ :=
        exists_of_mem_sqlUpdates hsel hids hperiod hrec hu
      obtain ⟨rfl, rfl⟩ := eq_of_rowRead hsel hids hdecides' hdecides hread' hread hid
      rcases hupdates _ hu with hfails | hsame
      · exact .inl hfails
      · refine .inr fun last' hlast' => ?_
        obtain rfl := Option.some.inj (hlast.symm.trans hlast')
        exact hidle.mp (hsame row' (List.mem_filter.mp (mem_rowsOf hread)).1 rfl)
  · rintro ⟨hinserts, hupdates⟩
    refine ⟨?_, fun u hu => ?_⟩
    · rcases hinserts with hfound | hfails | ⟨rcd, hdecides, hnone, hsome⟩
      · refine .inl (List.eq_nil_iff_forall_not_mem.mpr fun p hp => ?_)
        obtain ⟨rcd, hdecides, hnone, -⟩ := hkeys.mp ⟨p, hp, rfl⟩
        exact hfound rcd hdecides hnone
      · exact .inr (.inl hfails)
      · obtain ⟨p, hp, hkey⟩ := hkeys.mpr ⟨rcd, hdecides, hnone, rfl⟩
        exact .inr (.inr ⟨p, hp, by rw [hkey]; exact hsome⟩)
    · obtain ⟨rcd, row, last, hdecides, hread, hid, hlast, hidle⟩ :=
        exists_of_mem_sqlUpdates hsel hids hperiod hrec hu
      rw [← hid]
      rcases hupdates rcd row hdecides hread with hfails | hsame
      · exact .inl hfails
      · refine .inr fun row' hrow' hid' => ?_
        obtain rfl := t.eq_of_id_eq hrow' (List.mem_filter.mp (mem_rowsOf hread)).1 hid'
        exact hidle.mpr (hsame last hlast)

end Collected

/-! ### Calls -/

section Call

variable {settings : Settings} {throttle : List Setting} {t : TrackingTable}

/-- **When a call leaves the records as they are**: the message does not pass the checks, or there is
nothing to record. -/
theorem notCounted_applyThrottle_iff (hids : (throttle.map (·.id)).Nodup) (call : Call) :
    NotCounted t (applyThrottle settings throttle call t).2 ↔
      ∀ addrs, Passes settings throttle call addrs t → RecordsNothing settings throttle call t := by
  obtain ⟨env, args⟩ := call
  cases hrec : recordingOf settings throttle (env, args) t with
  | none =>
    refine iff_of_true (notCounted_of_recordingOf hids hrec) fun addrs hpass => ?_
    have hsel := valid_effective hids hpass.addrs_eq
    -- without a setting no rule is decided
    have hnone : ∀ rcd, ¬ Decides settings throttle (env, args) rcd := by
      rintro rcd ⟨rule, -, hrcd⟩
      have hempty : (selection args (throttleRecords throttle (throttleKind args) addrs)).tSettings =
          [] := by
        have hselect : env.fails .selectThrottle = false := hpass.selectThrottle
        have htracking : env.fails .selectTracking = false := hpass.selectTracking
        unfold recordingOf at hrec
        simpa [hpass.addrs_eq, hselect, htracking, hpass.message, hpass.maxMsgs,
          hpass.maxQuota] using hrec
      have hget := hsel.settings rule
      rw [hempty, hrcd] at hget
      cases hget
    exact ⟨.inl fun rcd hdecides => absurd hdecides (hnone rcd),
      fun rcd row hdecides => absurd hdecides (hnone rcd)⟩
  | some rec =>
    rw [applyThrottle_of_recordingOf hrec]
    unfold recordingOf at hrec
    cases haddrs : possibleAddrs settings env args with
    | error e =>
      rw [haddrs] at hrec
      cases hrec
    | ok addrs =>
      simp only [haddrs] at hrec
      split_ifs at hrec with hchecks
      simp only [Bool.or_eq_true, not_or, Bool.not_eq_true, Option.isSome_eq_false_iff,
        Option.isNone_iff_eq_none] at hchecks
      obtain ⟨⟨⟨⟨hselect, -⟩, hmessage⟩, htracking⟩, hexceeded⟩ := hchecks
      obtain ⟨hmsgs, hquota⟩ := Option.or_eq_none_iff.mp hexceeded
      have hpass : Passes settings throttle (env, args) addrs t :=
        ⟨haddrs, hselect, htracking, hmessage, hmsgs, hquota⟩
      have hsel := valid_effective hids haddrs
      have hperiod : ∀ rule rcd, effective settings throttle (env, args) rule = some rcd →
          rcd.period ≠ 0 := by
        intro rule rcd hrcd
        simp only [effective, haddrs] at hrcd
        exact (mem_of_find?_throttleRecords hrcd).2.2
      have hids := nodup_throttleRecords hids (throttleKind args) addrs
      have hrec := Option.some.inj hrec
      rw [notCounted_record_iff hrec, changesNothing_iff hsel hids hperiod hrec]
      exact ⟨fun h _ _ => h, fun h => h addrs hpass⟩

/-- A call that rejects the message leaves the records as they are. -/
theorem notCounted_of_rejects (hids : (throttle.map (·.id)).Nodup) {call : Call} {action : Str}
    (haction : (applyThrottle settings throttle call t).1.action = .ok action)
    (hreject : startsWith action "DUNNO" = false) :
    NotCounted t (applyThrottle settings throttle call t).2 := by
  refine notCounted_of_recordingOf hids ?_
  by_contra hrec
  obtain ⟨rec, hrec⟩ := Option.ne_none_iff_exists'.mp hrec
  rw [applyThrottle_of_recordingOf hrec] at haction
  rw [← Except.ok.inj haction] at hreject
  exact absurd hreject (by decide)

/-! ### Requests -/

/-- Of a request that is rejected the sender's check counts, and the recipient's does not. -/
theorem notCounted_throttleBoth_iff (hids : (throttle.map (·.id)).Nodup) {senderEnv recipientEnv : Env}
    {kwargs : PluginKwargs} {size recipientCount : ℤ} {action : Str}
    (haction : (throttleBoth settings throttle senderEnv recipientEnv kwargs size recipientCount
      t).1.action = .ok action) (hreject : startsWith action "DUNNO" = false) :
    NotCounted t
        (throttleBoth settings throttle senderEnv recipientEnv kwargs size recipientCount t).2 ↔
      NotCounted t
        (applyThrottle settings throttle (senderEnv, senderArgs kwargs size recipientCount) t).2 := by
  have hdefault : startsWith SmtpActions.defaultAction "DUNNO" = true := by decide
  unfold throttleBoth at haction ⊢
  simp only at haction ⊢
  set o := applyThrottle settings throttle (senderEnv, senderArgs kwargs size recipientCount) t
  cases hsender : o.1.action with
  | error e => rfl
  | ok a =>
    simp only [hsender] at haction ⊢
    by_cases ha : startsWith a "DUNNO" = true
    · rw [ha] at haction ⊢
      simp only [Bool.not_true, Bool.false_eq_true, if_false] at haction ⊢
      by_cases hbypass : kwargs.saslUsername ≠ [] ∧ settings.throttleBypassLocalRecipient = true
      · rw [if_pos hbypass]
      · rw [if_neg hbypass] at haction ⊢
        set o' := applyThrottle settings throttle
          (recipientEnv, recipientArgs kwargs size recipientCount) o.2 with ho'
        obtain ⟨a', ha', heq⟩ : ∃ a', o'.1.action = .ok a' ∧ (if !startsWith a' "DUNNO" then a'
            else SmtpActions.defaultAction) = action := by
          cases hrecipient : o'.1.action with
          | error e =>
            rw [hrecipient] at haction
            cases haction
          | ok a' =>
            rw [hrecipient] at haction
            exact ⟨a', rfl, Except.ok.inj haction⟩
        -- the answer is the one of the recipient's check
        have hreject' : startsWith a' "DUNNO" = false := by
          by_contra hdunno
          rw [Bool.not_eq_false] at hdunno
          rw [hdunno, Bool.not_true, if_neg Bool.false_ne_true] at heq
          rw [← heq, hdefault] at hreject
          cases hreject
        have hsame : NotCounted o.2 o'.2 := notCounted_of_rejects hids ha' hreject'
        exact forall_congr' fun k => by rw [hsame k]
    · rw [Bool.not_eq_true] at ha
      rw [ha]
      rfl

/-- **When a rejected message is not counted**: the sender's check rejects it, or has nothing to
record. -/
theorem notCounted_iff (hids : (throttle.map (·.id)).Nodup) (senderEnv recipientEnv : Env)
    (kwargs : PluginKwargs) {action : Str}
    (haction : (restriction settings throttle senderEnv recipientEnv kwargs t).1.action = .ok action)
    (hreject : startsWith action "DUNNO" = false) :
    NotCounted t (restriction settings throttle senderEnv recipientEnv kwargs t).2 ↔
      ∀ size recipientCount addrs, sessionSizes kwargs.smtpSessionData = .ok (size, recipientCount) →
        Passes settings throttle (senderEnv, senderArgs kwargs size recipientCount) addrs t →
          RecordsNothing settings throttle (senderEnv, senderArgs kwargs size recipientCount) t := by
  have hdefault : startsWith SmtpActions.defaultAction "DUNNO" = true := by decide
  -- a request that is bypassed is not rejected
  have hbypass : ∀ {o : Output}, o.action = .ok SmtpActions.defaultAction →
      o.action ≠ .ok action := by
    intro o ho ho'
    rw [← Except.ok.inj (ho.symm.trans ho'), hdefault] at hreject
    cases hreject
  unfold restriction at haction ⊢
  cases hsizes : sessionSizes kwargs.smtpSessionData with
  | error e =>
    rw [hsizes] at haction
    cases haction
  | ok sizes =>
    obtain ⟨size, recipientCount⟩ := sizes
    have hgoal : (∀ size' recipientCount' addrs,
        Except.ok (size, recipientCount) = (.ok (size', recipientCount') : Except Exn (ℤ × ℤ)) →
          Passes settings throttle (senderEnv, senderArgs kwargs size' recipientCount') addrs t →
            RecordsNothing settings throttle (senderEnv, senderArgs kwargs size' recipientCount')
              t) ↔
        NotCounted t (applyThrottle settings throttle
          (senderEnv, senderArgs kwargs size recipientCount) t).2 := by
      rw [notCounted_applyThrottle_iff hids]
      constructor
      · exact fun h addrs => h size recipientCount addrs rfl
      · rintro h _ _ addrs heq
        obtain ⟨rfl, rfl⟩ := Prod.mk.inj (Except.ok.inj heq)
        exact h addrs
    simp only [hsizes] at haction ⊢
    rw [hgoal]
    generalize (if kwargs.saslUsernameDomain = [] then kwargs.senderDomain
      else kwargs.saslUsernameDomain) = senderDomain at haction ⊢
    split_ifs at haction ⊢
    · exact absurd haction (hbypass rfl)
    · cases htrusted : isTrustedClient settings kwargs.clientAddress with
      | error e =>
        rw [htrusted] at haction
        cases haction
      | ok trusted =>
        simp only [htrusted] at haction ⊢
        cases trusted with
        | true => exact absurd haction (hbypass rfl)
        | false => exact notCounted_throttleBoth_iff hids haction hreject
    · exact notCounted_throttleBoth_iff hids haction hreject

end Call

omit [Unicode] in
/-- A message too large for its recipient, from a sender without settings. -/
theorem notCounted_without_sender_setting :
    letI := asciiUnicode
    let inbound : Setting :=
      { id := 1, account := "@ip", kind := "inbound", priority := 0, period := 3600, msgSize := 10 }
    let env : Env := ⟨100, by decide, 100, fun _ => .ok none, fun _ => .ok true, fun _ => false⟩
    let kwargs : PluginKwargs :=
      { smtpSessionData := [("size", "100"), ("recipient_count", "1")]
        clientAddress := "1.2.3.4", sender := [], senderDomain := [], senderWithoutExt := []
        recipient := "u@d.io", recipientDomain := "d.io", recipientWithoutExt := "u@d.io"
        saslUsername := [], saslUsernameDomain := [] }
    (restriction {} [inbound] env env kwargs Sql.Table.empty).1.action =
        .ok SmtpActions.rejectMsgSizeExceeded ∧
      NotCounted Sql.Table.empty (restriction {} [inbound] env env kwargs Sql.Table.empty).2 := by
  let := asciiUnicode
  intro inbound env kwargs
  have haction : (restriction {} [inbound] env env kwargs Sql.Table.empty).1.action =
      .ok SmtpActions.rejectMsgSizeExceeded := by decide
  refine ⟨haction, (notCounted_iff (by decide) env env kwargs haction (by decide)).mpr ?_⟩
  intro size recipientCount addrs hsizes _
  obtain ⟨rfl, rfl⟩ : (100 : ℤ) = size ∧ (1 : ℤ) = recipientCount := by
    have heq : sessionSizes kwargs.smtpSessionData = .ok (100, 1) := by decide
    exact Prod.mk.inj (Except.ok.inj (heq.symm.trans hsizes))
  have hnone : ∀ rcd, ¬ Decides {} [inbound] (env, senderArgs kwargs 100 1) rcd := by
    rintro rcd ⟨rule, -, hrcd⟩
    have heffective : effective {} [inbound] (env, senderArgs kwargs 100 1) rule = none := by
      cases rule <;> decide
    rw [heffective] at hrcd
    cases hrcd
  exact ⟨.inl fun rcd hdecides => absurd hdecides (hnone rcd),
    fun rcd row hdecides => absurd hdecides (hnone rcd)⟩

omit [Unicode] in
/-- A message too large for its recipient is counted for its sender. -/
theorem rejected_message_counted :
    letI := asciiUnicode
    let external : Setting :=
      { id := 1, account := "@ip", kind := "external", priority := 0, period := 3600, maxMsgs := 5 }
    let inbound : Setting :=
      { id := 2, account := "@ip", kind := "inbound", priority := 0, period := 3600, msgSize := 10 }
    let env : Env := ⟨100, by decide, 100, fun _ => .ok none, fun _ => .ok true, fun _ => false⟩
    let kwargs : PluginKwargs :=
      { smtpSessionData := [("size", "100"), ("recipient_count", "1")]
        clientAddress := "1.2.3.4", sender := [], senderDomain := [], senderWithoutExt := []
        recipient := "u@d.io", recipientDomain := "d.io", recipientWithoutExt := "u@d.io"
        saslUsername := [], saslUsernameDomain := [] }
    (restriction {} [external, inbound] env env kwargs Sql.Table.empty).1.action =
        .ok SmtpActions.rejectMsgSizeExceeded ∧
      (restriction {} [external, inbound] env env kwargs Sql.Table.empty).2.find? (1, "1.2.3.4") =
        some (1, { tid := 1, account := "1.2.3.4", period := 3600, curMsgs := 1, curQuota := 100
                   initTime := 100, lastTime := 100 }) ∧
      ¬ NotCounted Sql.Table.empty
        (restriction {} [external, inbound] env env kwargs Sql.Table.empty).2 := by
  let := asciiUnicode
  intro external inbound env kwargs
  have hcounted : (restriction {} [external, inbound] env env kwargs Sql.Table.empty).2.find?
      (1, "1.2.3.4") = some (1, { tid := 1, account := "1.2.3.4", period := 3600, curMsgs := 1
                                  curQuota := 100, initTime := 100, lastTime := 100 }) := by decide
  refine ⟨by decide, hcounted, fun h => ?_⟩
  have hsame := h (1, "1.2.3.4")
  rw [hcounted] at hsame
  cases hsame

end IRedAPD.Throttle

/-
  Exact counters on columns with a range.

  As long as every value that a call writes is in the range of its column
  (`FitsColumns`), the call is one on columns without a range
  (`applyThrottleIn_eq`), and both counters of a record hold exactly what has
  been recorded in its window (`counters_exact`).  A value out of range makes
  the statement fail, and with it the other counter, or is stored as another
  value.
-/
import IRedAPD.Equiv.Plugins.Throttle.Counter
import IRedAPD.Equiv.Plugins.Throttle.Cron
import IRedAPD.Plugins.Throttle.Columns

namespace IRedAPD.Throttle

open Py History

variable [Unicode]

/-- The columns hold the values of the row that the plugin writes. -/
structure InColumns (r : Tracking) : Prop where
  tid : tidColumn.Holds r.tid
  account : r.account.length ≤ accountSize
  period : intColumn.Holds r.period
  curMsgs : curMsgsColumn.Holds r.curMsgs
  curQuota : intColumn.Holds r.curQuota
  initTime : intColumn.Holds r.initTime
  lastTime : intColumn.Holds r.lastTime

/-- The deciding settings of a call read their records back, and what the call writes fits into the
columns. -/
structure FitsColumns (settings : Settings) (throttle : List Setting) (call : Call)
    (t : TrackingTable) : Prop where
  reads : ∀ rule rcd, rule.isTracked = true → effective settings throttle call rule = some rcd →
    Reads call rcd
  notifyTime : intColumn.Holds call.1.notifyTime
  next : (recordingOf settings throttle call t).isSome → ∀ rule rcd, rule.isTracked = true →
    effective settings throttle call rule = some rcd →
      InColumns (rcd.next call.1.now call.2 (trackKeyOf call.2 rcd.account)
        ((t.find? (rcd.id, trackKeyOf call.2 rcd.account)).map Prod.snd))

/-! ### Rows that fit -/

omit [Unicode] in
theorem Tracking.store_eq {r : Tracking} (h : InColumns r) (mode : Sql.Mode) :
    r.store mode = some r := by
  unfold Tracking.store
  rw [Sql.IntColumn.storeNat_eq h.tid, Sql.storeText_eq h.account, Sql.IntColumn.storeNat_eq h.period,
    Sql.IntColumn.store_eq h.curMsgs, Sql.IntColumn.store_eq h.curQuota,
    Sql.IntColumn.storeNat_eq h.initTime, Sql.IntColumn.storeNat_eq h.lastTime]
  rfl

omit [Unicode] in
theorem Update.store_eq {u : Update} {r : Tracking} (h : InColumns (u.apply r)) (mode : Sql.Mode) :
    u.store mode r = some (u.apply r) := by
  have hmsgs : curMsgsColumn.Holds (u.curMsgs.apply r.curMsgs) := h.curMsgs
  have hquota : intColumn.Holds (u.curQuota.apply r.curQuota) := h.curQuota
  have hperiod : intColumn.Holds u.period := h.period
  have hinit : intColumn.Holds u.initTime := h.initTime
  have hlast : intColumn.Holds u.lastTime := h.lastTime
  unfold Update.store
  rw [Sql.IntColumn.storeNat_eq hperiod, Sql.IntColumn.storeNat_eq hlast,
    Sql.IntColumn.storeNat_eq hinit, Sql.IntColumn.store_eq hmsgs, Sql.IntColumn.store_eq hquota]
  rfl

/-! ### Statements that fit -/

omit [Unicode] in
theorem sendNotificationIn_eq {env : Env} (h : intColumn.Holds env.notifyTime) (mode : Sql.Mode)
    (mail : Mail) (trackingId : Option ℕ) (t : TrackingTable) :
    sendNotificationIn mode env mail trackingId t = sendNotification env mail trackingId t := by
  have hupdate : ∀ id : ℕ, t.tryUpdate (fun row => row.1 = id)
      (Tracking.storeNotify mode env.notifyTime) (fun _ _ => Tracking.key_storeNotify) =
      some (t.update (fun row => row.1 = id) (Tracking.notify env.notifyTime)
        (Tracking.key_notify env.notifyTime)) := by
    intro id
    refine Sql.Table.tryUpdate_eq _ fun row _ _ => ?_
    unfold Tracking.storeNotify
    rw [Sql.IntColumn.storeNat_eq h]
    rfl
  unfold sendNotificationIn sendNotification
  cases env.sendmail mail with
  | error e => rfl
  | ok sent =>
    cases trackingId with
    | none => rfl
    | some id => simp only [hupdate]

omit [Unicode] in
theorem runInsertsIn_eq {env : Env} {inserts : Dict (ℕ × Str) Tracking}
    (h : ∀ p ∈ inserts, InColumns p.2) (mode : Sql.Mode) (t : TrackingTable) :
    runInsertsIn mode env inserts t = runInserts env inserts t := by
  have hstore : (inserts.map Prod.snd).mapM (Tracking.store mode) = some (inserts.map Prod.snd) := by
    induction inserts with
    | nil => rfl
    | cons p inserts ih =>
      rw [List.map_cons, List.mapM_cons, Tracking.store_eq (h p (List.mem_cons_self ..)),
        ih fun q hq => h q (List.mem_cons_of_mem _ hq)]
      rfl
  unfold runInsertsIn runInserts
  cases hinsert : t.insertAll (inserts.map Prod.snd) with
  | none => simp only [hstore, Option.bind_some, hinsert]
  | some t' => simp only [hstore, Option.bind_some, hinsert]

omit [Unicode] in
/-- Updates of different rows, which fit. -/
theorem runUpdatesIn_eq {env : Env} {us : Dict ℕ Update} (hnodup : (us.map Prod.fst).Nodup)
    (mode : Sql.Mode) {st : List Statement × TrackingTable}
    (h : ∀ u ∈ us, ∀ row ∈ st.2.rows, row.1 = u.1 → InColumns (u.2.apply row.2)) :
    us.foldl (runUpdateIn mode env) st = us.foldl (runUpdate env) st := by
  induction us generalizing st with
  | nil => rfl
  | cons u us ih =>
    obtain ⟨hu, hus⟩ := List.nodup_cons.mp hnodup
    have hhead : runUpdateIn mode env st u = runUpdate env st u := by
      have hupdate : st.2.tryUpdate (fun row => row.1 = u.1) (u.2.store mode)
          (fun _ _ => Update.key_store) =
          some (st.2.update (fun row => row.1 = u.1) u.2.apply u.2.key_apply) := by
        refine Sql.Table.tryUpdate_eq _ fun row hrow hid => ?_
        exact Update.store_eq (h u (List.mem_cons_self ..) row hrow (of_decide_eq_true hid)) mode
      unfold runUpdateIn runUpdate
      rw [hupdate]
    rw [List.foldl_cons, List.foldl_cons, hhead]
    refine ih hus fun u' hu' row hrow hid => ?_
    have hne : row.1 ≠ u.1 := by
      rw [hid]
      intro heq
      exact hu (heq ▸ List.mem_map_of_mem hu')
    -- the row is not the one that has been updated
    have hold : row ∈ st.2.rows := by
      unfold runUpdate at hrow
      split_ifs at hrow
      · exact hrow
      · rcases (Sql.Table.mem_rows_update u.2.key_apply).mp hrow with ⟨hrow, -⟩ | ⟨r, -, hr, rfl⟩
        · exact hrow
        · exact absurd (of_decide_eq_true hr) hne
    exact h u' (List.mem_cons_of_mem _ hu') row hold hid

section Record

variable {throttle : List Setting} {env : Env} {args : Args} {seen : List Setting}
  {decider : Rule → Option Setting} {sel : Selection} {t : TrackingTable}

/-- **Recording a message whose values fit.** -/
theorem recordIn_eq (hids : (seen.map (·.id)).Nodup)
    (hsucceeds : ∀ statement, env.fails statement = false)
    (hsel : sel.Valid args.user args.clientAddress seen decider)
    (h : InTable throttle args decider) (hrecords : AreRecords throttle t)
    (hreads : ∀ rule rcd, rule.isTracked = true → decider rule = some rcd → Reads (env, args) rcd)
    (hnext : ∀ rule rcd, rule.isTracked = true → decider rule = some rcd →
      InColumns (rcd.next env.now args (trackKeyOf args rcd.account)
        ((t.find? (rcd.id, trackKeyOf args rcd.account)).map Prod.snd))) (mode : Sql.Mode) :
    recordIn mode env (collect env.now args (loadedFor env.now args sel t)) t =
      record env (collect env.now args (loadedFor env.now args sel t)) t := by
  have hfailed := record_failed_of_reads (t := t) hsucceeds hsel h hreads
  have hvalid := valid_collect env.now args (loadedFor env.now args sel t)
  have hread : ∀ {rule rcd}, rule.isTracked = true → decider rule = some rcd →
      (loadedFor env.now args sel t).trackingIds.get? (rcd.id, trackKeyOf args rcd.account) =
        (t.find? (rcd.id, trackKeyOf args rcd.account)).map Prod.fst := by
    intro rule rcd hrule hrcd
    rw [get?_trackingIds_of_decider hsel hrcd (h.period_ne rule rcd hrcd), rowRead,
      if_pos (hreads rule rcd hrule hrcd)]
  have hinserts : ∀ p ∈ (collect env.now args (loadedFor env.now args sel t)).sqlInserts,
      InColumns p.2 := by
    intro p hp
    obtain ⟨q, hq, hkey, hnone, hr⟩ := hvalid.inserts p.1 p.2
      ((Dict.get?_eq_some_iff hvalid.inserts_nodup).mpr hp)
    obtain ⟨rule, rcd, hrule, hrcd, htid, haccount, hget⟩ := exists_of_mem_trackPairs hsel hq
    obtain ⟨rcd', hrcd', -, hperiod, -⟩ := mem_of_trackingId hsel hget
    obtain rfl := Option.some.inj (hrcd.symm.trans hrcd')
    rw [← hkey, htid, haccount, hread hrule hrcd, Option.map_eq_none_iff] at hnone
    have hfits := hnext rule rcd hrule hrcd
    rw [hnone] at hfits
    rw [hr, newTracking, htid, haccount, hperiod]
    exact hfits
  have hupdates : ∀ u ∈ (collect env.now args (loadedFor env.now args sel t)).sqlUpdates,
      ∀ row ∈ (runInserts env (collect env.now args (loadedFor env.now args sel t)).sqlInserts t).2.rows,
        row.1 = u.1 → InColumns (u.2.apply row.2) := by
    intro u hu row hrow hid
    have hget := (Dict.get?_eq_some_iff hvalid.updates_nodup).mpr hu
    obtain ⟨q, hq, htracking, -⟩ := hvalid.updates u.1 u.2 hget
    obtain ⟨rule, rcd, hrule, hrcd, htid, haccount, -⟩ := exists_of_mem_trackPairs hsel hq
    rw [htid, haccount] at htracking
    obtain ⟨r, hr⟩ := find?_of_trackingIds htracking
    have hagrees := h.agrees hrecords hrcd (hreads rule rcd hrule hrcd)
    have hafter := find?_record_of_tracked hsel hids hrule hrcd (h.period_ne rule rcd hrcd) hagrees
      hfailed
    have hfits := hnext rule rcd hrule hrcd
    unfold record at hafter hfailed
    simp only at hafter hfailed
    -- the insert leaves the record that is updated
    have hold : (runInserts env (collect env.now args (loadedFor env.now args sel t)).sqlInserts
        t).2.find? (rcd.id, trackKeyOf args rcd.account) = some (u.1, r) := by
      rcases find?_runInserts (runUpdate_failed hfailed) (rcd.id, trackKeyOf args rcd.account) with
        ⟨_, _, _, _, hnone, _⟩ | ⟨-, hsame⟩
      · rw [hr] at hnone
        cases hnone
      · rw [hsame, hr]
    have hsame : row = (u.1, r) := Sql.Table.eq_of_id_eq _ hrow
      (Sql.Table.find?_eq_some_iff.mp hold).1 hid
    rw [find?_runUpdates hvalid.updates_nodup hfailed, hold, Option.map_some, Option.map_some, hget,
      Option.elim_some, hr, Option.map_some] at hafter
    rw [hr, Option.map_some, ← Option.some.inj hafter] at hfits
    rw [hsame]
    exact hfits
  unfold recordIn record
  rw [runInsertsIn_eq hinserts, runUpdatesIn_eq hvalid.updates_nodup mode hupdates]

end Record

/-! ### Calls that fit -/

/-- The checks against the tracking data, and what follows. -/
theorem applyTrackingIn_eq {env : Env} (hselect : env.fails .selectTracking = false)
    (mode : Sql.Mode) (args : Args) (sel : Selection) (t : TrackingTable) :
    applyTrackingIn mode env args sel t =
      match (maxMsgsExceeded env args (loadedFor env.now args sel t)).or
        (maxQuotaExceeded env (loadedFor env.now args sel t)) with
      | some e => rejectIn mode env args sel.throttleInfo e t
      | none => recordIn mode env (collect env.now args (loadedFor env.now args sel t)) t := by
  unfold applyTrackingIn
  rw [hselect]
  rfl

section Call

variable {settings : Settings} {throttle : List Setting} (hids : (throttle.map (·.id)).Nodup)
  {call : Call} (hclient : IsClientAddress call.2.clientAddress)
  (hsucceeds : ∀ statement, call.1.fails statement = false) {t : TrackingTable}
  (hrecords : AreRecords throttle t) (hfits : FitsColumns settings throttle call t)

include hids hclient hsucceeds hrecords hfits

/-- **A call whose values fit is one on columns without a range.** -/
theorem applyThrottleIn_eq (mode : Sql.Mode) :
    applyThrottleIn mode settings throttle call t = applyThrottle settings throttle call t := by
  obtain ⟨env, args⟩ := call
  have hsucceeds : ∀ statement, env.fails statement = false := hsucceeds
  have hnext := hfits.next
  unfold recordingOf at hnext
  unfold applyThrottleIn applyThrottle
  simp only at hnext ⊢
  cases haddrs : possibleAddrs settings env args with
  | error e => rfl
  | ok addrs =>
    simp only [haddrs, hsucceeds, Bool.false_or, Bool.or_false, Bool.false_eq_true, if_false] at hnext ⊢
    have hsel := valid_effective hids haddrs
    set sel := selection args (throttleRecords throttle (throttleKind args) addrs)
    cases hempty : sel.tSettings.isEmpty with
    | true => rfl
    | false =>
      cases hmessage : checkMessage sel args with
      | some action => rfl
      | none =>
        simp only [Bool.false_eq_true, if_false]
        rw [applyTracking_eq (hsucceeds _), applyTrackingIn_eq (hsucceeds _)]
        cases hexceeded : (maxMsgsExceeded env args (loadedFor env.now args sel t)).or
            (maxQuotaExceeded env (loadedFor env.now args sel t)) with
        | some e =>
          simp only
          unfold rejectIn reject
          simp only [sendNotificationIn_eq hfits.notifyTime]
        | none =>
          rw [hempty, hmessage, hexceeded] at hnext
          exact recordIn_eq (nodup_throttleRecords hids (throttleKind args) addrs) hsucceeds hsel
            (inTable_effective haddrs hclient) hrecords hfits.reads (hnext rfl) mode

/-- Nothing that such a call does fails, and it keeps the records those of their settings. -/
theorem areRecords_step : (applyThrottle settings throttle call t).1.failed = [] ∧
    AreRecords throttle (applyThrottle settings throttle call t).2 := by
  obtain ⟨env, args⟩ := call
  have hsucceeds : ∀ statement, env.fails statement = false := hsucceeds
  rcases applyThrottle_parts settings hids env args with ⟨sel, hreaches, happly⟩ | ⟨o, hearly⟩
  · rw [happly]
    obtain ⟨addrs, haddrs, hdef⟩ := hreaches.addrs
    have hsel := valid_effective hids haddrs
    rw [← hdef] at hsel
    rcases hreaches.ends t with ⟨e, -, hreject⟩ | ⟨-, -, hrecord⟩
    · rw [hreject]
      refine ⟨?_, hrecords.of_core (find?_reject env args sel.throttleInfo e t)⟩
      unfold reject sendNotification
      simp only [hsucceeds, Bool.false_eq_true, if_false]
      split_ifs
      · split
        · rfl
        · rfl
        · split_ifs <;> rfl
      · rfl
    · rw [hrecord]
      have hin : InTable throttle args (effective settings throttle (env, args)) :=
        inTable_effective haddrs hclient
      have hthrottle := nodup_throttleRecords hids (throttleKind args) addrs
      exact ⟨record_failed_of_reads hsucceeds hsel hin hfits.reads,
        areRecords_record hids hthrottle hsucceeds hsel hin hrecords (.inl hfits.reads)⟩
  · rw [hearly.apply]
    exact ⟨hearly.failed hsucceeds, hrecords⟩

end Call

/-! ### Runs -/

/-- **The counters are exact over whole runs in which every value fits.** Both counters of a record
hold the sum over the messages that have been accepted and recorded in its window. -/
theorem counters_exact (mode : Sql.Mode) (settings : Settings) {throttle : List Setting}
    (hids : (throttle.map (·.id)).Nodup) {rcd : Setting} (hrcd : rcd ∈ throttle) {calls : List Call}
    (hsorted : (calls.map (·.1.now)).Pairwise (· ≤ ·))
    (hsound : ∀ call ∈ calls, IsClientAddress call.2.clientAddress ∧
      ∀ statement, call.1.fails statement = false)
    (hfits : Throughout (applyThrottleIn mode settings throttle) (FitsColumns settings throttle)
      Sql.Table.empty calls) {k : Str} {id : ℕ} {r : Tracking}
    (hrow : (after (applyThrottleIn mode settings throttle) Sql.Table.empty calls).find? (rcd.id, k) =
      some (id, r)) :
    r.curMsgs = Counter.messages.recordedFrom settings throttle rcd k r.initTime
        (history (applyThrottleIn mode settings throttle) Sql.Table.empty calls) ∧
      r.curQuota = Counter.quota.recordedFrom settings throttle rcd k r.initTime
        (history (applyThrottleIn mode settings throttle) Sql.Table.empty calls) := by
  set step := applyThrottleIn mode settings throttle with hstep
  have hinv : AreRecords throttle (after step Sql.Table.empty calls) ∧
      Tracked settings throttle rcd (history step Sql.Table.empty calls)
        (after step Sql.Table.empty calls) := by
    refine invariant_throughout (fun call : Call => call.1.now)
      (fun call t => (IsClientAddress call.2.clientAddress ∧
        ∀ statement, call.1.fails statement = false) ∧ FitsColumns settings throttle call t)
      (fun h t => AreRecords throttle t ∧ Tracked settings throttle rcd h t) ?_
      ⟨fun row hrow => absurd hrow List.not_mem_nil, tracked_empty settings⟩ hsorted
      ((throughout_of_inputs hsound _).and hfits)
    rintro h t call hle ⟨⟨hclient, hsucceeds⟩, hfit⟩ ⟨hrecords, hinv⟩
    rw [hstep, applyThrottleIn_eq hids hclient hsucceeds hrecords hfit]
    obtain ⟨hfailed, hrecords'⟩ := areRecords_step hids hclient hsucceeds hrecords hfit
    refine ⟨hrecords', tracked_step hids hrcd (fun rule hrule heff => ?_) hfailed hinv hle⟩
    obtain ⟨env, args⟩ := call
    cases haddrs : possibleAddrs settings env args with
    | error e =>
      simp only [effective, haddrs] at heff
      cases heff
    | ok addrs =>
      exact (inTable_effective haddrs hclient).agrees hrecords heff (hfit.reads rule rcd hrule heff)
  have hwindow := hinv.2.window k id r hrow
  exact ⟨hwindow.current_eq Counter.messages, hwindow.current_eq Counter.quota⟩

omit [Unicode] in
/-- One message of four gibibytes less a byte. -/
theorem counters_exact_one_message :
    letI := asciiUnicode
    let rcd : Setting :=
      { id := 1, account := "@ip", kind := "external", priority := 0, period := 3600
        maxQuota := 9223372036854775807 }
    let call : Call := (⟨100, by decide, 100, fun _ => .ok none, fun _ => .ok true, fun _ => false⟩,
      ⟨[], "1.2.3.4", 4294967295, 1, true, true⟩)
    (1 : ℤ) = Counter.messages.recordedFrom {} [rcd] rcd "1.2.3.4" 100
        (history (applyThrottleIn .strict {} [rcd]) Sql.Table.empty [call]) ∧
      (4294967295 : ℤ) = Counter.quota.recordedFrom {} [rcd] rcd "1.2.3.4" 100
        (history (applyThrottleIn .strict {} [rcd]) Sql.Table.empty [call]) := by
  let := asciiUnicode
  intro rcd call
  have hquota : effective {} [rcd] call .maxQuota = some rcd := by decide
  have hmsgs : effective {} [rcd] call .maxMsgs = none := by decide
  refine @counters_exact asciiUnicode .strict {} [rcd] (by decide) rcd (List.mem_singleton.mpr rfl)
    [call] (by decide) ?_ ⟨⟨?_, by decide, ?_⟩, trivial⟩ "1.2.3.4".toList 1
    { tid := 1, account := "1.2.3.4", period := 3600, curMsgs := 1, curQuota := 4294967295
      initTime := 100, lastTime := 100 } (by decide)
  · intro c hc
    rw [List.mem_singleton.mp hc]
    exact ⟨by unfold IsClientAddress; decide, fun _ => rfl⟩
  · intro rule rcd' hrule heff
    cases rule with
    | msgSize => cases hrule
    | maxRcpts => cases hrule
    | maxMsgs => cases hmsgs.symm.trans heff
    | maxQuota =>
      cases hquota.symm.trans heff
      decide
  · intro _ rule rcd' hrule heff
    cases rule with
    | msgSize => cases hrule
    | maxRcpts => cases hrule
    | maxMsgs => cases hmsgs.symm.trans heff
    | maxQuota =>
      cases hquota.symm.trans heff
      exact ⟨by decide, by decide, by decide, by decide, by decide, by decide, by decide⟩

omit [Unicode] in
/-- One byte more: the statement fails and leaves both counters, or the quota stays at its maximum. -/
theorem counters_overflow :
    letI := asciiUnicode
    let rcd : Setting :=
      { id := 1, account := "@ip", kind := "external", priority := 0, period := 3600
        maxQuota := 9223372036854775807 }
    let call := fun (now : ℕ) (size : ℤ) => ((⟨now + 1, Nat.succ_pos now, now + 1, fun _ => .ok none,
      fun _ => .ok true, fun _ => false⟩, ⟨[], "1.2.3.4", size, 1, true, true⟩) : Call)
    let calls := [call 99 4294967295, call 199 1]
    let row := fun (mode : Sql.Mode) =>
      (after (applyThrottleIn mode {} [rcd]) Sql.Table.empty calls).find? (1, "1.2.3.4")
    let run := fun (mode : Sql.Mode) => history (applyThrottleIn mode {} [rcd]) Sql.Table.empty calls
    ((row .strict).map fun row => (row.2.curMsgs, row.2.curQuota)) = some (1, 4294967295) ∧
      ((row .lenient).map fun row => (row.2.curMsgs, row.2.curQuota)) = some (2, 4294967295) ∧
      ∀ mode, (∀ e ∈ run mode, e.2.Accepts) ∧
        Counter.messages.recordedFrom {} [rcd] rcd "1.2.3.4" 100 (run mode) = 2 ∧
        Counter.quota.recordedFrom {} [rcd] rcd "1.2.3.4" 100 (run mode) = 4294967296 := by
  let := asciiUnicode
  intro rcd call calls row run
  refine ⟨by decide, by decide, fun mode => ?_⟩
  cases mode with
  | strict => exact ⟨by decide, by decide, by decide⟩
  | lenient => exact ⟨by decide, by decide, by decide⟩

end IRedAPD.Throttle

/-
  The statements of a request, run without anything in between, are the plugin.
-/
import IRedAPD.Daemon
import IRedAPD.Equiv.Plugins.Greylisting.Step
import IRedAPD.Equiv.Plugins.Throttle.Step

namespace IRedAPD

open Py

variable [Unicode]

/-! ### Throttling -/

namespace Throttle

variable {settings : Settings} {env : Env} {db : Db}

omit [Unicode] in
theorem run_rejectProgram (args : Args) (throttleInfo : Str) (e : Exceeded) :
    (rejectProgram env args throttleInfo e).run (Db.exec settings) db =
      ((reject env args throttleInfo e db.throttleTracking).1,
        { db with throttleTracking := (reject env args throttleInfo e db.throttleTracking).2 }) := by
  unfold rejectProgram reject sendNotification
  by_cases hnotifies : e.notifies env.now = true
  · rw [if_pos hnotifies, if_pos hnotifies]
    simp only
    cases env.sendmail (notification args throttleInfo e) with
    | error exn => rfl
    | ok sent =>
      cases e.ts.trackingId with
      | none => rfl
      | some id =>
        simp only
        split_ifs <;> rfl
  · rw [if_neg hnotifies, if_neg hnotifies]
    rfl

omit [Unicode] in
theorem run_updatesProgram (failed : List Statement) (us : Dict ℕ Update) :
    (updatesProgram env failed us).run (Db.exec settings) db =
      (⟨.ok SmtpActions.defaultAction, [], (us.foldl (runUpdate env) (failed, db.throttleTracking)).1⟩,
        { db with
          throttleTracking := (us.foldl (runUpdate env) (failed, db.throttleTracking)).2 }) := by
  induction us generalizing failed db with
  | nil => rfl
  | cons u us ih =>
    rw [List.foldl_cons, updatesProgram, runUpdate]
    by_cases hfails : env.fails (.updateTracking u.1) = true
    · rw [if_pos hfails, if_pos hfails]
      exact ih _
    · rw [if_neg hfails, if_neg hfails]
      exact ih _

omit [Unicode] in
theorem run_recordProgram (rec : Recording) :
    (recordProgram env rec).run (Db.exec settings) db =
      ((record env rec db.throttleTracking).1,
        { db with throttleTracking := (record env rec db.throttleTracking).2 }) := by
  unfold recordProgram record runInserts
  by_cases hempty : rec.sqlInserts.isEmpty = true
  · rw [if_pos hempty, if_pos hempty]
    exact run_updatesProgram _ _
  · rw [if_neg hempty, if_neg hempty]
    by_cases hfails : env.fails .insertTracking = true
    · rw [if_pos hfails, if_pos hfails]
      exact run_updatesProgram _ _
    · rw [if_neg hfails, if_neg hfails]
      simp only [Sql.Program.run, Db.exec, Write.exec]
      cases db.throttleTracking.insertAll (rec.sqlInserts.map Prod.snd) with
      | none => exact run_updatesProgram _ _
      | some t => exact run_updatesProgram _ _

/-- **The statements of a throttling request** are `apply_throttle`. -/
theorem run_program (throttle : List Setting) (call : Call) :
    (program settings throttle call).run (Db.exec settings) db =
      ((applyThrottle settings throttle call db.throttleTracking).1,
        { db with
          throttleTracking := (applyThrottle settings throttle call db.throttleTracking).2 }) := by
  obtain ⟨env, args⟩ := call
  unfold program applyThrottle
  simp only
  cases possibleAddrs settings env args with
  | error e => rfl
  | ok addrs =>
    simp only
    set sel := selection args (throttleRecords throttle (throttleKind args) addrs)
    by_cases hselect : env.fails .selectThrottle = true
    · rw [if_pos hselect, if_pos hselect]
      rfl
    rw [if_neg hselect, if_neg hselect]
    by_cases hempty : sel.tSettings.isEmpty = true
    · rw [if_pos hempty, if_pos hempty]
      rfl
    rw [if_neg hempty, if_neg hempty]
    cases checkMessage sel args with
    | some action => rfl
    | none =>
      unfold trackingProgram applyTracking
      by_cases htracking : env.fails .selectTracking = true
      · simp only [htracking, if_true]
        rfl
      simp only [htracking, Bool.false_eq_true, if_false, Sql.Program.run]
      generalize load env.now sel args (db.throttleTracking.select fun row =>
        sel.trackingSqlWhere.contains row.2.key) = ld
      cases (maxMsgsExceeded env args ld).or (maxQuotaExceeded env ld) with
      | some e => exact run_rejectProgram args sel.throttleInfo e
      | none => exact run_recordProgram _

end Throttle

/-! ### Greylisting -/

namespace Greylisting

variable {settings : Settings} {env : Env} {db : Db}

variable (settings) in
omit [Unicode] in
theorem replyOf_ok (b : Bool) : replyOf settings (.ok b) = replyAfter settings b := by
  cases b <;> rfl

omit [Unicode] in
/-- The statements of the tracking check. -/
theorem run_trackingProgram (kwargs : PluginKwargs) :
    (trackingProgram settings env kwargs).run (Db.exec settings) db =
      (replyOf settings (trackingCheck settings env kwargs db.greylistingTracking).1,
        { db with
          greylistingTracking :=
            (trackingCheck settings env kwargs db.greylistingTracking).2 }) := by
  unfold trackingProgram trackingCheck shouldBeGreylistedByTracking
  simp only [Sql.Program.run]
  cases if env.fails .selectTracking = true then none
    else db.greylistingTracking.find?
      (kwargs.senderWithoutExt, kwargs.recipientWithoutExt, kwargs.clientAddress) with
  | none =>
    simp only
    by_cases hfails : env.fails .insertTracking = true
    · rw [if_pos hfails, if_pos hfails, replyOf_ok]
      rfl
    · rw [if_neg hfails, if_neg hfails, replyOf_ok]
      simp only [Sql.Program.run, Db.exec, Write.exec]
      cases db.greylistingTracking.insert _ <;> rfl
  | some row =>
    simp only
    -- the branches of the source, each with the statement it sends and its failure
    by_cases hexpired : row.2.recordExpired < env.now
    · rw [if_pos hexpired, if_pos hexpired]
      by_cases hfails : env.fails .updateExpired = true
      · rw [if_pos hfails, if_pos hfails]
        rfl
      · rw [if_neg hfails, if_neg hfails, replyOf_ok]
        rfl
    rw [if_neg hexpired, if_neg hexpired]
    by_cases hblocked : env.now < row.2.blockExpired
    · rw [if_pos hblocked, if_pos hblocked]
      unfold updateBlocked
      by_cases hfails : (env.fails .updateBlocked && env.fails .updateBlockedAgain) = true
      · rw [if_pos hfails, if_pos hfails]
        rfl
      · rw [if_neg hfails, if_neg hfails, replyOf_ok]
        rfl
    rw [if_neg hblocked, if_neg hblocked]
    by_cases hlate : authTripletExpire settings env.now < row.2.recordExpired
    · rw [if_pos hlate, if_pos hlate, replyOf_ok]
      rfl
    rw [if_neg hlate, if_neg hlate, replyOf_ok]
    unfold acceptTriplet
    by_cases haccepted : env.fails .updateAccepted = true
    · by_cases hdeleted : env.fails .deleteTracking = true
      · simp only [haccepted, hdeleted, if_true]
        rfl
      · simp only [haccepted, hdeleted, if_true, Bool.false_eq_true, if_false]
        rfl
    · by_cases hdeleted : env.fails .deleteTracking = true
      · simp only [haccepted, hdeleted, if_true, Bool.false_eq_true, if_false]
        rfl
      · simp only [haccepted, hdeleted, Bool.false_eq_true, if_false]
        rfl

/-- **The statements of a greylisting request** are `restriction`. -/
theorem run_program (call : Env × PluginKwargs) :
    (program settings call).run (Db.exec settings) db =
      ((restriction settings call.1 call.2 db.greylistingTracking).1,
        { db with
          greylistingTracking := (restriction settings call.1 call.2 db.greylistingTracking).2 }) := by
  obtain ⟨env, kwargs⟩ := call
  unfold program restriction
  simp only
  cases bypass settings env kwargs with
  | error e => rfl
  | ok bypassed =>
    cases bypassed with
    | true => rfl
    | false =>
      simp only [Sql.Program.run]
      cases hpassed : clientAddressPassedInTracking env kwargs.clientAddress db.greylistingTracking with
      | error e =>
        unfold checkTracking
        rw [hpassed]
        rfl
      | ok passed =>
        cases passed with
        | true =>
          unfold checkTracking
          simp only [hpassed]
          by_cases hfails : env.fails .updatePassed = true
          · rw [if_pos hfails, if_pos hfails]
            rfl
          · rw [if_neg hfails, if_neg hfails]
            rfl
        | false =>
          rw [checkTracking_of_not_passed hpassed]
          exact run_trackingProgram kwargs

end Greylisting

end IRedAPD

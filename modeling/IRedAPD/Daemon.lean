/-
  The SQL statements of the requests the daemon handles.

  `throttleProgram` and `greylistingProgram` are `apply_throttle` and
  `restriction` of the greylisting plugin statement by statement, so that other
  processes can run theirs in between.
-/
import IRedAPD.Plugins.Greylisting
import IRedAPD.Plugins.Throttle
import IRedAPD.Sql.Program

namespace IRedAPD

open Py

variable [Unicode]

/-! ### Tables and writes -/

namespace Throttle

/-- A write to `throttle_tracking`. -/
inductive Write where
  | insert (rows : List Tracking)
  | update (id : ℕ) (u : Update)
  | notify (id : ℕ) (time : ℕ)

/-- What a write leaves, `none` when it fails on the unique index. -/
def Write.exec : Write → TrackingTable → Option TrackingTable
  | .insert rows, t => t.insertAll rows
  | .update id u, t => some (t.update (fun row => row.1 = id) u.apply u.key_apply)
  | .notify id time, t =>
    some (t.update (fun row => row.1 = id) (Tracking.notify time) (Tracking.key_notify time))

end Throttle

namespace Greylisting

/-- A write to `greylisting_tracking`, with the clock where it counts. -/
inductive Write where
  | insert (r : Tracking)
  | reset (k : Triplet) (now : ℤ)
  | block (k : Triplet)
  | accept (k : Triplet) (now : ℤ)
  | refresh (clientAddress : Str) (now : ℤ)
  | deleteOthers (clientAddress : Str)

/-- What a write leaves, `none` when it fails on the unique index. -/
def Write.exec (settings : Settings) : Write → TrackingTable → Option TrackingTable
  | .insert r, t => t.insert r
  | .reset k now, t =>
    some (updateTriplet t k (Tracking.reset settings now) (Tracking.key_reset settings now))
  | .block k, t => some (updateTriplet t k Tracking.block Tracking.key_block)
  | .accept k now, t =>
    some (updateTriplet t k (Tracking.accept settings now) (Tracking.key_accept settings now))
  | .refresh c now, t =>
    some (t.update (fun row => row.2.clientAddress = c ∧ row.2.passed = true)
      (Tracking.refresh settings now) (Tracking.key_refresh settings now))
  | .deleteOthers c, t =>
    some (t.delete fun row => row.2.clientAddress = c ∧ row.2.passed = false)

end Greylisting

/-- The tables the daemon and the cron job share. -/
structure Db where
  throttleTracking : Throttle.TrackingTable
  greylistingTracking : Greylisting.TrackingTable

/-- A write to one of the tables. -/
inductive Db.Write where
  | throttle (w : Throttle.Write)
  | greylisting (w : Greylisting.Write)

/-- What a write leaves. -/
def Db.exec (settings : Settings) : Db.Write → Db → Option Db
  | .throttle w, db => (w.exec db.throttleTracking).map fun t => { db with throttleTracking := t }
  | .greylisting w, db =>
    (w.exec settings db.greylistingTracking).map fun t => { db with greylistingTracking := t }

/-- The statements of a request. -/
abbrev Program (α : Type) := Sql.Program Db Db.Write α

/-! ### Throttling -/

namespace Throttle

/-- The statements of `reject`. -/
def rejectProgram (env : Env) (args : Args) (throttleInfo : Str) (e : Exceeded) :
    Program Output :=
  if e.notifies env.now then
    let mail := notification args throttleInfo e
    match env.sendmail mail, e.ts.trackingId with
    | .ok _, some id =>
      if id = 0 then .pure ⟨.ok SmtpActions.rejectQuotaExceeded, [mail], []⟩
      else if env.fails .updateNotify then
        .pure ⟨.ok SmtpActions.rejectQuotaExceeded, [mail], [.updateNotify]⟩
      else
        .write (.throttle (.notify id env.notifyTime)) fun _ =>
          .pure ⟨.ok SmtpActions.rejectQuotaExceeded, [mail], []⟩
    | _, _ => .pure ⟨.ok SmtpActions.rejectQuotaExceeded, [mail], []⟩
  else .pure ⟨.ok SmtpActions.rejectQuotaExceeded, [], []⟩

/-- The updates of `record`, after some statements that have failed. -/
def updatesProgram (env : Env) (failed : List Statement) : Dict ℕ Update → Program Output
  | [] => .pure ⟨.ok SmtpActions.defaultAction, [], failed⟩
  | u :: us =>
    if env.fails (.updateTracking u.1) then
      updatesProgram env (failed ++ [.updateTracking u.1]) us
    else .write (.throttle (.update u.1 u.2)) fun _ => updatesProgram env failed us

/-- The statements of `record`. -/
def recordProgram (env : Env) (rec : Recording) : Program Output :=
  if rec.sqlInserts.isEmpty then updatesProgram env [] rec.sqlUpdates
  else if env.fails .insertTracking then updatesProgram env [.insertTracking] rec.sqlUpdates
  else
    .write (.throttle (.insert (rec.sqlInserts.map Prod.snd))) fun ok =>
      updatesProgram env (if ok then [] else [.insertTracking]) rec.sqlUpdates

/-- The statements of `applyTracking`. -/
def trackingProgram (env : Env) (args : Args) (sel : Selection) : Program Output :=
  if env.fails .selectTracking then .pure ⟨.error .operationalError, [], [.selectTracking]⟩
  else
    .query fun db =>
      let ld := load env.now sel args
        (db.throttleTracking.select fun row => sel.trackingSqlWhere.contains row.2.key)
      match (maxMsgsExceeded env args ld).or (maxQuotaExceeded env ld) with
      | some e => rejectProgram env args sel.throttleInfo e
      | none => recordProgram env (collect env.now args ld)

/-- The statements of `apply_throttle` on `throttle_tracking`. -/
def program (settings : Settings) (throttle : List Setting) (call : Call) : Program Output :=
  let (env, args) := call
  match possibleAddrs settings env args with
  | .error e => .pure ⟨.error e, [], []⟩
  | .ok addrs =>
    if env.fails .selectThrottle then .pure ⟨.error .operationalError, [], [.selectThrottle]⟩
    else
      let sel := selection args (throttleRecords throttle (throttleKind args) addrs)
      if sel.tSettings.isEmpty then .pure ⟨.ok SmtpActions.defaultAction, [], []⟩
      else
        match checkMessage sel args with
        | some action => .pure ⟨.ok action, [], []⟩
        | none => trackingProgram env args sel

end Throttle

/-! ### Greylisting -/

namespace Greylisting

/-- The reply when the tracking check has an answer. -/
def replyAfter (settings : Settings) : Bool → Except Exn Str
  | true =>
    .ok (if settings.greylistingTrainingMode then SmtpActions.defaultAction
      else actionGreylisting settings)
  | false => .ok SmtpActions.defaultAction

/-- The statements of `_should_be_greylisted_by_tracking`, and the reply. -/
def trackingProgram (settings : Settings) (env : Env) (kwargs : PluginKwargs) :
    Program (Except Exn Str) :=
  let k := (kwargs.senderWithoutExt, kwargs.recipientWithoutExt, kwargs.clientAddress)
  .query fun db =>
    match if env.fails .selectTracking then none else db.greylistingTracking.find? k with
    | none =>
      if env.fails .insertTracking then .pure (replyAfter settings true)
      else
        .write (.greylisting (.insert (newTracking settings env.now kwargs.senderWithoutExt
          kwargs.senderDomain kwargs.recipientWithoutExt kwargs.recipientDomain
            kwargs.clientAddress))) fun _ => .pure (replyAfter settings true)
    | some (_, r) =>
      if r.recordExpired < env.now then
        if env.fails .updateExpired then .pure (.error .operationalError)
        else .write (.greylisting (.reset k env.now)) fun _ => .pure (replyAfter settings true)
      else if env.now < r.blockExpired then
        -- a failed update is sent once more
        if env.fails .updateBlocked && env.fails .updateBlockedAgain then .pure (.error .operationalError)
        else .write (.greylisting (.block k)) fun _ => .pure (replyAfter settings true)
      else if authTripletExpire settings env.now < r.recordExpired then
        .pure (replyAfter settings false)
      else
        let deleteOthers : Program (Except Exn Str) :=
          if env.fails .deleteTracking then .pure (replyAfter settings false)
          else
            .write (.greylisting (.deleteOthers kwargs.clientAddress)) fun _ =>
              .pure (replyAfter settings false)
        -- a failed update is logged, the delete follows all the same
        if env.fails .updateAccepted then deleteOthers
        else .write (.greylisting (.accept k env.now)) fun _ => deleteOthers

/-- The statements of `restriction` on `greylisting_tracking`. -/
def program (settings : Settings) (call : Env × PluginKwargs) : Program (Except Exn Str) :=
  let (env, kwargs) := call
  match bypass settings env kwargs with
  | .error e => .pure (.error e)
  | .ok true => .pure (.ok SmtpActions.defaultAction)
  | .ok false =>
    .query fun db =>
      match clientAddressPassedInTracking env kwargs.clientAddress db.greylistingTracking with
      | .error e => .pure (.error e)
      | .ok true =>
        if env.fails .updatePassed then .pure (.error .operationalError)
        else
          .write (.greylisting (.refresh kwargs.clientAddress env.now)) fun _ =>
            .pure (.ok SmtpActions.defaultAction)
      | .ok false => trackingProgram settings env kwargs

end Greylisting

end IRedAPD

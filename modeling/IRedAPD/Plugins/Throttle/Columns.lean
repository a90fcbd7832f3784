/-
  `plugins/throttle.py` on the tables of `SQL/iredapd.mysql`

  The columns of `throttle_tracking` have a range, so that a statement may fail,
  or store other values than it is given.  Apart from what its statements do,
  `applyThrottleIn` is `applyThrottle`.
-/
import IRedAPD.Plugins.Throttle
import IRedAPD.Sql.Column

namespace IRedAPD.Throttle

open Py

variable [Unicode]

/-! ### Columns -/

/-- `tid BIGINT(20) UNSIGNED` -/
def tidColumn : Sql.IntColumn := .unsigned 64

/-- The size of `account VARCHAR(255)`. -/
def accountSize : ℕ := 255

/-- `cur_msgs MEDIUMINT(8) UNSIGNED` -/
def curMsgsColumn : Sql.IntColumn := .unsigned 24

/-- `cur_quota INT(10) UNSIGNED`, and so `period` and the times -/
def intColumn : Sql.IntColumn := .unsigned 32

/-- The row an insert leaves. -/
def Tracking.store (mode : Sql.Mode) (r : Tracking) : Option Tracking := do
  let tid ← tidColumn.storeNat mode r.tid
  let account ← Sql.storeText accountSize mode r.account
  let period ← intColumn.storeNat mode r.period
  let curMsgs ← curMsgsColumn.store mode r.curMsgs
  let curQuota ← intColumn.store mode r.curQuota
  let initTime ← intColumn.storeNat mode r.initTime
  let lastTime ← intColumn.storeNat mode r.lastTime
  return { r with tid, account, period, curMsgs, curQuota, initTime, lastTime }

/-- The row an update leaves. -/
def Update.store (mode : Sql.Mode) (u : Update) (r : Tracking) : Option Tracking := do
  let period ← intColumn.storeNat mode u.period
  let lastTime ← intColumn.storeNat mode u.lastTime
  let initTime ← intColumn.storeNat mode u.initTime
  let curMsgs ← curMsgsColumn.store mode (u.curMsgs.apply r.curMsgs)
  let curQuota ← intColumn.store mode (u.curQuota.apply r.curQuota)
  return { r with period, curMsgs, curQuota, initTime, lastTime }

/-- The row a notification leaves. -/
def Tracking.storeNotify (mode : Sql.Mode) (time : ℕ) (r : Tracking) : Option Tracking :=
  (intColumn.storeNat mode time).map fun time => r.notify time

omit [Unicode] in
theorem Update.key_store {mode : Sql.Mode} {u : Update} {r r' : Tracking}
    (h : u.store mode r = some r') : r'.key = r.key := by
  unfold Update.store at h
  simp only [Option.bind_eq_bind, Option.bind_eq_some_iff, Option.pure_def, Option.some.injEq] at h
  obtain ⟨_, _, _, _, _, _, _, _, _, _, rfl⟩ := h
  rfl

omit [Unicode] in
theorem Tracking.key_storeNotify {mode : Sql.Mode} {time : ℕ} {r r' : Tracking}
    (h : r.storeNotify mode time = some r') : r'.key = r.key := by
  obtain ⟨time', -, rfl⟩ := Option.map_eq_some_iff.mp h
  rfl

/-! ### Statements -/

/-- `__sendmail` -/
def sendNotificationIn (mode : Sql.Mode) (env : Env) (mail : Mail) (trackingId : Option ℕ)
    (t : TrackingTable) : List Statement × TrackingTable :=
  match env.sendmail mail, trackingId with
  | .error _, _ => ([], t)
  | .ok _, none => ([], t)
  | .ok _, some id =>
    if id = 0 then ([], t)
    else if env.fails .updateNotify then ([.updateNotify], t)
    else
      match t.tryUpdate (fun row => row.1 = id) (Tracking.storeNotify mode env.notifyTime)
        (fun _ _ => Tracking.key_storeNotify) with
      | some t => ([], t)
      | none => ([.updateNotify], t)

/-- A rule is exceeded: the message is rejected. -/
def rejectIn (mode : Sql.Mode) (env : Env) (args : Args) (throttleInfo : Str) (e : Exceeded)
    (t : TrackingTable) : Output × TrackingTable :=
  if e.notifies env.now then
    let mail := notification args throttleInfo e
    let (failed, t) := sendNotificationIn mode env mail e.ts.trackingId t
    (⟨.ok SmtpActions.rejectQuotaExceeded, [mail], failed⟩, t)
  else (⟨.ok SmtpActions.rejectQuotaExceeded, [], []⟩, t)

/-- The insert of the new tracking records, whose failure is logged. -/
def runInsertsIn (mode : Sql.Mode) (env : Env) (inserts : Dict (ℕ × Str) Tracking)
    (t : TrackingTable) : List Statement × TrackingTable :=
  if inserts.isEmpty then ([], t)
  else if env.fails .insertTracking then ([.insertTracking], t)
  else
    match ((inserts.map Prod.snd).mapM (Tracking.store mode)).bind t.insertAll with
    | some t => ([], t)
    | none => ([.insertTracking], t)

/-- One update of a tracking record, whose failure is logged. -/
def runUpdateIn (mode : Sql.Mode) (env : Env) (st : List Statement × TrackingTable) (u : ℕ × Update) :
    List Statement × TrackingTable :=
  if env.fails (.updateTracking u.1) then (st.1 ++ [.updateTracking u.1], st.2)
  else
    match st.2.tryUpdate (fun row => row.1 = u.1) (u.2.store mode) (fun _ _ => Update.key_store) with
    | some t => (st.1, t)
    | none => (st.1 ++ [.updateTracking u.1], st.2)

/-- The statements of a message that is not rejected. -/
def recordIn (mode : Sql.Mode) (env : Env) (rec : Recording) (t : TrackingTable) :
    Output × TrackingTable :=
  let (failed, t) := rec.sqlUpdates.foldl (runUpdateIn mode env) (runInsertsIn mode env rec.sqlInserts t)
  (⟨.ok SmtpActions.defaultAction, [], failed⟩, t)

/-! ### `apply_throttle` -/

/-- `apply_throttle` from `# Get throttle tracking data.` on. -/
def applyTrackingIn (mode : Sql.Mode) (env : Env) (args : Args) (sel : Selection) (t : TrackingTable) :
    Output × TrackingTable :=
  if env.fails .selectTracking then (⟨.error .operationalError, [], [.selectTracking]⟩, t)
  else
    let ld := load env.now sel args (t.select fun row => sel.trackingSqlWhere.contains row.2.key)
    match (maxMsgsExceeded env args ld).or (maxQuotaExceeded env ld) with
    | some e => rejectIn mode env args sel.throttleInfo e t
    | none => recordIn mode env (collect env.now args ld) t

/-- `apply_throttle` on columns with a range. -/
def applyThrottleIn (mode : Sql.Mode) (settings : Settings) (throttle : List Setting) (call : Call)
    (t : TrackingTable) : Output × TrackingTable :=
  let (env, args) := call
  match possibleAddrs settings env args with
  | .error e => (⟨.error e, [], []⟩, t)
  | .ok addrs =>
    if env.fails .selectThrottle then (⟨.error .operationalError, [], [.selectThrottle]⟩, t)
    else
      let sel := selection args (throttleRecords throttle (throttleKind args) addrs)
      if sel.tSettings.isEmpty then (⟨.ok SmtpActions.defaultAction, [], []⟩, t)
      else
        match checkMessage sel args with
        | some action => (⟨.ok action, [], []⟩, t)
        | none => applyTrackingIn mode env args sel t

end IRedAPD.Throttle

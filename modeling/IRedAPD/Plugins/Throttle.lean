/-
  `plugins/throttle.py`

  `apply_throttle` is followed part by part: the rules that apply to a request
  (`selection`), the checks that need no tracking (`checkMessage`), the tracking
  data (`load`), the checks against it (`maxMsgsExceeded`, `maxQuotaExceeded`),
  and the statements that record the message (`collect`).
-/
import IRedAPD.Libs.Modeler
import IRedAPD.Libs.Utils
import IRedAPD.Sql.Table
import Mathlib.Data.List.Sort

namespace IRedAPD.Throttle

open Py

variable [Unicode]

/-! ### Tables -/

/-- A row of `throttle`. -/
structure Setting where
  id : ℕ
  account : Str
  kind : Str
  priority : ℤ
  /-- in seconds -/
  period : ℕ
  msgSize : ℤ := -1
  maxMsgs : ℤ := -1
  maxQuota : ℤ := -1
  maxRcpts : ℤ := -1
  deriving DecidableEq

/-- A row of `throttle_tracking`, less its id. -/
structure Tracking where
  tid : ℕ
  account : Str
  period : ℕ
  curMsgs : ℤ
  curQuota : ℤ
  initTime : ℕ
  lastTime : ℕ
  lastNotifyTime : ℕ := 0
  deriving DecidableEq

/-- The unique index `tid_account`. -/
def Tracking.key (r : Tracking) : ℕ × Str := (r.tid, r.account)

/-- `throttle_tracking` -/
abbrev TrackingTable := Sql.Table Tracking.key

/-! ### The call -/

/-- The arguments of `apply_throttle`. -/
structure Args where
  user : Str
  clientAddress : Str
  size : ℤ
  recipientCount : ℤ
  isSenderThrottling : Bool := true
  isExternalSender : Bool := false

/-- A notification email. -/
structure Mail where
  subject : Str
  body : Str
  deriving DecidableEq

/-- The SQL statements of the plugin. -/
inductive Statement where
  | selectThrottle
  | selectTracking
  | updateNotify
  | insertTracking
  | updateTracking (id : ℕ)
  deriving DecidableEq

/-- What a call finds: the clock, the answers of other modules, and which statements fail. -/
structure Env where
  /-- `int(time.time())` -/
  now : ℕ
  now_pos : 0 < now
  /-- `int(time.time())` after a notification has been sent -/
  notifyTime : ℕ
  /-- `get_alias_target_domain(alias_domain=...)` -/
  getAliasTargetDomain : Str → Except Exn (Option Str)
  /-- `utils.sendmail`, whose failure is logged unless it raises -/
  sendmail : Mail → Except Exn Bool
  /-- whether a statement fails, besides inserts of keys that exist -/
  fails : Statement → Bool

/-- What a call does besides changing `throttle_tracking`. -/
structure Output where
  action : Except Exn Str
  mails : List Mail := []
  failed : List Statement := []

/-- A call of `apply_throttle`. -/
abbrev Call := Env × Args

/-! ### Rules -/

/-- The keys of `t_settings`. -/
inductive Rule where
  | msgSize
  | maxRcpts
  | maxMsgs
  | maxQuota
  deriving DecidableEq

/-- The column of a rule. -/
def Rule.value : Rule → Setting → ℤ
  | .msgSize, s => s.msgSize
  | .maxRcpts, s => s.maxRcpts
  | .maxMsgs, s => s.maxMsgs
  | .maxQuota, s => s.maxQuota

/-- The name of a rule. -/
def Rule.name : Rule → Str
  | .msgSize => "msg_size"
  | .maxRcpts => "max_rcpts"
  | .maxMsgs => "max_msgs"
  | .maxQuota => "max_quota"

/-- The unit `throttle_info` gives. -/
def Rule.unit : Rule → Str
  | .msgSize | .maxQuota => " (bytes)"
  | .maxRcpts | .maxMsgs => ""

/-- A value of `t_settings`.  The entries of `msg_size` and `max_rcpts`, which are not tracked, leave
the tracking data as it is. -/
structure TSetting where
  tid : ℕ
  account : Str
  value : ℤ
  period : ℕ
  trackingId : Option ℕ := none
  curMsgs : ℤ := 0
  curQuota : ℤ := 0
  initTime : ℕ := 0
  lastTime : ℕ := 0
  lastNotifyTime : ℕ := 0
  trackKey : List Str := []
  deriving DecidableEq

/-- `possible_addrs`; `user.split('@', 1)` cannot be unpacked when the user has no `@`. -/
def possibleAddrs (settings : Settings) (env : Env) (args : Args) : Except Exn (List Str) := do
  let ofUser ←
    if args.user = [] then pure []
    else
      match splitOnce "@" args.user with
      | none => throw .valueError
      | some (username, domain) =>
        let target ← env.getAliasTargetDomain domain
        let ofTarget :=
          match target with
          | none => []
          | some target =>
            if target = [] then []
            else getPolicyAddressesFromEmail (username ++ '@' :: target)
        pure (getPolicyAddressesFromEmail args.user ++ ofTarget)
  return [args.clientAddress, "@ip"] ++ ofUser ++ wildcardIpv4 settings args.clientAddress

/-- `throttle_kind` -/
def throttleKind (args : Args) : Str :=
  if args.isSenderThrottling then
    if args.isExternalSender then "external" else "outbound"
  else "inbound"

/-- `throttle_records` -/
def throttleRecords (throttle : List Setting) (kind : Str) (addrs : List Str) : List Setting :=
  (throttle.filter fun s => s.kind == kind && addrs.contains s.account).insertionSort
    fun a b => b.priority ≤ a.priority

/-- What the loop over `throttle_records` collects. -/
structure Selection where
  tSettings : Dict Rule TSetting := []
  /-- `t_setting_ids` -/
  tSettingIds : Dict ℕ Str := []
  /-- `t_setting_rules` -/
  tSettingRules : Dict (ℕ × Str) (List Rule) := []
  /-- `continue_check_...` -/
  continueCheck : Rule → Bool := fun _ => true
  /-- `tracking_sql_where`, as the pairs `(tid, account)` it asks for -/
  trackingSqlWhere : List (ℕ × Str) := []
  /-- `throttle_info` -/
  throttleInfo : Str := []

/-- One `if continue_check_... and ... >= 0` of the loop. -/
def Selection.takeRule (user : Str) (rcd : Setting) (sel : Selection) (rule : Rule) : Selection :=
  if sel.continueCheck rule && decide (0 ≤ rule.value rcd) then
    let key := (rcd.id, rcd.account)
    { tSettings := sel.tSettings.set rule
        { tid := rcd.id, account := rcd.account, value := rule.value rcd, period := rcd.period }
      tSettingIds := sel.tSettingIds
      tSettingRules := sel.tSettingRules.set key ((sel.tSettingRules.get? key).getD [] ++ [rule])
      continueCheck := Function.update sel.continueCheck rule false
      trackingSqlWhere := sel.trackingSqlWhere ++ [(rcd.id, user)]
      throttleInfo := sel.throttleInfo ++ "id=".toList ++ natStr rcd.id ++ "/".toList ++ rule.name ++
        "=".toList ++ intStr (rule.value rcd) ++ rule.unit ++ "/account=".toList ++ rcd.account ++
        "; ".toList }
  else sel

/-- The body of the loop over `throttle_records`. -/
def Selection.takeRecord (user clientAddress : Str) (sel : Selection) (rcd : Setting) : Selection :=
  if rcd.period = 0 then sel
  else
    [.msgSize, .maxRcpts, .maxMsgs, .maxQuota].foldl (Selection.takeRule user rcd)
      { sel with
        tSettingIds := sel.tSettingIds.set rcd.id rcd.account
        tSettingRules := sel.tSettingRules.set (rcd.id, rcd.account) []
        trackingSqlWhere := sel.trackingSqlWhere ++ [(rcd.id, clientAddress)] }

/-- The loop over `throttle_records`. -/
def selection (args : Args) (records : List Setting) : Selection :=
  records.foldl (Selection.takeRecord args.user args.clientAddress) {}

/-- `current > value > 0` -/
def exceeds (current value : ℤ) : Prop := value < current ∧ 0 < value

instance (current value : ℤ) : Decidable (exceeds current value) :=
  inferInstanceAs (Decidable (_ ∧ _))

/-- The checks of `msg_size` and `max_rcpts`. -/
def checkMessage (sel : Selection) (args : Args) : Option Str :=
  if (sel.tSettings.get? .msgSize).any fun ts => exceeds args.size ts.value then
    some SmtpActions.rejectMsgSizeExceeded
  else if (sel.tSettings.get? .maxRcpts).any fun ts => exceeds args.recipientCount ts.value then
    some SmtpActions.rejectMaxRcptsExceeded
  else none

/-! ### Tracking -/

/-- The text a setting is tracked under. -/
def trackKeyOf (args : Args) (account : Str) : Str :=
  match isValidAmavisdAddress account with
  | some .ip | some .catchallIp => args.clientAddress
  | some .wildcardIp | some .wildcardAddr => account
  | _ => args.user

/-- `t_settings` from `# Update track_key.` on: `msg_size` and `max_rcpts` have been popped. -/
def trackedSettings (sel : Selection) (args : Args) : Dict Rule TSetting :=
  ((sel.tSettings.erase .msgSize).erase .maxRcpts).mapValues fun ts =>
    { ts with trackKey := ts.trackKey ++ [trackKeyOf args ts.account] }

/-- What the loop over `tracking_records` collects. -/
structure Loaded where
  tSettings : Dict Rule TSetting
  /-- `tracking_ids` -/
  trackingIds : Dict (ℕ × Str) ℕ := []
  /-- the local variable `_last_notify_time` -/
  lastNotifyTime : Option ℕ := none

/-- A setting with the data of a tracking record. -/
def TSetting.withRecord (now : ℕ) (row : ℕ × Tracking) (ts : TSetting) : TSetting :=
  { ts with
    trackingId := some row.1
    curMsgs := row.2.curMsgs
    curQuota := row.2.curQuota
    initTime := if row.2.initTime = 0 then now else row.2.initTime
    lastTime := row.2.lastTime
    lastNotifyTime := row.2.lastNotifyTime }

/-- The rules of the setting a tracking record belongs to. -/
def Selection.rulesOf (sel : Selection) (tid : ℕ) : List Rule :=
  ((sel.tSettingIds.get? tid).bind fun account => sel.tSettingRules.get? (tid, account)).getD []

/-- The body of the loop over `tracking_records`. -/
def Loaded.takeRecord (now : ℕ) (sel : Selection) (ld : Loaded) (row : ℕ × Tracking) : Loaded where
  tSettings := (sel.rulesOf row.2.tid).foldl
    (fun tSettings rule => tSettings.modify rule (TSetting.withRecord now row)) ld.tSettings
  trackingIds := ld.trackingIds.set row.2.key row.1
  lastNotifyTime := some row.2.lastNotifyTime

/-- The loop over `tracking_records`. -/
def load (now : ℕ) (sel : Selection) (args : Args) (rows : List (ℕ × Tracking)) : Loaded :=
  rows.foldl (Loaded.takeRecord now sel) { tSettings := trackedSettings sel args }

/-- The tracking record of a setting has expired. -/
def TSetting.expired (now : ℕ) (ts : TSetting) : Bool :=
  ts.period ≠ 0 ∧ 0 < ts.initTime ∧ ts.initTime + ts.period < now

/-- The `_init_time` of a check. -/
def TSetting.windowStart (now : ℕ) (ts : TSetting) : ℕ := if ts.expired now then now else ts.initTime

/-- `expired_tracking_ids` once both checks have been passed. -/
def expiredTrackingIds (now : ℕ) (ld : Loaded) : List ℕ :=
  [ld.tSettings.get? .maxMsgs, ld.tSettings.get? .maxQuota].filterMap fun ts =>
    (ts.filter (·.expired now)).bind (·.trackingId)

/-- A rule that is exceeded, with what its notification needs. -/
structure Exceeded where
  rule : Rule
  ts : TSetting
  /-- `_last_notify_time` -/
  lastNotifyTime : ℕ

/-- The check of `max_msgs`. -/
def maxMsgsExceeded (env : Env) (args : Args) (ld : Loaded) : Option Exceeded :=
  (ld.tSettings.get? .maxMsgs).bind fun ts =>
    let curMsgs := if ts.expired env.now then 0 else ts.curMsgs
    if exceeds (curMsgs + args.recipientCount) ts.value then
      some ⟨.maxMsgs, ts, ts.lastNotifyTime⟩
    else none

/-- The check of `max_quota`.  Its `_last_notify_time` is the one of the `max_msgs` check if there
was one, and that of the last tracking record otherwise. -/
def maxQuotaExceeded (env : Env) (ld : Loaded) : Option Exceeded :=
  (ld.tSettings.get? .maxQuota).bind fun ts =>
    let curQuota := if ts.expired env.now then 0 else ts.curQuota
    if exceeds curQuota ts.value then
      let lastNotifyTime :=
        match ld.tSettings.get? .maxMsgs with
        | some ts => ts.lastNotifyTime
        -- a quota that is exceeded has been loaded from a tracking record
        | none => ld.lastNotifyTime.getD 0
      some ⟨.maxQuota, ts, lastNotifyTime⟩
    else none

/-! ### Notifications -/

/-- The unit `__sendmail` is given. -/
def Rule.valueUnit : Rule → Str
  | .maxQuota => "bytes"
  | _ => ""

/-- The email `__sendmail` constructs. -/
def notification (args : Args) (throttleInfo : Str) (e : Exceeded) : Mail where
  subject := "Throttle quota exceeded: ".toList ++ args.user ++ ", ".toList ++ e.rule.name ++
    "=".toList ++ intStr e.ts.value ++ " ".toList ++ e.rule.valueUnit
  body := "- User: ".toList ++ args.user ++ "\n".toList ++
    "- Client IP address: ".toList ++ args.clientAddress ++ "\n".toList ++
    "- Throttle type: ".toList ++ throttleKind args ++ "\n".toList ++
    "- Throttle setting: ".toList ++ e.rule.name ++ "\n".toList ++
    "- Limit: ".toList ++ intStr e.ts.value ++ " ".toList ++ e.rule.valueUnit ++ "\n".toList ++
    "- Detailed setting: ".toList ++ throttleInfo ++ "\n".toList

/-- The notification is due: it is the first one, or the last one was not in the current window. -/
def Exceeded.notifies (now : ℕ) (e : Exceeded) : Bool :=
  let start := e.ts.windowStart now
  e.lastNotifyTime = 0 ∨ ¬ (start < e.lastNotifyTime ∧ e.lastNotifyTime ≤ start + e.ts.period)

/-- The row the notification leaves. -/
def Tracking.notify (time : ℕ) (r : Tracking) : Tracking := { r with lastNotifyTime := time }

omit [Unicode] in
theorem Tracking.key_notify (time : ℕ) (r : Tracking) : (r.notify time).key = r.key := rfl

/-- `__sendmail` -/
def sendNotification (env : Env) (mail : Mail) (trackingId : Option ℕ) (t : TrackingTable) :
    List Statement × TrackingTable :=
  match env.sendmail mail, trackingId with
  | .error _, _ => ([], t)
  | .ok _, none => ([], t)
  | .ok _, some id =>
    if id = 0 then ([], t)
    else if env.fails .updateNotify then ([.updateNotify], t)
    else ([], t.update (fun row => row.1 = id) (Tracking.notify env.notifyTime)
      (Tracking.key_notify env.notifyTime))

/-- A rule is exceeded: the message is rejected. -/
def reject (env : Env) (args : Args) (throttleInfo : Str) (e : Exceeded) (t : TrackingTable) :
    Output × TrackingTable :=
  if e.notifies env.now then
    let mail := notification args throttleInfo e
    let (failed, t) := sendNotification env mail e.ts.trackingId t
    (⟨.ok SmtpActions.rejectQuotaExceeded, [mail], failed⟩, t)
  else (⟨.ok SmtpActions.rejectQuotaExceeded, [], []⟩, t)

/-! ### Recording the message -/

/-- The right side of `cur_msgs=` and `cur_quota=`. -/
inductive Amount where
  | reset (n : ℤ)
  | add (n : ℤ)

/-- The new value of a column. -/
def Amount.apply : Amount → ℤ → ℤ
  | .reset n, _ => n
  | .add n, cur => cur + n

/-- A value of `sql_updates`. -/
structure Update where
  period : ℕ
  lastTime : ℕ
  initTime : ℕ
  curMsgs : Amount
  curQuota : Amount

/-- The row an update leaves. -/
def Update.apply (u : Update) (r : Tracking) : Tracking :=
  { r with
    period := u.period
    lastTime := u.lastTime
    initTime := u.initTime
    curMsgs := u.curMsgs.apply r.curMsgs
    curQuota := u.curQuota.apply r.curQuota }

omit [Unicode] in
theorem Update.key_apply (u : Update) (r : Tracking) : (u.apply r).key = r.key := rfl

/-- `sql_inserts` and `sql_updates` -/
structure Recording where
  sqlInserts : Dict (ℕ × Str) Tracking := []
  sqlUpdates : Dict ℕ Update := []

/-- The update of a tracking record. -/
def updateOf (now : ℕ) (args : Args) (expired : List ℕ) (ts : TSetting) (trackingId : ℕ) : Update :=
  if expired.contains trackingId then
    ⟨ts.period, now, now, .reset args.recipientCount, .reset args.size⟩
  else ⟨ts.period, now, ts.initTime, .add args.recipientCount, .add args.size⟩

/-- The tracking record of a setting that has none. -/
def newTracking (now : ℕ) (args : Args) (ts : TSetting) (k : Str) : Tracking where
  tid := ts.tid
  account := k
  period := ts.period
  curMsgs := args.recipientCount
  curQuota := args.size
  initTime := now
  lastTime := now

/-- The body of the loops over `t_settings` and `track_key`. -/
def Recording.takeKey (now : ℕ) (args : Args) (trackingIds : Dict (ℕ × Str) ℕ) (expired : List ℕ)
    (ts : TSetting) (rec : Recording) (k : Str) : Recording :=
  match trackingIds.get? (ts.tid, k) with
  | some id => { rec with sqlUpdates := rec.sqlUpdates.set id (updateOf now args expired ts id) }
  | none =>
    if (rec.sqlInserts.get? (ts.tid, k)).isSome then rec
    else { rec with sqlInserts := rec.sqlInserts.set (ts.tid, k) (newTracking now args ts k) }

/-- The loops over `t_settings` and `track_key`. -/
def collect (now : ℕ) (args : Args) (ld : Loaded) : Recording :=
  ld.tSettings.foldl (fun rec (_, ts) =>
    ts.trackKey.foldl (Recording.takeKey now args ld.trackingIds (expiredTrackingIds now ld) ts) rec) {}

/-- The insert of the new tracking records, whose failure is logged. -/
def runInserts (env : Env) (inserts : Dict (ℕ × Str) Tracking) (t : TrackingTable) :
    List Statement × TrackingTable :=
  if inserts.isEmpty then ([], t)
  else if env.fails .insertTracking then ([.insertTracking], t)
  else
    match t.insertAll (inserts.map Prod.snd) with
    | some t => ([], t)
    | none => ([.insertTracking], t)

/-- One update of a tracking record, whose failure is logged. -/
def runUpdate (env : Env) (st : List Statement × TrackingTable) (u : ℕ × Update) :
    List Statement × TrackingTable :=
  if env.fails (.updateTracking u.1) then (st.1 ++ [.updateTracking u.1], st.2)
  else (st.1, st.2.update (fun row => row.1 = u.1) u.2.apply u.2.key_apply)

/-- The statements of a message that is not rejected. -/
def record (env : Env) (rec : Recording) (t : TrackingTable) : Output × TrackingTable :=
  let (failed, t) := rec.sqlUpdates.foldl (runUpdate env) (runInserts env rec.sqlInserts t)
  (⟨.ok SmtpActions.defaultAction, [], failed⟩, t)

/-! ### `apply_throttle` -/

/-- `apply_throttle` from `# Get throttle tracking data.` on. -/
def applyTracking (env : Env) (args : Args) (sel : Selection) (t : TrackingTable) :
    Output × TrackingTable :=
  if env.fails .selectTracking then (⟨.error .operationalError, [], [.selectTracking]⟩, t)
  else
    let ld := load env.now sel args (t.select fun row => sel.trackingSqlWhere.contains row.2.key)
    match (maxMsgsExceeded env args ld).or (maxQuotaExceeded env ld) with
    | some e => reject env args sel.throttleInfo e t
    | none => record env (collect env.now args ld) t

/-- `apply_throttle` -/
def applyThrottle (settings : Settings) (throttle : List Setting) (call : Call) (t : TrackingTable) :
    Output × TrackingTable :=
  let (env, args) := call
  match possibleAddrs settings env args with
  | .error e => (⟨.error e, [], []⟩, t)
  | .ok addrs =>
    if env.fails .selectThrottle then (⟨.error .operationalError, [], [.selectThrottle]⟩, t)
    else
      let sel := selection args (throttleRecords throttle (throttleKind args) addrs)
      -- no setting, or no valid one
      if sel.tSettings.isEmpty then (⟨.ok SmtpActions.defaultAction, [], []⟩, t)
      else
        match checkMessage sel args with
        | some action => (⟨.ok action, [], []⟩, t)
        | none => applyTracking env args sel t

end IRedAPD.Throttle

/-
  `plugins/senderscore.py`

  The scores of clients are kept in `senderscore_cache`, a table the plugin
  shares with `tools/senderscore_admin.py` and `tools/cleanup_db.py`; `program`
  is `restriction` statement by statement, so that theirs can run in between.
-/
import IRedAPD.Libs.Modeler
import IRedAPD.Libs.Utils
import IRedAPD.Sql.Program
import IRedAPD.Sql.Table

namespace IRedAPD.Senderscore

open Py

/-- The settings, with those of the plugin and of the cleanup of its table. -/
structure Config extends Settings where
  /-- `SENDERSCORE_REJECT_SCORE` -/
  senderscoreRejectScore : ℤ := 30
  /-- `SENDERSCORE_CACHE_DAYS` -/
  senderscoreCacheDays : ℤ := 2

/-- A row of `senderscore_cache`. -/
structure Cached where
  clientAddress : Str
  score : ℤ
  time : ℤ
  deriving DecidableEq

/-- The primary key. -/
def Cached.key (r : Cached) : Str := r.clientAddress

/-- `senderscore_cache`; the table has no ids, and nothing reads those of the model. -/
abbrev CacheTable := Sql.Table Cached.key

/-- A write to `senderscore_cache`. -/
inductive Write where
  | insert (r : Cached)
  | insertAll (rs : List Cached)
  /-- `WHERE client_address IN ...` -/
  | delete (clientAddresses : List Str)

/-- What a write leaves, `none` when it fails on the primary key. -/
def Write.exec : Write → CacheTable → Option CacheTable
  | .insert r, t => t.insert r
  | .insertAll rs, t => t.insertAll rs
  | .delete clientAddresses, t =>
    some (t.delete fun row => clientAddresses.contains row.2.clientAddress)

/-- The statements of a process on `senderscore_cache`. -/
abbrev Program (α : Type) := Sql.Program CacheTable Write α

/-- What `get_dns_resolver().query(lookup_domain, 'A')` returns or raises. -/
inductive Answer where
  | addresses (ips : List Str)
  | noAnswer
  | nxdomain
  | timeout
  | error
  deriving DecidableEq

/-- The SQL statements of the plugin. -/
inductive Statement where
  | selectScore
  | insertScore
  deriving DecidableEq

/-- What a call finds: the clock, the name servers, and which statements fail. -/
structure Env where
  /-- `int(time.time())` -/
  now : ℤ
  query : Str → Answer
  /-- whether a statement fails, besides an insert of a client that exists -/
  fails : Statement → Bool

/-- A request that reaches the plugin. -/
abbrev Call := Env × PluginKwargs

/-- The action, and the names that have been looked up. -/
structure Output where
  action : Except Exn Str
  lookups : List Str := []

/-- `SMTP_ACTIONS['reject_low_sender_score']` -/
def rejectLowSenderScore : Str :=
  "REJECT Server IP address has bad reputation. FYI: https://www.senderscore.org/lookup.php?lookup="

/-- `'{}.{}.{}.{}.score.senderscore.com'.format(o4, o3, o2, o1)` -/
def lookupDomain (o1 o2 o3 o4 : Str) : Str :=
  join "." [o4, o3, o2, o1] ++ ".score.senderscore.com".toList

/-- The score an answer stands for and whether it is cached, `none` for an empty answer. -/
def Answer.score : Answer → Option (ℤ × Bool)
  | .addresses [] => none
  | .addresses (ip :: _) =>
    match parseInt ((ip.splitOn '.').getLastD []) with
    | .ok n => some (n, true)
    | .error _ => some (100, false)
  | .noAnswer | .nxdomain => some (100, true)
  | .timeout | .error => some (100, false)

/-- The action for a valid score. -/
def reply (config : Config) (clientAddress : Str) (score : ℤ) : Str :=
  if score ≤ config.senderscoreRejectScore then rejectLowSenderScore ++ clientAddress
  else SmtpActions.defaultAction

/-- The statements of `restriction` once there is a score. -/
def afterScore (config : Config) (env : Env) (clientAddress : Str) (lookups : List Str) (score : ℤ)
    (cacheTheScore : Bool) : Program Output :=
  let output : Output := ⟨.ok (reply config clientAddress score), lookups⟩
  if 0 ≤ score ∧ score ≤ 100 then
    -- a failed insert is logged
    if cacheTheScore && !env.fails .insertScore then
      .write (.insert ⟨clientAddress, score, env.now⟩) fun _ => .pure output
    else .pure output
  else .pure ⟨.ok SmtpActions.defaultAction, lookups⟩

/-- The statements of `restriction` when no score is cached. -/
def afterMiss (config : Config) (env : Env) (clientAddress : Str) : Program Output :=
  match clientAddress.splitOn '.' with
  | [o1, o2, o3, o4] =>
    let name := lookupDomain o1 o2 o3 o4
    match (env.query name).score with
    | none => .pure ⟨.ok SmtpActions.defaultAction, [name]⟩
    | some (score, cacheTheScore) => afterScore config env clientAddress [name] score cacheTheScore
  | _ => .pure ⟨.error .valueError, []⟩

/-- The statements of `restriction` from the `SELECT` on. -/
def afterSelect (config : Config) (env : Env) (clientAddress : Str) (t : CacheTable) :
    Program Output :=
  if env.fails .selectScore then .pure ⟨.error .operationalError, []⟩
  else
    match t.find? clientAddress with
    | some (_, row) => afterScore config env clientAddress [] row.score false
    | none => afterMiss config env clientAddress

/-- `restriction` before the `SELECT`: `true` when the client is not checked. -/
def bypass (config : Config) (kwargs : PluginKwargs) : Except Exn Bool :=
  if kwargs.saslUsername ≠ [] then .ok true
  else if !isIpv4 kwargs.clientAddress then .ok true
  else isTrustedClient config.toSettings kwargs.clientAddress

/-- The statements of `restriction`. -/
def program (config : Config) (call : Call) : Program Output :=
  let (env, kwargs) := call
  match bypass config kwargs with
  | .error e => .pure ⟨.error e, []⟩
  | .ok true => .pure ⟨.ok SmtpActions.defaultAction, []⟩
  | .ok false => .query fun t => afterSelect config env kwargs.clientAddress t

/-- `restriction` without anything in between. -/
def restriction (config : Config) (call : Call) (t : CacheTable) : Output × CacheTable :=
  (program config call).run Write.exec t

end IRedAPD.Senderscore

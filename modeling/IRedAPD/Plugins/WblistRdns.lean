/-
  `plugins/wblist_rdns.py`
-/
import IRedAPD.Libs.Modeler
import IRedAPD.Libs.Utils

namespace IRedAPD.WblistRdns

open Py

/-- A row of `wblist_rdns`, less its id. -/
structure Rdns where
  rdns : Str
  /-- `W` or `B` -/
  wb : Str
  deriving DecidableEq

/-- The SQL statements of the plugin. -/
inductive Statement where
  | selectWhitelist
  | selectBlacklist
  deriving DecidableEq

/-- What a call finds: the table, and which statements fail. -/
structure Env where
  wblistRdns : List Rdns
  fails : Statement → Bool := fun _ => false

/-- `reject_action` -/
def rejectAction (settings : Settings) : Str :=
  if settings.wblistDiscardInsteadOfReject then SmtpActions.discard
  else SmtpActions.rejectBlacklisted

/-- The loop over `_splited`: the names with a `.` in front, one label shorter each. -/
def dottedNames : List Str → List Str
  | [] => []
  | label :: labels => ('.' :: join "." (label :: labels)) :: dottedNames labels

/-- `_policy_rdns_names` -/
def policyRdnsNames (rdnsName : Str) : List Str := rdnsName :: dottedNames (rdnsName.splitOn '.')

/-- `SELECT rdns FROM wblist_rdns WHERE rdns IN ... AND wb=... LIMIT 1` -/
def selectRdns (rows : List Rdns) (names : List Str) (wb : Str) : Option Rdns :=
  rows.find? fun r => names.contains r.rdns && r.wb == wb

/-- `restriction` from the query of whitelisted names on. -/
def checkRdns (settings : Settings) (env : Env) (rdnsName : Str) : Except Exn Str :=
  if env.fails .selectWhitelist then .error .operationalError
  else
    match selectRdns env.wblistRdns (policyRdnsNames rdnsName) "W" with
    | some _ => .ok SmtpActions.defaultAction
    | none =>
      if env.fails .selectBlacklist then .error .operationalError
      else
        match selectRdns env.wblistRdns (policyRdnsNames rdnsName) "B" with
        | some _ => .ok (rejectAction settings)
        | none => .ok SmtpActions.defaultAction

/-- `restriction` -/
def restriction (settings : Settings) (env : Env) (kwargs : PluginKwargs) : Except Exn Str :=
  match kwargs.smtpSessionData.get? "reverse_client_name",
    kwargs.smtpSessionData.get? "client_address" with
  | some rdnsName, some clientAddress =>
    -- outgoing messages are not checked
    if kwargs.saslUsername ≠ [] then .ok SmtpActions.defaultAction
    else if rdnsName = "unknown".toList then .ok SmtpActions.defaultAction
    else
      match isTrustedClient settings clientAddress with
      | .error e => .error e
      | .ok true => .ok SmtpActions.defaultAction
      | .ok false => checkRdns settings env rdnsName
  | _, _ => .error .keyError

end IRedAPD.WblistRdns

/-
  `plugins/sql_ml_access_policy.py`

  The plugin only reads: the account tables are a read-only function of the
  world, read once for every statement.
-/
import IRedAPD.Libs.VmailSql

namespace IRedAPD.SqlMlAccessPolicy

open Py

variable [Unicode] {ω : Type*}

/-- `SELECT address FROM ... WHERE address IN ... AND ...=... LIMIT 1` finds a row. -/
def isOverseer (rows : List Overseer) (addresses : List Str) (sender : Str) : Bool :=
  rows.any fun r => addresses.contains r.address && r.overseer == sender

/-- The part of `restriction` once the policy of the list is known.  Moderators and owners are looked
up under the address the message was sent to. -/
def checkPolicy (tables : ω → Except Exn AccountTables) (kwargs : PluginKwargs)
    (realRecipientDomain policy : Str) (w : ω) : Except Exn Str := do
  let sender := kwargs.senderWithoutExt
  let senderDomain := kwargs.senderDomain
  let recipient := kwargs.recipientWithoutExt
  let recipientDomain := kwargs.recipientDomain
  if policy = MaillistPolicy.publicPolicy then
    return SmtpActions.defaultAction ++ " (Access policy is public)".toList
  let policy := currentPolicy policy
  if policy = MaillistPolicy.membersOnly ∨ policy = MaillistPolicy.membersAndModeratorsOnly ∨
      policy = MaillistPolicy.moderators then
    return SmtpActions.defaultAction ++ " (Let mlmmj handle the ACL)".toList
  let db ← tables w
  let aliasDomains := rcptAliasDomains db senderDomain realRecipientDomain
  let rcptUsername := splitFirst "@" recipient
  let addresses := recipient :: aliasDomains.map fun d => rcptUsername ++ '@' :: d
  let db ← tables w
  if isOverseer db.moderators addresses sender then
    return SmtpActions.defaultAction
  let db ← tables w
  if isOverseer db.maillistOwners addresses sender then
    return SmtpActions.defaultAction
  if policy = MaillistPolicy.domain then
    return passes (isSameDomain senderDomain recipientDomain realRecipientDomain aliasDomains)
  else if policy = MaillistPolicy.subdomain then
    return passes (isSameOrSubDomain sender senderDomain recipientDomain realRecipientDomain
      aliasDomains)
  else
    return SmtpActions.defaultAction ++ " (Unsupported policy: ".toList ++ policy ++ ". Bypass.)".toList

/-- `restriction` -/
def restriction (tables : ω → Except Exn AccountTables) (kwargs : PluginKwargs) (w : ω) :
    Except Exn Str := do
  let recipient := kwargs.recipientWithoutExt
  let db ← tables w
  match getAccessPolicy db.maillists recipient with
  | some policy => checkPolicy tables kwargs kwargs.recipientDomain policy w
  | none =>
    let db ← tables w
    let targetDomain := (getAliasTargetDomain db kwargs.recipientDomain).getD []
    if targetDomain = [] then
      return SmtpActions.defaultAction ++ " Recipient is not a mailing list account.".toList
    let realRecipient := splitFirst "@" recipient ++ '@' :: targetDomain
    let db ← tables w
    match getAccessPolicy db.maillists realRecipient with
    | some policy => checkPolicy tables kwargs targetDomain policy w
    | none => return SmtpActions.defaultAction ++ " (Recipient is not a mailing list account)".toList

/-- The plugin, which sets no `SMTP_PROTOCOL_STATE`. -/
def plugin (tables : ω → Except Exn AccountTables) : Plugin ω where
  smtpProtocolState := none
  restriction kwargs w := ((restriction tables kwargs w).map some, w)

end IRedAPD.SqlMlAccessPolicy

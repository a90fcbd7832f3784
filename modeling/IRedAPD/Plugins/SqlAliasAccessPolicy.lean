/-
  `plugins/sql_alias_access_policy.py`

  The plugin only reads: the account tables are a read-only function of the
  world, read once for every statement.
-/
import IRedAPD.Libs.VmailSql

namespace IRedAPD.SqlAliasAccessPolicy

open Py

variable [Unicode] {ω : Type*}

/-- `is_allowed_alias_domain_user` -/
def isAllowedAliasDomainUser (sender senderUsername senderDomain recipientDomain : Str)
    (rcptAliasDomains restrictedMembers : List Str) : Bool :=
  if rcptAliasDomains.contains senderDomain then
    let policySenders := [sender, senderUsername ++ '@' :: recipientDomain] ++
      rcptAliasDomains.map fun d => senderUsername ++ '@' :: d
    policySenders.any restrictedMembers.contains
  else false

/-- `get_members` -/
def getMembers (db : AccountTables) (mail : Str) : List Str :=
  (db.forwardings.filter fun r => r.address == mail && r.isList).map fun r =>
    Unicode.lower r.forwarding

/-- `get_moderators` -/
def getModerators (db : AccountTables) (mail : Str) : List Str :=
  (db.moderators.filter fun r => r.address == mail).map fun r => Unicode.lower r.overseer

/-- The part of `restriction` once the policy of the account is known. -/
def checkPolicy (tables : ω → Except Exn AccountTables) (kwargs : PluginKwargs)
    (realRecipient realRecipientDomain policy : Str) (w : ω) : Except Exn Str := do
  let sender := kwargs.senderWithoutExt
  let senderDomain := kwargs.senderDomain
  let senderUsername := splitFirst "@" sender
  let recipientDomain := kwargs.recipientDomain
  if policy = MaillistPolicy.publicPolicy then
    return SmtpActions.defaultAction ++ " (Access policy is public)".toList
  let policy := currentPolicy policy
  let db ← tables w
  let aliasDomains := rcptAliasDomains db senderDomain realRecipientDomain
  let members ←
    if policy = MaillistPolicy.membersOnly ∨ policy = MaillistPolicy.membersAndModeratorsOnly then do
      let db ← tables w
      pure (getMembers db realRecipient)
    else pure []
  let moderators ←
    if policy = MaillistPolicy.moderators ∨ policy = MaillistPolicy.membersAndModeratorsOnly then do
      let db ← tables w
      pure (getModerators db realRecipient)
    else pure []
  if policy = MaillistPolicy.domain then
    return passes (isSameDomain senderDomain recipientDomain realRecipientDomain aliasDomains)
  else if policy = MaillistPolicy.subdomain then
    return passes (isSameOrSubDomain sender senderDomain recipientDomain realRecipientDomain
      aliasDomains)
  else if policy = MaillistPolicy.moderators then
    return passes (moderators.contains sender || moderators.contains ("*@".toList ++ senderDomain) ||
      isAllowedAliasDomainUser sender senderUsername senderDomain recipientDomain aliasDomains
        moderators)
  else if policy = MaillistPolicy.membersOnly then
    return passes (members.contains sender ||
      isAllowedAliasDomainUser sender senderUsername senderDomain recipientDomain aliasDomains
        members)
  else if policy = MaillistPolicy.membersAndModeratorsOnly then
    return passes (members.contains sender || moderators.contains sender ||
      moderators.contains ("*@".toList ++ senderDomain) ||
      isAllowedAliasDomainUser sender senderUsername senderDomain recipientDomain aliasDomains
        (members ++ moderators))
  else
    return SmtpActions.defaultAction ++ " (Unsupported policy: ".toList ++ policy ++ ". Bypass.)".toList

/-- `restriction` -/
def restriction (tables : ω → Except Exn AccountTables) (kwargs : PluginKwargs) (w : ω) :
    Except Exn Str := do
  let recipient := kwargs.recipientWithoutExt
  let db ← tables w
  match getAccessPolicy db.aliases recipient with
  | some policy => checkPolicy tables kwargs recipient kwargs.recipientDomain policy w
  | none =>
    let db ← tables w
    let targetDomain := (getAliasTargetDomain db kwargs.recipientDomain).getD []
    if targetDomain = [] then
      return SmtpActions.defaultAction ++
        " Recipient is not a mail alias account or no access policy".toList
    let realRecipient := splitFirst "@" recipient ++ '@' :: targetDomain
    let db ← tables w
    match getAccessPolicy db.aliases realRecipient with
    | some policy => checkPolicy tables kwargs realRecipient targetDomain policy w
    | none =>
      return SmtpActions.defaultAction ++
        " (Recipient domain is an alias domain, but recipient is not a mail alias account)".toList

/-- The plugin, which sets no `SMTP_PROTOCOL_STATE`. -/
def plugin (tables : ω → Except Exn AccountTables) : Plugin ω where
  smtpProtocolState := none
  restriction kwargs w := ((restriction tables kwargs w).map some, w)

end IRedAPD.SqlAliasAccessPolicy

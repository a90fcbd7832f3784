/-
  `plugins/reject_sender_login_mismatch.py`

  The plugin only reads: the account database, DNS and the mlmmjadmin API are
  read-only functions of the world.
-/
import IRedAPD.Libs.Utils
import IRedAPD.Libs.Vmail

namespace IRedAPD.RejectSenderLoginMismatch

open Py

variable [Unicode] {ω : Type*}

/-- What the plugin calls. -/
structure Calls (ω : Type*) where
  connVmail : VmailConn ω
  /-- `is_local_domain(domain=..., include_backupmx=False)` -/
  isLocalDomain : Str → ω → Except Exn Bool
  /-- `dnsspf.is_allowed_server_in_spf(sender_domain=..., ip=...)` -/
  isAllowedServerInSpf : Str → Str → ω → Except Exn Bool
  /-- `requests.get(_api_endpoint, ...).json()['_success']` -/
  apiSuccess : Str → ω → Except Exn Bool

/-- The check of emails sent from external network. -/
def checkForged (settings : Settings) (calls : Calls ω) (sender senderName senderDomain : Str)
    (kwargs : PluginKwargs) (w : ω) : Except Exn Str := do
  if ← isTrustedClient settings kwargs.clientAddress then
    return SmtpActions.defaultAction
  if !settings.checkForgedSender then
    return SmtpActions.defaultAction
  if settings.allowedForgedSenders.contains sender ||
      settings.allowedForgedSenders.contains senderDomain ||
      settings.allowedForgedSenders.contains (senderName ++ "@*".toList) then
    return SmtpActions.defaultAction
  let isLocalSenderDomain ←
    if senderDomain = kwargs.recipientDomain then pure true
    else calls.isLocalDomain senderDomain w
  if !isLocalSenderDomain then
    return SmtpActions.defaultAction
  if settings.checkSpfIfLoginMismatch then
    if ← calls.isAllowedServerInSpf senderDomain kwargs.clientAddress w then
      return SmtpActions.defaultAction
  return SmtpActions.rejectForgedSender

/-- `ALLOWED_LOGIN_MISMATCH_SENDERS` lets the sender pass. -/
def isAllowedSender (settings : Settings) (saslUsername saslUsernameDomain senderDomain : Str) :
    Bool :=
  let allowed := settings.allowedLoginMismatchSenders
  if allowed.contains saslUsername then true
  else if allowed.contains saslUsernameDomain then true
  else if allowed.contains ('@' :: saslUsernameDomain) || allowed.contains "@." then
    saslUsernameDomain = senderDomain
  else false

/-- The filter of an alias address of the user. -/
def filterUserAlias (saslUsername sender : Str) : LdapFilter :=
  .and [.eq "objectClass" "mailUser", .eq "mail" saslUsername, .eq "shadowAddress" sender]

/-- The filter of a user who is a member of a list. -/
def filterListMember (saslUsername sender : Str) : LdapFilter :=
  .and [.eq "objectClass" "mailUser",
    .or [.eq "mail" saslUsername, .eq "shadowAddress" saslUsername], .eq "memberOfGroup" sender]

/-- The filter of an alias account with the user as a member. -/
def filterAliasMember (saslUsername sender : Str) : LdapFilter :=
  .and [.eq "objectClass" "mailAlias", .or [.eq "mail" sender, .eq "shadowAddress" sender],
    .eq "mailForwardingAddress" saslUsername]

/-- `query_filter` of the LDAP branch. -/
def queryFilter (settings : Settings) (saslUsername sender : Str) : LdapFilter :=
  let userAlias := filterUserAlias saslUsername sender
  let listMember := filterListMember saslUsername sender
  let aliasMember := filterAliasMember saslUsername sender
  if settings.allowedLoginMismatchStrictly && !settings.allowedLoginMismatchListMember then userAlias
  else if !settings.allowedLoginMismatchStrictly && settings.allowedLoginMismatchListMember then
    .or [listMember, aliasMember]
  else .or [userAlias, listMember, aliasMember]

/-- The filter of the mlmmj check, which names no address. -/
def filterMlmmj : LdapFilter :=
  .and [.eq "objectClass" "mailList", .eq "enabledService" "mlmmj", .eq "accountStatus" "active"]

/-- What the account database tells: the sender may pass, or whether the mlmmjadmin API is to be
asked about an address. -/
inductive Lookup where
  | accept
  | checkMlmmj (realSender : Str)
  | unknown
  deriving DecidableEq

/-- The LDAP branch. -/
def lookupLdap (settings : Settings)
    (search : LdapFilter → ω → Except Exn (List (Option Str × Ldif))) (saslUsername sender : Str)
    (w : ω) : Lookup :=
  if (getAccountLdif search (queryFilter settings saslUsername sender) w).1.isSome then .accept
  else if (getAccountLdif search filterMlmmj w).1.isSome then .checkMlmmj sender
  else .unknown

/-- `SELECT address FROM forwardings WHERE address=... AND (forwarding=... OR forwarding LIKE ...)
AND is_alias=1` -/
def hasUserAlias (db : VmailTables) (sender saslUsername saslUsernameUser saslUsernameDomain : Str) :
    Bool :=
  db.forwardings.any fun r =>
    r.address == sender && (r.forwarding == saslUsername ||
      Sql.like (saslUsernameUser ++ "+%%@".toList ++ saslUsernameDomain) r.forwarding) && r.isAlias

/-- `SELECT alias_domain FROM alias_domain WHERE alias_domain=... AND target_domain=...` -/
def hasAliasDomain (db : VmailTables) (senderDomain saslUsernameDomain : Str) : Bool :=
  db.aliasDomains.any fun r => r.aliasDomain == senderDomain && r.targetDomain == saslUsernameDomain

/-- The two queries of the list member check. -/
def lookupListMember (tables : ω → Except Exn VmailTables) (realSender realSaslUsername : Str)
    (w : ω) : Except Exn Lookup := do
  let db ← tables w
  if db.forwardings.any fun r => r.address == realSender && r.forwarding == realSaslUsername &&
      r.isList && r.active then
    return .accept
  let db ← tables w
  if db.maillists.any fun r => r.address == realSender && r.active then
    return .checkMlmmj realSender
  return .unknown

/-- The `is_strict` part of the SQL branch: `none` when the sender may pass, else `real_sender` and
`real_sasl_username`. -/
def checkStrict (tables : ω → Except Exn VmailTables)
    (sender senderName senderDomain saslUsername saslUsernameUser saslUsernameDomain : Str) (w : ω) :
    Except Exn (Option (Str × Str)) := do
  let db ← tables w
  if hasUserAlias db sender saslUsername saslUsernameUser saslUsernameDomain then
    return none
  else if senderDomain = saslUsernameDomain then
    return some (sender, saslUsername)
  else
    let db ← tables w
    -- another domain has to be an alias of the domain of the user
    if !hasAliasDomain db senderDomain saslUsernameDomain then
      return some (sender, saslUsername)
    else if senderName = saslUsernameUser then
      return none
    else
      return some (senderName ++ '@' :: saslUsernameDomain,
        saslUsernameUser ++ '@' :: saslUsernameDomain)

/-- The SQL branch. -/
def lookupSql (settings : Settings) (tables : ω → Except Exn VmailTables)
    (sender senderName senderDomain saslUsername saslUsernameUser saslUsernameDomain : Str) (w : ω) :
    Except Exn Lookup := do
  let real ←
    if settings.allowedLoginMismatchStrictly then
      checkStrict tables sender senderName senderDomain saslUsername saslUsernameUser
        saslUsernameDomain w
    else pure (some (sender, saslUsername))
  match real with
  | none => return .accept
  | some (realSender, realSaslUsername) =>
    if settings.allowedLoginMismatchListMember then
      lookupListMember tables realSender realSaslUsername w
    else return .unknown

/-- The check of alias domains and user alias addresses on either backend. -/
def lookupAccount (settings : Settings) (conn : VmailConn ω)
    (sender senderName senderDomain saslUsername saslUsernameDomain : Str) (w : ω) :
    Except Exn Lookup :=
  if settings.allowedLoginMismatchStrictly || settings.allowedLoginMismatchListMember then
    match conn with
    | .ldap search => .ok (lookupLdap settings search saslUsername sender w)
    | .sql tables =>
      let saslUsernameUser := splitFirst "@" saslUsername
      lookupSql settings tables sender senderName senderDomain saslUsername saslUsernameUser
        saslUsernameDomain w
  else .ok .unknown

/-- The endpoint of the mlmmjadmin API. -/
def apiEndpoint (settings : Settings) (realSender saslUsername : Str) : Str :=
  join "/" [settings.mlmmjadminApiEndpoint, realSender, "has_subscriber", saslUsername]

/-- The mlmmjadmin query: the sender may pass if it succeeds; an exception is logged. -/
def checkMlmmj (settings : Settings) (calls : Calls ω) (realSender saslUsername : Str) (w : ω) :
    Str :=
  if settings.mlmmjadminApiAuthToken ≠ [] ∧ settings.mlmmjadminApiEndpoint ≠ [] then
    match calls.apiSuccess (apiEndpoint settings realSender saslUsername) w with
    | .ok true => SmtpActions.defaultAction
    | .ok false => SmtpActions.rejectSenderLoginMismatch
    | .error _ => SmtpActions.rejectSenderLoginMismatch
  else SmtpActions.rejectSenderLoginMismatch

/-- The check of emails sent by authenticated users. -/
def checkAuthenticated (settings : Settings) (calls : Calls ω) (sender senderName senderDomain : Str)
    (kwargs : PluginKwargs) (w : ω) : Except Exn Str := do
  let saslUsername := kwargs.saslUsername
  let saslUsernameDomain := kwargs.saslUsernameDomain
  if sender = saslUsername then
    return SmtpActions.defaultAction
  let isStrict := settings.allowedLoginMismatchStrictly
  let allowListMember := settings.allowedLoginMismatchListMember
  if settings.allowedLoginMismatchSenders.isEmpty && !isStrict && !allowListMember then
    return SmtpActions.rejectSenderLoginMismatch
  if isAllowedSender settings saslUsername saslUsernameDomain senderDomain then
    return SmtpActions.defaultAction
  let lookup ← lookupAccount settings calls.connVmail sender senderName senderDomain saslUsername
    saslUsernameDomain w
  match lookup with
  | .accept => return SmtpActions.defaultAction
  | .checkMlmmj realSender => return checkMlmmj settings calls realSender saslUsername w
  | .unknown => return SmtpActions.rejectSenderLoginMismatch

/-- `restriction`; `sender.split('@', 1)` raises when the sender has no `@`. -/
def restriction (settings : Settings) (calls : Calls ω) (kwargs : PluginKwargs) (w : ω) :
    Except Exn Str := do
  let sender := kwargs.senderWithoutExt
  let (senderName, senderDomain) ←
    if sender = [] then pure ([], [])
    else
      match splitOnce "@" sender with
      | some parts => pure parts
      | none => throw .valueError
  if kwargs.saslUsername ≠ [] ∧ sender = [] then
    return SmtpActions.defaultAction
  if kwargs.saslUsername = [] then
    checkForged settings calls sender senderName senderDomain kwargs w
  else checkAuthenticated settings calls sender senderName senderDomain kwargs w

/-- The plugin, which sets no `SMTP_PROTOCOL_STATE`. -/
def plugin (settings : Settings) (calls : Calls ω) : Plugin ω where
  smtpProtocolState := none
  restriction kwargs w := ((restriction settings calls kwargs w).map some, w)

end IRedAPD.RejectSenderLoginMismatch

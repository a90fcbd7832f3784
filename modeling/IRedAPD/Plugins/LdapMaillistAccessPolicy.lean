/-
  `plugins/ldap_maillist_access_policy.py`

  The plugin only reads: the LDAP server is a read-only function of the world.
-/
import IRedAPD.Libs.Ldaplib
import IRedAPD.Py.ForLoop

namespace IRedAPD.LdapMaillistAccessPolicy

open Py

variable [Unicode] {ω : Type*}

/-- What the plugin calls. -/
structure Calls (ω : Type*) where
  ldapBasedn : Str
  /-- `conn.search_s` -/
  searchS : SearchS ω
  /-- the order of `list(set(...))` -/
  sets : SetOrder Str
  /-- `repr` of an exception -/
  reprExn : Exn → Str

/-- `SMTP_ACTIONS['default']` with a remark. -/
def defaultWith (remark : Str) : Str := SmtpActions.defaultAction ++ remark

/-! ### Senders that are allowed explicitly -/

/-- `_possible_sender_domains`: the loop over `_domain_parts` pops from the list it runs over. -/
def possibleSenderDomains (senderDomain : Str) : List Str :=
  (forEach Prod.snd (fun _ s => (s.1 ++ ['.' :: join "." s.2], s.2.tail))
    ([senderDomain], senderDomain.splitOn '.')).1

/-- The check of `listAllowedUser` before the access policy. -/
def checkExplicitlyAllowed (sender senderDomain : Str) (allowed : List Str) : Option Str :=
  if allowed.contains sender then
    some (defaultWith ("  (Sender is allowed explicitly: ".toList ++ sender ++ ")".toList))
  else if allowed.contains senderDomain || allowed.contains ("*@".toList ++ senderDomain) then
    some (defaultWith ("  (Sender domain is allowed explicitly: ".toList ++ senderDomain ++ ")".toList))
  else if (possibleSenderDomains senderDomain).any allowed.contains then
    some (defaultWith " (Sender domain or its sub-domain is explicitly allowed)")
  else none

/-! ### The policies -/

/-- The policies `domain` and `subdomain`. -/
def checkDomain (policy senderDomain : Str) (validRcptDomains : List Str) : Str :=
  if policy = MaillistPolicy.domain then
    if validRcptDomains.contains senderDomain then SmtpActions.defaultAction
    else SmtpActions.rejectNotAuthorized
  else if validRcptDomains.any fun d => senderDomain = d || endsWith senderDomain ('.' :: d) then
    SmtpActions.defaultAction
  else SmtpActions.rejectNotAuthorized

/-- The filter of the members of a list. -/
def filterMembers (recipient : Str) : LdapFilter :=
  .and [.eq "accountStatus" "active", .eq "memberOfGroup" recipient,
    .or [.eq "objectclass" "mailUser", .eq "objectClass" "mailExternalUser"]]

/-- The policy `membersonly`. -/
def checkMembers (calls : Calls ω) (dnRcptDomain recipient sender : Str) (w : ω) : Except Exn Str := do
  let attrs := ["mail".toList, "shadowAddress".toList]
  let qr ← calls.searchS ⟨dnRcptDomain, .subtree, filterMembers recipient, attrs⟩ w
  let allowedSenders ← collectStr attrs qr
  if allowedSenders.contains sender then return SmtpActions.defaultAction
  return SmtpActions.rejectNotAuthorized

/-- The filter of the members of a list and the list itself. -/
def filterMembersAndList (recipient : Str) : LdapFilter :=
  .or [.and [.eq "memberOfGroup" recipient,
      .or [.eq "objectClass" "mailUser", .eq "objectClass" "mailExternalUser"]],
    .and [.eq "objectclass" "mailList", .eq "mail" recipient]]

/-- The policy `membersandmoderatorsonly`; an exception is logged. -/
def checkMembersAndModerators (calls : Calls ω) (dnRcptDomain recipient sender : Str) (w : ω) : Str :=
  let attrs := ["mail".toList, "shadowAddress".toList, "listAllowedUser".toList]
  let allowedSenders := do
    let qr ← calls.searchS ⟨dnRcptDomain, .subtree, filterMembersAndList recipient, attrs⟩ w
    collectStr attrs qr
  match allowedSenders with
  | .ok allowedSenders =>
    if allowedSenders.contains sender then SmtpActions.defaultAction
    else SmtpActions.rejectNotAuthorized
  | .error e =>
    defaultWith (" (Error while querying allowed senders of mailing list (access policy: ".toList ++
      MaillistPolicy.membersAndModeratorsOnly ++ "): ".toList ++ calls.reprExn e ++ ")".toList)

/-! ### The policy `moderatorsonly` -/

/-- The lists of the classification loop. -/
structure Classified where
  allowedSenders : List Str
  users : List Str := []
  domains : List Str := []

/-- An address under the domain of the list. -/
def isLocalUser (recipientDomain address : Str) : Bool :=
  isEmail address && endsWith address ('@' :: recipientDomain)

/-- The domain a value names. -/
def namedDomain (value : Str) : Str := if startsWith value "." then lstripChar '.' value else value

/-- The body of the classification loop. -/
def classify (recipientDomain value : Str) (c : Classified) : Classified :=
  if isEmail value then
    if endsWith value ('@' :: recipientDomain) then
      { c with users := c.users ++ [value], allowedSenders := c.allowedSenders.erase value }
    else c
  else
    { c with domains := c.domains ++ [namedDomain value], allowedSenders := c.allowedSenders.erase value }

/-- The values of `listAllowedUser` that do not start with `*@`. -/
def withoutWildcards (explicitlyAllowed : List Str) : List Str :=
  explicitlyAllowed.filter fun s => !startsWith s "*@"

/-- Separate email addresses and domain names, in a loop over `allowed_senders`. -/
def classified (recipientDomain : Str) (explicitlyAllowed : List Str) : Classified :=
  forEach Classified.allowedSenders (classify recipientDomain)
    { allowedSenders := withoutWildcards explicitlyAllowed }

/-- The filter of the users with one of the addresses. -/
def filterUsers (users : List Str) : LdapFilter :=
  .and [.eq "objectClass" "mailUser", .eq "enabledService" "shadowaddress",
    .or (users.flatMap fun i => [.eq "mail" i, .eq "shadowAddress" i])]

/-- The addresses of the allowed users. -/
def userAddresses (calls : Calls ω) (dnRcptDomain : Str) (users : List Str) (w : ω) :
    Except Exn (List Str) :=
  if users.isEmpty then return []
  else do
    let attrs := ["mail".toList, "shadowAddress".toList]
    let qr ← calls.searchS ⟨"ou=Users,".toList ++ dnRcptDomain, .oneLevel, filterUsers users, attrs⟩ w
    collectStr attrs qr

/-- The filter of the domains with one of the names. -/
def filterDomains (domains : List Str) : LdapFilter :=
  .and [.eq "objectClass" "mailDomain", .eq "enabledService" "domainalias",
    .or (domains.flatMap fun i => [.eq "domainName" i, .eq "domainAliasName" i])]

/-- The names of the allowed domains.  The values are not converted to `str` here, so no `domain in
_domains` holds. -/
def domainNames (calls : Calls ω) (domains : List Str) (w : ω) : Except Exn (List PyText) :=
  if domains.isEmpty then return []
  else do
    let attrs := ["domainName".toList, "domainAliasName".toList]
    let qr ← calls.searchS ⟨calls.ldapBasedn, .oneLevel, filterDomains domains, attrs⟩ w
    return qr.flatMap fun entry =>
      let allDomains := (collectValues entry.2 attrs).map PyText.bytes
      allDomains.flatMap fun domain =>
        if (domains.map PyText.str).contains domain then allDomains else []

/-- The policy `moderatorsonly`. -/
def checkModerators (calls : Calls ω) (dnRcptDomain sender senderDomain recipientDomain : Str)
    (explicitlyAllowed : List Str) (w : ω) : Except Exn Str := do
  let c := classified recipientDomain explicitlyAllowed
  let addresses ← userAddresses calls dnRcptDomain c.users w
  let names ← domainNames calls c.domains w
  let allowedSenders := (c.allowedSenders ++ addresses).map PyText.str ++ names
  if allowedSenders.contains (.str sender) || allowedSenders.contains (.str senderDomain) then
    return SmtpActions.defaultAction
  return SmtpActions.rejectNotAuthorized

/-! ### The plugin -/

/-- The check of an access policy. -/
def checkPolicy (calls : Calls ω) (kwargs : PluginKwargs) (policy : Str) (validRcptDomains : List Str)
    (explicitlyAllowed : List Str) (w : ω) : Except Exn Str :=
  let sender := kwargs.senderWithoutExt
  let recipient := kwargs.recipientWithoutExt
  let dnRcptDomain := "domainName=".toList ++ kwargs.recipientDomain ++ ",".toList ++ calls.ldapBasedn
  if policy = MaillistPolicy.domain ∨ policy = MaillistPolicy.subdomain then
    return checkDomain policy kwargs.senderDomain validRcptDomains
  else if policy = MaillistPolicy.membersOnly then checkMembers calls dnRcptDomain recipient sender w
  else if policy = MaillistPolicy.membersAndModeratorsOnly then
    return checkMembersAndModerators calls dnRcptDomain recipient sender w
  else if policy = MaillistPolicy.moderators then
    if kwargs.saslUsername = [] then return SmtpActions.rejectNotAuthorized
    else
      checkModerators calls dnRcptDomain sender kwargs.senderDomain kwargs.recipientDomain
        explicitlyAllowed w
  else
    return defaultWith (" (Unknown access policy: ".toList ++ policy ++ ", no restriction)".toList)

/-- The checks of a list with a policy other than `public`. -/
def checkSender (calls : Calls ω) (kwargs : PluginKwargs) (recipientLdif : Ldif) (policy : Str) (w : ω) :
    Except Exn Str := do
  let sender := kwargs.senderWithoutExt
  -- `', '.join(None)`
  let some validRcptDomains :=
    getPrimaryAndAliasDomains calls.sets calls.searchS calls.ldapBasedn kwargs.recipientDomain w
    | throw .typeError
  if (getValues recipientLdif "listModerator").contains sender then
    return SmtpActions.defaultAction
  if (getValues recipientLdif "listOwner").contains sender then
    return SmtpActions.defaultAction
  let explicitlyAllowed := getValues recipientLdif "listAllowedUser"
  match checkExplicitlyAllowed sender kwargs.senderDomain explicitlyAllowed with
  | some action => return action
  | none => checkPolicy calls kwargs policy validRcptDomains explicitlyAllowed w

/-- The access policy of a list. -/
def accessPolicy (recipientLdif : Ldif) : Except Exn Str :=
  match recipientLdif.get? "accessPolicy" with
  | none => .ok (Unicode.lower MaillistPolicy.publicPolicy)
  | some (policy :: _) => .ok (Unicode.lower policy)
  -- `recipient_ldif.get('accessPolicy', [..])[0]`
  | some [] => .error .indexError

/-- The part of `restriction` after the checks that the recipient is a list. -/
def checkList (calls : Calls ω) (kwargs : PluginKwargs) (recipientLdif : Ldif) (w : ω) :
    Except Exn Str := do
  if getValues recipientLdif "accountStatus" ≠ ["active".toList] then
    return SmtpActions.reject
  let policy ← accessPolicy recipientLdif
  if policy = MaillistPolicy.publicPolicy then
    return defaultWith (" (Access policy: ".toList ++ MaillistPolicy.publicPolicy ++
      ", no restriction)".toList)
  let policy := if policy = MaillistPolicy.allowedOnly then MaillistPolicy.moderators else policy
  if (getValues recipientLdif "enabledService").contains "mlmmj".toList ∧
      (policy = MaillistPolicy.membersOnly ∨ policy = MaillistPolicy.moderators) then
    return SmtpActions.defaultAction
  checkSender calls kwargs recipientLdif policy w

/-- `restriction` -/
def restriction (calls : Calls ω) (kwargs : PluginKwargs) (w : ω) : Except Exn Str :=
  let recipient := kwargs.recipientWithoutExt
  if kwargs.saslUsername = recipient then
    return defaultWith " (sasl_username == recipient, not a mail list account)"
  else
    match kwargs.recipientLdif with
    | none => return defaultWith " (Recipient is not a local account - no LDIF data)"
    | some [] => return defaultWith " (Recipient is not a local account - no LDIF data)"
    | some recipientLdif =>
      match recipientLdif.get? "objectClass" with
      | none => throw .keyError
      | some objectClass =>
        if !objectClass.contains "mailList".toList then
          return defaultWith " (Recipient is not a mailing list account)"
        else checkList calls kwargs recipientLdif w

/-- The plugin, which sets `REQUIRE_LOCAL_RECIPIENT`. -/
def plugin (calls : Calls ω) : Plugin ω where
  smtpProtocolState := none
  requireLocalRecipient := true
  restriction kwargs w := ((restriction calls kwargs w).map some, w)

end IRedAPD.LdapMaillistAccessPolicy

/-
  The account tables the access policy plugins query on the SQL backends, and
  the queries of `libs/sql/__init__.py`.

  A query with `LIMIT 1` answers with the first row of the table that it
  selects; `account_type` is the table it is asked of.
-/
import IRedAPD.Libs.Utils
import IRedAPD.Libs.Vmail

namespace IRedAPD

open Py

variable [Unicode]

/-- A row of `domain`. -/
structure MailDomain where
  domain : Str
  active : Bool
  deriving DecidableEq

/-- A row of `alias` or of `maillists`; the access policy may be `NULL`. -/
structure PolicyAccount where
  address : Str
  accesspolicy : Option Str
  deriving DecidableEq

/-- A row of `moderators` or of `maillist_owners`. -/
structure Overseer where
  address : Str
  overseer : Str
  deriving DecidableEq

/-- The tables of the `vmail` database that the access policies are in; `aliases` is `alias`. -/
structure AccountTables where
  domains : List MailDomain
  aliasDomains : List AliasDomain
  aliases : List PolicyAccount
  maillists : List PolicyAccount
  forwardings : List Forwarding
  moderators : List Overseer
  maillistOwners : List Overseer

/-- `get_alias_target_domain`: `none` for `None`. -/
def getAliasTargetDomain (db : AccountTables) (aliasDomain : Str) : Option Str :=
  let aliasDomain := Unicode.lower aliasDomain
  if !isDomain aliasDomain then none
  else
    let record := db.aliasDomains.find? fun r => r.aliasDomain == aliasDomain &&
      db.domains.any fun d => d.active && d.domain == r.targetDomain
    record.map fun r => Unicode.lower r.targetDomain

/-- `get_access_policy` on the table of the account type: `none` for `None`. -/
def getAccessPolicy (accounts : List PolicyAccount) (mail : Str) : Option Str :=
  (accounts.find? fun r => r.address == mail).map fun r =>
    -- `str(None)`
    let policy := Unicode.lower (r.accesspolicy.getD "None")
    -- access_policy is not set, treats it as public
    if policy = [] then MaillistPolicy.publicPolicy else policy

/-- The query for `rcpt_alias_domains`: the sender domain, if it is an alias domain of the real
recipient domain. -/
def rcptAliasDomains (db : AccountTables) (senderDomain realRecipientDomain : Str) : List Str :=
  let record := db.aliasDomains.find? fun r =>
    r.aliasDomain == senderDomain && r.targetDomain == realRecipientDomain
  record.toList.map fun r => r.aliasDomain

/-- `'moderatorsonly'` instead of `'allowedonly'` (historical value). -/
def currentPolicy (policy : Str) : Str :=
  if policy = MaillistPolicy.allowedOnly then MaillistPolicy.moderators else policy

/-- The answer of a check that passes or not. -/
def passes (b : Bool) : Str := if b then SmtpActions.defaultAction else SmtpActions.rejectNotAuthorized

/-- The policy `domain`. -/
def isSameDomain (senderDomain recipientDomain realRecipientDomain : Str)
    (aliasDomains : List Str) : Bool :=
  senderDomain == recipientDomain || senderDomain == realRecipientDomain ||
    aliasDomains.contains senderDomain

/-- The policy `subdomain`. -/
def isSameOrSubDomain (sender senderDomain recipientDomain realRecipientDomain : Str)
    (aliasDomains : List Str) : Bool :=
  senderDomain == recipientDomain || senderDomain == realRecipientDomain ||
    endsWith sender ('.' :: recipientDomain) || endsWith sender ('.' :: realRecipientDomain) ||
    aliasDomains.contains senderDomain || aliasDomains.any fun d => endsWith sender ('.' :: d)

end IRedAPD

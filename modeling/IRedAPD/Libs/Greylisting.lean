/-
  `libs/greylisting.py`

  The functions put the texts they are given between quotes as they are, so what
  a statement does depends on the database (`Engine`).  `.ok ()` stands for
  `(True,)` and `.error` for `(False, error)`.
-/
import IRedAPD.Plugins.Greylisting
import IRedAPD.Sql.Engine
import IRedAPD.Sql.Statement

namespace IRedAPD.LibGl

open Py Greylisting

variable [Unicode]

/-! ### Tables -/

/-- A row of `greylisting_whitelists` or `greylisting_whitelist_domain_spf`, less its id. -/
structure WhitelistRow extends Whitelist where
  comment : Str
  deriving DecidableEq

/-- The unique index. -/
def WhitelistRow.key (r : WhitelistRow) : Str × Str := (r.account, r.sender)

/-- The unique index of `greylisting`. -/
def settingKey (r : Setting) : Str × Str := (r.account, r.sender)

/-- A table of whitelists. -/
abbrev WhitelistTable := Sql.Table WhitelistRow.key

/-- The greylisting tables of the database `iredapd`. -/
structure Tables where
  greylisting : Sql.Table settingKey := Sql.Table.empty
  whitelists : WhitelistTable := Sql.Table.empty
  whitelistDomainSpf : WhitelistTable := Sql.Table.empty
  /-- `greylisting_whitelist_domains` -/
  whitelistDomains : Sql.Table (id : Str → Str) := Sql.Table.empty
  tracking : TrackingTable := Sql.Table.empty

/-- What a call of the plugin finds of the tables. -/
def Tables.env (t : Tables) (env : Env) : Env :=
  { env with
    whitelistDomainSpf := t.whitelistDomainSpf.rows.map (·.2.toWhitelist)
    whitelists := t.whitelists.rows.map (·.2.toWhitelist)
    greylisting := t.greylisting.rows.map Prod.snd }

/-! ### Statements -/

/-- The comment of the rows that belong to a domain. -/
def autoUpdate (domain : Str) : Str := "AUTO-UPDATE: ".toList ++ domain

/-- The SQL statements of the module. -/
inductive Statement where
  | deleteSetting (account sender : Str)
  | insertSetting (r : Setting)
  | insertWhitelist (r : WhitelistRow)
  | insertDomain (domain : Str)
  | deleteDomain (domain : Str)
  /-- `DELETE FROM greylisting_whitelists WHERE COMMENT='AUTO-UPDATE: %s'` -/
  | deleteWhitelists (domain : Str)

/-- What the statements say. -/
def statements : Sql.Statements Statement Tables where
  texts
    | .deleteSetting account sender => [account, sender]
    | .insertSetting r => [r.account, r.sender]
    | .insertWhitelist r => [r.account, r.sender, r.comment]
    | .insertDomain domain => [domain]
    | .deleteDomain domain => [domain]
    | .deleteWhitelists domain => [autoUpdate domain]
  effect
    | .deleteSetting account sender, t =>
      some { t with
        greylisting := t.greylisting.delete fun r => r.2.account = account ∧ r.2.sender = sender }
    | .insertSetting r, t => (t.greylisting.insert r).map fun g => { t with greylisting := g }
    | .insertWhitelist r, t => (t.whitelists.insert r).map fun w => { t with whitelists := w }
    | .insertDomain domain, t =>
      (t.whitelistDomains.insert domain).map fun d => { t with whitelistDomains := d }
    | .deleteDomain domain, t =>
      some { t with whitelistDomains := t.whitelistDomains.delete fun r => r.2 = domain }
    | .deleteWhitelists domain, t =>
      some { t with whitelists := t.whitelists.delete fun r => r.2.comment = autoUpdate domain }

/-- The text of a statement. -/
def Statement.sql : Statement → Str
  | .deleteSetting account sender =>
    "DELETE FROM greylisting\n                  WHERE account=".toList ++ Sql.quoted account ++
      "\n                        AND sender=".toList ++ Sql.quoted sender ++
      "\n                ".toList
  | .insertSetting r =>
    "INSERT INTO greylisting (account, priority, sender, sender_priority, active)\n".toList ++
      "                                  VALUES (".toList ++ Sql.quoted r.account ++ ", ".toList ++
      intStr r.priority ++ ",\n                                          ".toList ++
      Sql.quoted r.sender ++ ", ".toList ++ intStr r.senderPriority ++
      ",\n                                          ".toList ++ intStr r.active ++ ")".toList
  | .insertWhitelist r =>
    "INSERT INTO greylisting_whitelists (account, sender, comment)\n".toList ++
      "                                             VALUES (".toList ++ Sql.quoted r.account ++
      ", ".toList ++ Sql.quoted r.sender ++ ", ".toList ++ Sql.quoted r.comment ++ ")".toList
  | .insertDomain domain =>
    "INSERT INTO greylisting_whitelist_domains (domain) VALUES (".toList ++ Sql.quoted domain ++
      ")".toList
  | .deleteDomain domain =>
    "DELETE FROM greylisting_whitelist_domains WHERE domain=".toList ++ Sql.quoted domain
  | .deleteWhitelists domain =>
    "DELETE FROM greylisting_whitelists WHERE COMMENT=".toList ++ Sql.quoted (autoUpdate domain)

/-- `'duplicate key' in error or 'duplicate entry' in error` -/
def isDuplicate (error : Str) : Bool :=
  let error := Unicode.lower error
  (splitOnce "duplicate key".toList error).isSome || (splitOnce "duplicate entry".toList error).isSome

/-- `engine_iredapd` -/
abbrev Engine := Sql.Engine statements isDuplicate

/-- `utils.execute_sql` -/
def execute (engine : Engine) (i : Statement) (t : Tables) : Except Str Unit × Tables :=
  match engine.exec i t with
  | .ok t => (.ok (), t)
  | .error e => (.error e, t)

/-- An error about a duplicate key is passed over. -/
def passDuplicate : Except Str Unit × Tables → Except Str Unit × Tables
  | (.error e, t) => if isDuplicate e then (.ok (), t) else (.error e, t)
  | r => r

/-! ### Settings -/

/-- `is_valid_sender` -/
def isValidSender (sender : Str) : Bool :=
  isIp sender ||
    (isValidAmavisdAddress sender).any
      [.catchall, .topLevelDomain, .domain, .subdomain, .email].contains

/-- `get_gl_base_setting`, with `active` -/
def getGlBaseSetting (account sender : Str) (active : ℤ) : Setting where
  account := account
  priority := getAccountPriority account
  sender := sender
  senderPriority := getAccountPriority sender
  active := active

/-- `delete_setting` -/
def deleteSetting (engine : Engine) (account sender : Str) (t : Tables) : Except Str Unit × Tables :=
  execute engine (.deleteSetting account sender) t

/-- `enable_greylisting` and `disable_greylisting` for the value of `active`; what `delete_setting`
returns is not looked at. -/
def setGreylisting (active : ℤ) (engine : Engine) (account sender : Str) (t : Tables) :
    Except Str Unit × Tables :=
  execute engine (.insertSetting (getGlBaseSetting account sender active))
    (deleteSetting engine account sender t).2

/-- `enable_greylisting` -/
def enableGreylisting (engine : Engine) (account sender : Str) (t : Tables) :
    Except Str Unit × Tables := setGreylisting 1 engine account sender t

/-- `disable_greylisting` -/
def disableGreylisting (engine : Engine) (account sender : Str) (t : Tables) :
    Except Str Unit × Tables := setGreylisting 0 engine account sender t

/-! ### Whitelists -/

/-- `add_whitelist_sender` -/
def addWhitelistSender (engine : Engine) (account sender comment : Str) (t : Tables) :
    Except Str Unit × Tables :=
  if !isValidSender sender then (.error "INVALID_SENDER".toList, t)
  else if !(isValidAmavisdAddress account).any [.catchall, .domain, .subdomain, .email].contains then
    (.error "INVALID_ACCOUNT".toList, t)
  else
    passDuplicate
      (execute engine (.insertWhitelist ⟨{ account := account, sender := sender }, comment⟩) t)

/-- `add_whitelist_domain` -/
def addWhitelistDomain (engine : Engine) (domain : Str) (t : Tables) : Except Str Unit × Tables :=
  if !isDomain domain then (.error "INVALID_DOMAIN".toList, t)
  else passDuplicate (execute engine (.insertDomain domain) t)

/-- `remove_whitelisted_domain` -/
def removeWhitelistedDomain (engine : Engine) (domain : Str) (t : Tables) :
    Except Str Unit × Tables :=
  if !isDomain domain then (.error "INVALID_DOMAIN".toList, t)
  else
    passDuplicate
      (match execute engine (.deleteDomain domain) t with
      | (.error e, t) => (.error e, t)
      | (.ok (), t) => execute engine (.deleteWhitelists domain) t)

end IRedAPD.LibGl

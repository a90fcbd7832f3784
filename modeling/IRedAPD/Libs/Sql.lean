/-
  `is_local_domain` of `libs/sql/__init__.py`, and what the sender channel of SRS
  asks the databases of a SQL backend.

  How a server compares texts is a parameter: a collation need not tell upper and
  lower case apart.
-/
import IRedAPD.Libs.Srslib
import IRedAPD.Libs.VmailSql

namespace IRedAPD.LibSql

open Py

variable [Unicode] {ω : Type*}

/-- A row of `domain`. -/
structure HostedDomain extends MailDomain where
  backupmx : Bool
  deriving DecidableEq

/-- The queries. -/
inductive Query where
  | domain
  | aliasDomain
  | srsExcludeDomains
  deriving DecidableEq

/-- The tables that are asked, of both databases, and which queries fail. -/
structure Tables where
  domains : List HostedDomain
  aliasDomains : List AliasDomain
  srsExcludeDomains : List Str
  fails : Query → Bool := fun _ => false

/-- `=` on two texts. -/
abbrev Collation := Str → Str → Bool

/-! ### `is_local_domain` -/

section

variable (collation : Collation) (t : Tables)

/-- `SELECT domain FROM domain ... LIMIT 1` -/
def selectDomain (domain : Str) (includeBackupmx : Bool) : Except Exn (Option HostedDomain) :=
  if t.fails .domain then .error .operationalError
  else
    .ok (t.domains.find? fun r =>
      collation r.domain domain && r.active && (includeBackupmx || !r.backupmx))

/-- `SELECT alias_domain.alias_domain FROM alias_domain, domain ... LIMIT 1` -/
def selectAliasDomain (domain : Str) : Except Exn (Option AliasDomain) :=
  if t.fails .aliasDomain then .error .operationalError
  else
    .ok (t.aliasDomains.find? fun r =>
      (t.domains.any fun d => d.active && collation d.domain r.targetDomain) &&
        collation r.aliasDomain domain)

/-- A query has found a row; an exception is only logged. -/
def hasRecord {α : Type*} : Except Exn (Option α) → Bool
  | .ok record => record.isSome
  | .error _ => false

/-- `is_local_domain`; `hostname` is what `socket.gethostname` returns. -/
def isLocalDomain (hostname domain : Str) (includeAliasDomain includeBackupmx : Bool) : Bool :=
  if !isDomain domain then false
  else if domain = hostname then true
  else if hasRecord (selectDomain collation t domain includeBackupmx) then true
  else includeAliasDomain && hasRecord (selectAliasDomain collation t domain)

/-- `SELECT id FROM srs_exclude_domains WHERE domain IN ... LIMIT 1` -/
def excludeDomains (possibleDomains : List Str) : Except Exn Bool :=
  if t.fails .srsExcludeDomains then .error .operationalError
  else .ok (t.srsExcludeDomains.any fun r => possibleDomains.any fun d => collation r d)

end

/-- An SRS service that asks the databases, as they are at the time. -/
def service (srs : SrsService ω) (collation : Collation) (hostname : Str) (tables : ω → Tables) :
    SrsService ω :=
  { srs with
    isLocalDomain := fun domain w =>
      (.ok (isLocalDomain collation (tables w) hostname domain true true), w)
    excludeDomains := fun domains w => (excludeDomains collation (tables w) domains, w) }

end IRedAPD.LibSql

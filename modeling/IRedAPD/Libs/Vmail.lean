/-
  The mail account databases: the tables of the SQL backends, and what the LDAP
  backend is asked.
-/
import IRedAPD.Libs.Modeler
import IRedAPD.Sql.Like

namespace IRedAPD

open Py

/-- A row of `forwardings`. -/
structure Forwarding where
  address : Str
  forwarding : Str
  isAlias : Bool
  isList : Bool
  active : Bool
  deriving DecidableEq

/-- A row of `alias_domain`. -/
structure AliasDomain where
  aliasDomain : Str
  targetDomain : Str
  deriving DecidableEq

/-- A row of `maillists`. -/
structure Maillist where
  address : Str
  active : Bool
  deriving DecidableEq

/-- The tables of the `vmail` database. -/
structure VmailTables where
  forwardings : List Forwarding
  aliasDomains : List AliasDomain
  maillists : List Maillist

/-- An LDAP search filter. -/
inductive LdapFilter where
  | eq (attr value : Str)
  | and (filters : List LdapFilter)
  | or (filters : List LdapFilter)

/-- `conn_vmail`: a statement on the SQL tables may fail, and so may an LDAP search. -/
inductive VmailConn (ω : Type*) where
  | sql (tables : ω → Except Exn VmailTables)
  | ldap (search : LdapFilter → ω → Except Exn (List (Option Str × Ldif)))

/-- `get_account_ldif` with a filter: the first entry found, `(None, None)` when there is none or
the search fails. -/
def getAccountLdif {ω : Type*} (search : LdapFilter → ω → Except Exn (List (Option Str × Ldif)))
    (queryFilter : LdapFilter) (w : ω) : Option Str × Option Ldif :=
  match search queryFilter w with
  | .ok ((dn, ldif) :: _) => (dn, some ldif)
  | .ok [] => (none, none)
  | .error _ => (none, none)

/-- The `Modeler` that `channel.py` imports for the backend. -/
def backendHandleData [Unicode] {ω : Type*} (conn : VmailConn ω)
    (senderLdif recipientLdif : GetAccountLdif ω) (plugins : List (Plugin ω)) (s : Session) (w : ω) :
    Except Exn Str × ω :=
  match conn with
  | .sql _ => sqlHandleData plugins s w
  | .ldap _ => ldapHandleData senderLdif recipientLdif plugins s w

end IRedAPD

/-
  LDAP searches as `python-ldap` answers them, and the query of
  `libs/ldaplib/conn_utils.py` for the domains of a domain.

  The values of an entry arrive as `bytes`; `utils.bytes2str` turns them into
  `str`.  A `bytes` is never equal to a `str`, so values that have not been
  converted are told apart from texts (`PyText`).
-/
import IRedAPD.Libs.Utils
import IRedAPD.Libs.Vmail
import IRedAPD.Py.SetOrder

namespace IRedAPD

open Py

variable [Unicode] {ω : Type*}

/-- The attributes of an entry as a search returns them. -/
abbrev RawLdif := Dict Str (List Bytes)

/-- A Python object that is a `str` or a `bytes`. -/
inductive PyText where
  | str (s : Str)
  | bytes (bs : Bytes)
  deriving DecidableEq

/-- The scope of a search. -/
inductive LdapScope where
  | oneLevel
  | subtree
  deriving DecidableEq

/-- The arguments of `search_s`. -/
structure LdapSearch where
  base : Str
  scope : LdapScope
  filter : LdapFilter
  attrs : List Str

/-- `conn.search_s`: the entries with their names. -/
abbrev SearchS (ω : Type*) := LdapSearch → ω → Except Exn (List (Str × RawLdif))

/-- `d.get(k, [])` -/
def getValues {α : Type*} (ldif : Dict Str (List α)) (k : Str) : List α := (ldif.get? k).getD []

/-- `_values += _ldif.get(k, [])` for every attribute. -/
def collectValues {α : Type*} (ldif : Dict Str (List α)) (attrs : List Str) : List α :=
  attrs.flatMap (getValues ldif)

/-- `bytes2str` of a value. -/
def bytes2str (b : Bytes) : Except Exn Str :=
  match decode b with
  | some s => .ok s
  | none => .error .unicodeDecodeError

/-- `bytes2str` of an entry. -/
def bytes2strLdif (ldif : RawLdif) : Except Exn Ldif :=
  ldif.mapM fun p => do
    let values ← p.2.mapM bytes2str
    return (p.1, values)

/-- The values of some attributes of every entry found, converted. -/
def collectStr (attrs : List Str) (qr : List (Str × RawLdif)) : Except Exn (List Str) := do
  let ldifs ← qr.mapM fun entry => bytes2strLdif entry.2
  return ldifs.flatMap fun ldif => collectValues ldif attrs

/-- The filter of a domain with one of the names. -/
def filterDomain (domain : Str) : LdapFilter :=
  .and [.eq "objectClass" "mailDomain", .or [.eq "domainName" domain, .eq "domainAliasName" domain]]

/-- `get_primary_and_alias_domains`: `none` for `None`, when there is no such domain. -/
def getPrimaryAndAliasDomains (sets : SetOrder Str) (searchS : SearchS ω) (ldapBasedn domain : Str)
    (w : ω) : Option (List Str) :=
  if !isDomain domain then some []
  else
    let attrs := ["domainName".toList, "domainAliasName".toList]
    match searchS ⟨ldapBasedn, .oneLevel, filterDomain domain, attrs⟩ w with
    | .ok ((_, ldif) :: _) =>
      match bytes2strLdif ldif with
      | .ok ldif => some (sets.order (collectValues ldif attrs))
      | .error _ => some []
    | .ok [] => none
    | .error _ => some []

end IRedAPD

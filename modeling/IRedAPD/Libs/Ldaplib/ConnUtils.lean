/-
  `libs/ldaplib/conn_utils.py` with the filters as the texts that are sent.

  The filters are put together from texts, without escapes.  The LDAP server
  reads them back: what it answers depends on the filter that the text denotes,
  which need not be the one the names of the functions speak of.
-/
import IRedAPD.Ldap.Directory
import IRedAPD.Ldap.FilterText

namespace IRedAPD

open Py

variable [Unicode] {ω : Type*}

/-- The arguments of `search_s`, with the filter as it is sent; all attributes are asked for when
`attrs` is `None`. -/
structure TextSearch where
  base : Str
  scope : LdapScope
  filter : Str
  attrs : Option (List Str)

/-- `conn_vmail.search_s` -/
abbrev SearchText (ω : Type*) := TextSearch → ω → Except Exn (List (Str × RawLdif))

namespace ConnUtils

/-- The filter of `get_account_ldif` when it is given none. -/
def accountFilter (account : Str) : Str :=
  "(&".toList ++
    "(!(domainStatus=disabled))".toList ++
    "(|(mail=".toList ++ account ++ ")(shadowAddress=".toList ++ account ++ "))".toList ++
    "(|".toList ++
    "(objectClass=mailUser)".toList ++
    "(objectClass=mailList)".toList ++
    "(objectClass=mailAlias)".toList ++
    "))".toList

/-- `get_account_ldif`: `(None, None)` when nothing is found or an exception is logged. -/
def getAccountLdif (searchS : SearchText ω) (ldapBasedn account : Str) (queryFilter : Option Str)
    (attrs : Option (List Str)) (w : ω) : Option Str × Option Ldif :=
  let queryFilter :=
    match queryFilter with
    | none => accountFilter account
    | some [] => accountFilter account
    | some queryFilter => queryFilter
  match searchS ⟨ldapBasedn, .subtree, queryFilter, attrs⟩ w with
  | .ok ((dn, ldif) :: _) =>
    match bytes2strLdif ldif with
    | .ok ldif => (some dn, some ldif)
    | .error _ => (none, none)
  | .ok [] => (none, none)
  | .error _ => (none, none)

/-- The end of the filters for domains. -/
def backupmxFilter (includeBackupmx : Bool) : Str :=
  if includeBackupmx then [] else "(!(domainBackupMX=yes))"

/-- `_filter` of `is_local_domain`. -/
def localDomainFilter (domain : Str) (includeAliasDomain includeBackupmx : Bool) : Str :=
  "(&(objectClass=mailDomain)(accountStatus=active)(enabledService=mail)".toList ++
    (if includeAliasDomain then
      "(|(domainName=".toList ++ domain ++ ")(domainAliasName=".toList ++ domain ++ "))".toList
    else "(domainName=".toList ++ domain ++ ")".toList) ++
    backupmxFilter includeBackupmx ++ ")".toList

/-- `is_local_domain`: `none` for `None`, when the search finds nothing.  `hostname` is what
`socket.gethostname` returns. -/
def isLocalDomain (searchS : SearchText ω) (hostname ldapBasedn domain : Str)
    (includeAliasDomain includeBackupmx : Bool) (w : ω) : Option Bool :=
  if !isDomain domain then some false
  else if domain = hostname then some true
  else
    let filter := localDomainFilter domain includeAliasDomain includeBackupmx
    match searchS ⟨ldapBasedn, .oneLevel, filter, some ["dn".toList]⟩ w with
    | .ok (_ :: _) => some true
    | .ok [] => none
    | .error _ => some false

/-- `_filter` of `get_alias_target_domain`. -/
def aliasTargetFilter (aliasDomain : Str) (includeBackupmx : Bool) : Str :=
  "(&(objectClass=mailDomain)(accountStatus=active)".toList ++
    "(domainAliasName=".toList ++ aliasDomain ++ ")".toList ++
    backupmxFilter includeBackupmx ++ ")".toList

/-- `get_alias_target_domain` -/
def getAliasTargetDomain (searchS : SearchText ω) (ldapBasedn aliasDomain : Str)
    (includeBackupmx : Bool) (w : ω) : Option Str :=
  let aliasDomain := Unicode.lower aliasDomain
  if !isDomain aliasDomain then none
  else
    let filter := aliasTargetFilter aliasDomain includeBackupmx
    match searchS ⟨ldapBasedn, .oneLevel, filter, some ["domainName".toList]⟩ w with
    | .ok ((_, ldif) :: _) =>
      match bytes2strLdif ldif with
      | .ok ldif =>
        match ldif.get? "domainName" with
        | some (domain :: _) => some domain
        -- the exceptions of `_ldif['domainName'][0]` are logged
        | some [] => none
        | none => none
      | .error _ => none
    | .ok [] => none
    | .error _ => none

end ConnUtils

/-! ### Filters put together from texts -/

mutual

/-- The filter as the format strings of the source write it. -/
def LdapFilter.text : LdapFilter → Str
  | .eq attr value => '(' :: attr ++ '=' :: value ++ [')']
  | .and filters => '(' :: '&' :: textAll filters ++ [')']
  | .or filters => '(' :: '|' :: textAll filters ++ [')']

def textAll : List LdapFilter → Str
  | [] => []
  | f :: fs => f.text ++ textAll fs

end

/-- A search as it is sent. -/
def SearchText.searchS (search : SearchText ω) : SearchS ω := fun s w =>
  search ⟨s.base, s.scope, s.filter.text, some s.attrs⟩ w

/-- `get_account_ldif(conn_vmail, account, query_filter, attrs=['dn'])` of a plugin. -/
def SearchText.accounts (search : SearchText ω) (ldapBasedn : Str) (f : LdapFilter) (w : ω) :
    Except Exn (List (Option Str × Ldif)) := do
  let qr ← search ⟨ldapBasedn, .subtree, f.text, some ["dn".toList]⟩ w
  match qr with
  | (dn, ldif) :: _ => return [(some dn, ← bytes2strLdif ldif)]
  | [] => return []

/-! ### The server -/

/-- A server that reads the filters it is sent: its entries, and which items of a filter hold of an
entry. -/
structure TextServer where
  entries : List DirectoryEntry
  item : Ldif → Ldap.Octets → Ldap.Comparison → List Ldap.Octets → Bool

namespace TextServer

/-- The entries a filter finds. -/
def found (server : TextServer) (base : Str) (scope : LdapScope) (f : Ldap.Filter) :
    List DirectoryEntry :=
  server.entries.filter fun e => Directory.covers base scope e.dn && f.holds (server.item e.ldif)

/-- The attributes of an entry that are sent. -/
def sent (attrs : Option (List Str)) (ldif : Ldif) : RawLdif :=
  match attrs with
  | some attrs => Directory.sent attrs ldif
  | none => ldif.map fun p => (p.1, p.2.map encode)

/-- The answer to a search: an exception when the filter cannot be read. -/
def search (server : TextServer) : SearchText ω := fun s _ =>
  match Ldap.parse (encode s.filter) with
  | some f => .ok ((server.found s.base s.scope f).map fun e => (e.dn, sent s.attrs e.ldif))
  | none => .error .operationalError

end TextServer

end IRedAPD

/-
  What the searches of the LDAP backend find on a server that reads the filters
  it is sent.

  `isDomain` keeps `(`, `)`, `*` and `\` out of the filters for domains, so these
  mean what they say unless the text has a NUL, which no server reads.  Nothing
  keeps the asterisk out of the filters for accounts: there an address with
  asterisks is compared as a pattern.
-/
import IRedAPD.Equiv.Libs.Ldaplib.FilterText

namespace IRedAPD

open Py

/-! ### Searches -/

section Searches

variable {ω : Type*} {server : TextServer}

/-- An entry has a value for the attribute; `parts` says how the value is read. -/
def TextServer.Has (server : TextServer) (parts : Str → List Ldap.Octets) (e : DirectoryEntry)
    (attr value : Str) : Prop := server.item e.ldif (encode attr) .equal (parts value) = true

theorem TextServer.search_of_reads {s : TextSearch} {f : Ldap.Filter}
    (h : Ldap.Reads (encode s.filter) f) (w : ω) : server.search s w =
      .ok ((server.found s.base s.scope f).map fun e => (e.dn, TextServer.sent s.attrs e.ldif)) := by
  unfold TextServer.search
  rw [Ldap.parse_eq_some_iff.mpr h]

/-- A NUL makes the filter unreadable. -/
theorem TextServer.search_of_nul {s : TextSearch} (h : '\x00' ∈ s.filter) (w : ω) :
    server.search s w = .error .operationalError := by
  have hnone : Ldap.parse (encode s.filter) = none := by
    rw [Option.eq_none_iff_forall_ne_some]
    intro f hf
    exact (Ldap.parse_eq_some_iff.mp hf).no_nul ((mem_encode_iff (c := '\x00') (by decide)).mpr h)
  unfold TextServer.search
  rw [hnone]

/-- The first of some entries with a property. -/
def First (P : DirectoryEntry → Prop) (entries : List DirectoryEntry) (e : DirectoryEntry) : Prop :=
  ∃ pre post, entries = pre ++ e :: post ∧ P e ∧ ∀ e' ∈ pre, ¬ P e'

theorem head?_found_iff {base : Str} {scope : LdapScope} {f : Ldap.Filter} {P : DirectoryEntry → Prop}
    (hP : ∀ e, (Directory.covers base scope e.dn && f.holds (server.item e.ldif)) = true ↔ P e)
    {e : DirectoryEntry} :
    (server.found base scope f).head? = some e ↔ First P server.entries e := by
  rw [TextServer.found, List.head?_filter, List.find?_eq_some_iff_append]
  simp only [Bool.not_eq_true', ← Bool.not_eq_true, hP, First]
  constructor
  · rintro ⟨he, pre, post, heq, hpre⟩
    exact ⟨pre, post, heq, he, hpre⟩
  · rintro ⟨pre, post, heq, he, hpre⟩
    exact ⟨he, pre, post, heq, hpre⟩

theorem found_eq_nil_iff {base : Str} {scope : LdapScope} {f : Ldap.Filter}
    {P : DirectoryEntry → Prop}
    (hP : ∀ e, (Directory.covers base scope e.dn && f.holds (server.item e.ldif)) = true ↔ P e) :
    server.found base scope f = [] ↔ ∀ e ∈ server.entries, ¬ P e := by
  rw [TextServer.found, List.filter_eq_nil_iff]
  simp only [hP]

/-- The attributes of an entry that arrive. -/
def TextServer.kept (attrs : Option (List Str)) (ldif : Ldif) : Ldif :=
  match attrs with
  | some attrs => ldif.filter fun p => attrs.contains p.1
  | none => ldif

theorem bytes2strLdif_sent (attrs : Option (List Str)) (ldif : Ldif) :
    bytes2strLdif (TextServer.sent attrs ldif) = .ok (TextServer.kept attrs ldif) := by
  cases attrs with
  | some attrs => exact Directory.bytes2strLdif_sent attrs ldif
  | none =>
    unfold bytes2strLdif
    show (ldif.map fun p => (p.1, p.2.map encode)).mapM _ = Except.ok ldif
    induction ldif with
    | nil => rfl
    | cons p ldif ih =>
      rw [List.map_cons, List.mapM_cons, ih, Directory.mapM_bytes2str]
      rfl

end Searches

/-! ### Filters for domains -/

theorem valuesAll_append (fs gs : List LdapFilter) :
    valuesAll (fs ++ gs) = valuesAll fs ++ valuesAll gs := by
  induction fs with
  | nil => rfl
  | cons f fs ih => rw [List.cons_append, valuesAll, valuesAll, ih, List.append_assoc]

theorem bareAll_append (fs gs : List Ldap.Filter) :
    Ldap.bareAll (fs ++ gs) = Ldap.bareAll fs ++ Ldap.bareAll gs := by
  induction fs with
  | nil => rfl
  | cons f fs ih => rw [List.cons_append, Ldap.bareAll, Ldap.bareAll, ih, List.append_assoc]

theorem allPlain_append {fs gs : List Ldap.Filter} :
    Ldap.AllPlain (fs ++ gs) ↔ Ldap.AllPlain fs ∧ Ldap.AllPlain gs := by
  induction fs with
  | nil => simp [Ldap.AllPlain]
  | cons f fs ih => rw [List.cons_append, Ldap.AllPlain, Ldap.AllPlain, ih, and_assoc]

/-- `domainBackupMX=yes` -/
def isBackupmx : LdapFilter := .eq "domainBackupMX" "yes"

/-- What a filter for domains asks for: some conditions, and that the domain is no backup MX. -/
def domainQuery (conditions : List LdapFilter) (includeBackupmx : Bool) : Ldap.Filter :=
  .and (denoteAll exactly conditions ++
    if includeBackupmx then [] else [.not (isBackupmx.denote exactly)])

theorem encode_domainQuery (conditions : List LdapFilter) (includeBackupmx : Bool) :
    encode ('(' :: '&' :: textAll conditions ++ ConnUtils.backupmxFilter includeBackupmx ++ [')']) =
      (domainQuery conditions includeBackupmx).bare := by
  have hopen : ∀ s, encode ('(' :: '&' :: s) = 0x28 :: 0x26 :: encode s := fun s => rfl
  have hbackupmx : encode (ConnUtils.backupmxFilter includeBackupmx) =
      Ldap.bareAll (if includeBackupmx then [] else [.not (isBackupmx.denote exactly)]) := by
    cases includeBackupmx with
    | true => rfl
    | false => decide
  rw [domainQuery, Ldap.Filter.bare, bareAll_append, ← encode_textAll intercalate_exactly,
    List.cons_append, List.cons_append, List.cons_append, List.cons_append, hopen, encode_append,
    encode_append, hbackupmx]
  rfl

theorem reads_domainQuery {conditions : List LdapFilter} (includeBackupmx : Bool)
    (hne : conditions ≠ []) (hformed : wellFormedAll conditions = true)
    (hvalues : ∀ v ∈ valuesAll conditions, NoSpecial v) :
    Ldap.Reads (encode ('(' :: '&' :: textAll conditions ++
        ConnUtils.backupmxFilter includeBackupmx ++ [')']))
      (domainQuery conditions includeBackupmx) := by
  rw [encode_domainQuery, Ldap.reads_bare_iff, domainQuery, Ldap.Filter.IsPlain, allPlain_append,
    allPlain_denote_iff exactly_ne_nil]
  refine ⟨?_, ⟨hformed, fun v hv => plain_exactly_iff.mpr (hvalues v hv)⟩, ?_⟩
  · simp [denoteAll_eq_map, hne]
  · cases includeBackupmx with
    | true => trivial
    | false =>
      refine ⟨(isPlain_denote_iff exactly_ne_nil isBackupmx).mpr ⟨by decide, ?_⟩, trivial⟩
      rw [isBackupmx, LdapFilter.values, List.forall_mem_singleton, plain_exactly_iff]
      decide

/-- Of the five characters only NUL can be in a domain. -/
theorem noSpecial_of_isDomain [Unicode] {domain : Str} (h : isDomain domain = true)
    (hnul : '\x00' ∉ domain) : NoSpecial domain := by
  have hchars : ∀ c ∈ domain, c ∉ "~!#$%^&*()+\\/ ".toList := by
    intro c hc hmem
    have hany : (domain.any fun c => "~!#$%^&*()+\\/ ".toList.contains c) = true :=
      List.any_eq_true.mpr ⟨c, hc, List.contains_iff_mem.mpr hmem⟩
    unfold isDomain at h
    rw [hany] at h
    cases h
  intro c hc hmem
  simp only [List.mem_cons, List.not_mem_nil, or_false] at hc
  rcases hc with rfl | rfl | rfl | rfl | rfl
  · exact hnul hmem
  · exact hchars _ hmem (by decide)
  · exact hchars _ hmem (by decide)
  · exact hchars _ hmem (by decide)
  · exact hchars _ hmem (by decide)

theorem holds_domainQuery {conditions : List LdapFilter} {includeBackupmx : Bool}
    {item : Ldap.Octets → Ldap.Comparison → List Ldap.Octets → Bool} :
    (domainQuery conditions includeBackupmx).holds item = true ↔
      (∀ f ∈ conditions, (f.denote exactly).holds item = true) ∧
        (includeBackupmx = true ∨ ¬ (isBackupmx.denote exactly).holds item = true) := by
  rw [domainQuery, Ldap.Filter.holds, Ldap.allHold_eq_all, List.all_append, Bool.and_eq_true,
    denoteAll_eq_map, List.all_map, List.all_eq_true]
  refine and_congr Iff.rfl ?_
  cases includeBackupmx with
  | true => simp
  | false => simp [Ldap.Filter.holds]

/-! ### `is_local_domain` -/

section LocalDomain

variable {ω : Type*} (server : TextServer)

/-- `(|(domainName=..)(domainAliasName=..))` or `(domainName=..)` -/
def domainNamed (domain : Str) (includeAliasDomain : Bool) : LdapFilter :=
  if includeAliasDomain then .or [.eq "domainName" domain, .eq "domainAliasName" domain]
  else .eq "domainName" domain

def localDomainConditions (domain : Str) (includeAliasDomain : Bool) : List LdapFilter :=
  [.eq "objectClass" "mailDomain", .eq "accountStatus" "active", .eq "enabledService" "mail"] ++
    [domainNamed domain includeAliasDomain]

theorem localDomainFilter_eq (domain : Str) (includeAliasDomain includeBackupmx : Bool) :
    ConnUtils.localDomainFilter domain includeAliasDomain includeBackupmx =
      '(' :: '&' :: textAll (localDomainConditions domain includeAliasDomain) ++
        ConnUtils.backupmxFilter includeBackupmx ++ [')'] := by
  unfold ConnUtils.localDomainFilter localDomainConditions domainNamed
  cases includeAliasDomain <;>
  · simp only [textAll, LdapFilter.text, List.append_assoc, List.cons_append, List.nil_append,
      Bool.false_eq_true, if_true, if_false]
    rfl

theorem mem_localDomainFilter {domain : Str} {c : Char} (h : c ∈ domain)
    (includeAliasDomain includeBackupmx : Bool) :
    c ∈ ConnUtils.localDomainFilter domain includeAliasDomain includeBackupmx := by
  unfold ConnUtils.localDomainFilter
  cases includeAliasDomain <;> simp [h]

/-- A domain of the directory that is local: its entry is active, serves mail, has the domain as its
name or as an alias, and is no backup MX. -/
structure TextServer.LocalDomain (base domain : Str) (includeAliasDomain includeBackupmx : Bool)
    (e : DirectoryEntry) : Prop where
  covers : Directory.covers base .oneLevel e.dn = true
  mailDomain : server.Has exactly e "objectClass" "mailDomain"
  active : server.Has exactly e "accountStatus" "active"
  mail : server.Has exactly e "enabledService" "mail"
  named : server.Has exactly e "domainName" domain ∨
    includeAliasDomain = true ∧ server.Has exactly e "domainAliasName" domain
  backupmx : includeBackupmx = true ∨ ¬ server.Has exactly e "domainBackupMX" "yes"

variable {server} in
theorem mem_found_localDomain {base domain : Str} {includeAliasDomain includeBackupmx : Bool}
    {e : DirectoryEntry} :
    e ∈ server.found base .oneLevel
        (domainQuery (localDomainConditions domain includeAliasDomain) includeBackupmx) ↔
      e ∈ server.entries ∧ server.LocalDomain base domain includeAliasDomain includeBackupmx e := by
  have hnamed : ((domainNamed domain includeAliasDomain).denote exactly).holds (server.item e.ldif) =
      true ↔ server.Has exactly e "domainName" domain ∨
        includeAliasDomain = true ∧ server.Has exactly e "domainAliasName" domain := by
    cases includeAliasDomain <;>
      simp [domainNamed, LdapFilter.denote, denoteAll, Ldap.Filter.holds, Ldap.anyHolds, TextServer.Has]
  rw [TextServer.found, List.mem_filter, Bool.and_eq_true, holds_domainQuery, localDomainConditions,
    List.forall_mem_append, List.forall_mem_singleton, hnamed]
  simp only [List.forall_mem_cons, List.not_mem_nil, false_implies, implies_true, and_true]
  constructor
  · rintro ⟨hmem, hcovers, ⟨⟨hdomain, hactive, hmail⟩, hnamed⟩, hbackupmx⟩
    exact ⟨hmem, hcovers, hdomain, hactive, hmail, hnamed, hbackupmx⟩
  · rintro ⟨hmem, h⟩
    exact ⟨hmem, h.covers, ⟨⟨h.mailDomain, h.active, h.mail⟩, h.named⟩, h.backupmx⟩

theorem reads_localDomainFilter {domain : Str} (h : NoSpecial domain)
    (includeAliasDomain includeBackupmx : Bool) :
    Ldap.Reads (encode (ConnUtils.localDomainFilter domain includeAliasDomain includeBackupmx))
      (domainQuery (localDomainConditions domain includeAliasDomain) includeBackupmx) := by
  rw [localDomainFilter_eq]
  refine reads_domainQuery includeBackupmx (by simp [localDomainConditions]) ?_ ?_
  · cases includeAliasDomain <;> rfl
  · have hconstant : ∀ v ∈ ["mailDomain".toList, "active".toList, "mail".toList], NoSpecial v := by
      decide
    have hnamed : ∀ v ∈ valuesAll [domainNamed domain includeAliasDomain], v = domain := by
      cases includeAliasDomain <;> simp [domainNamed, LdapFilter.values, valuesAll]
    intro v hv
    rw [localDomainConditions, valuesAll_append, List.mem_append] at hv
    rcases hv with hv | hv
    · exact hconstant v hv
    · rw [hnamed v hv]
      exact h

variable [Unicode]

/-- **When a domain is local.** A text that is no domain, or that has a NUL, never is, whatever the
directory holds. -/
theorem isLocalDomain_iff (hostname base domain : Str) (includeAliasDomain includeBackupmx : Bool)
    (w : ω) :
    ConnUtils.isLocalDomain server.search hostname base domain includeAliasDomain includeBackupmx w =
        some true ↔
      isDomain domain = true ∧ (domain = hostname ∨ '\x00' ∉ domain ∧
        ∃ e ∈ server.entries, server.LocalDomain base domain includeAliasDomain includeBackupmx e) := by
  unfold ConnUtils.isLocalDomain
  cases hdomain : isDomain domain with
  | false => simp
  | true =>
    by_cases hhost : domain = hostname
    · simp [hhost]
    · simp only [Bool.not_true, Bool.false_eq_true, if_false, true_and, hhost, false_or]
      by_cases hnul : '\x00' ∈ domain
      · rw [TextServer.search_of_nul (mem_localDomainFilter hnul _ _)]
        simp [hnul]
      · rw [TextServer.search_of_reads
          (reads_localDomainFilter (noSpecial_of_isDomain hdomain hnul) _ _)]
        simp only [hnul, not_false_eq_true, true_and, ← mem_found_localDomain]
        cases server.found base .oneLevel
            (domainQuery (localDomainConditions domain includeAliasDomain) includeBackupmx) with
        | nil => simp
        | cons e found => simp

end LocalDomain

/-! ### `get_alias_target_domain` -/

section AliasTargetDomain

variable {ω : Type*} (server : TextServer)

def aliasTargetConditions (aliasDomain : Str) : List LdapFilter :=
  [.eq "objectClass" "mailDomain", .eq "accountStatus" "active"] ++
    [.eq "domainAliasName" aliasDomain]

theorem aliasTargetFilter_eq (aliasDomain : Str) (includeBackupmx : Bool) :
    ConnUtils.aliasTargetFilter aliasDomain includeBackupmx =
      '(' :: '&' :: textAll (aliasTargetConditions aliasDomain) ++
        ConnUtils.backupmxFilter includeBackupmx ++ [')'] := by
  unfold ConnUtils.aliasTargetFilter aliasTargetConditions
  simp only [textAll, LdapFilter.text, List.append_assoc, List.cons_append, List.nil_append]
  rfl

theorem mem_aliasTargetFilter {aliasDomain : Str} {c : Char} (h : c ∈ aliasDomain)
    (includeBackupmx : Bool) : c ∈ ConnUtils.aliasTargetFilter aliasDomain includeBackupmx := by
  unfold ConnUtils.aliasTargetFilter
  simp only [List.mem_append, h, or_true, true_or]

/-- An active domain with the alias. -/
structure TextServer.AliasedDomain (base aliasDomain : Str) (includeBackupmx : Bool)
    (e : DirectoryEntry) : Prop where
  covers : Directory.covers base .oneLevel e.dn = true
  mailDomain : server.Has exactly e "objectClass" "mailDomain"
  active : server.Has exactly e "accountStatus" "active"
  named : server.Has exactly e "domainAliasName" aliasDomain
  backupmx : includeBackupmx = true ∨ ¬ server.Has exactly e "domainBackupMX" "yes"

variable {server} in
theorem holds_aliasTarget {base aliasDomain : Str} {includeBackupmx : Bool} (e : DirectoryEntry) :
    (Directory.covers base .oneLevel e.dn &&
      (domainQuery (aliasTargetConditions aliasDomain) includeBackupmx).holds (server.item e.ldif)) =
        true ↔ server.AliasedDomain base aliasDomain includeBackupmx e := by
  rw [Bool.and_eq_true, holds_domainQuery, aliasTargetConditions, List.forall_mem_append,
    List.forall_mem_singleton]
  simp only [List.forall_mem_cons, List.not_mem_nil, false_implies, implies_true, and_true]
  constructor
  · rintro ⟨hcovers, ⟨⟨hdomain, hactive⟩, hnamed⟩, hbackupmx⟩
    exact ⟨hcovers, hdomain, hactive, hnamed, hbackupmx⟩
  · intro h
    exact ⟨h.covers, ⟨⟨h.mailDomain, h.active⟩, h.named⟩, h.backupmx⟩

theorem reads_aliasTargetFilter {aliasDomain : Str} (h : NoSpecial aliasDomain)
    (includeBackupmx : Bool) :
    Ldap.Reads (encode (ConnUtils.aliasTargetFilter aliasDomain includeBackupmx))
      (domainQuery (aliasTargetConditions aliasDomain) includeBackupmx) := by
  rw [aliasTargetFilter_eq]
  refine reads_domainQuery includeBackupmx (by simp [aliasTargetConditions]) rfl ?_
  have hconstant : ∀ v ∈ ["mailDomain".toList, "active".toList], NoSpecial v := by decide
  intro v hv
  rw [aliasTargetConditions, valuesAll_append, List.mem_append] at hv
  rcases hv with hv | hv
  · exact hconstant v hv
  · rw [List.mem_singleton.mp hv]
    exact h

variable [Unicode]

/-- **The target of an alias domain** is the first name of the first entry with the alias. -/
theorem getAliasTargetDomain_eq_some_iff (base aliasDomain target : Str) (includeBackupmx : Bool)
    (w : ω) :
    ConnUtils.getAliasTargetDomain server.search base aliasDomain includeBackupmx w = some target ↔
      isDomain (Unicode.lower aliasDomain) = true ∧ '\x00' ∉ Unicode.lower aliasDomain ∧
        ∃ e, First (server.AliasedDomain base (Unicode.lower aliasDomain) includeBackupmx)
            server.entries e ∧ (getValues e.ldif "domainName").head? = some target := by
  unfold ConnUtils.getAliasTargetDomain
  generalize Unicode.lower aliasDomain = domain
  simp only
  cases hdomain : isDomain domain with
  | false => simp
  | true =>
    simp only [Bool.not_true, Bool.false_eq_true, if_false, true_and]
    by_cases hnul : '\x00' ∈ domain
    · rw [TextServer.search_of_nul (mem_aliasTargetFilter hnul _)]
      simp [hnul]
    · rw [TextServer.search_of_reads
        (reads_aliasTargetFilter (noSpecial_of_isDomain hdomain hnul) _)]
      simp only [hnul, not_false_eq_true, true_and, ← head?_found_iff holds_aliasTarget]
      cases server.found base .oneLevel
          (domainQuery (aliasTargetConditions domain) includeBackupmx) with
      | nil => simp
      | cons e found =>
        have hvalues := Directory.getValues_filter e.ldif
          (List.mem_singleton_self "domainName".toList)
        simp only [List.map_cons, bytes2strLdif_sent, TextServer.kept, List.head?_cons,
          Option.some.injEq, exists_eq_left']
        rw [← hvalues, getValues]
        cases Dict.get? (e.ldif.filter fun p => ["domainName".toList].contains p.1)
            "domainName".toList with
        | none => simp
        | some values =>
          cases values with
          | nil => simp
          | cons domain rest => simp

end AliasTargetDomain

/-! ### `get_primary_and_alias_domains` -/

section PrimaryAndAliasDomains

variable {ω : Type*} (server : TextServer)

variable [Unicode]

end PrimaryAndAliasDomains

/-! ### `get_account_ldif` -/

section AccountLdif

variable {ω : Type*} (server : TextServer)

/-- What the filter of `get_account_ldif` asks for: an account that is not disabled, with the address
as the pattern `parts` makes of it. -/
def accountQuery (parts : Str → List Ldap.Octets) (account : Str) : Ldap.Filter :=
  .and [.not ((LdapFilter.eq "domainStatus" "disabled").denote exactly),
    (LdapFilter.or [.eq "mail" account, .eq "shadowAddress" account]).denote parts,
    (LdapFilter.or [.eq "objectClass" "mailUser", .eq "objectClass" "mailList",
      .eq "objectClass" "mailAlias"]).denote exactly]

theorem accountFilter_eq (account : Str) :
    ConnUtils.accountFilter account =
      "(&(!".toList ++ (LdapFilter.eq "domainStatus" "disabled").text ++ ")".toList ++
        (LdapFilter.or [.eq "mail" account, .eq "shadowAddress" account]).text ++
        (LdapFilter.or [.eq "objectClass" "mailUser", .eq "objectClass" "mailList",
          .eq "objectClass" "mailAlias"]).text ++ ")".toList := by
  unfold ConnUtils.accountFilter
  simp only [LdapFilter.text, textAll, List.append_assoc, List.cons_append, List.nil_append]
  rfl

theorem encode_accountFilter {parts : Str → List Ldap.Octets}
    (hparts : ∀ v, [0x2a].intercalate (parts v) = encode v) (account : Str) :
    encode (ConnUtils.accountFilter account) = (accountQuery parts account).bare := by
  rw [accountFilter_eq]
  simp only [encode_append, accountQuery, Ldap.Filter.bare, Ldap.bareAll,
    ← encode_text intercalate_exactly, ← encode_text hparts, List.cons_append, List.append_assoc,
    List.nil_append]
  rfl

theorem reads_accountFilter {account : Str} (h : PatternText account) :
    Ldap.Reads (encode (ConnUtils.accountFilter account)) (accountQuery partsOf account) := by
  rw [encode_accountFilter intercalate_partsOf, Ldap.reads_bare_iff]
  refine ⟨List.cons_ne_nil _ _, ?_, ?_, ?_, trivial⟩
  · refine (isPlain_denote_iff exactly_ne_nil _).mpr ⟨rfl, fun v hv => plain_exactly_iff.mpr ?_⟩
    revert v
    decide
  · refine (isPlain_denote_iff partsOf_ne_nil _).mpr ⟨rfl, fun v hv => plain_partsOf_iff.mpr ?_⟩
    simp only [LdapFilter.values, valuesAll, List.append_nil, List.cons_append, List.nil_append,
      List.mem_cons, List.not_mem_nil, or_false, or_self] at hv
    rw [hv]
    exact h
  · refine (isPlain_denote_iff exactly_ne_nil _).mpr ⟨rfl, fun v hv => plain_exactly_iff.mpr ?_⟩
    revert v
    decide

/-- An account with an address that matches. -/
structure TextServer.Account (base account : Str) (e : DirectoryEntry) : Prop where
  covers : Directory.covers base .subtree e.dn = true
  enabled : ¬ server.Has exactly e "domainStatus" "disabled"
  address : server.Has partsOf e "mail" account ∨ server.Has partsOf e "shadowAddress" account
  kind : server.Has exactly e "objectClass" "mailUser" ∨ server.Has exactly e "objectClass" "mailList" ∨
    server.Has exactly e "objectClass" "mailAlias"

variable {server} in
theorem holds_accountQuery {base account : Str} (e : DirectoryEntry) :
    (Directory.covers base .subtree e.dn &&
      (accountQuery partsOf account).holds (server.item e.ldif)) = true ↔
        server.Account base account e := by
  simp only [accountQuery, LdapFilter.denote, denoteAll, Ldap.Filter.holds, Ldap.allHold,
    Ldap.anyHolds, Bool.and_eq_true, Bool.or_eq_true, Bool.not_eq_true', ← Bool.not_eq_true,
    and_true, Bool.or_false]
  constructor
  · rintro ⟨hcovers, henabled, haddress, hkind⟩
    exact ⟨hcovers, henabled, haddress, hkind⟩
  · intro h
    exact ⟨h.covers, h.enabled, h.address, h.kind⟩

/-- **The data of an account** is that of the first account with an address that matches the text as a
pattern; there is none when no account has such an address. -/
theorem getAccountLdif_spec (base : Str) {account : Str} (h : PatternText account)
    (attrs : Option (List Str)) (w : ω) :
    let r := ConnUtils.getAccountLdif server.search base account none attrs w
    (r = (none, none) ∧ ∀ e ∈ server.entries, ¬ server.Account base account e) ∨
      ∃ e, First (server.Account base account) server.entries e ∧
        r = (some e.dn, some (TextServer.kept attrs e.ldif)) := by
  intro r
  have hr : r = match server.found base .subtree (accountQuery partsOf account) with
      | e :: _ => (some e.dn, some (TextServer.kept attrs e.ldif))
      | [] => (none, none) := by
    simp only [r, ConnUtils.getAccountLdif]
    rw [TextServer.search_of_reads (reads_accountFilter h)]
    cases server.found base .subtree (accountQuery partsOf account) with
    | nil => rfl
    | cons e found => simp only [List.map_cons, bytes2strLdif_sent]
  cases hfound : server.found base .subtree (accountQuery partsOf account) with
  | nil =>
    rw [hfound] at hr
    exact .inl ⟨hr, (found_eq_nil_iff holds_accountQuery).mp hfound⟩
  | cons e found =>
    rw [hfound] at hr
    refine .inr ⟨e, (head?_found_iff holds_accountQuery).mp ?_, hr⟩
    rw [hfound]
    rfl

/-- The parts are found in a value one after the other, up to its end. -/
def partsFound : List Ldap.Octets → Ldap.Octets → Bool
  | [], value => value.isEmpty
  | [part], value => part.isSuffixOf value
  | part :: parts, value =>
    value.tails.any fun rest => part.isPrefixOf rest && partsFound parts (rest.drop part.length)

/-- A value for an assertion: with one part itself, with more what begins with the first of them and
has the others after it. -/
def valueMatches : List Ldap.Octets → Ldap.Octets → Bool
  | [], _ => false
  | [part], value => part == value
  | part :: parts, value => part.isPrefixOf value && partsFound parts (value.drop part.length)

/-- A server that compares letter for letter. -/
def literalServer (entries : List DirectoryEntry) : TextServer where
  entries
  item ldif attr _ parts :=
    ldif.any fun p => encode p.1 == attr && p.2.any fun v => valueMatches parts (encode v)

/-- A user whose domain is disabled. -/
def disabledUser : DirectoryEntry :=
  ⟨"mail=ann@b.ce,dc=x", [("objectClass", ["mailUser"]), ("mail", ["ann@b.ce"]),
    ("domainStatus", ["disabled"])]⟩

def activeUser : DirectoryEntry :=
  ⟨"mail=ann@b.cd,dc=x", [("objectClass", ["mailUser"]), ("mail", ["ann@b.cd"])]⟩

/-- An address with asterisks that both users have. -/
theorem getAccountLdif_spec_asterisks :
    ConnUtils.getAccountLdif (literalServer [disabledUser, activeUser]).search "dc=x" "a*@b.c*" none
      (some ["mail"]) () =
        (some "mail=ann@b.cd,dc=x".toList, some [("mail".toList, ["ann@b.cd".toList])]) := by
  have hdisabled : ¬ (literalServer [disabledUser, activeUser]).Account "dc=x" "a*@b.c*" disabledUser :=
    fun haccount => haccount.enabled rfl
  have hactive : (literalServer [disabledUser, activeUser]).Account "dc=x" "a*@b.c*" activeUser := by
    refine ⟨rfl, ?_, .inl rfl, .inl rfl⟩
    unfold TextServer.Has
    decide
  have hpattern : PatternText "a*@b.c*".toList := by decide
  rcases getAccountLdif_spec (literalServer [disabledUser, activeUser]) "dc=x" hpattern
    (some ["mail".toList]) () with ⟨-, hnone⟩ | ⟨e, ⟨pre, post, heq, he, hpre⟩, hr⟩
  · exact absurd hactive (hnone _ (List.mem_cons_of_mem _ List.mem_cons_self))
  · have heq' : [disabledUser, activeUser] = pre ++ e :: post := heq
    rcases pre with _ | ⟨d, _ | ⟨a, pre⟩⟩
    · obtain ⟨rfl, -⟩ := List.cons.inj heq'
      exact absurd he hdisabled
    · obtain ⟨-, htail⟩ := List.cons.inj heq'
      obtain ⟨rfl, -⟩ := List.cons.inj htail
      exact hr
    · obtain ⟨-, htail⟩ := List.cons.inj heq'
      obtain ⟨rfl, -⟩ := List.cons.inj htail
      exact absurd hactive (hpre _ (List.mem_cons_of_mem _ List.mem_cons_self))

end AccountLdif

end IRedAPD

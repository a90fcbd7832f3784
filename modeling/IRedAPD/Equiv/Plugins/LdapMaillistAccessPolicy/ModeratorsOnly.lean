/-
  Lists for moderators only, and the order of `listAllowedUser`.

  The classification loop removes each local user and each domain from the list
  it runs over and passes over the value after it, so the users it looks up are
  those of `everyOther` (`classified_users`).  The values of the domains found
  are not converted to text, so they allow no one (`domainNames_eq`).  What is
  left of the policy is `checkModerators_accepts_iff`: the sender is an address
  of a user that the loop has seen.

  The documented policy, a listed user or a listed domain, is followed for a
  list of values in every directory exactly when there is no domain among them
  and no two local users stand next to each other; for every order of the
  values, when there is no domain and at most one local user
  (`allowsListed_iff`).
-/
import IRedAPD.Equiv.Addresses
import IRedAPD.Equiv.Plugins.LdapMaillistAccessPolicy.SubDomains
import IRedAPD.Ldap.Directory

namespace IRedAPD

open Py

variable [Unicode] {ω : Type*}

namespace LdapMaillistAccessPolicy

/-! ### The classification loop -/

/-- A value that is taken for a domain. -/
def isDomainValue (value : Str) : Bool := !isEmail value && !startsWith value "*@"

/-- The values the loop removes. -/
def isRemoved (recipientDomain value : Str) : Bool :=
  isLocalUser recipientDomain value || !isEmail value

theorem allowedSenders_classify (recipientDomain value : Str) (c : Classified) :
    (classify recipientDomain value c).allowedSenders =
      if isRemoved recipientDomain value then c.allowedSenders.erase value else c.allowedSenders := by
  unfold classify isRemoved isLocalUser
  cases isEmail value <;> cases endsWith value ('@' :: recipientDomain) <;> rfl

theorem users_classify (recipientDomain value : Str) (c : Classified) :
    (classify recipientDomain value c).users =
      c.users ++ if isLocalUser recipientDomain value then [value] else [] := by
  unfold classify isLocalUser
  cases isEmail value <;> cases endsWith value ('@' :: recipientDomain) <;> simp

/-- **The users looked up** are the local ones among the values the loop sees. -/
theorem classified_users (recipientDomain : Str) (values : List Str) :
    (classified recipientDomain values).users =
      (everyOther (isRemoved recipientDomain) (withoutWildcards values)).filter
        (isLocalUser recipientDomain) := by
  have hloop := forEach_removing Classified.allowedSenders (classify recipientDomain)
    (isRemoved recipientDomain) Classified.users
    (fun value => if isLocalUser recipientDomain value then [value] else [])
    (allowedSenders_classify recipientDomain) (users_classify recipientDomain)
    { allowedSenders := withoutWildcards values }
  refine Eq.trans hloop ?_
  rw [List.nil_append]
  generalize everyOther (isRemoved recipientDomain) (withoutWildcards values) = seen
  induction seen with
  | nil => rfl
  | cons v seen ih =>
    rw [List.flatMap_cons, ih, List.filter_cons]
    split_ifs <;> rfl

/-- What the loop leaves has been listed. -/
theorem mem_of_mem_allowedSenders {recipientDomain value : Str} {values : List Str}
    (h : value ∈ (classified recipientDomain values).allowedSenders) : value ∈ values := by
  have hstep : ∀ x c, ∀ y ∈ (classify recipientDomain x c).allowedSenders, y ∈ c.allowedSenders := by
    intro x c y hy
    rw [allowedSenders_classify] at hy
    split_ifs at hy
    · exact List.mem_of_mem_erase hy
    · exact hy
  exact List.mem_of_mem_filter (mem_of_mem_forEach hstep h)

/-! ### The directory -/

/-- Where the users of a domain are. -/
def usersDn (ldapBasedn recipientDomain : Str) : Str :=
  "ou=Users,".toList ++ ("domainName=".toList ++ recipientDomain ++ ",".toList ++ ldapBasedn)

/-- The addresses of an entry. -/
def addressesOf (e : DirectoryEntry) : List Str :=
  collectValues e.ldif ["mail".toList, "shadowAddress".toList]

/-- The names of a domain entry. -/
def domainNamesOf (e : DirectoryEntry) : List Str :=
  collectValues e.ldif ["domainName".toList, "domainAliasName".toList]

/-- A user of the domain for whom alias addresses are enabled. -/
def UserEntry (dir : Directory) (ldapBasedn recipientDomain : Str) (e : DirectoryEntry) : Prop :=
  e ∈ dir.entries ∧ Directory.covers (usersDn ldapBasedn recipientDomain) .oneLevel e.dn = true ∧
    dir.holdsEq e.ldif "objectClass" "mailUser" = true ∧
    dir.holdsEq e.ldif "enabledService" "shadowaddress" = true

/-- A mail domain for which alias domains are enabled. -/
def DomainEntry (dir : Directory) (ldapBasedn : Str) (e : DirectoryEntry) : Prop :=
  e ∈ dir.entries ∧ Directory.covers ldapBasedn .oneLevel e.dn = true ∧
    dir.holdsEq e.ldif "objectClass" "mailDomain" = true ∧
    dir.holdsEq e.ldif "enabledService" "domainalias" = true

/-- The user has the address. -/
def HasAddress (dir : Directory) (e : DirectoryEntry) (v : Str) : Prop :=
  dir.holdsEq e.ldif "mail" v = true ∨ dir.holdsEq e.ldif "shadowAddress" v = true

/-- The domain has the name. -/
def HasName (dir : Directory) (e : DirectoryEntry) (v : Str) : Prop :=
  dir.holdsEq e.ldif "domainName" v = true ∨ dir.holdsEq e.ldif "domainAliasName" v = true

/-- The sender is an address of a local user among the values. -/
def IsListedUser (dir : Directory) (ldapBasedn recipientDomain sender : Str) (values : List Str) :
    Prop :=
  ∃ e, UserEntry dir ldapBasedn recipientDomain e ∧
    (∃ v ∈ values, isLocalUser recipientDomain v = true ∧ HasAddress dir e v) ∧
    sender ∈ addressesOf e

/-- The sender's domain is a name of a domain among the values. -/
def IsListedDomain (dir : Directory) (ldapBasedn senderDomain : Str) (values : List Str) : Prop :=
  ∃ e, DomainEntry dir ldapBasedn e ∧
    (∃ v ∈ values, isDomainValue v = true ∧ HasName dir e (namedDomain v)) ∧
    senderDomain ∈ domainNamesOf e

/-- The directory has the domain of the list, and its mail addresses hold an `@`. -/
structure Hosts (dir : Directory) (ldapBasedn recipientDomain : Str) : Prop where
  domain : ∃ e ∈ dir.entries, Directory.covers ldapBasedn .oneLevel e.dn = true ∧
    dir.holds e.ldif (filterDomain recipientDomain) = true
  at_mem : ∀ e ∈ dir.entries, ∀ v ∈ addressesOf e, '@' ∈ v

/-- An authenticated sender who is no moderator, owner or listed directly writes to a list with the
policy `moderatorsonly`. -/
structure ModeratedRequest (kwargs : PluginKwargs) (ldif : Ldif) (values : List Str) : Prop where
  list : RestrictedList ldif MaillistPolicy.moderators ∨ RestrictedList ldif MaillistPolicy.allowedOnly
  ldif_eq : kwargs.recipientLdif = some ldif
  values_eq : getValues ldif "listAllowedUser" = values
  authenticated : kwargs.saslUsername ≠ []
  not_self : kwargs.saslUsername ≠ kwargs.recipientWithoutExt
  not_moderator : kwargs.senderWithoutExt ∉ getValues ldif "listModerator"
  not_owner : kwargs.senderWithoutExt ∉ getValues ldif "listOwner"
  not_listed : checkExplicitlyAllowed kwargs.senderWithoutExt kwargs.senderDomain values = none
  sender_eq : ∃ name, kwargs.senderWithoutExt = name ++ '@' :: kwargs.senderDomain
  domain_at : '@' ∉ kwargs.senderDomain

omit [Unicode] in
theorem found_filterUsers {dir : Directory} {ldapBasedn recipientDomain : Str} {users attrs : List Str}
    {e : DirectoryEntry} :
    e ∈ dir.found ⟨usersDn ldapBasedn recipientDomain, .oneLevel, filterUsers users, attrs⟩ ↔
      UserEntry dir ldapBasedn recipientDomain e ∧ ∃ v ∈ users, HasAddress dir e v := by
  unfold Directory.found filterUsers
  rw [List.mem_filter, Bool.and_eq_true, Directory.holds, Directory.holdsAll, Directory.holdsAll,
    Directory.holdsAll, Directory.holdsAll, Bool.and_true, Bool.and_eq_true, Bool.and_eq_true,
    Directory.holds_or_flatMap]
  constructor
  · rintro ⟨he, hcovers, hclass, hservice, hv⟩
    exact ⟨⟨he, hcovers, hclass, hservice⟩, hv⟩
  · rintro ⟨⟨he, hcovers, hclass, hservice⟩, hv⟩
    exact ⟨he, hcovers, hclass, hservice, hv⟩

omit [Unicode] in
/-- The addresses the lookup adds. -/
theorem userAddresses_eq {dir : Directory} {calls : Calls ω} (hserves : dir.Serves calls.searchS)
    (recipientDomain : Str) (users : List Str) (w : ω) :
    ∃ addresses, userAddresses calls
        ("domainName=".toList ++ recipientDomain ++ ",".toList ++ calls.ldapBasedn) users w =
          .ok addresses ∧
      ∀ a, a ∈ addresses ↔ ∃ e, UserEntry dir calls.ldapBasedn recipientDomain e ∧
        (∃ v ∈ users, HasAddress dir e v) ∧ a ∈ addressesOf e := by
  unfold userAddresses
  by_cases hnil : users = []
  · rw [hnil]
    refine ⟨[], rfl, fun a => ⟨fun h => absurd h List.not_mem_nil, ?_⟩⟩
    rintro ⟨e, -, ⟨v, hv, -⟩, -⟩
    exact absurd hv List.not_mem_nil
  · have hempty : users.isEmpty = false := by
      rw [Bool.eq_false_iff, ne_eq, List.isEmpty_iff]
      exact hnil
    rw [hempty, if_neg Bool.false_ne_true]
    simp only [hserves _ w, bind, Except.bind]
    refine ⟨_, Directory.collectStr_search dir ⟨usersDn calls.ldapBasedn recipientDomain, .oneLevel,
      filterUsers users, ["mail".toList, "shadowAddress".toList]⟩, fun a => ?_⟩
    rw [List.mem_flatMap]
    constructor
    · rintro ⟨e, he, ha⟩
      obtain ⟨huser, hv⟩ := found_filterUsers.mp he
      exact ⟨e, huser, hv, ha⟩
    · rintro ⟨e, huser, hv, ha⟩
      exact ⟨e, found_filterUsers.mpr ⟨huser, hv⟩, ha⟩

omit [Unicode] in
/-- **No domain name is added**: none of the values that arrive is equal to a text. -/
theorem domainNames_eq {dir : Directory} {calls : Calls ω} (hserves : dir.Serves calls.searchS)
    (domains : List Str) (w : ω) : domainNames calls domains w = .ok [] := by
  have hbytes : ∀ bs : Bytes, (domains.map PyText.str).contains (.bytes bs) = false := by
    intro bs
    rw [Bool.eq_false_iff, ne_eq, List.contains_iff_mem, List.mem_map]
    rintro ⟨s, -, heq⟩
    cases heq
  unfold domainNames
  by_cases hempty : domains.isEmpty = true
  · rw [if_pos hempty]
    rfl
  · rw [if_neg hempty]
    simp only [hserves _ w, bind, Except.bind, pure, Except.pure]
    refine congrArg Except.ok (List.flatMap_eq_nil_iff.mpr fun entry _ => ?_)
    refine List.flatMap_eq_nil_iff.mpr fun domain hdomain => ?_
    obtain ⟨bs, -, rfl⟩ := List.mem_map.mp hdomain
    rw [hbytes, if_neg Bool.false_ne_true]

/-- The domain of the list is found. -/
theorem getPrimaryAndAliasDomains_ne_none {dir : Directory} {calls : Calls ω}
    (hserves : dir.Serves calls.searchS) {recipientDomain : Str}
    (hhosts : Hosts dir calls.ldapBasedn recipientDomain) (w : ω) :
    ∃ domains, getPrimaryAndAliasDomains calls.sets calls.searchS calls.ldapBasedn recipientDomain w =
      some domains := by
  obtain ⟨e, he, hcovers, hholds⟩ := hhosts.domain
  unfold getPrimaryAndAliasDomains
  split_ifs
  · exact ⟨[], rfl⟩
  simp only [hserves _ w]
  have hfound : e ∈ dir.found ⟨calls.ldapBasedn, .oneLevel, filterDomain recipientDomain,
      ["domainName".toList, "domainAliasName".toList]⟩ := by
    rw [Directory.found, List.mem_filter, Bool.and_eq_true]
    exact ⟨he, hcovers, hholds⟩
  obtain ⟨e', rest, hcons⟩ := List.exists_cons_of_ne_nil (List.ne_nil_of_mem hfound)
  rw [Directory.search, hcons, List.map_cons]
  simp only [Directory.bytes2strLdif_sent]
  exact ⟨_, rfl⟩

/-- **What the policy comes to**: the sender is an address of a user the loop has seen. -/
theorem checkModerators_accepts_iff {dir : Directory} {calls : Calls ω} {kwargs : PluginKwargs}
    {ldif : Ldif} {values : List Str} {w : ω} (hserves : dir.Serves calls.searchS)
    (hhosts : Hosts dir calls.ldapBasedn kwargs.recipientDomain)
    (hreq : ModeratedRequest kwargs ldif values) :
    Accepts calls kwargs w ↔ ∃ e, UserEntry dir calls.ldapBasedn kwargs.recipientDomain e ∧
      (∃ v ∈ (classified kwargs.recipientDomain values).users, HasAddress dir e v) ∧
      kwargs.senderWithoutExt ∈ addressesOf e := by
  obtain ⟨addresses, haddresses, hmem⟩ := userAddresses_eq hserves kwargs.recipientDomain
    (classified kwargs.recipientDomain values).users w
  obtain ⟨domains, hdomains⟩ := getPrimaryAndAliasDomains_ne_none hserves hhosts w
  have hnotlisted := checkExplicitlyAllowed_eq_none_iff.mp hreq.not_listed
  set left := (classified kwargs.recipientDomain values).allowedSenders with hleft
  -- neither what is left of the list nor the domain of the sender decides
  have hsender : kwargs.senderWithoutExt ∉ left := fun h => hnotlisted.1 (mem_of_mem_allowedSenders h)
  have hdomain : kwargs.senderDomain ∉ left := fun h =>
    hnotlisted.2.2 _ ((mem_possibleSenderDomains_iff _ _).mpr (.inl rfl)) (mem_of_mem_allowedSenders h)
  have hdomain' : kwargs.senderDomain ∉ addresses := by
    intro h
    obtain ⟨e, huser, -, ha⟩ := (hmem _).mp h
    exact hreq.domain_at (hhosts.at_mem e huser.1 _ ha)
  have hcontains : ∀ s : Str, (((left ++ addresses).map PyText.str) ++ []).contains (.str s) = true ↔
      s ∈ left ∨ s ∈ addresses := by
    intro s
    rw [List.append_nil, List.contains_iff_mem, List.mem_map, ← List.mem_append]
    constructor
    · rintro ⟨t, ht, heq⟩
      rwa [← PyText.str.inj heq]
    · exact fun h => ⟨s, h, rfl⟩
  have hcheck : checkModerators calls
      ("domainName=".toList ++ kwargs.recipientDomain ++ ",".toList ++ calls.ldapBasedn)
      kwargs.senderWithoutExt kwargs.senderDomain kwargs.recipientDomain values w =
        .ok (if kwargs.senderWithoutExt ∈ addresses then SmtpActions.defaultAction
          else SmtpActions.rejectNotAuthorized) := by
    simp only [checkModerators, haddresses, domainNames_eq hserves, bind, Except.bind, pure,
      Except.pure, Bool.or_eq_true, ← hleft, hcontains, hsender, hdomain, hdomain', false_or, or_false]
    split_ifs <;> rfl
  have hmoderator : (getValues ldif "listModerator").contains kwargs.senderWithoutExt = false := by
    rw [Bool.eq_false_iff, ne_eq, List.contains_iff_mem]
    exact hreq.not_moderator
  have howner : (getValues ldif "listOwner").contains kwargs.senderWithoutExt = false := by
    rw [Bool.eq_false_iff, ne_eq, List.contains_iff_mem]
    exact hreq.not_owner
  have hresult : restriction calls kwargs w =
      .ok (if kwargs.senderWithoutExt ∈ addresses then SmtpActions.defaultAction
        else SmtpActions.rejectNotAuthorized) := by
    have hrestriction : restriction calls kwargs w =
        checkSender calls kwargs ldif MaillistPolicy.moderators w := by
      rcases hreq.list with hlist | hlist
      · exact restriction_eq_checkSender hlist calls hreq.ldif_eq hreq.not_self w
      · exact restriction_eq_checkSender hlist calls hreq.ldif_eq hreq.not_self w
    rw [hrestriction, checkSender]
    simp only [hdomains, hmoderator, howner, Bool.false_eq_true, if_false, hreq.values_eq,
      hreq.not_listed, pure, Except.pure]
    rw [← hcheck, checkPolicy, if_neg (by decide), if_neg (by decide), if_neg (by decide),
      if_pos rfl, if_neg hreq.authenticated]
  rw [accepts_iff, hresult, ← hmem]
  constructor
  · intro h
    by_contra hnot
    have hreject := h _ rfl
    rw [if_neg hnot] at hreject
    exact absurd hreject (by decide)
  · intro h action haction
    rw [← Except.ok.inj haction, if_pos h]
    decide

/-! ### The documented policy -/

/-- The policy as documented, for a list of values: in every directory, a sender is accepted exactly
when the values list the user or the domain. -/
def AllowsListed (w : ω) (recipientDomain : Str) (values : List Str) : Prop :=
  ∀ (calls : Calls ω) (dir : Directory) (kwargs : PluginKwargs) (ldif : Ldif),
    dir.Serves calls.searchS → Hosts dir calls.ldapBasedn recipientDomain →
    kwargs.recipientDomain = recipientDomain → ModeratedRequest kwargs ldif values →
    (Accepts calls kwargs w ↔
      IsListedUser dir calls.ldapBasedn recipientDomain kwargs.senderWithoutExt values ∨
        IsListedDomain dir calls.ldapBasedn kwargs.senderDomain values)

/-- No value is taken for a domain. -/
def NoDomains (values : List Str) : Prop := ∀ v ∈ values, isDomainValue v = false

/-- No two local users stand next to each other. -/
def NoNeighbours (recipientDomain : Str) (values : List Str) : Prop :=
  (withoutWildcards values).IsChain fun v v' =>
    ¬ (isLocalUser recipientDomain v = true ∧ isLocalUser recipientDomain v' = true)

/-- There is at most one local user. -/
def AtMostOneUser (recipientDomain : Str) (values : List Str) : Prop :=
  ∀ v ∈ values, ∀ v' ∈ values, isLocalUser recipientDomain v = true →
    isLocalUser recipientDomain v' = true → v = v'

/-- A wildcard address is no address. -/
theorem not_startsWith_star_of_isEmail {s : Str} (h : isEmail s = true) : startsWith s "*@" = false := by
  rw [Bool.eq_false_iff, ne_eq, startsWith_iff]
  rintro ⟨t, rfl⟩
  exact notMem_of_isEmail h (by decide) (by decide) (List.mem_append_left t List.mem_cons_self)

theorem mem_withoutWildcards_of_isLocalUser {recipientDomain v : Str} {values : List Str}
    (hv : v ∈ values) (hlocal : isLocalUser recipientDomain v = true) :
    v ∈ withoutWildcards values := by
  have hemail : isEmail v = true := (Bool.and_eq_true_iff.mp hlocal).1
  refine List.mem_filter.mpr ⟨hv, ?_⟩
  rw [not_startsWith_star_of_isEmail hemail]
  rfl

/-- Without domains the loop removes the local users. -/
theorem everyOther_isRemoved {recipientDomain : Str} {values : List Str} (h : NoDomains values) :
    everyOther (isRemoved recipientDomain) (withoutWildcards values) =
      everyOther (isLocalUser recipientDomain) (withoutWildcards values) := by
  refine everyOther_congr fun v hv => ?_
  obtain ⟨hmem, hstar⟩ := List.mem_filter.mp hv
  have hemail : isEmail v = true := by
    have hdomain := h v hmem
    unfold isDomainValue at hdomain
    rwa [hstar, Bool.and_true, Bool.not_eq_false'] at hdomain
  rw [isRemoved, hemail, Bool.not_true, Bool.or_false]

/-- **Every local user is looked up** when there is no domain and no two of them are neighbours. -/
theorem mem_classified_users_iff {recipientDomain : Str} {values : List Str} (hnodup : values.Nodup)
    (hdomains : NoDomains values) :
    (∀ v ∈ values, isLocalUser recipientDomain v = true →
      v ∈ (classified recipientDomain values).users) ↔ NoNeighbours recipientDomain values := by
  have hkept : (withoutWildcards values).Nodup := hnodup.filter _
  rw [NoNeighbours, ← forall_mem_everyOther_iff hkept, classified_users,
    everyOther_isRemoved hdomains]
  constructor
  · intro h v hv hlocal
    exact (List.mem_filter.mp (h v (List.mem_of_mem_filter hv) hlocal)).1
  · intro h v hv hlocal
    exact List.mem_filter.mpr ⟨h v (mem_withoutWildcards_of_isLocalUser hv hlocal) hlocal, hlocal⟩

theorem mem_of_mem_classified_users {recipientDomain v : Str} {values : List Str}
    (h : v ∈ (classified recipientDomain values).users) :
    v ∈ values ∧ isLocalUser recipientDomain v = true := by
  rw [classified_users, List.mem_filter] at h
  exact ⟨List.mem_of_mem_filter (mem_of_mem_everyOther h.1), h.2⟩

/-- When there is no domain and no two local users are neighbours, the policy is followed. -/
theorem allowsListed_of_noNeighbours (w : ω) {recipientDomain : Str} {values : List Str}
    (hnodup : values.Nodup) (hdomains : NoDomains values)
    (hneighbours : NoNeighbours recipientDomain values) : AllowsListed w recipientDomain values := by
  intro calls dir kwargs ldif hserves hhosts hrecipient hreq
  subst hrecipient
  have hall := (mem_classified_users_iff hnodup hdomains).mpr hneighbours
  rw [checkModerators_accepts_iff hserves hhosts hreq]
  constructor
  · rintro ⟨e, huser, ⟨v, hv, haddress⟩, hsender⟩
    obtain ⟨hmem, hlocal⟩ := mem_of_mem_classified_users hv
    exact .inl ⟨e, huser, ⟨v, hmem, hlocal, haddress⟩, hsender⟩
  · rintro (⟨e, huser, ⟨v, hv, hlocal, haddress⟩, hsender⟩ | ⟨e, -, ⟨v, hv, hdomain, -⟩, -⟩)
    · exact ⟨e, huser, ⟨v, hall v hv hlocal, haddress⟩, hsender⟩
    · rw [hdomains v hv] at hdomain
      cases hdomain

/-! ### Directories in which the policy is not followed -/

/-- A directory whose values match themselves only. -/
def exactDirectory (entries : List DirectoryEntry) : Directory :=
  ⟨entries, fun _ v v' => v == v', fun _ v => beq_self_eq_true v⟩

/-- A server for a directory. -/
def serverOf (dir : Directory) : Calls ω :=
  ⟨"dc=b".toList, fun s _ => .ok (dir.search s), .ofDedup, fun _ => []⟩

/-- A domain with an alias domain. -/
def domainEntry (domain aliasDomain : Str) : DirectoryEntry :=
  ⟨"d".toList ++ ',' :: "dc=b".toList,
    [("objectClass".toList, ["mailDomain".toList]), ("enabledService".toList, ["domainalias".toList]),
      ("domainName".toList, [domain]), ("domainAliasName".toList, [aliasDomain])]⟩

/-- A user with an alias address. -/
def userEntry (recipientDomain mail shadow : Str) : DirectoryEntry :=
  ⟨"u".toList ++ ',' :: usersDn "dc=b" recipientDomain,
    [("objectClass".toList, ["mailUser".toList]), ("enabledService".toList, ["shadowaddress".toList]),
      ("mail".toList, [mail]), ("shadowAddress".toList, [shadow])]⟩

/-- A list for moderators only. -/
def moderatedList (values : List Str) : Ldif :=
  [("objectClass".toList, ["mailList".toList]), ("accountStatus".toList, ["active".toList]),
    ("accessPolicy".toList, [MaillistPolicy.moderators]), ("listAllowedUser".toList, values)]

/-- An authenticated sender under a domain writes to it. -/
def moderatedKwargs (recipientDomain senderDomain : Str) (values : List Str) : PluginKwargs where
  smtpSessionData := []
  sender := "x@".toList ++ senderDomain
  senderWithoutExt := "x@".toList ++ senderDomain
  recipient := "list@".toList ++ recipientDomain
  recipientWithoutExt := "list@".toList ++ recipientDomain
  clientAddress := []
  senderDomain
  recipientDomain
  saslUsername := "x@".toList ++ senderDomain
  saslUsernameDomain := senderDomain
  recipientLdif := some (moderatedList values)

theorem restrictedList_moderatedList (values : List Str) :
    RestrictedList (moderatedList values) MaillistPolicy.moderators where
  objectClass := ⟨["mailList".toList], rfl, by decide⟩
  accountStatus := rfl
  accessPolicy_eq := by
    show Except.ok (Unicode.lower MaillistPolicy.moderators) = _
    rw [lower_eq_self (by decide) (by decide)]
  policy_ne := by decide
  not_mlmmj := by
    rw [show getValues (moderatedList values) "enabledService" = [] from rfl]
    exact List.not_mem_nil

theorem moderatedRequest_kwargs (recipientDomain : Str) {senderDomain : Str} {values : List Str}
    (hlisted : checkExplicitlyAllowed ("x@".toList ++ senderDomain) senderDomain values = none)
    (hat : '@' ∉ senderDomain) :
    ModeratedRequest (moderatedKwargs recipientDomain senderDomain values) (moderatedList values)
      values where
  list := .inl (restrictedList_moderatedList values)
  ldif_eq := rfl
  values_eq := rfl
  authenticated := by simp [moderatedKwargs]
  not_self := fun heq => absurd (List.cons.inj heq).1 (by decide)
  not_moderator := List.not_mem_nil
  not_owner := List.not_mem_nil
  not_listed := hlisted
  sender_eq := ⟨"x".toList, rfl⟩
  domain_at := hat

omit [Unicode] in
/-- A domain that no value has anything to do with. -/
theorem exists_fresh (values : List Str) : ∃ a : Str, '@' ∉ a ∧ "x@".toList ++ a ∉ values ∧
    checkExplicitlyAllowed ("x@".toList ++ a) a values = none := by
  obtain ⟨a, hat, hdot, hlonger⟩ := exists_longer values
  have hnotMem : ∀ v : Str, a.length ≤ v.length → v ∉ values := by
    intro v hv hmem
    have h := hlonger v hmem
    omega
  have hlabels : a.splitOn '.' = [a] := List.splitOn_eq_singleton hdot
  have hsender : "x@".toList ++ a ∉ values :=
    hnotMem _ (List.sublist_append_right _ _).length_le
  refine ⟨a, hat, hsender, ?_⟩
  rw [checkExplicitlyAllowed_eq_none_iff]
  refine ⟨hsender, hnotMem _ (List.sublist_append_right _ _).length_le, fun c hc => ?_⟩
  rcases (mem_possibleSenderDomains_iff _ _).mp hc with rfl | ⟨k, hk, rfl⟩
  · exact hnotMem _ le_rfl
  · rw [hlabels, List.length_singleton] at hk
    obtain rfl : k = 0 := by omega
    rw [hlabels, List.drop_zero]
    exact hnotMem _ (by simp [join])

omit [Unicode] in
/-- A directory with the domain of the list and one more entry. -/
theorem hosts_of_entry {recipientDomain : Str} {e : DirectoryEntry}
    (hat : ∀ v ∈ addressesOf e, '@' ∈ v) (a : Str) :
    Hosts (exactDirectory [domainEntry recipientDomain a, e]) "dc=b" recipientDomain where
  domain := by
    refine ⟨_, List.mem_cons_self, Directory.covers_oneLevel (by decide), ?_⟩
    simp [filterDomain, Directory.holds, Directory.holdsAll, Directory.holdsAny, Directory.holdsEq,
      Directory.valuesOf, domainEntry, exactDirectory]
  at_mem := by
    intro e' he' v hv
    rcases List.mem_cons.mp he' with rfl | he'
    · exact absurd hv List.not_mem_nil
    · rw [List.mem_singleton.mp he'] at hv
      exact hat v hv

/-- A value that is taken for a domain: the users of its alias domain are rejected. -/
theorem not_allowsListed_of_domain (w : ω) (recipientDomain : Str) {values : List Str} {v : Str}
    (hv : v ∈ values) (hdomain : isDomainValue v = true) : ¬ AllowsListed w recipientDomain values := by
  intro hallows
  obtain ⟨a, hat, -, hfresh⟩ := exists_fresh values
  let e := domainEntry (namedDomain v) a
  let dir := exactDirectory [domainEntry recipientDomain a, e]
  have hhosts : Hosts dir (serverOf (ω := ω) dir).ldapBasedn
      (moderatedKwargs recipientDomain a values).recipientDomain :=
    hosts_of_entry (fun v hv => absurd hv List.not_mem_nil) a
  have hserves : dir.Serves (serverOf (ω := ω) dir).searchS := fun s w => rfl
  have hreq := moderatedRequest_kwargs recipientDomain hfresh hat
  have hlisted : IsListedDomain dir "dc=b" a values := by
    refine ⟨e, ⟨by simp [dir, exactDirectory], Directory.covers_oneLevel (by decide), ?_, ?_⟩,
      ⟨v, hv, hdomain, .inl ?_⟩, ?_⟩
    · exact Directory.holdsEq_of_mem List.mem_cons_self (List.mem_singleton_self _)
    · exact Directory.holdsEq_of_mem (by simp [e, domainEntry]) (List.mem_singleton_self _)
    · exact Directory.holdsEq_of_mem (by simp [e, domainEntry]) (List.mem_singleton_self _)
    · exact List.mem_cons_of_mem _ (List.mem_singleton_self a)
  have haccepts := (hallows _ dir _ _ hserves hhosts rfl hreq).mpr (.inr hlisted)
  obtain ⟨e', ⟨he', hcovers, hclass, -⟩, -, -⟩ :=
    (checkModerators_accepts_iff hserves hhosts hreq).mp haccepts
  -- there are no users
  have hnot : ∀ d b : Str, (exactDirectory [domainEntry recipientDomain a, e]).holdsEq
      (domainEntry d b).ldif "objectClass" "mailUser" = false := by
    intro d b
    simp [Directory.holdsEq, Directory.valuesOf, domainEntry, exactDirectory]
  rcases List.mem_cons.mp he' with rfl | he'
  · rw [hnot] at hclass
    cases hclass
  · rw [List.mem_singleton.mp he', hnot] at hclass
    cases hclass

/-- A local user the loop has not seen: an alias address of the user is rejected. -/
theorem not_allowsListed_of_unseen (w : ω) {recipientDomain : Str} {values : List Str} {v : Str}
    (hv : v ∈ values) (hlocal : isLocalUser recipientDomain v = true)
    (hunseen : v ∉ (classified recipientDomain values).users) :
    ¬ AllowsListed w recipientDomain values := by
  intro hallows
  obtain ⟨a, hat, hnotMem, hfresh⟩ := exists_fresh values
  -- a directory with that user only, who sends from a second address
  let e := userEntry recipientDomain v ("x@".toList ++ a)
  let dir := exactDirectory [domainEntry recipientDomain a, e]
  have hv_at : '@' ∈ v := at_mem_of_isEmail (Bool.and_eq_true_iff.mp hlocal).1
  have haddresses : addressesOf e = [v, "x@".toList ++ a] := rfl
  have hhosts : Hosts dir (serverOf (ω := ω) dir).ldapBasedn
      (moderatedKwargs recipientDomain a values).recipientDomain := by
    refine hosts_of_entry (fun v' hv' => ?_) a
    rw [haddresses] at hv'
    rcases List.mem_cons.mp hv' with rfl | hv'
    · exact hv_at
    · rw [List.mem_singleton.mp hv']
      exact List.mem_append_left a (by decide)
  have hserves : dir.Serves (serverOf (ω := ω) dir).searchS := fun s w => rfl
  have hreq := moderatedRequest_kwargs recipientDomain hfresh hat
  have huser : UserEntry dir "dc=b" recipientDomain e := by
    refine ⟨by simp [dir, exactDirectory], Directory.covers_oneLevel (by decide), ?_, ?_⟩
    · exact Directory.holdsEq_of_mem List.mem_cons_self (List.mem_singleton_self _)
    · exact Directory.holdsEq_of_mem (by simp [e, userEntry]) (List.mem_singleton_self _)
  have hlisted : IsListedUser dir "dc=b" recipientDomain ("x@".toList ++ a) values := by
    refine ⟨e, huser, ⟨v, hv, hlocal, .inl ?_⟩, ?_⟩
    · exact Directory.holdsEq_of_mem (by simp [e, userEntry]) (List.mem_singleton_self _)
    · rw [haddresses]
      simp
  have haccepts := (hallows _ dir _ _ hserves hhosts rfl hreq).mpr (.inl hlisted)
  obtain ⟨e', ⟨he', -, hclass, -⟩, ⟨v', hv', haddress⟩, -⟩ :=
    (checkModerators_accepts_iff hserves hhosts hreq).mp haccepts
  rcases List.mem_cons.mp he' with rfl | he'
  · simp [dir, Directory.holdsEq, Directory.valuesOf, domainEntry, exactDirectory] at hclass
  · -- the values the loop has seen are neither of the user's addresses
    rw [List.mem_singleton.mp he'] at haddress
    have hcases : v' = v ∨ v' = "x@".toList ++ a := by
      simpa [dir, e, HasAddress, Directory.holdsEq, Directory.valuesOf, userEntry, exactDirectory]
        using haddress
    rcases hcases with rfl | rfl
    · exact hunseen hv'
    · exact hnotMem (mem_of_mem_classified_users hv').1

/-! ### The law -/

/-- **The policy is followed** for a list of values exactly when there is no domain among them and no
two local users are neighbours. -/
theorem allowsListed_iff_noNeighbours (w : ω) {recipientDomain : Str} {values : List Str}
    (hnodup : values.Nodup) :
    AllowsListed w recipientDomain values ↔
      NoDomains values ∧ NoNeighbours recipientDomain values := by
  constructor
  · intro hallows
    have hdomains : NoDomains values := by
      intro v hv
      by_contra hdomain
      exact not_allowsListed_of_domain w recipientDomain hv (Bool.not_eq_false _ ▸ hdomain) hallows
    refine ⟨hdomains, (mem_classified_users_iff hnodup hdomains).mp fun v hv hlocal => ?_⟩
    by_contra hunseen
    exact not_allowsListed_of_unseen w hv hlocal hunseen hallows
  · rintro ⟨hdomains, hneighbours⟩
    exact allowsListed_of_noNeighbours w hnodup hdomains hneighbours

/-- One user has no neighbour. -/
theorem noNeighbours_of_atMostOneUser {recipientDomain : Str} {values : List Str}
    (hnodup : values.Nodup) (hone : AtMostOneUser recipientDomain values) :
    NoNeighbours recipientDomain values := by
  have hkept : (withoutWildcards values).Nodup := hnodup.filter _
  refine List.Pairwise.isChain (List.Pairwise.imp_of_mem (fun hv hv' hne hboth => ?_) hkept)
  exact hne (hone _ (List.mem_of_mem_filter hv) _ (List.mem_of_mem_filter hv') hboth.1 hboth.2)

/-- Two users can be made neighbours. -/
theorem atMostOneUser_of_perm {recipientDomain : Str} {values : List Str}
    (hall : ∀ values', values'.Perm values → NoNeighbours recipientDomain values') :
    AtMostOneUser recipientDomain values := by
  intro v hv v' hv' hlocal hlocal'
  by_contra hne
  have hmem : v' ∈ values.erase v := (List.mem_erase_of_ne (Ne.symm hne)).mpr hv'
  have hperm : (v :: v' :: (values.erase v).erase v').Perm values :=
    (List.Perm.cons v (List.perm_cons_erase hmem).symm).trans (List.perm_cons_erase hv).symm
  have hchain := hall _ hperm
  have hstar : ∀ u, isLocalUser recipientDomain u = true → (!startsWith u "*@") = true := by
    intro u hu
    rw [not_startsWith_star_of_isEmail (Bool.and_eq_true_iff.mp hu).1]
    rfl
  have hfirst : withoutWildcards (v :: v' :: (values.erase v).erase v') =
      v :: v' :: withoutWildcards ((values.erase v).erase v') := by
    unfold withoutWildcards
    rw [List.filter_cons, if_pos (hstar v hlocal), List.filter_cons, if_pos (hstar v' hlocal')]
  rw [NoNeighbours, hfirst, List.isChain_cons_cons] at hchain
  exact hchain.1 ⟨hlocal, hlocal'⟩

/-- **The policy is followed** for a list of values exactly when there is no domain among them and no
two local users are neighbours; whatever their order, exactly when there is no domain and at most one
local user. -/
theorem allowsListed_iff (w : ω) {recipientDomain : Str} {values : List Str}
    (hnodup : values.Nodup) :
    (AllowsListed w recipientDomain values ↔
      NoDomains values ∧ NoNeighbours recipientDomain values) ∧
    ((∀ values', values'.Perm values → AllowsListed w recipientDomain values') ↔
      NoDomains values ∧ AtMostOneUser recipientDomain values) := by
  refine ⟨allowsListed_iff_noNeighbours w hnodup, ?_⟩
  have hiff : ∀ values', values'.Perm values → (AllowsListed w recipientDomain values' ↔
      NoDomains values' ∧ NoNeighbours recipientDomain values') := fun values' hperm =>
    allowsListed_iff_noNeighbours w (hperm.nodup_iff.mpr hnodup)
  constructor
  · intro hall
    refine ⟨((hiff values (.refl _)).mp (hall values (.refl _))).1, atMostOneUser_of_perm ?_⟩
    exact fun values' hperm => ((hiff values' hperm).mp (hall values' hperm)).2
  · rintro ⟨hdomains, hone⟩ values' hperm
    refine (hiff values' hperm).mpr ⟨fun v hv => hdomains v (hperm.mem_iff.mp hv), ?_⟩
    refine noNeighbours_of_atMostOneUser (hperm.nodup_iff.mpr hnodup) fun v hv v' hv' => ?_
    exact hone v (hperm.mem_iff.mp hv) v' (hperm.mem_iff.mp hv')

omit [Unicode] in
/-- One local user and an external address, the other way round. -/
theorem allowsListed_one_user :
    letI := asciiUnicode
    AllowsListed () "b.cd".toList ["c@d.ef".toList, "a@b.cd".toList] := by
  let := asciiUnicode
  have hnodup : ["a@b.cd".toList, "c@d.ef".toList].Nodup := by decide
  refine (allowsListed_iff () hnodup).2.mpr ⟨?_, ?_⟩ _ (.swap _ _ _)
  · have h : ["a@b.cd".toList, "c@d.ef".toList].all (fun v => !isDomainValue v) = true := by decide
    intro v hv
    simpa using List.all_eq_true.mp h v hv
  · unfold AtMostOneUser
    decide

omit [Unicode] in
/-- Of two local users the second one is not looked up. -/
theorem second_user_not_allowed :
    letI := asciiUnicode
    ¬ AllowsListed () "b.cd".toList ["a@b.cd".toList, "c@b.cd".toList] := by
  let := asciiUnicode
  exact not_allowsListed_of_unseen () (v := "c@b.cd".toList) (by decide) (by decide) (by decide)

end LdapMaillistAccessPolicy

end IRedAPD

/-
  Who may send as whom on the LDAP backend.

  The plugin asks the server with filters that the two addresses are put into as
  they are.  The condition is exact for a server that reads them: an asterisk in
  an address stands for anything, so that a sender with asterisks is let through
  when some alias address of the user matches it.
-/
import IRedAPD.Equiv.Libs.Ldaplib.Searches
import IRedAPD.Plugins.RejectSenderLoginMismatch

namespace IRedAPD.RejectSenderLoginMismatch

open Py

/-! ### The texts of the filters -/

theorem text_filterUserAlias (saslUsername sender : Str) :
    (filterUserAlias saslUsername sender).text =
      "(&(objectClass=mailUser)(mail=".toList ++ saslUsername ++ ")(shadowAddress=".toList ++ sender ++
        "))".toList := by
  simp only [filterUserAlias, LdapFilter.text, textAll, List.append_assoc, List.cons_append,
    List.nil_append]
  rfl

theorem text_filterListMember (saslUsername sender : Str) :
    (filterListMember saslUsername sender).text =
      "(&(objectClass=mailUser)(|(mail=".toList ++ saslUsername ++ ")(shadowAddress=".toList ++
        saslUsername ++ "))(memberOfGroup=".toList ++ sender ++ "))".toList := by
  simp only [filterListMember, LdapFilter.text, textAll, List.append_assoc, List.cons_append,
    List.nil_append]
  rfl

theorem text_filterAliasMember (saslUsername sender : Str) :
    (filterAliasMember saslUsername sender).text =
      "(&(objectClass=mailAlias)(|(mail=".toList ++ sender ++ ")(shadowAddress=".toList ++ sender ++
        "))(mailForwardingAddress=".toList ++ saslUsername ++ "))".toList := by
  simp only [filterAliasMember, LdapFilter.text, textAll, List.append_assoc, List.cons_append,
    List.nil_append]
  rfl

theorem text_filterMlmmj : filterMlmmj.text =
    "(&(objectClass=mailList)(enabledService=mlmmj)(accountStatus=active))".toList := by
  simp only [filterMlmmj, LdapFilter.text, textAll, List.append_assoc, List.cons_append,
    List.append_nil]
  rfl

theorem text_or_cons (f : LdapFilter) (fs : List LdapFilter) :
    (LdapFilter.or (f :: fs)).text = "(|".toList ++ f.text ++ textAll fs ++ ")".toList := by
  simp only [LdapFilter.text, textAll, List.append_assoc, List.cons_append]
  rfl

/-- `query_filter` as the plugin writes it. -/
theorem text_queryFilter (settings : Settings) (saslUsername sender : Str) :
    (queryFilter settings saslUsername sender).text =
      if settings.allowedLoginMismatchStrictly && !settings.allowedLoginMismatchListMember then
        (filterUserAlias saslUsername sender).text
      else if !settings.allowedLoginMismatchStrictly && settings.allowedLoginMismatchListMember then
        "(|".toList ++ (filterListMember saslUsername sender).text ++
          (filterAliasMember saslUsername sender).text ++ ")".toList
      else
        "(|".toList ++ (filterUserAlias saslUsername sender).text ++
          (filterListMember saslUsername sender).text ++
          (filterAliasMember saslUsername sender).text ++ ")".toList := by
  unfold queryFilter
  split_ifs
  · rfl
  · simp only [text_or_cons, textAll, List.append_assoc, List.append_nil]
  · simp only [text_or_cons, textAll, List.append_assoc, List.append_nil]

/-! ### What they find -/

section Senders

variable (server : TextServer) (settings : Settings)

/-- An entry that lets a user send as the sender. -/
inductive MaySend (saslUsername sender : Str) (e : DirectoryEntry) : Prop
  | userAlias : settings.allowedLoginMismatchStrictly = true →
    server.Has partsOf e "objectClass" "mailUser" → server.Has partsOf e "mail" saslUsername →
    server.Has partsOf e "shadowAddress" sender → MaySend saslUsername sender e
  | listMember : settings.allowedLoginMismatchListMember = true →
    server.Has partsOf e "objectClass" "mailUser" →
    (server.Has partsOf e "mail" saslUsername ∨ server.Has partsOf e "shadowAddress" saslUsername) →
    server.Has partsOf e "memberOfGroup" sender → MaySend saslUsername sender e
  | aliasMember : settings.allowedLoginMismatchListMember = true →
    server.Has partsOf e "objectClass" "mailAlias" →
    (server.Has partsOf e "mail" sender ∨ server.Has partsOf e "shadowAddress" sender) →
    server.Has partsOf e "mailForwardingAddress" saslUsername → MaySend saslUsername sender e

/-- An active list of mlmmj, whatever its address. -/
structure MlmmjList (e : DirectoryEntry) : Prop where
  mailList : server.Has partsOf e "objectClass" "mailList"
  mlmmj : server.Has partsOf e "enabledService" "mlmmj"
  active : server.Has partsOf e "accountStatus" "active"

/-- There is such an entry at the base or below it. -/
def Finds (base : Str) (P : DirectoryEntry → Prop) : Prop :=
  ∃ e ∈ server.entries, Directory.covers base .subtree e.dn = true ∧ P e

variable {server settings}

theorem holds_filterUserAlias {saslUsername sender : Str} {e : DirectoryEntry} :
    ((filterUserAlias saslUsername sender).denote partsOf).holds (server.item e.ldif) = true ↔
      server.Has partsOf e "objectClass" "mailUser" ∧ server.Has partsOf e "mail" saslUsername ∧
        server.Has partsOf e "shadowAddress" sender := by
  simp only [filterUserAlias, LdapFilter.denote, denoteAll, Ldap.Filter.holds, Ldap.allHold,
    Bool.and_eq_true, and_true, TextServer.Has]

theorem holds_filterListMember {saslUsername sender : Str} {e : DirectoryEntry} :
    ((filterListMember saslUsername sender).denote partsOf).holds (server.item e.ldif) = true ↔
      server.Has partsOf e "objectClass" "mailUser" ∧
        (server.Has partsOf e "mail" saslUsername ∨ server.Has partsOf e "shadowAddress" saslUsername) ∧
        server.Has partsOf e "memberOfGroup" sender := by
  simp only [filterListMember, LdapFilter.denote, denoteAll, Ldap.Filter.holds, Ldap.allHold,
    Ldap.anyHolds, Bool.and_eq_true, Bool.or_eq_true, Bool.or_false, and_true, TextServer.Has]

theorem holds_filterAliasMember {saslUsername sender : Str} {e : DirectoryEntry} :
    ((filterAliasMember saslUsername sender).denote partsOf).holds (server.item e.ldif) = true ↔
      server.Has partsOf e "objectClass" "mailAlias" ∧
        (server.Has partsOf e "mail" sender ∨ server.Has partsOf e "shadowAddress" sender) ∧
        server.Has partsOf e "mailForwardingAddress" saslUsername := by
  simp only [filterAliasMember, LdapFilter.denote, denoteAll, Ldap.Filter.holds, Ldap.allHold,
    Ldap.anyHolds, Bool.and_eq_true, Bool.or_eq_true, Bool.or_false, and_true, TextServer.Has]

/-- What `query_filter` asks for. -/
theorem holds_queryFilter (hsettings : settings.allowedLoginMismatchStrictly = true ∨
      settings.allowedLoginMismatchListMember = true) {saslUsername sender : Str}
    {e : DirectoryEntry} :
    ((queryFilter settings saslUsername sender).denote partsOf).holds (server.item e.ldif) = true ↔
      MaySend server settings saslUsername sender e := by
  have hor : ∀ fs : List LdapFilter, ((LdapFilter.or fs).denote partsOf).holds (server.item e.ldif) =
      true ↔ ∃ f ∈ fs, (f.denote partsOf).holds (server.item e.ldif) = true := by
    intro fs
    rw [LdapFilter.denote, Ldap.Filter.holds, Ldap.anyHolds_eq_any, denoteAll_eq_map, List.any_map,
      List.any_eq_true]
    rfl
  have hcases : MaySend server settings saslUsername sender e ↔
      (settings.allowedLoginMismatchStrictly = true ∧
        ((filterUserAlias saslUsername sender).denote partsOf).holds (server.item e.ldif) = true) ∨
      (settings.allowedLoginMismatchListMember = true ∧
        (((filterListMember saslUsername sender).denote partsOf).holds (server.item e.ldif) = true ∨
          ((filterAliasMember saslUsername sender).denote partsOf).holds (server.item e.ldif) =
            true)) := by
    rw [holds_filterUserAlias, holds_filterListMember, holds_filterAliasMember]
    constructor
    · rintro (⟨hs, h₁, h₂, h₃⟩ | ⟨hm, h₁, h₂, h₃⟩ | ⟨hm, h₁, h₂, h₃⟩)
      · exact .inl ⟨hs, h₁, h₂, h₃⟩
      · exact .inr ⟨hm, .inl ⟨h₁, h₂, h₃⟩⟩
      · exact .inr ⟨hm, .inr ⟨h₁, h₂, h₃⟩⟩
    · rintro (⟨hs, h₁, h₂, h₃⟩ | ⟨hm, ⟨h₁, h₂, h₃⟩ | ⟨h₁, h₂, h₃⟩⟩)
      · exact .userAlias hs h₁ h₂ h₃
      · exact .listMember hm h₁ h₂ h₃
      · exact .aliasMember hm h₁ h₂ h₃
  rw [hcases, queryFilter]
  cases hs : settings.allowedLoginMismatchStrictly <;>
    cases hm : settings.allowedLoginMismatchListMember <;>
    simp_all

theorem reads_queryFilter {saslUsername sender : Str} (hu : PatternText saslUsername)
    (hs : PatternText sender) : Ldap.Reads (encode (queryFilter settings saslUsername sender).text)
      ((queryFilter settings saslUsername sender).denote partsOf) := by
  have hconstant : PatternText "mailUser" ∧ PatternText "mailAlias" := by decide
  rw [reads_text_pattern_iff]
  · intro v hv
    have hmem : v = "mailUser".toList ∨ v = "mailAlias".toList ∨ v = saslUsername ∨ v = sender := by
      revert hv
      unfold queryFilter filterUserAlias filterListMember filterAliasMember
      split_ifs <;> simp only [LdapFilter.values, valuesAll, List.append_nil, List.cons_append,
        List.nil_append, List.mem_cons, List.not_mem_nil, or_false] <;> tauto
    rcases hmem with rfl | rfl | rfl | rfl
    · exact hconstant.1
    · exact hconstant.2
    · exact hu
    · exact hs
  · unfold queryFilter
    split_ifs <;> rfl

theorem reads_filterMlmmj : Ldap.Reads (encode filterMlmmj.text) (filterMlmmj.denote partsOf) := by
  rw [reads_text_pattern_iff rfl]
  decide

theorem holds_filterMlmmj {e : DirectoryEntry} :
    (filterMlmmj.denote partsOf).holds (server.item e.ldif) = true ↔ MlmmjList server e := by
  simp only [filterMlmmj, LdapFilter.denote, denoteAll, Ldap.Filter.holds, Ldap.allHold,
    Bool.and_eq_true, and_true]
  constructor
  · rintro ⟨h₁, h₂, h₃⟩
    exact ⟨h₁, h₂, h₃⟩
  · intro h
    exact ⟨h.mailList, h.mlmmj, h.active⟩

variable {ω : Type*}

/-- A search of the plugin finds something when the filter holds of an entry below the base. -/
theorem isSome_getAccountLdif_iff {base : Str} {f : LdapFilter} {P : DirectoryEntry → Prop}
    (hreads : Ldap.Reads (encode f.text) (f.denote partsOf))
    (hP : ∀ e : DirectoryEntry, (f.denote partsOf).holds (server.item e.ldif) = true ↔ P e) (w : ω) :
    (getAccountLdif (server.search.accounts base) f w).1.isSome = true ↔
      Finds server base P := by
  have hP' : ∀ e : DirectoryEntry, (Directory.covers base .subtree e.dn &&
      (f.denote partsOf).holds (server.item e.ldif)) = true ↔
        Directory.covers base .subtree e.dn = true ∧ P e := by
    intro e
    rw [Bool.and_eq_true, hP]
  have hsome : (getAccountLdif (server.search.accounts base) f w).1.isSome = true ↔
      server.found base .subtree (f.denote partsOf) ≠ [] := by
    unfold getAccountLdif SearchText.accounts
    rw [TextServer.search_of_reads hreads]
    cases server.found base .subtree (f.denote partsOf) with
    | nil => simp [bind, Except.bind, pure, Except.pure]
    | cons e found => simp [bind, Except.bind, pure, Except.pure, bytes2strLdif_sent]
  rw [hsome, ne_eq, found_eq_nil_iff hP']
  simp only [not_forall, not_not, exists_prop, Finds]

variable {calls : Calls ω}

/-- What the account database tells on the LDAP backend. -/
theorem lookupLdap_cases (server : TextServer) (base : Str) {saslUsername sender : Str}
    (hu : PatternText saslUsername) (hs : PatternText sender)
    (hsettings : settings.allowedLoginMismatchStrictly = true ∨
      settings.allowedLoginMismatchListMember = true) (w : ω) :
    let lookup := lookupLdap settings (server.search.accounts base) saslUsername sender w
    let maySend := Finds server base (MaySend server settings saslUsername sender)
    (maySend ∧ lookup = .accept) ∨
      (¬ maySend ∧ Finds server base (MlmmjList server) ∧ lookup = .checkMlmmj sender) ∨
      (¬ maySend ∧ ¬ Finds server base (MlmmjList server) ∧ lookup = .unknown) := by
  intro lookup maySend
  have hquery : (getAccountLdif (server.search.accounts base)
      (queryFilter settings saslUsername sender) w).1.isSome = true ↔ maySend :=
    isSome_getAccountLdif_iff (reads_queryFilter hu hs) (fun _ => holds_queryFilter hsettings) w
  have hmlmmj : (getAccountLdif (server.search.accounts base) filterMlmmj w).1.isSome = true ↔
      Finds server base (MlmmjList server) :=
    isSome_getAccountLdif_iff reads_filterMlmmj (fun _ => holds_filterMlmmj) w
  rw [← hquery, ← hmlmmj]
  simp only [lookup, lookupLdap]
  cases (getAccountLdif (server.search.accounts base) (queryFilter settings saslUsername sender)
      w).1.isSome with
  | true => exact .inl ⟨rfl, rfl⟩
  | false =>
    cases (getAccountLdif (server.search.accounts base) filterMlmmj w).1.isSome with
    | true => exact .inr (.inl ⟨Bool.false_ne_true, rfl, rfl⟩)
    | false => exact .inr (.inr ⟨Bool.false_ne_true, Bool.false_ne_true, rfl⟩)

/-- The API lets the user send as the sender. -/
def ApiAccepts (settings : Settings) (calls : Calls ω) (sender saslUsername : Str) (w : ω) : Prop :=
  settings.mlmmjadminApiAuthToken ≠ [] ∧ settings.mlmmjadminApiEndpoint ≠ [] ∧
    calls.apiSuccess (apiEndpoint settings sender saslUsername) w = .ok true

theorem checkMlmmj_eq_default_iff (calls : Calls ω) (sender saslUsername : Str) (w : ω) :
    checkMlmmj settings calls sender saslUsername w = SmtpActions.defaultAction ↔
      ApiAccepts settings calls sender saslUsername w := by
  have hne : SmtpActions.rejectSenderLoginMismatch ≠ SmtpActions.defaultAction := by decide
  unfold checkMlmmj ApiAccepts
  split_ifs with h
  · cases hapi : calls.apiSuccess (apiEndpoint settings sender saslUsername) w with
    | error e => simp [hne]
    | ok success => cases success <;> simp [hne, h]
  · simp only [hne, false_iff]
    exact fun hall => h ⟨hall.1, hall.2.1⟩

/-- **Exactly who may send as whom.** The authenticated user may when the sender is the user's own
address, when `ALLOWED_LOGIN_MISMATCH_SENDERS` says so, when an entry of the directory says so, and,
if there is any mlmmj list at all, when the mlmmjadmin API says so. -/
theorem restriction_eq_default_iff (server : TextServer) (base : Str) {kwargs : PluginKwargs}
    {senderName senderDomain : Str} (hconn : calls.connVmail = .ldap (server.search.accounts base))
    (hauth : kwargs.saslUsername ≠ [])
    (hsender : splitOnce "@" kwargs.senderWithoutExt = some (senderName, senderDomain))
    (hu : PatternText kwargs.saslUsername) (hs : PatternText kwargs.senderWithoutExt) (w : ω) :
    restriction settings calls kwargs w = .ok SmtpActions.defaultAction ↔
      kwargs.senderWithoutExt = kwargs.saslUsername ∨
      isAllowedSender settings kwargs.saslUsername kwargs.saslUsernameDomain senderDomain = true ∨
      (settings.allowedLoginMismatchStrictly = true ∨
          settings.allowedLoginMismatchListMember = true) ∧
        (Finds server base
            (MaySend server settings kwargs.saslUsername kwargs.senderWithoutExt) ∨
          Finds server base (MlmmjList server) ∧
            ApiAccepts settings calls kwargs.senderWithoutExt kwargs.saslUsername w) := by
  have hne : SmtpActions.rejectSenderLoginMismatch ≠ SmtpActions.defaultAction := by decide
  have hnil : kwargs.senderWithoutExt ≠ [] := by
    intro h
    rw [h] at hsender
    cases hsender
  simp only [restriction, hnil, hsender, hauth, if_false, and_false, checkAuthenticated, bind,
    Except.bind, pure, Except.pure]
  by_cases hsame : kwargs.senderWithoutExt = kwargs.saslUsername
  · simp [hsame]
  simp only [hsame, if_false, false_or]
  have hcond : (settings.allowedLoginMismatchSenders.isEmpty &&
      !settings.allowedLoginMismatchStrictly && !settings.allowedLoginMismatchListMember) = true ↔
        settings.allowedLoginMismatchSenders.isEmpty = true ∧
          ¬ (settings.allowedLoginMismatchStrictly = true ∨
            settings.allowedLoginMismatchListMember = true) := by
    simp [and_assoc]
  simp only [hcond]
  cases hallowed : isAllowedSender settings kwargs.saslUsername kwargs.saslUsernameDomain
      senderDomain with
  | true =>
    have hempty : ¬ settings.allowedLoginMismatchSenders.isEmpty = true := by
      intro hempty
      rw [isAllowedSender, List.isEmpty_iff.mp hempty] at hallowed
      cases hallowed
    rw [if_neg fun h => hempty h.1, if_pos rfl]
    simp
  | false =>
    by_cases hsettings : settings.allowedLoginMismatchStrictly = true ∨
        settings.allowedLoginMismatchListMember = true
    · have haccount : lookupAccount settings calls.connVmail kwargs.senderWithoutExt senderName
          senderDomain kwargs.saslUsername kwargs.saslUsernameDomain w =
            .ok (lookupLdap settings (server.search.accounts base) kwargs.saslUsername
              kwargs.senderWithoutExt w) := by
        rw [hconn]
        exact if_pos (Bool.or_eq_true_iff.mpr hsettings)
      rw [if_neg fun h => h.2 hsettings, if_neg Bool.false_ne_true, haccount]
      simp only [Bool.false_eq_true, false_or, hsettings, true_and]
      rcases lookupLdap_cases server base hu hs hsettings w with ⟨hmay, heq⟩ | ⟨hmay, hlist, heq⟩ |
        ⟨hmay, hlist, heq⟩
      · simp [heq, hmay]
      · simp [heq, hmay, hlist, checkMlmmj_eq_default_iff]
      · simp [heq, hmay, hlist, hne]
    · by_cases hempty : settings.allowedLoginMismatchSenders.isEmpty = true
      · rw [if_pos ⟨hempty, hsettings⟩]
        simp [hsettings, hne]
      · have haccount : lookupAccount settings calls.connVmail kwargs.senderWithoutExt senderName
            senderDomain kwargs.saslUsername kwargs.saslUsernameDomain w = .ok .unknown :=
          if_neg fun h => hsettings (Bool.or_eq_true_iff.mp h)
        rw [if_neg fun h => hempty h.1, if_neg Bool.false_ne_true, haccount]
        simp [hsettings, hne]

end Senders

/-- A user sends as an alias address, with no setting of the plugin changed. -/
theorem restriction_eq_default_iff_alias :
    letI := asciiUnicode
    let server : TextServer :=
      { entries := [⟨"mail=a@b.cd,dc=x", [("objectClass".toList, ["mailUser".toList]),
          ("mail".toList, ["a@b.cd".toList]), ("shadowAddress".toList, ["e@b.cd".toList])]⟩]
        item := fun ldif attr _ parts =>
          ldif.any fun p => encode p.1 == attr && p.2.any fun v => [encode v] == parts }
    let calls : Calls Unit := ⟨.ldap (server.search.accounts "dc=x".toList), fun _ _ => .ok false,
      fun _ _ _ => .ok false, fun _ _ => .ok false⟩
    let kwargs : PluginKwargs :=
      { smtpSessionData := []
        sender := "e@b.cd"
        senderWithoutExt := "e@b.cd"
        recipient := "c@d.ef"
        recipientWithoutExt := "c@d.ef"
        clientAddress := "1.2.3.4"
        senderDomain := "b.cd"
        recipientDomain := "d.ef"
        saslUsername := "a@b.cd"
        saslUsernameDomain := "b.cd" }
    restriction {} calls kwargs () = .ok SmtpActions.defaultAction ↔
      kwargs.senderWithoutExt = kwargs.saslUsername ∨
      isAllowedSender {} kwargs.saslUsername kwargs.saslUsernameDomain "b.cd" = true ∨
      (true = true ∨ false = true) ∧
        (Finds server "dc=x" (MaySend server {} kwargs.saslUsername kwargs.senderWithoutExt) ∨
          Finds server "dc=x" (MlmmjList server) ∧
            ApiAccepts {} calls kwargs.senderWithoutExt kwargs.saslUsername ()) := by
  intro server calls kwargs
  exact restriction_eq_default_iff server "dc=x" rfl (by decide)
    (show splitOnce "@" "e@b.cd".toList = some ("e".toList, "b.cd".toList) by decide) (by decide)
    (by decide) ()

end IRedAPD.RejectSenderLoginMismatch

/-
  Mailing lists under an alias domain.

  What `restriction` does with a message is `Admits`, a condition on the user
  name, the requested domain and the real one (`decides`).  Only the policies
  `domain` and `subdomain` reject anyone; the moderators and owners of the list
  are admitted by both, but they are looked up under the requested domain.

  So the messages to the alias domain and to the target domain are treated
  alike, for every sender, exactly when the list makes no difference between the
  two (`transparentList_iff`): whoever is not admitted otherwise is registered under
  both or under none, and a policy `subdomain` needs the alias domain under the
  target domain.
-/
import IRedAPD.Equiv.Libs.VmailSql
import IRedAPD.Plugins.SqlMlAccessPolicy

namespace IRedAPD

open Py

variable [Unicode] {ω : Type*}

namespace SqlMlAccessPolicy

/-! ### Who is admitted -/

/-- A moderator or an owner of the list. -/
def Registered (db : AccountTables) (mail sender : Str) : Prop :=
  (⟨mail, sender⟩ : Overseer) ∈ db.moderators ∨ (⟨mail, sender⟩ : Overseer) ∈ db.maillistOwners

/-- Everyone who is registered with a list. -/
def registered (db : AccountTables) : List Str :=
  (db.moderators ++ db.maillistOwners).map Overseer.overseer

/-- The policies that may reject a message. -/
def IsRestrictive (policy : Str) : Prop :=
  policy = MaillistPolicy.domain ∨ policy = MaillistPolicy.subdomain

/-- The sender is found as a moderator or an owner, under the requested domain or under an alias
domain of the real one. -/
def Oversees (db : AccountTables) (user recipientDomain realRecipientDomain sender : Str) : Prop :=
  Registered db (user ++ '@' :: recipientDomain) sender ∨
    HasAlias db (splitLast "@" sender) realRecipientDomain ∧
      Registered db (user ++ '@' :: splitLast "@" sender) sender

/-- The sender is admitted to a list, under the requested and the real domain. -/
def Admits (db : AccountTables) (user recipientDomain realRecipientDomain policy sender : Str) :
    Prop :=
  let senderDomain := splitLast "@" sender
  (policy = MaillistPolicy.domain →
    Oversees db user recipientDomain realRecipientDomain sender ∨
      senderDomain = recipientDomain ∨ senderDomain = realRecipientDomain ∨
      HasAlias db senderDomain realRecipientDomain) ∧
  (policy = MaillistPolicy.subdomain →
    Oversees db user recipientDomain realRecipientDomain sender ∨
      (senderDomain = recipientDomain ∨ ('.' :: recipientDomain) <:+ sender) ∨
      senderDomain = realRecipientDomain ∨ ('.' :: realRecipientDomain) <:+ sender ∨
      HasAlias db senderDomain realRecipientDomain)

omit [Unicode] in
theorem mem_registered {db : AccountTables} {mail sender : Str} (h : Registered db mail sender) :
    sender ∈ registered db := by
  unfold registered
  rcases h with h | h
  · exact List.mem_map_of_mem (f := Overseer.overseer) (List.mem_append_left _ h)
  · exact List.mem_map_of_mem (f := Overseer.overseer) (List.mem_append_right _ h)

omit [Unicode] in
theorem admits_of_not_restrictive {db : AccountTables}
    {user recipientDomain realRecipientDomain policy sender : Str} (h : ¬ IsRestrictive policy) :
    Admits db user recipientDomain realRecipientDomain policy sender := by
  rw [IsRestrictive, not_or] at h
  exact ⟨fun hp => absurd hp h.1, fun hp => absurd hp h.2⟩

omit [Unicode] in
theorem admits_domain_iff {db : AccountTables}
    {user recipientDomain realRecipientDomain sender : Str} :
    Admits db user recipientDomain realRecipientDomain MaillistPolicy.domain sender ↔
      Oversees db user recipientDomain realRecipientDomain sender ∨
        splitLast "@" sender = recipientDomain ∨ splitLast "@" sender = realRecipientDomain ∨
        HasAlias db (splitLast "@" sender) realRecipientDomain := by
  constructor
  · exact fun h => h.1 rfl
  · exact fun h => ⟨fun _ => h, fun hp => absurd hp (by decide)⟩

omit [Unicode] in
theorem admits_subdomain_iff {db : AccountTables}
    {user recipientDomain realRecipientDomain sender : Str} :
    Admits db user recipientDomain realRecipientDomain MaillistPolicy.subdomain sender ↔
      Oversees db user recipientDomain realRecipientDomain sender ∨
        (splitLast "@" sender = recipientDomain ∨ ('.' :: recipientDomain) <:+ sender) ∨
        splitLast "@" sender = realRecipientDomain ∨ ('.' :: realRecipientDomain) <:+ sender ∨
        HasAlias db (splitLast "@" sender) realRecipientDomain := by
  constructor
  · exact fun h => h.2 rfl
  · exact fun h => ⟨fun hp => absurd hp (by decide), fun _ => h⟩

omit [Unicode] in
theorem isOverseer_iff {db : AccountTables} {rows : List Overseer}
    {user recipientDomain realRecipientDomain sender senderDomain : Str} :
    isOverseer rows ((user ++ '@' :: recipientDomain) ::
        (rcptAliasDomains db senderDomain realRecipientDomain).map fun d => user ++ '@' :: d)
        sender = true ↔
      (⟨user ++ '@' :: recipientDomain, sender⟩ : Overseer) ∈ rows ∨
        HasAlias db senderDomain realRecipientDomain ∧
          (⟨user ++ '@' :: senderDomain, sender⟩ : Overseer) ∈ rows := by
  unfold isOverseer
  rw [List.any_eq_true]
  simp only [Bool.and_eq_true, List.contains_iff_mem, beq_iff_eq, List.mem_cons, List.mem_map,
    mem_rcptAliasDomains_iff]
  constructor
  · rintro ⟨⟨address, overseer⟩, hr, haddress | ⟨d, ⟨rfl, halias⟩, haddress⟩, rfl⟩
    · exact .inl (haddress ▸ hr)
    · exact .inr ⟨halias, haddress ▸ hr⟩
  · rintro (hr | ⟨halias, hr⟩)
    · exact ⟨_, hr, .inl rfl, rfl⟩
    · exact ⟨_, hr, .inr ⟨senderDomain, ⟨rfl, halias⟩, rfl⟩, rfl⟩

omit [Unicode] in
/-- **The check of a policy.** -/
theorem checkPolicy_passes {tables : ω → Except Exn AccountTables} {db : AccountTables} {w : ω}
    (hdb : tables w = .ok db) {kwargs : PluginKwargs}
    (hsender : kwargs.senderDomain = splitLast "@" kwargs.senderWithoutExt) {user domain : Str}
    (hat : '@' ∉ user) (realRecipientDomain policy : Str) :
    ∃ action, checkPolicy tables (kwargs.addressed user domain) realRecipientDomain policy w =
        .ok action ∧
      (startsWith action "DUNNO" = true ↔ Admits db user domain realRecipientDomain
        (currentPolicy policy) kwargs.senderWithoutExt) := by
  have huser : splitFirst "@" (user ++ '@' :: domain) = user := splitFirst_append hat domain
  unfold checkPolicy
  simp only [PluginKwargs.addressed_recipientWithoutExt, PluginKwargs.addressed_recipientDomain,
    PluginKwargs.addressed_senderDomain, PluginKwargs.addressed_senderWithoutExt, huser, hdb, bind,
    Except.bind]
  by_cases hpublic : policy = MaillistPolicy.publicPolicy
  · rw [if_pos hpublic]
    refine ⟨_, rfl, iff_of_true (startsWith_default _) (admits_of_not_restrictive ?_)⟩
    rw [hpublic]
    unfold IsRestrictive
    decide
  rw [if_neg hpublic]
  generalize currentPolicy policy = policy
  -- these policies are left to the mailing list manager
  by_cases hlist : policy = MaillistPolicy.membersOnly ∨
      policy = MaillistPolicy.membersAndModeratorsOnly ∨ policy = MaillistPolicy.moderators
  · rw [if_pos hlist]
    refine ⟨_, rfl, iff_of_true (startsWith_default _) (admits_of_not_restrictive ?_)⟩
    rcases hlist with rfl | rfl | rfl
    · unfold IsRestrictive
      decide
    · unfold IsRestrictive
      decide
    · unfold IsRestrictive
      decide
  rw [if_neg hlist, hsender]
  have hdefault : startsWith SmtpActions.defaultAction "DUNNO" = true := by decide
  -- moderators and owners pass under either policy that is left
  have hadmits : Oversees db user domain realRecipientDomain kwargs.senderWithoutExt →
      Admits db user domain realRecipientDomain policy kwargs.senderWithoutExt :=
    fun h => ⟨fun _ => .inl h, fun _ => .inl h⟩
  by_cases hmoderator : isOverseer db.moderators ((user ++ '@' :: domain) ::
      (rcptAliasDomains db (splitLast "@" kwargs.senderWithoutExt) realRecipientDomain).map
        fun d => user ++ '@' :: d) kwargs.senderWithoutExt = true
  · rw [if_pos hmoderator]
    refine ⟨_, rfl, iff_of_true hdefault (hadmits ?_)⟩
    rcases isOverseer_iff.mp hmoderator with h | ⟨halias, h⟩
    · exact .inl (.inl h)
    · exact .inr ⟨halias, .inl h⟩
  by_cases howner : isOverseer db.maillistOwners ((user ++ '@' :: domain) ::
      (rcptAliasDomains db (splitLast "@" kwargs.senderWithoutExt) realRecipientDomain).map
        fun d => user ++ '@' :: d) kwargs.senderWithoutExt = true
  · rw [if_neg hmoderator, if_pos howner]
    refine ⟨_, rfl, iff_of_true hdefault (hadmits ?_)⟩
    rcases isOverseer_iff.mp howner with h | ⟨halias, h⟩
    · exact .inl (.inr h)
    · exact .inr ⟨halias, .inr h⟩
  rw [if_neg hmoderator, if_neg howner]
  have hnot : ¬ Oversees db user domain realRecipientDomain kwargs.senderWithoutExt := by
    rw [isOverseer_iff, not_or] at hmoderator howner
    rintro ((h | h) | ⟨halias, h | h⟩)
    · exact hmoderator.1 h
    · exact howner.1 h
    · exact hmoderator.2 ⟨halias, h⟩
    · exact howner.2 ⟨halias, h⟩
  by_cases hdomain : policy = MaillistPolicy.domain
  · rw [if_pos hdomain, hdomain]
    refine ⟨_, rfl, ?_⟩
    rw [startsWith_passes, isSameDomain_iff, admits_domain_iff, or_iff_right hnot]
  by_cases hsubdomain : policy = MaillistPolicy.subdomain
  · rw [if_neg hdomain, if_pos hsubdomain, hsubdomain]
    refine ⟨_, rfl, ?_⟩
    rw [startsWith_passes, isSameOrSubDomain_iff, admits_subdomain_iff, or_iff_right hnot]
  · rw [if_neg hdomain, if_neg hsubdomain]
    refine ⟨_, rfl, iff_of_true (startsWith_default _) (admits_of_not_restrictive ?_)⟩
    rintro (heq | heq)
    · exact hdomain heq
    · exact hsubdomain heq

/-! ### Which messages pass -/

theorem restriction_eq (tables : ω → Except Exn AccountTables) :
    restriction tables = restrictionBy tables AccountTables.maillists
      (fun kwargs _ => checkPolicy tables kwargs) " Recipient is not a mailing list account.".toList
      " (Recipient is not a mailing list account)".toList := rfl

theorem decides {tables : ω → Except Exn AccountTables} {db : AccountTables} {w : ω}
    (hdb : tables w = .ok db) {user : Str} (hat : '@' ∉ user) :
    Decides (restriction tables) w db db.maillists user fun recipientDomain real policy sender =>
      Admits db user recipientDomain real (currentPolicy policy) sender := by
  rw [restriction_eq]
  exact decides_restrictionBy hdb hat fun domain real policy hsender =>
    checkPolicy_passes hdb hsender hat real policy

/-! ### Alias domains -/

omit [Unicode] in
/-- A restrictive policy rejects someone. -/
theorem exists_not_admits (db : AccountTables) (user recipientDomain realRecipientDomain : Str)
    {policy : Str} (h : IsRestrictive policy) : ∃ sender,
    ¬ Admits db user recipientDomain realRecipientDomain policy sender := by
  obtain ⟨sender, hvalues, hsuffix, halias⟩ :=
    exists_outsider db ([recipientDomain, realRecipientDomain] ++ registered db)
  simp only [List.mem_append, List.mem_cons, List.not_mem_nil, or_false] at hvalues
  have hrecipient : splitLast "@" sender ≠ recipientDomain :=
    (hvalues _ (.inl (.inl rfl))).2.1.symm
  have hreal : splitLast "@" sender ≠ realRecipientDomain := (hvalues _ (.inl (.inr rfl))).2.1.symm
  have hnot : ¬ Oversees db user recipientDomain realRecipientDomain sender := by
    rintro (hmem | ⟨heq, -⟩)
    · exact (hvalues _ (.inr (mem_registered hmem))).1 rfl
    · exact halias _ heq
  refine ⟨sender, fun hadmits => ?_⟩
  rcases h with rfl | rfl
  · rcases admits_domain_iff.mp hadmits with heq | heq | heq | heq
    · exact hnot heq
    · exact hrecipient heq
    · exact hreal heq
    · exact halias _ heq
  · rcases admits_subdomain_iff.mp hadmits with heq | (heq | heq) | heq | heq | heq
    · exact hnot heq
    · exact hrecipient heq
    · exact hsuffix _ heq
    · exact hreal heq
    · exact hsuffix _ heq
    · exact halias _ heq

/-- The list makes no difference between the alias domain and the target domain: a policy `subdomain`
has the one under the other, and a sender that the policy does not let pass by its domain is
registered under both or under none. -/
structure TreatsAlike (db : AccountTables) (user policy aliasDomain targetDomain : Str) : Prop where
  subdomain : policy = MaillistPolicy.subdomain → IsUnder aliasDomain targetDomain
  registered : IsRestrictive policy → ∀ sender, splitLast "@" sender ≠ targetDomain →
    ¬ HasAlias db (splitLast "@" sender) targetDomain →
    (policy = MaillistPolicy.subdomain → ¬ ('.' :: targetDomain) <:+ sender) →
    (Registered db (user ++ '@' :: aliasDomain) sender ↔
      Registered db (user ++ '@' :: targetDomain) sender)

omit [Unicode] in
/-- **Both domains admit the same senders exactly for such a list.** -/
theorem admits_alike_iff {db : AccountTables} {aliasDomain targetDomain : Str}
    (halias : HasAlias db aliasDomain targetDomain) (user policy : Str) :
    (∀ sender, Admits db user aliasDomain targetDomain policy sender ↔
        Admits db user targetDomain targetDomain policy sender) ↔
      TreatsAlike db user policy aliasDomain targetDomain := by
  have hne : ∀ {sender : Str}, ¬ HasAlias db (splitLast "@" sender) targetDomain →
      splitLast "@" sender ≠ aliasDomain := fun hnot heq => hnot (heq ▸ halias)
  constructor
  · intro h
    have hsubdomain : policy = MaillistPolicy.subdomain → IsUnder aliasDomain targetDomain := by
      rintro rfl
      -- a sender under the alias domain that is nobody special is admitted there, so must be here
      obtain ⟨sender, hsender, hvalues, htarget, hnot, hunder⟩ :=
        exists_subdomain_sender db aliasDomain targetDomain (registered db)
      have hadmits : Admits db user aliasDomain targetDomain MaillistPolicy.subdomain sender :=
        admits_subdomain_iff.mpr (.inr (.inl (.inr hsender)))
      rcases admits_subdomain_iff.mp ((h sender).mp hadmits) with
        (hmem | ⟨heq, -⟩) | (heq | hsuffix) | heq | hsuffix | heq
      · exact absurd rfl (hvalues _ (mem_registered hmem))
      · exact absurd heq hnot
      · exact absurd heq htarget
      · exact hunder hsuffix
      · exact absurd heq htarget
      · exact hunder hsuffix
      · exact absurd heq hnot
    refine ⟨hsubdomain, ?_⟩
    rintro (rfl | rfl) sender htarget hnot hsuffix
    · have hiff := h sender
      rw [admits_domain_iff, admits_domain_iff] at hiff
      simpa only [Oversees, hnot, htarget, hne hnot, false_and, or_false] using hiff
    · have hiff := h sender
      have htargetSuffix := hsuffix rfl
      have haliasSuffix : ¬ ('.' :: aliasDomain) <:+ sender :=
        fun hs => htargetSuffix ((hsubdomain rfl).suffix hs)
      rw [admits_subdomain_iff, admits_subdomain_iff] at hiff
      simpa only [Oversees, hnot, htarget, hne hnot, htargetSuffix, haliasSuffix, false_and, or_false]
        using hiff
  · intro h sender
    by_cases hrestrictive : IsRestrictive policy
    · -- alias domains of the target are admitted under both
      by_cases hhas : HasAlias db (splitLast "@" sender) targetDomain
      · rcases hrestrictive with rfl | rfl
        · rw [admits_domain_iff, admits_domain_iff]
          exact iff_of_true (.inr (.inr (.inr hhas))) (.inr (.inr (.inr hhas)))
        · rw [admits_subdomain_iff, admits_subdomain_iff]
          exact iff_of_true (.inr (.inr (.inr (.inr hhas)))) (.inr (.inr (.inr (.inr hhas))))
      by_cases htarget : splitLast "@" sender = targetDomain
      · rcases hrestrictive with rfl | rfl
        · rw [admits_domain_iff, admits_domain_iff]
          exact iff_of_true (.inr (.inr (.inl htarget))) (.inr (.inl htarget))
        · rw [admits_subdomain_iff, admits_subdomain_iff]
          exact iff_of_true (.inr (.inr (.inl htarget))) (.inr (.inl (.inl htarget)))
      rcases hrestrictive with rfl | rfl
      · have hiff := h.registered (.inl rfl) sender htarget hhas (fun hp => absurd hp (by decide))
        rw [admits_domain_iff, admits_domain_iff]
        simpa only [Oversees, hhas, htarget, hne hhas, false_and, or_false] using hiff
      · by_cases hsuffix : ('.' :: targetDomain) <:+ sender
        · rw [admits_subdomain_iff, admits_subdomain_iff]
          exact iff_of_true (.inr (.inr (.inr (.inl hsuffix)))) (.inr (.inl (.inr hsuffix)))
        have hiff := h.registered (.inr rfl) sender htarget hhas fun _ => hsuffix
        have haliasSuffix : ¬ ('.' :: aliasDomain) <:+ sender :=
          fun hs => hsuffix ((h.subdomain rfl).suffix hs)
        rw [admits_subdomain_iff, admits_subdomain_iff]
        simpa only [Oversees, hhas, htarget, hne hhas, hsuffix, haliasSuffix, false_and, or_false]
          using hiff
    · exact iff_of_true (admits_of_not_restrictive hrestrictive)
        (admits_of_not_restrictive hrestrictive)

/-- **Messages to an alias domain are treated as those to its target domain exactly when the list
treats the two domains alike.**  Without a list there is nothing to treat, unless the target domain is
an alias domain itself and leads to a restrictive one. -/
theorem transparentList_iff {tables : ω → Except Exn AccountTables} {db : AccountTables} {w : ω}
    (hdb : tables w = .ok db) {user aliasDomain targetDomain : Str} (hat : '@' ∉ user)
    (hdomain : IsAliasDomain db aliasDomain targetDomain)
    (hnone : getAccessPolicy db.maillists (user ++ '@' :: aliasDomain) = none) :
    Transparent (restriction tables) w user aliasDomain targetDomain ↔
      (∀ policy, getAccessPolicy db.maillists (user ++ '@' :: targetDomain) = some policy →
        TreatsAlike db user (currentPolicy policy) aliasDomain targetDomain) ∧
      (getAccessPolicy db.maillists (user ++ '@' :: targetDomain) = none →
        ∀ target policy, getAliasTargetDomain db targetDomain = some target → target ≠ [] →
          getAccessPolicy db.maillists (user ++ '@' :: target) = some policy →
          ¬ IsRestrictive (currentPolicy policy)) := by
  rw [(decides hdb hat).transparent_iff hdomain hnone]
  refine and_congr (forall₂_congr fun policy _ => admits_alike_iff hdomain.row _ _) ?_
  refine forall_congr' fun _ => forall₂_congr fun target policy => ?_
  refine forall₃_congr fun _ _ _ => ⟨fun hadmits hrestrictive => ?_, fun hnot sender => ?_⟩
  · obtain ⟨sender, hsender⟩ := exists_not_admits db user targetDomain target hrestrictive
    exact hsender (hadmits sender)
  · exact admits_of_not_restrictive hnot

/-- The domain `b.cd` with the alias domain `b.ce` and the mailing list `l@b.cd`. -/
def oneList (policy : Str) (moderators : List Overseer) : AccountTables where
  domains := [⟨"b.cd", true⟩]
  aliasDomains := [⟨"b.ce", "b.cd"⟩]
  aliases := []
  maillists := [⟨"l@b.cd", some policy⟩]
  forwardings := []
  moderators
  maillistOwners := []

omit [Unicode] in
theorem isAliasDomain_oneList (policy : Str) (moderators : List Overseer) :
    letI := asciiUnicode
    IsAliasDomain (oneList policy moderators) "b.ce".toList "b.cd".toList := by
  let := asciiUnicode
  refine ⟨List.mem_cons_self .., ?_, List.mem_cons_self .., by decide, by decide, by decide,
    by decide⟩
  intro r hr _
  rw [List.mem_singleton.mp hr]

omit [Unicode] in
theorem registered_oneList_iff {policy mail overseer : Str} {moderators : List Overseer} :
    Registered (oneList policy moderators) mail overseer ↔ ⟨mail, overseer⟩ ∈ moderators :=
  or_iff_left List.not_mem_nil

omit [Unicode] in
/-- A mailing list for the users of its domain, whose moderator is registered under both addresses. -/
theorem transparentList_registered :
    letI := asciiUnicode
    Transparent (restriction fun _ : Unit => .ok (oneList "domain".toList
        [⟨"l@b.cd", "x@y.zz"⟩, ⟨"l@b.ce", "x@y.zz"⟩])) () "l".toList "b.ce".toList "b.cd".toList := by
  let := asciiUnicode
  refine (transparentList_iff rfl (by decide) (isAliasDomain_oneList _ _) (by decide)).mpr ⟨?_, ?_⟩
  · intro policy hpolicy
    have heq : policy = MaillistPolicy.domain :=
      Option.some.inj (hpolicy.symm.trans (show _ = some MaillistPolicy.domain by decide))
    subst heq
    refine ⟨fun h => absurd h (by decide), fun _ sender _ _ _ => ?_⟩
    have hcd : "l".toList ++ '@' :: "b.cd".toList = "l@b.cd".toList := by decide
    have hce : "l".toList ++ '@' :: "b.ce".toList = "l@b.ce".toList := by decide
    have hne : "l@b.cd".toList ≠ "l@b.ce".toList := by decide
    simp only [registered_oneList_iff, hcd, hce, List.mem_cons, Overseer.mk.injEq, hne, hne.symm,
      true_and, false_and, false_or, or_false, List.not_mem_nil]
  · intro hnone
    exact absurd hnone (by decide)

/-- The list whose moderator is registered under its own address only. -/
def moderatedList : AccountTables := oneList "domain".toList [⟨"l@b.cd", "x@y.zz"⟩]

omit [Unicode] in
/-- The moderator `x@y.zz` is let through to `l@b.cd` only. -/
theorem moderator_rejected_under_alias :
    letI := asciiUnicode
    IsAliasDomain moderatedList "b.ce".toList "b.cd".toList ∧
      getAccessPolicy moderatedList.maillists "l@b.ce".toList = none ∧
      ¬ Transparent (restriction fun _ : Unit => .ok moderatedList) () "l".toList "b.ce".toList
        "b.cd".toList := by
  let := asciiUnicode
  refine ⟨isAliasDomain_oneList _ _, by decide, fun htransparent => ?_⟩
  have haccepted : Passes (restriction fun _ : Unit => .ok moderatedList)
      ((messageFrom "x@y.zz".toList).addressed "l".toList "b.cd".toList) () :=
    ⟨SmtpActions.defaultAction, by rfl, by decide⟩
  have hrejected : ¬ Passes (restriction fun _ : Unit => .ok moderatedList)
      ((messageFrom "x@y.zz".toList).addressed "l".toList "b.ce".toList) () := by
    rw [passes_iff (show _ = Except.ok SmtpActions.rejectNotAuthorized by rfl)]
    decide
  exact hrejected ((htransparent (messageFrom "x@y.zz".toList) rfl).mpr haccepted)

end SqlMlAccessPolicy

end IRedAPD

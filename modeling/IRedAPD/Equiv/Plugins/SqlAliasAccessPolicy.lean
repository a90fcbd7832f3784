/-
  Mail aliases under an alias domain.

  What `restriction` does with a message is `Admits`, a condition on the account
  the policy is of, the requested domain and the real one (`decides`).  For a
  message to the alias domain and one to the target domain the account is the
  same and the requested domain differs, and it is the requested domain that the
  members and moderators are looked for under, and that the sub-domains are
  those of.

  So the two messages are treated alike, for every sender, exactly when the
  account makes no difference between the two domains (`transparentAlias_iff`): no
  member under the one but not the other has an alias address, and a policy
  `subdomain` needs the alias domain under the target domain.
-/
import IRedAPD.Equiv.Libs.VmailSql
import IRedAPD.Plugins.SqlAliasAccessPolicy

namespace IRedAPD

open Py

variable [Unicode] {ω : Type*}

namespace SqlAliasAccessPolicy

/-! ### Who is admitted -/

/-- The policies that go by a list of addresses. -/
def IsListPolicy (policy : Str) : Prop :=
  policy = MaillistPolicy.moderators ∨ policy = MaillistPolicy.membersOnly ∨
    policy = MaillistPolicy.membersAndModeratorsOnly

/-- The policies that may reject a message. -/
def IsRestrictive (policy : Str) : Prop :=
  policy = MaillistPolicy.domain ∨ policy = MaillistPolicy.subdomain ∨ IsListPolicy policy

/-- The addresses a policy goes by. -/
def restrictedMembers (db : AccountTables) (policy mail : Str) : List Str :=
  if policy = MaillistPolicy.moderators then getModerators db mail
  else if policy = MaillistPolicy.membersOnly then getMembers db mail
  else if policy = MaillistPolicy.membersAndModeratorsOnly then
    getMembers db mail ++ getModerators db mail
  else []

/-- The addresses among which `*@domain` stands for a domain. -/
def wildcardMembers (db : AccountTables) (policy mail : Str) : List Str :=
  if policy = MaillistPolicy.moderators ∨ policy = MaillistPolicy.membersAndModeratorsOnly then
    getModerators db mail
  else []

/-- The sender is admitted to an account, under the requested and the real domain. -/
def Admits (db : AccountTables) (recipientDomain realRecipientDomain realRecipient policy sender : Str) :
    Prop :=
  let senderDomain := splitLast "@" sender
  let user := splitFirst "@" sender
  (policy = MaillistPolicy.domain →
    senderDomain = recipientDomain ∨ senderDomain = realRecipientDomain ∨
      HasAlias db senderDomain realRecipientDomain) ∧
  (policy = MaillistPolicy.subdomain →
    (senderDomain = recipientDomain ∨ ('.' :: recipientDomain) <:+ sender) ∨
      senderDomain = realRecipientDomain ∨ ('.' :: realRecipientDomain) <:+ sender ∨
      HasAlias db senderDomain realRecipientDomain) ∧
  (IsListPolicy policy →
    sender ∈ restrictedMembers db policy realRecipient ∨
      "*@".toList ++ senderDomain ∈ wildcardMembers db policy realRecipient ∨
      HasAlias db senderDomain realRecipientDomain ∧
        (sender ∈ restrictedMembers db policy realRecipient ∨
          user ++ '@' :: recipientDomain ∈ restrictedMembers db policy realRecipient ∨
          user ++ '@' :: senderDomain ∈ restrictedMembers db policy realRecipient))

omit [Unicode] in
theorem isAllowedAliasDomainUser_iff {db : AccountTables}
    {sender user senderDomain recipientDomain realRecipientDomain : Str} {members : List Str} :
    isAllowedAliasDomainUser sender user senderDomain recipientDomain
        (rcptAliasDomains db senderDomain realRecipientDomain) members = true ↔
      HasAlias db senderDomain realRecipientDomain ∧ (sender ∈ members ∨
        user ++ '@' :: recipientDomain ∈ members ∨ user ++ '@' :: senderDomain ∈ members) := by
  unfold isAllowedAliasDomainUser
  by_cases h : HasAlias db senderDomain realRecipientDomain
  · rw [rcptAliasDomains_of_hasAlias h, if_pos (by simp)]
    simp [h]
  · rw [rcptAliasDomains_of_not h, if_neg (by simp)]
    simp [h]

/-- A policy that is not restrictive admits everyone. -/
theorem admits_of_not_restrictive {db : AccountTables}
    {recipientDomain realRecipientDomain realRecipient policy sender : Str}
    (h : ¬ IsRestrictive policy) :
    Admits db recipientDomain realRecipientDomain realRecipient policy sender := by
  rw [IsRestrictive, not_or, not_or] at h
  exact ⟨fun hp => absurd hp h.1, fun hp => absurd hp h.2.1, fun hp => absurd hp h.2.2⟩

theorem admits_domain_iff {db : AccountTables}
    {recipientDomain realRecipientDomain realRecipient sender : Str} :
    Admits db recipientDomain realRecipientDomain realRecipient MaillistPolicy.domain sender ↔
      splitLast "@" sender = recipientDomain ∨ splitLast "@" sender = realRecipientDomain ∨
        HasAlias db (splitLast "@" sender) realRecipientDomain := by
  constructor
  · exact fun h => h.1 rfl
  · intro h
    refine ⟨fun _ => h, fun hp => absurd hp (by decide), fun hp => absurd hp ?_⟩
    unfold IsListPolicy
    decide

theorem admits_subdomain_iff {db : AccountTables}
    {recipientDomain realRecipientDomain realRecipient sender : Str} :
    Admits db recipientDomain realRecipientDomain realRecipient MaillistPolicy.subdomain sender ↔
      (splitLast "@" sender = recipientDomain ∨ ('.' :: recipientDomain) <:+ sender) ∨
        splitLast "@" sender = realRecipientDomain ∨ ('.' :: realRecipientDomain) <:+ sender ∨
        HasAlias db (splitLast "@" sender) realRecipientDomain := by
  constructor
  · exact fun h => h.2.1 rfl
  · intro h
    refine ⟨fun hp => absurd hp (by decide), fun _ => h, fun hp => absurd hp ?_⟩
    unfold IsListPolicy
    decide

theorem admits_list_iff {db : AccountTables}
    {recipientDomain realRecipientDomain realRecipient policy sender : Str}
    (hlist : IsListPolicy policy) :
    Admits db recipientDomain realRecipientDomain realRecipient policy sender ↔
      sender ∈ restrictedMembers db policy realRecipient ∨
        "*@".toList ++ splitLast "@" sender ∈ wildcardMembers db policy realRecipient ∨
        HasAlias db (splitLast "@" sender) realRecipientDomain ∧
          (sender ∈ restrictedMembers db policy realRecipient ∨
            splitFirst "@" sender ++ '@' :: recipientDomain ∈
              restrictedMembers db policy realRecipient ∨
            splitFirst "@" sender ++ '@' :: splitLast "@" sender ∈
              restrictedMembers db policy realRecipient) := by
  constructor
  · exact fun h => h.2.2 hlist
  · intro h
    refine ⟨fun hp => ?_, fun hp => ?_, fun _ => h⟩
    · rw [hp] at hlist
      exact absurd hlist (by unfold IsListPolicy; decide)
    · rw [hp] at hlist
      exact absurd hlist (by unfold IsListPolicy; decide)

/-- The check when the statements succeed. -/
theorem checkPolicy_eq {tables : ω → Except Exn AccountTables} {db : AccountTables} {w : ω}
    (hdb : tables w = .ok db) (kwargs : PluginKwargs) (realRecipient realRecipientDomain : Str)
    {policy : Str} (hpublic : policy ≠ MaillistPolicy.publicPolicy) :
    ∃ remark, checkPolicy tables kwargs realRecipient realRecipientDomain policy w =
      let sender := kwargs.senderWithoutExt
      let aliasDomains := rcptAliasDomains db kwargs.senderDomain realRecipientDomain
      let allowed := isAllowedAliasDomainUser sender (splitFirst "@" sender) kwargs.senderDomain
        kwargs.recipientDomain aliasDomains
      let members := getMembers db realRecipient
      let moderators := getModerators db realRecipient
      let policy := currentPolicy policy
      .ok (if policy = MaillistPolicy.domain then
          passes (isSameDomain kwargs.senderDomain kwargs.recipientDomain realRecipientDomain
            aliasDomains)
        else if policy = MaillistPolicy.subdomain then
          passes (isSameOrSubDomain sender kwargs.senderDomain kwargs.recipientDomain
            realRecipientDomain aliasDomains)
        else if policy = MaillistPolicy.moderators then
          passes (moderators.contains sender ||
            moderators.contains ("*@".toList ++ kwargs.senderDomain) || allowed moderators)
        else if policy = MaillistPolicy.membersOnly then
          passes (members.contains sender || allowed members)
        else if policy = MaillistPolicy.membersAndModeratorsOnly then
          passes (members.contains sender || moderators.contains sender ||
            moderators.contains ("*@".toList ++ kwargs.senderDomain) || allowed (members ++ moderators))
        else SmtpActions.defaultAction ++ remark) := by
  refine ⟨" (Unsupported policy: ".toList ++ currentPolicy policy ++ ". Bypass.)".toList, ?_⟩
  unfold checkPolicy
  rw [if_neg hpublic]
  simp only [hdb, bind, Except.bind, pure, Except.pure]
  generalize currentPolicy policy = policy
  by_cases h₁ : policy = MaillistPolicy.domain
  · subst h₁
    rfl
  by_cases h₂ : policy = MaillistPolicy.subdomain
  · subst h₂
    rfl
  by_cases h₃ : policy = MaillistPolicy.moderators
  · subst h₃
    rfl
  by_cases h₄ : policy = MaillistPolicy.membersOnly
  · subst h₄
    rfl
  by_cases h₅ : policy = MaillistPolicy.membersAndModeratorsOnly
  · subst h₅
    rfl
  -- neither members nor moderators are read
  · simp only [h₁, h₂, h₃, h₄, h₅, or_self, if_false, List.append_assoc]

/-- **The check of a policy.** -/
theorem checkPolicy_passes {tables : ω → Except Exn AccountTables} {db : AccountTables} {w : ω}
    (hdb : tables w = .ok db) {kwargs : PluginKwargs}
    (hsender : kwargs.senderDomain = splitLast "@" kwargs.senderWithoutExt)
    (realRecipient realRecipientDomain policy : Str) :
    ∃ action, checkPolicy tables kwargs realRecipient realRecipientDomain policy w = .ok action ∧
      (startsWith action "DUNNO" = true ↔ Admits db kwargs.recipientDomain realRecipientDomain
        realRecipient (currentPolicy policy) kwargs.senderWithoutExt) := by
  by_cases hpublic : policy = MaillistPolicy.publicPolicy
  · subst hpublic
    refine ⟨_, by rw [checkPolicy, if_pos rfl]; rfl, iff_of_true (startsWith_default _) ?_⟩
    exact admits_of_not_restrictive (by unfold IsRestrictive IsListPolicy; decide)
  obtain ⟨remark, heq⟩ := checkPolicy_eq hdb kwargs realRecipient realRecipientDomain hpublic
  refine ⟨_, heq, ?_⟩
  generalize currentPolicy policy = policy
  rw [hsender]
  by_cases h₁ : policy = MaillistPolicy.domain
  · rw [if_pos h₁, startsWith_passes, isSameDomain_iff, h₁, admits_domain_iff]
  by_cases h₂ : policy = MaillistPolicy.subdomain
  · rw [if_neg h₁, if_pos h₂, startsWith_passes, isSameOrSubDomain_iff, h₂, admits_subdomain_iff]
  rw [if_neg h₁, if_neg h₂]
  by_cases h₃ : policy = MaillistPolicy.moderators
  · rw [if_pos h₃, startsWith_passes, admits_list_iff (.inl h₃)]
    simp only [Bool.or_eq_true, List.contains_iff_mem, isAllowedAliasDomainUser_iff,
      restrictedMembers, wildcardMembers, h₃, if_true, true_or, or_assoc]
  by_cases h₄ : policy = MaillistPolicy.membersOnly
  · have hboth : MaillistPolicy.membersOnly ≠ MaillistPolicy.membersAndModeratorsOnly := by decide
    rw [if_neg h₃, if_pos h₄, startsWith_passes, admits_list_iff (.inr (.inl h₄))]
    simp only [Bool.or_eq_true, List.contains_iff_mem, isAllowedAliasDomainUser_iff,
      restrictedMembers, wildcardMembers, h₄ ▸ h₃, h₄, hboth, if_true, if_false, false_or,
      List.not_mem_nil]
  by_cases h₅ : policy = MaillistPolicy.membersAndModeratorsOnly
  · have hmoderators : MaillistPolicy.membersAndModeratorsOnly ≠ MaillistPolicy.moderators := by
      decide
    have hmembers : MaillistPolicy.membersAndModeratorsOnly ≠ MaillistPolicy.membersOnly := by decide
    rw [if_neg h₃, if_neg h₄, if_pos h₅, startsWith_passes, admits_list_iff (.inr (.inr h₅))]
    simp only [Bool.or_eq_true, List.contains_iff_mem, isAllowedAliasDomainUser_iff,
      restrictedMembers, wildcardMembers, h₅, hmoderators, hmembers, if_true, if_false, or_true,
      List.mem_append, or_assoc]
  · rw [if_neg h₃, if_neg h₄, if_neg h₅]
    refine iff_of_true (startsWith_default _) (admits_of_not_restrictive ?_)
    rintro (h | h | h | h | h)
    · exact h₁ h
    · exact h₂ h
    · exact h₃ h
    · exact h₄ h
    · exact h₅ h

/-! ### Which messages pass -/

theorem restriction_eq (tables : ω → Except Exn AccountTables) :
    restriction tables = restrictionBy tables AccountTables.aliases (checkPolicy tables)
      " Recipient is not a mail alias account or no access policy".toList
      " (Recipient domain is an alias domain, but recipient is not a mail alias account)".toList := rfl

theorem decides {tables : ω → Except Exn AccountTables} {db : AccountTables} {w : ω}
    (hdb : tables w = .ok db) {user : Str} (hat : '@' ∉ user) :
    Decides (restriction tables) w db db.aliases user fun recipientDomain real policy sender =>
      Admits db recipientDomain real (user ++ '@' :: real) (currentPolicy policy) sender := by
  rw [restriction_eq]
  refine decides_restrictionBy hdb hat fun {kwargs} domain real policy hsender => ?_
  have hsender' : (kwargs.addressed user domain).senderDomain =
      splitLast "@" (kwargs.addressed user domain).senderWithoutExt := hsender
  exact checkPolicy_passes hdb hsender' (user ++ '@' :: real) real policy

/-! ### Alias domains -/

/-- A restrictive policy rejects someone. -/
theorem exists_not_admits (db : AccountTables)
    (recipientDomain realRecipientDomain realRecipient : Str) {policy : Str}
    (h : IsRestrictive policy) : ∃ sender,
    ¬ Admits db recipientDomain realRecipientDomain realRecipient policy sender := by
  obtain ⟨sender, hvalues, hsuffix, halias⟩ := exists_outsider db
    ([recipientDomain, realRecipientDomain] ++ restrictedMembers db policy realRecipient ++
      wildcardMembers db policy realRecipient)
  simp only [List.mem_append, List.mem_cons, List.not_mem_nil, or_false] at hvalues
  refine ⟨sender, fun hadmits => ?_⟩
  rcases h with rfl | rfl | hlist
  · rcases admits_domain_iff.mp hadmits with heq | heq | heq
    · exact (hvalues _ (.inl (.inl (.inl rfl)))).2.1 heq.symm
    · exact (hvalues _ (.inl (.inl (.inr rfl)))).2.1 heq.symm
    · exact halias _ heq
  · rcases admits_subdomain_iff.mp hadmits with (heq | heq) | heq | heq | heq
    · exact (hvalues _ (.inl (.inl (.inl rfl)))).2.1 heq.symm
    · exact hsuffix _ heq
    · exact (hvalues _ (.inl (.inl (.inr rfl)))).2.1 heq.symm
    · exact hsuffix _ heq
    · exact halias _ heq
  · rcases (admits_list_iff hlist).mp hadmits with hmem | hmem | ⟨heq, -⟩
    · exact (hvalues _ (.inl (.inr hmem))).1 rfl
    · exact (hvalues _ (.inr hmem)).2.2 rfl
    · exact halias _ heq

/-- The account makes no difference between the alias domain and the target domain: a policy
`subdomain` has the one under the other, and a list has a user of an alias domain, whom it does not
have otherwise, under both or under none. -/
structure TreatsAlike (db : AccountTables) (policy mail aliasDomain targetDomain : Str) : Prop where
  subdomain : policy = MaillistPolicy.subdomain → IsUnder aliasDomain targetDomain
  list : ∀ sender, HasAlias db (splitLast "@" sender) targetDomain →
    sender ∉ restrictedMembers db policy mail →
    splitFirst "@" sender ++ '@' :: splitLast "@" sender ∉ restrictedMembers db policy mail →
    "*@".toList ++ splitLast "@" sender ∉ wildcardMembers db policy mail →
    (splitFirst "@" sender ++ '@' :: aliasDomain ∈ restrictedMembers db policy mail ↔
      splitFirst "@" sender ++ '@' :: targetDomain ∈ restrictedMembers db policy mail)

/-- **Both domains admit the same senders exactly for such an account.** -/
theorem admits_alike_iff {db : AccountTables} {aliasDomain targetDomain : Str}
    (halias : HasAlias db aliasDomain targetDomain) (mail policy : Str) :
    (∀ sender, Admits db aliasDomain targetDomain mail policy sender ↔
        Admits db targetDomain targetDomain mail policy sender) ↔
      TreatsAlike db policy mail aliasDomain targetDomain := by
  constructor
  · intro h
    refine ⟨?_, fun sender hdomain hsender hself hwildcard => ?_⟩
    · rintro rfl
      -- a sender under the alias domain that is nobody special is admitted there, so must be here
      obtain ⟨sender, hsender, -, hne, hnot, hunder⟩ :=
        exists_subdomain_sender db aliasDomain targetDomain []
      have hadmits : Admits db aliasDomain targetDomain mail MaillistPolicy.subdomain sender :=
        admits_subdomain_iff.mpr (.inl (.inr hsender))
      rcases admits_subdomain_iff.mp ((h sender).mp hadmits) with
        (heq | hsuffix) | heq | hsuffix | heq
      · exact absurd heq hne
      · exact hunder hsuffix
      · exact absurd heq hne
      · exact hunder hsuffix
      · exact absurd heq hnot
    · by_cases hlist : IsListPolicy policy
      · have hiff := h sender
        rw [admits_list_iff hlist, admits_list_iff hlist] at hiff
        simp only [hsender, hwildcard, hself, hdomain, true_and, false_or, or_false] at hiff
        exact hiff
      · rw [IsListPolicy, not_or, not_or] at hlist
        simp only [restrictedMembers, hlist, if_false, List.not_mem_nil]
  · intro h sender
    by_cases hdomain : policy = MaillistPolicy.domain
    · subst hdomain
      rw [admits_domain_iff, admits_domain_iff]
      constructor
      · rintro (heq | heq | heq)
        · exact .inr (.inr (heq ▸ halias))
        · exact .inl heq
        · exact .inr (.inr heq)
      · rintro (heq | heq)
        · exact .inr (.inl heq)
        · exact .inr heq
    by_cases hsubdomain : policy = MaillistPolicy.subdomain
    · subst hsubdomain
      rw [admits_subdomain_iff, admits_subdomain_iff]
      constructor
      · rintro ((heq | hsuffix) | hadmits)
        · exact .inr (.inr (.inr (heq ▸ halias)))
        · exact .inl (.inr ((h.subdomain rfl).suffix hsuffix))
        · exact .inr hadmits
      · rintro ((heq | hsuffix) | hadmits)
        · exact .inr (.inl heq)
        · exact .inr (.inr (.inl hsuffix))
        · exact .inr hadmits
    by_cases hlist : IsListPolicy policy
    · rw [admits_list_iff hlist, admits_list_iff hlist]
      by_cases hsender : sender ∈ restrictedMembers db policy mail
      · exact iff_of_true (.inl hsender) (.inl hsender)
      by_cases hwildcard : "*@".toList ++ splitLast "@" sender ∈ wildcardMembers db policy mail
      · exact iff_of_true (.inr (.inl hwildcard)) (.inr (.inl hwildcard))
      -- the domain of the recipient matters only for senders of an alias domain of the target
      by_cases hhas : HasAlias db (splitLast "@" sender) targetDomain
      · by_cases hself : splitFirst "@" sender ++ '@' :: splitLast "@" sender ∈
            restrictedMembers db policy mail
        · exact iff_of_true (.inr (.inr ⟨hhas, .inr (.inr hself)⟩))
            (.inr (.inr ⟨hhas, .inr (.inr hself)⟩))
        · simp only [h.list sender hhas hsender hself hwildcard]
      · simp only [hhas, false_and]
    · have hnot : ¬ IsRestrictive policy := by
        rintro (heq | heq | hl)
        · exact hdomain heq
        · exact hsubdomain heq
        · exact hlist hl
      exact iff_of_true (admits_of_not_restrictive hnot) (admits_of_not_restrictive hnot)

/-- **Messages to an alias domain are treated as those to its target domain exactly when the account
treats the two domains alike.**  Without an account there is nothing to treat, unless the target
domain is an alias domain itself and leads to a restrictive one. -/
theorem transparentAlias_iff {tables : ω → Except Exn AccountTables} {db : AccountTables} {w : ω}
    (hdb : tables w = .ok db) {user aliasDomain targetDomain : Str} (hat : '@' ∉ user)
    (hdomain : IsAliasDomain db aliasDomain targetDomain)
    (hnone : getAccessPolicy db.aliases (user ++ '@' :: aliasDomain) = none) :
    Transparent (restriction tables) w user aliasDomain targetDomain ↔
      (∀ policy, getAccessPolicy db.aliases (user ++ '@' :: targetDomain) = some policy →
        TreatsAlike db (currentPolicy policy) (user ++ '@' :: targetDomain) aliasDomain
          targetDomain) ∧
      (getAccessPolicy db.aliases (user ++ '@' :: targetDomain) = none →
        ∀ target policy, getAliasTargetDomain db targetDomain = some target → target ≠ [] →
          getAccessPolicy db.aliases (user ++ '@' :: target) = some policy →
          ¬ IsRestrictive (currentPolicy policy)) := by
  rw [(decides hdb hat).transparent_iff hdomain hnone]
  refine and_congr (forall₂_congr fun policy _ => admits_alike_iff hdomain.row _ _) ?_
  refine forall_congr' fun _ => forall₂_congr fun target policy => ?_
  refine forall₃_congr fun _ _ _ => ⟨fun hadmits hrestrictive => ?_, fun hnot sender => ?_⟩
  · obtain ⟨sender, hsender⟩ := exists_not_admits db targetDomain target (user ++ '@' :: target)
      hrestrictive
    exact hsender (hadmits sender)
  · exact admits_of_not_restrictive hnot

/-- The domain `b.cd` with the alias domain `b.ce` and the mail alias `l@b.cd` of one member. -/
def oneAlias (policy : Str) : AccountTables where
  domains := [⟨"b.cd", true⟩]
  aliasDomains := [⟨"b.ce", "b.cd"⟩]
  aliases := [⟨"l@b.cd", some policy⟩]
  maillists := []
  forwardings := [⟨"l@b.cd", "x@b.cd", false, true, true⟩]
  moderators := []
  maillistOwners := []

omit [Unicode] in
theorem isAliasDomain_oneAlias (policy : Str) :
    letI := asciiUnicode
    IsAliasDomain (oneAlias policy) "b.ce".toList "b.cd".toList := by
  let := asciiUnicode
  refine ⟨List.mem_cons_self .., ?_, List.mem_cons_self .., by decide, by decide, by decide,
    by decide⟩
  intro r hr _
  rw [List.mem_singleton.mp hr]

omit [Unicode] in
/-- Mail aliases for the users of the domain. -/
theorem transparentAlias_domain :
    letI := asciiUnicode
    Transparent (restriction fun _ : Unit => .ok (oneAlias "domain".toList)) () "l".toList
      "b.ce".toList "b.cd".toList := by
  let := asciiUnicode
  refine (transparentAlias_iff rfl (by decide) (isAliasDomain_oneAlias _) (by decide)).mpr ⟨?_, ?_⟩
  · intro policy hpolicy
    have heq : policy = MaillistPolicy.domain :=
      Option.some.inj (hpolicy.symm.trans (show _ = some MaillistPolicy.domain by decide))
    subst heq
    refine ⟨fun h => absurd h (by decide), fun sender _ _ _ _ => ?_⟩
    exact iff_of_false List.not_mem_nil List.not_mem_nil
  · intro hnone
    exact absurd hnone (by decide)

omit [Unicode] in
/-- The member `x@b.cd`, who writes from `x@b.ce`, is let through to `l@b.cd` only. -/
theorem member_rejected_under_alias :
    letI := asciiUnicode
    IsAliasDomain (oneAlias "membersonly".toList) "b.ce".toList "b.cd".toList ∧
      getAccessPolicy (oneAlias "membersonly".toList).aliases "l@b.ce".toList = none ∧
      ¬ Transparent (restriction fun _ : Unit => .ok (oneAlias "membersonly".toList)) () "l".toList
        "b.ce".toList "b.cd".toList := by
  let := asciiUnicode
  refine ⟨isAliasDomain_oneAlias _, by decide, fun htransparent => ?_⟩
  have haccepted : Passes (restriction fun _ : Unit => .ok (oneAlias "membersonly".toList))
      ((messageFrom "x@b.ce".toList).addressed "l".toList "b.cd".toList) () :=
    ⟨SmtpActions.defaultAction, by rfl, by decide⟩
  have hrejected : ¬ Passes (restriction fun _ : Unit => .ok (oneAlias "membersonly".toList))
      ((messageFrom "x@b.ce".toList).addressed "l".toList "b.ce".toList) () := by
    rw [passes_iff (show _ = Except.ok SmtpActions.rejectNotAuthorized by rfl)]
    decide
  exact hrejected ((htransparent (messageFrom "x@b.ce".toList) rfl).mpr haccepted)

end SqlAliasAccessPolicy

end IRedAPD

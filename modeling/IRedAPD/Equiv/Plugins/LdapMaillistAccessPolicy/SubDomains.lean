/-
  Sub-domain entries of `listAllowedUser`.

  The candidates for a sender domain of `n` labels are the domain itself and
  `.` with what is left of it after `k` labels, but the loop that makes them
  pops from the list it runs over, so `k` only goes up to half of `n`
  (`mem_possibleSenderDomains_iff`).  An entry `.d` is therefore honoured for
  the domains under `d` in which `d` is more than half of the labels
  (`honoursSubDomain_iff`).
-/
import IRedAPD.Framing
import IRedAPD.Plugins.LdapMaillistAccessPolicy

namespace IRedAPD

open Py

variable [Unicode] {ω : Type*}

namespace LdapMaillistAccessPolicy

/-- The modeler goes on to the next plugin. -/
def Accepts (calls : Calls ω) (kwargs : PluginKwargs) (w : ω) : Prop :=
  ∃ action, (applyPlugin (plugin calls) kwargs w).1 = some action ∧ startsWith action "DUNNO" = true

/-- What `restriction` returns decides, and an exception accepts. -/
theorem accepts_iff (calls : Calls ω) (kwargs : PluginKwargs) (w : ω) :
    Accepts calls kwargs w ↔
      ∀ action, restriction calls kwargs w = .ok action → startsWith action "DUNNO" = true := by
  unfold Accepts applyPlugin
  simp only [plugin]
  cases restriction calls kwargs w with
  | ok action =>
    constructor
    · rintro ⟨a, heq, ha⟩ b hb
      rw [← Except.ok.inj hb, Option.some.inj heq]
      exact ha
    · exact fun ha => ⟨action, rfl, ha action rfl⟩
  | error e =>
    constructor
    · rintro - _ heq
      cases heq
    · exact fun _ => ⟨SmtpActions.defaultAction, rfl, by decide⟩

/-- An active list with a policy other than `public` that `mlmmj` does not look after. -/
structure RestrictedList (ldif : Ldif) (policy : Str) : Prop where
  objectClass : ∃ classes, ldif.get? "objectClass" = some classes ∧ "mailList".toList ∈ classes
  accountStatus : getValues ldif "accountStatus" = ["active".toList]
  accessPolicy_eq : accessPolicy ldif = .ok policy
  policy_ne : policy ≠ MaillistPolicy.publicPolicy
  not_mlmmj : "mlmmj".toList ∉ getValues ldif "enabledService"

/-- The policy as the plugin calls it. -/
def currentName (policy : Str) : Str :=
  if policy = MaillistPolicy.allowedOnly then MaillistPolicy.moderators else policy

/-- For such a list the checks of the sender are what counts. -/
theorem restriction_eq_checkSender {ldif : Ldif} {policy : Str} (hlist : RestrictedList ldif policy)
    (calls : Calls ω) {kwargs : PluginKwargs} (hldif : kwargs.recipientLdif = some ldif)
    (hsasl : kwargs.saslUsername ≠ kwargs.recipientWithoutExt) (w : ω) :
    restriction calls kwargs w = checkSender calls kwargs ldif (currentName policy) w := by
  obtain ⟨classes, hget, hclass⟩ := hlist.objectClass
  have hne : ldif ≠ [] := by
    rintro rfl
    cases hget
  obtain ⟨p, ldif, rfl⟩ := List.exists_cons_of_ne_nil hne
  have hcontains : classes.contains "mailList".toList = true := List.contains_iff_mem.mpr hclass
  have hmlmmj : (getValues (p :: ldif) "enabledService").contains "mlmmj".toList = false := by
    rw [Bool.eq_false_iff, ne_eq, List.contains_iff_mem]
    exact hlist.not_mlmmj
  unfold restriction
  rw [if_neg hsasl, hldif]
  simp only [hget, hcontains, Bool.not_true, Bool.false_eq_true, if_false, checkList,
    hlist.accountStatus, ne_eq, not_true_eq_false, hlist.accessPolicy_eq, hlist.policy_ne, hmlmmj,
    false_and, bind, Except.bind, pure, Except.pure]
  rfl

/-! ### The candidates -/

omit [Unicode] in
/-- **The candidates for a sender domain**: the loop ends after half of the labels. -/
theorem mem_possibleSenderDomains_iff (senderDomain c : Str) :
    c ∈ possibleSenderDomains senderDomain ↔ c = senderDomain ∨
      ∃ k, 2 * k < (senderDomain.splitOn '.').length ∧
        c = '.' :: join "." ((senderDomain.splitOn '.').drop k) := by
  have hloop : possibleSenderDomains senderDomain = [senderDomain] ++
      (List.range (((senderDomain.splitOn '.').length + 1) / 2)).map fun k =>
        '.' :: join "." ((senderDomain.splitOn '.').drop k) :=
    forEach_popping Prod.snd _ Prod.fst (fun parts => '.' :: join "." parts) (fun _ _ => rfl)
      (fun _ _ => rfl) ([senderDomain], senderDomain.splitOn '.')
  rw [hloop, List.mem_append, List.mem_singleton, List.mem_map]
  refine or_congr_right ⟨?_, ?_⟩
  · rintro ⟨k, hk, rfl⟩
    rw [List.mem_range] at hk
    exact ⟨k, by omega, rfl⟩
  · rintro ⟨k, hk, rfl⟩
    refine ⟨k, ?_, rfl⟩
    rw [List.mem_range]
    omega

/-- The number of labels of a domain. -/
def labels (domain : Str) : ℕ := (domain.splitOn '.').length

omit [Unicode] in
/-- An entry `.d` is a candidate for a domain under `d` when `d` is more than half of its labels. -/
theorem mem_possibleSenderDomains_dot_iff {senderDomain d : Str}
    (hsuffix : senderDomain = d ∨ ('.' :: d) <:+ senderDomain) :
    '.' :: d ∈ possibleSenderDomains senderDomain ↔
      senderDomain = '.' :: d ∨ labels senderDomain < 2 * labels d := by
  have hjoin : ∀ s : Str, join ".".toList (s.splitOn '.') = s := fun s => List.intercalate_splitOn '.'
  -- `d` is what is left after some labels
  obtain ⟨k, hk, hdrop⟩ : ∃ k, labels senderDomain = k + labels d ∧
      (senderDomain.splitOn '.').drop k = d.splitOn '.' := by
    rcases hsuffix with rfl | ⟨p, rfl⟩
    · exact ⟨0, (Nat.zero_add _).symm, rfl⟩
    · refine ⟨(p.splitOn '.').length, ?_, ?_⟩
      · rw [labels, List.splitOn_append_cons_self, List.length_append]
        rfl
      · rw [List.splitOn_append_cons_self, List.drop_left]
  rw [mem_possibleSenderDomains_iff]
  refine or_congr eq_comm ⟨?_, ?_⟩
  · rintro ⟨j, hj, heq⟩
    have hd : d = join ".".toList ((senderDomain.splitOn '.').drop j) := (List.cons.inj heq).2
    have hne : (senderDomain.splitOn '.').drop j ≠ [] := by
      rw [ne_eq, List.drop_eq_nil_iff]
      omega
    have hlabels : d.splitOn '.' = (senderDomain.splitOn '.').drop j := by
      rw [hd]
      exact List.splitOn_intercalate '.'
        (fun l hl => Framing.not_mem_of_mem_splitOn (List.mem_of_mem_drop hl)) hne
    have hlen : labels d = labels senderDomain - j := by
      rw [labels, hlabels, List.length_drop]
      rfl
    have hj' : 2 * j < labels senderDomain := hj
    omega
  · intro hlt
    refine ⟨k, ?_, ?_⟩
    · show 2 * k < labels senderDomain
      omega
    · rw [hdrop, hjoin]

/-! ### The entries -/

omit [Unicode] in
theorem startsWith_defaultWith (remark : Str) : startsWith (defaultWith remark) "DUNNO" = true := by
  rw [startsWith_iff]
  exact List.prefix_append _ _

omit [Unicode] in
/-- Whoever is allowed explicitly passes. -/
theorem startsWith_of_checkExplicitlyAllowed {sender senderDomain action : Str} {allowed : List Str}
    (h : checkExplicitlyAllowed sender senderDomain allowed = some action) :
    startsWith action "DUNNO" = true := by
  unfold checkExplicitlyAllowed at h
  split_ifs at h <;>
  · rw [← Option.some.inj h]
    exact startsWith_defaultWith _

omit [Unicode] in
/-- When a sender is not. -/
theorem checkExplicitlyAllowed_eq_none_iff {sender senderDomain : Str} {allowed : List Str} :
    checkExplicitlyAllowed sender senderDomain allowed = none ↔
      sender ∉ allowed ∧ "*@".toList ++ senderDomain ∉ allowed ∧
        ∀ c ∈ possibleSenderDomains senderDomain, c ∉ allowed := by
  have hself : senderDomain ∈ possibleSenderDomains senderDomain :=
    (mem_possibleSenderDomains_iff _ _).mpr (.inl rfl)
  unfold checkExplicitlyAllowed
  split_ifs with h₁ h₂ h₃
  · rw [List.contains_iff_mem] at h₁
    simp [h₁]
  · rw [Bool.or_eq_true, List.contains_iff_mem, List.contains_iff_mem] at h₂
    refine ⟨fun h => absurd h (by simp), ?_⟩
    rintro ⟨-, hstar, hall⟩
    rcases h₂ with h₂ | h₂
    · exact absurd h₂ (hall _ hself)
    · exact absurd h₂ hstar
  · rw [List.any_eq_true] at h₃
    obtain ⟨c, hc, hmem⟩ := h₃
    rw [List.contains_iff_mem] at hmem
    refine ⟨fun h => absurd h (by simp), ?_⟩
    rintro ⟨-, -, hall⟩
    exact absurd hmem (hall c hc)
  · rw [Bool.not_eq_true, Bool.or_eq_false_iff, List.contains_eq_mem, List.contains_eq_mem,
      decide_eq_false_iff_not, decide_eq_false_iff_not] at h₂
    rw [List.contains_iff_mem] at h₁
    refine ⟨fun _ => ⟨h₁, h₂.2, fun c hc hmem => h₃ ?_⟩, fun _ => rfl⟩
    exact List.any_eq_true.mpr ⟨c, hc, List.contains_iff_mem.mpr hmem⟩

/-- The plugin honours the entry `.d` for a sender domain: every list with the entry accepts the
sender. -/
def HonoursSubDomain (w : ω) (senderDomain d : Str) : Prop :=
  ∀ (calls : Calls ω) (kwargs : PluginKwargs) (ldif : Ldif) (policy : Str),
    RestrictedList ldif policy → kwargs.recipientLdif = some ldif →
    kwargs.senderDomain = senderDomain → '.' :: d ∈ getValues ldif "listAllowedUser" →
    Accepts calls kwargs w

/-- A candidate among the values is accepted whatever the policy. -/
theorem accepts_of_explicitlyAllowed {ldif : Ldif} {policy : Str} (hlist : RestrictedList ldif policy)
    (calls : Calls ω) {kwargs : PluginKwargs} (hldif : kwargs.recipientLdif = some ldif) (w : ω)
    (hallowed : checkExplicitlyAllowed kwargs.senderWithoutExt kwargs.senderDomain
      (getValues ldif "listAllowedUser") ≠ none) : Accepts calls kwargs w := by
  obtain ⟨allowed, hexplicit⟩ := Option.ne_none_iff_exists'.mp hallowed
  rw [accepts_iff]
  intro action haction
  by_cases hsasl : kwargs.saslUsername = kwargs.recipientWithoutExt
  · unfold restriction at haction
    rw [if_pos hsasl] at haction
    rw [← Except.ok.inj haction]
    exact startsWith_defaultWith _
  rw [restriction_eq_checkSender hlist calls hldif hsasl] at haction
  unfold checkSender at haction
  cases hdomains : getPrimaryAndAliasDomains calls.sets calls.searchS calls.ldapBasedn
      kwargs.recipientDomain w with
  | none =>
    rw [hdomains] at haction
    cases haction
  | some domains =>
    simp only [hdomains, hexplicit, pure, Except.pure] at haction
    split_ifs at haction
    · rw [← Except.ok.inj haction]
      decide
    · rw [← Except.ok.inj haction]
      decide
    · rw [← Except.ok.inj haction]
      exact startsWith_of_checkExplicitlyAllowed hexplicit

/-- A list for the users of its own domain, with one value. -/
def domainList (value : Str) : Ldif :=
  [("objectClass".toList, ["mailList".toList]), ("accountStatus".toList, ["active".toList]),
    ("accessPolicy".toList, [MaillistPolicy.domain]), ("listAllowedUser".toList, [value])]

theorem restrictedList_domainList (value : Str) :
    RestrictedList (domainList value) MaillistPolicy.domain where
  objectClass := ⟨["mailList".toList], rfl, by decide⟩
  accountStatus := rfl
  accessPolicy_eq := by
    show Except.ok (Unicode.lower MaillistPolicy.domain) = _
    rw [lower_eq_self (by decide) (by decide)]
  policy_ne := by decide
  not_mlmmj := by
    rw [show getValues (domainList value) "enabledService" = [] from rfl]
    exact List.not_mem_nil

/-- Such a list rejects a sender that is not under its domain and not the value. -/
theorem not_accepts_domainList (w : ω) {senderDomain value : Str}
    (hallowed : checkExplicitlyAllowed ("x@".toList ++ senderDomain) senderDomain [value] = none) :
    ∃ (calls : Calls ω) (kwargs : PluginKwargs), kwargs.recipientLdif = some (domainList value) ∧
      kwargs.senderDomain = senderDomain ∧ ¬ Accepts calls kwargs w := by
  let calls : Calls ω := ⟨[], fun _ _ => .error .operationalError, .ofDedup, fun _ => []⟩
  let kwargs : PluginKwargs :=
    { smtpSessionData := []
      sender := "x@".toList ++ senderDomain
      senderWithoutExt := "x@".toList ++ senderDomain
      recipient := "list@b.cd"
      recipientWithoutExt := "list@b.cd"
      clientAddress := []
      senderDomain
      recipientDomain := "b.cd"
      saslUsername := []
      saslUsernameDomain := []
      recipientLdif := some (domainList value) }
  have hdomains : getPrimaryAndAliasDomains calls.sets calls.searchS calls.ldapBasedn
      kwargs.recipientDomain w = some [] := by
    unfold getPrimaryAndAliasDomains
    split_ifs <;> rfl
  have hexplicit : checkExplicitlyAllowed kwargs.senderWithoutExt kwargs.senderDomain
      (getValues (domainList value) "listAllowedUser") = none := hallowed
  have hresult : restriction calls kwargs w = .ok SmtpActions.rejectNotAuthorized := by
    rw [restriction_eq_checkSender (restrictedList_domainList value) calls rfl
      (show ([] : Str) ≠ "list@b.cd".toList by decide)]
    unfold checkSender
    rw [hdomains]
    simp only [hexplicit, pure, Except.pure]
    rfl
  refine ⟨calls, kwargs, rfl, rfl, fun haccepts => ?_⟩
  exact absurd ((accepts_iff calls kwargs w).mp haccepts _ hresult) (by decide)

/-- **The entry `.d` is honoured** for a sender domain `d` or under `d` exactly when `d` is more than
half of its labels, or the domain is written `.d` itself. -/
theorem honoursSubDomain_iff (w : ω) {senderDomain d : Str}
    (hsuffix : senderDomain = d ∨ ('.' :: d) <:+ senderDomain) :
    HonoursSubDomain w senderDomain d ↔
      senderDomain = '.' :: d ∨ labels senderDomain < 2 * labels d := by
  rw [← mem_possibleSenderDomains_dot_iff hsuffix]
  constructor
  · intro hhonours
    by_contra hmem
    have hallowed : checkExplicitlyAllowed ("x@".toList ++ senderDomain) senderDomain
        ['.' :: d] = none := by
      rw [checkExplicitlyAllowed_eq_none_iff]
      refine ⟨?_, ?_, ?_⟩
      · rw [List.mem_singleton]
        exact fun heq => absurd (List.cons.inj heq).1 (by decide)
      · rw [List.mem_singleton]
        exact fun heq => absurd (List.cons.inj heq).1 (by decide)
      · rintro c hc hvalue
        rw [List.mem_singleton.mp hvalue] at hc
        exact hmem hc
    obtain ⟨calls, kwargs, hldif, hdomain, hreject⟩ := not_accepts_domainList w hallowed
    exact hreject (hhonours calls kwargs _ _ (restrictedList_domainList _) hldif hdomain
      List.mem_cons_self)
  · intro hmem calls kwargs ldif policy hlist hldif hdomain hvalue
    refine accepts_of_explicitlyAllowed hlist calls hldif w fun hnone => ?_
    rw [checkExplicitlyAllowed_eq_none_iff, hdomain] at hnone
    exact hnone.2.2 _ hmem hvalue

omit [Unicode] in
/-- A domain of three labels under one of two. -/
theorem honoursSubDomain_mail :
    letI := asciiUnicode
    HonoursSubDomain () "mail.b.cd".toList "b.cd".toList := by
  let := asciiUnicode
  exact (honoursSubDomain_iff () (.inr ⟨"mail".toList, by decide⟩)).mpr (.inr (by decide))

omit [Unicode] in
/-- A list that allows `.b.cd` rejects `x@s.mail.b.cd`. -/
theorem deep_subDomain_rejected :
    letI := asciiUnicode
    ".b.cd".toList <:+ "s.mail.b.cd".toList ∧
      ¬ HonoursSubDomain () "s.mail.b.cd".toList "b.cd".toList := by
  let := asciiUnicode
  refine ⟨⟨"s.mail".toList, by decide⟩, fun hhonours => ?_⟩
  obtain ⟨calls, kwargs, hldif, hdomain, hreject⟩ :=
    not_accepts_domainList () (show checkExplicitlyAllowed ("x@".toList ++ "s.mail.b.cd".toList)
      "s.mail.b.cd".toList [".b.cd".toList] = none by decide)
  exact hreject (hhonours calls kwargs _ _ (restrictedList_domainList _) hldif hdomain
    List.mem_cons_self)

end LdapMaillistAccessPolicy

end IRedAPD

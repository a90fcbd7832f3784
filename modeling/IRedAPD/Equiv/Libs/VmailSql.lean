/-
  Accounts under an alias domain.

  A message to `user@a`, with `a` an alias domain of `t`, is meant to be treated
  as the same message to `user@t`; `Transparent` says so of the `restriction` of
  an access policy plugin.  The plugins share the query that resolves the alias
  domain (`getAliasTargetDomain_eq`), the policies `domain` and `subdomain`
  (`isSameDomain_iff`, `isSameOrSubDomain_iff`), and the order in which accounts
  are looked up (`decides_restrictionBy`).  The policy `domain` treats both
  messages alike; `subdomain` lets the domains under `a` pass for `user@a` only,
  unless they are under `t` as well (`IsUnder`).
-/
import IRedAPD.Equiv.Addresses
import IRedAPD.Libs.VmailSql

namespace IRedAPD

open Py

variable [Unicode] {ω : Type*}

/-! ### Messages -/

/-- The same message to an account. -/
def PluginKwargs.addressed (kwargs : PluginKwargs) (user domain : Str) : PluginKwargs :=
  { kwargs with
    recipient := user ++ '@' :: domain
    recipientWithoutExt := user ++ '@' :: domain
    recipientDomain := domain }

/-- A message with a sender. -/
def messageFrom (sender : Str) : PluginKwargs where
  smtpSessionData := []
  sender
  senderWithoutExt := sender
  recipient := []
  recipientWithoutExt := []
  clientAddress := []
  senderDomain := splitLast "@" sender
  recipientDomain := []
  saslUsername := []
  saslUsernameDomain := []

/-- `restriction` lets the message pass. -/
def Passes (restriction : PluginKwargs → ω → Except Exn Str) (kwargs : PluginKwargs) (w : ω) : Prop :=
  ∃ action, restriction kwargs w = .ok action ∧ startsWith action "DUNNO" = true

/-- Whoever sends it, a message to the user under the alias domain passes if and only if the same
message to the user under the target domain does. -/
def Transparent (restriction : PluginKwargs → ω → Except Exn Str) (w : ω)
    (user aliasDomain targetDomain : Str) : Prop :=
  ∀ kwargs : PluginKwargs, kwargs.senderDomain = splitLast "@" kwargs.senderWithoutExt →
    (Passes restriction (kwargs.addressed user aliasDomain) w ↔
      Passes restriction (kwargs.addressed user targetDomain) w)

omit [Unicode] in
@[simp] theorem PluginKwargs.addressed_recipientWithoutExt (kwargs : PluginKwargs) (user domain : Str) :
    (kwargs.addressed user domain).recipientWithoutExt = user ++ '@' :: domain := rfl

omit [Unicode] in
@[simp] theorem PluginKwargs.addressed_recipientDomain (kwargs : PluginKwargs) (user domain : Str) :
    (kwargs.addressed user domain).recipientDomain = domain := rfl

omit [Unicode] in
@[simp] theorem PluginKwargs.addressed_senderDomain (kwargs : PluginKwargs) (user domain : Str) :
    (kwargs.addressed user domain).senderDomain = kwargs.senderDomain := rfl

omit [Unicode] in
@[simp] theorem PluginKwargs.addressed_senderWithoutExt (kwargs : PluginKwargs) (user domain : Str) :
    (kwargs.addressed user domain).senderWithoutExt = kwargs.senderWithoutExt := rfl

omit [Unicode] in
/-- The action says whether the message passes. -/
theorem passes_iff {restriction : PluginKwargs → ω → Except Exn Str} {kwargs : PluginKwargs} {w : ω}
    {action : Str} (h : restriction kwargs w = .ok action) :
    Passes restriction kwargs w ↔ startsWith action "DUNNO" = true := by
  constructor
  · rintro ⟨action', haction', hpasses⟩
    rw [h] at haction'
    cases haction'
    exact hpasses
  · intro hpasses
    exact ⟨action, h, hpasses⟩

omit [Unicode] in
theorem startsWith_passes (b : Bool) : startsWith (passes b) "DUNNO" = true ↔ b = true := by
  cases b with
  | true => exact ⟨fun _ => rfl, fun _ => by decide⟩
  | false => exact ⟨fun h => absurd h (by decide), fun h => absurd h (by decide)⟩

omit [Unicode] in
theorem startsWith_default (remark : Str) :
    startsWith (SmtpActions.defaultAction ++ remark) "DUNNO" = true := by
  rw [startsWith_iff]
  exact List.prefix_append _ _

/-! ### Alias domains -/

/-- An alias domain of an active domain; `alias_domain` is the key of its table. -/
structure IsAliasDomain (db : AccountTables) (aliasDomain targetDomain : Str) : Prop where
  row : (⟨aliasDomain, targetDomain⟩ : AliasDomain) ∈ db.aliasDomains
  key : ∀ r ∈ db.aliasDomains, r.aliasDomain = aliasDomain → r.targetDomain = targetDomain
  active : (⟨targetDomain, true⟩ : MailDomain) ∈ db.domains
  lower_alias : Unicode.lower aliasDomain = aliasDomain
  lower_target : Unicode.lower targetDomain = targetDomain
  isDomain_alias : isDomain aliasDomain = true
  target_ne : targetDomain ≠ []

/-- **The alias domain is resolved.** -/
theorem getAliasTargetDomain_eq {db : AccountTables} {aliasDomain targetDomain : Str}
    (h : IsAliasDomain db aliasDomain targetDomain) :
    getAliasTargetDomain db aliasDomain = some targetDomain := by
  unfold getAliasTargetDomain
  simp only [h.lower_alias, h.isDomain_alias, Bool.not_true, Bool.false_eq_true, if_false]
  set select : AliasDomain → Bool := fun r => r.aliasDomain == aliasDomain &&
    db.domains.any fun d => d.active && d.domain == r.targetDomain with hselect
  have hrow : select ⟨aliasDomain, targetDomain⟩ = true := by
    simp only [hselect, beq_self_eq_true, Bool.true_and]
    exact List.any_eq_true.mpr ⟨_, h.active, by simp⟩
  have hsome : (db.aliasDomains.find? select).isSome := List.find?_isSome.mpr ⟨_, h.row, hrow⟩
  obtain ⟨r, hr⟩ := Option.isSome_iff_exists.mp hsome
  have hselected : select r = true := List.find?_some hr
  have hkey : r.aliasDomain = aliasDomain := beq_iff_eq.mp (Bool.and_eq_true_iff.mp hselected).1
  rw [hr, Option.map_some, h.key r (List.mem_of_find?_eq_some hr) hkey, h.lower_target]

/-- The sender's domain is an alias domain of the real recipient domain. -/
def HasAlias (db : AccountTables) (senderDomain realRecipientDomain : Str) : Prop :=
  (⟨senderDomain, realRecipientDomain⟩ : AliasDomain) ∈ db.aliasDomains

omit [Unicode] in
theorem rcptAliasDomains_of_hasAlias {db : AccountTables} {senderDomain realRecipientDomain : Str}
    (h : HasAlias db senderDomain realRecipientDomain) :
    rcptAliasDomains db senderDomain realRecipientDomain = [senderDomain] := by
  have hsome : (db.aliasDomains.find? fun r =>
      r.aliasDomain == senderDomain && r.targetDomain == realRecipientDomain).isSome :=
    List.find?_isSome.mpr ⟨_, h, by simp⟩
  obtain ⟨r, hr⟩ := Option.isSome_iff_exists.mp hsome
  have hselected : (r.aliasDomain == senderDomain && r.targetDomain == realRecipientDomain) = true :=
    List.find?_some (p := fun r : AliasDomain => r.aliasDomain == senderDomain &&
      r.targetDomain == realRecipientDomain) hr
  have hkey : r.aliasDomain = senderDomain := beq_iff_eq.mp (Bool.and_eq_true_iff.mp hselected).1
  unfold rcptAliasDomains
  simp only [hr, Option.toList_some, List.map_cons, List.map_nil, hkey]

omit [Unicode] in
theorem rcptAliasDomains_of_not {db : AccountTables} {senderDomain realRecipientDomain : Str}
    (h : ¬ HasAlias db senderDomain realRecipientDomain) :
    rcptAliasDomains db senderDomain realRecipientDomain = [] := by
  have hnone : (db.aliasDomains.find? fun r =>
      r.aliasDomain == senderDomain && r.targetDomain == realRecipientDomain) = none := by
    rw [List.find?_eq_none]
    rintro ⟨a, t⟩ hr heq
    simp only [Bool.and_eq_true, beq_iff_eq] at heq
    obtain ⟨rfl, rfl⟩ := heq
    exact h hr
  unfold rcptAliasDomains
  simp only [hnone, Option.toList_none, List.map_nil]

omit [Unicode] in
theorem mem_rcptAliasDomains_iff {db : AccountTables} {senderDomain realRecipientDomain d : Str} :
    d ∈ rcptAliasDomains db senderDomain realRecipientDomain ↔
      d = senderDomain ∧ HasAlias db senderDomain realRecipientDomain := by
  by_cases h : HasAlias db senderDomain realRecipientDomain
  · rw [rcptAliasDomains_of_hasAlias h, List.mem_singleton]
    exact (and_iff_left h).symm
  · rw [rcptAliasDomains_of_not h]
    exact ⟨fun hd => absurd hd List.not_mem_nil, fun hd => absurd hd.2 h⟩

/-! ### The policies `domain` and `subdomain` -/

omit [Unicode] in
theorem isSameDomain_iff {db : AccountTables} {senderDomain recipientDomain realRecipientDomain : Str} :
    isSameDomain senderDomain recipientDomain realRecipientDomain
        (rcptAliasDomains db senderDomain realRecipientDomain) = true ↔
      senderDomain = recipientDomain ∨ senderDomain = realRecipientDomain ∨
        HasAlias db senderDomain realRecipientDomain := by
  unfold isSameDomain
  rw [Bool.or_eq_true, Bool.or_eq_true, beq_iff_eq, beq_iff_eq, List.contains_iff_mem,
    mem_rcptAliasDomains_iff, or_assoc]
  simp only [true_and]

omit [Unicode] in
theorem isSameOrSubDomain_iff {db : AccountTables}
    {sender senderDomain recipientDomain realRecipientDomain : Str} :
    isSameOrSubDomain sender senderDomain recipientDomain realRecipientDomain
        (rcptAliasDomains db senderDomain realRecipientDomain) = true ↔
      (senderDomain = recipientDomain ∨ ('.' :: recipientDomain) <:+ sender) ∨
        senderDomain = realRecipientDomain ∨ ('.' :: realRecipientDomain) <:+ sender ∨
        HasAlias db senderDomain realRecipientDomain := by
  unfold isSameOrSubDomain
  simp only [Bool.or_eq_true, beq_iff_eq, List.contains_iff_mem, mem_rcptAliasDomains_iff,
    endsWith_iff, List.any_eq_true, true_and]
  constructor
  · rintro (((((h | h) | h) | h) | h) | ⟨d, ⟨-, h⟩, -⟩)
    · exact .inl (.inl h)
    · exact .inr (.inl h)
    · exact .inl (.inr h)
    · exact .inr (.inr (.inl h))
    · exact .inr (.inr (.inr h))
    · exact .inr (.inr (.inr h))
  · rintro ((h | h) | h | h | h)
    · exact .inl (.inl (.inl (.inl (.inl h))))
    · exact .inl (.inl (.inl (.inr h)))
    · exact .inl (.inl (.inl (.inl (.inr h))))
    · exact .inl (.inl (.inr h))
    · exact .inl (.inr h)

/-- The alias domain is the target domain or under it. -/
def IsUnder (aliasDomain targetDomain : Str) : Prop :=
  aliasDomain = targetDomain ∨ ('.' :: targetDomain) <:+ aliasDomain

omit [Unicode] in
/-- Then whoever is under the one is under the other. -/
theorem IsUnder.suffix {aliasDomain targetDomain sender : Str} (h : IsUnder aliasDomain targetDomain)
    (hsender : ('.' :: aliasDomain) <:+ sender) : ('.' :: targetDomain) <:+ sender := by
  rcases h with rfl | h
  · exact hsender
  · exact (h.trans (List.suffix_cons '.' aliasDomain)).trans hsender

omit [Unicode] in
/-- Otherwise some domain is under the alias domain only: one with a first label that is longer than
any text in question. -/
theorem isUnder_of_suffix {aliasDomain targetDomain a : Str} (ha : '.' ∉ a)
    (h : ('.' :: targetDomain) <:+ "x@".toList ++ a ++ '.' :: aliasDomain) :
    IsUnder aliasDomain targetDomain := by
  rcases List.suffix_or_suffix_of_suffix h (List.suffix_append _ _) with h' | ⟨t, ht⟩
  · rcases List.suffix_cons_iff.mp h' with heq | h'
    · exact .inl (List.cons.inj heq).2.symm
    · exact .inr h'
  · -- a longer target domain would have its dot in the first label
    cases t with
    | nil => exact .inl (List.cons.inj ht).2
    | cons c t =>
      exfalso
      obtain ⟨rfl, -⟩ := List.cons.inj ht
      obtain ⟨s, hs⟩ := h
      rw [← ht, ← List.append_assoc] at hs
      have hpre := List.append_cancel_right hs
      have hmem : '.' ∈ "x@".toList ++ a := by
        rw [← hpre]
        simp
      rcases List.mem_append.mp hmem with h | h
      · exact absurd h (by decide)
      · exact ha h

/-! ### Senders that no table knows -/

omit [Unicode] in
theorem splitLast_at (d : Str) : splitLast "@" ("x@".toList ++ d) = d := by
  show splitLast ['@'] (['x'] ++ '@' :: d) = d
  exact splitLast_append (by decide) d

omit [Unicode] in
theorem not_hasAlias_of_longer {db : AccountTables} {d : Str}
    (h : ∀ v ∈ db.aliasDomains.map AliasDomain.aliasDomain, v.length < d.length)
    (realRecipientDomain : Str) : ¬ HasAlias db d realRecipientDomain := by
  intro halias
  exact absurd (h _ (List.mem_map_of_mem halias)) (lt_irrefl _)

omit [Unicode] in
/-- Some sender is under no domain in question, and no given text. -/
theorem exists_outsider (db : AccountTables) (values : List Str) : ∃ sender,
    (∀ v ∈ values, v ≠ sender ∧ v ≠ splitLast "@" sender ∧ v ≠ "*@".toList ++ splitLast "@" sender) ∧
      (∀ d : Str, ¬ ('.' :: d) <:+ sender) ∧ ∀ d, ¬ HasAlias db (splitLast "@" sender) d := by
  obtain ⟨a, -, hdot, hlonger⟩ := exists_longer (values ++ db.aliasDomains.map AliasDomain.aliasDomain)
  refine ⟨"x@".toList ++ a, fun v hv => ?_, fun d hd => ?_, ?_⟩
  · have hlength := hlonger v (List.mem_append_left _ hv)
    rw [splitLast_at]
    refine ⟨?_, ?_, ?_⟩
    · rintro rfl
      rw [List.length_append] at hlength
      omega
    · rintro rfl
      omega
    · rintro rfl
      rw [List.length_append] at hlength
      omega
  · have hmem : '.' ∈ "x@".toList ++ a := hd.subset (List.mem_cons_self ..)
    rcases List.mem_append.mp hmem with hmem | hmem
    · exact absurd hmem (by decide)
    · exact hdot hmem
  · rw [splitLast_at]
    exact not_hasAlias_of_longer fun v hv => hlonger v (List.mem_append_right _ hv)

omit [Unicode] in
/-- Some sender is under the alias domain, and otherwise as unknown, unless all those under the alias
domain are under the target domain. -/
theorem exists_subdomain_sender (db : AccountTables) (aliasDomain targetDomain : Str)
    (values : List Str) : ∃ sender, ('.' :: aliasDomain) <:+ sender ∧ (∀ v ∈ values, v ≠ sender) ∧
      splitLast "@" sender ≠ targetDomain ∧ ¬ HasAlias db (splitLast "@" sender) targetDomain ∧
      (('.' :: targetDomain) <:+ sender → IsUnder aliasDomain targetDomain) := by
  obtain ⟨a, -, hdot, hlonger⟩ := exists_longer ([targetDomain] ++ values ++
    db.aliasDomains.map AliasDomain.aliasDomain)
  have hdomain : splitLast "@" ("x@".toList ++ a ++ '.' :: aliasDomain) = a ++ '.' :: aliasDomain := by
    rw [List.append_assoc]
    exact splitLast_at _
  refine ⟨"x@".toList ++ a ++ '.' :: aliasDomain, List.suffix_append _ _, fun v hv => ?_, ?_, ?_,
    isUnder_of_suffix hdot⟩
  · rintro rfl
    have hlength := hlonger _ (List.mem_append_left _ (List.mem_append_right _ hv))
    rw [List.length_append, List.length_append] at hlength
    omega
  · rw [hdomain]
    intro heq
    have hlength := hlonger targetDomain (by simp)
    rw [← heq, List.length_append] at hlength
    omega
  · rw [hdomain]
    refine not_hasAlias_of_longer (fun v hv => ?_) targetDomain
    rw [List.length_append]
    exact lt_of_lt_of_le (hlonger v (List.mem_append_right _ hv)) (Nat.le_add_right _ _)

/-! ### Transparency -/

/-- What a plugin decides about the messages to a user: `admits` is asked of the requested domain, the
domain the account is found under, its policy and the sender. -/
structure Decides (restriction : PluginKwargs → ω → Except Exn Str) (w : ω) (db : AccountTables)
    (accounts : List PolicyAccount) (user : Str) (admits : Str → Str → Str → Str → Prop) : Prop where
  ofAccount : ∀ {kwargs : PluginKwargs} {domain policy : Str},
    kwargs.senderDomain = splitLast "@" kwargs.senderWithoutExt →
    getAccessPolicy accounts (user ++ '@' :: domain) = some policy →
    (Passes restriction (kwargs.addressed user domain) w ↔
      admits domain domain policy kwargs.senderWithoutExt)
  ofAlias : ∀ {kwargs : PluginKwargs} {domain target policy : Str},
    kwargs.senderDomain = splitLast "@" kwargs.senderWithoutExt →
    getAccessPolicy accounts (user ++ '@' :: domain) = none →
    getAliasTargetDomain db domain = some target → target ≠ [] →
    getAccessPolicy accounts (user ++ '@' :: target) = some policy →
    (Passes restriction (kwargs.addressed user domain) w ↔
      admits domain target policy kwargs.senderWithoutExt)
  ofNone : ∀ {kwargs : PluginKwargs} {domain : Str},
    getAccessPolicy accounts (user ++ '@' :: domain) = none →
    (∀ target, getAliasTargetDomain db domain = some target → target ≠ [] →
      getAccessPolicy accounts (user ++ '@' :: target) = none) →
    Passes restriction (kwargs.addressed user domain) w

/-- What the `restriction`s of the plugins do: the policy of the recipient's account is checked, else
the one of the same user's account under the target domain. -/
def restrictionBy (tables : ω → Except Exn AccountTables)
    (accounts : AccountTables → List PolicyAccount)
    (check : PluginKwargs → Str → Str → Str → ω → Except Exn Str) (noDomain noAccount : Str)
    (kwargs : PluginKwargs) (w : ω) : Except Exn Str := do
  let recipient := kwargs.recipientWithoutExt
  let db ← tables w
  match getAccessPolicy (accounts db) recipient with
  | some policy => check kwargs recipient kwargs.recipientDomain policy w
  | none =>
    let db ← tables w
    let targetDomain := (getAliasTargetDomain db kwargs.recipientDomain).getD []
    if targetDomain = [] then
      return SmtpActions.defaultAction ++ noDomain
    let realRecipient := splitFirst "@" recipient ++ '@' :: targetDomain
    let db ← tables w
    match getAccessPolicy (accounts db) realRecipient with
    | some policy => check kwargs realRecipient targetDomain policy w
    | none => return SmtpActions.defaultAction ++ noAccount

/-- **Such a plugin decides as its check does.** -/
theorem decides_restrictionBy {tables : ω → Except Exn AccountTables} {db : AccountTables} {w : ω}
    (hdb : tables w = .ok db) {accounts : AccountTables → List PolicyAccount}
    {check : PluginKwargs → Str → Str → Str → ω → Except Exn Str} {noDomain noAccount user : Str}
    (hat : '@' ∉ user) {admits : Str → Str → Str → Str → Prop}
    (hcheck : ∀ {kwargs : PluginKwargs} (domain real policy : Str),
      kwargs.senderDomain = splitLast "@" kwargs.senderWithoutExt →
      ∃ action, check (kwargs.addressed user domain) (user ++ '@' :: real) real policy w = .ok action ∧
        (startsWith action "DUNNO" = true ↔ admits domain real policy kwargs.senderWithoutExt)) :
    Decides (restrictionBy tables accounts check noDomain noAccount) w db (accounts db) user admits where
  ofAccount {kwargs domain policy} hsender haccount := by
    obtain ⟨action, haction, hpasses⟩ := hcheck domain domain policy hsender
    have hrestriction : restrictionBy tables accounts check noDomain noAccount
        (kwargs.addressed user domain) w = .ok action := by
      unfold restrictionBy
      simp only [hdb, bind, Except.bind, PluginKwargs.addressed_recipientWithoutExt, haccount]
      exact haction
    rw [passes_iff hrestriction]
    exact hpasses
  ofAlias {kwargs domain target policy} hsender hnone htarget hne haccount := by
    obtain ⟨action, haction, hpasses⟩ := hcheck domain target policy hsender
    have huser : splitFirst "@" (user ++ '@' :: domain) = user := splitFirst_append hat domain
    have hrestriction : restrictionBy tables accounts check noDomain noAccount
        (kwargs.addressed user domain) w = .ok action := by
      unfold restrictionBy
      simp only [hdb, bind, Except.bind, PluginKwargs.addressed_recipientWithoutExt,
        PluginKwargs.addressed_recipientDomain, hnone, htarget, Option.getD_some, hne, if_false, huser,
        haccount]
      exact haction
    rw [passes_iff hrestriction]
    exact hpasses
  ofNone {kwargs domain} hnone hother := by
    have huser : splitFirst "@" (user ++ '@' :: domain) = user := splitFirst_append hat domain
    unfold Passes restrictionBy
    simp only [hdb, bind, Except.bind, PluginKwargs.addressed_recipientWithoutExt,
      PluginKwargs.addressed_recipientDomain, hnone]
    cases htarget : getAliasTargetDomain db domain with
    | none => exact ⟨_, rfl, startsWith_default _⟩
    | some target =>
      simp only [Option.getD_some]
      by_cases hne : target = []
      · rw [if_pos hne]
        exact ⟨_, rfl, startsWith_default _⟩
      · simp only [if_neg hne, huser, hother target htarget hne]
        exact ⟨_, rfl, startsWith_default _⟩

/-- **The messages to the two domains are treated alike exactly when the account admits the same
senders under both.**  Without an account there is nothing to treat, unless the target domain is an
alias domain itself: then the account that it leads to has to admit everyone. -/
theorem Decides.transparent_iff {restriction : PluginKwargs → ω → Except Exn Str} {w : ω}
    {db : AccountTables} {accounts : List PolicyAccount} {user : Str}
    {admits : Str → Str → Str → Str → Prop} (h : Decides restriction w db accounts user admits)
    {aliasDomain targetDomain : Str} (hdomain : IsAliasDomain db aliasDomain targetDomain)
    (hnone : getAccessPolicy accounts (user ++ '@' :: aliasDomain) = none) :
    Transparent restriction w user aliasDomain targetDomain ↔
      (∀ policy, getAccessPolicy accounts (user ++ '@' :: targetDomain) = some policy → ∀ sender,
        (admits aliasDomain targetDomain policy sender ↔
          admits targetDomain targetDomain policy sender)) ∧
      (getAccessPolicy accounts (user ++ '@' :: targetDomain) = none →
        ∀ target policy, getAliasTargetDomain db targetDomain = some target → target ≠ [] →
          getAccessPolicy accounts (user ++ '@' :: target) = some policy →
          ∀ sender, admits targetDomain target policy sender) := by
  have htarget := getAliasTargetDomain_eq hdomain
  cases haccount : getAccessPolicy accounts (user ++ '@' :: targetDomain) with
  -- the account is found under the target domain, and through it under the alias domain
  | some policy =>
    have hpasses : ∀ kwargs : PluginKwargs,
        kwargs.senderDomain = splitLast "@" kwargs.senderWithoutExt →
        ((Passes restriction (kwargs.addressed user aliasDomain) w ↔
            Passes restriction (kwargs.addressed user targetDomain) w) ↔
          (admits aliasDomain targetDomain policy kwargs.senderWithoutExt ↔
            admits targetDomain targetDomain policy kwargs.senderWithoutExt)) := by
      intro kwargs hsender
      rw [h.ofAlias hsender hnone htarget hdomain.target_ne haccount, h.ofAccount hsender haccount]
    constructor
    · intro htransparent
      refine ⟨fun policy' heq sender => ?_, fun heq => absurd heq (Option.some_ne_none _)⟩
      cases heq
      exact (hpasses (messageFrom sender) rfl).mp (htransparent (messageFrom sender) rfl)
    · rintro ⟨hadmits, -⟩ kwargs hsender
      exact (hpasses kwargs hsender).mpr (hadmits policy rfl kwargs.senderWithoutExt)
  -- nothing is found under the alias domain, so every message to it passes
  | none =>
    have hpasses : ∀ kwargs : PluginKwargs,
        Passes restriction (kwargs.addressed user aliasDomain) w := by
      intro kwargs
      refine h.ofNone hnone fun target heq _ => ?_
      rw [htarget] at heq
      cases heq
      exact haccount
    constructor
    · intro htransparent
      refine ⟨fun policy heq => absurd heq.symm (Option.some_ne_none _), ?_⟩
      intro _ target policy heq hne hreal sender
      have hsender : Passes restriction ((messageFrom sender).addressed user targetDomain) w :=
        (htransparent (messageFrom sender) rfl).mp (hpasses _)
      exact (h.ofAlias rfl haccount heq hne hreal).mp hsender
    · rintro ⟨-, hadmits⟩ kwargs hsender
      refine iff_of_true (hpasses kwargs) ?_
      by_cases hreal : ∃ target policy, getAliasTargetDomain db targetDomain = some target ∧
          target ≠ [] ∧ getAccessPolicy accounts (user ++ '@' :: target) = some policy
      · obtain ⟨target, policy, heq, hne, hreal⟩ := hreal
        exact (h.ofAlias hsender haccount heq hne hreal).mpr (hadmits rfl target policy heq hne hreal _)
      · refine h.ofNone haccount fun target heq hne => ?_
        cases hpolicy : getAccessPolicy accounts (user ++ '@' :: target) with
        | none => rfl
        | some policy => exact absurd ⟨target, policy, heq, hne, hpolicy⟩ hreal

end IRedAPD

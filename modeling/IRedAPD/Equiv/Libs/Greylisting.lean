/-
  What the plugin makes of a setting the library has written.

  On a table with the catch-all setting alone, the new setting comes before it
  (`greylistingRecords_pair`) unless its sender is a network, whose type the
  table of priorities does not know; the plugin tries networks only for the
  priority of that table.  So a setting is honoured exactly when the sender is
  one of the texts it is compared with (`honours_iff`).
-/
import IRedAPD.Equiv.Addresses
import IRedAPD.Libs.Greylisting

namespace IRedAPD.LibGl

open Py Py.Regex Regxes Greylisting

variable [Unicode]

/-! ### Statements with plain texts -/

theorem execute_of_plain (engine : Engine) {i : Statement} (hi : statements.IsPlain i) {t t' : Tables}
    (ht : statements.effect i t = some t') : execute engine i t = (.ok (), t') := by
  unfold execute
  rw [engine.exec_of_plain hi ht]

/-- `greylisting` as a setting with plain texts that is not there yet leaves it. -/
theorem setGreylisting_of_plain (engine : Engine) (active : ℤ) {account sender : Str}
    (haccount : Sql.isPlain account = true) (hsender : Sql.isPlain sender = true) {t : Tables}
    (hnew : t.greylisting.find? (account, sender) = none) :
    (setGreylisting active engine account sender t).2.greylisting.rows.map Prod.snd =
      t.greylisting.rows.map Prod.snd ++ [getGlBaseSetting account sender active] := by
  have htexts : ∀ x ∈ [account, sender], Sql.isPlain x = true := by
    intro x hx
    simp only [List.mem_cons, List.not_mem_nil, or_false] at hx
    rcases hx with rfl | rfl
    · exact haccount
    · exact hsender
  have hdelete : deleteSetting engine account sender t = (.ok (), _) :=
    execute_of_plain engine (i := .deleteSetting account sender) htexts rfl
  unfold setGreylisting
  rw [hdelete]
  simp only
  -- there is nothing to delete
  set g := t.greylisting.delete fun r => r.2.account = account ∧ r.2.sender = sender with hg
  have hrows : g.rows = t.greylisting.rows := by
    rw [hg]
    refine List.filter_eq_self.mpr fun r hr => ?_
    have hkey := Sql.Table.find?_eq_none_iff.mp hnew r hr
    rw [Bool.not_eq_true', decide_eq_false_iff_not]
    exact fun heq => hkey (Prod.ext heq.1 heq.2)
  have hnone : g.find? (account, sender) = none := by
    refine Sql.Table.find?_eq_none_iff.mpr fun r hr => ?_
    rw [hrows] at hr
    exact Sql.Table.find?_eq_none_iff.mp hnew r hr
  obtain ⟨g', hg'⟩ := Sql.Table.exists_insert (r := getGlBaseSetting account sender active) hnone
  have hinsert : statements.effect (.insertSetting (getGlBaseSetting account sender active))
      { t with greylisting := g } = some { t with greylisting := g' } := by
    show (g.insert _).map _ = _
    rw [hg']
    rfl
  rw [execute_of_plain engine (i := .insertSetting (getGlBaseSetting account sender active)) htexts
    hinsert]
  show g'.rows.map Prod.snd = _
  rw [Sql.Table.rows_insert hg', hrows, List.map_append]
  rfl

theorem isDuplicate_duplicateKey : isDuplicate "duplicate key" = true := by
  unfold isDuplicate
  rw [lower_eq_self (by decide) (by decide)]
  decide

/-- A database that refuses statements with other texts. -/
def strictEngine : Engine :=
  Sql.Engine.withOther statements (fun _ => .error "syntax error".toList) "duplicate key"
    isDuplicate_duplicateKey

theorem setGreylisting_of_not_plain (active : ℤ) {account sender : Str}
    (h : ¬(Sql.isPlain account = true ∧ Sql.isPlain sender = true)) (t : Tables) :
    (setGreylisting active strictEngine account sender t).2 = t := by
  have htexts : ¬∀ x ∈ [account, sender], Sql.isPlain x = true := fun hall =>
    h ⟨hall account (by simp), hall sender (by simp)⟩
  have hfails : ∀ (i : Statement) (t : Tables), statements.texts i = [account, sender] →
      (execute strictEngine i t).2 = t := by
    intro i t hi
    have hplain : ¬statements.IsPlain i := by
      unfold Sql.Statements.IsPlain
      rw [hi]
      exact htexts
    have hexec : strictEngine.exec i t = .error "syntax error".toList := if_neg hplain
    unfold execute
    rw [hexec]
  unfold setGreylisting deleteSetting
  rw [hfails _ _ rfl, hfails _ _ rfl]

/-! ### Two settings -/

/-- The setting for everybody. -/
def catchall (active : ℤ) : Setting := getGlBaseSetting "@." "@." active

/-- A setting with a higher priority comes first. -/
theorem greylistingRecords_pair {active : ℤ} {r : Setting} {recipients : List Str}
    (hall : "@.".toList ∈ recipients) (hr : r.account ∈ recipients)
    (hpriority : 0 < r.priority ∨ (r.priority = 0 ∧ 0 < r.senderPriority)) :
    greylistingRecords [catchall active, r] recipients = [r, catchall active] := by
  have hfilter : ([catchall active, r].filter fun r => recipients.contains r.account) =
      [catchall active, r] := by
    refine List.filter_eq_self.mpr fun r' hr' => ?_
    simp only [List.mem_cons, List.not_mem_nil, or_false] at hr'
    rw [List.contains_iff_mem]
    rcases hr' with rfl | rfl
    · exact hall
    · exact hr
  have hlt : ¬(r.priority < (catchall active).priority ∨
      (r.priority = (catchall active).priority ∧
        r.senderPriority ≤ (catchall active).senderPriority)) := by
    show ¬(r.priority < 0 ∨ (r.priority = 0 ∧ r.senderPriority ≤ 0))
    omega
  unfold greylistingRecords
  rw [hfilter]
  simp only [List.insertionSort_cons, List.insertionSort_nil, List.orderedInsert_nil,
    List.orderedInsert_cons]
  rw [if_neg hlt]

/-- Settings that do not match leave the decision to the one for everybody. -/
theorem find?_catchall {active : ℤ} {rows : List Setting} {recipients senders : List Str}
    {clientAddress : Str} {ip : IpAddress} (hall : "@.".toList ∈ recipients)
    (hsenders : "@.".toList ∈ senders) (hmem : catchall active ∈ rows)
    (hothers : ∀ r ∈ rows, r = catchall active ∨ r.matchesSender senders clientAddress ip = false) :
    (greylistingRecords rows recipients).find? (·.matchesSender senders clientAddress ip) =
      some (catchall active) := by
  have hmatch : (catchall active).matchesSender senders clientAddress ip = true := by
    have hcontains : senders.contains "@.".toList = true := List.contains_iff_mem.mpr hsenders
    show (senders.contains "@.".toList || _) = true
    rw [hcontains, Bool.true_or]
  cases hfind : (greylistingRecords rows recipients).find?
      (·.matchesSender senders clientAddress ip) with
  | none =>
    have hno := List.find?_eq_none.mp hfind (catchall active) (by
      unfold greylistingRecords
      rw [List.mem_insertionSort, List.mem_filter]
      exact ⟨hmem, List.contains_iff_mem.mpr hall⟩)
    exact absurd hmatch hno
  | some r =>
    have hr := List.mem_of_find?_eq_some hfind
    unfold greylistingRecords at hr
    rw [List.mem_insertionSort, List.mem_filter] at hr
    rcases hothers r hr.1 with rfl | hnot
    · rfl
    · have hmatches : r.matchesSender senders clientAddress ip = true := by
        simpa using List.find?_some hfind
      rw [hnot] at hmatches
      cases hmatches

/-! ### What the new setting matches -/

/-- A pattern for clients is no network. -/
theorem not_slash_mem_of_wildcardIp {s : Str} (h : isValidAmavisdAddress s = some .wildcardIp) :
    '/' ∉ s := by
  have hat : startsWith s "@" = false := by
    rw [Bool.eq_false_iff]
    intro hat
    rcases type_of_startsWith_at hat h with rfl | rfl | h | h | h
    · cases h
    · cases h
    all_goals cases h
  rw [isValidAmavisdAddress_of_not_at hat] at h
  have hwildcard : isWildcardIpv4 s = true := by
    by_contra hno
    rw [if_neg hno] at h
    split_ifs at h <;> cases h
  obtain ⟨rest, hrest, htail⟩ := List.any_eq_true.mp hwildcard
  obtain ⟨w, hw, rfl⟩ := (mem_rests _ _ _).mp hrest
  have hfield : Only (· ≠ '/') (cls fun c => Unicode.isDecimal c || c == '*') := by
    rintro a ha rfl
    have hmem : (Unicode.isDecimal '/' || '/' == '*') = true := ha
    rw [Unicode.isDecimal_ascii '/' (by decide)] at hmem
    exact absurd hmem (by decide)
  have hrep : Only (· ≠ '/') (rep (cls fun c => Unicode.isDecimal c || c == '*') 1 3) :=
    ⟨hfield.pow 1, hfield.upTo 2⟩
  have hdot : Only (· ≠ '/') (char '.') := by
    rintro a ha rfl
    exact absurd ha (by decide)
  have honly : Only (· ≠ '/') regxWildcardIpv4 := ⟨hrep, hdot, hrep, hdot, hrep, hdot, hrep⟩
  intro hmem
  rcases List.mem_append.mp hmem with hmem | hmem
  · exact honly.forall_mem hw '/' hmem rfl
  · rw [Bool.or_eq_true, beq_iff_eq, beq_iff_eq] at htail
    rcases htail with rfl | rfl
    · cases hmem
    · exact absurd hmem (by decide)

/-- No type has the priority of a network but a pattern for clients. -/
theorem type_of_priority_cidr {s : Str} (h : some (getAccountPriority s) = accountPriorities.get? "cidr") :
    isValidAmavisdAddress s = some .wildcardIp := by
  unfold getAccountPriority at h
  cases ht : isValidAmavisdAddress s with
  | none =>
    rw [ht] at h
    exact absurd h (by decide)
  | some t =>
    rw [ht] at h
    cases t
    case wildcardIp => rfl
    all_goals exact absurd h (by decide)

/-- **A setting of the library is compared as a text only.** -/
theorem matchesSender_iff {account sender : Str} {active : ℤ} {senders : List Str}
    {clientAddress : Str} {ip : IpAddress} :
    (getGlBaseSetting account sender active).matchesSender senders clientAddress ip = true ↔
      sender ∈ senders := by
  unfold Setting.matchesSender
  rw [Bool.or_eq_true, List.contains_iff_mem]
  constructor
  · rintro (h | h)
    · exact h
    · simp only [Bool.and_eq_true, beq_iff_eq, List.contains_iff_mem] at h
      exact absurd h.1.1.2 (not_slash_mem_of_wildcardIp (type_of_priority_cidr h.1.1.1.1))
  · exact .inl

/-! ### Which requests honour a setting -/

/-- A request: what the plugin compares with the settings. -/
structure Client where
  /-- `recipient_without_ext` -/
  recipient : Str
  /-- the target of the recipient domain, if it is an alias -/
  target : Option Str
  /-- `sender_without_ext` -/
  sender : Str
  clientAddress : Str
  ip : IpAddress
  ip_eq : ipAddress clientAddress = some ip

/-- The account and the sender of a setting are those of the request; a sender that is an address or
a network of clients holds the client. -/
def Client.Covers (c : Client) (account sender : Str) : Prop :=
  account ∈ getPolicyAddressesFromEmail c.recipient ∧
    (sender ∈ getPolicyAddressesFromEmail c.sender ∨ ipAddress sender = some c.ip ∨
      ∃ net, ipNetwork sender = some net ∧ net.contains c.ip = true)

/-- `active` -/
def activeOf (on : Bool) : ℤ := if on then 1 else 0

/-- `enable_greylisting` or `disable_greylisting` -/
def switchGreylisting (on : Bool) : Engine → Str → Str → Tables → Except Str Unit × Tables :=
  if on then enableGreylisting else disableGreylisting

theorem switchGreylisting_eq (on : Bool) : switchGreylisting on = setGreylisting (activeOf on) := by
  cases on <;> rfl

/-- After the setting has been written beside the opposite one for everybody, it decides. -/
def Honours (env : Env) (on : Bool) (account sender : Str) (c : Client) : Prop :=
  ∀ (engine : Engine) (t : Tables),
    (t.greylisting.rows.map Prod.snd = [catchall (activeOf !on)]) →
    shouldBeGreylistedBySetting ((switchGreylisting on engine account sender t).2.env env)
      (policyRecipients c.recipient c.target) (policySenders c.sender c.clientAddress)
      c.clientAddress c.ip = .ok on

theorem catchall_mem_policyAddresses (mail : Str) :
    "@.".toList ∈ getPolicyAddressesFromEmail mail := by
  unfold getPolicyAddressesFromEmail
  split_ifs
  · exact List.mem_singleton_self _
  · exact List.mem_append_left _ (by simp)

/-- The texts a request is compared with that are no single characters. -/
theorem Client.Covers.mem_policySenders_iff {c : Client} {account sender : Str}
    (h : c.Covers account sender) : sender ∈ policySenders c.sender c.clientAddress ↔
      sender ∈ getPolicyAddressesFromEmail c.sender ∨ sender = c.clientAddress := by
  unfold policySenders
  rw [List.mem_append, List.mem_append, List.mem_singleton]
  constructor
  · rintro (hmem | hmem)
    · exact hmem
    · -- a single character covers nobody
      split_ifs at hmem
      · obtain ⟨a, -, rfl⟩ := List.mem_map.mp hmem
        rcases h.2 with hpolicy | hip | ⟨net, hnet, -⟩
        · exact .inl hpolicy
        · rw [ipAddress_singleton] at hip
          cases hip
        · rw [ipNetwork_singleton] at hnet
          cases hnet
      · cases hmem
  · exact .inl

/-- A policy address that is a valid sender has a type. -/
theorem isSome_type {x mail : Str} (hx : x ∈ getPolicyAddressesFromEmail mail)
    (hvalid : isValidSender x = true) : (isValidAmavisdAddress x).isSome := by
  rcases policyAddress_cases hx with ⟨rfl, hmail⟩ | ⟨hat, -⟩
  · rw [isValidAmavisdAddress_of_isEmail hmail]
    rfl
  · -- it is no address of a client
    obtain ⟨s, rfl⟩ : ∃ s, x = '@' :: s := by
      obtain ⟨s, hs⟩ := (startsWith_iff _ _).mp hat
      exact ⟨s, hs.symm⟩
    unfold isValidSender at hvalid
    rw [isIp_at, Bool.false_or] at hvalid
    cases htype : isValidAmavisdAddress ('@' :: s) with
    | none =>
      rw [htype] at hvalid
      cases hvalid
    | some t => rfl

omit [Unicode] in
/-- The first setting that matches decides. -/
theorem should_eq {env : Env} (henv : env.fails .selectGreylisting = false) {t : Tables}
    {rows : List Setting} (hrows : t.greylisting.rows.map Prod.snd = rows)
    {recipients senders : List Str} {clientAddress : Str} {ip : IpAddress} :
    shouldBeGreylistedBySetting (t.env env) recipients senders clientAddress ip =
      match (greylistingRecords rows recipients).find? (·.matchesSender senders clientAddress ip) with
      | some r => .ok (r.active == 1)
      | none => .ok false := by
  subst hrows
  unfold shouldBeGreylistedBySetting
  rw [show (t.env env).fails .selectGreylisting = false from henv, if_neg Bool.false_ne_true]
  rfl

/-- The table with the setting for everybody. -/
def catchallTables (active : ℤ) : Tables where
  greylisting := Sql.Table.empty.push (catchall active) (by intro r hr; cases hr)

omit [Unicode] in
theorem activeOf_eq (on : Bool) : (activeOf on == 1) = on := by cases on <;> rfl

/-- A setting that matches comes before the one for everybody. -/
theorem Client.Covers.priority_pos {c : Client} {account sender : Str} (h : c.Covers account sender)
    (haccount : (isValidAmavisdAddress account).isSome) (hsender : isValidSender sender = true)
    (hpair : (account, sender) ≠ ("@.".toList, "@.".toList))
    (hmem : sender ∈ policySenders c.sender c.clientAddress) :
    0 < getAccountPriority account ∨
      (getAccountPriority account = 0 ∧ 0 < getAccountPriority sender) := by
  by_cases haccountAll : account = "@.".toList
  · have hne : sender ≠ "@.".toList := fun h => hpair (by rw [haccountAll, h])
    refine .inr ⟨by rw [haccountAll]; rfl, ?_⟩
    rcases h.mem_policySenders_iff.mp hmem with hpolicy | rfl
    · exact getAccountPriority_pos hpolicy (isSome_type hpolicy hsender) hne
    · exact getAccountPriority_pos_of_ipAddress (by rw [c.ip_eq]; rfl)
  · exact .inl (getAccountPriority_pos h.1 haccount haccountAll)

section Decide

variable {env : Env} (henv : env.fails .selectGreylisting = false) (on : Bool) {account sender : Str}
  {c : Client}

/-- The setting for everybody is among those of any request. -/
theorem catchall_mem_policies (c : Client) : "@.".toList ∈ policyRecipients c.recipient c.target ∧
    "@.".toList ∈ policySenders c.sender c.clientAddress :=
  ⟨List.mem_append_left _ (catchall_mem_policyAddresses c.recipient),
    List.mem_append_left _ (List.mem_append_left _ (catchall_mem_policyAddresses c.sender))⟩

include henv

/-- What a setting that has been written decides beside the opposite one for everybody. -/
theorem should_of_plain (engine : Engine) {t : Tables}
    (ht : t.greylisting.rows.map Prod.snd = [catchall (activeOf !on)])
    (haccount : (isValidAmavisdAddress account).isSome) (hsender : isValidSender sender = true)
    (hpair : (account, sender) ≠ ("@.".toList, "@.".toList)) (hcovers : c.Covers account sender)
    (hplainAccount : Sql.isPlain account = true) (hplainSender : Sql.isPlain sender = true) :
    shouldBeGreylistedBySetting ((switchGreylisting on engine account sender t).2.env env)
        (policyRecipients c.recipient c.target) (policySenders c.sender c.clientAddress)
        c.clientAddress c.ip =
      .ok (if sender ∈ policySenders c.sender c.clientAddress then on else !on) := by
  obtain ⟨hall, hsenders⟩ := catchall_mem_policies c
  have hrecipient : account ∈ policyRecipients c.recipient c.target :=
    List.mem_append_left _ hcovers.1
  have hnew : t.greylisting.find? (account, sender) = none := by
    refine Sql.Table.find?_eq_none_iff.mpr fun r hr hkey => hpair ?_
    have hmem : r.2 ∈ [catchall (activeOf !on)] := ht ▸ List.mem_map_of_mem hr
    rw [List.mem_singleton] at hmem
    rw [← hkey, hmem]
    rfl
  have hrows := setGreylisting_of_plain engine (activeOf on) hplainAccount hplainSender hnew
  rw [ht, List.singleton_append] at hrows
  rw [switchGreylisting_eq, should_eq henv hrows]
  by_cases hmem : sender ∈ policySenders c.sender c.clientAddress
  · -- the setting comes first
    have hpriority := hcovers.priority_pos haccount hsender hpair hmem
    have hmatch := (@matchesSender_iff _ account sender (activeOf on) _ c.clientAddress c.ip).mpr hmem
    rw [if_pos hmem, greylistingRecords_pair hall hrecipient hpriority]
    simp only [List.find?_cons, hmatch]
    exact congrArg Except.ok (activeOf_eq on)
  · have hmatch : (getGlBaseSetting account sender (activeOf on)).matchesSender
        (policySenders c.sender c.clientAddress) c.clientAddress c.ip = false := by
      rw [Bool.eq_false_iff, ne_eq, matchesSender_iff]
      exact hmem
    have hothers : ∀ r ∈ [catchall (activeOf !on), getGlBaseSetting account sender (activeOf on)],
        r = catchall (activeOf !on) ∨ r.matchesSender
          (policySenders c.sender c.clientAddress) c.clientAddress c.ip = false := by
      intro r hr
      simp only [List.mem_cons, List.not_mem_nil, or_false] at hr
      rcases hr with rfl | rfl
      · exact .inl rfl
      · exact .inr hmatch
    rw [if_neg hmem, find?_catchall hall hsenders (List.mem_cons_self ..) hothers]
    exact congrArg Except.ok (activeOf_eq !on)

/-- A setting that is refused leaves the opposite one alone. -/
theorem should_of_not_plain (c : Client)
    (hplain : ¬(Sql.isPlain account = true ∧ Sql.isPlain sender = true)) :
    shouldBeGreylistedBySetting
        ((switchGreylisting on strictEngine account sender (catchallTables (activeOf !on))).2.env env)
        (policyRecipients c.recipient c.target) (policySenders c.sender c.clientAddress)
        c.clientAddress c.ip = .ok !on := by
  obtain ⟨hall, hsenders⟩ := catchall_mem_policies c
  have hothers : ∀ r ∈ [catchall (activeOf !on)], r = catchall (activeOf !on) ∨
      r.matchesSender (policySenders c.sender c.clientAddress) c.clientAddress c.ip = false :=
    fun r hr => .inl (List.mem_singleton.mp hr)
  rw [switchGreylisting_eq, setGreylisting_of_not_plain _ hplain,
    @should_eq env henv (catchallTables (activeOf !on)) [catchall (activeOf !on)] rfl,
    find?_catchall hall hsenders (List.mem_singleton_self _) hothers]
  exact congrArg Except.ok (activeOf_eq !on)

end Decide

/-- **A setting of the library is honoured exactly by the requests that have its sender as a text**,
provided that its texts stand for themselves in a statement. -/
theorem honours_iff {env : Env} (henv : env.fails .selectGreylisting = false) (on : Bool)
    {account sender : Str} (haccount : (isValidAmavisdAddress account).isSome)
    (hsender : isValidSender sender = true)
    (hpair : (account, sender) ≠ ("@.".toList, "@.".toList)) {c : Client}
    (hcovers : c.Covers account sender) :
    Honours env on account sender c ↔
      (Sql.isPlain account = true ∧ Sql.isPlain sender = true) ∧
        (sender ∈ getPolicyAddressesFromEmail c.sender ∨ sender = c.clientAddress) := by
  have hnot : (!on) ≠ on := by cases on <;> decide
  rw [← hcovers.mem_policySenders_iff]
  constructor
  · intro h
    have hstrict := h strictEngine (catchallTables (activeOf !on)) rfl
    have hplain : Sql.isPlain account = true ∧ Sql.isPlain sender = true := by
      by_contra hplain
      rw [should_of_not_plain henv on c hplain] at hstrict
      exact hnot (Except.ok.inj hstrict)
    refine ⟨hplain, ?_⟩
    by_contra hmem
    rw [should_of_plain henv on _ rfl haccount hsender hpair hcovers hplain.1 hplain.2, if_neg hmem]
      at hstrict
    exact hnot (Except.ok.inj hstrict)
  · rintro ⟨⟨hplainAccount, hplainSender⟩, hmem⟩ engine t ht
    rw [should_of_plain henv on engine ht haccount hsender hpair hcovers hplainAccount hplainSender,
      if_pos hmem]

/-- A database that answers. -/
def answering : Env where
  now := 0
  whitelistDomainSpf := []
  whitelists := []
  greylisting := []
  getAliasTargetDomain _ := .ok none
  isAllowedServerInSpf _ _ := .ok false
  fails _ := false

/-- A message from a@a.com to b@b.com, sent by 1.2.3.4 -/
def clientOf1234 : Client where
  recipient := "b@b.com"
  target := none
  sender := "a@a.com"
  clientAddress := "1.2.3.4"
  ip := ⟨.v4, 0x01020304⟩
  ip_eq := by decide

omit [Unicode] in
/-- A domain of senders. -/
theorem honours_domain :
    letI := asciiUnicode
    Honours answering true "@b.com" "@a.com" clientOf1234 ↔
      (Sql.isPlain "@b.com".toList = true ∧ Sql.isPlain "@a.com".toList = true) ∧
        ("@a.com".toList ∈ getPolicyAddressesFromEmail clientOf1234.sender ∨
          "@a.com".toList = clientOf1234.clientAddress) := by
  let := asciiUnicode
  exact @honours_iff asciiUnicode answering rfl true _ _ (by decide) (by decide) (by decide)
    clientOf1234 ⟨by decide, .inl (by decide)⟩

omit [Unicode] in
/-- The network of a client. -/
theorem network_not_honoured :
    letI := asciiUnicode
    (isValidAmavisdAddress "@.".toList).isSome ∧ isValidSender "1.2.3.0/24" = true ∧
      clientOf1234.Covers "@." "1.2.3.0/24" ∧ ¬Honours answering true "@." "1.2.3.0/24" clientOf1234 := by
  let := asciiUnicode
  have hnet : ipNetwork "1.2.3.0/24".toList = some ⟨.v4, 0x01020300, 24⟩ := by decide
  refine ⟨by decide, by decide, ⟨by decide, .inr (.inr ⟨_, hnet, by decide⟩)⟩, fun h => ?_⟩
  have hfalse := h strictEngine (catchallTables 0) rfl
  revert hfalse
  decide

end IRedAPD.LibGl

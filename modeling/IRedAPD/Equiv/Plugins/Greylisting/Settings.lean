/-
  The setting that decides for a request, as `restriction` looks it up.

  The rows of the recipient are tried in order.  `restriction` adds the characters
  of `a.b.c.*` to the texts a row is compared with, where the text itself was
  meant, and a network is compared only when it starts with the first octet of the
  client.  So a row that covers the client may be overlooked, and one that does not
  may be mistaken for one that does (`matchesSender_iff_covers`).
-/
import IRedAPD.Equiv.AddressFormats
import IRedAPD.Equiv.Plugins.Greylisting.Whitelists
import IRedAPD.Framing

namespace IRedAPD.Greylisting

open Py

/-! ### The first row that decides -/

/-- What the first row with a property decides. -/
def decidedBy (p : Setting → Bool) (rows : List Setting) : Bool :=
  match rows.find? p with
  | some r => r.active == 1
  | none => false

@[simp] theorem decidedBy_cons_of_pos {p : Setting → Bool} {r : Setting} (h : p r = true)
    (rows : List Setting) : decidedBy p (r :: rows) = (r.active == 1) := by
  unfold decidedBy
  rw [List.find?_cons_of_pos h]

@[simp] theorem decidedBy_cons_of_neg {p : Setting → Bool} {r : Setting} (h : p r = false)
    (rows : List Setting) : decidedBy p (r :: rows) = decidedBy p rows := by
  unfold decidedBy
  rw [List.find?_cons_of_neg (by simp [h])]

/-- A row decides as if it had not been there: it is the first one that one of two properties has, and
what it says is what the other property makes of the rows after it. -/
def Harmless (p q : Setting → Bool) (rows : List Setting) : Prop :=
  ∀ before r after, rows = before ++ r :: after → (∀ r' ∈ before, p r' = false ∧ q r' = false) →
    (p r = true → q r = false → (r.active == 1) = decidedBy q after) ∧
    (q r = true → p r = false → (r.active == 1) = decidedBy p after)

/-- **Two properties decide alike** exactly when the first row on which they differ, if none before it
has both, decides as the rows after it. -/
theorem decidedBy_eq_iff (p q : Setting → Bool) (rows : List Setting) :
    decidedBy p rows = decidedBy q rows ↔ Harmless p q rows := by
  induction rows with
  | nil =>
    constructor
    · rintro - before r after heq
      exact absurd heq.symm (by simp)
    · exact fun _ => rfl
  | cons r rows ih =>
    have hhead : Harmless p q (r :: rows) ↔
        ((p r = true → q r = false → (r.active == 1) = decidedBy q rows) ∧
          (q r = true → p r = false → (r.active == 1) = decidedBy p rows)) ∧
        (p r = false → q r = false → Harmless p q rows) := by
      constructor
      · intro h
        refine ⟨h [] r rows rfl (by simp), fun hp hq before r' after heq hbefore => ?_⟩
        refine h (r :: before) r' after (by rw [heq]; rfl) fun r'' hr'' => ?_
        rcases List.mem_cons.mp hr'' with rfl | hr''
        · exact ⟨hp, hq⟩
        · exact hbefore r'' hr''
      · rintro ⟨hfirst, hrest⟩ before r' after heq hbefore
        cases before with
        | nil =>
          obtain ⟨rfl, rfl⟩ := List.cons.inj heq
          exact hfirst
        | cons r'' before =>
          obtain ⟨rfl, hrows⟩ := List.cons.inj heq
          obtain ⟨hp, hq⟩ := hbefore r (List.mem_cons_self ..)
          exact hrest hp hq before r' after hrows fun x hx => hbefore x (List.mem_cons_of_mem _ hx)
    rw [hhead]
    cases hp : p r with
    | true =>
      cases hq : q r with
      | true => simp [hp, hq]
      | false => simp [hp, hq]
    | false =>
      cases hq : q r with
      | true => simp [hp, hq, eq_comm]
      | false => simp [hp, hq, ih]

/-! ### Rows that cover a client -/

section Rows

variable [Unicode]

/-- `a.b.c.*` -/
def wildcardAddress (clientAddress : Str) : Str := rsplitFirst '.' clientAddress ++ ".*".toList

/-- The sender of the row is a policy address of the sender, the client, its wildcard address or a
network that contains it. -/
def covers (sender clientAddress : Str) (ip : IpAddress) (r : Setting) : Bool :=
  (getPolicyAddressesFromEmail sender).contains r.sender || r.sender == clientAddress ||
    r.sender == wildcardAddress clientAddress || inNetwork ip r.sender

/-- The sender of the row is the wildcard address of the client, or a network that contains it and
has another first octet. -/
def Overlooked (clientAddress : Str) (ip : IpAddress) (r : Setting) : Prop :=
  r.sender = wildcardAddress clientAddress ∨
    ∃ net, ipNetwork r.sender = some net ∧ net.contains ip = true ∧
      net.networkAddress / 2 ^ 24 ≠ ip.ip / 2 ^ 24

/-- The sender of the row is one character of the wildcard address. -/
def Mistaken (clientAddress : Str) (r : Setting) : Prop :=
  ∃ c ∈ wildcardAddress clientAddress, r.sender = [c]

/-- A network has the priority of one. -/
def HasPriority (r : Setting) : Prop :=
  ∀ net, ipNetwork r.sender = some net → net.version = .v4 → '/' ∈ r.sender →
    some r.senderPriority = accountPriorities.get? "cidr"

/-! ### Texts -/

theorem at_mem_of_policyAddress {s mail : Str} (h : s ∈ getPolicyAddressesFromEmail mail) : '@' ∈ s := by
  rcases policyAddress_cases h with ⟨rfl, hmail⟩ | ⟨hat, -⟩
  · exact at_mem_of_isEmail hmail
  · obtain ⟨rest, rfl⟩ := (startsWith_iff _ _).mp hat
    exact List.mem_cons_self ..

omit [Unicode] in
theorem mem_of_mem_rsplitFirst {sep c : Char} {s : Str} (h : c ∈ rsplitFirst sep s) : c ∈ s := by
  unfold rsplitFirst at h
  split_ifs at h with hsep
  · rcases mem_join h with hc | ⟨part, hpart, hc⟩
    · rwa [List.mem_singleton.mp hc]
    · exact Framing.mem_of_mem_splitOn (List.mem_of_mem_dropLast hpart) hc
  · exact h

/-! ### IPv4 clients -/

section Client

variable {sender clientAddress s : Str} {ip : IpAddress} {r : Setting}
  (hip : ipAddress clientAddress = some ip) (hv4 : ip.version = .v4)

include hip hv4

omit [Unicode] in
theorem ipv4FromString_client : ipv4FromString clientAddress = some ip.ip := by
  obtain ⟨v, n⟩ := ip
  obtain rfl : v = .v4 := hv4
  exact ipv4FromString_of_ipAddress hip

omit [Unicode] in
theorem notMem_client {c : Char} (hc : isAddressChar c = false) : c ∉ clientAddress := by
  intro hmem
  rw [isAddressChar_of_ipv4 (ipv4FromString_client hip hv4) c hmem] at hc
  cases hc

omit [Unicode] in
theorem notMem_wildcardAddress {c : Char} (hc : isAddressChar c = false) (hstar : c ≠ '*') :
    c ∉ wildcardAddress clientAddress := by
  intro hmem
  rcases List.mem_append.mp hmem with hmem | hmem
  · exact notMem_client hip hv4 hc (mem_of_mem_rsplitFirst hmem)
  · rcases List.mem_cons.mp hmem with rfl | hmem
    · exact absurd hc (by decide)
    · exact hstar (List.mem_singleton.mp hmem)

omit [Unicode] in
/-- A network that contains the client is the client, or has a mask. -/
theorem network_cases {net : IpNetwork} (hnet : ipNetwork s = some net)
    (hcontains : net.contains ip = true) :
    (s = clientAddress ∧ net.networkAddress = ip.ip) ∨ (net.version = .v4 ∧ '/' ∈ s ∧ '@' ∉ s ∧
      (startsWith s (splitFirst "." clientAddress ++ ".".toList) = true ↔
        net.networkAddress / 2 ^ 24 = ip.ip / 2 ^ 24)) := by
  have hclient := ipv4FromString_client hip hv4
  have hversion : net.version = .v4 := (of_decide_eq_true hcontains).1.symm.trans hv4
  by_cases hslash : '/' ∈ s
  · obtain ⟨t, mask, rfl, hmask, ht⟩ := exists_mask hslash hnet
    rw [hversion] at ht
    have ht4 := ipv4FromString_of_ipAddress ht
    refine .inr ⟨hversion, hslash, ?_, startsWith_firstOctet_iff hclient ht4 ('/' :: mask)⟩
    intro hat
    rcases List.mem_append.mp hat with hat | hat
    · exact absurd (isAddressChar_of_ipv4 ht4 '@' hat) (by decide)
    · rcases List.mem_cons.mp hat with hat | hat
      · exact absurd hat (by decide)
      · exact absurd (hmask '@' hat) (by decide)
  · left
    obtain ⟨hs, haddress⟩ := eq_of_contains hslash hnet hcontains
    exact ⟨ipv4FromString_inj (ipv4FromString_client hs hv4) hclient, haddress⟩

theorem mem_policySenders_iff : s ∈ policySenders sender clientAddress ↔
    s ∈ getPolicyAddressesFromEmail sender ∨ s = clientAddress ∨
      ∃ c ∈ wildcardAddress clientAddress, s = [c] := by
  have hv4client : isIpv4 clientAddress = true := by
    obtain ⟨v, n⟩ := ip
    obtain rfl : v = .v4 := hv4
    exact isIpv4_of_ipAddress hip
  unfold policySenders
  rw [if_pos hv4client, List.mem_append, List.mem_append, List.mem_singleton, List.mem_map, or_assoc]
  simp only [eq_comm]
  rfl

omit hip hv4 in
theorem covers_iff : covers sender clientAddress ip r = true ↔
    r.sender ∈ getPolicyAddressesFromEmail sender ∨ r.sender = clientAddress ∨
      r.sender = wildcardAddress clientAddress ∨
      ∃ net, ipNetwork r.sender = some net ∧ net.contains ip = true := by
  unfold covers
  simp only [Bool.or_eq_true, List.contains_iff_mem, beq_iff_eq, inNetwork_iff, or_assoc]

/-- The rows that are compared with the client. -/
theorem matchesSender_iff (hpriority : HasPriority r) :
    r.matchesSender (policySenders sender clientAddress) clientAddress ip = true ↔
      r.sender ∈ getPolicyAddressesFromEmail sender ∨ r.sender = clientAddress ∨
        Mistaken clientAddress r ∨
        ∃ net, ipNetwork r.sender = some net ∧ net.contains ip = true ∧
          net.networkAddress / 2 ^ 24 = ip.ip / 2 ^ 24 := by
  unfold Setting.matchesSender
  rw [Bool.or_eq_true, List.contains_iff_mem, mem_policySenders_iff hip hv4, or_assoc, or_assoc]
  refine or_congr_right (or_congr_right' fun hclient => or_congr_right ?_)
  simp only [Bool.and_eq_true, beq_iff_eq, List.contains_iff_mem, inNetwork_iff]
  constructor
  · rintro ⟨⟨-, hstarts⟩, net, hnet, hcontains⟩
    rcases network_cases hip hv4 hnet hcontains with ⟨heq, -⟩ | ⟨-, -, -, hfirst⟩
    · exact absurd heq hclient
    · exact ⟨net, hnet, hcontains, hfirst.mp hstarts⟩
  · rintro ⟨net, hnet, hcontains, hoctet⟩
    rcases network_cases hip hv4 hnet hcontains with ⟨heq, -⟩ | ⟨hversion, hslash, -, hfirst⟩
    · exact absurd heq hclient
    · exact ⟨⟨⟨⟨hpriority net hnet hversion hslash, hv4⟩, hslash⟩, hfirst.mpr hoctet⟩, net, hnet, hcontains⟩

omit [Unicode] hip hv4 in
theorem star_mem_wildcardAddress : '*' ∈ wildcardAddress clientAddress :=
  List.mem_append_right _ (by decide)

omit [Unicode] hip hv4 in
theorem wildcardAddress_ne_singleton (c : Char) : wildcardAddress clientAddress ≠ [c] := by
  intro h
  have hlength := congrArg List.length h
  simp [wildcardAddress] at hlength

/-- **A row covers the client and is not compared** exactly when it is overlooked. -/
theorem overlooked_iff (hpriority : HasPriority r) : Overlooked clientAddress ip r ↔
    covers sender clientAddress ip r = true ∧
      r.matchesSender (policySenders sender clientAddress) clientAddress ip = false := by
  rw [Bool.eq_false_iff, ne_eq, matchesSender_iff hip hv4 hpriority, covers_iff]
  constructor
  · rintro (hwildcard | ⟨net, hnet, hcontains, hoctet⟩)
    · refine ⟨.inr (.inr (.inl hwildcard)), ?_⟩
      rw [hwildcard]
      rintro (hpolicy | hclient | ⟨c, -, hsingle⟩ | ⟨net, hnet, hcontains, -⟩)
      · exact notMem_wildcardAddress hip hv4 (by decide) (by decide) (at_mem_of_policyAddress hpolicy)
      · exact notMem_client hip hv4 (c := '*') (by decide) (hclient ▸ star_mem_wildcardAddress)
      · exact wildcardAddress_ne_singleton c (hwildcard ▸ hsingle)
      · rcases network_cases hip hv4 hnet hcontains with ⟨heq, -⟩ | ⟨-, hslash, -⟩
        · exact notMem_client hip hv4 (c := '*') (by decide) (heq ▸ star_mem_wildcardAddress)
        · exact notMem_wildcardAddress hip hv4 (by decide) (by decide) hslash
    · refine ⟨.inr (.inr (.inr ⟨net, hnet, hcontains⟩)), ?_⟩
      rcases network_cases hip hv4 hnet hcontains with ⟨-, heq⟩ | ⟨-, hslash, hat, -⟩
      · exact absurd (by rw [heq]) hoctet
      rintro (hpolicy | hclient | ⟨c, -, hsingle⟩ | ⟨net', hnet', -, hoctet'⟩)
      · exact hat (at_mem_of_policyAddress hpolicy)
      · exact notMem_client hip hv4 (by decide) (hclient ▸ hslash)
      · rw [hsingle, ipNetwork_singleton] at hnet
        cases hnet
      · rw [hnet] at hnet'
        obtain rfl := Option.some.inj hnet'
        exact hoctet hoctet'
  · rintro ⟨hpolicy | hclient | hwildcard | ⟨net, hnet, hcontains⟩, hnot⟩
    · exact absurd (.inl hpolicy) hnot
    · exact absurd (.inr (.inl hclient)) hnot
    · exact .inl hwildcard
    · refine .inr ⟨net, hnet, hcontains, fun hoctet => hnot ?_⟩
      exact .inr (.inr (.inr ⟨net, hnet, hcontains, hoctet⟩))

/-- **A row is compared and does not cover the client** exactly when it is mistaken. -/
theorem mistaken_iff (hpriority : HasPriority r) : Mistaken clientAddress r ↔
    r.matchesSender (policySenders sender clientAddress) clientAddress ip = true ∧
      covers sender clientAddress ip r = false := by
  rw [Bool.eq_false_iff, ne_eq, matchesSender_iff hip hv4 hpriority, covers_iff]
  constructor
  · rintro ⟨c, hc, hsingle⟩
    refine ⟨.inr (.inr (.inl ⟨c, hc, hsingle⟩)), ?_⟩
    rw [hsingle]
    rintro (hpolicy | hclient | hwildcard | ⟨net, hnet, -⟩)
    · rw [← List.mem_singleton.mp (at_mem_of_policyAddress hpolicy)] at hc
      exact notMem_wildcardAddress hip hv4 (by decide) (by decide) hc
    · rw [← hclient, ipAddress_singleton] at hip
      cases hip
    · exact wildcardAddress_ne_singleton c hwildcard.symm
    · rw [ipNetwork_singleton] at hnet
      cases hnet
  · rintro ⟨hpolicy | hclient | hmistaken | ⟨net, hnet, hcontains, -⟩, hnot⟩
    · exact absurd (.inl hpolicy) hnot
    · exact absurd (.inr (.inl hclient)) hnot
    · exact hmistaken
    · exact absurd (.inr (.inr (.inr ⟨net, hnet, hcontains⟩))) hnot

end Client

/-! ### The decision -/

/-- A row that is overlooked or mistaken, with no row before it that covers the client or is mistaken,
decides as the rows after it. -/
def DecidesAsRest (sender clientAddress : Str) (ip : IpAddress) (rows : List Setting) : Prop :=
  ∀ before r after, rows = before ++ r :: after →
    (∀ r' ∈ before, covers sender clientAddress ip r' = false ∧ ¬Mistaken clientAddress r') →
    (Mistaken clientAddress r → (r.active == 1) = decidedBy (covers sender clientAddress ip) after) ∧
    (Overlooked clientAddress ip r → (r.active == 1) =
      decidedBy (·.matchesSender (policySenders sender clientAddress) clientAddress ip) after)

theorem harmless_iff {sender clientAddress : Str} {ip : IpAddress}
    (hip : ipAddress clientAddress = some ip) (hv4 : ip.version = .v4) {rows : List Setting}
    (hpriority : ∀ r ∈ rows, HasPriority r) :
    Harmless (·.matchesSender (policySenders sender clientAddress) clientAddress ip)
        (covers sender clientAddress ip) rows ↔ DecidesAsRest sender clientAddress ip rows := by
  have hneither : ∀ r ∈ rows,
      (r.matchesSender (policySenders sender clientAddress) clientAddress ip = false ∧
        covers sender clientAddress ip r = false) ↔
      (covers sender clientAddress ip r = false ∧ ¬Mistaken clientAddress r) := by
    intro r hr
    have hmistaken : Mistaken clientAddress r ↔
        r.matchesSender (policySenders sender clientAddress) clientAddress ip = true ∧
          covers sender clientAddress ip r = false := mistaken_iff hip hv4 (hpriority r hr)
    rw [hmistaken, not_and, Bool.not_eq_false, and_comm]
    apply and_congr_right
    intro hcovers
    rw [hcovers, ← Bool.not_eq_true]
    simp
  constructor
  · intro h before r after heq hbefore
    have hr : r ∈ rows := by simp [heq]
    have hmem : ∀ r' ∈ before, r' ∈ rows := fun r' hr' => by simp [heq, hr']
    obtain ⟨hmatches, hcovers⟩ := h before r after heq fun r' hr' =>
      (hneither r' (hmem r' hr')).mpr (hbefore r' hr')
    constructor
    · intro hmistaken
      obtain ⟨hyes, hno⟩ := (mistaken_iff hip hv4 (hpriority r hr)).mp hmistaken
      exact hmatches hyes hno
    · intro hoverlooked
      obtain ⟨hyes, hno⟩ := (overlooked_iff hip hv4 (hpriority r hr)).mp hoverlooked
      exact hcovers hyes hno
  · intro h before r after heq hbefore
    have hr : r ∈ rows := by simp [heq]
    have hmem : ∀ r' ∈ before, r' ∈ rows := fun r' hr' => by simp [heq, hr']
    obtain ⟨hmistaken, hoverlooked⟩ := h before r after heq fun r' hr' =>
      (hneither r' (hmem r' hr')).mp (hbefore r' hr')
    constructor
    · exact fun hyes hno => hmistaken ((mistaken_iff hip hv4 (hpriority r hr)).mpr ⟨hyes, hno⟩)
    · exact fun hyes hno => hoverlooked ((overlooked_iff hip hv4 (hpriority r hr)).mpr ⟨hyes, hno⟩)

/-- The order of the query. -/
def Setting.Before (a b : Setting) : Prop :=
  b.priority < a.priority ∨ (b.priority = a.priority ∧ b.senderPriority ≤ a.senderPriority)

omit [Unicode] in
theorem pairwise_greylistingRecords (rows : List Setting) (recipients : List Str) :
    (greylistingRecords rows recipients).Pairwise Setting.Before := by
  have htotal : Std.Total fun a b : Setting =>
      b.priority < a.priority ∨ (b.priority = a.priority ∧ b.senderPriority ≤ a.senderPriority) :=
    ⟨fun a b => by omega⟩
  have htrans : IsTrans Setting fun a b =>
      b.priority < a.priority ∨ (b.priority = a.priority ∧ b.senderPriority ≤ a.senderPriority) :=
    ⟨fun a b c hab hbc => by omega⟩
  unfold greylistingRecords Setting.Before
  exact List.pairwise_insertionSort _ _

/-- **The first row that covers the client decides**, of the rows the query answers with, exactly when
a row that is overlooked or mistaken before it, if there is one, decides as the rows after it. -/
theorem setting_decides_iff {env : Env} {recipient sender clientAddress : Str} {target : Option Str}
    {ip : IpAddress} (hip : ipAddress clientAddress = some ip) (hv4 : ip.version = .v4)
    (hpriority : ∀ r ∈ env.greylisting, HasPriority r) :
    let records := greylistingRecords env.greylisting (policyRecipients recipient target)
    records.Perm (env.greylisting.filter fun r => (policyRecipients recipient target).contains r.account) ∧
    records.Pairwise Setting.Before ∧
    (env.fails .selectGreylisting = false →
      ∃ b, shouldBeGreylistedBySetting env (policyRecipients recipient target)
        (policySenders sender clientAddress) clientAddress ip = .ok b) ∧
    ∀ b, shouldBeGreylistedBySetting env (policyRecipients recipient target)
        (policySenders sender clientAddress) clientAddress ip = .ok b →
      (b = decidedBy (covers sender clientAddress ip) records ↔
        DecidesAsRest sender clientAddress ip records) := by
  intro records
  have hperm : records.Perm
      (env.greylisting.filter fun r => (policyRecipients recipient target).contains r.account) :=
    List.perm_insertionSort _ _
  have hdecided : env.fails .selectGreylisting = false →
      shouldBeGreylistedBySetting env (policyRecipients recipient target)
        (policySenders sender clientAddress) clientAddress ip =
      .ok (decidedBy (·.matchesSender (policySenders sender clientAddress) clientAddress ip) records) := by
    intro hanswers
    unfold shouldBeGreylistedBySetting decidedBy
    rw [hanswers, if_neg Bool.false_ne_true]
    cases records.find? _ with
    | none => rfl
    | some r => rfl
  refine ⟨hperm, pairwise_greylistingRecords _ _, fun hanswers => ⟨_, hdecided hanswers⟩,
    fun b hb => ?_⟩
  have hanswers : env.fails .selectGreylisting = false := by
    by_contra hfails
    unfold shouldBeGreylistedBySetting at hb
    rw [if_pos (by simpa using hfails)] at hb
    cases hb
  rw [hdecided hanswers] at hb
  rw [← Except.ok.inj hb, decidedBy_eq_iff, harmless_iff hip hv4]
  intro r hr
  exact hpriority r (List.mem_of_mem_filter (hperm.mem_iff.mp hr))

/-- A table with one setting for everybody. -/
def withSetting (r : Setting) : Env where
  now := 0
  whitelistDomainSpf := []
  whitelists := []
  greylisting := [r]
  getAliasTargetDomain _ := .ok none
  isAllowedServerInSpf _ _ := .ok false
  fails _ := false

/-- A setting for the clients `1.2.3.*` -/
def wildcardSetting : Setting where
  account := "@."
  priority := 0
  sender := "1.2.3.*"
  senderPriority := 70
  active := 1

/-- A setting for the clients in `1.2.0.0/16` -/
def networkSetting : Setting where
  account := "@."
  priority := 0
  sender := "1.2.0.0/16"
  senderPriority := 70
  active := 1

omit [Unicode] in
theorem setting_decides_network :
    letI := asciiUnicode
    let env := withSetting networkSetting
    let recipients := policyRecipients "b@b.com" none
    let senders := policySenders "a@a.com" "1.2.3.4"
    let records := greylistingRecords env.greylisting recipients
    ipAddress "1.2.3.4".toList = some ⟨.v4, 0x01020304⟩ ∧ (∀ r ∈ env.greylisting, HasPriority r) ∧
      records.Perm (env.greylisting.filter fun r => recipients.contains r.account) ∧
      records.Pairwise Setting.Before ∧
      (env.fails .selectGreylisting = false →
        ∃ b, shouldBeGreylistedBySetting env recipients senders "1.2.3.4" ⟨.v4, 0x01020304⟩ = .ok b) ∧
      ∀ b, shouldBeGreylistedBySetting env recipients senders "1.2.3.4" ⟨.v4, 0x01020304⟩ = .ok b →
        (b = decidedBy (covers "a@a.com" "1.2.3.4" ⟨.v4, 0x01020304⟩) records ↔
          DecidesAsRest "a@a.com" "1.2.3.4" ⟨.v4, 0x01020304⟩ records) := by
  let := asciiUnicode
  have hip : ipAddress "1.2.3.4".toList = some ⟨.v4, 0x01020304⟩ := by decide
  have hpriority : ∀ r ∈ (withSetting networkSetting).greylisting, HasPriority r := by
    intro r hr
    obtain rfl := List.mem_singleton.mp hr
    intro net hnet hversion hslash
    decide
  exact ⟨hip, hpriority, @setting_decides_iff asciiUnicode (withSetting networkSetting) "b@b.com" "a@a.com"
    "1.2.3.4" none _ hip rfl hpriority⟩

omit [Unicode] in
/-- A setting for the wildcard address of the client is overlooked. -/
theorem wildcard_setting_ignored :
    letI := asciiUnicode
    let env := withSetting wildcardSetting
    ipAddress "1.2.3.4".toList = some ⟨.v4, 0x01020304⟩ ∧
      wildcardSetting.senderPriority = getAccountPriority wildcardSetting.sender ∧
      shouldBeGreylistedBySetting env (policyRecipients "b@b.com" none)
        (policySenders "a@a.com" "1.2.3.4") "1.2.3.4" ⟨.v4, 0x01020304⟩ = .ok false ∧
      decidedBy (covers "a@a.com" "1.2.3.4" ⟨.v4, 0x01020304⟩)
        (greylistingRecords env.greylisting (policyRecipients "b@b.com" none)) = true := by
  let := asciiUnicode
  exact ⟨by decide, by decide, by decide, by decide⟩

end Rows

end IRedAPD.Greylisting

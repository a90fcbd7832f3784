/-
  `_is_whitelisted` against membership in the two tables of whitelists.

  What is answered is whether some row is the text of the client or of a sender,
  or a network that contains the client and starts like it
  (`isWhitelisted_eq_true_iff`).  For an IPv4 client that is a network with the
  first octet of the client; for an IPv6 client it also has to be written with
  `::` before the mask.
-/
import IRedAPD.Equiv.Plugins.Greylisting.Step
import IRedAPD.Py.IpText

namespace IRedAPD.Greylisting

open Py

variable [Unicode]

/-! ### Membership -/

/-- A row of the recipients, in either table, has a sender with the property in lower case. -/
def ListsSender (env : Env) (recipients : List Str) (p : Str → Prop) : Prop :=
  ∃ r ∈ env.whitelistDomainSpf ++ env.whitelists, r.account ∈ recipients ∧ p (Unicode.lower r.sender)

/-- The text is the client, a sender, or a network that contains the client. -/
def Whitelists (senders : List Str) (clientAddress : Str) (ip : IpAddress) (s : Str) : Prop :=
  s = clientAddress ∨ s ∈ senders ∨ ∃ net, ipNetwork s = some net ∧ net.contains ip = true

/-- The text of a network starts like the client; for an IPv6 client it has `::` before the mask. -/
def StartsLike (clientAddress : Str) (ip : IpAddress) (s : Str) (net : IpNetwork) : Prop :=
  (ip.version = .v4 → net.networkAddress / 2 ^ 24 = ip.ip / 2 ^ 24) ∧
    (ip.version = .v6 → startsWith s (splitFirst ":" clientAddress ++ ":".toList) = true ∧
      ":/".toList <:+: s)

/-- The text is the client, a sender, or a network that starts like the client it contains. -/
def Found (senders : List Str) (clientAddress : Str) (ip : IpAddress) (s : Str) : Prop :=
  s = clientAddress ∨ s ∈ senders ∨
    ∃ net, ipNetwork s = some net ∧ net.contains ip = true ∧ StartsLike clientAddress ip s net

/-- The text is a network that does not start like the client it contains. -/
def PassedOver (senders : List Str) (clientAddress : Str) (ip : IpAddress) (s : Str) : Prop :=
  s ≠ clientAddress ∧ s ∉ senders ∧
    ∃ net, ipNetwork s = some net ∧ net.contains ip = true ∧ ¬StartsLike clientAddress ip s net

/-! ### The lookup -/

section Lookup

variable {env : Env} {senders recipients : List Str} {clientAddress s : Str} {ip : IpAddress}

theorem mem_whitelistsOf_iff {rows : List Whitelist} :
    s ∈ whitelistsOf rows recipients ↔ ∃ r ∈ rows, r.account ∈ recipients ∧ Unicode.lower r.sender = s := by
  unfold whitelistsOf
  simp only [List.mem_map, List.mem_filter, List.contains_iff_mem, and_assoc]

theorem mem_tables_iff :
    s ∈ whitelistsOf env.whitelistDomainSpf recipients ++ whitelistsOf env.whitelists recipients ↔
      ListsSender env recipients (· = s) := by
  unfold ListsSender
  rw [List.mem_append, mem_whitelistsOf_iff, mem_whitelistsOf_iff]
  constructor
  · rintro (⟨r, hr, h⟩ | ⟨r, hr, h⟩)
    · exact ⟨r, List.mem_append_left _ hr, h⟩
    · exact ⟨r, List.mem_append_right _ hr, h⟩
  · rintro ⟨r, hr, h⟩
    rcases List.mem_append.mp hr with hr | hr
    · exact .inl ⟨r, hr, h⟩
    · exact .inr ⟨r, hr, h⟩

theorem listsSender_iff {p : Str → Prop} : ListsSender env recipients p ↔
    ∃ s ∈ whitelistsOf env.whitelistDomainSpf recipients ++ whitelistsOf env.whitelists recipients, p s := by
  simp only [mem_tables_iff]
  constructor
  · rintro ⟨r, hr, haccount, hp⟩
    exact ⟨_, ⟨r, hr, haccount, rfl⟩, hp⟩
  · rintro ⟨s, ⟨r, hr, haccount, rfl⟩, hp⟩
    exact ⟨r, hr, haccount, hp⟩

omit [Unicode] in
theorem isListed_iff {wls : List Str} :
    isListed senders clientAddress wls = true ↔ ∃ s ∈ wls, s = clientAddress ∨ s ∈ senders := by
  unfold isListed
  rw [Bool.or_eq_true, List.contains_iff_mem, List.any_eq_true]
  simp only [List.contains_iff_mem]
  constructor
  · rintro (hmem | ⟨s, hs, hmem⟩)
    · exact ⟨_, hmem, .inl rfl⟩
    · exact ⟨s, hmem, .inr hs⟩
  · rintro ⟨s, hmem, rfl | hs⟩
    · exact .inl hmem
    · exact .inr ⟨s, hs, hmem⟩

omit [Unicode] in
theorem inNetwork_iff : inNetwork ip s = true ↔ ∃ net, ipNetwork s = some net ∧ net.contains ip = true := by
  unfold inNetwork
  cases ipNetwork s with
  | none => simp
  | some net => simp

omit [Unicode] in
/-- The filter for an IPv4 client keeps the networks with its first octet, but for its own text. -/
theorem mem_cidrs_v4_iff {wls : List Str} (hip : ipAddress clientAddress = some ip)
    (hv4 : ip.version = .v4) {net : IpNetwork} (hnet : ipNetwork s = some net)
    (hcontains : net.contains ip = true) (hs : s ∈ wls) (hne : s ≠ clientAddress) :
    s ∈ cidrs clientAddress ip wls ↔ StartsLike clientAddress ip s net := by
  have hversion : ip.version = net.version := (of_decide_eq_true hcontains).1
  obtain ⟨v, n⟩ := ip
  obtain rfl : v = .v4 := hv4
  have hclient := ipv4FromString_of_ipAddress hip
  have hslash : '/' ∈ s := by
    by_contra hslash
    have hsame := ipv4FromString_of_ipAddress (eq_of_contains hslash hnet hcontains).1
    exact hne (ipv4FromString_inj hsame hclient)
  obtain ⟨t, mask, rfl, -, ht⟩ := exists_mask hslash hnet
  rw [← hversion] at ht
  have hfirst := startsWith_firstOctet_iff hclient (ipv4FromString_of_ipAddress ht) ('/' :: mask)
  unfold cidrs StartsLike
  simp only [List.mem_filter, Bool.and_eq_true, List.contains_iff_mem]
  constructor
  · rintro ⟨-, hstarts, -⟩
    exact ⟨fun _ => hfirst.mp hstarts, fun h => by cases h⟩
  · rintro ⟨hoctet, -⟩
    exact ⟨hs, hfirst.mpr (hoctet trivial), hslash⟩

omit [Unicode] in
theorem mem_cidrs_v6_iff {wls : List Str} (hv6 : ip.version = .v6) {net : IpNetwork} (hs : s ∈ wls) :
    s ∈ cidrs clientAddress ip wls ↔ StartsLike clientAddress ip s net := by
  unfold cidrs StartsLike
  rw [hv6]
  simp only [List.mem_filter, Bool.and_eq_true, isSome_splitOnce_iff]
  constructor
  · rintro ⟨-, hstarts⟩
    exact ⟨fun h => (by cases h), fun _ => hstarts⟩
  · rintro ⟨-, hstarts⟩
    exact ⟨hs, hstarts trivial⟩

omit [Unicode] in
theorem mem_cidrs_iff {wls : List Str} (hip : ipAddress clientAddress = some ip) {net : IpNetwork}
    (hnet : ipNetwork s = some net) (hcontains : net.contains ip = true) (hs : s ∈ wls)
    (hne : s ≠ clientAddress) :
    s ∈ cidrs clientAddress ip wls ↔ StartsLike clientAddress ip s net := by
  cases hversion : ip.version with
  | v4 => exact mem_cidrs_v4_iff hip hversion hnet hcontains hs hne
  | v6 => exact mem_cidrs_v6_iff hversion hs

omit [Unicode] in
theorem mem_of_mem_cidrs {wls : List Str} (h : s ∈ cidrs clientAddress ip wls) : s ∈ wls := by
  unfold cidrs at h
  split at h
  · exact List.mem_of_mem_filter h
  · exact List.mem_of_mem_filter h

/-- **What is answered for the rows of the two tables.** -/
theorem isWhitelisted_eq_true_iff (hip : ipAddress clientAddress = some ip) {b : Bool}
    (h : isWhitelisted env senders recipients clientAddress ip = .ok b) :
    b = true ↔ ListsSender env recipients (Found senders clientAddress ip) := by
  rw [listsSender_iff]
  unfold isWhitelisted at h
  simp only at h
  split_ifs at h with hspf hlisted htable hlisted'
  · obtain rfl := Except.ok.inj h
    obtain ⟨s, hs, hfound⟩ := isListed_iff.mp hlisted
    refine ⟨fun _ => ⟨s, List.mem_append_left _ hs, ?_⟩, fun _ => rfl⟩
    rcases hfound with heq | hmem
    · exact .inl heq
    · exact .inr (.inl hmem)
  · obtain rfl := Except.ok.inj h
    obtain ⟨s, hs, hfound⟩ := isListed_iff.mp hlisted'
    refine ⟨fun _ => ⟨s, List.mem_append_right _ hs, ?_⟩, fun _ => rfl⟩
    rcases hfound with heq | hmem
    · exact .inl heq
    · exact .inr (.inl hmem)
  · obtain rfl := Except.ok.inj h
    -- neither the client nor a sender is listed
    have hneither : ∀ s ∈ whitelistsOf env.whitelistDomainSpf recipients ++
        whitelistsOf env.whitelists recipients, s ≠ clientAddress ∧ s ∉ senders := by
      intro s hs
      rw [← not_or]
      intro hfound
      rcases List.mem_append.mp hs with hs | hs
      · exact hlisted (isListed_iff.mpr ⟨s, hs, hfound⟩)
      · exact hlisted' (isListed_iff.mpr ⟨s, hs, hfound⟩)
    rw [List.any_eq_true]
    constructor
    · rintro ⟨s, hs, hin⟩
      have hmem := mem_of_mem_cidrs hs
      obtain ⟨net, hnet, hcontains⟩ := inNetwork_iff.mp hin
      have hstarts := (mem_cidrs_iff hip hnet hcontains hmem (hneither s hmem).1).mp hs
      exact ⟨s, hmem, .inr (.inr ⟨net, hnet, hcontains, hstarts⟩)⟩
    · rintro ⟨s, hs, heq | hmem | ⟨net, hnet, hcontains, hstarts⟩⟩
      · exact absurd heq (hneither s hs).1
      · exact absurd hmem (hneither s hs).2
      · have hcidr := (mem_cidrs_iff hip hnet hcontains hs (hneither s hs).1).mpr hstarts
        exact ⟨s, hcidr, inNetwork_iff.mpr ⟨net, hnet, hcontains⟩⟩

omit [Unicode] in
/-- Nothing whitelists the client that is not found or passed over. -/
theorem row_whitelists_iff : Whitelists senders clientAddress ip s ↔
    Found senders clientAddress ip s ∨ PassedOver senders clientAddress ip s := by
  constructor
  · rintro (heq | hmem | ⟨net, hnet, hcontains⟩)
    · exact .inl (.inl heq)
    · exact .inl (.inr (.inl hmem))
    · by_cases heq : s = clientAddress
      · exact .inl (.inl heq)
      by_cases hmem : s ∈ senders
      · exact .inl (.inr (.inl hmem))
      by_cases hstarts : StartsLike clientAddress ip s net
      · exact .inl (.inr (.inr ⟨net, hnet, hcontains, hstarts⟩))
      · exact .inr ⟨heq, hmem, net, hnet, hcontains, hstarts⟩
  · rintro ((heq | hmem | ⟨net, hnet, hcontains, -⟩) | ⟨-, -, net, hnet, hcontains, -⟩)
    · exact .inl heq
    · exact .inr (.inl hmem)
    · exact .inr (.inr ⟨net, hnet, hcontains⟩)
    · exact .inr (.inr ⟨net, hnet, hcontains⟩)

/-- **The lookup is membership** exactly when, should a network that contains the client be passed
over, something else whitelists the client. -/
theorem isWhitelisted_iff (hip : ipAddress clientAddress = some ip) :
    (env.fails .selectWhitelistDomainSpf = false → env.fails .selectWhitelists = false →
      ∃ b, isWhitelisted env senders recipients clientAddress ip = .ok b) ∧
    ∀ b, isWhitelisted env senders recipients clientAddress ip = .ok b →
      ((b = true ↔ ListsSender env recipients (Whitelists senders clientAddress ip)) ↔
        (ListsSender env recipients (PassedOver senders clientAddress ip) →
          ListsSender env recipients (Found senders clientAddress ip))) := by
  constructor
  · intro hspf htable
    unfold isWhitelisted
    simp only [hspf, htable, Bool.false_eq_true, if_false]
    split_ifs
    · exact ⟨_, rfl⟩
    · exact ⟨_, rfl⟩
    · exact ⟨_, rfl⟩
  intro b hb
  rw [isWhitelisted_eq_true_iff hip hb]
  constructor
  · rintro hmembership ⟨r, hr, haccount, hpassed⟩
    exact hmembership.mpr ⟨r, hr, haccount, row_whitelists_iff.mpr (.inr hpassed)⟩
  · intro hfound
    constructor
    · rintro ⟨r, hr, haccount, h⟩
      exact ⟨r, hr, haccount, row_whitelists_iff.mpr (.inl h)⟩
    · rintro ⟨r, hr, haccount, hwhitelists⟩
      rcases row_whitelists_iff.mp hwhitelists with h | hpassed
      · exact ⟨r, hr, haccount, h⟩
      · exact hfound ⟨r, hr, haccount, hpassed⟩

end Lookup

/-- Everybody whitelists a network. -/
def whitelistingNetwork (cidr : Str) : Env where
  now := 0
  whitelistDomainSpf := []
  whitelists := [⟨"@.", cidr⟩]
  greylisting := []
  getAliasTargetDomain _ := .ok none
  isAllowedServerInSpf _ _ := .ok false
  fails _ := false

/-- `2001:db8::1:7` -/
def ip6Client : IpAddress := ⟨.v6, 0x20010db8000000000000000000010007⟩

omit [Unicode] in
theorem isWhitelisted_network :
    letI := asciiUnicode
    let env := whitelistingNetwork "2001:db8::/32"
    let recipients := ["@.".toList]
    ipAddress "2001:db8::1:7".toList = some ip6Client ∧
      (env.fails .selectWhitelistDomainSpf = false → env.fails .selectWhitelists = false →
        ∃ b, isWhitelisted env [] recipients "2001:db8::1:7" ip6Client = .ok b) ∧
      ∀ b, isWhitelisted env [] recipients "2001:db8::1:7" ip6Client = .ok b →
        ((b = true ↔ ListsSender env recipients (Whitelists [] "2001:db8::1:7" ip6Client)) ↔
          (ListsSender env recipients (PassedOver [] "2001:db8::1:7" ip6Client) →
            ListsSender env recipients (Found [] "2001:db8::1:7" ip6Client))) := by
  let := asciiUnicode
  have hip : ipAddress "2001:db8::1:7".toList = some ip6Client := by decide
  exact ⟨hip, @isWhitelisted_iff asciiUnicode _ _ _ _ _ hip⟩

omit [Unicode] in
/-- A network that is not written with `::` before its mask. -/
theorem network_not_whitelisted :
    letI := asciiUnicode
    ipAddress "2001:db8::1:7".toList = some ip6Client ∧
      isWhitelisted (whitelistingNetwork "2001:db8::1:0/112") [] ["@.".toList] "2001:db8::1:7" ip6Client =
        .ok false ∧
      ListsSender (whitelistingNetwork "2001:db8::1:0/112") ["@.".toList]
        (Whitelists [] "2001:db8::1:7" ip6Client) := by
  let := asciiUnicode
  refine ⟨by decide, by decide, ⟨"@.", "2001:db8::1:0/112"⟩, by decide, by decide, .inr (.inr ?_)⟩
  exact ⟨⟨.v6, 0x20010db8000000000000000000010000, 112⟩, by decide, by decide⟩

end IRedAPD.Greylisting

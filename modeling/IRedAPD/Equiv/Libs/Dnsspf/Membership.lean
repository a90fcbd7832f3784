/-
  `is_allowed_server_in_spf` against membership in what the record lists.

  Before a network is compared as a network, its text has to pass a filter: for
  an IPv4 client it has to start like the client's address and to have `0` as
  the last field of its address (`mem_cidrsOf_v4_iff`), so networks that contain
  the client are passed over (`PassedOver`).  A listed address is compared as
  text, which decides for IPv4 only.
-/
import IRedAPD.Equiv.Libs.Dnsspf.Collection
import IRedAPD.Py.IpText

namespace IRedAPD.Dnsspf

open Py

variable [Unicode]

/-! ### Membership -/

/-- The scope id of an address. -/
def scopeId (s : Str) : Option Str := (splitOnce "%".toList s).map Prod.snd

/-- Two texts are of one address. -/
def SameAddress (s t : Str) : Prop :=
  (ipAddress s).isSome ∧ ipAddress s = ipAddress t ∧ scopeId s = scopeId t

/-- A network is listed that contains the address and has the property. -/
def ListsNetwork (p : IpNetwork → Prop) (addr : IpAddress) (i : Str) : Prop :=
  '/' ∈ i ∧ ∃ net, ipNetwork i = some net ∧ net.contains addr = true ∧ p net

/-- What is listed is the address, or a network that contains it. -/
def Covers (ip : Str) (addr : IpAddress) (i : Str) : Prop :=
  SameAddress ip i ∨ ListsNetwork (fun _ => True) addr i

/-- A network whose text passes the filter of an address. -/
def PassesFilter (addr : IpAddress) (net : IpNetwork) : Prop :=
  net.version = .v4 → net.networkAddress / 2 ^ 24 = addr.ip / 2 ^ 24 ∧ net.networkAddress % 256 = 0

/-- What is listed is the text of the address, or a network that passes the filter. -/
def Found (ip : Str) (addr : IpAddress) (i : Str) : Prop :=
  i = ip ∨ ListsNetwork (PassesFilter addr) addr i

/-- What is listed is an IPv6 address that is spelled otherwise, or an IPv4 network with another
first octet or with a last octet that is not zero. -/
def PassedOver (ip : Str) (addr : IpAddress) (i : Str) : Prop :=
  (addr.version = .v6 ∧ SameAddress ip i ∧ i ≠ ip) ∨
    ListsNetwork (fun net => ¬PassesFilter addr net) addr i

/-! ### The filter -/

section Filter

variable {ip i : Str} {addr : IpAddress} {net : IpNetwork}

omit [Unicode] in
theorem version_eq_of_contains (h : net.contains addr = true) : addr.version = net.version :=
  (of_decide_eq_true h).1

omit [Unicode] in
/-- An IPv4 address is spelled in one way. -/
theorem SameAddress.eq_of_v4 (h : SameAddress ip i) (hip : ipAddress ip = some addr)
    (hv4 : addr.version = .v4) : i = ip := by
  obtain ⟨v, n⟩ := addr
  obtain rfl : v = .v4 := hv4
  have hi : ipAddress i = some ⟨.v4, n⟩ := h.2.1.symm.trans hip
  exact ipv4FromString_inj (ipv4FromString_of_ipAddress hi) (ipv4FromString_of_ipAddress hip)

omit [Unicode] in
/-- The filter keeps the networks that start with the first octet of the client and end with a zero. -/
theorem mem_cidrsOf_v4_iff {ips : List Str} (hip : ipAddress ip = some addr) (hv4 : addr.version = .v4)
    (hnet : ipNetwork i = some net) (hcontains : net.contains addr = true) (hi : i ∈ ips) :
    i ∈ cidrsOf ip .v4 ips ↔ '/' ∈ i ∧ PassesFilter addr net := by
  obtain ⟨v, n⟩ := addr
  obtain rfl : v = .v4 := hv4
  have hversion : net.version = .v4 := (version_eq_of_contains hcontains).symm
  unfold cidrsOf PassesFilter
  rw [List.mem_filter, Bool.and_eq_true]
  by_cases hslash : '/' ∈ i
  · obtain ⟨t, mask, rfl, hmask, ht⟩ := exists_mask hslash hnet
    have ht4 : ipv4FromString t = some net.networkAddress := by
      rw [hversion] at ht
      exact ipv4FromString_of_ipAddress ht
    have hfirst := startsWith_firstOctet_iff (ipv4FromString_of_ipAddress hip) ht4 ('/' :: mask)
    have hlast := holds_zeroField_iff ht4 (slash_notMem_of_ipAddress ht)
      (slash_notMem_of_isAddressChar hmask)
    constructor
    · rintro ⟨-, hstarts, hzero⟩
      exact ⟨hslash, fun _ => ⟨hfirst.mp hstarts, hlast.mp hzero⟩⟩
    · rintro ⟨-, hpasses⟩
      obtain ⟨hoctet, hzero⟩ := hpasses hversion
      exact ⟨hi, hfirst.mpr hoctet, hlast.mpr hzero⟩
  · constructor
    · rintro ⟨-, -, hzero⟩
      have hpart := isSome_splitOnce_iff.mp hzero
      exact absurd (hpart.subset (by decide)) hslash
    · rintro ⟨hmem, -⟩
      exact absurd hmem hslash

omit [Unicode] in
/-- It keeps every IPv6 network. -/
theorem mem_cidrsOf_v6_iff {ips : List Str} (hv6 : addr.version = .v6) (hnet : ipNetwork i = some net)
    (hcontains : net.contains addr = true) (hi : i ∈ ips) :
    i ∈ cidrsOf ip .v6 ips ↔ '/' ∈ i ∧ PassesFilter addr net := by
  have hversion : net.version = .v6 := (version_eq_of_contains hcontains).symm.trans hv6
  unfold cidrsOf PassesFilter
  rw [List.mem_filter, Bool.and_eq_true, List.contains_iff_mem, List.contains_iff_mem]
  constructor
  · rintro ⟨-, -, hslash⟩
    refine ⟨hslash, fun hv4 => ?_⟩
    rw [hversion] at hv4
    cases hv4
  · rintro ⟨hslash, -⟩
    obtain ⟨t, mask, rfl, -, ht⟩ := exists_mask hslash hnet
    rw [hversion] at ht
    exact ⟨hi, List.mem_append_left _ (colon_mem_of_ipAddress ht), hslash⟩

omit [Unicode] in
theorem mem_of_mem_cidrsOf {version : IpVersion} {ips : List Str} (h : i ∈ cidrsOf ip version ips) :
    i ∈ ips := by
  cases version with
  | v4 => exact List.mem_of_mem_filter h
  | v6 => exact List.mem_of_mem_filter h

omit [Unicode] in
theorem mem_cidrsOf_iff {ips : List Str} (hip : ipAddress ip = some addr) (hnet : ipNetwork i = some net)
    (hcontains : net.contains addr = true) (hi : i ∈ ips) :
    i ∈ cidrsOf ip addr.version ips ↔ '/' ∈ i ∧ PassesFilter addr net := by
  cases hversion : addr.version with
  | v4 => exact mem_cidrsOf_v4_iff hip hversion hnet hcontains hi
  | v6 => exact mem_cidrsOf_v6_iff hversion hnet hcontains hi

omit [Unicode] in
/-- **What is answered for the addresses and networks of a record.** -/
theorem isListed_iff {ips : List Str} (hip : ipAddress ip = some addr) :
    ∃ allowed, isListed ip ips = .ok allowed ∧ (allowed = true ↔ ∃ i ∈ ips, Found ip addr i) := by
  unfold isListed
  by_cases hmem : ip ∈ ips
  · rw [if_pos (List.contains_iff_mem.mpr hmem)]
    exact ⟨true, rfl, fun _ => ⟨ip, hmem, .inl rfl⟩, fun _ => rfl⟩
  rw [if_neg (by rwa [List.contains_iff_mem])]
  simp only [hip]
  refine ⟨_, rfl, ?_⟩
  rw [List.any_eq_true]
  constructor
  · rintro ⟨i, hi, hany⟩
    obtain ⟨net, hnet, hcontains⟩ := (Option.any_eq_true _ _).mp hany
    have hmem := mem_of_mem_cidrsOf hi
    obtain ⟨hslash, hpasses⟩ := (mem_cidrsOf_iff hip hnet hcontains hmem).mp hi
    exact ⟨i, hmem, .inr ⟨hslash, net, hnet, hcontains, hpasses⟩⟩
  · rintro ⟨i, hi, rfl | ⟨hslash, net, hnet, hcontains, hpasses⟩⟩
    · exact absurd hi hmem
    · refine ⟨i, (mem_cidrsOf_iff hip hnet hcontains hi).mpr ⟨hslash, hpasses⟩, ?_⟩
      rw [hnet]
      exact hcontains

omit [Unicode] in
/-- Nothing is covered that is not found or passed over. -/
theorem covers_iff {i : Str} (hip : ipAddress ip = some addr) :
    Covers ip addr i ↔ Found ip addr i ∨ PassedOver ip addr i := by
  constructor
  · rintro (hsame | ⟨hslash, net, hnet, hcontains, -⟩)
    · by_cases hi : i = ip
      · exact .inl (.inl hi)
      · refine .inr (.inl ⟨?_, hsame, hi⟩)
        cases hversion : addr.version with
        | v4 => exact absurd (hsame.eq_of_v4 hip hversion) hi
        | v6 => rfl
    · by_cases hpasses : PassesFilter addr net
      · exact .inl (.inr ⟨hslash, net, hnet, hcontains, hpasses⟩)
      · exact .inr (.inr ⟨hslash, net, hnet, hcontains, hpasses⟩)
  · rintro ((rfl | ⟨hslash, net, hnet, hcontains, -⟩) |
      (⟨-, hsame, -⟩ | ⟨hslash, net, hnet, hcontains, -⟩))
    · exact .inl ⟨by rw [hip]; rfl, rfl, rfl⟩
    · exact .inr ⟨hslash, net, hnet, hcontains, trivial⟩
    · exact .inl hsame
    · exact .inr ⟨hslash, net, hnet, hcontains, trivial⟩

end Filter

/-! ### `is_allowed_server_in_spf` -/

section Answer

variable {sets : SetOrder Str} {settings : Settings} {zone : Zone} {domain ip : Str} {addr : IpAddress}

omit [Unicode] in
theorem ipAddress_nil : ipAddress [] = none := by decide

/-- The addresses of the evaluation decide, also where no record is found. -/
theorem isAllowedServerInSpf_eq_evaluation (hdomain : domain ≠ []) (hip : ipAddress ip = some addr)
    (depth : ℕ) :
    isAllowedServerInSpf sets settings zone depth domain ip =
      (evaluation sets settings.spfMaxDnsQueries zone depth domain).map fun r =>
        (isListed ip r.1, r.2.queries) := by
  have hne : ip ≠ [] := by
    rintro rfl
    rw [ipAddress_nil] at hip
    cases hip
  unfold isAllowedServerInSpf evaluation
  rw [if_neg (by simp [hdomain, hne])]
  rcases querySpf settings.spfMaxDnsQueries zone domain {} with ⟨_ | spf, st⟩
  · have hnone : isListed ip [] = .ok false := by
      unfold isListed
      simp only [hip]
      cases addr.version with
      | v4 => rfl
      | v6 => rfl
    simp only [parseSpf_none, Option.map_some, hnone]
  · rfl

/-- **The answer is membership** exactly when, should something that contains the client be passed
over, something else that contains it is found. -/
theorem isAllowedServerInSpf_iff (hdomain : domain ≠ []) (hip : ipAddress ip = some addr) {depth : ℕ}
    (hdepth : settings.spfMaxDnsQueries < depth) :
    ∃ ips st allowed,
      evaluation sets settings.spfMaxDnsQueries zone depth domain = some (ips, st) ∧
      isAllowedServerInSpf sets settings zone depth domain ip = some (.ok allowed, st.queries) ∧
      ((allowed = true ↔ ∃ i ∈ ips, Covers ip addr i) ↔
        ((∃ i ∈ ips, PassedOver ip addr i) → ∃ i ∈ ips, Found ip addr i)) := by
  have hends : ∃ r, evaluation sets settings.spfMaxDnsQueries zone depth domain = some r := by
    unfold evaluation
    exact exists_parseSpf domain _ (Nat.lt_of_le_of_lt (Nat.sub_le _ _) hdepth)
  obtain ⟨⟨ips, st⟩, hevaluation⟩ := hends
  have hlisted_iff : ∃ allowed, isListed ip ips = .ok allowed ∧
      (allowed = true ↔ ∃ i ∈ ips, Found ip addr i) := isListed_iff hip
  obtain ⟨allowed, hlisted, hallowed⟩ := hlisted_iff
  refine ⟨ips, st, allowed, hevaluation, ?_, ?_⟩
  · rw [isAllowedServerInSpf_eq_evaluation hdomain hip, hevaluation, Option.map_some, hlisted]
  rw [hallowed]
  constructor
  · rintro hmembership ⟨i, hi, hpassed⟩
    exact hmembership.mpr ⟨i, hi, (covers_iff hip).mpr (.inr hpassed)⟩
  · intro hfound
    constructor
    · rintro ⟨i, hi, h⟩
      exact ⟨i, hi, (covers_iff hip).mpr (.inl h)⟩
    · rintro ⟨i, hi, hcovers⟩
      rcases (covers_iff hip).mp hcovers with h | hpassed
      · exact ⟨i, hi, h⟩
      · exact hfound ⟨i, hi, hpassed⟩

/-- The record of `a.com` lists a network of half a `/24`. -/
def halfNetworkZone : Zone where
  a _ := none
  mx _ := none
  txt d := if d = "a.com".toList then some ["\"v=spf1 ip4:10.1.2.128/25 -all\"".toList] else none

omit [Unicode] in
theorem isAllowedServerInSpf_outside :
    letI := asciiUnicode
    "a.com".toList ≠ [] ∧ ipAddress "10.1.3.7".toList = some ⟨.v4, 0x0a010307⟩ ∧ 20 < 21 ∧
      ∃ ips st allowed,
        evaluation .ofDedup 20 halfNetworkZone 21 "a.com".toList = some (ips, st) ∧
        isAllowedServerInSpf .ofDedup {} halfNetworkZone 21 "a.com".toList "10.1.3.7".toList =
          some (.ok allowed, st.queries) ∧
        ((allowed = true ↔ ∃ i ∈ ips, Covers "10.1.3.7".toList ⟨.v4, 0x0a010307⟩ i) ↔
          ((∃ i ∈ ips, PassedOver "10.1.3.7".toList ⟨.v4, 0x0a010307⟩ i) →
            ∃ i ∈ ips, Found "10.1.3.7".toList ⟨.v4, 0x0a010307⟩ i)) := by
  let := asciiUnicode
  have hdomain : "a.com".toList ≠ [] := by decide
  have hip : ipAddress "10.1.3.7".toList = some ⟨.v4, 0x0a010307⟩ := by decide
  have hdepth : 20 < 21 := by decide
  exact ⟨hdomain, hip, hdepth,
    @isAllowedServerInSpf_iff asciiUnicode .ofDedup {} halfNetworkZone _ _ _ hdomain hip 21 hdepth⟩

omit [Unicode] in
/-- A client in that network is not found. -/
theorem half_network_not_found :
    letI := asciiUnicode
    ∃ ips st,
      evaluation .ofDedup 20 halfNetworkZone 21 "a.com".toList = some (ips, st) ∧
      isAllowedServerInSpf .ofDedup {} halfNetworkZone 21 "a.com".toList "10.1.2.200".toList =
        some (.ok false, st.queries) ∧
      ipAddress "10.1.2.200".toList = some ⟨.v4, 0x0a0102c8⟩ ∧
      ∃ i ∈ ips, Covers "10.1.2.200".toList ⟨.v4, 0x0a0102c8⟩ i := by
  let := asciiUnicode
  refine ⟨["10.1.2.128/25".toList], ⟨["spf:a.com".toList, "spf:a.com".toList], [], 0, [.txt "a.com".toList]⟩,
    by decide +kernel, by decide +kernel, by decide, "10.1.2.128/25".toList, by decide, .inr ⟨by decide, ?_⟩⟩
  exact ⟨⟨.v4, 0x0a010280, 25⟩, by decide, by decide, trivial⟩

end Answer

end IRedAPD.Dnsspf

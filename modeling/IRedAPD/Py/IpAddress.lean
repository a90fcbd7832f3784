/-
  The parts of Python's `ipaddress` module the daemon calls: `ip_address`,
  `ip_network` (strict) and `address in network`, on texts.

  An address is its version and its integer value; a network is its network
  address and prefix length.  The scope id of an IPv6 address takes no part in
  the membership test and is dropped after it has been checked.
-/
import IRedAPD.Py.Str
import Mathlib.Algebra.Group.Nat.Defs

namespace Py

/-- The version of an address. -/
inductive IpVersion where
  | v4
  | v6
  deriving DecidableEq, Repr

/-- `_max_prefixlen`. -/
def IpVersion.width : IpVersion → ℕ
  | v4 => 32
  | v6 => 128

/-- An `IPv4Address` or `IPv6Address`. -/
structure IpAddress where
  version : IpVersion
  ip : ℕ
  deriving DecidableEq, Repr

/-- An `IPv4Network` or `IPv6Network`. -/
structure IpNetwork where
  version : IpVersion
  networkAddress : ℕ
  prefixlen : ℕ
  deriving DecidableEq, Repr

/-! ### Digits -/

/-- The value of a decimal digit. -/
def decDigit (c : Char) : Option ℕ :=
  if '0' ≤ c ∧ c ≤ '9' then some (c.toNat - '0'.toNat) else none

/-- The value of a hexadecimal digit. -/
def hexDigit (c : Char) : Option ℕ :=
  if '0' ≤ c ∧ c ≤ '9' then some (c.toNat - '0'.toNat)
  else if 'a' ≤ c ∧ c ≤ 'f' then some (c.toNat - 'a'.toNat + 10)
  else if 'A' ≤ c ∧ c ≤ 'F' then some (c.toNat - 'A'.toNat + 10)
  else none

/-- The value of a non-empty text of digits in a base. -/
def digitsValue (digit : Char → Option ℕ) (base : ℕ) (s : Str) : Option ℕ :=
  if s.isEmpty then none
  else s.foldl (fun acc c => acc.bind fun n => (digit c).map fun d => n * base + d) (some 0)

/-! ### IPv4 -/

/-- `IPv4Address._parse_octet`: one to three ASCII digits, no leading zero, at most 255. -/
def parseOctet (s : Str) : Option ℕ := do
  let n ← digitsValue decDigit 10 s
  if s.length > 3 then none
  else if s ≠ ['0'] ∧ s.head? = some '0' then none
  else if n > 255 then none
  else some n

/-- `IPv4Address._ip_int_from_string`. -/
def ipv4FromString (s : Str) : Option ℕ :=
  match s.splitOn '.' with
  | [a, b, c, d] => do
    let a ← parseOctet a
    let b ← parseOctet b
    let c ← parseOctet c
    let d ← parseOctet d
    some (((a * 256 + b) * 256 + c) * 256 + d)
  | _ => none

/-! ### IPv6 -/

/-- `IPv6Address._parse_hextet`: one to four hexadecimal digits. -/
def parseHextet (s : Str) : Option ℕ :=
  if s.length > 4 then none else digitsValue hexDigit 16 s

/-- The value of hextets written one after the other, from a start value. -/
def hextetsValue (start : ℕ) (parts : List Str) : Option ℕ :=
  parts.foldl (fun acc s => acc.bind fun n => (parseHextet s).map fun h => n * 65536 + h) (some start)

/-- `'%x' % n`. -/
def hexStr (n : ℕ) : Str := Nat.toDigits 16 n

/-- The colon-separated parts, an IPv4 suffix written as two hextets. -/
def ipv6Parts (s : Str) : Option (List Str) :=
  let parts := s.splitOn ':'
  if parts.length < 3 then none
  else
    let last := parts.getLastD []
    if '.' ∈ last then
      (ipv4FromString last).map fun n =>
        parts.dropLast ++ [hexStr (n / 65536 % 65536), hexStr (n % 65536)]
    else some parts

/-- The places of the empty parts between the endpoints: where `::` stands. -/
def skipIndices (parts : List Str) : List ℕ :=
  (List.range parts.length).filter fun i =>
    1 ≤ i ∧ i + 1 < parts.length ∧ parts.getD i [] = []

/-- `IPv6Address._ip_int_from_string`. -/
def ipv6FromString (s : Str) : Option ℕ := do
  let parts ← ipv6Parts s
  if parts.length > 9 then none
  else
    match skipIndices parts with
    | [] =>
      if parts.length ≠ 8 then none else hextetsValue 0 parts
    | [i] =>
      -- a leading or trailing `:` is only allowed as part of `::`
      let hi := if parts.head? = some [] then i - 1 else i
      let lo := if parts.getLast? = some [] then parts.length - i - 2 else parts.length - i - 1
      if parts.head? = some [] ∧ hi ≠ 0 then none
      else if parts.getLast? = some [] ∧ lo ≠ 0 then none
      else if hi + lo > 7 then none
      else do
        let high ← hextetsValue 0 (parts.take hi)
        hextetsValue (high * 65536 ^ (8 - (hi + lo))) (parts.drop (parts.length - lo))
    | _ => none

/-- `IPv6Address._split_scope_id`, keeping the address. -/
def splitScopeId (s : Str) : Option Str :=
  match splitOnce ['%'] s with
  | none => some s
  | some (addr, scope) => if scope = [] ∨ '%' ∈ scope then none else some addr

/-! ### Addresses and networks -/

/-- `ipaddress.ip_address(s)`, `none` for `ValueError`. -/
def ipAddress (s : Str) : Option IpAddress :=
  if '/' ∈ s then none
  else
    match ipv4FromString s with
    | some n => some ⟨.v4, n⟩
    | none => ((splitScopeId s).bind ipv6FromString).map fun n => ⟨.v6, n⟩

/-- `_prefix_from_prefix_string`. -/
def prefixFromString (width : ℕ) (s : Str) : Option ℕ :=
  (digitsValue decDigit 10 s).filter (· ≤ width)

/-- The integer of a netmask. -/
def netmask (width p : ℕ) : ℕ := 2 ^ width - 2 ^ (width - p)

/-- `IPv4Network._prefix_from_ip_string`: a netmask or a hostmask in dotted form. -/
def prefixFromIpString (s : Str) : Option ℕ := do
  let n ← ipv4FromString s
  match (List.range 33).find? fun p => netmask 32 p = n with
  | some p => some p
  | none => (List.range 33).find? fun p => netmask 32 p = 2 ^ 32 - 1 - n

/-- `addr & netmask`. -/
def maskAddress (width p n : ℕ) : ℕ := n / 2 ^ (width - p) * 2 ^ (width - p)

/-- A network from its address and prefix length; `strict` refuses host bits. -/
def strictNetwork (v : IpVersion) (n p : ℕ) : Option IpNetwork :=
  if maskAddress v.width p n = n then some ⟨v, n, p⟩ else none

/-- `ipaddress.ip_network(s)`, `none` for `ValueError`. -/
def ipNetwork (s : Str) : Option IpNetwork :=
  match s.splitOn '/' with
  | [a] =>
    match ipAddress a with
    | some ip => strictNetwork ip.version ip.ip ip.version.width
    | none => none
  | [a, m] =>
    match ipAddress a with
    | some ⟨.v4, n⟩ =>
      ((prefixFromString 32 m).or (prefixFromIpString m)).bind (strictNetwork .v4 n)
    | some ⟨.v6, n⟩ => (prefixFromString 128 m).bind (strictNetwork .v6 n)
    | none => none
  | _ => none

/-- `address in network`. -/
def IpNetwork.contains (net : IpNetwork) (a : IpAddress) : Bool :=
  a.version = net.version ∧
    maskAddress net.version.width net.prefixlen a.ip = net.networkAddress

example : ((ipNetwork "192.168.1.0/24").bind fun net =>
    (ipAddress "192.168.1.7").map net.contains) = some true := by decide

example : ipAddress "2001:db8::ff:1" = some ⟨.v6, 0x20010db8000000000000000000ff0001⟩ := by decide

/-! ### Digits and octets -/

/-- A text with a value is not empty and holds digits only: the value is folded from theirs. -/
theorem exists_foldl_digits {digit : Char → Option ℕ} {base n : ℕ} {s : Str}
    (h : digitsValue digit base s = some n) : s ≠ [] ∧
      ∃ ds : List ℕ, s.map digit = ds.map some ∧ n = ds.foldl (fun n d => n * base + d) 0 := by
  have hnone : ∀ s : Str, s.foldl
      (fun acc c => acc.bind fun n => (digit c).map fun d => n * base + d) none = none := by
    intro s
    induction s with
    | nil => rfl
    | cons c s ih => exact ih
  have hfold : ∀ (s : Str) (acc : ℕ), s.foldl
      (fun acc c => acc.bind fun n => (digit c).map fun d => n * base + d) (some acc) = some n →
      ∃ ds : List ℕ, s.map digit = ds.map some ∧ n = ds.foldl (fun n d => n * base + d) acc := by
    intro s
    induction s with
    | nil => exact fun acc h => ⟨[], rfl, (Option.some.inj h).symm⟩
    | cons c s ih =>
      intro acc h
      rw [List.foldl_cons, Option.bind_some] at h
      cases hc : digit c with
      | none =>
        rw [hc, Option.map_none, hnone] at h
        cases h
      | some d =>
        rw [hc, Option.map_some] at h
        obtain ⟨ds, hds, hn⟩ := ih _ h
        refine ⟨d :: ds, ?_, hn⟩
        rw [List.map_cons, List.map_cons, hc, hds]
  unfold digitsValue at h
  split_ifs at h with hempty
  exact ⟨fun hnil => hempty (by rw [hnil]; rfl), hfold s 0 h⟩

/-- The characters of a text with a value are digits. -/
theorem isSome_digit_of_digitsValue {digit : Char → Option ℕ} {base n : ℕ} {s : Str}
    (h : digitsValue digit base s = some n) : ∀ c ∈ s, (digit c).isSome := by
  intro c hc
  obtain ⟨-, ds, hds, -⟩ := exists_foldl_digits h
  have hmem : digit c ∈ ds.map some := by
    rw [← hds]
    exact List.mem_map_of_mem hc
  obtain ⟨d, -, hd⟩ := List.mem_map.mp hmem
  rw [← hd]
  rfl

/-- A decimal digit is one of the range. -/
theorem range_of_isSome_decDigit {c : Char} (h : (decDigit c).isSome) : '0' ≤ c ∧ c ≤ '9' := by
  unfold decDigit at h
  split at h
  · next hrange => exact hrange
  · cases h

/-- An octet is written with ASCII digits. -/
theorem isDigit_of_parseOctet {s : Str} {n : ℕ} (h : parseOctet s = some n) :
    ∀ c ∈ s, '0' ≤ c ∧ c ≤ '9' := by
  intro c hc
  unfold parseOctet at h
  rw [Option.bind_eq_bind, Option.bind_eq_some_iff] at h
  obtain ⟨m, hm, -⟩ := h
  exact range_of_isSome_decDigit (isSome_digit_of_digitsValue hm c hc)

/-- The first field of an IPv4 address holds digits only. -/
theorem isDigit_firstField {s : Str} {ip : ℕ} (h : ipAddress s = some ⟨.v4, ip⟩) :
    ∀ c ∈ (s.splitOn '.').headD [], '0' ≤ c ∧ c ≤ '9' := by
  unfold ipAddress at h
  split at h
  · cases h
  · split at h
    · next n hn =>
      unfold ipv4FromString at hn
      split at hn
      · next a b c d hsplit =>
        rw [Option.bind_eq_bind, Option.bind_eq_some_iff] at hn
        obtain ⟨n, ha, -⟩ := hn
        rw [hsplit]
        exact isDigit_of_parseOctet ha
      · cases hn
    · next hn =>
      obtain ⟨n, -, hn⟩ := Option.map_eq_some_iff.mp h
      cases hn

/-! ### Texts of one character -/

/-- A text of one character is no address. -/
theorem ipAddress_singleton (c : Char) : ipAddress [c] = none := by
  have hsplit : ∀ a : Char, ([c].splitOn a).length ≤ 2 := by
    intro a
    rw [List.splitOn_cons_eq_if_modifyHead]
    split_ifs <;> simp
  have hv4 : ipv4FromString [c] = none := by
    unfold ipv4FromString
    have hlen := hsplit '.'
    split
    · next heq =>
      rw [heq] at hlen
      simp at hlen
    · rfl
  have hv6 : ∀ s : Str, (s.splitOn ':').length ≤ 2 → ipv6FromString s = none := by
    intro s hlen
    unfold ipv6FromString ipv6Parts
    simp only
    rw [if_pos (by omega)]
    rfl
  unfold ipAddress
  split_ifs
  · rfl
  rw [hv4]
  simp only
  rw [Option.map_eq_none_iff, Option.bind_eq_none_iff]
  intro addr haddr
  unfold splitScopeId at haddr
  split at haddr
  · rw [← Option.some.inj haddr]
    exact hv6 _ (hsplit ':')
  · next addr' scope hcut =>
    split_ifs at haddr with hscope
    have happend := eq_append_of_splitOnce hcut
    have hlen := congrArg List.length happend
    have hne : scope.length ≠ 0 := fun h => hscope (.inl (List.length_eq_zero_iff.mp h))
    simp only [List.length_append, List.length_singleton] at hlen
    omega

/-- Nor is it a network. -/
theorem ipNetwork_singleton (c : Char) : ipNetwork [c] = none := by
  unfold ipNetwork
  rw [List.splitOn_cons_eq_if_modifyHead]
  by_cases hc : c = '/'
  · subst hc
    decide
  · simp [hc, ipAddress_singleton]

/-! ### The characters of an address -/

/-- The characters of an IPv4 or IPv6 address. -/
def isAddressChar (c : Char) : Bool := (hexDigit c).isSome || c == ':' || c == '.'

theorem isAddressChar_of_isDigit {c : Char} (h : '0' ≤ c ∧ c ≤ '9') : isAddressChar c = true := by
  unfold isAddressChar hexDigit
  rw [if_pos h]
  rfl

/-- An IPv4 address is written with digits and dots. -/
theorem isDigit_or_dot_of_ipv4 {s : Str} {n : ℕ} (h : ipv4FromString s = some n) :
    ∀ c ∈ s, ('0' ≤ c ∧ c ≤ '9') ∨ c = '.' := by
  intro c hc
  rcases mem_splitOn_or_eq '.' hc with rfl | ⟨p, hp, hc⟩
  · exact .inr rfl
  left
  unfold ipv4FromString at h
  split at h
  · next a b d e hsplit =>
    simp only [Option.bind_eq_bind, Option.bind_eq_some_iff] at h
    obtain ⟨_, ha, _, hb, _, hd, _, he, -⟩ := h
    rw [hsplit] at hp
    simp only [List.mem_cons, List.not_mem_nil, or_false] at hp
    rcases hp with rfl | rfl | rfl | rfl
    · exact isDigit_of_parseOctet ha c hc
    · exact isDigit_of_parseOctet hb c hc
    · exact isDigit_of_parseOctet hd c hc
    · exact isDigit_of_parseOctet he c hc
  · cases h

theorem isAddressChar_of_ipv4 {s : Str} {n : ℕ} (h : ipv4FromString s = some n) :
    ∀ c ∈ s, isAddressChar c = true := by
  intro c hc
  rcases isDigit_or_dot_of_ipv4 h c hc with hdigit | rfl
  · exact isAddressChar_of_isDigit hdigit
  · decide

theorem isDigit_of_prefixFromString {width p : ℕ} {mask : Str}
    (h : prefixFromString width mask = some p) : ∀ c ∈ mask, '0' ≤ c ∧ c ≤ '9' := fun c hc =>
  range_of_isSome_decDigit (isSome_digit_of_digitsValue (Option.filter_eq_some_iff.mp h).1 c hc)

theorem isAddressChar_of_prefixFromString {width p : ℕ} {mask : Str}
    (h : prefixFromString width mask = some p) : ∀ c ∈ mask, isAddressChar c = true :=
  fun c hc => isAddressChar_of_isDigit (isDigit_of_prefixFromString h c hc)

theorem isAddressChar_of_prefixFromIpString {mask : Str} {p : ℕ}
    (h : prefixFromIpString mask = some p) : ∀ c ∈ mask, isAddressChar c = true := by
  unfold prefixFromIpString at h
  obtain ⟨n, hn, -⟩ := Option.bind_eq_some_iff.mp h
  exact isAddressChar_of_ipv4 hn

/-! ### The value of hextets -/

/-- A part that is no hextet spoils the value. -/
theorem hextetsValue_eq_none {p : Str} (hp : parseHextet p = none) (start : ℕ) (ps : List Str) :
    hextetsValue start (p :: ps) = none := by
  have hnone : ∀ ps : List Str, ps.foldl
      (fun acc s => acc.bind fun n => (parseHextet s).map fun h => n * 65536 + h) none = none := by
    intro ps
    induction ps with
    | nil => rfl
    | cons q ps ih => exact ih
  show ps.foldl _ ((some start).bind fun n => (parseHextet p).map fun h => n * 65536 + h) = none
  rw [Option.bind_some, hp]
  exact hnone ps

/-- The parts that have a value together have one each. -/
theorem isSome_parseHextet_of_hextetsValue {start n : ℕ} {parts : List Str}
    (h : hextetsValue start parts = some n) : ∀ p ∈ parts, (parseHextet p).isSome := by
  induction parts generalizing start with
  | nil => simp
  | cons p ps ih =>
    cases hp : parseHextet p with
    | none =>
      rw [hextetsValue_eq_none hp] at h
      cases h
    | some k =>
      have hstep : hextetsValue start (p :: ps) = hextetsValue (start * 65536 + k) ps := by
        show ps.foldl _ ((some start).bind fun n => (parseHextet p).map fun h => n * 65536 + h) = _
        rw [hp]
        rfl
      rw [hstep] at h
      intro q hq
      rcases List.mem_cons.mp hq with rfl | hq
      · rw [hp]
        rfl
      · exact ih h q hq

end Py

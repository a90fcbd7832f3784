/-
  How addresses and networks are written.

  An IPv4 address has one text only (`ipv4FromString_inj`): an octet is a decimal
  number without leading zeros.  A prefix of the text of a network therefore
  says what its first octet is (`startsWith_firstOctet_iff`), and its last field
  is `0` when the last octet is (`holds_zeroField_iff`).  An IPv6 address can be
  spelled in many ways; all that its text shows is a colon.
-/
import IRedAPD.Py.IpAddress
import Mathlib.Data.Nat.Digits.Defs

namespace Py

/-! ### Decimal numbers -/

theorem decDigit_eq_some {c : Char} {n : ℕ} (h : decDigit c = some n) :
    '0' ≤ c ∧ n < 10 ∧ c.toNat = n + '0'.toNat := by
  unfold decDigit at h
  split_ifs at h with hc
  obtain rfl := Option.some.inj h
  obtain ⟨hzero, hnine⟩ : '0'.toNat ≤ c.toNat ∧ c.toNat ≤ '9'.toNat := ⟨hc.1, hc.2⟩
  have hten : '9'.toNat = '0'.toNat + 9 := rfl
  exact ⟨hc.1, by omega, by omega⟩

/-- A digit has one character. -/
theorem decDigit_inj {c d : Char} {n : ℕ} (hc : decDigit c = some n) (hd : decDigit d = some n) :
    c = d := by
  have hc := (decDigit_eq_some hc).2.2
  have hd := (decDigit_eq_some hd).2.2
  exact Char.toNat_inj.mp (hc.trans hd.symm)

theorem eq_of_map_decDigit {s t : Str} {ds : List ℕ} (hs : s.map decDigit = ds.map some)
    (ht : t.map decDigit = ds.map some) : s = t := by
  induction ds generalizing s t with
  | nil => rw [List.map_eq_nil_iff.mp hs, List.map_eq_nil_iff.mp ht]
  | cons d ds ih =>
    obtain ⟨c, s, rfl, hc, hs⟩ := List.map_eq_cons_iff.mp hs
    obtain ⟨c', t, rfl, hc', ht⟩ := List.map_eq_cons_iff.mp ht
    rw [decDigit_inj hc hc', ih hs ht]

/-- The value of a text is the value of its digits. -/
theorem exists_digits {digit : Char → Option ℕ} {base n : ℕ} {s : Str}
    (h : digitsValue digit base s = some n) :
    s ≠ [] ∧ ∃ ds : List ℕ, s.map digit = ds.map some ∧ n = Nat.ofDigits base ds.reverse := by
  obtain ⟨hne, ds, hds, rfl⟩ := exists_foldl_digits h
  refine ⟨hne, ds, hds, ?_⟩
  rw [List.foldl_eq_foldr_reverse, Nat.ofDigits_eq_foldr]
  congr 1
  funext d n
  rw [Nat.cast_id, Nat.add_comm, Nat.mul_comm]

/-! ### Octets -/

theorem parseOctet_le {s : Str} {n : ℕ} (h : parseOctet s = some n) : n ≤ 255 := by
  unfold parseOctet at h
  obtain ⟨m, -, h⟩ := Option.bind_eq_some_iff.mp h
  split_ifs at h
  obtain rfl := Option.some.inj h
  omega

/-- What is read as an octet is `0`, or the digits of a number that is not. -/
theorem exists_digits_of_parseOctet {s : Str} {n : ℕ} (h : parseOctet s = some n) :
    (s = ['0'] ∧ n = 0) ∨ (n ≠ 0 ∧ s.map decDigit = (Nat.digits 10 n).reverse.map some) := by
  unfold parseOctet at h
  obtain ⟨m, hm, h⟩ := Option.bind_eq_some_iff.mp h
  split_ifs at h with hlength hzero hle
  obtain rfl := Option.some.inj h
  by_cases hs : s = ['0']
  · subst hs
    exact .inl ⟨rfl, (Option.some.inj hm).symm⟩
  right
  obtain ⟨hne, ds, hds, hvalue⟩ := exists_digits hm
  have hlt : ∀ d ∈ ds.reverse, d < 10 := by
    intro d hd
    have hmem : some d ∈ s.map decDigit := by
      rw [hds]
      exact List.mem_map_of_mem (List.mem_reverse.mp hd)
    obtain ⟨c, -, hc⟩ := List.mem_map.mp hmem
    exact (decDigit_eq_some hc).2.1
  -- the first digit is not zero
  have hfirst : ∀ h : ds.reverse ≠ [], ds.reverse.getLast h ≠ 0 := by
    intro hne hd
    obtain ⟨d, ds', rfl⟩ := List.exists_cons_of_ne_nil (List.reverse_ne_nil_iff.mp hne)
    rw [List.getLast_reverse, List.head_cons] at hd
    subst hd
    obtain ⟨c, s', rfl, hc, -⟩ := List.map_eq_cons_iff.mp hds
    have hc : c = '0' := decDigit_inj hc rfl
    exact hzero ⟨hs, by rw [hc]; rfl⟩
  have hdigits : Nat.digits 10 m = ds.reverse := by
    rw [hvalue]
    exact Nat.digits_ofDigits 10 (by decide) _ hlt hfirst
  refine ⟨?_, by rw [hdigits, List.reverse_reverse, hds]⟩
  rintro rfl
  rw [Nat.digits_zero] at hdigits
  rw [List.reverse_eq_nil_iff.mp hdigits.symm] at hds
  exact hne (List.map_eq_nil_iff.mp hds)

theorem dot_notMem_octet {s : Str} {n : ℕ} (h : parseOctet s = some n) : '.' ∉ s :=
  fun hdot => absurd (isDigit_of_parseOctet h '.' hdot) (by decide)

/-- An octet has one text. -/
theorem parseOctet_inj {s t : Str} {n : ℕ} (hs : parseOctet s = some n) (ht : parseOctet t = some n) :
    s = t := by
  rcases exists_digits_of_parseOctet hs with ⟨rfl, hzero⟩ | ⟨hne, hs⟩
  · rcases exists_digits_of_parseOctet ht with ⟨rfl, -⟩ | ⟨hne, -⟩
    · rfl
    · exact absurd hzero hne
  · rcases exists_digits_of_parseOctet ht with ⟨-, hzero⟩ | ⟨-, ht⟩
    · exact absurd hzero hne
    · exact eq_of_map_decDigit hs ht

/-! ### IPv4 addresses -/

/-- The fields of an IPv4 address are its octets. -/
theorem exists_octets {s : Str} {n : ℕ} (h : ipv4FromString s = some n) :
    ∃ a b c d x y z w, s.splitOn '.' = [a, b, c, d] ∧ parseOctet a = some x ∧ parseOctet b = some y ∧
      parseOctet c = some z ∧ parseOctet d = some w ∧ n = ((x * 256 + y) * 256 + z) * 256 + w := by
  unfold ipv4FromString at h
  split at h
  · next a b c d hsplit =>
    simp only [Option.bind_eq_bind, Option.bind_eq_some_iff] at h
    obtain ⟨x, ha, y, hb, z, hc, w, hd, heq⟩ := h
    exact ⟨a, b, c, d, x, y, z, w, hsplit, ha, hb, hc, hd, (Option.some.inj heq).symm⟩
  · cases h

/-- Four fields with dots between them. -/
theorem eq_of_splitOn_four {s a b c d : Str} (h : s.splitOn '.' = [a, b, c, d]) :
    s = a ++ '.' :: (b ++ '.' :: (c ++ '.' :: d)) := by
  have hjoin : join ['.'] (s.splitOn '.') = s := List.intercalate_splitOn ..
  rw [← hjoin, h]
  simp [join]

theorem dot_mem_of_ipv4 {t : Str} {n : ℕ} (h : ipv4FromString t = some n) : '.' ∈ t := by
  obtain ⟨a, b, c, d, x, y, z, w, hsplit, -⟩ := exists_octets h
  rw [eq_of_splitOn_four hsplit]
  simp

theorem colon_notMem_of_ipv4 {t : Str} {n : ℕ} (h : ipv4FromString t = some n) : ':' ∉ t :=
  fun hcolon => absurd (isDigit_or_dot_of_ipv4 h ':' hcolon) (by decide)

/-- An IPv4 address begins with its first octet and ends with its last. -/
theorem exists_ends {s : Str} {n : ℕ} (h : ipv4FromString s = some n) :
    ∃ a m d, s = a ++ '.' :: (m ++ '.' :: d) ∧ '.' ∉ a ∧ '.' ∉ d ∧ parseOctet a = some (n / 2 ^ 24) ∧
      parseOctet d = some (n % 256) := by
  obtain ⟨a, b, c, d, x, y, z, w, hsplit, ha, hb, hc, hd, rfl⟩ := exists_octets h
  have hy := parseOctet_le hb
  have hz := parseOctet_le hc
  have hw := parseOctet_le hd
  refine ⟨a, b ++ '.' :: c, d, ?_, dot_notMem_octet ha, dot_notMem_octet hd, ?_, ?_⟩
  · rw [eq_of_splitOn_four hsplit]
    simp
  · rw [ha]
    congr 1
    omega
  · rw [hd]
    congr 1
    omega

/-- **An IPv4 address has one text.** -/
theorem ipv4FromString_inj {s t : Str} {n : ℕ} (hs : ipv4FromString s = some n)
    (ht : ipv4FromString t = some n) : s = t := by
  obtain ⟨a, b, c, d, x, y, z, w, hsplit, ha, hb, hc, hd, rfl⟩ := exists_octets hs
  obtain ⟨a', b', c', d', x', y', z', w', hsplit', ha', hb', hc', hd', heq⟩ := exists_octets ht
  have hy := parseOctet_le hb
  have hz := parseOctet_le hc
  have hw := parseOctet_le hd
  have hy' := parseOctet_le hb'
  have hz' := parseOctet_le hc'
  have hw' := parseOctet_le hd'
  obtain ⟨rfl, rfl, rfl, rfl⟩ : x = x' ∧ y = y' ∧ z = z' ∧ w = w' := by omega
  rw [eq_of_splitOn_four hsplit, eq_of_splitOn_four hsplit', parseOctet_inj ha ha',
    parseOctet_inj hb hb', parseOctet_inj hc hc', parseOctet_inj hd hd']

/-- What stands before the first `.` of an IPv4 address is its first octet. -/
theorem parseOctet_splitFirst {s : Str} {n : ℕ} (h : ipv4FromString s = some n) :
    parseOctet (splitFirst ['.'] s) = some (n / 2 ^ 24) := by
  obtain ⟨a, m, d, rfl, hdot, -, ha, -⟩ := exists_ends h
  rwa [splitFirst_append hdot]

/-- **An address starts like another one exactly when their first octets are the same**, whatever
follows it. -/
theorem startsWith_firstOctet_iff {s t : Str} {m n : ℕ} (hs : ipv4FromString s = some m)
    (ht : ipv4FromString t = some n) (rest : Str) :
    startsWith (t ++ rest) (splitFirst ['.'] s ++ ['.']) = true ↔ n / 2 ^ 24 = m / 2 ^ 24 := by
  have hfirst := parseOctet_splitFirst hs
  obtain ⟨a, b, d, rfl, hdot, -, ha, -⟩ := exists_ends ht
  rw [startsWith_iff]
  constructor
  · rintro ⟨u, hu⟩
    have hcut : splitFirst ['.'] s ++ '.' :: u = a ++ '.' :: (b ++ '.' :: d ++ rest) := by
      simpa using hu
    obtain ⟨hsame, -⟩ := append_cons_inj (dot_notMem_octet hfirst) hdot hcut
    rw [hsame, ha] at hfirst
    exact Option.some.inj hfirst
  · intro heq
    rw [heq] at ha
    rw [parseOctet_inj hfirst ha]
    exact ⟨b ++ '.' :: d ++ rest, by simp⟩

/-- **The last field before a mask is `0` exactly when the last octet is.** -/
theorem holds_zeroField_iff {t mask : Str} {n : ℕ} (ht : ipv4FromString t = some n)
    (hslash : '/' ∉ t) (hmask : '/' ∉ mask) :
    (splitOnce ".0/".toList (t ++ '/' :: mask)).isSome ↔ n % 256 = 0 := by
  obtain ⟨a, b, d, rfl, -, hdot, -, hd⟩ := exists_ends ht
  have hzero : d = ['0'] ↔ n % 256 = 0 := by
    constructor
    · rintro rfl
      exact (Option.some.inj hd).symm
    · intro heq
      rw [heq] at hd
      exact parseOctet_inj hd rfl
  rw [isSome_splitOnce_iff, ← hzero]
  constructor
  · rintro ⟨pre, post, heq⟩
    -- the one `/` is the one of the pattern
    have hcount : pre.count '/' = 0 := by
      have hsame := congrArg (List.count '/') heq
      simp only [List.count_append, List.count_cons, List.count_eq_zero_of_not_mem hmask,
        List.count_eq_zero_of_not_mem hslash] at hsame
      simp at hsame
      omega
    have hcut : (pre ++ ['.', '0']) ++ '/' :: post = (a ++ '.' :: (b ++ '.' :: d)) ++ '/' :: mask := by
      simpa using heq
    have hpre : '/' ∉ pre ++ ['.', '0'] := by
      have hnot := List.count_eq_zero.mp hcount
      simp [hnot]
    obtain ⟨hsame, -⟩ := append_cons_inj hpre hslash hcut
    have hfields : pre ++ '.' :: ['0'] = (a ++ '.' :: b) ++ '.' :: d := by
      simpa using hsame
    exact (append_cons_inj_last (by decide) hdot hfields).2.symm
  · rintro rfl
    exact ⟨a ++ '.' :: b, mask, by simp⟩

/-! ### Networks -/

/-- An address with a slash is none. -/
theorem slash_notMem_of_ipAddress {s : Str} {ip : IpAddress} (h : ipAddress s = some ip) : '/' ∉ s := by
  intro hslash
  unfold ipAddress at h
  rw [if_pos hslash] at h
  cases h

theorem ipv4FromString_of_ipAddress {s : Str} {n : ℕ} (h : ipAddress s = some ⟨.v4, n⟩) :
    ipv4FromString s = some n := by
  unfold ipAddress at h
  split_ifs at h
  split at h
  · next hn => rw [hn, (IpAddress.mk.inj (Option.some.inj h)).2]
  · obtain ⟨m, -, hm⟩ := Option.map_eq_some_iff.mp h
    cases hm

theorem ipAddress_of_ipv4FromString {s : Str} {n : ℕ} (h : ipv4FromString s = some n) :
    ipAddress s = some ⟨.v4, n⟩ := by
  have hslash : '/' ∉ s := fun hslash => absurd (isAddressChar_of_ipv4 h '/' hslash) (by decide)
  unfold ipAddress
  rw [if_neg hslash, h]

/-- An IPv6 address is one text before its scope id. -/
theorem exists_scope {s : Str} {n : ℕ} (h : ipAddress s = some ⟨.v6, n⟩) :
    ∃ scope, s = splitFirst ['%'] s ++ scope ∧ ipv6FromString (splitFirst ['%'] s) = some n ∧
      (scope = [] ∨ ∃ c z, scope = '%' :: c :: z) := by
  unfold ipAddress at h
  split_ifs at h
  split at h
  · cases h
  · obtain ⟨m, hm, hversion⟩ := Option.map_eq_some_iff.mp h
    obtain rfl : m = n := (IpAddress.mk.inj hversion).2
    obtain ⟨addr, haddr, hv6⟩ := Option.bind_eq_some_iff.mp hm
    unfold splitScopeId at haddr
    unfold splitFirst
    cases hcut : splitOnce ['%'] s with
    | none =>
      rw [hcut] at haddr
      obtain rfl := Option.some.inj haddr
      exact ⟨[], (List.append_nil s).symm, hv6, .inl rfl⟩
    | some cut =>
      obtain ⟨addr', z⟩ := cut
      rw [hcut] at haddr
      simp only at haddr
      split_ifs at haddr with hscope
      obtain rfl := Option.some.inj haddr
      rw [not_or] at hscope
      obtain ⟨c, z, rfl⟩ := List.exists_cons_of_ne_nil hscope.1
      refine ⟨'%' :: c :: z, ?_, hv6, .inr ⟨c, z, rfl⟩⟩
      rw [eq_append_of_splitOnce hcut]
      simp

theorem colon_mem_of_ipAddress {s : Str} {n : ℕ} (h : ipAddress s = some ⟨.v6, n⟩) : ':' ∈ s := by
  obtain ⟨scope, -, hv6, -⟩ := exists_scope h
  apply mem_of_mem_splitFirst
  by_contra hnot
  unfold ipv6FromString ipv6Parts at hv6
  rw [List.splitOn_eq_singleton hnot] at hv6
  cases hv6

theorem strictNetwork_eq_some {v : IpVersion} {n p : ℕ} {net : IpNetwork}
    (h : strictNetwork v n p = some net) : net = ⟨v, n, p⟩ := by
  unfold strictNetwork at h
  split_ifs at h
  exact (Option.some.inj h).symm

/-- **A network with a mask is written as its address, a slash and the mask.** -/
theorem exists_mask {s : Str} {net : IpNetwork} (hslash : '/' ∈ s) (h : ipNetwork s = some net) :
    ∃ t mask, s = t ++ '/' :: mask ∧ (∀ c ∈ mask, isAddressChar c = true) ∧
      ipAddress t = some ⟨net.version, net.networkAddress⟩ := by
  have hjoin : join ['/'] (s.splitOn '/') = s := List.intercalate_splitOn ..
  unfold ipNetwork at h
  split at h
  · next t hsplit =>
    rw [hsplit] at hjoin
    obtain rfl : t = s := by simpa [join] using hjoin
    split at h
    · next ip hip => exact absurd hslash (slash_notMem_of_ipAddress hip)
    · cases h
  · next t mask hsplit =>
    obtain rfl : t ++ '/' :: mask = s := by
      rw [hsplit] at hjoin
      simpa [join] using hjoin
    split at h
    · next n hn =>
      obtain ⟨p, hmask, hp⟩ := Option.bind_eq_some_iff.mp h
      rw [strictNetwork_eq_some hp]
      refine ⟨t, mask, rfl, ?_, hn⟩
      rcases Option.or_eq_some_iff.mp hmask with hmask | ⟨-, hmask⟩
      · exact isAddressChar_of_prefixFromString hmask
      · exact isAddressChar_of_prefixFromIpString hmask
    · next n hn =>
      obtain ⟨p, hmask, hp⟩ := Option.bind_eq_some_iff.mp h
      rw [strictNetwork_eq_some hp]
      exact ⟨t, mask, rfl, isAddressChar_of_prefixFromString hmask, hn⟩
    · cases h
  · cases h

theorem slash_notMem_of_isAddressChar {s : Str} (h : ∀ c ∈ s, isAddressChar c = true) : '/' ∉ s :=
  fun hslash => absurd (h '/' hslash) (by decide)

/-- A network without a mask contains its own address only. -/
theorem eq_of_contains {s : Str} {net : IpNetwork} {ip : IpAddress} (hslash : '/' ∉ s)
    (h : ipNetwork s = some net) (hcontains : net.contains ip = true) :
    ipAddress s = some ip ∧ net.networkAddress = ip.ip := by
  unfold ipNetwork at h
  rw [List.splitOn_eq_singleton hslash] at h
  simp only at h
  split at h
  · next a ha =>
    obtain rfl := strictNetwork_eq_some h
    obtain ⟨hversion, hmask⟩ := of_decide_eq_true hcontains
    simp only [maskAddress, Nat.sub_self, Nat.pow_zero, Nat.div_one, Nat.mul_one] at hversion hmask
    obtain ⟨v, n⟩ := ip
    obtain ⟨v', n'⟩ := a
    obtain ⟨rfl, rfl⟩ : v = v' ∧ n = n' := ⟨hversion, hmask⟩
    exact ⟨ha, rfl⟩
  · cases h

end Py

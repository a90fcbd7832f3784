/-
  Addresses and networks, as `is_ip` judges them.

  The texts it should accept are those `ipaddress` reads, an address or an
  address with a prefix length (`IsAddressOrNetwork`).  The patterns for IPv4
  allow a line break at the end and no zeros before a prefix length; those for
  IPv6 ask for a beginning only where there is no `/`, and are written with `d`
  and `s` for the letters.  `Misjudged` lists the texts where this makes a
  difference: no others are judged wrongly (`isIp_correct_iff`).
-/
import IRedAPD.Equiv.IpPatterns

namespace IRedAPD

open Py Py.Regex Regxes

/-- The whole text is an address, or an address, a slash and a prefix length of its version. -/
def IsAddressOrNetwork (s : Str) : Prop :=
  (ipAddress s).isSome ∨ ∃ a p ip, s = a ++ '/' :: p ∧ ipAddress a = some ip ∧
    (prefixFromString ip.version.width p).isSome

/-- The texts that are judged wrongly. -/
inductive Misjudged : Str → Prop where
  /-- `192.168.1.7` and a line break -/
  | lineBreak {a : Str} {n : ℕ} (ha : ipAddress a = some ⟨.v4, n⟩) : Misjudged (a ++ ['\n'])
  /-- `192.168.1.0/24` and a line break -/
  | networkLineBreak {a : Str} {n p : ℕ} (ha : ipAddress a = some ⟨.v4, n⟩) (hp : p < 33) :
    Misjudged (a ++ '/' :: (natStr p ++ ['\n']))
  /-- `::1x`: an address at the beginning, after letters `s` -/
  | beginning {pre core rest : Str} (hpre : ∀ c ∈ pre, c = 's') (hcore : Ipv6Form Tail core)
    (hslash : '/' ∉ pre ++ (core ++ rest)) (hnone : ipAddress (pre ++ (core ++ rest)) = none) :
    Misjudged (pre ++ (core ++ rest))
  /-- `s::/120`, `::/dd`, or `::/120` and a line break -/
  | pattern {a p br : Str} (ha : PatternAddress a) (hp : p ∈ ipv6Prefixes)
    (hbr : br = [] ∨ br = ['\n']) (hbad : ipAddress a = none ∨ 'd' ∈ p ∨ br ≠ []) :
    Misjudged (a ++ '/' :: (p ++ br))
  /-- `1:2:3:4:5:6:192.168.1.7` -/
  | mappedAddress {hs : List Str} {t rest : Str} {n m : ℕ} (hlen : hs.length = 6)
    (hhs : ∀ g ∈ hs, Hextet g) (ht : ipv4FromString t = some m) (hlow : HasLowOctet m)
    (hrest : rest = [] ∨ ∃ z, rest = '%' :: z)
    (haddress : ipAddress (groupsBefore hs ++ (t ++ rest)) = some ⟨.v6, n⟩) :
    Misjudged (groupsBefore hs ++ (t ++ rest))
  /-- `192.168.1.0/024` -/
  | zeros {a p : Str} {n k : ℕ} (ha : ipAddress a = some ⟨.v4, n⟩)
    (hp : prefixFromString 32 p = some k) (hne : p ≠ natStr k) : Misjudged (a ++ '/' :: p)
  /-- `2001:db8::/64` -/
  | prefixLength {a p : Str} {n k : ℕ} (ha : ipAddress a = some ⟨.v6, n⟩)
    (hp : prefixFromString 128 p = some k) (hne : p ∉ ipv6Prefixes) : Misjudged (a ++ '/' :: p)
  /-- `::ffff:192.168.1.7/128` -/
  | mappedNetwork {a p pre t : Str} {n k m : ℕ} (ha : ipAddress a = some ⟨.v6, n⟩)
    (hp : prefixFromString 128 p = some k) (hpre : splitFirst ['%'] a = pre ++ ':' :: t)
    (ht : ipv4FromString t = some m) (hlow : HasLowOctet m) : Misjudged (a ++ '/' :: p)

/-! ### What the patterns decide -/

theorem isIp_of_notMem {s : Str} (h : '/' ∉ s) : isIp s = true ↔
    (∃ w br, (ipv4FromString w).isSome ∧ (br = [] ∨ br = ['\n']) ∧ s = w ++ br) ∨
      ∃ pre core rest, s = pre ++ (core ++ rest) ∧ (∀ c ∈ pre, c = 's') ∧ Ipv6Form Tail core := by
  unfold isIp
  rw [if_neg h, Bool.or_eq_true, reMatchEnd_iff, reMatch_iff]
  simp only [mem_language_regxIpv4, mem_language_regxIpv6]
  refine or_congr_right ⟨?_, ?_⟩
  · rintro ⟨_, ⟨pre, core, zone, post, rfl, hpre, hcore, -, -⟩, u, rfl⟩
    exact ⟨pre, core, zone ++ (post ++ u), by simp, hpre, hcore⟩
  · rintro ⟨pre, core, rest, rfl, hpre, hcore⟩
    refine ⟨pre ++ (core ++ ([] ++ [])), ⟨pre, core, [], [], rfl, hpre, hcore, .inl rfl, by simp⟩, ?_⟩
    exact ⟨rest, by simp⟩

/-- A pattern, a slash and a prefix length. -/
theorem reMatchEnd_slash {r q : Regex Char} {s : Str} :
    reMatchEnd (seq r (seq (char '/') q)) s = true ↔ ∃ a p br, a ∈ language r ∧ p ∈ language q ∧
      (br = [] ∨ br = ['\n']) ∧ s = a ++ '/' :: (p ++ br) := by
  rw [reMatchEnd_iff]
  constructor
  · rintro ⟨_, br, hw, hbr, rfl⟩
    obtain ⟨a, ha, _, hend, rfl⟩ := mem_language_seq.mp hw
    obtain ⟨p, hp, rfl⟩ := mem_language_char_seq.mp hend
    exact ⟨a, p, br, ha, hp, hbr, by simp⟩
  · rintro ⟨a, p, br, ha, hp, hbr, rfl⟩
    refine ⟨a ++ '/' :: p, br, mem_language_seq.mpr ⟨a, ha, '/' :: p, ?_, rfl⟩, hbr, by simp⟩
    exact mem_language_char_seq.mpr ⟨p, hp, rfl⟩

theorem isIp_of_mem {s : Str} (h : '/' ∈ s) : isIp s = true ↔
    ∃ a p br, (((ipv4FromString a).isSome ∧ ∃ n < 33, p = natStr n) ∨
      (PatternAddress a ∧ p ∈ ipv6Prefixes)) ∧ (br = [] ∨ br = ['\n']) ∧
      s = a ++ '/' :: (p ++ br) := by
  unfold isIp
  rw [if_pos h, Bool.or_eq_true, regxIpv4Cidr_eq, regxIpv6Cidr_eq, reMatchEnd_slash, reMatchEnd_slash]
  simp only [mem_language_regxIpv4, mem_language_ipv4Prefix, mem_language_regxIpv6,
    mem_language_ipv6Prefix]
  constructor
  · rintro (⟨a, p, br, ha, hp, hbr, rfl⟩ | ⟨a, p, br, ha, hp, hbr, rfl⟩)
    · exact ⟨a, p, br, .inl ⟨ha, hp⟩, hbr, rfl⟩
    · exact ⟨a, p, br, .inr ⟨ha, hp⟩, hbr, rfl⟩
  · rintro ⟨a, p, br, ⟨ha, hp⟩ | ⟨ha, hp⟩, hbr, rfl⟩
    · exact .inl ⟨a, p, br, ha, hp, hbr, rfl⟩
    · exact .inr ⟨a, p, br, ha, hp, hbr, rfl⟩

/-! ### Prefix lengths -/

theorem slash_notMem_end {a p br : Str} (hp : ((ipv4FromString a).isSome ∧ ∃ n < 33, p = natStr n) ∨
    (PatternAddress a ∧ p ∈ ipv6Prefixes)) (hbr : br = [] ∨ br = ['\n']) : '/' ∉ p ++ br := by
  have hv4 : ∀ n < 33, '/' ∉ natStr n := by decide +kernel
  have hv6 : ∀ p ∈ ipv6Prefixes, '/' ∉ p := by decide +kernel
  have hbreak : '/' ∉ br := by
    rcases hbr with rfl | rfl
    · decide
    · decide
  have hmem : '/' ∉ p := by
    rcases hp with ⟨-, n, hn, rfl⟩ | ⟨-, hp⟩
    · exact hv4 n hn
    · exact hv6 p hp
  simp [hmem, hbreak]

theorem slash_notMem_of_prefixFromString {width k : ℕ} {p : Str}
    (h : prefixFromString width p = some k) : '/' ∉ p :=
  fun hslash => absurd (isDigit_of_prefixFromString h '/' hslash) (by decide)

/-- The network is read in one way: the last slash is before the prefix length. -/
theorem network_iff {a p : Str} (hp : '/' ∉ p) : IsAddressOrNetwork (a ++ '/' :: p) ↔
    ∃ ip, ipAddress a = some ip ∧ (prefixFromString ip.version.width p).isSome := by
  constructor
  · rintro (h | ⟨a', p', ip, heq, ha', hp'⟩)
    · obtain ⟨ip, hip⟩ := Option.isSome_iff_exists.mp h
      exact absurd (List.mem_append_right a List.mem_cons_self) (slash_notMem_of_ipAddress hip)
    · obtain ⟨k, hk⟩ := Option.isSome_iff_exists.mp hp'
      obtain ⟨rfl, rfl⟩ := append_cons_inj_last hp (slash_notMem_of_prefixFromString hk) heq
      exact ⟨ip, ha', hp'⟩
  · rintro ⟨ip, ha, hp⟩
    exact .inr ⟨a, p, ip, rfl, ha, hp⟩

/-- With a prefix length no line break is at the end. -/
theorem isIp_of_prefixlen {a p : Str} {width k : ℕ} (hk : prefixFromString width p = some k) :
    isIp (a ++ '/' :: p) = true ↔ ((ipv4FromString a).isSome ∧ ∃ n < 33, p = natStr n) ∨
      (PatternAddress a ∧ p ∈ ipv6Prefixes) := by
  rw [isIp_of_mem (List.mem_append_right a List.mem_cons_self)]
  constructor
  · rintro ⟨a', q, br, hcase, hbr, heq⟩
    obtain ⟨rfl, rfl⟩ := append_cons_inj_last (slash_notMem_of_prefixFromString hk)
      (slash_notMem_end hcase hbr) heq
    rcases hbr with rfl | rfl
    · rwa [List.append_nil]
    · have hdigit := isDigit_of_prefixFromString hk '\n' (List.mem_append_right q List.mem_cons_self)
      exact absurd hdigit (by decide)
  · exact fun hcase => ⟨a, p, [], hcase, .inl rfl, by rw [List.append_nil]⟩

theorem isAddressOrNetwork_of_notMem {s : Str} (h : '/' ∉ s) :
    IsAddressOrNetwork s ↔ (ipAddress s).isSome := by
  refine ⟨?_, .inl⟩
  rintro (hs | ⟨a, p, ip, rfl, -, -⟩)
  · exact hs
  · exact absurd (List.mem_append_right a List.mem_cons_self) h

/-! ### An IPv4 address in place of the last two hextets -/

/-- How often a text holds characters that stand in no octet of a tail. -/
def separators (s : Str) : ℕ := s.countP fun c => !isTailChar c

theorem separators_append (s t : Str) : separators (s ++ t) = separators s + separators t :=
  List.countP_append

theorem separators_cons_of_not {c : Char} (h : isTailChar c = false) (s : Str) :
    separators (c :: s) = separators s + 1 :=
  List.countP_cons_of_pos (by rw [h]; rfl)

theorem separators_cons_le (c : Char) (s : Str) : separators (c :: s) ≤ separators s + 1 := by
  unfold separators
  rw [List.countP_cons]
  split_ifs
  · exact le_rfl
  · exact Nat.le_succ _

/-- A tail has three at most. -/
theorem separators_tail_le {t : Str} (h : Tail t) : separators t ≤ 3 := by
  obtain ⟨q₁, c₁, q₂, c₂, q₃, c₃, q₄, h₁, h₂, h₃, h₄, rfl⟩ := tail_iff.mp h
  have hzero : ∀ {q : Str}, q ∈ language octetD → separators q = 0 := by
    intro q hq
    refine List.countP_eq_zero.mpr fun c hc => ?_
    rw [isTailChar_of_octetD hq c hc]
    decide
  have hle₁ := separators_cons_le c₁ (q₂ ++ c₂ :: (q₃ ++ c₃ :: q₄))
  have hle₂ := separators_cons_le c₂ (q₃ ++ c₃ :: q₄)
  have hle₃ := separators_cons_le c₃ q₄
  rw [separators_append, hzero h₁]
  rw [separators_append, hzero h₂] at hle₁
  rw [separators_append, hzero h₃] at hle₂
  rw [hzero h₄] at hle₃
  omega

/-- An IPv4 address has three. -/
theorem three_le_separators {t : Str} {n : ℕ} (h : ipv4FromString t = some n) : 3 ≤ separators t := by
  obtain ⟨a, b, c, d, x, y, z, w, hsplit, -⟩ := exists_octets h
  have hdot : isTailChar '.' = false := by decide
  rw [eq_of_splitOn_four hsplit, separators_append, separators_cons_of_not hdot, separators_append,
    separators_cons_of_not hdot, separators_append, separators_cons_of_not hdot]
  omega

/-- What precedes a tail is what precedes the address in its place. -/
theorem eq_of_tail_cut {pre pre' t q u : Str} {n : ℕ} (ht : ipv4FromString t = some n) (hq : Tail q)
    (hpre : ∀ c ∈ pre', (hexDigit c).isSome ∨ c = ':')
    (h : pre' ++ ':' :: q = pre ++ ':' :: (t ++ u)) : q = t ++ u := by
  have hcolon : isTailChar ':' = false := by decide
  rcases List.append_eq_append_iff.mp h with ⟨x, -, hx⟩ | ⟨x, rfl, hx⟩
  · -- the tail would hold the colon and the dots of the address
    cases x with
    | nil => exact (List.cons.inj hx).2
    | cons c x =>
      have hcut : q = x ++ ':' :: (t ++ u) := (List.cons.inj hx).2
      have hle := separators_tail_le hq
      have hge := three_le_separators ht
      rw [hcut, separators_append, separators_cons_of_not hcolon, separators_append] at hle
      omega
  · cases x with
    | nil => exact (List.cons.inj hx).2.symm
    | cons c x =>
      obtain ⟨-, hx⟩ := List.cons.inj hx
      rcases List.append_eq_append_iff.mp hx with ⟨y, rfl, -⟩ | ⟨y, rfl, hy⟩
      · -- the groups would hold the dots of the address
        have hdot := hpre '.' (List.mem_append_right _ (List.mem_cons_of_mem c
          (List.mem_append_left y (dot_mem_of_ipv4 ht))))
        exact absurd hdot (by decide)
      · cases y with
        | nil =>
          rw [List.append_nil] at ht
          have hdot := hpre '.' (List.mem_append_right _ (List.mem_cons_of_mem c (dot_mem_of_ipv4 ht)))
          exact absurd hdot (by decide)
        | cons d y =>
          obtain ⟨rfl, -⟩ := List.cons.inj hy
          exact absurd (List.mem_append_right x List.mem_cons_self) (colon_notMem_of_ipv4 ht)

/-- What may follow an address: nothing, or a scope id. -/
theorem head?_scope {scope : Str} (h : scope = [] ∨ ∃ z, scope = '%' :: z) {c : Char}
    (hc : scope.head? = some c) : c = '%' := by
  rcases h with rfl | ⟨z, rfl⟩
  · cases hc
  · exact (Option.some.inj hc).symm

/-- **The pattern for networks knows no address with a low octet.** -/
theorem not_patternAddress {a pre t : Str} {n m : ℕ} (ha : ipAddress a = some ⟨.v6, n⟩)
    (hpre : splitFirst ['%'] a = pre ++ ':' :: t) (ht : ipv4FromString t = some m)
    (hlow : HasLowOctet m) : ¬PatternAddress a := by
  rintro ⟨letters, core, zone, post, heq, hletters, hcore, hzone, hpost⟩
  obtain ⟨scope, hcut, -, hscope⟩ := exists_scope ha
  have hchars := isAddressChar_of_ipAddress ha
  rw [hpre] at hcut hchars
  have hpercent : ∀ c, scope.head? = some c → c = '%' := by
    refine fun c => head?_scope ?_
    rcases hscope with hnil | ⟨d, z, hz⟩
    · exact .inl hnil
    · exact .inr ⟨d :: z, hz⟩
  -- no letter stands before the address
  have hnil : letters = [] := by
    cases letters with
    | nil => rfl
    | cons c letters =>
      rw [hletters c List.mem_cons_self, hcut] at heq
      have hs : 's' ∈ pre ++ ':' :: t := by
        cases pre with
        | nil => exact absurd (List.cons.inj heq).1 (by decide)
        | cons d pre =>
          rw [(List.cons.inj heq).1]
          exact List.mem_cons_self
      exact absurd (hchars 's' hs) (by decide)
  rw [hnil, List.nil_append, hcut] at heq
  have hafter : ∀ c, (zone ++ post).head? = some c → isAddressChar c = false := by
    intro c hc
    rcases hzone with rfl | ⟨d, z, rfl⟩
    · rw [hpost c (List.mem_of_head? hc)]
      decide
    · rw [← Option.some.inj hc]
      decide
  -- the pattern does not stop before the end of the address
  obtain ⟨x, rfl, hx⟩ : ∃ x, core = pre ++ ':' :: t ++ x ∧ scope = x ++ (zone ++ post) := by
    rcases List.append_eq_append_iff.mp heq with ⟨x, hcore, hx⟩ | ⟨x, haddr, hx⟩
    · exact ⟨x, hcore, hx⟩
    · cases x with
      | nil => exact ⟨[], by rw [haddr, List.append_nil, List.append_nil], hx.symm⟩
      | cons c x =>
        have hc := hafter c (by rw [hx]; rfl)
        rw [hchars c (by rw [haddr]; simp)] at hc
        cases hc
  rcases hcore.cases_tail with ⟨hhex, -⟩ | ⟨pre', q, hq, htail, hhex, -⟩
  · have hdot := hhex '.' (by simp [dot_mem_of_ipv4 ht])
    exact absurd hdot (by decide)
  · rw [List.append_assoc, List.cons_append] at hq
    have hsame := eq_of_tail_cut ht htail hhex hq.symm
    have hend : ∀ c, x.head? = some c → isTailChar c = false := by
      intro c hc
      have hhead : scope.head? = some c := by
        rw [hx, List.head?_append, hc]
        rfl
      rw [hpercent c hhead]
      decide
    have hprefix : q ++ [] = t ++ x := by rw [hsame, List.append_nil]
    exact (eq_of_tail_start ht hend htail hprefix).2 hlow

/-- A group and its colon are no part of an IPv4 address. -/
theorem ipv4_ne_group {t rest g w : Str} {n : ℕ} (ht : ipv4FromString t = some n)
    (hrest : rest = [] ∨ ∃ z, rest = '%' :: z) (hg : Hextet g) : t ++ rest ≠ g ++ ':' :: w := by
  intro h
  rcases List.append_eq_append_iff.mp h with ⟨x, rfl, -⟩ | ⟨x, rfl, hx⟩
  · exact hg.notMem (by decide) (List.mem_append_left x (dot_mem_of_ipv4 ht))
  · cases x with
    | nil =>
      have hpercent := head?_scope hrest (c := ':') (by rw [← List.nil_append rest, ← hx]; rfl)
      exact absurd hpercent (by decide)
    | cons c x =>
      obtain ⟨rfl, -⟩ := List.cons.inj hx
      exact colon_notMem_of_ipv4 ht (List.mem_append_right g List.mem_cons_self)

/-- **No address of the form stands at the beginning of six groups and an address with a low octet.** -/
theorem not_beginning {hs : List Str} {t rest letters core u : Str} {m : ℕ} (hlen : hs.length = 6)
    (hhs : ∀ g ∈ hs, Hextet g) (ht : ipv4FromString t = some m) (hlow : HasLowOctet m)
    (hrest : rest = [] ∨ ∃ z, rest = '%' :: z) (hletters : ∀ c ∈ letters, c = 's')
    (hcore : Ipv6Form Tail core) : groupsBefore hs ++ (t ++ rest) ≠ letters ++ (core ++ u) := by
  intro heq
  -- groups begin with a hexadecimal digit
  have hfirst : ∀ {ls : List Str} {c : Char} {v w : Str}, (∀ g ∈ ls, Hextet g) → ls ≠ [] →
      groupsBefore ls ++ v = c :: w → (hexDigit c).isSome := by
    intro ls c v w hls hne h
    obtain ⟨g, ls, rfl⟩ := List.exists_cons_of_ne_nil hne
    have hg := hls g List.mem_cons_self
    obtain ⟨d, g, rfl⟩ := List.exists_cons_of_ne_nil hg.ne_nil
    rw [groupsBefore_cons] at h
    rw [← (List.cons.inj h).1]
    exact hg.2.2 d List.mem_cons_self
  -- so no `s` stands before them
  have hnil : letters = [] := by
    cases letters with
    | nil => rfl
    | cons c letters =>
      rw [hletters c List.mem_cons_self] at heq
      have hhex := hfirst hhs (List.length_pos_iff.mp (by omega)) heq
      exact absurd hhex (by decide)
  obtain ⟨gs, v, rfl, hgs, hcase⟩ := hcore.exists_groups
  rw [hnil, List.nil_append, List.append_assoc] at heq
  -- the groups of the form against the six: as many as fit are the same
  by_cases hseven : gs.length = 7
  · obtain ⟨ls, rfl, hafter⟩ := exists_groups hhs hgs (by omega) heq
    rw [List.length_append] at hseven
    obtain ⟨g, ls, rfl⟩ := List.exists_cons_of_ne_nil (List.length_pos_iff.mp
      (Nat.pos_of_ne_zero fun hzero => by omega) : ls ≠ [])
    rw [groupsBefore_cons, List.append_assoc, List.cons_append] at hafter
    exact ipv4_ne_group ht hrest (hgs g (by simp)) hafter
  · have hle : gs.length ≤ hs.length := by
      rcases hcase with hseven' | ⟨hle, -⟩ | ⟨hsix, -⟩ <;> omega
    obtain ⟨ls, rfl, hafter⟩ := exists_groups hgs hhs hle heq.symm
    rcases hcase with hseven' | ⟨-, w, rfl⟩ | ⟨hsix, hq⟩
    · exact hseven hseven'
    · by_cases hne : ls = []
      · subst hne
        obtain ⟨c, t, rfl⟩ := List.exists_cons_of_ne_nil (List.ne_nil_of_mem (dot_mem_of_ipv4 ht))
        rw [groupsBefore_nil, List.nil_append] at hafter
        obtain ⟨rfl, -⟩ := List.cons.inj hafter
        exact colon_notMem_of_ipv4 ht List.mem_cons_self
      · have hhex := hfirst (fun g hg => hhs g (List.mem_append_right gs hg)) hne hafter.symm
        exact absurd hhex (by decide)
    · rw [List.length_append] at hlen
      obtain rfl : ls = [] := List.length_eq_zero_iff.mp (by omega)
      -- six groups on both sides, so the form reads octets of the address
      refine (eq_of_tail_start ht (fun c hc => ?_) hq hafter).2 hlow
      rw [head?_scope hrest hc]
      decide

/-! ### Texts that are accepted and should not be -/

/-- Prefix lengths written in digits. -/
theorem isSome_prefix_of_notMem : ∀ p ∈ ipv6Prefixes, 'd' ∉ p → (prefixFromString 128 p).isSome := by
  decide +kernel

theorem prefixFromString_natStr : ∀ n < 33, prefixFromString 32 (natStr n) = some n := by
  decide +kernel

theorem colon_mem_of_form {T : Str → Prop} {s : Str} (h : Ipv6Form T s) : ':' ∈ s := by
  obtain ⟨gs, u, rfl, -, hcase⟩ := h.exists_groups
  by_cases hne : gs = []
  · subst hne
    rcases hcase with hlen | ⟨-, v, rfl⟩ | ⟨hlen, -⟩
    · cases hlen
    · exact List.mem_append_right _ List.mem_cons_self
    · cases hlen
  · obtain ⟨g, gs, rfl⟩ := List.exists_cons_of_ne_nil hne
    rw [groupsBefore_cons]
    simp

theorem ipv4_of_patternAddress {a : Str} (h : PatternAddress a) : ipv4FromString a = none := by
  obtain ⟨pre, core, zone, post, rfl, -, hcore, -, -⟩ := h
  rw [Option.eq_none_iff_forall_ne_some]
  intro n hn
  have hcolon : ':' ∈ pre ++ (core ++ (zone ++ post)) := by
    simp [colon_mem_of_form hcore]
  exact colon_notMem_of_ipv4 hn hcolon

theorem misjudged_of_accepted {s : Str} (h : isIp s = true) (hbad : ¬IsAddressOrNetwork s) :
    Misjudged s := by
  by_cases hslash : '/' ∈ s
  · obtain ⟨a, p, br, hcase, hbr, rfl⟩ := (isIp_of_mem hslash).mp h
    rw [network_iff (slash_notMem_end hcase hbr)] at hbad
    rcases hcase with ⟨ha, n, hn, rfl⟩ | ⟨ha, hp⟩
    · obtain ⟨m, hm⟩ := Option.isSome_iff_exists.mp ha
      have haddress := ipAddress_of_ipv4FromString hm
      rcases hbr with rfl | rfl
      · refine absurd ⟨_, haddress, ?_⟩ hbad
        show (prefixFromString 32 (natStr n ++ [])).isSome = true
        rw [List.append_nil, prefixFromString_natStr n hn]
        rfl
      · exact .networkLineBreak haddress hn
    · refine .pattern ha hp hbr ?_
      by_contra hnot
      rw [not_or, not_or, not_ne_iff] at hnot
      obtain ⟨haddress, hd, rfl⟩ := hnot
      obtain ⟨⟨v, n⟩, hip⟩ := Option.ne_none_iff_exists'.mp haddress
      refine hbad ⟨_, hip, ?_⟩
      rw [List.append_nil]
      cases v with
      | v4 =>
        have hv4 := ipv4FromString_of_ipAddress hip
        rw [ipv4_of_patternAddress ha] at hv4
        cases hv4
      | v6 => exact isSome_prefix_of_notMem p hp hd
  · rw [isAddressOrNetwork_of_notMem hslash, Option.not_isSome_iff_eq_none] at hbad
    rcases (isIp_of_notMem hslash).mp h with ⟨w, br, hw, hbr, rfl⟩ | ⟨pre, core, rest, rfl, hpre, hcore⟩
    · obtain ⟨n, hn⟩ := Option.isSome_iff_exists.mp hw
      rcases hbr with rfl | rfl
      · rw [List.append_nil, ipAddress_of_ipv4FromString hn] at hbad
        cases hbad
      · exact .lineBreak (ipAddress_of_ipv4FromString hn)
    · exact .beginning hpre hcore hslash hbad

/-! ### Texts that should be accepted and are not -/

/-- What `ipaddress` reads as an IPv6 address. -/
theorem exists_form {a : Str} {n : ℕ} (h : ipAddress a = some ⟨.v6, n⟩) :
    ∃ core scope, a = core ++ scope ∧ splitFirst ['%'] a = core ∧
      (scope = [] ∨ ∃ c z, scope = '%' :: c :: z) ∧
      Ipv6Form (fun t => (ipv4FromString t).isSome) core := by
  obtain ⟨scope, hcut, hv6, hscope⟩ := exists_scope h
  exact ⟨_, scope, hcut, rfl, hscope, form_of_ipv6FromString hv6⟩

/-- Without a slash an address is refused only where its last octets stand after six groups. -/
theorem misjudged_of_refused_address {s : Str} {n : ℕ} (h : ipAddress s = some ⟨.v6, n⟩)
    (hbad : isIp s = false) : Misjudged s := by
  have hslash := slash_notMem_of_ipAddress h
  obtain ⟨core, scope, rfl, -, hscope, hform⟩ := exists_form h
  have hrefuse : ∀ {form : Str} (rest : Str), Ipv6Form Tail form → core ++ scope ≠ form ++ rest := by
    intro form rest hpattern heq
    have haccept : isIp (core ++ scope) = true :=
      (isIp_of_notMem hslash).mpr (.inr ⟨[], form, rest, heq, by simp, hpattern⟩)
    rw [hbad] at haccept
    cases haccept
  have hrest : scope = [] ∨ ∃ z, scope = '%' :: z := by
    rcases hscope with hnil | ⟨c, z, hz⟩
    · exact .inl hnil
    · exact .inr ⟨c :: z, hz⟩
  cases hform with
  | full hlen hhs hh => exact absurd rfl (hrefuse scope (.full hlen hhs hh))
  | compressed hlen hhs hls => exact absurd rfl (hrefuse scope (.compressed hlen hhs hls))
  | @mapped hs t hlen hhs ht =>
    obtain ⟨m, hm⟩ := Option.isSome_iff_exists.mp ht
    by_cases hlow : HasLowOctet m
    · rw [List.append_assoc] at h ⊢
      exact .mappedAddress hlen hhs hm hlow hrest h
    · exact absurd rfl (hrefuse scope (.mapped hlen hhs (tail_of_not_hasLowOctet hm hlow)))
  | @compressedMapped hs ls t hlen hhs hls ht =>
    -- the pattern stops before the address
    have hpattern : Ipv6Form Tail (groupsBefore (padded hs) ++ groupsAfter (padded ls)) :=
      .compressed (by omega) hhs hls
    by_cases hnil : ls = []
    · subst hnil
      exact absurd (by simp [padded, groupsAfter]) (hrefuse (t ++ scope) hpattern)
    · rw [padded_of_ne_nil hnil] at hpattern
      exact absurd (by simp) (hrefuse (':' :: (t ++ scope)) hpattern)

theorem misjudged_of_refused {s : Str} (h : IsAddressOrNetwork s) (hbad : isIp s = false) :
    Misjudged s := by
  rcases h with h | ⟨a, p, ⟨v, n⟩, rfl, ha, hp⟩
  · obtain ⟨⟨v, n⟩, hip⟩ := Option.isSome_iff_exists.mp h
    cases v with
    | v4 =>
      have haccept : isIp s = true := by
        refine (isIp_of_notMem (slash_notMem_of_ipAddress hip)).mpr (.inl ⟨s, [], ?_, .inl rfl, ?_⟩)
        · rw [ipv4FromString_of_ipAddress hip]
          rfl
        · rw [List.append_nil]
      rw [hbad] at haccept
      cases haccept
    | v6 => exact misjudged_of_refused_address hip hbad
  · obtain ⟨k, hk⟩ := Option.isSome_iff_exists.mp hp
    have hrefuse : ¬(((ipv4FromString a).isSome ∧ ∃ n < 33, p = natStr n) ∨
        (PatternAddress a ∧ p ∈ ipv6Prefixes)) := by
      rw [← isIp_of_prefixlen hk, hbad]
      exact Bool.false_ne_true
    cases v with
    | v4 =>
      refine .zeros ha hk fun heq => hrefuse (.inl ⟨?_, k, ?_, heq⟩)
      · rw [ipv4FromString_of_ipAddress ha]
        rfl
      · have hle := of_decide_eq_true (Option.filter_eq_some_iff.mp hk).2
        exact Nat.lt_succ_of_le hle
    | v6 =>
      by_cases hmem : p ∈ ipv6Prefixes
      · obtain ⟨core, scope, rfl, hfirst, hscope, hform⟩ := exists_form ha
        have hpattern : ¬Ipv6Form Tail core := fun hcore => hrefuse (.inr
          ⟨⟨[], core, scope, [], by simp, by simp, hcore, hscope, by simp⟩, hmem⟩)
        rcases hform.cases_tail with ⟨-, hany⟩ | ⟨pre, t, hcut, ht, -, hany⟩
        · exact absurd (hany Tail) hpattern
        · obtain ⟨m, hm⟩ := Option.isSome_iff_exists.mp ht
          refine .mappedNetwork ha hk (hfirst.trans hcut) hm ?_
          by_contra hlow
          exact hpattern (hany Tail (tail_of_not_hasLowOctet hm hlow))
      · exact .prefixLength ha hk hmem

/-! ### Judged rightly, but for these -/

/-- A line break is part of no address. -/
theorem ipAddress_lineBreak {a : Str} {n : ℕ} (h : ipAddress a = some ⟨.v4, n⟩) :
    ipAddress (a ++ ['\n']) = none := by
  have hchars : ∀ c ∈ a, isAddressChar c = true := isAddressChar_of_ipv4 (ipv4FromString_of_ipAddress h)
  have hpercent : '%' ∉ a ++ ['\n'] := by
    rw [List.mem_append, List.mem_singleton]
    rintro (hmem | heq)
    · exact absurd (hchars '%' hmem) (by decide)
    · exact absurd heq (by decide)
  rw [Option.eq_none_iff_forall_ne_some]
  intro ip hip
  have hbreak := isAddressChar_of_ipAddress hip '\n'
  rw [splitFirst_of_notMem hpercent] at hbreak
  exact absurd (hbreak (List.mem_append_right a List.mem_cons_self)) (by decide)

/-- What is on the list is judged wrongly. -/
theorem Misjudged.wrong {s : Str} (h : Misjudged s) : ¬(isIp s = true ↔ IsAddressOrNetwork s) := by
  cases h with
  -- accepted, and read by `ipaddress` only without the line break
  | @lineBreak a n ha =>
    have hslash : '/' ∉ a ++ ['\n'] := by simp [slash_notMem_of_ipAddress ha]
    rw [isAddressOrNetwork_of_notMem hslash, ipAddress_lineBreak ha, isIp_of_notMem hslash]
    refine fun h => Bool.false_ne_true (h.mp (.inl ⟨a, ['\n'], ?_, .inr rfl, rfl⟩))
    rw [ipv4FromString_of_ipAddress ha]
    rfl
  | @networkLineBreak a n p ha hp =>
    have hcase : (ipv4FromString a).isSome ∧ ∃ k < 33, natStr p = natStr k := by
      rw [ipv4FromString_of_ipAddress ha]
      exact ⟨rfl, p, hp, rfl⟩
    rw [network_iff (slash_notMem_end (.inl hcase) (.inr rfl)),
      isIp_of_mem (List.mem_append_right a List.mem_cons_self)]
    intro h
    obtain ⟨ip, -, hprefix⟩ := h.mp ⟨a, natStr p, ['\n'], .inl hcase, .inr rfl, rfl⟩
    obtain ⟨k, hk⟩ := Option.isSome_iff_exists.mp hprefix
    have hdigit := isDigit_of_prefixFromString hk '\n' (List.mem_append_right _ List.mem_cons_self)
    exact absurd hdigit (by decide)
  -- accepted for its beginning
  | @beginning pre core rest hpre hcore hslash hnone =>
    rw [isAddressOrNetwork_of_notMem hslash, hnone, isIp_of_notMem hslash]
    exact fun h => Bool.false_ne_true (h.mp (.inr ⟨pre, core, rest, rfl, hpre, hcore⟩))
  -- accepted as a network, with a text that is no address or no prefix length
  | @pattern a p br ha hp hbr hbad =>
    rw [network_iff (slash_notMem_end (.inr ⟨ha, hp⟩) hbr),
      isIp_of_mem (List.mem_append_right a List.mem_cons_self)]
    intro h
    obtain ⟨ip, hip, hprefix⟩ := h.mp ⟨a, p, br, .inr ⟨ha, hp⟩, hbr, rfl⟩
    obtain ⟨k, hk⟩ := Option.isSome_iff_exists.mp hprefix
    have hdigit := isDigit_of_prefixFromString hk
    rcases hbad with hnone | hd | hne
    · rw [hnone] at hip
      cases hip
    · exact absurd (hdigit 'd' (List.mem_append_left br hd)) (by decide)
    · rcases hbr with rfl | rfl
      · exact hne rfl
      · exact absurd (hdigit '\n' (List.mem_append_right p List.mem_cons_self)) (by decide)
  -- refused for an octet that the pattern does not match
  | @mappedAddress hs t rest n m hlen hhs ht hlow hrest haddress =>
    have hslash := slash_notMem_of_ipAddress haddress
    rw [isAddressOrNetwork_of_notMem hslash, haddress, isIp_of_notMem hslash]
    intro h
    rcases h.mpr rfl with ⟨w, br, hw, hbr, heq⟩ | ⟨letters, core, u, heq, hletters, hcore⟩
    · have hcolon := colon_mem_of_ipAddress haddress
      rw [heq] at hcolon
      obtain ⟨k, hk⟩ := Option.isSome_iff_exists.mp hw
      rcases List.mem_append.mp hcolon with hmem | hmem
      · exact colon_notMem_of_ipv4 hk hmem
      · rcases hbr with rfl | rfl
        · cases hmem
        · exact absurd (List.mem_singleton.mp hmem) (by decide)
    · exact not_beginning hlen hhs ht hlow hrest hletters hcore heq
  -- refused for the zeros before the prefix length
  | @zeros a p n k ha hp hne =>
    rw [network_iff (slash_notMem_of_prefixFromString hp), isIp_of_prefixlen hp]
    intro h
    rcases h.mpr ⟨_, ha, by rw [IpVersion.width, hp]; rfl⟩ with ⟨-, j, hj, rfl⟩ | ⟨hpattern, -⟩
    · rw [prefixFromString_natStr j hj] at hp
      exact hne (congrArg natStr (Option.some.inj hp))
    · have hnone := ipv4_of_patternAddress hpattern
      rw [ipv4FromString_of_ipAddress ha] at hnone
      cases hnone
  -- refused: an IPv6 prefix length below 120
  | @prefixLength a p n k ha hp hne =>
    rw [network_iff (slash_notMem_of_prefixFromString hp), isIp_of_prefixlen hp]
    intro h
    rcases h.mpr ⟨_, ha, by rw [IpVersion.width, hp]; rfl⟩ with ⟨hv4, -⟩ | ⟨-, hmem⟩
    · obtain ⟨m, hm⟩ := Option.isSome_iff_exists.mp hv4
      rw [ipAddress_of_ipv4FromString hm] at ha
      cases ha
    · exact hne hmem
  | @mappedNetwork a p pre t n k m ha hp hpre ht hlow =>
    rw [network_iff (slash_notMem_of_prefixFromString hp), isIp_of_prefixlen hp]
    intro h
    rcases h.mpr ⟨_, ha, by rw [IpVersion.width, hp]; rfl⟩ with ⟨hv4, -⟩ | ⟨hpattern, -⟩
    · obtain ⟨m, hm⟩ := Option.isSome_iff_exists.mp hv4
      rw [ipAddress_of_ipv4FromString hm] at ha
      cases ha
    · exact not_patternAddress ha hpre ht hlow hpattern

/-- **`is_ip` judges every other text rightly**: it accepts the texts `ipaddress` reads, and these
only, exactly where the text is not on the list. -/
theorem isIp_correct_iff (s : Str) : (isIp s = true ↔ IsAddressOrNetwork s) ↔ ¬Misjudged s := by
  constructor
  · exact fun h hmis => hmis.wrong h
  · intro hnot
    constructor
    · intro haccept
      by_contra hbad
      exact hnot (misjudged_of_accepted haccept hbad)
    · intro h
      by_contra hrefuse
      exact hnot (misjudged_of_refused h (Bool.eq_false_of_not_eq_true hrefuse))

/-- The network of the documentation addresses is refused. -/
theorem ipv6_network_refused :
    ¬∀ s : Str, isIp s = true ↔ IsAddressOrNetwork s := by
  intro h
  have hrefused : isIp "2001:db8::/64".toList = false := by decide +kernel
  have hnetwork : IsAddressOrNetwork "2001:db8::/64".toList :=
    .inr ⟨"2001:db8::".toList, "64".toList, ⟨.v6, 0x20010db8000000000000000000000000⟩, rfl,
      by decide, by decide⟩
  rw [(h _).mpr hnetwork] at hrefused
  cases hrefused

end IRedAPD

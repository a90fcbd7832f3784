/-
  The documented forms of addresses and domains.

  Each form is one of the text as a whole.  The patterns of `libs/regxes.py` are
  the same forms, as far as a match reaches the end of the text
  (`reachesEnd_email`, `reachesEnd_domain` and so on).
-/
import IRedAPD.Equiv.Addresses
import IRedAPD.Py.IpText

namespace IRedAPD

open Py Py.Regex Regxes

variable [Unicode]

/-! ### Forms -/

/-- Word characters, and the characters of a list. -/
def Over (cs : List Char) (s : Str) : Prop := ∀ c ∈ s, isWord c = true ∨ c ∈ cs

/-- From `m` to `n` characters of a kind. -/
def Label (p : Char → Bool) (m n : ℕ) (s : Str) : Prop :=
  m ≤ s.length ∧ s.length ≤ n ∧ ∀ c ∈ s, p c = true

/-- The characters of a top level domain. -/
def isLabelChar (c : Char) : Bool := isLetterIgnoreCase c || c.isDigit || c == '-'

/-- `domain.ltd`, with the characters of `ltd`. -/
def DomainName (p : Char → Bool) (s : Str) : Prop :=
  ∃ c name ltd, s = c :: (name ++ '.' :: ltd) ∧ Over ['-'] [c] ∧ Over ['-', '.'] name ∧
    Label p 2 15 ltd

/-- `user@domain.ltd` -/
def EmailAddress (s : Str) : Prop :=
  ∃ c user domain, s = c :: (user ++ '@' :: domain) ∧ Over ['-', '#'] [c] ∧
    Over ['-', '.', '+', '=', '/', '&', '#'] user ∧ DomainName isLabelChar domain

/-- `user@*` -/
def WildcardAddress (s : Str) : Prop :=
  ∃ c user, s = c :: (user ++ "@*".toList) ∧ Over ['-'] [c] ∧ Over ['-', '.', '+', '='] user

/-- A field of `192.168.1.*` -/
def WildcardField (s : Str) : Prop := Label (fun c => Unicode.isDecimal c || c == '*') 1 3 s

/-- `192.168.1.*` -/
def WildcardClient (s : Str) : Prop :=
  ∃ f₁ f₂ f₃ f₄, s = f₁ ++ '.' :: (f₂ ++ '.' :: (f₃ ++ '.' :: f₄)) ∧ WildcardField f₁ ∧
    WildcardField f₂ ∧ WildcardField f₃ ∧ WildcardField f₄

/-- The form of each type.  An IPv4 or IPv6 address is what the standard library takes as one. -/
def AddressType.Documented : AddressType → Str → Prop
  | .catchall, s => s = "@.".toList
  | .subdomain, s => ∃ domain, s = "@.".toList ++ domain ∧ DomainName isLetterIgnoreCase domain
  | .topLevelDomain, s => ∃ tld, s = "@.".toList ++ tld ∧ Label isLabelChar 2 25 tld
  | .catchallIp, s => s = "@ip".toList
  | .domain, s => ∃ domain, s = "@".toList ++ domain ∧ DomainName isLetterIgnoreCase domain
  | .email, s => EmailAddress s
  | .wildcardAddr, s => WildcardAddress s
  | .ip, s => (ipAddress s).isSome
  | .cidrNetwork, s => (ipNetwork s).isSome
  | .wildcardIp, s => WildcardClient s

/-! ### Patterns -/

/-- A class is written as `\w` and single characters. -/
theorem over_iff {cs : List Char} {s : Str} :
    Over cs s ↔ ∀ c ∈ s, (isWord c || cs.contains c) = true := by
  unfold Over
  simp only [Bool.or_eq_true, List.contains_iff_mem]

omit [Unicode] in
theorem mem_language_char {c : Char} {w : Str} : w ∈ language (char c) ↔ w = [c] := by
  unfold char
  rw [mem_language_cls]
  constructor
  · rintro ⟨d, hd, rfl⟩
    rw [beq_iff_eq.mp hd]
  · rintro rfl
    exact ⟨c, beq_self_eq_true c, rfl⟩

omit [Unicode] in
/-- A character, and what follows it. -/
theorem mem_language_char_seq {c : Char} {r : Regex Char} {w : Str} :
    w ∈ language (seq (char c) r) ↔ ∃ v ∈ language r, w = c :: v := by
  rw [mem_language_seq]
  constructor
  · rintro ⟨u, hu, v, hv, rfl⟩
    rw [mem_language_char.mp hu]
    exact ⟨v, hv, rfl⟩
  · rintro ⟨v, hv, rfl⟩
    exact ⟨[c], mem_language_char.mpr rfl, v, hv, rfl⟩

theorem mem_language_domain {p : Char → Bool} {w : Str} :
    w ∈ language (seq (wordOr ['-']) (seq (star (wordOr ['-', '.'])) (seq (char '.')
      (rep (cls p) 2 15)))) ↔ DomainName p w := by
  unfold wordOr DomainName
  rw [mem_language_cls_seq]
  constructor
  · rintro ⟨c, v, hc, hv, rfl⟩
    obtain ⟨name, hname, u, hu, rfl⟩ := mem_language_seq.mp hv
    obtain ⟨ltd, hltd, rfl⟩ := mem_language_char_seq.mp hu
    exact ⟨c, name, ltd, rfl, over_iff.mpr (by simpa using hc),
      over_iff.mpr (mem_language_star_cls.mp hname), (mem_language_rep_cls (by decide)).mp hltd⟩
  · rintro ⟨c, name, ltd, rfl, hc, hname, hltd⟩
    refine ⟨c, name ++ '.' :: ltd, over_iff.mp hc c List.mem_cons_self,
      mem_language_seq.mpr ⟨name, mem_language_star_cls.mpr (over_iff.mp hname), '.' :: ltd, ?_, rfl⟩,
      rfl⟩
    exact mem_language_char_seq.mpr ⟨ltd, (mem_language_rep_cls (by decide)).mpr hltd, rfl⟩

theorem reachesEnd_domain {s : Str} :
    ReachesEnd cmpDomain s ↔ DomainName isLetterIgnoreCase s := by
  rw [reachesEnd_iff]
  exact mem_language_domain

theorem reachesEnd_email {s : Str} : ReachesEnd cmpEmail s ↔ EmailAddress s := by
  rw [reachesEnd_iff]
  unfold cmpEmail EmailAddress
  constructor
  · intro h
    obtain ⟨c, v, hc, hv, rfl⟩ := mem_language_cls_seq.mp h
    obtain ⟨user, huser, u, hu, rfl⟩ := mem_language_seq.mp hv
    obtain ⟨domain, hdomain, rfl⟩ := mem_language_char_seq.mp hu
    exact ⟨c, user, domain, rfl, over_iff.mpr (by simpa using hc),
      over_iff.mpr (mem_language_star_cls.mp huser), mem_language_domain.mp hdomain⟩
  · rintro ⟨c, user, domain, rfl, hc, huser, hdomain⟩
    refine mem_language_cls_seq.mpr ⟨c, user ++ '@' :: domain, over_iff.mp hc c List.mem_cons_self,
      mem_language_seq.mpr ⟨user, mem_language_star_cls.mpr (over_iff.mp huser), '@' :: domain, ?_,
        rfl⟩, rfl⟩
    exact mem_language_char_seq.mpr ⟨domain, mem_language_domain.mpr hdomain, rfl⟩

omit [Unicode] in
theorem reachesEnd_topLevelDomain {s : Str} :
    ReachesEnd cmpTopLevelDomain s ↔ Label isLabelChar 2 25 s := by
  rw [reachesEnd_iff]
  exact mem_language_rep_cls (by decide)

theorem reachesEnd_wildcardAddr {s : Str} : ReachesEnd regxWildcardAddr s ↔ WildcardAddress s := by
  rw [reachesEnd_iff]
  unfold regxWildcardAddr WildcardAddress
  constructor
  · intro h
    obtain ⟨c, v, hc, hv, rfl⟩ := mem_language_cls_seq.mp h
    obtain ⟨user, huser, u, hu, rfl⟩ := mem_language_seq.mp hv
    obtain ⟨_, hstar, rfl⟩ := mem_language_char_seq.mp hu
    rw [mem_language_char.mp hstar]
    exact ⟨c, user, rfl, over_iff.mpr (by simpa using hc),
      over_iff.mpr (mem_language_star_cls.mp huser)⟩
  · rintro ⟨c, user, rfl, hc, huser⟩
    refine mem_language_cls_seq.mpr ⟨c, user ++ ['@', '*'], over_iff.mp hc c List.mem_cons_self,
      mem_language_seq.mpr ⟨user, mem_language_star_cls.mpr (over_iff.mp huser), ['@', '*'], ?_, rfl⟩,
      rfl⟩
    exact mem_language_char_seq.mpr ⟨['*'], mem_language_char.mpr rfl, rfl⟩

theorem mem_language_wildcardIpv4 {s : Str} :
    s ∈ language regxWildcardIpv4 ↔ WildcardClient s := by
  have hfield : ∀ {w : Str}, w ∈ language (rep (cls fun c => Unicode.isDecimal c || c == '*') 1 3) ↔
      WildcardField w := mem_language_rep_cls (by decide)
  unfold regxWildcardIpv4 WildcardClient
  constructor
  · intro h
    obtain ⟨f₁, h₁, _, hu₁, rfl⟩ := mem_language_seq.mp h
    obtain ⟨v₁, hv₁, rfl⟩ := mem_language_char_seq.mp hu₁
    obtain ⟨f₂, h₂, _, hu₂, rfl⟩ := mem_language_seq.mp hv₁
    obtain ⟨v₂, hv₂, rfl⟩ := mem_language_char_seq.mp hu₂
    obtain ⟨f₃, h₃, _, hu₃, rfl⟩ := mem_language_seq.mp hv₂
    obtain ⟨f₄, h₄, rfl⟩ := mem_language_char_seq.mp hu₃
    exact ⟨f₁, f₂, f₃, f₄, rfl, hfield.mp h₁, hfield.mp h₂, hfield.mp h₃, hfield.mp h₄⟩
  · rintro ⟨f₁, f₂, f₃, f₄, rfl, h₁, h₂, h₃, h₄⟩
    refine mem_language_seq.mpr ⟨f₁, hfield.mpr h₁, _, mem_language_char_seq.mpr ⟨_, ?_, rfl⟩, rfl⟩
    refine mem_language_seq.mpr ⟨f₂, hfield.mpr h₂, _, mem_language_char_seq.mpr ⟨_, ?_, rfl⟩, rfl⟩
    exact mem_language_seq.mpr ⟨f₃, hfield.mpr h₃, _, mem_language_char_seq.mpr ⟨f₄, hfield.mpr h₄, rfl⟩, rfl⟩

omit [Unicode] in
/-- The pattern knows the texts of all octets. -/
theorem mem_language_octet {s : Str} {n : ℕ} (h : parseOctet s = some n) : s ∈ language octet := by
  have htexts : ∀ n < 256, parseOctet (natStr n) = some n ∧ ReachesEnd octet (natStr n) := by
    decide +kernel
  obtain ⟨hparse, hmatch⟩ := htexts n (Nat.lt_succ_of_le (parseOctet_le h))
  rw [parseOctet_inj h hparse]
  exact reachesEnd_iff.mp hmatch

omit [Unicode] in
/-- An octet and its dot. -/
theorem mem_language_octet_dot {w : Str} :
    w ∈ language (seq octet (char '.')) ↔ ∃ u ∈ language octet, w = u ++ ['.'] := by
  rw [mem_language_seq]
  constructor
  · rintro ⟨u, hu, _, hdot, rfl⟩
    rw [mem_language_char.mp hdot]
    exact ⟨u, hu, rfl⟩
  · rintro ⟨u, hu, rfl⟩
    exact ⟨u, hu, ['.'], mem_language_char.mpr rfl, rfl⟩

omit [Unicode] in
/-- The pattern knows the texts of all addresses. -/
theorem mem_language_of_ipv4 {s : Str} {n : ℕ} (h : ipv4FromString s = some n) :
    s ∈ language regxIpv4 := by
  obtain ⟨a, b, c, d, x, y, z, w, hsplit, ha, hb, hc, hd, -⟩ := exists_octets h
  have hfield : ∀ {t : Str} {n : ℕ}, parseOctet t = some n →
      t ++ ['.'] ∈ language (seq octet (char '.')) :=
    fun ht => mem_language_octet_dot.mpr ⟨_, mem_language_octet ht, rfl⟩
  refine mem_language_seq.mpr ⟨(a ++ ['.']) ++ ((b ++ ['.']) ++ ((c ++ ['.']) ++ [])), ?_, d,
    mem_language_octet hd, ?_⟩
  · refine mem_language_seq.mpr ⟨_, hfield ha, _, ?_, rfl⟩
    refine mem_language_seq.mpr ⟨_, hfield hb, _, ?_, rfl⟩
    exact mem_language_seq.mpr ⟨_, hfield hc, [], rfl, rfl⟩
  · rw [eq_of_splitOn_four hsplit]
    simp

omit [Unicode] in
/-- An IPv4 address has the form of one. -/
theorem isIpv4_of_ipAddress {s : Str} {n : ℕ} (h : ipAddress s = some ⟨.v4, n⟩) : isIpv4 s = true := by
  have hmem := mem_language_of_ipv4 (ipv4FromString_of_ipAddress h)
  exact List.any_eq_true.mpr ⟨[], reachesEnd_iff.mpr hmem, rfl⟩

/-! ### What the tests have found -/

/-- What is known of a text of a type. -/
def AddressType.Tested : AddressType → Str → Prop
  | .catchall, s => s = "@.".toList
  | .subdomain, s | .topLevelDomain, s => ∃ domain, s = "@.".toList ++ domain
  | .catchallIp, s => s = "@ip".toList
  | .domain, s => ∃ domain, s = "@".toList ++ domain
  | .email, _ | .wildcardAddr, _ => True
  | .ip, s => (ipAddress s).isSome
  | .cidrNetwork, s => (ipNetwork s).isSome
  | .wildcardIp, s => isWildcardIpv4 s = true

theorem tested_of_type {s : Str} {t : AddressType} (h : isValidAmavisdAddress s = some t) :
    t.Tested s := by
  have hstarts : ∀ {pre : Str}, startsWith s pre = true → ∃ domain, s = pre ++ domain := by
    intro pre hpre
    obtain ⟨domain, hdomain⟩ := (startsWith_iff s pre).mp hpre
    exact ⟨domain, hdomain.symm⟩
  unfold isValidAmavisdAddress at h
  simp only at h
  split_ifs at h with hatdot hall hdomain htld hat hip hdomain hemail haddr hstrict hnet hwildcard
  · obtain rfl := Option.some.inj h
    exact hall
  · obtain rfl := Option.some.inj h
    exact hstarts hatdot
  · obtain rfl := Option.some.inj h
    exact hstarts hatdot
  · obtain rfl := Option.some.inj h
    exact hip
  · obtain rfl := Option.some.inj h
    exact hstarts hat
  · obtain rfl := Option.some.inj h
    trivial
  · obtain rfl := Option.some.inj h
    trivial
  · obtain rfl := Option.some.inj h
    exact hstrict
  · obtain rfl := Option.some.inj h
    exact hnet
  · obtain rfl := Option.some.inj h
    exact hwildcard

omit [Unicode] in
/-- What follows `@.` or `@` at the beginning. -/
theorem splitLast_self {sep : Str} (hsep : sep ≠ []) (s : Str) : splitLast sep (sep ++ s) = s := by
  obtain ⟨c, sep, rfl⟩ := List.exists_cons_of_ne_nil hsep
  have hprefix : (c :: sep).isPrefixOf (c :: sep ++ s) = true :=
    List.isPrefixOf_iff_prefix.mpr (List.prefix_append _ _)
  have hsplit : splitOnce (c :: sep) (c :: sep ++ s) = some ([], s) := by
    rw [List.cons_append] at hprefix ⊢
    rw [splitOnce, if_pos hprefix]
    simp
  unfold splitLast
  rw [hsplit]
  rfl

/-- A pattern for clients is one of the whole text, unless it ends with a line break. -/
theorem wildcardClient_iff {s : Str} (h : isWildcardIpv4 s = true) :
    WildcardClient s ↔ s.getLast? ≠ some '\n' := by
  constructor
  · rintro ⟨f₁, f₂, f₃, f₄, rfl, -, -, -, hlen, -, hchars⟩ hlast
    have hne : f₄ ≠ [] := by
      rintro rfl
      exact absurd hlen (by decide)
    have hassoc : f₁ ++ '.' :: (f₂ ++ '.' :: (f₃ ++ '.' :: f₄)) =
        f₁ ++ '.' :: (f₂ ++ '.' :: (f₃ ++ ['.'])) ++ f₄ := by simp
    rw [hassoc, List.getLast?_append_of_ne_nil _ hne] at hlast
    have hmem : (Unicode.isDecimal '\n' || '\n' == '*') = true :=
      hchars _ (List.mem_of_getLast? hlast)
    rw [Unicode.isDecimal_ascii _ (by decide)] at hmem
    exact absurd hmem (by decide)
  · intro hlast
    obtain ⟨w, br, hw, hbr, rfl⟩ := (reMatchEnd_iff _ s).mp h
    rcases hbr with rfl | rfl
    · rw [List.append_nil]
      exact mem_language_wildcardIpv4.mp hw
    · exact absurd (List.getLast?_concat ..) hlast

end IRedAPD

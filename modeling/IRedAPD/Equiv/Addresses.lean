/-
  What the address tests of `libs/utils.py` guarantee.
-/
import IRedAPD.Framing
import IRedAPD.Libs.Utils
import IRedAPD.Py.Ipv6Form

namespace IRedAPD

open Py Py.Regex Regxes

variable [Unicode]

/-! ### ASCII texts -/

/-- On ASCII every table has the same word characters. -/
theorem isWord_ascii {c : Char} (hc : c.toNat < 128) : isWord c = (c.isAlphanum || c == '_') := by
  unfold isWord
  rw [Unicode.isAlnum_ascii c hc]

theorem isWord_of_ascii {c : Char} (hc : c.toNat < 128) (hword : (c.isAlphanum || c == '_') = false) :
    isWord c = false :=
  (isWord_ascii hc).trans hword

theorem wordOr_agree (cs : List Char) :
    Agree (fun c : Char => c.toNat < 128) (wordOr cs) (@wordOr asciiUnicode cs) := by
  intro c hc
  show (isWord c || cs.contains c) = (@isWord asciiUnicode c || cs.contains c)
  rw [isWord_ascii hc, @isWord_ascii asciiUnicode c hc]

omit [Unicode] in
theorem mem_of_mem_strip {s : Str} {c : Char} (hc : c ∈ strip s) : c ∈ s := by
  obtain ⟨pre, post, hs, -, -⟩ := exists_strip s
  rw [hs]
  simp [hc]

omit [Unicode] in
theorem mem_strip_of_mem {s : Str} {c : Char} (hc : c ∈ s) (hspace : isSpace c = false) :
    c ∈ strip s := by
  obtain ⟨pre, post, hs, hpre, hpost⟩ := exists_strip s
  rw [hs] at hc
  rcases List.mem_append.mp hc with hc | hc
  · rcases List.mem_append.mp hc with hc | hc
    · exact absurd (hpre c hc) (by simp [hspace])
    · exact hc
  · exact absurd (hpost c hc) (by simp [hspace])

/-- An address holds none of the characters `is_email` forbids, but for spaces around it. -/
theorem notMem_of_isEmail {s : Str} (h : isEmail s = true) {c : Char}
    (hforbidden : c ∈ "~!$%^*() ".toList) (hspace : isSpace c = false) : c ∉ s := by
  intro hc
  have hany : ((strip s).any fun c => "~!$%^*() ".toList.contains c) = true :=
    List.any_eq_true.mpr ⟨c, mem_strip_of_mem hc hspace, List.contains_iff_mem.mpr hforbidden⟩
  unfold isEmail at h
  simp only [hany, Bool.not_true, Bool.false_and] at h
  exact Bool.false_ne_true h

/-- So an ASCII text is an address for every table or for none. -/
theorem isEmail_ascii {s : Str} (hs : ∀ c ∈ s, c.toNat < 128) : isEmail s = @isEmail asciiUnicode s := by
  have hagree : Agree (fun c : Char => c.toNat < 128) cmpEmail (@cmpEmail asciiUnicode) :=
    ⟨wordOr_agree _, wordOr_agree _, Agree.refl _ _, wordOr_agree _, wordOr_agree _, Agree.refl _ _,
      Agree.refl _ _⟩
  unfold isEmail
  simp only
  rw [hagree.reMatch_eq fun c hc => hs c (mem_of_mem_strip hc)]

omit [Unicode] in
/-- A label that is longer than any of some texts. -/
theorem exists_longer (values : List Str) : ∃ a : Str, '@' ∉ a ∧ '.' ∉ a ∧
    ∀ v ∈ values, v.length < a.length := by
  refine ⟨List.replicate (values.flatten.length + 1) 'a', fun h => ?_, fun h => ?_, fun v hv => ?_⟩
  · exact absurd (List.eq_of_mem_replicate h) (by decide)
  · exact absurd (List.eq_of_mem_replicate h) (by decide)
  · have h := (List.sublist_flatten_of_mem hv).length_le
    rw [List.length_replicate]
    omega

/-! ### Addresses and their types -/

/-- An address is a local part and a domain with a `.`, at the first `@`; the domain starts with no
`.` or `@`. -/
theorem exists_of_isEmail {s : Str} (h : isEmail s = true) :
    ∃ user c domain, s = user ++ '@' :: c :: domain ∧ user ≠ [] ∧ '@' ∉ user ∧ '.' ∈ domain ∧
      (isWord c = true ∨ c = '-') := by
  have hmatch : reMatch cmpEmail (strip s) = true := by
    unfold isEmail at h
    exact (Bool.and_eq_true_iff.mp h).2
  obtain ⟨w, hw, rest, hrest⟩ := (reMatch_iff _ _).mp hmatch
  obtain ⟨pre, post, hs, hpre, -⟩ := exists_strip s
  -- part by part along the pattern
  rw [cmpEmail, mem_language_seq] at hw
  obtain ⟨u₁, ⟨a, ha, rfl⟩, v₁, hv₁, rfl⟩ := hw
  rw [mem_language_seq] at hv₁
  obtain ⟨u₂, hu₂, v₂, hv₂, rfl⟩ := hv₁
  rw [mem_language_seq] at hv₂
  obtain ⟨u₃, ⟨b, hb, rfl⟩, v₃, hv₃, rfl⟩ := hv₂
  rw [mem_language_seq] at hv₃
  obtain ⟨u₄, ⟨c, hc, rfl⟩, v₄, hv₄, rfl⟩ := hv₃
  rw [mem_language_seq] at hv₄
  obtain ⟨u₅, -, v₅, hv₅, rfl⟩ := hv₄
  rw [mem_language_seq] at hv₅
  obtain ⟨u₆, ⟨d, hd, rfl⟩, v₆, -, rfl⟩ := hv₅
  obtain rfl : b = '@' := by simpa using hb
  obtain rfl : d = '.' := by simpa using hd
  refine ⟨pre ++ a :: u₂, c, u₅ ++ '.' :: v₆ ++ rest ++ post, ?_, by simp, ?_, by simp, ?_⟩
  · rw [hs, ← hrest]
    simp
  · have hword : isWord '@' = false := isWord_of_ascii (by decide) (by decide)
    have hnot : ∀ cs, '@' ∉ cs → Only (· ≠ '@') (wordOr cs) := by
      rintro cs hcs x hx rfl
      have hmem : (isWord '@' || cs.contains '@') = true := hx
      rw [hword, Bool.false_or, List.contains_iff_mem] at hmem
      exact hcs hmem
    have hstar : Only (· ≠ '@') (star (wordOr ['-', '.', '+', '=', '/', '&', '#'])) :=
      hnot _ (by decide)
    intro hmem
    rcases List.mem_append.mp hmem with hmem | hmem
    · exact absurd (hpre '@' hmem) (by decide)
    rcases List.mem_cons.mp hmem with heq | hmem
    · exact hnot _ (by decide) a ha heq.symm
    · exact hstar.forall_mem hu₂ '@' hmem rfl
  · have hmem : (isWord c || ['-'].contains c) = true := hc
    rw [Bool.or_eq_true, List.contains_iff_mem, List.mem_singleton] at hmem
    exact hmem

/-- An address holds an `@`. -/
theorem at_mem_of_isEmail {s : Str} (h : isEmail s = true) : '@' ∈ s := by
  obtain ⟨user, c, domain, rfl, -⟩ := exists_of_isEmail h
  simp

/-- An address starts with no `@`. -/
theorem not_startsWith_at_of_isEmail {s : Str} (h : isEmail s = true) : startsWith s "@" = false := by
  obtain ⟨user, c, domain, rfl, hne, hat, -⟩ := exists_of_isEmail h
  obtain ⟨d, user, rfl⟩ := List.exists_cons_of_ne_nil hne
  have hd : '@' ≠ d := fun heq => hat (heq ▸ List.mem_cons_self ..)
  show (['@'].isPrefixOf (d :: (user ++ '@' :: c :: domain))) = false
  simp [List.isPrefixOf, hd]

/-- What starts with no `@` is an address, a client or a pattern for clients. -/
theorem isValidAmavisdAddress_of_not_at {s : Str} (hat : startsWith s "@" = false) :
    isValidAmavisdAddress s =
      if isEmail s then some .email
      else if isWildcardAddr s then some .wildcardAddr
      else if isStrictIp s then some .ip
      else if isCidrNetwork s then some .cidrNetwork
      else if isWildcardIpv4 s then some .wildcardIp
      else none := by
  have hatdot : startsWith s "@." = false := by
    rw [Bool.eq_false_iff, ne_eq, startsWith_iff] at hat ⊢
    exact fun hpre => hat (List.IsPrefix.trans ⟨['.'], rfl⟩ hpre)
  unfold isValidAmavisdAddress
  rw [hatdot, hat]
  rfl

/-- What holds no `@` is no address of a sender or a domain. -/
theorem type_of_at_notMem {s : Str} {t : AddressType} (hat : '@' ∉ s)
    (h : isValidAmavisdAddress s = some t) :
    t = .wildcardAddr ∨ t = .ip ∨ t = .cidrNetwork ∨ t = .wildcardIp := by
  have hstart : startsWith s "@" = false := by
    rw [Bool.eq_false_iff, ne_eq, startsWith_iff]
    exact fun hpre => hat (hpre.subset (List.mem_singleton_self _))
  rw [isValidAmavisdAddress_of_not_at hstart, if_neg fun hemail => hat (at_mem_of_isEmail hemail)] at h
  split_ifs at h
  · exact .inl (Option.some.inj h).symm
  · exact .inr (.inl (Option.some.inj h).symm)
  · exact .inr (.inr (.inl (Option.some.inj h).symm))
  · exact .inr (.inr (.inr (Option.some.inj h).symm))

theorem isValidAmavisdAddress_of_isEmail {s : Str} (h : isEmail s = true) :
    isValidAmavisdAddress s = some .email := by
  rw [isValidAmavisdAddress_of_not_at (not_startsWith_at_of_isEmail h), if_pos h]

omit [Unicode] in
/-- Nothing that starts with an `@` is an address or a network. -/
theorem isIp_at (s : Str) : isIp ('@' :: s) = false := by
  have h₁ : reMatchEnd regxIpv4Cidr ('@' :: s) = false :=
    reMatchEnd_eq_false (by decide) (by decide) s
  have h₂ : reMatchEnd regxIpv6Cidr ('@' :: s) = false :=
    reMatchEnd_eq_false (by decide) (by decide) s
  have h₃ : reMatchEnd regxIpv4 ('@' :: s) = false :=
    reMatchEnd_eq_false (by decide) (by decide) s
  have h₄ : reMatch regxIpv6 ('@' :: s) = false := reMatch_eq_false (by decide) (by decide) s
  unfold isIp
  rw [h₁, h₂, h₃, h₄]
  simp

/-- The types of what starts with an `@`. -/
theorem type_of_startsWith_at {s : Str} {t : AddressType} (hat : startsWith s "@" = true)
    (h : isValidAmavisdAddress s = some t) :
    s = "@.".toList ∨ s = "@ip".toList ∨ t = .subdomain ∨ t = .topLevelDomain ∨ t = .domain := by
  unfold isValidAmavisdAddress at h
  simp only at h
  split_ifs at h with hatdot hall hdomain htld hip hdomain
  · exact .inl hall
  · exact .inr (.inr (.inl (Option.some.inj h).symm))
  · exact .inr (.inr (.inr (.inl (Option.some.inj h).symm)))
  · exact .inr (.inl hip)
  · exact .inr (.inr (.inr (.inr (Option.some.inj h).symm)))

/-- The policy addresses of an address: itself, and others that start with an `@`. -/
theorem policyAddress_cases {x mail : Str} (h : x ∈ getPolicyAddressesFromEmail mail) :
    (x = mail ∧ isEmail mail = true) ∨ (startsWith x "@" = true ∧ x ≠ "@ip".toList) := by
  unfold getPolicyAddressesFromEmail at h
  split_ifs at h with hmail
  · rw [List.mem_singleton.mp h]
    exact .inr (by decide)
  rw [Bool.not_eq_true, Bool.not_eq_false'] at hmail
  rcases List.mem_append.mp h with h | h
  · simp only [List.mem_cons, List.not_mem_nil, or_false] at h
    rcases h with rfl | rfl | rfl
    · exact .inl ⟨rfl, hmail⟩
    · -- a domain has a dot
      obtain ⟨user, c, domain, rfl, -, hat, hdot, -⟩ := exists_of_isEmail hmail
      have hlast : splitLast "@" (user ++ '@' :: c :: domain) = c :: domain := splitLast_append hat _
      rw [hlast]
      refine .inr ⟨rfl, fun heq => ?_⟩
      obtain ⟨-, heq⟩ := List.cons.inj heq
      obtain ⟨-, rfl⟩ := List.cons.inj heq
      exact absurd hdot (by decide)
    · exact .inr (by decide)
  · obtain ⟨sub, -, rfl⟩ := List.mem_map.mp h
    exact .inr ⟨rfl, fun heq => absurd (List.cons.inj (List.cons.inj heq).2).1 (by decide)⟩

/-- The priority of a policy address other than `@.` -/
theorem getAccountPriority_pos {x mail : Str} (hx : x ∈ getPolicyAddressesFromEmail mail)
    (hvalid : (isValidAmavisdAddress x).isSome) (hne : x ≠ "@.".toList) : 0 < getAccountPriority x := by
  obtain ⟨t, ht⟩ := Option.isSome_iff_exists.mp hvalid
  unfold getAccountPriority
  rw [ht]
  rcases policyAddress_cases hx with ⟨rfl, hmail⟩ | ⟨hat, hip⟩
  · rw [isValidAmavisdAddress_of_isEmail hmail] at ht
    rw [← Option.some.inj ht]
    decide
  · rcases type_of_startsWith_at hat ht with heq | heq | rfl | rfl | rfl
    · exact absurd heq hne
    · exact absurd heq hip
    all_goals decide

/-- The priority of the text of an address. -/
theorem getAccountPriority_pos_of_ipAddress {s : Str} (h : (ipAddress s).isSome) :
    0 < getAccountPriority s := by
  have hat : startsWith s "@" = false := by
    rw [Bool.eq_false_iff, ne_eq, startsWith_iff]
    rintro ⟨t, rfl⟩
    have hnone : ipAddress ('@' :: t) = none := ipAddress_cons_eq_none (by decide) (by decide) t
    rw [show "@".toList ++ t = '@' :: t from rfl, hnone] at h
    cases h
  have hstrict : isStrictIp s = true := h
  have htype : isValidAmavisdAddress s = some .email ∨ isValidAmavisdAddress s = some .wildcardAddr ∨
      isValidAmavisdAddress s = some .ip := by
    rw [isValidAmavisdAddress_of_not_at hat, if_pos hstrict]
    split_ifs
    · exact .inl rfl
    · exact .inr (.inl rfl)
    · exact .inr (.inr rfl)
  unfold getAccountPriority
  rcases htype with ht | ht | ht <;> (rw [ht]; decide)

/-- A domain starts with a text that holds a `.` and no `:`. -/
theorem exists_prefix_of_isDomain {s : Str} (h : isDomain s = true) :
    ∃ w, w <+: s ∧ '.' ∈ w ∧ ':' ∉ w := by
  have hmatch : reMatch cmpDomain s = true := by
    unfold isDomain at h
    split_ifs at h
    exact h
  obtain ⟨w, hw, hpre⟩ := (reMatch_iff _ _).mp hmatch
  refine ⟨w, hpre, ?_, ?_⟩
  · rw [cmpDomain, mem_language_seq] at hw
    obtain ⟨u₁, -, v₁, hv₁, rfl⟩ := hw
    rw [mem_language_seq] at hv₁
    obtain ⟨u₂, -, v₂, hv₂, rfl⟩ := hv₁
    rw [mem_language_seq] at hv₂
    obtain ⟨u₃, ⟨a, ha, rfl⟩, v₃, -, rfl⟩ := hv₂
    obtain rfl : a = '.' := by simpa using ha
    simp
  · -- no character class of the pattern has the colon
    have hword : isWord ':' = false := by
      unfold isWord
      rw [Unicode.isAlnum_ascii ':' (by decide)]
      decide
    have hor : ∀ cs, ':' ∉ cs → Only (· ≠ ':') (wordOr cs) := by
      rintro cs hcs a ha rfl
      have hmem : (isWord ':' || cs.contains ':') = true := ha
      rw [hword, Bool.false_or, List.contains_iff_mem] at hmem
      exact hcs hmem
    have hchar : Only (· ≠ ':') (char '.') := by
      rintro a ha rfl
      exact absurd ha (by decide)
    have hletter : Only (· ≠ ':') (cls isLetterIgnoreCase) := by
      rintro a ha rfl
      exact absurd ha (by decide)
    have honly : Only (· ≠ ':') cmpDomain :=
      ⟨hor _ (by decide), hor _ (by decide), hchar, hletter.pow 2, hletter.upTo 13⟩
    exact fun hcolon => honly.forall_mem hw ':' hcolon rfl

/-- What follows a colon does not make a domain. -/
theorem not_isDomain_of_colon {p : Str} (hp : '.' ∉ p) (s : Str) :
    isDomain (p ++ ':' :: s) = false := by
  rw [Bool.eq_false_iff]
  intro h
  obtain ⟨w, hw, hdot, hcolon⟩ := exists_prefix_of_isDomain h
  rcases List.prefix_or_prefix_of_prefix hw (List.prefix_append (p ++ [':']) s |>.trans (by simp))
    with hpre | hpre
  · -- a beginning without the colon has no dot
    rcases List.prefix_concat_iff.mp hpre with heq | hpre
    · rw [heq] at hcolon
      simp at hcolon
    · exact hp (hpre.subset hdot)
  · exact hcolon (hpre.subset (by simp))

/-- Stripping the extension leaves an `@`. -/
theorem at_mem_stripMailExtAddress (settings : Settings) {mail : Str} (h : isEmail mail = true) :
    '@' ∈ stripMailExtAddress settings mail := by
  unfold stripMailExtAddress
  simp only [h, Bool.not_true, Bool.false_eq_true, if_false]
  split
  · simp
  · exact at_mem_of_isEmail h

omit [Unicode] in
/-- The wildcard addresses of a client are written with its own characters, `*` and `.`. -/
theorem mem_of_mem_wildcardIpv4 {settings : Settings} {s a : Str}
    (ha : a ∈ wildcardIpv4 settings s) {c : Char} (hc : c ∈ a) : c ∈ s ∨ c = '*' ∨ c = '.' := by
  have hfield : ∀ p ∈ s.splitOn '.', c ∈ p → c ∈ s := fun p hp hcp => Framing.mem_of_mem_splitOn hp hcp
  unfold wildcardIpv4 at ha
  split_ifs at ha with hip hall
  · obtain ⟨i, -, ha⟩ := List.mem_flatMap.mp ha
    obtain ⟨j, -, rfl⟩ := List.mem_map.mp ha
    rcases mem_join hc with hdot | ⟨p, hp, hcp⟩
    · exact .inr (.inr (List.mem_singleton.mp hdot))
    · obtain ⟨n, hn, rfl⟩ := List.mem_mapIdx.mp hp
      split_ifs at hcp
      · exact .inr (.inl (List.mem_singleton.mp hcp))
      · exact .inl (hfield _ (List.getElem_mem hn) hcp)
  · have hjoin : ∀ n, c ∈ join ".".toList ((s.splitOn '.').take n) → c ∈ s ∨ c = '.' := by
      intro n hc
      rcases mem_join hc with hdot | ⟨p, hp, hcp⟩
      · exact .inr (List.mem_singleton.mp hdot)
      · exact .inl (hfield p (List.mem_of_mem_take hp) hcp)
    simp only [List.mem_cons, List.not_mem_nil, or_false] at ha
    -- the two ranges without `ENABLE_ALL_WILDCARD_IP`
    rcases ha with rfl | rfl
    · rcases List.mem_append.mp hc with hc | hc
      · exact (hjoin 3 hc).imp_right .inr
      · have hc' : c ∈ ['.', '*'] := hc
        simp only [List.mem_cons, List.not_mem_nil, or_false] at hc'
        exact .inr hc'.symm
    · rw [List.mem_append, List.mem_append] at hc
      rcases hc with (hc | hc) | hc
      · exact (hjoin 2 hc).imp_right .inr
      · have hc' : c ∈ ['.', '*', '.'] := hc
        simp only [List.mem_cons, List.not_mem_nil, or_false] at hc'
        rcases hc' with h | h | h
        · exact .inr (.inr h)
        · exact .inr (.inl h)
        · exact .inr (.inr h)
      · rw [List.getD_eq_getElem?_getD] at hc
        cases hget : (s.splitOn '.')[3]? with
        | none => simp [hget] at hc
        | some p =>
          rw [hget, Option.getD_some] at hc
          exact .inl (hfield p (List.mem_of_getElem? hget) hc)
  · cases ha

/-! ### Wildcard addresses -/

omit [Unicode] in
/-- With all of them enabled, every run of fields is replaced. -/
theorem mem_wildcardIpv4_all {settings : Settings} (hall : settings.enableAllWildcardIp = true)
    {c x : Str} (hip : isIpv4 c = true) : x ∈ wildcardIpv4 settings c ↔
      ∃ i j, i + j < 4 ∧ x = starFields (c.splitOn '.') i (i + j) := by
  unfold wildcardIpv4
  rw [if_pos hip, if_pos hall, List.mem_flatMap]
  constructor
  · rintro ⟨i, -, hx⟩
    obtain ⟨j, hj, rfl⟩ := List.mem_map.mp hx
    rw [List.mem_range] at hj
    exact ⟨i, j, by omega, rfl⟩
  · rintro ⟨i, j, hij, rfl⟩
    refine ⟨i, List.mem_range.mpr (by omega), List.mem_map.mpr ⟨j, ?_, rfl⟩⟩
    rw [List.mem_range]
    omega

end IRedAPD

/-
  The addresses that `is_email` accepts, by their parts.

  `is_email` strips its argument and matches a beginning of it.  Where the domain
  is made of word characters, `-` and `.`, an address is white space, a local
  part and a domain (`exists_parts_of_isEmail`), and every local part makes an
  address with every such domain (`isEmail_of_parts`).  Both are kept when ASCII
  letters change their case.

  That letters and digits are not white space is what the Unicode database says;
  `isSpace` is a definition of its own, so it is a hypothesis here.
-/
import IRedAPD.Equiv.AddressFormats
import IRedAPD.Py.LetterCase

namespace IRedAPD

open Py Py.Regex Regxes

variable [Unicode]

/-! ### Parts -/

/-- The local part of an address. -/
def LocalPart (s : Str) : Prop :=
  ∃ c user, s = c :: user ∧ Over ['-', '#'] [c] ∧ Over ['-', '.', '+', '=', '/', '&', '#'] user

/-- A domain of word characters, `-` and `.`, with a beginning as the pattern of addresses wants
it. -/
structure AddressDomain (s : Str) : Prop where
  chars : Over ['-', '.'] s
  pattern : ∃ name, name <+: s ∧ DomainName isLabelChar name

theorem Over.mono {cs ds : List Char} (hsub : cs ⊆ ds) {s : Str} (h : Over cs s) : Over ds s :=
  fun c hc => (h c hc).imp_right fun hmem => hsub hmem

theorem Over.append {cs : List Char} {s t : Str} (hs : Over cs s) (ht : Over cs t) :
    Over cs (s ++ t) := by
  intro c hc
  rcases List.mem_append.mp hc with hc | hc
  · exact hs c hc
  · exact ht c hc

/-- An ASCII character that is no word character and not in the list. -/
theorem Over.notMem {cs : List Char} {s : Str} (h : Over cs s) {c : Char} (hascii : c.toNat < 128)
    (hword : (c.isAlphanum || c == '_') = false) (hcs : c ∉ cs) : c ∉ s := by
  intro hc
  rcases h c hc with hmem | hmem
  · rw [isWord_of_ascii hascii hword] at hmem
    cases hmem
  · exact hcs hmem

/-- ASCII letters and digits are word characters. -/
theorem over_of_isAlphanum {cs : List Char} {s : Str}
    (h : ∀ c ∈ s, c.toNat < 128 ∧ c.isAlphanum = true ∨ c ∈ cs) : Over cs s := by
  intro c hc
  refine (h c hc).imp_left fun ⟨hascii, halnum⟩ => ?_
  rw [isWord_ascii hascii, halnum]
  rfl

theorem LocalPart.chars {s : Str} (h : LocalPart s) :
    Over ['-', '.', '+', '=', '/', '&', '#'] s := by
  obtain ⟨c, user, rfl, hc, huser⟩ := h
  exact (hc.mono (by decide)).append huser

theorem LocalPart.ne_nil {s : Str} (h : LocalPart s) : s ≠ [] := by
  obtain ⟨c, user, rfl, -⟩ := h
  exact List.cons_ne_nil c user

theorem AddressDomain.ne_nil {s : Str} (h : AddressDomain s) : s ≠ [] := by
  obtain ⟨name, hname, c, rest, ltd, rfl, -⟩ := h.pattern
  rintro rfl
  cases List.eq_nil_of_prefix_nil hname

/-! ### White space -/

section WhiteSpace

variable (hspace : ∀ c, Unicode.isAlnum c = true → isSpace c = false)

include hspace in
/-- Word characters are not white space. -/
theorem Over.isSpace_eq_false {cs : List Char} (hcs : cs.all (fun c => !isSpace c) = true) {s : Str}
    (h : Over cs s) : ∀ c ∈ s, isSpace c = false := by
  intro c hc
  rcases h c hc with hword | hmem
  · rw [isWord, Bool.or_eq_true, beq_iff_eq] at hword
    rcases hword with halnum | rfl
    · exact hspace c halnum
    · decide
  · simpa using List.all_eq_true.mp hcs c hmem

omit [Unicode] in
/-- A text without white space is stripped of nothing. -/
theorem strip_eq_self {s : Str} (h : ∀ c ∈ s, isSpace c = false) : strip s = s := by
  unfold strip
  have hdrop : s.dropWhile isSpace = s := by
    rw [List.dropWhile_eq_self_iff]
    intro hlen
    rw [h _ (List.getElem_mem hlen)]
    exact Bool.false_ne_true
  rw [hdrop, List.rdropWhile_eq_self_iff]
  intro hne
  rw [h _ (List.getLast_mem hne)]
  exact Bool.false_ne_true

/-! ### `is_email` -/

/-- A beginning of what `is_email` strips is an address as documented. -/
theorem exists_emailAddress_of_isEmail {s : Str} (h : isEmail s = true) :
    ∃ pre w rest, s = pre ++ w ++ rest ∧ (∀ c ∈ pre, isSpace c = true) ∧ EmailAddress w := by
  have hmatch : reMatch cmpEmail (strip s) = true := by
    unfold isEmail at h
    exact (Bool.and_eq_true_iff.mp h).2
  obtain ⟨w, hw, rest, hrest⟩ := (reMatch_iff _ _).mp hmatch
  obtain ⟨pre, post, hs, hpre, -⟩ := exists_strip s
  refine ⟨pre, w, rest ++ post, ?_, hpre, reachesEnd_email.mp (reachesEnd_iff.mpr hw)⟩
  rw [← List.append_assoc, List.append_assoc pre, hrest]
  exact hs

/-- **What `is_email` accepts**: white space, a local part and a domain. -/
theorem exists_parts_of_isEmail {s : Str} (h : isEmail s = true) :
    ∃ pre localPart domain, s = pre ++ localPart ++ '@' :: domain ∧ '@' ∉ pre ++ localPart ∧
      (∀ c ∈ pre, isSpace c = true) ∧ LocalPart localPart ∧
      ∃ name, name <+: domain ∧ DomainName isLabelChar name := by
  obtain ⟨pre, w, rest, rfl, hpre, c, user, domain, rfl, hc, huser, hdomain⟩ :=
    exists_emailAddress_of_isEmail h
  have hlocal : LocalPart (c :: user) := ⟨c, user, rfl, hc, huser⟩
  refine ⟨pre, c :: user, domain ++ rest, by simp, ?_, hpre, hlocal, domain,
    List.prefix_append domain rest, hdomain⟩
  intro hat
  rcases List.mem_append.mp hat with hat | hat
  · exact absurd (hpre '@' hat) (by decide)
  · exact hlocal.chars.notMem (by decide) (by decide) (by decide) hat

include hspace in
/-- Every local part and every domain make an address. -/
theorem isEmail_of_parts {localPart domain : Str} (hlocal : LocalPart localPart)
    (hdomain : AddressDomain domain) : isEmail (localPart ++ '@' :: domain) = true := by
  have hover : Over ['-', '.', '+', '=', '/', '&', '#', '@'] (localPart ++ '@' :: domain) := by
    refine (hlocal.chars.mono (by decide)).append ?_
    exact Over.append (s := ['@']) (fun c hc => .inr (by rw [List.mem_singleton.mp hc]; decide))
      (hdomain.chars.mono (by decide))
  have hmatch : reMatch cmpEmail (localPart ++ '@' :: domain) = true := by
    obtain ⟨c, user, rfl, hc, huser⟩ := hlocal
    obtain ⟨name, ⟨rest, rfl⟩, hname⟩ := hdomain.pattern
    refine (reMatch_iff _ _).mpr ⟨c :: (user ++ '@' :: name), ?_, rest, by simp⟩
    exact reachesEnd_iff.mp (reachesEnd_email.mpr ⟨c, user, name, rfl, hc, huser, hname⟩)
  have hforbidden :
      (localPart ++ '@' :: domain).any (fun c => "~!$%^*() ".toList.contains c) = false := by
    rw [List.any_eq_false]
    intro c hc hmem
    have hascii : ∀ d ∈ "~!$%^*() ".toList, d.toNat < 128 ∧ (d.isAlphanum || d == '_') = false ∧
        d ∉ ['-', '.', '+', '=', '/', '&', '#', '@'] := by decide
    obtain ⟨h₁, h₂, h₃⟩ := hascii c (List.contains_iff_mem.mp hmem)
    exact hover.notMem h₁ h₂ h₃ hc
  unfold isEmail
  simp only [strip_eq_self (hover.isSpace_eq_false hspace (by decide)), hforbidden, hmatch]
  rfl

end WhiteSpace

/-! ### The case of letters -/

/-- Both cases of an ASCII letter are word characters. -/
theorem isWord_of_toLower_eq {c d : Char} (h : c.toLower = d.toLower) (hd : isWord d = true) :
    isWord c = true := by
  rcases eq_or_isAlpha h with rfl | ⟨halpha, -⟩
  · exact hd
  · rw [isWord_ascii (toNat_lt_of_isAlpha halpha), Char.isAlphanum, halpha]
    rfl

theorem Over.of_sameLetters {cs : List Char} (hcs : ∀ c ∈ cs, c.isAlpha = false) {s t : Str}
    (h : SameLetters s t) (ht : Over cs t) : Over cs s := by
  refine h.forall_mem (fun c d heq hd => ?_) ht
  rcases hd with hd | hd
  · exact .inl (isWord_of_toLower_eq heq hd)
  · exact .inr ((mem_iff_of_toLower_eq hcs heq).mpr hd)

theorem LocalPart.of_sameLetters {s t : Str} (h : SameLetters s t) (ht : LocalPart t) :
    LocalPart s := by
  obtain ⟨d, user', rfl, hd, huser'⟩ := ht
  obtain ⟨c, user, rfl, hc, huser⟩ := sameLetters_cons_iff.mp h
  exact ⟨c, user, rfl, hd.of_sameLetters (by decide) hc, huser'.of_sameLetters (by decide) huser⟩

omit [Unicode] in
theorem isLabelChar_of_toLower_eq {c d : Char} (h : c.toLower = d.toLower)
    (hd : isLabelChar d = true) : isLabelChar c = true := by
  rcases eq_or_isAlpha h with rfl | ⟨halpha, -⟩
  · exact hd
  · unfold isLabelChar isLetterIgnoreCase
    rw [halpha]
    rfl

theorem AddressDomain.of_sameLetters {s t : Str} (h : SameLetters s t) (ht : AddressDomain t) :
    AddressDomain s := by
  refine ⟨ht.chars.of_sameLetters (by decide) h, ?_⟩
  obtain ⟨_, ⟨rest, rfl⟩, d, name', ltd', rfl, hd, hname', hmin, hmax, hltd'⟩ := ht.pattern
  obtain ⟨w, rest', rfl, hw, -⟩ := sameLetters_append_iff.mp h
  obtain ⟨pre, ltd, rfl, hpre, hltd⟩ :=
    exists_of_sameLetters_append_cons (s := d :: name') (by decide) hw
  obtain ⟨c, name, rfl, hc, hname⟩ := sameLetters_cons_iff.mp hpre
  refine ⟨c :: (name ++ '.' :: ltd), ⟨rest', by simp⟩, c, name, ltd, rfl,
    hd.of_sameLetters (by decide) hc, hname'.of_sameLetters (by decide) hname, ?_, ?_, ?_⟩
  · rwa [hltd.length_eq]
  · rwa [hltd.length_eq]
  · exact hltd.forall_mem (fun _ _ heq hd => isLabelChar_of_toLower_eq heq hd) hltd'

end IRedAPD

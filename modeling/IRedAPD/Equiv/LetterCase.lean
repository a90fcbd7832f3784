/-
  The lower case of a valid address is valid (`isSome_isValidAmavisdAddress_map_toLower`).

  The patterns and the parsers do not tell the cases of a letter apart, so the
  lower case has the same type, but for `@IP`, which is no address as it stands.
-/
import IRedAPD.Equiv.AddressFormats
import IRedAPD.Py.IpLetterCase

namespace IRedAPD

open Py Py.Regex Regxes

variable [Unicode]

/-! ### Character classes -/

theorem isWord_toLower (c : Char) : isWord c.toLower = isWord c := by
  refine toLower_congr true (fun c hc => ?_) c
  rw [isWord_ascii (toNat_lt_of_isAlpha hc), Char.isAlphanum, hc]
  rfl

omit [Unicode] in
theorem isLetterIgnoreCase_toLower (c : Char) :
    isLetterIgnoreCase c.toLower = isLetterIgnoreCase c := by
  refine toLower_congr true (fun c hc => ?_) c
  unfold isLetterIgnoreCase
  rw [hc]
  rfl

omit [Unicode] in
theorem isDigit_toLower (c : Char) : c.toLower.isDigit = c.isDigit :=
  toLower_congr false (fun _ hc => isDigit_of_isAlpha hc) c

theorem blind_wordOr {cs : List Char} (hcs : ∀ c ∈ cs, c.isAlpha = false) :
    Blind Char.toLower (wordOr cs) := by
  intro c
  show (isWord c.toLower || cs.contains c.toLower) = (isWord c || cs.contains c)
  rw [isWord_toLower]
  congr 1
  rw [Bool.eq_iff_iff, List.contains_iff_mem, List.contains_iff_mem]
  exact mem_iff_of_toLower_eq hcs (Char.toLower_toLower_eq_toLower c)

omit [Unicode] in
theorem blind_char {c : Char} (hc : c.isAlpha = false) : Blind Char.toLower (char c) := by
  intro d
  show (d.toLower == c) = (d == c)
  rw [Bool.eq_iff_iff, beq_iff_eq, beq_iff_eq, toLower_eq_iff hc]

omit [Unicode] in
/-- `[a-zA-Z0-9\-]` -/
theorem blind_labelChar :
    Blind Char.toLower (cls fun c => isLetterIgnoreCase c || c.isDigit || c == '-') := by
  intro c
  have hhyphen : (c.toLower == '-') = (c == '-') := blind_char (c := '-') rfl c
  show (_ || _ || _) = (_ || _ || _)
  rw [isLetterIgnoreCase_toLower, isDigit_toLower, hhyphen]

/-! ### Patterns -/

theorem reMatch_cmpEmail_map_toLower (s : Str) :
    reMatch cmpEmail (s.map Char.toLower) = reMatch cmpEmail s := by
  have hblind : Blind Char.toLower cmpEmail :=
    ⟨blind_wordOr (by decide), blind_wordOr (by decide), blind_char (by decide),
      blind_wordOr (by decide), blind_wordOr (by decide), blind_char (by decide),
      blind_labelChar.rep 2 15⟩
  exact hblind.reMatch_map s

theorem reMatch_cmpDomain_map_toLower (s : Str) :
    reMatch cmpDomain (s.map Char.toLower) = reMatch cmpDomain s := by
  have hletter : Blind Char.toLower (cls isLetterIgnoreCase) := isLetterIgnoreCase_toLower
  have hblind : Blind Char.toLower cmpDomain :=
    ⟨blind_wordOr (by decide), blind_wordOr (by decide), blind_char (by decide), hletter.rep 2 15⟩
  exact hblind.reMatch_map s

theorem isEmail_map_toLower (s : Str) : isEmail (s.map Char.toLower) = isEmail s := by
  have hforbidden : ∀ c ∈ "~!$%^*() ".toList, c.isAlpha = false := by decide
  unfold isEmail
  simp only [strip_map_toLower, reMatch_cmpEmail_map_toLower,
    any_map_toLower hforbidden]

theorem isDomain_map_toLower (s : Str) : isDomain (s.map Char.toLower) = isDomain s := by
  have hdot : (s.map Char.toLower).contains '.' = s.contains '.' := by
    rw [Bool.eq_iff_iff, List.contains_iff_mem, List.contains_iff_mem]
    exact mem_map_toLower_iff (by decide)
  have hforbidden : ∀ c ∈ "~!#$%^&*()+\\/ ".toList, c.isAlpha = false := by decide
  unfold isDomain
  simp only [hdot, reMatch_cmpDomain_map_toLower,
    any_map_toLower hforbidden]

omit [Unicode] in
theorem isTldDomain_map_toLower (s : Str) : isTldDomain (s.map Char.toLower) = isTldDomain s :=
  Blind.reMatch_map (blind_labelChar.rep 2 25) s

theorem isWildcardAddr_map_toLower (s : Str) :
    isWildcardAddr (s.map Char.toLower) = isWildcardAddr s := by
  have hblind : Blind Char.toLower regxWildcardAddr :=
    ⟨blind_wordOr (by decide), blind_wordOr (by decide), blind_char (by decide), blind_char (by decide)⟩
  exact hblind.reMatch_map s

/-- The fields of a wildcard address hold no letters. -/
theorem isWildcardIpv4_map_toLower (s : Str) :
    isWildcardIpv4 (s.map Char.toLower) = isWildcardIpv4 s := by
  have hfield : Blind Char.toLower (cls fun c => Unicode.isDecimal c || c == '*') := by
    intro c
    have hstar : (c.toLower == '*') = (c == '*') := blind_char (c := '*') rfl c
    show (_ || _) = (_ || _)
    rw [hstar]
    congr 1
    refine toLower_congr false (fun c hc => ?_) c
    rw [Unicode.isDecimal_ascii c (toNat_lt_of_isAlpha hc), isDigit_of_isAlpha hc]
  have hblind : Blind Char.toLower regxWildcardIpv4 :=
    ⟨hfield.rep 1 3, blind_char (by decide), hfield.rep 1 3, blind_char (by decide), hfield.rep 1 3,
      blind_char (by decide), hfield.rep 1 3⟩
  have hend : ∀ t : Str, (t.map Char.toLower == [] || t.map Char.toLower == ['\n']) =
      (t == [] || t == ['\n']) := by
    intro t
    rw [Bool.eq_iff_iff, Bool.or_eq_true, Bool.or_eq_true, beq_iff_eq, beq_iff_eq, beq_iff_eq, beq_iff_eq,
      map_toLower_eq_iff (by decide), map_toLower_eq_iff (by decide)]
  unfold isWildcardIpv4 reMatchEnd
  rw [hblind.rests_map, List.any_map]
  congr 1
  exact funext hend

/-! ### `is_valid_amavisd_address` -/

/-- The lower case of an address is one, too. -/
theorem isSome_isValidAmavisdAddress_map_toLower {s : Str} (h : (isValidAmavisdAddress s).isSome) :
    (isValidAmavisdAddress (s.map Char.toLower)).isSome := by
  have hsubdomains : startsWith (s.map Char.toLower) "@." = startsWith s "@." :=
    isPrefixOf_map_toLower (by decide)
  have hat : startsWith (s.map Char.toLower) "@" = startsWith s "@" := isPrefixOf_map_toLower (by decide)
  have hcatchall : s.map Char.toLower = "@.".toList ↔ s = "@.".toList := map_toLower_eq_iff (by decide)
  have hlastSub : splitLast "@." (s.map Char.toLower) = (splitLast "@." s).map Char.toLower :=
    splitLast_map_toLower (by decide) s
  have hlast : splitLast "@" (s.map Char.toLower) = (splitLast "@" s).map Char.toLower :=
    splitLast_map_toLower (by decide) s
  by_cases hip : s.map Char.toLower = "@ip".toList
  · rw [hip]
    rfl
  · have hip' : s ≠ "@ip".toList := by
      rintro rfl
      exact hip rfl
    unfold isValidAmavisdAddress isStrictIp isCidrNetwork at *
    simp only [hsubdomains, hat, hcatchall, hlastSub, hlast, isDomain_map_toLower,
      isTldDomain_map_toLower, isEmail_map_toLower, isWildcardAddr_map_toLower, ipAddress_map_toLower,
      ipNetwork_map_toLower, isWildcardIpv4_map_toLower, if_neg hip]
    simpa only [if_neg hip'] using h

/-- **A valid ASCII address is valid in lower case.** -/
theorem isSome_isValidAmavisdAddress_lower {s : Str} (hascii : ∀ c ∈ s, c.toNat < 128)
    (h : (isValidAmavisdAddress s).isSome) : (isValidAmavisdAddress (Unicode.lower s)).isSome := by
  rw [Unicode.lower_ascii s hascii]
  exact isSome_isValidAmavisdAddress_map_toLower h

end IRedAPD

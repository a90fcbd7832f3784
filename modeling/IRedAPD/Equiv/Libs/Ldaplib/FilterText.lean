/-
  What the server makes of the filters that are put together from texts.

  The text of a filter denotes the filter that is meant exactly when no value in
  it has one of the characters NUL, `(`, `)`, `*` and `\` (`reads_text_iff`).
  With an asterisk among the characters of a value it denotes a filter too, but
  one that compares with a pattern (`reads_text_pattern`).
-/
import IRedAPD.Libs.Ldaplib.ConnUtils

namespace IRedAPD

open Py

/-! ### Characters -/

/-- None of the characters that have a meaning in a filter. -/
def NoSpecial (s : Str) : Prop := ∀ c ∈ ['\x00', '(', ')', '*', '\\'], c ∉ s

instance (s : Str) : Decidable (NoSpecial s) :=
  inferInstanceAs (Decidable (∀ c ∈ ['\x00', '(', ')', '*', '\\'], c ∉ s))

/-- None of them but the asterisk. -/
def PatternText (s : Str) : Prop := ∀ c ∈ ['\x00', '(', ')', '\\'], c ∉ s

instance (s : Str) : Decidable (PatternText s) :=
  inferInstanceAs (Decidable (∀ c ∈ ['\x00', '(', ')', '\\'], c ∉ s))

@[simp] theorem encode_append (s t : Str) : encode (s ++ t) = encode s ++ encode t :=
  List.flatMap_append

theorem encode_cons (c : Char) (s : Str) : encode (c :: s) = String.utf8EncodeChar c ++ encode s :=
  List.flatMap_cons

/-- The five octets are those of the five characters. -/
theorem isSpecial_iff (b : UInt8) : Ldap.isSpecial b = true ↔
    ∃ c ∈ ['\x00', '(', ')', '*', '\\'], UInt8.ofNat c.toNat = b := by
  simp only [Ldap.isSpecial, Bool.or_eq_true, beq_iff_eq, List.mem_cons, List.not_mem_nil, or_false,
    exists_eq_or_imp, exists_eq_left, or_assoc]
  exact or_congr eq_comm (or_congr eq_comm (or_congr eq_comm (or_congr eq_comm eq_comm)))

theorem special_ascii : ∀ c ∈ ['\x00', '(', ')', '*', '\\'], c.toNat < 128 := by
  decide

theorem plain_encode_iff {s : Str} : Ldap.Plain (encode s) ↔ NoSpecial s := by
  constructor
  · intro h c hc hmem
    have hb := h _ ((mem_encode_iff (special_ascii c hc)).mpr hmem)
    rw [(isSpecial_iff _).mpr ⟨c, hc, rfl⟩] at hb
    cases hb
  · intro h b hb
    by_contra hne
    obtain ⟨c, hc, rfl⟩ := (isSpecial_iff b).mp (by simpa using hne)
    exact h c hc ((mem_encode_iff (special_ascii c hc)).mp hb)

/-- A value as an assertion: a single part. -/
def exactly (v : Str) : List Ldap.Octets := [encode v]

/-- A value as it is read when it may have asterisks. -/
def partsOf (v : Str) : List Ldap.Octets := (encode v).splitOn 0x2a

theorem intercalate_exactly (v : Str) : [0x2a].intercalate (exactly v) = encode v :=
  List.intercalate_singleton

theorem intercalate_partsOf (v : Str) : [0x2a].intercalate (partsOf v) = encode v :=
  List.intercalate_splitOn _

theorem plain_exactly_iff {v : Str} : (∀ p ∈ exactly v, Ldap.Plain p) ↔ NoSpecial v := by
  rw [exactly, List.forall_mem_singleton, plain_encode_iff]

theorem plain_partsOf_iff {v : Str} : (∀ p ∈ partsOf v, Ldap.Plain p) ↔ PatternText v := by
  constructor
  · intro h c hc hmem
    have hc' : c ∈ ['\x00', '(', ')', '*', '\\'] ∧ c ≠ '*' := by
      simp only [List.mem_cons, List.not_mem_nil, or_false] at hc ⊢
      rcases hc with rfl | rfl | rfl | rfl <;> exact ⟨by decide, by decide⟩
    have hoctet := (mem_encode_iff (special_ascii c hc'.1)).mpr hmem
    rw [← intercalate_partsOf] at hoctet
    rcases Ldap.mem_intercalate hoctet with heq | ⟨p, hp, hmem⟩
    · have hstar : UInt8.ofNat '*'.toNat = 0x2a := rfl
      rw [← hstar, ← UInt8.toNat_inj, UInt8.toNat_ofNat', UInt8.toNat_ofNat'] at heq
      have hlt := special_ascii c hc'.1
      have hnat : c.toNat = '*'.toNat := by
        have hlt' : '*'.toNat < 128 := by decide
        omega
      exact hc'.2 (Char.toNat_inj.mp hnat)
    · have hb := h p hp _ hmem
      rw [(isSpecial_iff _).mpr ⟨c, hc'.1, rfl⟩] at hb
      cases hb
  · intro h p hp b hb
    have hne : b ≠ 0x2a := by
      rintro rfl
      exact Framing.not_mem_of_mem_splitOn hp hb
    have hmem : b ∈ encode v := Framing.mem_of_mem_splitOn hp hb
    by_contra hspecial
    obtain ⟨c, hc, rfl⟩ := (isSpecial_iff b).mp (by simpa using hspecial)
    have hc' : c ∈ ['\x00', '(', ')', '\\'] := by
      simp only [List.mem_cons, List.not_mem_nil, or_false] at hc ⊢
      rcases hc with rfl | rfl | rfl | rfl | rfl
      · exact .inl rfl
      · exact .inr (.inl rfl)
      · exact .inr (.inr (.inl rfl))
      · exact absurd rfl hne
      · exact .inr (.inr (.inr rfl))
    exact h c hc' ((mem_encode_iff (special_ascii c hc)).mp hmem)

/-! ### Filters -/

mutual

/-- What the text of a filter denotes, given the parts of the texts that are put in. -/
def LdapFilter.denote (parts : Str → List Ldap.Octets) : LdapFilter → Ldap.Filter
  | .eq attr value => .item (encode attr) .equal (parts value)
  | .and filters => .and (denoteAll parts filters)
  | .or filters => .or (denoteAll parts filters)

def denoteAll (parts : Str → List Ldap.Octets) : List LdapFilter → List Ldap.Filter
  | [] => []
  | f :: fs => f.denote parts :: denoteAll parts fs

end

mutual

/-- The texts that are put into a filter. -/
def LdapFilter.values : LdapFilter → List Str
  | .eq _ value => [value]
  | .and filters => valuesAll filters
  | .or filters => valuesAll filters

def valuesAll : List LdapFilter → List Str
  | [] => []
  | f :: fs => f.values ++ valuesAll fs

end

mutual

/-- The names of the attributes are attribute descriptions, and no list of filters is empty. -/
def LdapFilter.wellFormed : LdapFilter → Bool
  | .eq attr _ => attr ≠ [] && (encode attr).all Ldap.isAttrOctet
  | .and filters => !filters.isEmpty && wellFormedAll filters
  | .or filters => !filters.isEmpty && wellFormedAll filters

def wellFormedAll : List LdapFilter → Bool
  | [] => true
  | f :: fs => f.wellFormed && wellFormedAll fs

end

mutual

/-- The text of a filter is written without escapes. -/
theorem encode_text {parts : Str → List Ldap.Octets}
    (hparts : ∀ v, [0x2a].intercalate (parts v) = encode v) :
    ∀ f : LdapFilter, encode f.text = (f.denote parts).bare
  | .eq attr value => by
    simp only [LdapFilter.text, LdapFilter.denote, Ldap.Filter.bare, Ldap.Comparison.text, hparts,
      encode_cons, encode_append, List.cons_append, List.append_assoc]
    rfl
  | .and filters => by
    simp only [LdapFilter.text, LdapFilter.denote, Ldap.Filter.bare, encode_cons, encode_append,
      List.cons_append, encode_textAll hparts filters]
    rfl
  | .or filters => by
    simp only [LdapFilter.text, LdapFilter.denote, Ldap.Filter.bare, encode_cons, encode_append,
      List.cons_append, encode_textAll hparts filters]
    rfl

theorem encode_textAll {parts : Str → List Ldap.Octets}
    (hparts : ∀ v, [0x2a].intercalate (parts v) = encode v) :
    ∀ fs : List LdapFilter, encode (textAll fs) = Ldap.bareAll (denoteAll parts fs)
  | [] => rfl
  | f :: fs => by
    rw [textAll, denoteAll, Ldap.bareAll, encode_append, encode_text hparts f,
      encode_textAll hparts fs]

end

theorem isAttr_encode_iff {attr : Str} :
    Ldap.IsAttr (encode attr) ↔ (attr ≠ [] && (encode attr).all Ldap.isAttrOctet) = true := by
  have hnil : encode attr ≠ [] ↔ attr ≠ [] := by
    rw [not_iff_not]
    constructor
    · intro h
      cases attr with
      | nil => rfl
      | cons c attr =>
        rw [encode_cons, List.append_eq_nil_iff] at h
        exact absurd h.1 String.utf8EncodeChar_ne_nil
    · rintro rfl
      rfl
  rw [Ldap.IsAttr, hnil, Bool.and_eq_true, decide_eq_true_eq, List.all_eq_true]

theorem denoteAll_eq_map (parts : Str → List Ldap.Octets) (fs : List LdapFilter) :
    denoteAll parts fs = fs.map (·.denote parts) := by
  induction fs with
  | nil => rfl
  | cons f fs ih => rw [denoteAll, List.map_cons, ih]

theorem denoteAll_ne_nil {parts : Str → List Ldap.Octets} {fs : List LdapFilter} :
    denoteAll parts fs ≠ [] ↔ (!fs.isEmpty) = true := by
  simp [denoteAll_eq_map]

mutual

/-- The conditions on a filter, and those on what is put into it. -/
theorem isPlain_denote_iff {parts : Str → List Ldap.Octets} (hne : ∀ v, parts v ≠ []) :
    ∀ f : LdapFilter, (f.denote parts).IsPlain ↔
      f.wellFormed = true ∧ ∀ v ∈ f.values, ∀ p ∈ parts v, Ldap.Plain p
  | .eq attr value => by
    rw [LdapFilter.denote, Ldap.Filter.IsPlain, isAttr_encode_iff, LdapFilter.wellFormed,
      LdapFilter.values, List.forall_mem_singleton]
    exact ⟨fun h => ⟨h.1, h.2.2.2⟩, fun h => ⟨h.1, hne value, fun h => absurd rfl h, h.2⟩⟩
  | .and filters => by
    rw [LdapFilter.denote, Ldap.Filter.IsPlain, LdapFilter.wellFormed, LdapFilter.values,
      denoteAll_ne_nil, allPlain_denote_iff hne filters, Bool.and_eq_true, and_assoc]
  | .or filters => by
    rw [LdapFilter.denote, Ldap.Filter.IsPlain, LdapFilter.wellFormed, LdapFilter.values,
      denoteAll_ne_nil, allPlain_denote_iff hne filters, Bool.and_eq_true, and_assoc]

theorem allPlain_denote_iff {parts : Str → List Ldap.Octets} (hne : ∀ v, parts v ≠ []) :
    ∀ fs : List LdapFilter, Ldap.AllPlain (denoteAll parts fs) ↔
      wellFormedAll fs = true ∧ ∀ v ∈ valuesAll fs, ∀ p ∈ parts v, Ldap.Plain p
  | [] => by simp [denoteAll, Ldap.AllPlain, wellFormedAll, valuesAll]
  | f :: fs => by
    rw [denoteAll, Ldap.AllPlain, wellFormedAll, valuesAll, isPlain_denote_iff hne f,
      allPlain_denote_iff hne fs, Bool.and_eq_true, List.forall_mem_append]
    exact and_and_and_comm

end

theorem exactly_ne_nil (v : Str) : exactly v ≠ [] := List.cons_ne_nil _ _

theorem partsOf_ne_nil (v : Str) : partsOf v ≠ [] := List.splitOn_ne_nil _ _

/-- With asterisks put in it denotes the filter with patterns. -/
theorem reads_text_pattern_iff {f : LdapFilter} (hf : f.wellFormed = true) :
    Ldap.Reads (encode f.text) (f.denote partsOf) ↔ ∀ v ∈ f.values, PatternText v := by
  rw [encode_text intercalate_partsOf, Ldap.reads_bare_iff, isPlain_denote_iff partsOf_ne_nil]
  simp only [hf, true_and, plain_partsOf_iff]

end IRedAPD

/-
  Texts that differ in the case of ASCII letters only.

  A text that is put together from parts is put together from such parts in
  every other case (`sameLetters_append_iff`, `sameLetters_cons_iff`), and a
  character that is not a letter stays what it is (`eq_of_toLower_eq`).
-/
import IRedAPD.Py.Str
import Mathlib

namespace Py

/-- The same text but for the case of its ASCII letters. -/
def SameLetters (s t : Str) : Prop := s.map Char.toLower = t.map Char.toLower

instance (s t : Str) : Decidable (SameLetters s t) :=
  inferInstanceAs (Decidable (s.map Char.toLower = t.map Char.toLower))

namespace SameLetters

variable {s s' t t' : Str}

@[refl] theorem refl (s : Str) : SameLetters s s := rfl

theorem of_eq (h : s = t) : SameLetters s t := congrArg (List.map Char.toLower) h

@[symm] theorem symm (h : SameLetters s t) : SameLetters t s := Eq.symm h

theorem trans {u : Str} (h : SameLetters s t) (h' : SameLetters t u) : SameLetters s u :=
  Eq.trans h h'

theorem append (h : SameLetters s s') (h' : SameLetters t t') :
    SameLetters (s ++ t) (s' ++ t') := by
  unfold SameLetters
  rw [List.map_append, List.map_append, h, h']

theorem cons (c : Char) (h : SameLetters s t) : SameLetters (c :: s) (c :: t) :=
  append (refl [c]) h

theorem length_eq (h : SameLetters s t) : s.length = t.length := by
  have hlength := congrArg List.length h
  rwa [List.length_map, List.length_map] at hlength

/-- So is what follows from the lower case of a character. -/
theorem forall_mem {P : Char → Prop} (hP : ∀ c d : Char, c.toLower = d.toLower → P d → P c)
    (h : SameLetters s t) (ht : ∀ d ∈ t, P d) : ∀ c ∈ s, P c := by
  intro c hc
  have hmem : c.toLower ∈ t.map Char.toLower := by
    rw [← h]
    exact List.mem_map_of_mem hc
  obtain ⟨d, hd, heq⟩ := List.mem_map.mp hmem
  exact hP c d heq.symm (ht d hd)

/-- In upper case such texts are equal too. -/
theorem map_toUpper (h : SameLetters s t) : s.map Char.toUpper = t.map Char.toUpper := by
  have hupper : ∀ s : Str, s.map Char.toUpper = (s.map Char.toLower).map Char.toUpper := by
    intro s
    rw [List.map_map]
    exact List.map_congr_left fun c _ => (Char.toUpper_toLower_eq_toUpper c).symm
  rw [hupper s, h, ← hupper t]

end SameLetters

/-- The lower case of a text. -/
theorem sameLetters_map_toLower (s : Str) : SameLetters (s.map Char.toLower) s := by
  unfold SameLetters
  rw [List.map_map]
  exact List.map_congr_left fun c _ => Char.toLower_toLower_eq_toLower c

/-! ### Characters -/

/-- A character has one case or is an ASCII letter. -/
theorem eq_or_isAlpha {c d : Char} (h : c.toLower = d.toLower) :
    c = d ∨ c.isAlpha = true ∧ d.isAlpha = true := by
  have halpha : c.isAlpha = d.isAlpha := by
    rw [← Char.isAlpha_toLower_eq_isAlpha c, h, Char.isAlpha_toLower_eq_isAlpha]
  cases hc : c.isAlpha with
  | true => exact .inr ⟨rfl, halpha ▸ hc⟩
  | false =>
    have hnot : ∀ e : Char, e.isAlpha = false → e.toLower = e := by
      intro e he
      apply Char.toLower_eq_of_not_isUpper
      rw [Char.isAlpha, Bool.or_eq_false_iff] at he
      rw [he.1]
      exact Bool.false_ne_true
    left
    rw [← hnot c hc, h, hnot d (halpha ▸ hc)]

theorem eq_of_toLower_eq {c d : Char} (hd : d.isAlpha = false) (h : c.toLower = d.toLower) :
    c = d := by
  rcases eq_or_isAlpha h with rfl | ⟨-, halpha⟩
  · rfl
  · rw [hd] at halpha
    cases halpha

/-- A character is its lower case or the upper case of that. -/
theorem eq_or_eq_toUpper {c d : Char} (h : c.toLower = d) : c = d ∨ c = d.toUpper := by
  by_cases hupper : c.isUpper = true
  · right
    have hlower : ¬ c.isLower = true := Char.not_isLower_of_isUpper hupper
    rw [← h, Char.toUpper_toLower_eq_toUpper, Char.toUpper_eq_of_not_isLower hlower]
  · left
    rw [← h, Char.toLower_eq_of_not_isUpper hupper]

/-- A list of characters without letters holds either both or none. -/
theorem mem_iff_of_toLower_eq {cs : List Char} (hcs : ∀ c ∈ cs, c.isAlpha = false) {c d : Char}
    (h : c.toLower = d.toLower) : c ∈ cs ↔ d ∈ cs := by
  constructor
  · intro hc
    rwa [eq_of_toLower_eq (hcs c hc) h.symm]
  · intro hd
    rwa [eq_of_toLower_eq (hcs d hd) h]

/-- Only the character itself has a character that is not a letter as its lower case. -/
theorem toLower_eq_iff {c d : Char} (hd : d.isAlpha = false) : c.toLower = d ↔ c = d := by
  have hlower : d.toLower = d := by
    apply Char.toLower_eq_of_not_isUpper
    rw [Char.isAlpha, Bool.or_eq_false_iff] at hd
    rw [hd.1]
    exact Bool.false_ne_true
  constructor
  · intro h
    apply eq_of_toLower_eq hd
    rw [h, hlower]
  · rintro rfl
    exact hlower

/-- A property of every character but the letters, which it holds of all or of none. -/
theorem toLower_congr {p : Char → Bool} (b : Bool) (h : ∀ c, c.isAlpha = true → p c = b) (c : Char) :
    p c.toLower = p c := by
  by_cases halpha : c.isAlpha = true
  · rw [h c halpha, h c.toLower (by rwa [Char.isAlpha_toLower_eq_isAlpha])]
  · rw [(toLower_eq_iff (Bool.eq_false_iff.mpr halpha)).mpr rfl]

/-- ASCII letters stand between `A` and `z`. -/
theorem toNat_of_isAlpha {c : Char} (h : c.isAlpha = true) : 65 ≤ c.toNat ∧ c.toNat ≤ 122 := by
  unfold Char.isAlpha Char.isUpper Char.isLower at h
  simp only [ge_iff_le, Bool.or_eq_true, Bool.and_eq_true, decide_eq_true_eq,
    UInt32.le_iff_toNat_le] at h
  show 65 ≤ c.val.toNat ∧ c.val.toNat ≤ 122
  rcases h with ⟨hlo, hhi⟩ | ⟨hlo, hhi⟩
  · exact ⟨hlo, le_trans hhi (by decide)⟩
  · exact ⟨le_trans (by decide) hlo, hhi⟩

/-- ASCII letters are ASCII characters. -/
theorem toNat_lt_of_isAlpha {c : Char} (h : c.isAlpha = true) : c.toNat < 128 :=
  lt_of_le_of_lt (toNat_of_isAlpha h).2 (by decide)

/-- ASCII letters are no digits. -/
theorem isDigit_of_isAlpha {c : Char} (h : c.isAlpha = true) : c.isDigit = false := by
  obtain ⟨hlo, -⟩ := toNat_of_isAlpha h
  rw [Bool.eq_false_iff]
  intro hdigit
  unfold Char.isDigit at hdigit
  simp only [ge_iff_le, Bool.and_eq_true, decide_eq_true_eq, UInt32.le_iff_toNat_le] at hdigit
  have hhi : c.toNat ≤ 57 := hdigit.2
  omega

/-! ### Parts -/

theorem sameLetters_append_iff {r s t : Str} : SameLetters r (s ++ t) ↔
    ∃ s' t', r = s' ++ t' ∧ SameLetters s' s ∧ SameLetters t' t := by
  constructor
  · intro h
    unfold SameLetters at h
    rw [List.map_append] at h
    obtain ⟨s', t', rfl, hs, ht⟩ := List.map_eq_append_iff.mp h
    exact ⟨s', t', rfl, hs, ht⟩
  · rintro ⟨s', t', rfl, hs, ht⟩
    exact hs.append ht

theorem sameLetters_cons_iff {r t : Str} {d : Char} : SameLetters r (d :: t) ↔
    ∃ c t', r = c :: t' ∧ SameLetters [c] [d] ∧ SameLetters t' t := by
  have hcons : d :: t = [d] ++ t := rfl
  rw [hcons, sameLetters_append_iff]
  constructor
  · rintro ⟨s', t', rfl, hd, ht⟩
    obtain ⟨c, rfl⟩ := List.length_eq_one_iff.mp hd.length_eq
    exact ⟨c, t', rfl, hd, ht⟩
  · rintro ⟨c, t', rfl, hd, ht⟩
    exact ⟨[c], t', rfl, hd, ht⟩

/-- What stands before, a character that is not a letter, and what follows. -/
theorem exists_of_sameLetters_append_cons {r s t : Str} {c : Char} (hc : c.isAlpha = false)
    (h : SameLetters r (s ++ c :: t)) :
    ∃ s' t', r = s' ++ c :: t' ∧ SameLetters s' s ∧ SameLetters t' t := by
  obtain ⟨s', u, rfl, hs, hu⟩ := sameLetters_append_iff.mp h
  obtain ⟨d, t', rfl, hd, ht⟩ := sameLetters_cons_iff.mp hu
  obtain rfl := eq_of_toLower_eq hc (List.cons.inj hd).1
  exact ⟨s', t', rfl, hs, ht⟩

/-! ### `str` methods on the lower case of a text -/

theorem map_toLower_eq_iff {s t : Str} (ht : ∀ c ∈ t, c.isAlpha = false) :
    s.map Char.toLower = t ↔ s = t := by
  induction t generalizing s with
  | nil => exact List.map_eq_nil_iff
  | cons d t ih =>
    have hd := toLower_eq_iff (ht d List.mem_cons_self) (c := s.headD 'a')
    cases s with
    | nil => simp
    | cons c s =>
      rw [List.map_cons, List.cons_eq_cons, List.cons_eq_cons, ih fun c hc => ht c (List.mem_cons_of_mem d hc)]
      exact and_congr_left fun _ => hd

theorem mem_map_toLower_iff {s : Str} {c : Char} (hc : c.isAlpha = false) :
    c ∈ s.map Char.toLower ↔ c ∈ s := by
  rw [List.mem_map]
  constructor
  · rintro ⟨d, hd, heq⟩
    rwa [← (toLower_eq_iff hc).mp heq]
  · exact fun h => ⟨c, h, (toLower_eq_iff hc).mpr rfl⟩

theorem isPrefixOf_map_toLower {s t : Str} (ht : ∀ c ∈ t, c.isAlpha = false) :
    t.isPrefixOf (s.map Char.toLower) = t.isPrefixOf s := by
  rw [Bool.eq_iff_iff, List.isPrefixOf_iff_prefix, List.isPrefixOf_iff_prefix,
    List.prefix_iff_eq_take, List.prefix_iff_eq_take, ← List.map_take, eq_comm, map_toLower_eq_iff ht,
    eq_comm]

theorem splitOnce_map_toLower {sep : Str} (hsep : ∀ c ∈ sep, c.isAlpha = false) (s : Str) :
    splitOnce sep (s.map Char.toLower) =
      (splitOnce sep s).map (Prod.map (List.map Char.toLower) (List.map Char.toLower)) := by
  induction s with
  | nil =>
    rw [List.map_nil]
    unfold splitOnce
    split_ifs <;> rfl
  | cons c s ih =>
    rw [List.map_cons, splitOnce, splitOnce, ← List.map_cons, isPrefixOf_map_toLower hsep]
    split_ifs
    · rw [← List.map_drop]
      rfl
    · rw [ih, Option.map_map, Option.map_map]
      rfl

theorem splitLast_map_toLower {sep : Str} (hsep : ∀ c ∈ sep, c.isAlpha = false) (s : Str) :
    splitLast sep (s.map Char.toLower) = (splitLast sep s).map Char.toLower := by
  unfold splitLast
  rw [splitOnce_map_toLower hsep]
  cases splitOnce sep s with
  | none => rfl
  | some p => rfl

theorem splitOn_map_toLower {sep : Char} (hsep : sep.isAlpha = false) (s : Str) :
    (s.map Char.toLower).splitOn sep = (s.splitOn sep).map (List.map Char.toLower) := by
  induction s with
  | nil => rfl
  | cons c s ih =>
    have hc : (c.toLower == sep) = (c == sep) := by
      rw [Bool.eq_iff_iff, beq_iff_eq, beq_iff_eq, toLower_eq_iff hsep]
    rw [List.map_cons, List.splitOn_cons_eq_if_modifyHead, List.splitOn_cons_eq_if_modifyHead, ih, hc]
    split_ifs
    · rfl
    · cases s.splitOn sep with
      | nil => rfl
      | cons p ps => rfl

theorem isSpace_toLower (c : Char) : isSpace c.toLower = isSpace c := by
  refine toLower_congr false (fun c hc => ?_) c
  have hrange := toNat_of_isAlpha hc
  unfold isSpace
  simp only [Bool.or_eq_false_iff, Bool.and_eq_false_iff, decide_eq_false_iff_not, beq_eq_false_iff_ne]
  omega

theorem strip_map_toLower (s : Str) : strip (s.map Char.toLower) = (strip s).map Char.toLower := by
  have hspace : isSpace ∘ Char.toLower = isSpace := funext isSpace_toLower
  unfold strip List.rdropWhile
  rw [List.dropWhile_map, hspace, ← List.map_reverse, List.dropWhile_map, hspace, ← List.map_reverse]

/-- None of some characters occurs, or one does. -/
theorem any_map_toLower {cs : List Char} (hcs : ∀ c ∈ cs, c.isAlpha = false) (s : Str) :
    (s.map Char.toLower).any (cs.contains ·) = s.any (cs.contains ·) := by
  rw [List.any_map]
  congr 1
  funext c
  rw [Function.comp_apply, Bool.eq_iff_iff, List.contains_iff_mem, List.contains_iff_mem]
  exact mem_iff_of_toLower_eq hcs (Char.toLower_toLower_eq_toLower c)

end Py

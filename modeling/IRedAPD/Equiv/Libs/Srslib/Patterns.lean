/-
  What the patterns of `libs/srslib.py` capture.

  A rewritten address is put together from fields without `=`, so that its parts
  are found again (`srs0_eq`, `srs1_eq`), in whatever case the letters of the tag
  are written.  What is captured of any other local part is a part of it
  (`exists_of_firstHop`).
-/
import IRedAPD.Equiv.MailAddress
import IRedAPD.Libs.Srslib

namespace IRedAPD.Srslib

open Py

/-! ### Fields -/

/-- What `[^=]+` matches. -/
def Field (w : Str) : Prop := w ≠ [] ∧ '=' ∉ w

/-- What `[-+=].+` matches of a line. -/
def Separated (s : Str) : Prop := ∃ c text, s = c :: text ∧ isSeparator c = true ∧ text ≠ []

theorem Field.of_sameLetters {s t : Str} (h : SameLetters s t) (ht : Field t) : Field s := by
  constructor
  · rintro rfl
    exact ht.1 (List.length_eq_zero_iff.mp h.length_eq.symm)
  · have hnot : ∀ c ∈ s, c ≠ '=' := by
      refine h.forall_mem (fun c d heq hd => ?_) fun d hd => ne_of_mem_of_not_mem hd ht.2
      rintro rfl
      exact hd (eq_of_toLower_eq (by decide) heq.symm)
    exact fun hmem => hnot '=' hmem rfl

theorem Separated.of_sameLetters {s t : Str} (h : SameLetters s t) (ht : Separated t) :
    Separated s := by
  obtain ⟨d, text', rfl, hd, hne⟩ := ht
  obtain ⟨c, text, rfl, hc, htext⟩ := sameLetters_cons_iff.mp h
  refine ⟨c, text, rfl, ?_, ?_⟩
  · have halpha : ∀ c ∈ ['-', '+', '='], c.isAlpha = false := by decide
    have hmem := mem_iff_of_toLower_eq halpha (List.cons.inj hc).1
    unfold isSeparator at hd ⊢
    rw [List.contains_iff_mem] at hd ⊢
    exact hmem.mpr hd
  · rintro rfl
    exact hne (List.length_eq_zero_iff.mp htext.length_eq.symm)

theorem field_append {w : Str} (h : Field w) (s : Str) : field (w ++ '=' :: s) = some (w, s) := by
  have hsplit : splitOnce "=".toList (w ++ '=' :: s) = some (w, s) := splitOnce_append h.2 s
  unfold field
  rw [hsplit, Option.filter_some, if_pos (decide_eq_true h.1)]

theorem of_field {s w t : Str} (h : field s = some (w, t)) : s = w ++ '=' :: t ∧ Field w := by
  unfold field at h
  obtain ⟨hsplit, hne⟩ := Option.filter_eq_some_iff.mp h
  have hmem : '=' ∈ s := isSome_splitOnce.mp (Option.isSome_iff_exists.mpr ⟨_, hsplit⟩)
  obtain ⟨a, b, rfl, ha⟩ := List.eq_append_cons_of_mem hmem
  have heq : splitOnce "=".toList (a ++ '=' :: b) = some (a, b) := splitOnce_append ha b
  rw [heq] at hsplit
  obtain ⟨rfl, rfl⟩ := Prod.mk.inj (Option.some.inj hsplit)
  exact ⟨rfl, of_decide_eq_true hne, ha⟩

/-- Without a line break `.+` matches the whole text. -/
theorem someText_eq {s : Str} (hne : s ≠ []) (hline : '\n' ∉ s) : someText s = some s := by
  have htake : s.takeWhile (· ≠ '\n') = s := by
    rw [List.takeWhile_eq_self_iff]
    exact fun c hc => decide_eq_true (ne_of_mem_of_not_mem hc hline)
  unfold someText
  rw [htake, Option.filter_some, if_pos (decide_eq_true hne)]

theorem separatorAndText_eq {s : Str} (h : Separated s) (hline : '\n' ∉ s) :
    separatorAndText s = some s := by
  obtain ⟨c, text, rfl, hc, hne⟩ := h
  rw [separatorAndText, if_pos hc, someText_eq hne fun hmem => hline (List.mem_cons_of_mem c hmem)]
  rfl

theorem of_separatorAndText {s t : Str} (hline : '\n' ∉ s) (h : separatorAndText s = some t) :
    s = t ∧ Separated t := by
  cases s with
  | nil => cases h
  | cons c text =>
    rw [separatorAndText] at h
    split_ifs at h with hc
    by_cases hne : text = []
    · rw [hne] at h
      cases h
    · rw [someText_eq hne fun hmem => hline (List.mem_cons_of_mem c hmem)] at h
      obtain rfl := Option.some.inj h
      exact ⟨rfl, c, text, rfl, hc, hne⟩

/-! ### The tag -/

theorem isS_of_toLower {c : Char} (h : c.toLower = 's') : isS c = true := by
  rcases eq_or_eq_toUpper h with rfl | rfl
  · rfl
  · rfl

theorem isR_of_toLower {c : Char} (h : c.toLower = 'r') : (c == 'R' || c == 'r') = true := by
  rcases eq_or_eq_toUpper h with rfl | rfl
  · rfl
  · rfl

/-- A tag in any case, read with the same or with another digit. -/
theorem tag_append {t : Str} {d : Char} (hd : d.isAlpha = false)
    (h : SameLetters t ['S', 'R', 'S', d]) (digit : Char) (s : Str) :
    tag digit (t ++ s) = if d = digit then some s else none := by
  obtain ⟨s₁, t₁, rfl, h₁, ht₁⟩ := sameLetters_cons_iff.mp h
  obtain ⟨r, t₂, rfl, h₂, ht₂⟩ := sameLetters_cons_iff.mp ht₁
  obtain ⟨s₂, t₃, rfl, h₃, ht₃⟩ := sameLetters_cons_iff.mp ht₂
  obtain ⟨e, t₄, rfl, h₄, ht₄⟩ := sameLetters_cons_iff.mp ht₃
  obtain rfl := List.length_eq_zero_iff.mp ht₄.length_eq
  obtain rfl := eq_of_toLower_eq hd (List.cons.inj h₄).1
  show (if isS s₁ && (r == 'R' || r == 'r') && isS s₂ && e == digit then some s else none) = _
  rw [isS_of_toLower (List.cons.inj h₁).1, isR_of_toLower (List.cons.inj h₂).1,
    isS_of_toLower (List.cons.inj h₃).1, Bool.true_and, Bool.true_and, Bool.true_and]
  simp only [beq_iff_eq]

/-- What follows a tag is a part of the text, which starts with `S`. -/
theorem of_tag {digit : Char} {s t : Str} (h : tag digit s = some t) :
    ∃ c pre, s = c :: pre ++ t ∧ isS c = true := by
  unfold tag at h
  split at h
  · next s₁ r s₂ d u =>
    split_ifs at h with htag
    obtain rfl := Option.some.inj h
    rw [Bool.and_eq_true, Bool.and_eq_true, Bool.and_eq_true] at htag
    exact ⟨s₁, [r, s₂, d], rfl, htag.1.1.1⟩
  · cases h

/-! ### Rewritten addresses -/

section Made

variable {t h ts host localPart : Str}

@[simp] theorem separator_equals (s : Str) : separator ('=' :: s) = some s := rfl

/-- **An SRS0 address is taken apart.** -/
theorem srs0_eq (ht : SameLetters t "SRS0".toList) (hh : Field h) (hts : Field ts)
    (hhost : Field host) (hne : localPart ≠ []) (hline : '\n' ∉ localPart) :
    srs0 (t ++ '=' :: (h ++ '=' :: (ts ++ '=' :: (host ++ '=' :: localPart)))) =
      some (h, ts, host, localPart) := by
  unfold srs0
  rw [tag_append (d := '0') (by decide) ht, if_pos rfl, Option.bind_eq_bind, Option.bind_some]
  simp only [separator_equals, field_append hh, field_append hts, field_append hhost,
    someText_eq hne hline, Option.bind_eq_bind, Option.bind_some, Option.pure_def]

/-- It is no SRS1 address. -/
theorem srs1_eq_none (ht : SameLetters t "SRS0".toList) (s : Str) : srs1 (t ++ s) = none := by
  unfold srs1
  rw [tag_append (d := '0') (by decide) ht, if_neg (by decide)]
  rfl

/-- **An SRS1 address is taken apart.** -/
theorem srs1_eq (ht : SameLetters t "SRS1".toList) (hh : Field h) (hhost : Field host)
    (hseparated : Separated localPart) (hline : '\n' ∉ localPart) :
    srs1 (t ++ '=' :: (h ++ '=' :: (host ++ '=' :: localPart))) = some (h, host, localPart) := by
  unfold srs1
  rw [tag_append (d := '1') (by decide) ht, if_pos rfl, Option.bind_eq_bind, Option.bind_some]
  simp only [separator_equals, field_append hh, field_append hhost,
    separatorAndText_eq hseparated hline, Option.bind_eq_bind, Option.bind_some, Option.pure_def]

end Made

/-! ### Local parts -/

/-- The first hop of an address that has been rewritten: its host, and the local part there after
the tag. -/
def firstHop (localPart host : Str) : Option (Str × Str) :=
  match srs1 localPart with
  | some (_, firstHop, rest) => some (firstHop, rest)
  | none => (srs0Opaque localPart).map fun rest => (host, rest)

/-- A local part that does not start with `S` has not been rewritten. -/
theorem firstHop_eq_none {c : Char} (hc : isS c = false) (s host : Str) :
    firstHop (c :: s) host = none := by
  have htag : ∀ digit, tag digit (c :: s) = none := by
    intro digit
    cases hsome : tag digit (c :: s) with
    | none => rfl
    | some t =>
      obtain ⟨d, pre, heq, hd⟩ := of_tag hsome
      rw [(List.cons.inj heq).1, hd] at hc
      cases hc
  unfold firstHop srs1 srs0Opaque
  rw [htag, htag]
  rfl

/-- The first hop is named in the local part, or it is the host. -/
theorem exists_of_firstHop {localPart host first rest : Str} (hline : '\n' ∉ localPart)
    (hhost : Field host) (h : firstHop localPart host = some (first, rest)) :
    Field first ∧ Separated rest ∧ (first = host ∨ first ⊆ localPart) ∧ rest ⊆ localPart := by
  unfold firstHop at h
  cases hsrs1 : srs1 localPart with
  | some found =>
    rw [hsrs1] at h
    obtain ⟨hash, first', rest'⟩ := found
    obtain ⟨rfl, rfl⟩ := Prod.mk.inj (Option.some.inj h)
    unfold srs1 at hsrs1
    simp only [Option.bind_eq_bind, Option.bind_eq_some_iff, Option.pure_def, Option.some.injEq,
      Prod.mk.injEq] at hsrs1
    obtain ⟨s, htag, s', hseparator, ⟨hash', s''⟩, hhash, ⟨first'', s'''⟩, hfirst, rest'', hrest,
      -, rfl, rfl⟩ := hsrs1
    obtain ⟨c, pre, rfl, -⟩ := of_tag htag
    cases s with
    | nil => cases hseparator
    | cons d s =>
      rw [separator] at hseparator
      split_ifs at hseparator
      obtain rfl := Option.some.inj hseparator
      obtain ⟨rfl, -⟩ := of_field hhash
      obtain ⟨rfl, hfield⟩ := of_field hfirst
      obtain ⟨rfl, hseparated⟩ := of_separatorAndText (fun hmem => hline (by simp [hmem])) hrest
      exact ⟨hfield, hseparated, .inr fun x hx => by simp [hx], fun x hx => by simp [hx]⟩
  | none =>
    rw [hsrs1] at h
    obtain ⟨rest', hopaque, heq⟩ := Option.map_eq_some_iff.mp h
    obtain ⟨rfl, rfl⟩ := Prod.mk.inj heq
    obtain ⟨s, htag, htext⟩ := Option.bind_eq_some_iff.mp hopaque
    obtain ⟨c, pre, rfl, -⟩ := of_tag htag
    obtain ⟨rfl, hseparated⟩ := of_separatorAndText (fun hmem => hline (by simp [hmem])) htext
    exact ⟨hhost, hseparated, .inl rfl, fun x hx => by simp [hx]⟩

end IRedAPD.Srslib

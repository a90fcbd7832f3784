/-
  Where `strip_mail_ext_address` cuts an address.

  The loop goes over the delimiters as they are listed and cuts the local part where
  the first of them that occurs is first seen.  Another delimiter may stand before
  that place, and the cut may leave nothing: the address without extension is what
  is left exactly when the delimiter that stands first is also the one that is
  listed first among those that occur, and something stands before it
  (`stripsExtension_iff`).
-/
import IRedAPD.Equiv.MailAddress

namespace IRedAPD

open Py Py.Regex Regxes

/-! ### Cutting the local part -/

/-- The local part before the first delimiter that follows its first character. -/
def withoutExtension (ds : List Char) : Str → Str
  | [] => []
  | c :: s => c :: s.takeWhile fun d => !ds.contains d

/-- What stands before the first delimiter, when it is not the first character. -/
theorem withoutExtension_append {ds : List Char} {a : Str} {d : Char} (hne : a ≠ [])
    (ha : ∀ c ∈ a, c ∉ ds) (hd : d ∈ ds) (b : Str) : withoutExtension ds (a ++ d :: b) = a := by
  obtain ⟨c, a, rfl⟩ := List.exists_cons_of_ne_nil hne
  rw [List.cons_append, withoutExtension, List.takeWhile_append_of_pos]
  · rw [List.takeWhile_cons_of_neg (by simpa using hd), List.append_nil]
  · intro x hx
    simpa using ha x (List.mem_cons_of_mem c hx)

/-- A local part without delimiters is left as it is. -/
theorem withoutExtension_eq_self {ds : List Char} {user : Str} (h : ∀ d ∈ ds, d ∉ user) :
    withoutExtension ds user = user := by
  cases user with
  | nil => rfl
  | cons c s =>
    rw [withoutExtension, List.takeWhile_eq_self_iff.mpr]
    intro x hx
    simpa using fun hmem => h x hmem (List.mem_cons_of_mem c hx)

/-- None of the delimiters occurs, or there is a first one in the list that does. -/
theorem exists_first_listed (ds : List Char) (user : Str) :
    (∀ d ∈ ds, d ∉ user) ∨ ∃ before d after a b, ds = before ++ d :: after ∧ user = a ++ d :: b ∧
      (∀ d' ∈ before, d' ∉ user) ∧ d ∉ a := by
  induction ds with
  | nil => exact .inl (by simp)
  | cons d ds ih =>
    by_cases hd : d ∈ user
    · obtain ⟨a, b, rfl, ha⟩ := List.eq_append_cons_of_mem hd
      exact .inr ⟨[], d, ds, a, b, rfl, rfl, by simp, ha⟩
    rcases ih with hnone | ⟨before, e, after, a, b, rfl, heq, hbefore, ha⟩
    · refine .inl fun e he => ?_
      rcases List.mem_cons.mp he with rfl | he
      · exact hd
      · exact hnone e he
    · refine .inr ⟨d :: before, e, after, a, b, rfl, heq, fun d' hd' => ?_, ha⟩
      rcases List.mem_cons.mp hd' with rfl | hd'
      · exact hd
      · exact hbefore d' hd'

/-! ### White space around an address -/

/-- Stripping at the end stops at a character that is not white space. -/
theorem rdropWhile_append_cons {p : Char → Bool} {c : Char} (hc : p c = false) (s t : Str) :
    (s ++ c :: t).rdropWhile p = s ++ c :: t.rdropWhile p := by
  induction t using List.reverseRecOn with
  | nil => rw [List.rdropWhile_nil, List.rdropWhile_concat_neg _ _ _ (by simp [hc])]
  | append_singleton t d ih =>
    rw [← List.cons_append, ← List.append_assoc, List.rdropWhile_concat, List.rdropWhile_concat, ih]
    split_ifs
    · rfl
    · simp

/-- White space before an address and after its domain is taken away. -/
theorem strip_append_at {pre s : Str} (hpre : ∀ c ∈ pre, isSpace c = true)
    (hs : ∀ c, s.head? = some c → isSpace c = false) (domain : Str) :
    strip (pre ++ s ++ '@' :: domain) = s ++ '@' :: domain.rdropWhile isSpace := by
  have hdrop : (pre ++ s ++ '@' :: domain).dropWhile isSpace = s ++ '@' :: domain := by
    rw [List.append_assoc, List.dropWhile_append_of_pos hpre]
    cases s with
    | nil => rfl
    | cons c s => rw [List.cons_append, List.dropWhile_cons_of_neg (by simp [hs c rfl])]
  rw [strip, hdrop]
  exact rdropWhile_append_cons (by decide) s domain

/-- A text is white space and what starts with something else. -/
theorem exists_blank_append (s : Str) : ∃ pre t, s = pre ++ t ∧ (∀ c ∈ pre, isSpace c = true) ∧
    ∀ c, t.head? = some c → isSpace c = false := by
  refine ⟨s.takeWhile isSpace, s.dropWhile isSpace, (List.takeWhile_append_dropWhile).symm,
    fun c hc => List.mem_takeWhile_imp hc, fun c hc => ?_⟩
  have hhead := List.head?_dropWhile_not isSpace s
  rw [hc] at hhead
  simpa using hhead

variable [Unicode]

/-- An address starts with no `@`. -/
theorem reMatch_email_at (s : Str) : reMatch cmpEmail ('@' :: s) = false := by
  have hword : isWord '@' = false := isWord_of_ascii (by decide) (by decide)
  refine reMatch_eq_false rfl ?_ s
  show (isWord '@' || ['-', '#'].contains '@' || (false && _)) = false
  rw [hword, Bool.false_and, Bool.or_false]
  rfl

/-- **A cut within the local part leaves an address** unless nothing but white space is left of it. -/
theorem isEmail_cut_iff {a rest domain : Str} (hat : '@' ∉ a ++ rest)
    (hmail : isEmail (a ++ rest ++ '@' :: domain) = true) :
    isEmail (a ++ '@' :: domain) = true ↔ ∃ c ∈ a, isSpace c = false := by
  obtain ⟨pre, t, rfl, hpre, hhead⟩ := exists_blank_append a
  cases t with
  | nil =>
    -- the local part is blank
    have hno : ¬∃ c ∈ pre ++ [], isSpace c = false := by
      rintro ⟨c, hc, hspace⟩
      rw [hpre c (by simpa using hc)] at hspace
      cases hspace
    refine iff_of_false (fun h => ?_) hno
    unfold isEmail at h
    simp only [strip_append_at hpre hhead, List.nil_append, reMatch_email_at, Bool.and_false] at h
    cases h
  | cons c t =>
    refine iff_of_true ?_ ⟨c, by simp, hhead c rfl⟩
    have hwhole : strip (pre ++ (c :: t) ++ rest ++ '@' :: domain) =
        c :: t ++ rest ++ '@' :: domain.rdropWhile isSpace := by
      rw [List.append_assoc pre (c :: t) rest]
      exact strip_append_at hpre (s := c :: (t ++ rest)) (fun d hd => hhead d hd) domain
    unfold isEmail at hmail ⊢
    simp only [hwhole, strip_append_at hpre hhead, Bool.and_eq_true, Bool.not_eq_true'] at hmail ⊢
    obtain ⟨hforbidden, hmatch⟩ := hmail
    constructor
    · rw [List.any_eq_false] at hforbidden ⊢
      intro d hd
      refine hforbidden d ?_
      rcases List.mem_append.mp hd with hd | hd
      · exact List.mem_append_left _ (List.mem_append_left _ hd)
      · exact List.mem_append_right _ hd
    · obtain ⟨w, hw, more, hmore⟩ := (reMatch_iff _ _).mp hmatch
      obtain ⟨e, user, name, rfl, he, huser, hname⟩ := reachesEnd_email.mp (reachesEnd_iff.mpr hw)
      -- the match has its `@` where the address has it
      have hlocal : LocalPart (e :: user) := ⟨e, user, rfl, he, huser⟩
      have hatLocal : '@' ∉ e :: user := hlocal.chars.notMem (by decide) (by decide) (by decide)
      have hatWhole : '@' ∉ c :: t ++ rest := fun h => hat (by
        rw [List.append_assoc]
        exact List.mem_append_right _ h)
      obtain ⟨hcut, hdomain⟩ : c :: t ++ rest = e :: user ∧ domain.rdropWhile isSpace = name ++ more :=
        append_cons_inj hatWhole hatLocal (by rw [← hmore]; simp)
      obtain ⟨rfl, rfl⟩ := List.cons.inj hcut
      refine (reMatch_iff _ _).mpr ⟨c :: (t ++ '@' :: name), ?_, more, by rw [hdomain]; simp⟩
      refine reachesEnd_iff.mp (reachesEnd_email.mpr ⟨c, t, name, rfl, he, fun d hd => ?_, hname⟩)
      exact huser d (List.mem_append_left _ hd)

/-! ### What the loop returns -/

section Loop

variable {settings : Settings} {ds : List Char}
  (hds : settings.recipientDelimiters = ds.map fun d => [d])

include hds in
/-- Without a delimiter an address stays as it is. -/
theorem stripMailExtAddress_of_none {user domain : Str} (hat : '@' ∉ user)
    (hmail : isEmail (user ++ '@' :: domain) = true) (hnone : ∀ d ∈ ds, d ∉ user) :
    stripMailExtAddress settings (user ++ '@' :: domain) = user ++ '@' :: domain := by
  have hfirst : splitFirst "@" (user ++ '@' :: domain) = user := splitFirst_append hat domain
  have hcut : (ds.map fun d => [d]).findSome? (fun d => splitOnce d user) = none := by
    rw [List.findSome?_eq_none_iff]
    intro d hd
    obtain ⟨e, he, rfl⟩ := List.mem_map.mp hd
    rw [← Option.not_isSome_iff_eq_none, isSome_splitOnce]
    exact hnone e he
  unfold stripMailExtAddress
  rw [hmail, Bool.not_true, if_neg Bool.false_ne_true]
  simp only
  rw [hds, hfirst, hcut]

include hds in
/-- The first listed delimiter that occurs cuts the local part where it is first seen. -/
theorem stripMailExtAddress_of_first {before after : List Char} {a b domain : Str} {d : Char}
    (heq : ds = before ++ d :: after) (hat : '@' ∉ a ++ d :: b)
    (hmail : isEmail (a ++ d :: b ++ '@' :: domain) = true)
    (hbefore : ∀ d' ∈ before, d' ∉ a ++ d :: b) (ha : d ∉ a) :
    stripMailExtAddress settings (a ++ d :: b ++ '@' :: domain) = a ++ '@' :: domain := by
  have hfirst : splitFirst "@" (a ++ d :: b ++ '@' :: domain) = a ++ d :: b :=
    splitFirst_append hat domain
  have hlast : splitLast "@" (a ++ d :: b ++ '@' :: domain) = domain := splitLast_append hat domain
  have hpassed : (before.map fun d => [d]).findSome? (fun e => splitOnce e (a ++ d :: b)) = none := by
    rw [List.findSome?_eq_none_iff]
    intro e he
    obtain ⟨d', hd', rfl⟩ := List.mem_map.mp he
    rw [← Option.not_isSome_iff_eq_none, isSome_splitOnce]
    exact hbefore d' hd'
  have hcut : (ds.map fun d => [d]).findSome? (fun e => splitOnce e (a ++ d :: b)) = some (a, b) := by
    have hsome : splitOnce [d] (a ++ d :: b) = some (a, b) := splitOnce_append ha b
    rw [heq, List.map_append, List.findSome?_append, hpassed, Option.none_or, List.map_cons,
      List.findSome?_cons, hsome]
  unfold stripMailExtAddress
  rw [hmail, Bool.not_true, if_neg Bool.false_ne_true]
  simp only
  rw [hds, hfirst, hcut, hlast]

end Loop

/-! ### The address without extension -/

/-- The address is cut before the first delimiter that follows its first character; what is left is an
address without delimiters, which is left as it is. -/
structure StripsExtension (settings : Settings) (ds : List Char) (mail user domain : Str) : Prop where
  strips : stripMailExtAddress settings mail = withoutExtension ds user ++ '@' :: domain
  isEmail : IRedAPD.isEmail (stripMailExtAddress settings mail) = true
  noDelimiter : ∀ d ∈ ds, d ∉ (splitFirst "@" (stripMailExtAddress settings mail)).tail
  idempotent : stripMailExtAddress settings (stripMailExtAddress settings mail) =
    stripMailExtAddress settings mail

omit [Unicode] in
/-- No delimiter occurs, or the one that stands first in the local part is listed before the others
that occur, and what stands before it is not blank. -/
def FirstDelimiterCuts (ds : List Char) (user : Str) : Prop :=
  (∀ d ∈ ds, d ∉ user) ∨ ∃ before d after a b, ds = before ++ d :: after ∧ user = a ++ d :: b ∧
    (∀ d' ∈ before, d' ∉ user) ∧ (∀ c ∈ a, c ∉ ds) ∧ ∃ c ∈ a, isSpace c = false

/-- **An address is cut as documented** exactly when the delimiter that stands first in its local part
is the first listed one that occurs, and something stands before it. -/
theorem stripsExtension_iff {settings : Settings} {ds : List Char} {mail user domain : Str}
    (hds : settings.recipientDelimiters = ds.map fun d => [d]) (hmail : isEmail mail = true)
    (hsplit : splitOnce "@" mail = some (user, domain)) :
    StripsExtension settings ds mail user domain ↔ FirstDelimiterCuts ds user := by
  obtain ⟨u, v, rfl, hat⟩ := List.eq_append_cons_of_mem (at_mem_of_isEmail hmail)
  obtain ⟨rfl, rfl⟩ : u = user ∧ v = domain :=
    Prod.ext_iff.mp (Option.some.inj ((splitOnce_append hat v).symm.trans hsplit))
  have hlocal : ∀ {a : Str}, '@' ∉ a → splitFirst "@" (a ++ '@' :: v) = a :=
    fun ha => splitFirst_append ha v
  constructor
  · intro h
    rcases exists_first_listed ds u with hnone | ⟨before, d, after, a, b, heq, rfl, hbefore, ha⟩
    · exact .inl hnone
    have hata : '@' ∉ a := fun hmem => hat (List.mem_append_left _ hmem)
    have hcut := stripMailExtAddress_of_first hds heq hat hmail hbefore ha
    have hisEmail := h.isEmail
    have hidempotent := h.idempotent
    rw [hcut] at hisEmail hidempotent
    refine .inr ⟨before, d, after, a, b, heq, rfl, hbefore, fun c hc hmem => ?_,
      (isEmail_cut_iff hat hmail).mp hisEmail⟩
    -- a delimiter that is left is cut off by the next run
    rcases exists_first_listed ds a with hnone | ⟨before', e, after', a', b', heq', rfl, hbefore', ha'⟩
    · exact hnone c hmem hc
    · rw [stripMailExtAddress_of_first hds heq' hata hisEmail hbefore' ha'] at hidempotent
      have hlength := congrArg List.length hidempotent
      simp only [List.length_append, List.length_cons] at hlength
      omega
  · rintro (hnone | ⟨before, d, after, a, b, heq, rfl, hbefore, ha, hblank⟩)
    · have hsame := stripMailExtAddress_of_none hds hat hmail hnone
      refine ⟨?_, ?_, ?_, ?_⟩
      · rw [hsame, withoutExtension_eq_self hnone]
      · rw [hsame]
        exact hmail
      · rw [hsame, hlocal hat]
        exact fun d hd hmem => hnone d hd (List.mem_of_mem_tail hmem)
      · rw [hsame, hsame]
    · have hd : d ∈ ds := by
        rw [heq]
        simp
      have hata : '@' ∉ a := fun hmem => hat (List.mem_append_left _ hmem)
      have hcut := stripMailExtAddress_of_first hds heq hat hmail hbefore fun hmem => ha d hmem hd
      have hisEmail := (isEmail_cut_iff hat hmail).mpr hblank
      have hne : a ≠ [] := by
        obtain ⟨c, hc, -⟩ := hblank
        exact List.ne_nil_of_mem hc
      refine ⟨?_, ?_, ?_, ?_⟩
      · rw [hcut, withoutExtension_append hne ha hd]
      · rw [hcut]
        exact hisEmail
      · rw [hcut, hlocal hata]
        exact fun e he hmem => ha e (List.mem_of_mem_tail hmem) he
      · rw [hcut]
        exact stripMailExtAddress_of_none hds hata hisEmail fun e he hmem => ha e hmem he

omit [Unicode] in
theorem stripsExtension_plus :
    letI := asciiUnicode
    let settings : Settings := {}
    settings.recipientDelimiters = ['+'].map (fun d => [d]) ∧ isEmail "a+b@x.com".toList = true ∧
      splitOnce "@" "a+b@x.com".toList = some ("a+b".toList, "x.com".toList) ∧
      (StripsExtension settings ['+'] "a+b@x.com" "a+b" "x.com" ↔ FirstDelimiterCuts ['+'] "a+b") := by
  let := asciiUnicode
  have hmail : letI := asciiUnicode; isEmail "a+b@x.com".toList = true := by decide
  have hsplit : splitOnce "@" "a+b@x.com".toList = some ("a+b".toList, "x.com".toList) := by decide
  exact ⟨rfl, hmail, hsplit, @stripsExtension_iff asciiUnicode {} ['+'] _ _ _ rfl hmail hsplit⟩

/-- The delimiters `+` and `-`. -/
def twoDelimiters : Settings := { recipientDelimiters := ["+", "-"] }

omit [Unicode] in
/-- The delimiter that is listed first cuts behind the one that stands first. -/
theorem later_delimiter_cuts :
    letI := asciiUnicode
    twoDelimiters.recipientDelimiters = ['+', '-'].map (fun d => [d]) ∧
      isEmail "a-b+c@x.com".toList = true ∧
      splitOnce "@" "a-b+c@x.com".toList = some ("a-b+c".toList, "x.com".toList) ∧
      stripMailExtAddress twoDelimiters "a-b+c@x.com" = "a-b@x.com".toList ∧
      ¬StripsExtension twoDelimiters ['+', '-'] "a-b+c@x.com" "a-b+c" "x.com" := by
  let := asciiUnicode
  have hcut : letI := asciiUnicode; stripMailExtAddress twoDelimiters "a-b+c@x.com" =
      "a-b@x.com".toList := by decide
  refine ⟨rfl, by decide, by decide, hcut, fun h => ?_⟩
  have hstrips := h.strips
  rw [hcut] at hstrips
  exact absurd hstrips (by decide)

end IRedAPD

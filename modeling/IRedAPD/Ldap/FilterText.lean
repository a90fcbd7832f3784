/-
  The string representation of LDAP search filters.

  A filter stands in parentheses.  In a value the octets NUL, `(`, `)`, `*` and
  `\` are written as `\` and two hexadecimal digits; an asterisk that is written
  as itself separates the parts of a substring, and `(attr=*)`, whose two parts
  are empty, asks whether there is a value at all.

  `parse` finds the filter that a text denotes (`parse_eq_some_iff`), so no text
  denotes two.  A filter written down without regard to the five octets denotes
  itself exactly when there is none of them in its values (`reads_bare_iff`).
-/
import IRedAPD.Framing
import Mathlib.Data.List.TakeWhile

namespace Ldap

abbrev Octets := List UInt8

/-- `=`, `~=`, `>=` and `<=` -/
inductive Comparison where
  | equal
  | approx
  | greaterOrEqual
  | lessOrEqual
  deriving DecidableEq, Repr

/-- A filter.  An item has the parts between the asterisks of its value: a single one for a
comparison with a value. -/
inductive Filter where
  | and (filters : List Filter)
  | or (filters : List Filter)
  | not (filter : Filter)
  | item (attr : Octets) (op : Comparison) (parts : List Octets)

def Comparison.text : Comparison → Octets
  | equal => [0x3d]
  | approx => [0x7e, 0x3d]
  | greaterOrEqual => [0x3e, 0x3d]
  | lessOrEqual => [0x3c, 0x3d]

/-- An octet of an attribute description: a letter, a digit, `-`, `.` or `;`. -/
def isAttrOctet (b : UInt8) : Bool :=
  (0x61 ≤ b && b ≤ 0x7a) || (0x41 ≤ b && b ≤ 0x5a) || (0x30 ≤ b && b ≤ 0x39) ||
    b == 0x2d || b == 0x2e || b == 0x3b

/-- An attribute description. -/
def IsAttr (attr : Octets) : Prop := attr ≠ [] ∧ ∀ b ∈ attr, isAttrOctet b = true

/-- NUL, `(`, `)`, `*` and `\` -/
def isSpecial (b : UInt8) : Bool := b == 0 || b == 0x28 || b == 0x29 || b == 0x2a || b == 0x5c

/-! ### Values -/

/-- A hexadecimal digit. -/
def hexDigit? (b : UInt8) : Option UInt8 :=
  if 0x30 ≤ b && b ≤ 0x39 then some (b - 0x30)
  else if 0x61 ≤ b && b ≤ 0x66 then some (b - 0x57)
  else if 0x41 ≤ b && b ≤ 0x46 then some (b - 0x37)
  else none

/-- The value that a text without asterisks stands for. -/
def readValue : Octets → Option Octets
  | [] => some []
  | 0x5c :: h :: l :: t =>
    match hexDigit? h, hexDigit? l, readValue t with
    | some x, some y, some v => some ((16 * x + y) :: v)
    | _, _, _ => none
  | b :: t => if isSpecial b then none else (readValue t).map (b :: ·)

/-- What follows the `=`: the values between the asterisks. -/
def readParts (t : Octets) : Option (List Octets) := (t.splitOn 0x2a).mapM readValue

/-- The text of an item without its parentheses. -/
inductive ReadsItem : Octets → Filter → Prop
  | equal {attr t parts} : IsAttr attr → readParts t = some parts →
    ReadsItem (attr ++ 0x3d :: t) (.item attr .equal parts)
  | compare {attr op t v} : IsAttr attr → op ≠ .equal → readValue t = some v →
    ReadsItem (attr ++ op.text ++ t) (.item attr op [v])

/-- What follows the attribute description. -/
def readComparison (attr : Octets) : Octets → Option Filter
  | 0x3d :: t => (readParts t).map (.item attr .equal)
  | 0x7e :: 0x3d :: t => (readValue t).map fun v => .item attr .approx [v]
  | 0x3e :: 0x3d :: t => (readValue t).map fun v => .item attr .greaterOrEqual [v]
  | 0x3c :: 0x3d :: t => (readValue t).map fun v => .item attr .lessOrEqual [v]
  | _ => none

/-- The item of a text. -/
def readItem (t : Octets) : Option Filter :=
  let attr := t.takeWhile isAttrOctet
  if attr = [] then none else readComparison attr (t.dropWhile isAttrOctet)

/-! ### Texts -/

mutual

/-- The text denotes the filter. -/
inductive Reads : Octets → Filter → Prop
  | and {t fs} : ReadsAll t fs → fs ≠ [] → Reads (0x28 :: 0x26 :: t ++ [0x29]) (.and fs)
  | or {t fs} : ReadsAll t fs → fs ≠ [] → Reads (0x28 :: 0x7c :: t ++ [0x29]) (.or fs)
  | not {t f} : Reads t f → Reads (0x28 :: 0x21 :: t ++ [0x29]) (.not f)
  | item {t f} : ReadsItem t f → Reads (0x28 :: t ++ [0x29]) f

/-- The text is the texts of the filters one after the other. -/
inductive ReadsAll : Octets → List Filter → Prop
  | nil : ReadsAll [] []
  | cons {t u f fs} : Reads t f → ReadsAll u fs → ReadsAll (t ++ u) (f :: fs)

end

/-- The closing parenthesis. -/
def close {α : Type*} (a : α) : Octets → Option (α × Octets)
  | 0x29 :: s => some (a, s)
  | _ => none

/-- The closing parenthesis after filters, of which there has to be one. -/
def closeFilters (op : List Filter → Filter) (r : List Filter × Octets) :
    Option (Filter × Octets) :=
  if r.1 = [] then none else close (op r.1) r.2

mutual

/-- The filter at the beginning of a text, and what is left of the text. -/
def parseFilter : ℕ → Octets → Option (Filter × Octets)
  | 0, _ => none
  | n + 1, t =>
    match t with
    | 0x28 :: 0x26 :: t => (parseFilters n t).bind (closeFilters .and)
    | 0x28 :: 0x7c :: t => (parseFilters n t).bind (closeFilters .or)
    | 0x28 :: 0x21 :: t => (parseFilter n t).bind fun r => close (.not r.1) r.2
    | 0x28 :: t =>
      (readItem (t.takeWhile (· ≠ 0x29))).bind fun f => close f (t.dropWhile (· ≠ 0x29))
    | _ => none

/-- The filters at the beginning of a text. -/
def parseFilters : ℕ → Octets → Option (List Filter × Octets)
  | 0, _ => none
  | n + 1, t =>
    if t.head? = some 0x28 then
      (parseFilter n t).bind fun r => (parseFilters n r.2).map fun q => (r.1 :: q.1, q.2)
    else some ([], t)

end

/-- The filter of a text. -/
def parse (t : Octets) : Option Filter :=
  match parseFilter t.length t with
  | some (f, []) => some f
  | _ => none

/-! ### Values -/

/-- Nothing in the text has to be escaped. -/
def Plain (v : Octets) : Prop := ∀ b ∈ v, isSpecial b = false

theorem Plain.tail {b : UInt8} {v : Octets} (h : Plain (b :: v)) : Plain v :=
  fun c hc => h c (List.mem_cons_of_mem _ hc)

/-- A hexadecimal digit is not special. -/
theorem isSpecial_of_hexDigit? {b x : UInt8} (h : hexDigit? b = some x) : isSpecial b = false := by
  by_contra hb
  simp only [Bool.not_eq_false, isSpecial, Bool.or_eq_true, beq_iff_eq] at hb
  have hnone : hexDigit? b = none := by
    rcases hb with (((rfl | rfl) | rfl) | rfl) | rfl <;> rfl
  rw [hnone] at h
  cases h

/-- An escaped octet at the beginning, or one that stands for itself. -/
theorem readValue_cons {b : UInt8} {t v : Octets} (h : readValue (b :: t) = some v) :
    (∃ c d u x w, b = 0x5c ∧ t = c :: d :: u ∧ isSpecial c = false ∧ isSpecial d = false ∧
      readValue u = some w ∧ v = x :: w) ∨
    (isSpecial b = false ∧ ∃ w, readValue t = some w ∧ v = b :: w) := by
  unfold readValue at h
  split at h
  · next heq => cases heq
  · next c d u heq =>
    obtain ⟨rfl, rfl⟩ := List.cons.inj heq
    split at h
    · next x y w hc hd hu =>
      obtain rfl := Option.some.inj h
      exact .inl ⟨c, d, u, _, w, rfl, rfl, isSpecial_of_hexDigit? hc, isSpecial_of_hexDigit? hd, hu,
        rfl⟩
    · cases h
  · next c u hne heq =>
    obtain ⟨rfl, rfl⟩ := List.cons.inj heq
    split_ifs at h with hb
    obtain ⟨w, hw, rfl⟩ := Option.map_eq_some_iff.mp h
    exact .inr ⟨by simpa using hb, w, hw, rfl⟩

/-- What the text of a value is made of. -/
theorem octet_of_readValue {t v : Octets} (h : readValue t = some v) {b : UInt8} (hb : b ∈ t) :
    b = 0x5c ∨ isSpecial b = false := by
  obtain ⟨n, hn⟩ : ∃ n, t.length = n := ⟨_, rfl⟩
  induction n using Nat.strong_induction_on generalizing t v with
  | _ n ih =>
    cases t with
    | nil => cases hb
    | cons c t =>
      simp only [List.length_cons] at hn
      rcases readValue_cons h with ⟨d, e, u, x, w, rfl, rfl, hd, he, hu, rfl⟩ | ⟨hc, w, hw, rfl⟩
      · simp only [List.length_cons] at hn
        simp only [List.mem_cons] at hb
        rcases hb with rfl | rfl | rfl | hb
        · exact .inl rfl
        · exact .inr hd
        · exact .inr he
        · exact ih u.length (by omega) hu hb rfl
      · rcases List.mem_cons.mp hb with rfl | hb
        · exact .inr hc
        · exact ih t.length (by omega) hw hb rfl

/-- A text in which nothing has to be escaped stands for itself. -/
theorem readValue_of_plain {v : Octets} (h : Plain v) : readValue v = some v := by
  induction v with
  | nil => rfl
  | cons b v ih =>
    have hb : isSpecial b = false := h b (List.mem_cons_self ..)
    unfold readValue
    split
    · next heq => cases heq
    · next heq =>
      obtain ⟨rfl, -⟩ := List.cons.inj heq
      cases hb
    · next heq =>
      obtain ⟨rfl, rfl⟩ := List.cons.inj heq
      rw [if_neg (by simp [hb]), ih h.tail, Option.map_some]

/-- The text of a value is longer than the value unless nothing has to be escaped. -/
theorem length_of_readValue {t v : Octets} (h : readValue t = some v) :
    v.length < t.length ∨ (t = v ∧ Plain v) := by
  obtain ⟨n, hn⟩ : ∃ n, t.length = n := ⟨_, rfl⟩
  induction n using Nat.strong_induction_on generalizing t v with
  | _ n ih =>
    cases t with
    | nil =>
      obtain rfl : [] = v := Option.some.inj h
      exact .inr ⟨rfl, fun b hb => absurd hb List.not_mem_nil⟩
    | cons c t =>
      simp only [List.length_cons] at hn
      rcases readValue_cons h with ⟨d, e, u, x, w, rfl, rfl, -, -, hu, rfl⟩ | ⟨hc, w, hw, rfl⟩
      · simp only [List.length_cons] at hn ⊢
        have hlen : w.length ≤ u.length := by
          rcases ih u.length (by omega) hu rfl with hlt | ⟨rfl, -⟩
          · exact hlt.le
          · exact le_rfl
        exact .inl (by omega)
      · simp only [List.length_cons]
        rcases ih t.length (by omega) hw rfl with hlt | ⟨rfl, hplain⟩
        · exact .inl (by omega)
        · refine .inr ⟨rfl, fun b hb => ?_⟩
          rcases List.mem_cons.mp hb with rfl | hb
          · exact hc
          · exact hplain b hb

/-! ### The parts of a value -/

theorem mapM_cons_eq_some {α β : Type*} {f : α → Option β} {a : α} {as : List α} {bs : List β}
    (h : (a :: as).mapM f = some bs) :
    ∃ b bs', f a = some b ∧ as.mapM f = some bs' ∧ bs = b :: bs' := by
  rw [List.mapM_cons] at h
  cases hb : f a with
  | none =>
    rw [hb] at h
    cases h
  | some b =>
    cases hbs : as.mapM f with
    | none =>
      rw [hb, hbs] at h
      cases h
    | some bs' =>
      rw [hb, hbs] at h
      exact ⟨b, bs', rfl, rfl, (Option.some.inj h).symm⟩

theorem mem_intercalate {α : Type*} {d x : α} {ls : List (List α)}
    (h : x ∈ [d].intercalate ls) : x = d ∨ ∃ l ∈ ls, x ∈ l := by
  induction ls with
  | nil => cases h
  | cons l ls ih =>
    cases ls with
    | nil =>
      rw [List.intercalate_singleton] at h
      exact .inr ⟨l, List.mem_cons_self .., h⟩
    | cons l' ls =>
      rw [List.intercalate_cons_cons] at h
      simp only [List.mem_append, List.mem_singleton] at h
      rcases h with (h | rfl) | h
      · exact .inr ⟨l, List.mem_cons_self .., h⟩
      · exact .inl rfl
      · rcases ih h with rfl | ⟨k, hk, hx⟩
        · exact .inl rfl
        · exact .inr ⟨k, List.mem_cons_of_mem _ hk, hx⟩

theorem mem_of_mapM {α β : Type*} {f : α → Option β} {as : List α} {bs : List β}
    (h : as.mapM f = some bs) {a : α} (ha : a ∈ as) : ∃ b, f a = some b := by
  induction as generalizing bs with
  | nil => cases ha
  | cons a' as ih =>
    obtain ⟨b, bs', hb, hbs, -⟩ := mapM_cons_eq_some h
    rcases List.mem_cons.mp ha with rfl | ha
    · exact ⟨b, hb⟩
    · exact ih hbs ha

/-- What the text after the `=` is made of. -/
theorem octet_of_readParts {t : Octets} {parts : List Octets} (h : readParts t = some parts)
    {b : UInt8} (hb : b ∈ t) : b = 0x2a ∨ b = 0x5c ∨ isSpecial b = false := by
  have htext : [0x2a].intercalate (t.splitOn 0x2a) = t := List.intercalate_splitOn 0x2a
  rw [← htext] at hb
  rcases mem_intercalate hb with rfl | ⟨l, hl, hbl⟩
  · exact .inl rfl
  · obtain ⟨v, hv⟩ := mem_of_mapM h hl
    exact .inr (octet_of_readValue hv hbl)

/-- Parts in which nothing has to be escaped are read back. -/
theorem readParts_of_plain {parts : List Octets} (hne : parts ≠ []) (h : ∀ p ∈ parts, Plain p) :
    readParts ([0x2a].intercalate parts) = some parts := by
  have hno : ∀ p ∈ parts, (0x2a : UInt8) ∉ p := fun p hp hmem => absurd (h p hp _ hmem) (by decide)
  unfold readParts
  rw [List.splitOn_intercalate _ hno hne]
  clear hno hne
  induction parts with
  | nil => rfl
  | cons p ps ih =>
    rw [List.mapM_cons, readValue_of_plain (h p (List.mem_cons_self ..)),
      ih fun q hq => h q (List.mem_cons_of_mem _ hq)]
    rfl

theorem length_of_mapM {texts parts : List Octets} (h : texts.mapM readValue = some parts) :
    ([0x2a].intercalate parts).length < ([0x2a].intercalate texts).length ∨
      (texts = parts ∧ ∀ p ∈ parts, Plain p) := by
  induction texts generalizing parts with
  | nil =>
    obtain rfl : [] = parts := Option.some.inj h
    exact .inr ⟨rfl, fun p hp => absurd hp List.not_mem_nil⟩
  | cons t texts ih =>
    obtain ⟨v, vs, hv, hvs, rfl⟩ := mapM_cons_eq_some h
    have hplain : t = v ∧ Plain v → (texts = vs ∧ ∀ p ∈ vs, Plain p) →
        t :: texts = v :: vs ∧ ∀ p ∈ v :: vs, Plain p := by
      rintro ⟨rfl, hp⟩ ⟨rfl, hps⟩
      exact ⟨rfl, List.forall_mem_cons.mpr ⟨hp, hps⟩⟩
    cases texts with
    | nil =>
      obtain rfl : [] = vs := Option.some.inj hvs
      rw [List.intercalate_singleton, List.intercalate_singleton]
      exact (length_of_readValue hv).imp_right fun ht =>
        hplain ht ⟨rfl, fun p hp => absurd hp List.not_mem_nil⟩
    | cons u us =>
      obtain ⟨w, ws, -, -, rfl⟩ := mapM_cons_eq_some hvs
      rw [List.intercalate_cons_cons, List.intercalate_cons_cons]
      simp only [List.length_append, List.length_singleton]
      rcases length_of_readValue hv with hlt | ht
      · have hle : ([0x2a].intercalate (w :: ws)).length ≤ ([0x2a].intercalate (u :: us)).length := by
          rcases ih hvs with hlt' | ⟨heq, -⟩
          · exact hlt'.le
          · rw [heq]
        exact .inl (by omega)
      · rcases ih hvs with hlt' | hts
        · have hlen : t.length = v.length := by rw [ht.1]
          exact .inl (by omega)
        · exact .inr (hplain ht hts)

/-- The text is longer than the parts unless nothing has to be escaped. -/
theorem length_of_readParts {t : Octets} {parts : List Octets} (h : readParts t = some parts) :
    ([0x2a].intercalate parts).length < t.length ∨
      (t = [0x2a].intercalate parts ∧ ∀ p ∈ parts, Plain p) := by
  have hlen := length_of_mapM h
  rw [List.intercalate_splitOn] at hlen
  refine hlen.imp_right fun ⟨htexts, hplain⟩ => ⟨?_, hplain⟩
  rw [← htexts, List.intercalate_splitOn]

theorem ne_nil_of_readParts {t : Octets} {parts : List Octets} (h : readParts t = some parts) :
    parts ≠ [] := by
  rintro rfl
  unfold readParts at h
  cases hs : t.splitOn 0x2a with
  | nil => exact List.splitOn_ne_nil _ _ hs
  | cons u us =>
    rw [hs] at h
    obtain ⟨_, _, -, -, heq⟩ := mapM_cons_eq_some h
    cases heq

/-! ### Items -/

theorem takeWhile_attr {attr : Octets} (h : IsAttr attr) {b : UInt8} (hb : isAttrOctet b = false)
    (t : Octets) : (attr ++ b :: t).takeWhile isAttrOctet = attr ∧
      (attr ++ b :: t).dropWhile isAttrOctet = b :: t := by
  have hneg : ¬ isAttrOctet b = true := by simp [hb]
  rw [List.takeWhile_append_of_pos h.2, List.dropWhile_append_of_pos h.2,
    List.takeWhile_cons_of_neg hneg, List.dropWhile_cons_of_neg hneg, List.append_nil]
  exact ⟨rfl, rfl⟩

theorem readItem_append {attr : Octets} (h : IsAttr attr) {b : UInt8} (hb : isAttrOctet b = false)
    (t : Octets) : readItem (attr ++ b :: t) = readComparison attr (b :: t) := by
  obtain ⟨htake, hdrop⟩ := takeWhile_attr h hb t
  unfold readItem
  rw [htake, hdrop]
  exact if_neg h.1

/-- A comparison, and the text of the attribute before it. -/
theorem readsItem_of_readComparison {attr t : Octets} {f : Filter} (hattr : IsAttr attr)
    (h : readComparison attr t = some f) : ReadsItem (attr ++ t) f := by
  have hcompare : ∀ (op : Comparison) (u : Octets), op ≠ .equal → t = op.text ++ u →
      (readValue u).map (fun v => Filter.item attr op [v]) = some f → ReadsItem (attr ++ t) f := by
    intro op u hop ht hread
    obtain ⟨v, hv, rfl⟩ := Option.map_eq_some_iff.mp hread
    rw [ht, ← List.append_assoc]
    exact .compare hattr hop hv
  unfold readComparison at h
  split at h
  · obtain ⟨parts, hparts, rfl⟩ := Option.map_eq_some_iff.mp h
    exact .equal hattr hparts
  · exact hcompare .approx _ (by decide) rfl h
  · exact hcompare .greaterOrEqual _ (by decide) rfl h
  · exact hcompare .lessOrEqual _ (by decide) rfl h
  · cases h

/-- `readItem` finds the item of the text. -/
theorem readItem_eq_some_iff {t : Octets} {f : Filter} : readItem t = some f ↔ ReadsItem t f := by
  constructor
  · intro h
    have happend : t.takeWhile isAttrOctet ++ t.dropWhile isAttrOctet = t :=
      List.takeWhile_append_dropWhile
    simp only [readItem] at h
    split_ifs at h with hne
    have hitem := readsItem_of_readComparison ⟨hne, fun b hb => List.mem_takeWhile_imp hb⟩ h
    rwa [happend] at hitem
  · intro h
    cases h with
    | equal hattr hparts =>
      rw [readItem_append hattr (by decide), readComparison, hparts, Option.map_some]
    | @compare attr op t v hattr hop hv =>
      cases op with
      | equal => exact absurd rfl hop
      | approx =>
        rw [Comparison.text, List.append_assoc, List.cons_append, readItem_append hattr (by decide)]
        simp only [List.cons_append, List.nil_append, readComparison, hv, Option.map_some]
      | greaterOrEqual =>
        rw [Comparison.text, List.append_assoc, List.cons_append, readItem_append hattr (by decide)]
        simp only [List.cons_append, List.nil_append, readComparison, hv, Option.map_some]
      | lessOrEqual =>
        rw [Comparison.text, List.append_assoc, List.cons_append, readItem_append hattr (by decide)]
        simp only [List.cons_append, List.nil_append, readComparison, hv, Option.map_some]

/-- The text of an item holds neither a NUL nor a parenthesis. -/
theorem ReadsItem.not_mem {t : Octets} {f : Filter} (h : ReadsItem t f) {b : UInt8}
    (hb : b = 0 ∨ b = 0x29) : b ∉ t := by
  have hattrNe : ∀ {attr : Octets}, IsAttr attr → b ∉ attr := by
    intro attr hattr hmem
    have hoctet := hattr.2 b hmem
    rcases hb with rfl | rfl <;> cases hoctet
  have hvalue : ∀ {c : UInt8}, c = 0x5c ∨ isSpecial c = false → c ≠ b := by
    rintro c hc rfl
    rcases hb with rfl | rfl <;> rcases hc with hc | hc <;> cases hc
  intro hmem
  cases h with
  | equal hattr hparts =>
    rcases List.mem_append.mp hmem with hmem | hmem
    · exact hattrNe hattr hmem
    · rcases List.mem_cons.mp hmem with rfl | hmem
      · rcases hb with hb | hb <;> cases hb
      · rcases octet_of_readParts hparts hmem with rfl | heq
        · rcases hb with hb | hb <;> cases hb
        · exact hvalue heq rfl
  | @compare _ op _ _ hattr hop hv =>
    rcases List.mem_append.mp hmem with hmem | hmem
    · rcases List.mem_append.mp hmem with hmem | hmem
      · exact hattrNe hattr hmem
      · rcases hb with rfl | rfl <;> cases op <;> exact absurd hmem (by decide)
    · exact hvalue (octet_of_readValue hv hmem) rfl

/-- It begins with a letter, a digit, `-`, `.` or `;`. -/
theorem ReadsItem.head {t : Octets} {f : Filter} (h : ReadsItem t f) :
    ∃ b u, t = b :: u ∧ isAttrOctet b = true := by
  have hhead : ∀ {attr : Octets} (u : Octets), IsAttr attr →
      ∃ b w, attr ++ u = b :: w ∧ isAttrOctet b = true := by
    intro attr u hattr
    cases attr with
    | nil => exact absurd rfl hattr.1
    | cons b attr => exact ⟨b, attr ++ u, rfl, hattr.2 b (List.mem_cons_self ..)⟩
  cases h with
  | equal hattr _ => exact hhead _ hattr
  | compare hattr _ _ =>
    rw [List.append_assoc]
    exact hhead _ hattr

/-! ### Parsing -/

theorem Reads.head {t : Octets} {f : Filter} (h : Reads t f) : ∃ u, t = 0x28 :: u := by
  cases h with
  | and _ _ => exact ⟨_, rfl⟩
  | or _ _ => exact ⟨_, rfl⟩
  | not _ => exact ⟨_, rfl⟩
  | item _ => exact ⟨_, rfl⟩

/-- An item is told from the other filters by the octet after the parenthesis. -/
theorem parseFilter_item {t s : Octets} {f : Filter} (h : ReadsItem t f) (n : ℕ) :
    parseFilter (n + 1) (0x28 :: (t ++ 0x29 :: s)) = some (f, s) := by
  have hclose := h.not_mem (.inr rfl)
  obtain ⟨b, u, rfl, hb⟩ := h.head
  have hpos : ∀ c ∈ b :: u, decide (c ≠ 0x29) = true := by
    intro c hc
    rw [decide_eq_true_eq]
    rintro rfl
    exact hclose hc
  have hne : b ≠ 0x26 ∧ b ≠ 0x7c ∧ b ≠ 0x21 := by
    refine ⟨?_, ?_, ?_⟩ <;>
    · rintro rfl
      cases hb
  have hclosing : (0x29 :: s).takeWhile (· ≠ (0x29 : UInt8)) = [] ∧
      (0x29 :: s).dropWhile (· ≠ (0x29 : UInt8)) = 0x29 :: s :=
    ⟨List.takeWhile_cons_of_neg (by decide), List.dropWhile_cons_of_neg (by decide)⟩
  have htake : (b :: u ++ 0x29 :: s).takeWhile (· ≠ 0x29) = b :: u := by
    rw [List.takeWhile_append_of_pos hpos, hclosing.1, List.append_nil]
  have hdrop : (b :: u ++ 0x29 :: s).dropWhile (· ≠ 0x29) = 0x29 :: s := by
    rw [List.dropWhile_append_of_pos hpos, hclosing.2]
  rw [parseFilter, htake, hdrop, readItem_eq_some_iff.mpr h]
  · rfl
  · exact fun v hv => hne.1 (List.cons.inj hv).1
  · exact fun v hv => hne.2.1 (List.cons.inj hv).1
  · exact fun v hv => hne.2.2 (List.cons.inj hv).1

mutual

/-- **The parser finds the filter of a text**, whatever follows it. -/
theorem Reads.parseFilter {t : Octets} {f : Filter} (h : Reads t f) (s : Octets) {n : ℕ}
    (hn : t.length ≤ n) : parseFilter n (t ++ s) = some (f, s) := by
  cases h with
  | @and t fs hall hne =>
    simp only [List.length_append, List.length_cons] at hn
    obtain ⟨m, rfl⟩ := Nat.exists_eq_add_of_le' (show 1 ≤ n by omega)
    have hrest := hall.parseFilters (0x29 :: s) (n := m) (by simp) (by omega)
    simp only [List.cons_append, List.append_assoc, List.nil_append, Ldap.parseFilter, hrest,
      Option.bind_some, closeFilters, if_neg hne, close]
  | @or t fs hall hne =>
    simp only [List.length_append, List.length_cons] at hn
    obtain ⟨m, rfl⟩ := Nat.exists_eq_add_of_le' (show 1 ≤ n by omega)
    have hrest := hall.parseFilters (0x29 :: s) (n := m) (by simp) (by omega)
    simp only [List.cons_append, List.append_assoc, List.nil_append, Ldap.parseFilter, hrest,
      Option.bind_some, closeFilters, if_neg hne, close]
  | @not t f hf =>
    simp only [List.length_append, List.length_cons] at hn
    obtain ⟨m, rfl⟩ := Nat.exists_eq_add_of_le' (show 1 ≤ n by omega)
    have hrest := hf.parseFilter (0x29 :: s) (n := m) (by omega)
    simp only [List.cons_append, List.append_assoc, List.nil_append, Ldap.parseFilter, hrest,
      Option.bind_some, close]
  | item hitem =>
    simp only [List.length_append, List.length_cons] at hn
    obtain ⟨m, rfl⟩ := Nat.exists_eq_add_of_le' (show 1 ≤ n by omega)
    simp only [List.cons_append, List.append_assoc, List.nil_append]
    exact parseFilter_item hitem m

theorem ReadsAll.parseFilters {t : Octets} {fs : List Filter} (h : ReadsAll t fs) (s : Octets)
    {n : ℕ} (hs : s.head? ≠ some 0x28) (hn : t.length < n) :
    parseFilters n (t ++ s) = some (fs, s) := by
  obtain ⟨m, rfl⟩ := Nat.exists_eq_add_of_le' (show 1 ≤ n by omega)
  cases h with
  | nil =>
    rw [List.nil_append, Ldap.parseFilters, if_neg hs]
  | @cons t u f fs hf hfs =>
    obtain ⟨t', ht⟩ := hf.head
    have hlen : t.length = t'.length + 1 := by rw [ht, List.length_cons]
    rw [List.length_append] at hn
    have hhead : (t ++ u ++ s).head? = some 0x28 := by rw [ht]; rfl
    rw [Ldap.parseFilters, if_pos hhead, List.append_assoc, hf.parseFilter (u ++ s) (by omega),
      Option.bind_some, hfs.parseFilters s hs (by omega), Option.map_some]

end

theorem close_eq_some {α : Type*} {a b : α} {t s : Octets} (h : close a t = some (b, s)) :
    a = b ∧ t = 0x29 :: s := by
  unfold close at h
  split at h
  · obtain ⟨rfl, rfl⟩ := Prod.mk.inj (Option.some.inj h)
    exact ⟨rfl, rfl⟩
  · cases h

theorem closeFilters_eq_some {op : List Filter → Filter} {r : List Filter × Octets} {f : Filter}
    {s : Octets} (h : closeFilters op r = some (f, s)) :
    r.1 ≠ [] ∧ op r.1 = f ∧ r.2 = 0x29 :: s := by
  unfold closeFilters at h
  split_ifs at h with hne
  exact ⟨hne, close_eq_some h⟩

/-- What the parser finds is denoted by the text it has taken. -/
theorem reads_of_parse (n : ℕ) :
    (∀ t f s, parseFilter n t = some (f, s) → ∃ u, t = u ++ s ∧ Reads u f) ∧
      ∀ t fs s, parseFilters n t = some (fs, s) → ∃ u, t = u ++ s ∧ ReadsAll u fs := by
  induction n with
  | zero => exact ⟨fun t f s h => by simp [parseFilter] at h, fun t fs s h => by
      simp [parseFilters] at h⟩
  | succ n ih =>
    obtain ⟨ih₁, ih₂⟩ := ih
    refine ⟨fun t f s h => ?_, fun t fs s h => ?_⟩
    · rw [parseFilter.eq_def] at h
      simp only at h
      split at h
      · next u =>
        obtain ⟨⟨fs, r⟩, hr, hclose⟩ := Option.bind_eq_some_iff.mp h
        obtain ⟨hne, rfl, rfl⟩ := closeFilters_eq_some hclose
        obtain ⟨v, rfl, hv⟩ := ih₂ _ _ _ hr
        exact ⟨0x28 :: 0x26 :: v ++ [0x29], by simp, .and hv hne⟩
      · next u =>
        obtain ⟨⟨fs, r⟩, hr, hclose⟩ := Option.bind_eq_some_iff.mp h
        obtain ⟨hne, rfl, rfl⟩ := closeFilters_eq_some hclose
        obtain ⟨v, rfl, hv⟩ := ih₂ _ _ _ hr
        exact ⟨0x28 :: 0x7c :: v ++ [0x29], by simp, .or hv hne⟩
      · next u =>
        obtain ⟨⟨g, r⟩, hr, hclose⟩ := Option.bind_eq_some_iff.mp h
        obtain ⟨rfl, rfl⟩ := close_eq_some hclose
        obtain ⟨v, rfl, hv⟩ := ih₁ _ _ _ hr
        exact ⟨0x28 :: 0x21 :: v ++ [0x29], by simp, .not hv⟩
      · next u _ _ _ =>
        obtain ⟨g, hg, hclose⟩ := Option.bind_eq_some_iff.mp h
        obtain ⟨rfl, hrest⟩ := close_eq_some hclose
        have happend : u.takeWhile (· ≠ 0x29) ++ u.dropWhile (· ≠ 0x29) = u :=
          List.takeWhile_append_dropWhile
        rw [hrest] at happend
        refine ⟨0x28 :: u.takeWhile (· ≠ 0x29) ++ [0x29], ?_, .item (readItem_eq_some_iff.mp hg)⟩
        rw [List.append_assoc, List.cons_append, List.singleton_append, happend]
      · cases h
    · rw [parseFilters] at h
      split_ifs at h with hhead
      · obtain ⟨⟨f, r⟩, hr, hmap⟩ := Option.bind_eq_some_iff.mp h
        obtain ⟨⟨gs, q⟩, hq, heq⟩ := Option.map_eq_some_iff.mp hmap
        obtain ⟨rfl, rfl⟩ := Prod.mk.inj heq
        obtain ⟨u, rfl, hu⟩ := ih₁ _ _ _ hr
        obtain ⟨v, rfl, hv⟩ := ih₂ _ _ _ hq
        exact ⟨u ++ v, by rw [List.append_assoc], .cons hu hv⟩
      · obtain ⟨rfl, rfl⟩ := Prod.mk.inj (Option.some.inj h)
        exact ⟨[], rfl, .nil⟩

/-- **The parser finds exactly the filter that the text denotes.** -/
theorem parse_eq_some_iff {t : Octets} {f : Filter} : parse t = some f ↔ Reads t f := by
  constructor
  · intro h
    unfold parse at h
    split at h
    · next g hg =>
      obtain rfl := Option.some.inj h
      obtain ⟨u, hu, hreads⟩ := (reads_of_parse _).1 _ _ _ hg
      rw [List.append_nil] at hu
      rwa [hu]
    · cases h
  · intro h
    have hparse := h.parseFilter [] le_rfl
    rw [List.append_nil] at hparse
    unfold parse
    rw [hparse]

mutual

/-- A text with a NUL denotes nothing. -/
theorem Reads.no_nul {t : Octets} {f : Filter} (h : Reads t f) : (0 : UInt8) ∉ t := by
  cases h with
  | and hall _ => simpa using hall.no_nul
  | or hall _ => simpa using hall.no_nul
  | not hf => simpa using hf.no_nul
  | item hitem => simpa using hitem.not_mem (.inl rfl)

theorem ReadsAll.no_nul {t : Octets} {fs : List Filter} (h : ReadsAll t fs) : (0 : UInt8) ∉ t := by
  cases h with
  | nil => exact List.not_mem_nil
  | cons hf hfs => exact fun hmem => (List.mem_append.mp hmem).elim hf.no_nul hfs.no_nul

end

/-! ### Texts without escapes -/

mutual

/-- The filter with its values written as they are. -/
def Filter.bare : Filter → Octets
  | .and fs => 0x28 :: 0x26 :: bareAll fs ++ [0x29]
  | .or fs => 0x28 :: 0x7c :: bareAll fs ++ [0x29]
  | .not f => 0x28 :: 0x21 :: f.bare ++ [0x29]
  | .item attr op parts => 0x28 :: (attr ++ op.text ++ [0x2a].intercalate parts) ++ [0x29]

def bareAll : List Filter → Octets
  | [] => []
  | f :: fs => f.bare ++ bareAll fs

end

mutual

/-- A filter that there can be, whose values have nothing to escape. -/
def Filter.IsPlain : Filter → Prop
  | .and fs => fs ≠ [] ∧ AllPlain fs
  | .or fs => fs ≠ [] ∧ AllPlain fs
  | .not f => f.IsPlain
  | .item attr op parts =>
    IsAttr attr ∧ parts ≠ [] ∧ (op ≠ .equal → parts.length = 1) ∧ ∀ p ∈ parts, Plain p

def AllPlain : List Filter → Prop
  | [] => True
  | f :: fs => f.IsPlain ∧ AllPlain fs

end

theorem ReadsItem.length_bare {t : Octets} {f : Filter} (h : ReadsItem t f) :
    f.bare.length < t.length + 2 ∨ (0x28 :: t ++ [0x29] = f.bare ∧ f.IsPlain) := by
  cases h with
  | @equal attr t parts hattr hparts =>
    rcases length_of_readParts hparts with hlt | ⟨rfl, hplain⟩
    · refine .inl ?_
      simp only [Filter.bare, Comparison.text, List.length_append, List.length_cons, List.length_nil]
      omega
    · refine .inr ⟨?_, hattr, ne_nil_of_readParts hparts, fun hne => absurd rfl hne, hplain⟩
      rw [Filter.bare, Comparison.text, List.append_assoc attr, List.singleton_append]
  | @compare attr op t v hattr hop hv =>
    rcases length_of_readValue hv with hlt | ⟨rfl, hplain⟩
    · refine .inl ?_
      simp only [Filter.bare, List.intercalate_singleton, List.length_append, List.length_cons,
        List.length_nil]
      omega
    · refine .inr ⟨by rw [Filter.bare, List.intercalate_singleton], hattr, List.cons_ne_nil _ _,
        fun _ => rfl, fun p hp => ?_⟩
      rwa [List.mem_singleton.mp hp]

mutual

/-- A text is longer than the filter written as it is, unless the two are the same. -/
theorem Reads.length_bare {t : Octets} {f : Filter} (h : Reads t f) :
    f.bare.length < t.length ∨ (t = f.bare ∧ f.IsPlain) := by
  cases h with
  | and hall hne =>
    simp only [Filter.bare, List.length_append, List.length_cons]
    rcases hall.length_bare with hlt | ⟨rfl, hplain⟩
    · exact .inl (by omega)
    · exact .inr ⟨rfl, hne, hplain⟩
  | or hall hne =>
    simp only [Filter.bare, List.length_append, List.length_cons]
    rcases hall.length_bare with hlt | ⟨rfl, hplain⟩
    · exact .inl (by omega)
    · exact .inr ⟨rfl, hne, hplain⟩
  | not hf =>
    simp only [Filter.bare, List.length_append, List.length_cons]
    rcases hf.length_bare with hlt | ⟨rfl, hplain⟩
    · exact .inl (by omega)
    · exact .inr ⟨rfl, hplain⟩
  | item hitem =>
    simp only [List.length_append, List.length_cons, List.length_nil]
    exact hitem.length_bare.imp_left fun hlt => by omega

theorem ReadsAll.length_bare {t : Octets} {fs : List Filter} (h : ReadsAll t fs) :
    (bareAll fs).length < t.length ∨ (t = bareAll fs ∧ AllPlain fs) := by
  cases h with
  | nil => exact .inr ⟨rfl, trivial⟩
  | cons hf hfs =>
    simp only [bareAll, List.length_append]
    rcases hf.length_bare with hlt | ⟨rfl, hplain⟩
    · have hle := hfs.length_bare.elim (fun hlt => hlt.le) fun heq => heq.1.symm ▸ le_rfl
      exact .inl (by omega)
    · rcases hfs.length_bare with hlt | ⟨rfl, hplains⟩
      · exact .inl (by omega)
      · exact .inr ⟨rfl, hplain, hplains⟩

end

mutual

theorem Filter.IsPlain.reads : ∀ {f : Filter}, f.IsPlain → Reads f.bare f
  | .and _, h => .and h.2.reads h.1
  | .or _, h => .or h.2.reads h.1
  | .not _, h => .not (Filter.IsPlain.reads h)
  | .item attr op parts, h => by
    obtain ⟨hattr, hne, hsingle, hplain⟩ := h
    refine .item ?_
    cases hop : decide (op = .equal) with
    | true =>
      obtain rfl := of_decide_eq_true hop
      rw [Comparison.text, List.append_assoc, List.singleton_append]
      exact .equal hattr (readParts_of_plain hne hplain)
    | false =>
      have hop' : op ≠ .equal := of_decide_eq_false hop
      obtain ⟨v, rfl⟩ := List.length_eq_one_iff.mp (hsingle hop')
      rw [List.intercalate_singleton]
      exact .compare hattr hop' (readValue_of_plain (hplain v (List.mem_singleton_self v)))

theorem AllPlain.reads : ∀ {fs : List Filter}, AllPlain fs → ReadsAll (bareAll fs) fs
  | [], _ => .nil
  | _ :: _, h => .cons h.1.reads h.2.reads

end

/-- **A filter that is written down as it is denotes itself exactly when none of its values has an
octet to escape.** -/
theorem reads_bare_iff {f : Filter} : Reads f.bare f ↔ f.IsPlain :=
  ⟨fun h => h.length_bare.elim (fun hlt => absurd hlt (lt_irrefl _)) And.right, Filter.IsPlain.reads⟩

/-! ### Meaning -/

mutual

/-- The filter holds, given which items do. -/
def Filter.holds (item : Octets → Comparison → List Octets → Bool) : Filter → Bool
  | .and fs => allHold item fs
  | .or fs => anyHolds item fs
  | .not f => !f.holds item
  | .item attr op parts => item attr op parts

def allHold (item : Octets → Comparison → List Octets → Bool) : List Filter → Bool
  | [] => true
  | f :: fs => f.holds item && allHold item fs

def anyHolds (item : Octets → Comparison → List Octets → Bool) : List Filter → Bool
  | [] => false
  | f :: fs => f.holds item || anyHolds item fs

end

theorem allHold_eq_all (item : Octets → Comparison → List Octets → Bool) (fs : List Filter) :
    allHold item fs = fs.all (·.holds item) := by
  induction fs with
  | nil => rfl
  | cons f fs ih => rw [allHold, List.all_cons, ih]

theorem anyHolds_eq_any (item : Octets → Comparison → List Octets → Bool) (fs : List Filter) :
    anyHolds item fs = fs.any (·.holds item) := by
  induction fs with
  | nil => rfl
  | cons f fs ih => rw [anyHolds, List.any_cons, ih]

end Ldap

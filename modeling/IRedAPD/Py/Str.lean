/-
  Python `str` and `bytes` as lists of code points and octets, with the string
  methods the daemon uses: `split` with a limit, `strip`, `join`, `decode`.

  Texts are `List Char` rather than `String` so that every method is a plain
  structural recursion, and facts about it go by induction on the text.

  What Python takes from the Unicode character database (`str.isalnum`,
  `str.isdecimal`, `str.lower`, `str.upper`, `str.isprintable`) is the class `Unicode`: any
  table that agrees with ASCII on the ASCII range.  `asciiUnicode` is the
  table whose non-ASCII part is trivial, used to evaluate ASCII texts.
-/
import Mathlib.Data.List.Basic
import Mathlib.Data.List.DropRight
import Mathlib.Tactic.Common

namespace Py

/-- A Python `str`, by its code points. -/
abbrev Str := List Char

/-- A Python `bytes`. -/
abbrev Bytes := List UInt8

instance : Coe String Str := ⟨String.toList⟩

-- decided letter by letter of the text, not of the alphabet
instance (priority := high) decidableForallMem (s : Str) (p : Char → Prop) [DecidablePred p] :
    Decidable (∀ c ∈ s, p c) := List.decidableBAll p s

/-- The exceptions the daemon's own code and its libraries raise. -/
inductive Exn where
  | attributeError
  | indexError
  | integrityError
  | keyError
  | operationalError
  | typeError
  | unicodeDecodeError
  | valueError
  deriving DecidableEq, Repr

/-! ### The Unicode tables -/

/-- The parts of the Unicode database that `str` methods and `re` read.  Only
the ASCII range is prescribed. -/
class Unicode where
  /-- `str.isalnum` of a one-character text. -/
  isAlnum : Char → Bool
  /-- `str.isdecimal` of a one-character text. -/
  isDecimal : Char → Bool
  /-- `str.lower`. -/
  lower : Str → Str
  /-- `str.upper`. -/
  upper : Str → Str
  /-- `str.isprintable` of a one-character text. -/
  isPrintable : Char → Bool
  isAlnum_ascii : ∀ c : Char, c.toNat < 128 → isAlnum c = c.isAlphanum
  isDecimal_ascii : ∀ c : Char, c.toNat < 128 → isDecimal c = c.isDigit
  lower_ascii : ∀ s : Str, (∀ c ∈ s, c.toNat < 128) → lower s = s.map Char.toLower
  upper_ascii : ∀ s : Str, (∀ c ∈ s, c.toNat < 128) → upper s = s.map Char.toUpper
  isPrintable_ascii : ∀ c : Char, c.toNat < 128 →
    isPrintable c = (decide (32 ≤ c.toNat) && decide (c.toNat < 127))

/-- The table that knows the ASCII letters and digits only. -/
@[reducible] def asciiUnicode : Unicode where
  isAlnum c := c.isAlphanum
  isDecimal c := c.isDigit
  lower s := s.map Char.toLower
  upper s := s.map Char.toUpper
  isPrintable c := decide (32 ≤ c.toNat) && decide (c.toNat < 127)
  isAlnum_ascii _ _ := rfl
  isDecimal_ascii _ _ := rfl
  lower_ascii _ _ := rfl
  upper_ascii _ _ := rfl
  isPrintable_ascii _ _ := rfl

/-- An ASCII text in lower case is its own lower case. -/
theorem lower_eq_self [Unicode] {s : Str} (hascii : ∀ c ∈ s, c.toNat < 128)
    (hlower : s.map Char.toLower = s) : Unicode.lower s = s :=
  (Unicode.lower_ascii s hascii).trans hlower

/-- `str.isspace` of a one-character text. -/
def isSpace (c : Char) : Bool :=
  let n := c.toNat
  (9 ≤ n && n ≤ 13) || (28 ≤ n && n ≤ 32) || n == 0x85 || n == 0xa0 || n == 0x1680 ||
    (0x2000 ≤ n && n ≤ 0x200a) || n == 0x2028 || n == 0x2029 || n == 0x202f || n == 0x205f ||
    n == 0x3000

/-! ### `str` methods -/

/-- `s.strip()`. -/
def strip (s : Str) : Str := (s.dropWhile isSpace).rdropWhile isSpace

/-- `s.strip(c)` for one character. -/
def stripChar (c : Char) (s : Str) : Str := (s.dropWhile (· == c)).rdropWhile (· == c)

/-- `s.rstrip(c)` for one character. -/
def rstripChar (c : Char) (s : Str) : Str := s.rdropWhile (· == c)

/-- `s.lstrip(c)` for one character. -/
def lstripChar (c : Char) (s : Str) : Str := s.dropWhile (· == c)

/-- `s.split()` -/
def splitWords (s : Str) : List Str := (s.splitOnP isSpace).filter fun w => !w.isEmpty

/-- `s.replace(sub, '')` for a text that is not empty; the first argument counts the characters of
an occurrence that are still to be passed over. -/
def removeAll (sub : Str) : ℕ → Str → Str
  | _, [] => []
  | k + 1, _ :: s => removeAll sub k s
  | 0, c :: s =>
    if sub.isPrefixOf (c :: s) then removeAll sub (sub.length - 1) s else c :: removeAll sub 0 s

/-- `s.startswith(pre)`. -/
def startsWith (s pre : Str) : Bool := pre.isPrefixOf s

/-- `s.endswith(suf)`. -/
def endsWith (s suf : Str) : Bool := suf.isSuffixOf s

/-- `s.split(sep, 1)` as a pair, `none` when `sep` does not occur (and Python returns `[s]`). -/
def splitOnce (sep : Str) : Str → Option (Str × Str)
  | [] => if sep.isEmpty then some ([], []) else none
  | c :: s =>
    if sep.isPrefixOf (c :: s) then some ([], (c :: s).drop sep.length)
    else (splitOnce sep s).map fun p => (c :: p.1, p.2)

/-- `s.split(sep, 1)[0]`. -/
def splitFirst (sep s : Str) : Str := ((splitOnce sep s).map Prod.fst).getD s

/-- `s.split(sep, 1)[-1]`. -/
def splitLast (sep s : Str) : Str := ((splitOnce sep s).map Prod.snd).getD s

/-- `s.rsplit(sep, 1)[0]` for a separator of one character. -/
def rsplitFirst (sep : Char) (s : Str) : Str :=
  if sep ∈ s then [sep].intercalate (s.splitOn sep).dropLast else s

/-- `sep.join(parts)`. -/
def join (sep : Str) (parts : List Str) : Str := sep.intercalate parts

/-- `b'...'` of an ASCII text. -/
def asciiBytes (s : String) : Bytes := s.toList.map fun c => c.toNat.toUInt8

/-- `str(n)` of a non-negative integer. -/
def natStr (n : Nat) : Str := Nat.toDigits 10 n

/-- `str(n)` -/
def intStr : Int → Str
  | .ofNat n => natStr n
  | .negSucc n => '-' :: natStr (n + 1)

/-- `int(s)`; decimals outside ASCII are refused here. -/
def parseInt (s : Str) : Except Exn ℤ :=
  let (negative, digits) :=
    match strip s with
    | '-' :: digits => (true, digits)
    | '+' :: digits => (false, digits)
    | digits => (false, digits)
  -- single underscores may stand between digits
  let groups := digits.splitOn '_'
  if groups.all fun group => !group.isEmpty && group.all Char.isDigit then
    let n : ℕ := groups.flatten.foldl (fun n c => 10 * n + (c.toNat - '0'.toNat)) 0
    .ok (if negative then -n else n)
  else .error .valueError

/-- `bs.decode()`, `none` for `UnicodeDecodeError`. -/
def decode (bs : Bytes) : Option Str := (ByteArray.utf8Decode? ⟨bs.toArray⟩).map Array.toList

/-- `s.encode()` -/
def encode (s : Str) : Bytes := s.flatMap String.utf8EncodeChar

/-! ### Facts about `strip` -/

/-- `strip` takes spaces away at both ends. -/
theorem exists_strip (s : Str) : ∃ pre post, s = pre ++ strip s ++ post ∧
    (∀ c ∈ pre, isSpace c = true) ∧ ∀ c ∈ post, isSpace c = true := by
  refine ⟨s.takeWhile isSpace, (s.dropWhile isSpace).rtakeWhile isSpace, ?_, ?_, ?_⟩
  · rw [List.append_assoc, strip, List.rdropWhile_append_rtakeWhile, List.takeWhile_append_dropWhile]
  · exact fun c hc => List.mem_takeWhile_imp hc
  · exact fun c hc => List.mem_rtakeWhile_imp hc

/-! ### Facts about `split` -/

@[simp] theorem endsWith_iff (s suf : Str) : endsWith s suf = true ↔ suf <:+ s := by
  rw [endsWith, List.isSuffixOf_iff_suffix]

@[simp] theorem startsWith_iff (s pre : Str) : startsWith s pre = true ↔ pre <+: s := by
  rw [startsWith, List.isPrefixOf_iff_prefix]

/-- `split` cuts the text at the separator. -/
theorem eq_append_of_splitOnce {sep s a b : Str} (h : splitOnce sep s = some (a, b)) :
    s = a ++ sep ++ b := by
  induction s generalizing a b with
  | nil =>
    unfold splitOnce at h
    split at h
    · next hsep =>
      obtain ⟨rfl, rfl⟩ : [] = a ∧ [] = b := by simpa using h
      simpa using hsep.symm
    · cases h
  | cons c s ih =>
    unfold splitOnce at h
    split at h
    · next hpre =>
      obtain ⟨rfl, rfl⟩ : [] = a ∧ (c :: s).drop sep.length = b := by simpa using h
      obtain ⟨t, ht⟩ := List.isPrefixOf_iff_prefix.mp hpre
      rw [← ht]
      simp
    · rw [Option.map_eq_some_iff] at h
      obtain ⟨⟨a', b'⟩, hp, heq⟩ := h
      obtain ⟨rfl, rfl⟩ : c :: a' = a ∧ b' = b := by simpa using heq
      simp [ih hp]

/-- A text that holds the character is cut by it. -/
theorem exists_splitOnce {c : Char} {s : Str} (h : c ∈ s) :
    ∃ a b, splitOnce [c] s = some (a, b) := by
  induction s with
  | nil => simp at h
  | cons d s ih =>
    unfold splitOnce
    split
    · exact ⟨_, _, rfl⟩
    · next hne =>
      have hd : c ≠ d := by
        rintro rfl
        simp at hne
      obtain ⟨a, b, hab⟩ := ih (by simpa [hd] using h)
      exact ⟨d :: a, b, by rw [hab]; rfl⟩

/-- A text is cut where the character first occurs. -/
theorem splitOnce_append {c : Char} {a : Str} (h : c ∉ a) (b : Str) :
    splitOnce [c] (a ++ c :: b) = some (a, b) := by
  induction a with
  | nil => simp [splitOnce]
  | cons d a ih =>
    rw [List.mem_cons, not_or] at h
    obtain ⟨hd, ha⟩ := h
    have hne : [c].isPrefixOf (d :: (a ++ c :: b)) = false := by simp [List.isPrefixOf, hd]
    rw [List.cons_append, splitOnce, hne, ih ha]
    rfl

/-- A text is cut by a character exactly when it holds it. -/
theorem isSome_splitOnce {c : Char} {s : Str} : (splitOnce [c] s).isSome ↔ c ∈ s := by
  constructor
  · intro h
    obtain ⟨⟨a, b⟩, hab⟩ := Option.isSome_iff_exists.mp h
    rw [eq_append_of_splitOnce hab]
    simp
  · intro h
    obtain ⟨a, b, hab⟩ := exists_splitOnce h
    rw [hab]
    rfl

/-- A text is cut by another one exactly when it holds it. -/
theorem isSome_splitOnce_iff {sep s : Str} : (splitOnce sep s).isSome ↔ sep <:+: s := by
  constructor
  · intro h
    obtain ⟨⟨a, b⟩, hab⟩ := Option.isSome_iff_exists.mp h
    exact ⟨a, b, (eq_append_of_splitOnce hab).symm⟩
  · intro h
    induction s with
    | nil =>
      rw [List.infix_nil.mp h]
      rfl
    | cons c s ih =>
      unfold splitOnce
      split
      · rfl
      · next hpre =>
        rcases List.infix_cons_iff.mp h with hprefix | htail
        · exact absurd (List.isPrefixOf_iff_prefix.mpr hprefix) hpre
        · rw [Option.isSome_map]
          exact ih htail

/-- What follows the first occurrence. -/
theorem splitLast_append {c : Char} {a : Str} (h : c ∉ a) (b : Str) : splitLast [c] (a ++ c :: b) = b := by
  unfold splitLast
  rw [splitOnce_append h]
  rfl

/-- What precedes the first occurrence. -/
theorem splitFirst_append {c : Char} {a : Str} (h : c ∉ a) (b : Str) :
    splitFirst [c] (a ++ c :: b) = a := by
  unfold splitFirst
  rw [splitOnce_append h]
  rfl

/-- The parts around a first occurrence are determined. -/
theorem append_cons_inj {c : Char} {a b a' b' : Str} (ha : c ∉ a) (ha' : c ∉ a')
    (h : a ++ c :: b = a' ++ c :: b') : a = a' ∧ b = b' := by
  have hsplit := congrArg (splitOnce [c]) h
  rw [splitOnce_append ha, splitOnce_append ha'] at hsplit
  exact Prod.ext_iff.mp (Option.some.inj hsplit)

/-- So are the parts around a last occurrence. -/
theorem append_cons_inj_last {c : Char} {a b a' b' : Str} (hb : c ∉ b) (hb' : c ∉ b')
    (h : a ++ c :: b = a' ++ c :: b') : a = a' ∧ b = b' := by
  have hreverse : b.reverse ++ c :: a.reverse = b'.reverse ++ c :: a'.reverse := by
    simpa using congrArg List.reverse h
  obtain ⟨hlast, hfirst⟩ := append_cons_inj (by simpa using hb) (by simpa using hb') hreverse
  exact ⟨List.reverse_inj.mp hfirst, List.reverse_inj.mp hlast⟩

/-- A text without the character is not cut. -/
theorem splitFirst_of_notMem {c : Char} {s : Str} (h : c ∉ s) : splitFirst [c] s = s := by
  have hnone : splitOnce [c] s = none := by
    rw [← Option.not_isSome_iff_eq_none, isSome_splitOnce]
    exact h
  unfold splitFirst
  rw [hnone]
  rfl

/-- What stands before the first occurrence is a part of the text. -/
theorem mem_of_mem_splitFirst {sep c : Char} {s : Str} (hc : c ∈ splitFirst [sep] s) : c ∈ s := by
  by_cases hmem : sep ∈ s
  · obtain ⟨a, b, rfl, ha⟩ := List.eq_append_cons_of_mem hmem
    rw [splitFirst_append ha] at hc
    exact List.mem_append_left _ hc
  · rwa [splitFirst_of_notMem hmem] at hc

theorem mem_splitFirst_append {sep c : Char} {a b : Str} (hc : c ∈ splitFirst [sep] (a ++ b)) :
    c ∈ splitFirst [sep] a ∨ c ∈ b := by
  by_cases hmem : sep ∈ a
  · obtain ⟨x, y, rfl, hx⟩ := List.eq_append_cons_of_mem hmem
    rw [List.append_assoc, List.cons_append, splitFirst_append hx] at hc
    rw [splitFirst_append hx]
    exact .inl hc
  · rw [splitFirst_of_notMem hmem]
    exact List.mem_append.mp (mem_of_mem_splitFirst hc)

/-! ### Facts about `join` -/

/-- A joined text is written with the characters of the separator and of the parts. -/
theorem mem_join {sep : Str} {parts : List Str} {c : Char} (h : c ∈ join sep parts) :
    c ∈ sep ∨ ∃ p ∈ parts, c ∈ p := by
  unfold join at h
  induction parts with
  | nil => simp at h
  | cons p parts ih =>
    cases parts with
    | nil =>
      rw [List.intercalate_singleton] at h
      exact .inr ⟨p, List.mem_cons_self .., h⟩
    | cons q parts =>
      rw [List.intercalate_cons_cons, List.append_assoc, List.mem_append, List.mem_append] at h
      rcases h with h | h | h
      · exact .inr ⟨p, List.mem_cons_self .., h⟩
      · exact .inl h
      · rcases ih h with h | ⟨p', hp', h⟩
        · exact .inl h
        · exact .inr ⟨p', List.mem_cons_of_mem _ hp', h⟩

/-- What the parts of a text hold the text holds, but for what separates them. -/
theorem mem_splitOn_or_eq (sep : Char) {c : Char} {s : Str} (hc : c ∈ s) :
    c = sep ∨ ∃ p ∈ s.splitOn sep, c ∈ p := by
  have hjoin : join [sep] (s.splitOn sep) = s := List.intercalate_splitOn ..
  rw [← hjoin] at hc
  rcases mem_join hc with hc | hc
  · exact .inl (List.mem_singleton.mp hc)
  · exact .inr hc

/-! ### Facts about `decode` -/

@[simp] theorem decode_nil : decode [] = some [] := by
  have h : (⟨([] : Bytes).toArray⟩ : ByteArray) = ByteArray.empty := rfl
  rw [decode, h, ByteArray.utf8Decode?_empty]
  rfl

/-- What is encoded is decoded to the same text. -/
@[simp] theorem decode_encode (s : Str) : decode (encode s) = some s := by
  have h : (⟨(encode s).toArray⟩ : ByteArray) = s.utf8Encode := by
    rw [ByteArray.ext_iff, List.utf8Encode, List.data_toByteArray]
    rfl
  rw [decode, h, List.utf8Decode?_utf8Encode, Option.map_some]

/-! ### Facts about `encode` -/

/-- A character of ASCII is one octet; the octets of the others are not ASCII. -/
theorem utf8EncodeChar_cases (c : Char) :
    (c.toNat < 128 ∧ String.utf8EncodeChar c = [UInt8.ofNat c.toNat]) ∨
      (128 ≤ c.toNat ∧ ∀ b ∈ String.utf8EncodeChar c, 128 ≤ b.toNat) := by
  have hv : c.val.toNat = c.toNat := rfl
  have hoctet : ∀ n : ℕ, 128 ≤ n → n < 256 → 128 ≤ (UInt8.ofNat n).toNat := by
    intro n h₁ h₂
    rw [UInt8.toNat_ofNat']
    omega
  unfold String.utf8EncodeChar
  simp only [hv]
  split_ifs with h₁ h₂ h₃
  · exact .inl ⟨by omega, rfl⟩
  · refine .inr ⟨by omega, ?_⟩
    simp only [List.mem_cons, List.not_mem_nil, or_false, forall_eq_or_imp, forall_eq]
    exact ⟨hoctet _ (by omega) (by omega), hoctet _ (by omega) (by omega)⟩
  · refine .inr ⟨by omega, ?_⟩
    simp only [List.mem_cons, List.not_mem_nil, or_false, forall_eq_or_imp, forall_eq]
    exact ⟨hoctet _ (by omega) (by omega), hoctet _ (by omega) (by omega),
      hoctet _ (by omega) (by omega)⟩
  · refine .inr ⟨by omega, ?_⟩
    simp only [List.mem_cons, List.not_mem_nil, or_false, forall_eq_or_imp, forall_eq]
    exact ⟨hoctet _ (by omega) (by omega), hoctet _ (by omega) (by omega),
      hoctet _ (by omega) (by omega), hoctet _ (by omega) (by omega)⟩

/-- An octet of ASCII is in a text that is encoded exactly when its character is in the text. -/
theorem mem_encode_iff {s : Str} {c : Char} (hc : c.toNat < 128) :
    UInt8.ofNat c.toNat ∈ encode s ↔ c ∈ s := by
  rw [encode, List.mem_flatMap]
  constructor
  · rintro ⟨d, hd, hmem⟩
    rcases utf8EncodeChar_cases d with ⟨hlt, heq⟩ | ⟨-, hge⟩
    · rw [heq, List.mem_singleton, ← UInt8.toNat_inj, UInt8.toNat_ofNat', UInt8.toNat_ofNat'] at hmem
      have hcd : c.toNat = d.toNat := by omega
      rwa [Char.toNat_inj.mp hcd]
    · have hge := hge _ hmem
      rw [UInt8.toNat_ofNat'] at hge
      omega
  · intro hmem
    refine ⟨c, hmem, ?_⟩
    rcases utf8EncodeChar_cases c with ⟨-, heq⟩ | ⟨hge, -⟩
    · rw [heq]
      exact List.mem_singleton_self _
    · omega
end Py

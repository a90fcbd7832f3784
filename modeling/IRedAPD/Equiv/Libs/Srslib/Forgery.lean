/-
  How much of a hash is compared.

  `check_hash` computes a hash of the length of the one it is given, so that
  `hash_length` bounds what is written and not what is accepted: a hash is
  accepted exactly when it is, but for the case of letters, the start of a digest
  (`Srs.reverse_srs0Address_eq_ok_iff`, `Srs.reverse_srs1Address_eq_ok_iff`).  One
  character is enough, and one of the 64 there are is the right one
  (`Srs.exists_forged`).
-/
import IRedAPD.Equiv.Libs.Srslib.Reverse

namespace IRedAPD.Srslib

open Py

section Hashes

variable [Unicode] (hmacSha1 : Bytes → Bytes → Vector UInt8 20)

/-- The whole digest of a text, in the letters of a hash. -/
def digest (s : Str) (secret : Bytes) : Str :=
  b64encode (hmacSha1 secret (encode (Unicode.lower s))).toList

/-- The text starts a digest under one of the secrets, but for the case of letters. -/
def StartsDigest (srs : Srs) (hash s : Str) : Prop :=
  ∃ secret ∈ srs.secret :: srs.prevSecrets,
    Unicode.lower hash = Unicode.lower ((digest hmacSha1 s secret).take hash.length)

/-- **What is accepted as a hash.** -/
theorem Srs.checkHash_eq_ok_iff (srs : Srs) (hash s addr : Str) :
    srs.checkHash hmacSha1 hash s addr = .ok () ↔ StartsDigest hmacSha1 srs hash s := by
  unfold Srs.checkHash StartsDigest generateHash digest
  split_ifs with hany
  · obtain ⟨secret, hsecret, hsame⟩ := List.any_eq_true.mp hany
    exact iff_of_true rfl ⟨secret, hsecret, of_decide_eq_true hsame⟩
  · refine iff_of_false (fun h => by cases h) ?_
    rintro ⟨secret, hsecret, hsame⟩
    exact hany (List.any_eq_true.mpr ⟨secret, hsecret, decide_eq_true hsame⟩)

/-- A hash of one character. -/
theorem exists_generateHash_one (s : Str) (secret : Bytes) :
    ∃ c ∈ b64Alphabet, generateHash hmacSha1 s secret 1 = [c] := by
  unfold generateHash
  generalize hbytes : (hmacSha1 secret (encode (Unicode.lower s))).toList = bytes
  have hlength : bytes.length = 20 := by rw [← hbytes, Vector.length_toList]
  match bytes, hlength with
  | a :: b :: c :: rest, _ => exact ⟨_, b64Char_mem _, rfl⟩

end Hashes

section Calls

variable [Unicode] {hmacSha1 : Bytes → Bytes → Vector UInt8 20} {timeFn : ℕ → ℚ} {srs : Srs}

/-- **When an SRS0 address is reversed.** -/
theorem Srs.reverse_srs0Address_eq_ok_iff {tag hash ts host localPart aliasHost : Str} (st : State)
    (htag : SameLetters tag "SRS0".toList) (hhash : Field hash) (hts : Field ts)
    (hhost : Field host) (hne : localPart ≠ []) (hline : '\n' ∉ localPart)
    (hlocal : '@' ∉ tag ++ '=' :: (hash ++ '=' :: (ts ++ '=' :: (host ++ '=' :: localPart))))
    (halias : '@' ∉ aliasHost) (x : Str) :
    (srs.reverse hmacSha1 timeFn (srs0Address tag hash ts host localPart aliasHost) st).1 = .ok x ↔
      x = localPart ++ '@' :: host ∧ StartsDigest hmacSha1 srs hash (ts ++ host ++ localPart) ∧
        Unicode.upper ts ∈ (srs.validTs timeFn st).1 := by
  rw [← srs.checkHash_eq_ok_iff hmacSha1 hash _ (srs0Address tag hash ts host localPart aliasHost)]
  cases hcheck : srs.checkHash hmacSha1 hash (ts ++ host ++ localPart)
      (srs0Address tag hash ts host localPart aliasHost) with
  | error e =>
    have hsplit : splitAddr (srs0Address tag hash ts host localPart aliasHost) = .ok
        (tag ++ '=' :: (hash ++ '=' :: (ts ++ '=' :: (host ++ '=' :: localPart))), aliasHost) :=
      splitAddr_eq hlocal halias
    refine iff_of_false ?_ fun h => by cases h.2.1
    unfold Srs.reverse
    simp only [hsplit, srs1_eq_none htag, srs0_eq htag hhash hts hhost hne hline, hcheck]
    exact fun h => by cases h
  | ok _ =>
    rw [srs.reverse_srs0Address st htag hhash hts hhost hne hline hlocal halias hcheck]
    unfold Srs.checkTs
    simp only
    split_ifs with hvalid
    · rw [List.contains_iff_mem] at hvalid
      simp only [Except.map, Except.ok.injEq, hvalid, and_true]
      exact eq_comm
    · rw [List.contains_iff_mem] at hvalid
      simp only [Except.map, reduceCtorEq, hvalid, and_false]

/-- **When an SRS1 address is reversed**: no time stamp is looked at. -/
theorem Srs.reverse_srs1Address_eq_ok_iff {tag hash host localPart aliasHost : Str} (st : State)
    (htag : SameLetters tag "SRS1".toList) (hhash : Field hash) (hhost : Field host)
    (hseparated : Separated localPart) (hline : '\n' ∉ localPart)
    (hlocal : '@' ∉ tag ++ '=' :: (hash ++ '=' :: (host ++ '=' :: localPart)))
    (halias : '@' ∉ aliasHost) (x : Str) :
    (srs.reverse hmacSha1 timeFn (srs1Address tag hash host localPart aliasHost) st).1 = .ok x ↔
      x = "SRS0".toList ++ localPart ++ '@' :: host ∧
        StartsDigest hmacSha1 srs hash (host ++ localPart) := by
  rw [← srs.checkHash_eq_ok_iff hmacSha1 hash _ (srs1Address tag hash host localPart aliasHost)]
  cases hcheck : srs.checkHash hmacSha1 hash (host ++ localPart)
      (srs1Address tag hash host localPart aliasHost) with
  | error e =>
    have hsplit : splitAddr (srs1Address tag hash host localPart aliasHost) = .ok
        (tag ++ '=' :: (hash ++ '=' :: (host ++ '=' :: localPart)), aliasHost) :=
      splitAddr_eq hlocal halias
    refine iff_of_false ?_ fun h => by cases h.2
    unfold Srs.reverse
    simp only [hsplit, srs1_eq htag hhash hhost hseparated hline, hcheck]
    exact fun h => by cases h
  | ok _ =>
    rw [srs.reverse_srs1Address st htag hhash hhost hseparated hline hlocal halias hcheck]
    simp only [Except.ok.injEq, and_true]
    exact eq_comm

/-- **One character is enough.** Whatever the secrets, the hash length and the address to be bounced to,
one of the 64 characters makes a hash for an SRS0 address with the time stamp of the day on which the
check reads the clock, and one for an SRS1 address at any time. -/
theorem Srs.exists_forged (hlate : ∀ n, ((srs.validityDays : ℚ) - 1) * 86400 < timeFn n) {st : State}
    (hkept : srs.Kept st) {host localPart rest aliasHost : Str} (hhost : Field host)
    (hne : localPart ≠ []) (hline : '\n' ∉ localPart) (hseparated : Separated rest)
    (hlineRest : '\n' ∉ rest) (hlocal : '@' ∉ localPart) (hrest : '@' ∉ rest) (hat : '@' ∉ host)
    (halias : '@' ∉ aliasHost) :
    (∃ n, st.readings ≤ n ∧ n < (srs.validTs timeFn st).2.readings ∧ ∃ c ∈ b64Alphabet,
      (srs.reverse hmacSha1 timeFn (srs0Address "SRS0".toList [c] (dayTs (dayOf (timeFn n))) host
        localPart aliasHost) st).1 = .ok (localPart ++ '@' :: host)) ∧
    ∃ c ∈ b64Alphabet,
      (srs.reverse hmacSha1 timeFn (srs1Address "SRS1".toList [c] host rest aliasHost) st).1 =
        .ok ("SRS0".toList ++ rest ++ '@' :: host) := by
  have hletter : ∀ c ∈ b64Alphabet, c ≠ '=' ∧ '@' ≠ c := by decide
  have hfield : ∀ c ∈ b64Alphabet, Field [c] := fun c hc =>
    ⟨List.cons_ne_nil _ _, fun hmem => (hletter c hc).1 (List.mem_singleton.mp hmem).symm⟩
  -- a hash of one character starts the digest it has been taken from
  have hstarts : ∀ (s : Str) (c : Char), generateHash hmacSha1 s srs.secret 1 = [c] →
      StartsDigest hmacSha1 srs [c] s := by
    intro s c hc
    refine ⟨srs.secret, List.mem_cons_self, ?_⟩
    have hone : [c] = (digest hmacSha1 s srs.secret).take 1 := hc.symm
    exact congrArg Unicode.lower hone
  constructor
  · obtain ⟨-, n, hn, hbefore, hcache⟩ := srs.validTs_spec hlate hkept
    obtain ⟨c, hc, hhash⟩ := exists_generateHash_one hmacSha1
      (dayTs (dayOf (timeFn n)) ++ host ++ localPart) srs.secret
    refine ⟨n, hn, hbefore, c, hc, ?_⟩
    have hts : ∀ d : Char, d ∉ tsAlphabet → d ∉ dayTs (dayOf (timeFn n)) :=
      fun d hd hmem => hd (mem_tsAlphabet_of_mem_dayTs hmem)
    have hat' : '@' ∉ "SRS0".toList ++ '=' :: ([c] ++ '=' :: (dayTs (dayOf (timeFn n)) ++ '=' ::
        (host ++ '=' :: localPart))) := by
      simp only [List.mem_append, List.mem_cons, not_or]
      exact ⟨by decide, by decide, ⟨(hletter c hc).2, List.not_mem_nil⟩, by decide, hts _ (by decide), by decide, hat,
        by decide, hlocal⟩
    have htsField : Field (dayTs (dayOf (timeFn n))) := ⟨List.cons_ne_nil _ _, hts _ (by decide)⟩
    rw [srs.reverse_srs0Address_eq_ok_iff st (.refl _) (hfield c hc) htsField hhost hne hline hat'
      halias]
    refine ⟨rfl, hstarts _ c hhash, ?_⟩
    rw [upper_of_sameLetters_dayTs (.refl _), hcache]
    have hpos := srs.validityDays_pos
    exact srs.mem_cacheOf le_rfl (by omega)
  · obtain ⟨c, hc, hhash⟩ := exists_generateHash_one hmacSha1 (host ++ rest) srs.secret
    refine ⟨c, hc, ?_⟩
    have hat' : '@' ∉ "SRS1".toList ++ '=' :: ([c] ++ '=' :: (host ++ '=' :: rest)) := by
      simp only [List.mem_append, List.mem_cons, not_or]
      exact ⟨by decide, by decide, ⟨(hletter c hc).2, List.not_mem_nil⟩, by decide, hat, by decide, hrest⟩
    rw [srs.reverse_srs1Address_eq_ok_iff st (.refl _) (hfield c hc) hhost hseparated hlineRest hat'
      halias]
    exact ⟨rfl, hstarts _ c hhash⟩

omit [Unicode] in
/-- An address that no host has ever rewritten. -/
theorem Srs.exists_forged_plain :
    letI := asciiUnicode
    let srs : Srs := { secret := [1, 2, 3] }
    let timeFn : ℕ → ℚ := fun _ => 1700000000
    let hmacSha1 : Bytes → Bytes → Vector UInt8 20 := fun secret _ => Vector.replicate 20 secret.length.toUInt8
    (∃ n, 0 ≤ n ∧ n < (srs.validTs timeFn {}).2.readings ∧ ∃ c ∈ b64Alphabet,
      (srs.reverse hmacSha1 timeFn (srs0Address "SRS0".toList [c] (dayTs (dayOf (timeFn n)))
        "y.zz".toList "x".toList "s.dd".toList) {}).1 = .ok "x@y.zz".toList) ∧
    ∃ c ∈ b64Alphabet,
      (srs.reverse hmacSha1 timeFn (srs1Address "SRS1".toList [c] "y.zz".toList "=x".toList
        "s.dd".toList) {}).1 = .ok "SRS0=x@y.zz".toList := by
  let := asciiUnicode
  intro srs timeFn hmacSha1
  have hlate : ∀ n, ((srs.validityDays : ℚ) - 1) * 86400 < timeFn n := fun _ => by norm_num [srs, timeFn]
  have hseparated : Separated "=x".toList := ⟨'=', ['x'], rfl, rfl, List.cons_ne_nil _ _⟩
  have hhost : Field "y.zz".toList := ⟨List.cons_ne_nil _ _, by decide⟩
  exact Srs.exists_forged hlate srs.kept_initial hhost (by decide) (by decide) hseparated (by decide)
    (by decide) (by decide) (by decide) (by decide)

end Calls

end IRedAPD.Srslib

/-
  `SRS.reverse` undoes `SRS.forward`.

  An address of each scheme is described by its parts (`srs0Address`,
  `srs1Address`), which `forward` puts together (`Srs.forward_eq`) and `reverse`
  finds again (`Srs.reverse_srs0Address`, `Srs.reverse_srs1Address`).  Both hold
  for every case of the letters of the rewritten address: the hash is one of the text in
  lower case, and is compared so.
-/
import IRedAPD.Equiv.Libs.Srslib.Timestamps

namespace IRedAPD.Srslib

open Py

/-! ### Addresses by their parts -/

/-- `SRS0=hash=ts=host=localPart@aliasHost`, with its tag. -/
def srs0Address (tag hash ts host localPart aliasHost : Str) : Str :=
  tag ++ '=' :: (hash ++ '=' :: (ts ++ '=' :: (host ++ '=' :: localPart))) ++ '@' :: aliasHost

/-- `SRS1=hash=host=localPart@aliasHost`, with its tag. -/
def srs1Address (tag hash host localPart aliasHost : Str) : Str :=
  tag ++ '=' :: (hash ++ '=' :: (host ++ '=' :: localPart)) ++ '@' :: aliasHost

theorem splitAddr_eq {localPart host : Str} (hlocal : '@' ∉ localPart) (hhost : '@' ∉ host) :
    splitAddr (localPart ++ '@' :: host) = .ok (localPart, host) := by
  unfold splitAddr
  rw [List.splitOn_append_cons_self_of_not_mem hlocal, List.splitOn_eq_singleton hhost]

theorem exists_of_sameLetters_srs0Address {r tag hash ts host localPart aliasHost : Str}
    (h : SameLetters r (srs0Address tag hash ts host localPart aliasHost)) :
    ∃ tag' hash' ts' host' localPart' aliasHost',
      r = srs0Address tag' hash' ts' host' localPart' aliasHost' ∧ SameLetters tag' tag ∧
      SameLetters hash' hash ∧ SameLetters ts' ts ∧ SameLetters host' host ∧
      SameLetters localPart' localPart ∧ SameLetters aliasHost' aliasHost := by
  obtain ⟨l, aliasHost', rfl, hl, halias⟩ := exists_of_sameLetters_append_cons (by decide) h
  obtain ⟨tag', l₁, rfl, htag, h₁⟩ := exists_of_sameLetters_append_cons (by decide) hl
  obtain ⟨hash', l₂, rfl, hhash, h₂⟩ := exists_of_sameLetters_append_cons (by decide) h₁
  obtain ⟨ts', l₃, rfl, hts, h₃⟩ := exists_of_sameLetters_append_cons (by decide) h₂
  obtain ⟨host', l₄, rfl, hhost, h₄⟩ := exists_of_sameLetters_append_cons (by decide) h₃
  exact ⟨tag', hash', ts', host', l₄, aliasHost', rfl, htag, hhash, hts, hhost, h₄, halias⟩

theorem exists_of_sameLetters_srs1Address {r tag hash host localPart aliasHost : Str}
    (h : SameLetters r (srs1Address tag hash host localPart aliasHost)) :
    ∃ tag' hash' host' localPart' aliasHost',
      r = srs1Address tag' hash' host' localPart' aliasHost' ∧ SameLetters tag' tag ∧
      SameLetters hash' hash ∧ SameLetters host' host ∧ SameLetters localPart' localPart ∧
      SameLetters aliasHost' aliasHost := by
  obtain ⟨l, aliasHost', rfl, hl, halias⟩ := exists_of_sameLetters_append_cons (by decide) h
  obtain ⟨tag', l₁, rfl, htag, h₁⟩ := exists_of_sameLetters_append_cons (by decide) hl
  obtain ⟨hash', l₂, rfl, hhash, h₂⟩ := exists_of_sameLetters_append_cons (by decide) h₁
  obtain ⟨host', l₃, rfl, hhost, h₃⟩ := exists_of_sameLetters_append_cons (by decide) h₂
  exact ⟨tag', hash', host', l₃, aliasHost', rfl, htag, hhash, hhost, h₃, halias⟩

/-! ### Characters -/

section Characters

variable [Unicode]

/-- The characters of local parts. -/
abbrev localChars : List Char := ['-', '.', '+', '=', '/', '&', '#']

theorem over_b64Alphabet {s : Str} (h : s ⊆ b64Alphabet) : Over ['+', '/'] s := by
  have halphabet : ∀ c ∈ b64Alphabet, c.toNat < 128 ∧ c.isAlphanum = true ∨ c ∈ ['+', '/'] := by
    decide
  exact over_of_isAlphanum fun c hc => halphabet c (h hc)

theorem over_tsAlphabet {s : Str} (h : s ⊆ tsAlphabet) : Over [] s := by
  have halphabet : ∀ c ∈ tsAlphabet, c.toNat < 128 ∧ c.isAlphanum = true := by decide
  exact over_of_isAlphanum fun c hc => .inl (halphabet c (h hc))

theorem over_singleton {c : Char} {cs : List Char} (h : c ∈ cs) : Over cs [c] :=
  fun _ hd => .inr (List.mem_singleton.mp hd ▸ h)

theorem over_separated {cs : List Char} {s t : Str} {c : Char} (hc : c ∈ cs) (hs : Over cs s)
    (ht : Over cs t) : Over cs (s ++ c :: t) :=
  hs.append ((over_singleton hc).append ht)

theorem notMem_at {s : Str} (h : Over localChars s) : '@' ∉ s :=
  h.notMem (by decide) (by decide) (by decide)

theorem notMem_newline {s : Str} (h : Over localChars s) : '\n' ∉ s :=
  h.notMem (by decide) (by decide) (by decide)

theorem over_domain {s : Str} (h : AddressDomain s) : Over localChars s := h.chars.mono (by decide)

theorem field_domain {s : Str} (h : AddressDomain s) : Field s :=
  ⟨h.ne_nil, h.chars.notMem (by decide) (by decide) (by decide)⟩

/-- A text that starts with an `S`. -/
theorem localPart_cons {s : Str} (h : Over localChars s) : LocalPart ('S' :: s) := by
  refine ⟨'S', s, rfl, over_of_isAlphanum fun c hc => .inl ?_, h⟩
  rw [List.mem_singleton.mp hc]
  exact ⟨by decide, by decide⟩

end Characters

/-! ### Hashes -/

section Hashes

variable [Unicode] (hmacSha1 : Bytes → Bytes → Vector UInt8 20)

omit [Unicode] in
theorem b64Char_mem (n : ℕ) : b64Char n ∈ b64Alphabet := by
  have hlength : b64Alphabet.length = 64 := by decide
  have hn : n % 64 < b64Alphabet.length := by omega
  unfold b64Char
  rw [List.getD_eq_getElem _ _ hn]
  exact List.getElem_mem hn

/-- A hash is four characters of the alphabet. -/
theorem generateHash_four (s : Str) (secret : Bytes) :
    (generateHash hmacSha1 s secret 4).length = 4 ∧ generateHash hmacSha1 s secret 4 ⊆ b64Alphabet := by
  unfold generateHash
  generalize hbytes : (hmacSha1 secret (encode (Unicode.lower s))).toList = bytes
  have hlength : bytes.length = 20 := by rw [← hbytes, Vector.length_toList]
  match bytes, hlength with
  | a :: b :: c :: rest, _ =>
    refine ⟨rfl, fun x hx => ?_⟩
    simp only [b64encode, List.take_succ_cons, List.take_zero, List.mem_cons, List.not_mem_nil,
      or_false] at hx
    rcases hx with rfl | rfl | rfl | rfl
    · exact b64Char_mem _
    · exact b64Char_mem _
    · exact b64Char_mem _
    · exact b64Char_mem _

theorem field_generateHash (s : Str) (secret : Bytes) : Field (generateHash hmacSha1 s secret 4) := by
  obtain ⟨hlength, hsub⟩ := generateHash_four hmacSha1 s secret
  constructor
  · intro hnil
    rw [hnil] at hlength
    cases hlength
  · exact fun hmem => absurd (hsub hmem) (by decide)

variable {hmacSha1} (hlower : ∀ s : Str, Unicode.lower (s.map Char.toLower) = Unicode.lower s)

include hlower in
/-- Texts with the same letters are the same in lower case. -/
theorem lower_of_sameLetters {s t : Str} (h : SameLetters s t) :
    Unicode.lower s = Unicode.lower t := by
  rw [← hlower s, h, hlower t]

include hlower in
/-- **A hash made with a known secret is accepted**, whatever case it comes back in. -/
theorem Srs.checkHash_eq_ok {srs : Srs} {secret : Bytes}
    (hsecret : secret ∈ srs.secret :: srs.prevSecrets) {h s s' : Str}
    (hh : SameLetters h (generateHash hmacSha1 s secret 4)) (hs : SameLetters s' s) (addr : Str) :
    srs.checkHash hmacSha1 h s' addr = .ok () := by
  have hlength : h.length = 4 := hh.length_eq.trans (generateHash_four hmacSha1 s secret).1
  have hsame : generateHash hmacSha1 s' secret h.length = generateHash hmacSha1 s secret 4 := by
    unfold generateHash
    rw [lower_of_sameLetters hlower hs, hlength]
  have hany : ((srs.secret :: srs.prevSecrets).any fun secret =>
      Unicode.lower h = Unicode.lower (generateHash hmacSha1 s' secret h.length)) = true := by
    refine List.any_eq_true.mpr ⟨secret, hsecret, decide_eq_true ?_⟩
    rw [hsame]
    exact lower_of_sameLetters hlower hh
  unfold Srs.checkHash
  rw [if_pos hany]

end Hashes

/-! ### `forward` -/

section Calls

variable [Unicode] {hmacSha1 : Bytes → Bytes → Vector UInt8 20} {timeFn : ℕ → ℚ} {srs : Srs}

/-- **What `forward` makes of an address.** -/
theorem Srs.forward_eq {localPart host : Str} (hlocal : '@' ∉ localPart) (hhost : '@' ∉ host)
    (aliasHost : Str) (st : State) :
    (srs.forward hmacSha1 timeFn (localPart ++ '@' :: host) aliasHost st).1 =
      .ok (match firstHop localPart host with
        | some (first, rest) =>
          srs1Address "SRS1".toList (generateHash hmacSha1 (first ++ rest) srs.secret srs.hashLength)
            first rest aliasHost
        | none =>
          let ts := dayTs (dayOf (timeFn st.readings))
          srs0Address "SRS0".toList
            (generateHash hmacSha1 (ts ++ host ++ localPart) srs.secret srs.hashLength)
            ts host localPart aliasHost) := by
  unfold Srs.forward firstHop
  simp only [splitAddr_eq hlocal hhost]
  cases srs1 localPart with
  | some found =>
    unfold Srs.generateSrs1Address srs1Address
    simp only [List.append_assoc, List.cons_append]
    rfl
  | none =>
    cases srs0Opaque localPart with
    | some rest =>
      unfold Srs.generateSrs1Address srs1Address
      simp only [Option.map_some, List.append_assoc, List.cons_append]
      rfl
    | none =>
      unfold Srs.generateSrs0Address srs0Address
      simp only [Option.map_none, generateTs_none, List.append_assoc, List.cons_append]
      rfl

/-! ### `reverse` -/

/-- **An SRS0 address is reversed** to the address it was made from, as far as its timestamp is
accepted. -/
theorem Srs.reverse_srs0Address {tag hash ts host localPart aliasHost : Str} (st : State)
    (htag : SameLetters tag "SRS0".toList) (hhash : Field hash) (hts : Field ts)
    (hhost : Field host) (hne : localPart ≠ []) (hline : '\n' ∉ localPart)
    (hlocal : '@' ∉ tag ++ '=' :: (hash ++ '=' :: (ts ++ '=' :: (host ++ '=' :: localPart))))
    (halias : '@' ∉ aliasHost)
    (hcheckHash : srs.checkHash hmacSha1 hash (ts ++ host ++ localPart)
      (srs0Address tag hash ts host localPart aliasHost) = .ok ()) :
    srs.reverse hmacSha1 timeFn (srs0Address tag hash ts host localPart aliasHost) st =
      ((srs.checkTs timeFn ts (srs0Address tag hash ts host localPart aliasHost) st).1.map
          fun _ => localPart ++ '@' :: host,
        (srs.checkTs timeFn ts (srs0Address tag hash ts host localPart aliasHost) st).2) := by
  have hsplit : splitAddr (srs0Address tag hash ts host localPart aliasHost) = .ok
      (tag ++ '=' :: (hash ++ '=' :: (ts ++ '=' :: (host ++ '=' :: localPart))), aliasHost) :=
    splitAddr_eq hlocal halias
  unfold Srs.reverse
  simp only [hsplit, srs1_eq_none htag, srs0_eq htag hhash hts hhost hne hline, hcheckHash]
  rcases srs.checkTs timeFn ts (srs0Address tag hash ts host localPart aliasHost) st with ⟨e | _, st'⟩
  · rfl
  · rfl

/-- **An SRS1 address is reversed** to an SRS0 address of the first hop. -/
theorem Srs.reverse_srs1Address {tag hash host localPart aliasHost : Str} (st : State)
    (htag : SameLetters tag "SRS1".toList) (hhash : Field hash) (hhost : Field host)
    (hseparated : Separated localPart) (hline : '\n' ∉ localPart)
    (hlocal : '@' ∉ tag ++ '=' :: (hash ++ '=' :: (host ++ '=' :: localPart)))
    (halias : '@' ∉ aliasHost)
    (hcheckHash : srs.checkHash hmacSha1 hash (host ++ localPart)
      (srs1Address tag hash host localPart aliasHost) = .ok ()) :
    srs.reverse hmacSha1 timeFn (srs1Address tag hash host localPart aliasHost) st =
      (.ok ("SRS0".toList ++ localPart ++ '@' :: host), st) := by
  have hsplit : splitAddr (srs1Address tag hash host localPart aliasHost) = .ok
      (tag ++ '=' :: (hash ++ '=' :: (host ++ '=' :: localPart)), aliasHost) :=
    splitAddr_eq hlocal halias
  unfold Srs.reverse
  simp only [hsplit, srs1_eq htag hhash hhost hseparated hline, hcheckHash]

/-- Reversing an address keeps what is kept. -/
theorem Srs.kept_reverse (hlate : ∀ n, ((srs.validityDays : ℚ) - 1) * 86400 < timeFn n)
    {st : State} (h : srs.Kept st) (addr : Str) :
    srs.Kept (srs.reverse hmacSha1 timeFn addr st).2 := by
  unfold Srs.reverse
  cases splitAddr addr with
  | error e => exact h
  | ok parts =>
    simp only
    cases srs1 parts.1 with
    | some found =>
      simp only
      cases srs.checkHash hmacSha1 found.1 (found.2.1 ++ found.2.2) addr with
      | error e => exact h
      | ok _ => exact h
    | none =>
      simp only
      cases srs0 parts.1 with
      | none => exact h
      | some found =>
        simp only
        cases srs.checkHash hmacSha1 found.1 (found.2.1 ++ found.2.2.1 ++ found.2.2.2) addr with
        | error e => exact h
        | ok _ =>
          have hkept := (srs.validTs_spec hlate h).1
          rw [← srs.checkTs_snd found.2.1 addr] at hkept
          simp only
          rcases hcheck : srs.checkTs timeFn found.2.1 addr st with ⟨e | _, st'⟩
          · rw [hcheck] at hkept
            exact hkept
          · rw [hcheck] at hkept
            exact hkept

end Calls

end IRedAPD.Srslib

/-
  A mail that several hosts forward, one after the other.

  The first host rewrites the sender to an SRS0 address, every later one to an
  SRS1 address that still names the first (`FromFirst`).  However many hosts there
  are, whatever their secrets, a bounce to the last address makes two steps at
  most: the last host answers with the address the first one has written, at any
  time, and the first one answers that with the sender, within twenty days
  (`bounce_returns`).
-/
import IRedAPD.Equiv.Channel.SrsRoundTrip

namespace IRedAPD

open Py Srslib

variable [Unicode] {ω ω' : Type*}

/-- A host that forwards mail: its two services, which know a common secret, and the state in which the
sender service is asked. -/
structure Relay (ω ω' : Type*) where
  sender : SrsService ω
  recipient : SrsService ω'
  state : ω × State
  domain : AddressDomain sender.settings.srsDomain
  secret_mem : sender.secret ∈ recipient.secret :: recipient.prevSecrets
  late : ∀ n, 20 * 86400 < recipient.timeFn n

section Chain

variable (hmacSha1 : Bytes → Bytes → Vector UInt8 20)

/-- The sender `a` has been rewritten by some hosts, the last of which has made `r` of it. -/
inductive Forwarded (a : Str) : List (Relay ω ω') → Str → Prop
  | first {relay : Relay ω ω'} {r : Str}
      (hsent : Replies (relay.sender.get hmacSha1 .sender relay.state a) r) : Forwarded a [relay] r
  | next {relays : List (Relay ω ω')} {relay : Relay ω ω'} {r r' : Str}
      (h : Forwarded a relays r)
      (hsent : Replies (relay.sender.get hmacSha1 .sender relay.state r) r') :
      Forwarded a (relays ++ [relay]) r'

/-- The recipient service of a host answers `r` with `addr` in every state, and so it does, but for the
case of letters, for every case of the letters of `r`. -/
def ReturnsTo (relay : Relay ω ω') (r addr : Str) : Prop :=
  ∀ (v : ω' × State) asked, SameLetters asked r → ∃ answer,
    Replies (relay.recipient.get hmacSha1 .recipient v asked) answer ∧
      SameLetters answer addr ∧ (asked = r → answer = addr)

end Chain

/-- An address that names a first host, with what stands for it there: the local part after the tag. -/
def FromFirst (first rest r : Str) : Prop :=
  ∃ localPart aliasHost, r = localPart ++ '@' :: aliasHost ∧ LocalPart localPart ∧
    AddressDomain aliasHost ∧ firstHop localPart aliasHost = some (first, rest)

/-- The address the first host has written. -/
def firstAddress (first rest : Str) : Str := "SRS0".toList ++ rest ++ '@' :: first

/-! ### Rewritten addresses -/

section Rewritten

variable (hmacSha1 : Bytes → Bytes → Vector UInt8 20) (s : Str) (secret : Bytes)

/-- What stands before the `@` of an SRS0 address, after the tag. -/
theorem over_srs0 {ts host localPart : Str} (hts : ts ⊆ tsAlphabet)
    (hhost : AddressDomain host) (hlocal : LocalPart localPart) :
    Over localChars (generateHash hmacSha1 s secret 4 ++ '=' ::
      (ts ++ '=' :: (host ++ '=' :: localPart))) := by
  refine over_separated (by decide) ((over_b64Alphabet (generateHash_four _ _ _).2).mono (by decide)) ?_
  refine over_separated (by decide) ((over_tsAlphabet hts).mono (by decide)) ?_
  exact over_separated (by decide) (over_domain hhost) hlocal.chars

/-- What stands before the `@` of an SRS1 address, after the tag. -/
theorem over_srs1 {first rest : Str} (hfirst : Over localChars first)
    (hrest : Over localChars rest) :
    Over localChars (generateHash hmacSha1 s secret 4 ++ '=' :: (first ++ '=' :: rest)) := by
  refine over_separated (by decide) ((over_b64Alphabet (generateHash_four _ _ _).2).mono (by decide)) ?_
  exact over_separated (by decide) hfirst hrest

/-- **The first host** writes an address that names itself. -/
theorem fromFirst_srs0Address {ts host localPart aliasHost : Str} (hts : ts ⊆ tsAlphabet)
    (hhost : AddressDomain host) (hlocal : LocalPart localPart) (halias : AddressDomain aliasHost) :
    ∃ rest, srs0Address "SRS0".toList (generateHash hmacSha1 s secret 4) ts host localPart aliasHost =
        firstAddress aliasHost rest ∧
      FromFirst aliasHost rest
        (srs0Address "SRS0".toList (generateHash hmacSha1 s secret 4) ts host localPart aliasHost) := by
  have hchars := over_srs0 hmacSha1 s secret hts hhost hlocal
  set text := generateHash hmacSha1 s secret 4 ++ '=' :: (ts ++ '=' :: (host ++ '=' :: localPart))
  have hne : text ≠ [] := List.append_ne_nil_of_right_ne_nil _ (List.cons_ne_nil _ _)
  have hseparated : Separated ('=' :: text) := ⟨'=', text, rfl, rfl, hne⟩
  have hline : '\n' ∉ '=' :: text := by
    intro hmem
    rcases List.mem_cons.mp hmem with heq | hmem
    · exact absurd heq (by decide)
    · exact notMem_newline hchars hmem
  refine ⟨'=' :: text, rfl, "SRS0".toList ++ '=' :: text, aliasHost, rfl, ?_, halias, ?_⟩
  · exact localPart_cons (over_separated (by decide) (over_of_isAlphanum (by decide)) hchars)
  · have hopaque : srs0Opaque ("SRS0".toList ++ '=' :: text) = some ('=' :: text) := by
      have htag : tag '0' ("SRS0".toList ++ '=' :: text) = some ('=' :: text) := rfl
      unfold srs0Opaque
      rw [htag, Option.bind_some, separatorAndText_eq hseparated hline]
    unfold firstHop
    rw [srs1_eq_none (.refl _), hopaque]
    rfl

/-- **A later host** writes an address that names the same first host. -/
theorem fromFirst_srs1Address {first rest aliasHost : Str} (hfirst : Over localChars first)
    (hfield : Field first) (hrest : Over localChars rest) (hseparated : Separated rest)
    (halias : AddressDomain aliasHost) :
    FromFirst first rest
      (srs1Address "SRS1".toList (generateHash hmacSha1 s secret 4) first rest aliasHost) := by
  have hchars := over_srs1 hmacSha1 s secret hfirst hrest
  refine ⟨_, aliasHost, rfl, ?_, halias, ?_⟩
  · exact localPart_cons (over_separated (by decide) (over_of_isAlphanum (by decide)) hchars)
  · unfold firstHop
    rw [srs1_eq (.refl _) (field_generateHash _ _ _) hfield hseparated (notMem_newline hrest)]

end Rewritten

/-! ### A host -/

section Host

variable {hmacSha1 : Bytes → Bytes → Vector UInt8 20}
  (hspace : ∀ c, Unicode.isAlnum c = true → isSpace c = false)
  (hlower : ∀ s : Str, Unicode.lower (s.map Char.toLower) = Unicode.lower s)

include hspace in
/-- What a host has replied is what it has made of the address. -/
theorem forward_of_sent {relay : Relay ω ω'} {localPart host r : Str} (hhost : AddressDomain host)
    (hsent : Replies (relay.sender.get hmacSha1 .sender relay.state (localPart ++ '@' :: host)) r) :
    (relay.sender.srslibInstance.forward hmacSha1 relay.sender.timeFn (localPart ++ '@' :: host)
      relay.sender.settings.srsDomain relay.state.2).1 = .ok r := by
  have hne : localPart ++ '@' :: host ≠ [] :=
    List.append_ne_nil_of_right_ne_nil _ (List.cons_ne_nil _ _)
  exact forward_of_replies hne (isSpace_getLast hspace hhost hne) hsent

include hspace in
/-- The first host. -/
theorem fromFirst_of_first {relay : Relay ω ω'} {localPart host r : Str} (hlocal : LocalPart localPart)
    (hhost : AddressDomain host) (hplain : firstHop localPart host = none)
    (hsent : Replies (relay.sender.get hmacSha1 .sender relay.state (localPart ++ '@' :: host)) r) :
    ∃ rest, r = firstAddress relay.sender.settings.srsDomain rest ∧
      FromFirst relay.sender.settings.srsDomain rest r := by
  have hr := rewritten_eq (notMem_at hlocal.chars) (notMem_at (over_domain hhost))
    (forward_of_sent hspace hhost hsent)
  rw [hplain] at hr
  simp only at hr
  obtain ⟨rest, haddress, hfrom⟩ := fromFirst_srs0Address hmacSha1
    (dayTs (dayOf (relay.sender.timeFn relay.state.2.readings)) ++ host ++ localPart)
    relay.sender.secret (fun c hc => mem_tsAlphabet_of_mem_dayTs hc) hhost hlocal relay.domain
  rw [hr]
  exact ⟨rest, haddress, hfrom⟩

include hspace hlower in
/-- A later host answers its address with the one of the first host. -/
theorem returnsTo_of_next {relay : Relay ω ω'} {first rest r r' : Str} (h : FromFirst first rest r)
    (hsent : Replies (relay.sender.get hmacSha1 .sender relay.state r) r') :
    FromFirst first rest r' ∧ ReturnsTo hmacSha1 relay r' (firstAddress first rest) := by
  obtain ⟨localPart, host, rfl, hlocal, hhost, hhop⟩ := h
  have hr := rewritten_eq (notMem_at hlocal.chars) (notMem_at (over_domain hhost))
    (forward_of_sent hspace hhost hsent)
  rw [hhop] at hr
  simp only at hr
  obtain ⟨hfield, hseparated, hsub, hrestSub⟩ :=
    exists_of_firstHop (notMem_newline hlocal.chars) (field_domain hhost) hhop
  have hfirst : Over localChars first := by
    rcases hsub with rfl | hsub
    · exact over_domain hhost
    · exact fun c hc => hlocal.chars c (hsub hc)
  have hrest : Over localChars rest := fun c hc => hlocal.chars c (hrestSub hc)
  rw [hr]
  refine ⟨fromFirst_srs1Address _ _ _ hfirst hfield hrest hseparated relay.domain, fun v asked hsame => ?_⟩
  by_cases hasked : asked = srs1Address "SRS1".toList
      (generateHash hmacSha1 (first ++ rest) relay.sender.secret 4) first rest
        relay.sender.settings.srsDomain
  · subst hasked
    exact ⟨_, replies_srs1Address hspace hlower relay.secret_mem hrest hseparated hfirst hfield
      relay.domain (.refl _) (.refl _) (.refl _) (.refl _) (.refl _), .refl _, fun _ => rfl⟩
  · obtain ⟨tag', hash', host', localPart', aliasHost', rfl, htag, hhash, hhost', hlocal', halias⟩ :=
      exists_of_sameLetters_srs1Address hsame
    exact ⟨_, replies_srs1Address hspace hlower relay.secret_mem hrest hseparated hfirst hfield
      relay.domain htag hhash hhost' hlocal' halias,
      (SameLetters.refl _).append hlocal' |>.append (.cons '@' hhost'), fun h => absurd h hasked⟩

end Host

/-! ### The chain -/

section Chain

variable {hmacSha1 : Bytes → Bytes → Vector UInt8 20}

/-- **Along the chain** the address names the first host, and every later host answers with its
address. -/
theorem forwarded_spec (hspace : ∀ c, Unicode.isAlnum c = true → isSpace c = false)
    (hlower : ∀ s : Str, Unicode.lower (s.map Char.toLower) = Unicode.lower s)
    {localPart host : Str} (hlocal : LocalPart localPart) (hhost : AddressDomain host)
    (hplain : firstHop localPart host = none) {relays : List (Relay ω ω')} {r : Str}
    (h : Forwarded hmacSha1 (localPart ++ '@' :: host) relays r) :
    ∃ first later rest, relays = first :: later ∧
      Replies (first.sender.get hmacSha1 .sender first.state (localPart ++ '@' :: host))
        (firstAddress first.sender.settings.srsDomain rest) ∧
      FromFirst first.sender.settings.srsDomain rest r ∧
      (later = [] → r = firstAddress first.sender.settings.srsDomain rest) ∧
      ∀ last ∈ later.getLast?,
        ReturnsTo hmacSha1 last r (firstAddress first.sender.settings.srsDomain rest) := by
  induction h with
  | @first relay r hsent =>
    obtain ⟨rest, rfl, hfrom⟩ := fromFirst_of_first hspace hlocal hhost hplain hsent
    exact ⟨relay, [], rest, rfl, hsent, hfrom, fun _ => rfl, fun last hlast => by cases hlast⟩
  | @next relays relay r r' _ hsent ih =>
    obtain ⟨first, later, rest, rfl, hfirst, hfrom, -, -⟩ := ih
    obtain ⟨hfrom', hreturns⟩ := returnsTo_of_next hspace hlower hfrom hsent
    refine ⟨first, later ++ [relay], rest, rfl, hfirst, hfrom', fun hnil => ?_, fun last hlast => ?_⟩
    · exact absurd hnil (List.append_ne_nil_of_right_ne_nil _ (List.cons_ne_nil _ _))
    · rw [List.getLast?_concat] at hlast
      obtain rfl := Option.some.inj hlast
      exact hreturns

/-- **A bounce comes back to the sender in two steps.** An address that is none of SRS and does not begin
with white space is forwarded by any number of hosts.  The first one has written an SRS0 address, which
it answers with the sender within twenty days; the last one, if it is another, answers its own with
that SRS0 address, whenever it is asked. -/
theorem bounce_returns (hspace : ∀ c, Unicode.isAlnum c = true → isSpace c = false)
    (hlower : ∀ s : Str, Unicode.lower (s.map Char.toLower) = Unicode.lower s)
    {a r : Str} (hemail : isEmail a = true) (hchars : Over ['-', '.'] (splitLast "@" a))
    (hhead : ∀ c ∈ a.head?, isSpace c = false)
    (hplain : firstHop (splitFirst "@" a) (splitLast "@" a) = none)
    {first : Relay ω ω'} {later : List (Relay ω ω')} (h : Forwarded hmacSha1 a (first :: later) r) :
    ∃ r₁, Replies (first.sender.get hmacSha1 .sender first.state a) r₁ ∧
      (∀ (w₀ : ω') (lines : List Bytes), Answers hmacSha1 first.recipient
        (Outcome.run (first.recipient.handler hmacSha1 .recipient).onLine (w₀, {}) lines).state
        (first.sender.timeFn first.state.2.readings) r₁ a) ∧
      (later = [] → r = r₁) ∧ ∀ last ∈ later.getLast?, ReturnsTo hmacSha1 last r r₁ := by
  obtain ⟨pre, localPart, host, rfl, hat, hpre, hlocal, hpattern⟩ := exists_parts_of_isEmail hemail
  cases pre with
  | cons c pre =>
    have hc := hhead c rfl
    rw [hpre c List.mem_cons_self] at hc
    cases hc
  | nil =>
    rw [List.nil_append] at *
    have hlast : splitLast "@".toList (localPart ++ '@' :: host) = host :=
      splitLast_append hat host
    have hfirst : splitFirst "@".toList (localPart ++ '@' :: host) = localPart :=
      splitFirst_append hat host
    rw [hlast] at hchars hplain
    rw [hfirst] at hplain
    have hhost : AddressDomain host := ⟨hchars, hpattern⟩
    obtain ⟨first', later', rest, heq, hsent, -, hone, hreturns⟩ :=
      forwarded_spec hspace hlower hlocal hhost hplain h
    obtain ⟨rfl, rfl⟩ := List.cons.inj heq
    refine ⟨_, hsent, fun w₀ lines => ?_, hone, hreturns⟩
    have hkept : first.recipient.srslibInstance.Kept (Outcome.run
        (first.recipient.handler hmacSha1 .recipient).onLine (w₀, {}) lines).state.2 :=
      kept_run first.late w₀ lines
    have hanswers := answers_of_localPart hspace hlower first.late first.secret_mem hkept
      first.domain hlocal hhost (forward_of_sent hspace hhost hsent)
    rw [bounceAddress_eq hat, hplain] at hanswers
    exact hanswers

end Chain

/-! ### Two hosts -/

/-- The domain of a second host. -/
theorem addressDomain_udd : AddressDomain "u.dd".toList :=
  ⟨over_of_isAlphanum (by decide), "u.dd".toList, List.prefix_refl _, 'u', [], "dd".toList, rfl,
    over_of_isAlphanum (by decide), fun c hc => absurd hc List.not_mem_nil, by decide, by decide,
    by decide⟩

/-- A host whose services are `stillService` under some domain. -/
def stillRelay {domain : Str} (hdomain : AddressDomain domain) : Relay Unit Unit where
  sender :=
    { stillService Unit with settings := { (stillService Unit).settings with srsDomain := domain } }
  recipient := stillService Unit
  state := ((), {})
  domain := hdomain
  secret_mem := List.mem_cons_self
  late _ := by
    unfold stillService
    norm_num

omit [Unicode] in
/-- A mail that two hosts forward. -/
theorem bounce_returns_two :
    letI := asciiUnicode
    let hmacSha1 : Bytes → Bytes → Vector UInt8 20 := fun _ _ => Vector.replicate 20 0
    let first := stillRelay addressDomain_sdd
    let last := stillRelay addressDomain_udd
    ∃ r₁, Replies (first.sender.get hmacSha1 .sender first.state "x@y.zz".toList) r₁ ∧
      (∀ (w₀ : Unit) (lines : List Bytes), Answers hmacSha1 first.recipient
        (Outcome.run (first.recipient.handler hmacSha1 .recipient).onLine (w₀, {}) lines).state
        1700000000 r₁ "x@y.zz".toList) ∧
      ([last] = [] → "SRS1=AAAA=s.dd==AAAA=G3=y.zz=x@u.dd".toList = r₁) ∧
      ∀ relay ∈ [last].getLast?,
        ReturnsTo hmacSha1 relay "SRS1=AAAA=s.dd==AAAA=G3=y.zz=x@u.dd".toList r₁ := by
  let := asciiUnicode
  intro hmacSha1 first last
  have hfirst : Replies (first.sender.get hmacSha1 .sender first.state "x@y.zz".toList)
      "SRS0=AAAA=G3=y.zz=x@s.dd".toList := by
    unfold Replies SrsService.get SrsService.handler srsHandler
    simp only [decode_encode]
    decide +kernel
  have hlast : Replies (last.sender.get hmacSha1 .sender last.state "SRS0=AAAA=G3=y.zz=x@s.dd".toList)
      "SRS1=AAAA=s.dd==AAAA=G3=y.zz=x@u.dd".toList := by
    unfold Replies SrsService.get SrsService.handler srsHandler
    simp only [decode_encode]
    decide +kernel
  have hchars : Over ['-', '.'] (splitLast "@" "x@y.zz".toList) := over_of_isAlphanum (by decide)
  have hforwarded : Forwarded hmacSha1 "x@y.zz".toList [first, last]
      "SRS1=AAAA=s.dd==AAAA=G3=y.zz=x@u.dd".toList := .next (.first hfirst) hlast
  have hhead : ∀ c ∈ "x@y.zz".toList.head?, isSpace c = false := by
    intro c hc
    obtain rfl := Option.some.inj hc
    rfl
  exact bounce_returns isSpace_eq_false_of_isAlphanum (fun s => sameLetters_map_toLower s) (by decide)
    hchars hhead rfl hforwarded

end IRedAPD

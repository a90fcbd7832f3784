/-
  The round trip of an address through the two services for SRS.

  The sender service rewrites an address, and the recipient service is asked for
  the rewritten one, in any case of its letters, within twenty days.  The answer
  is the address that bounces go to exactly when the address asked for does not
  begin with white space (`answers_iff`): `is_email` strips what it tests, and the
  channel rewrites what it has not stripped, so that the rewritten address holds
  white space and is no address for the other service.
-/
import IRedAPD.Equiv.Libs.Srslib.Reverse

namespace IRedAPD

open Py Srslib

variable [Unicode] {ω ω' : Type*}

/-! ### The property -/

/-- The address that bounces to an address go to: the address itself, or the SRS0 address of the first hop
when it has been rewritten already. -/
def bounceAddress (addr : Str) : Str :=
  match firstHop (splitFirst "@" addr) (splitLast "@" addr) with
  | some (first, rest) => "SRS0".toList ++ rest ++ '@' :: first
  | none => addr

/-- The channel replies `200 addr`. -/
def Replies (o : Outcome (ω × State) Str) (addr : Str) : Prop :=
  o.events = ["200 ".toList ++ addr ++ "\n".toList] ∧ o.raised = false

/-- Within twenty days from a time on, a rewritten address is answered with the address it stands
for, and so it is, but for the case of letters, in every case of its letters.  The time of a question
is what the service reads off the clock to answer it. -/
def Answers (hmacSha1 : Bytes → Bytes → Vector UInt8 20) (recipient : SrsService ω')
    (v : ω' × State) (sentAt : ℚ) (rewritten addr : Str) : Prop :=
  ∀ asked, SameLetters asked rewritten →
    (∀ n, v.2.readings ≤ n →
      n < (recipient.get hmacSha1 .recipient v asked).state.2.readings →
      sentAt ≤ recipient.timeFn n ∧ recipient.timeFn n ≤ sentAt + 20 * 86400) →
    ∃ answer, Replies (recipient.get hmacSha1 .recipient v asked) answer ∧
      SameLetters answer addr ∧ (asked = rewritten → answer = addr)

/-! ### One question -/

omit [Unicode] in
/-- The address of the question, as far as no white space follows it. -/
theorem splitLast_strip_get {x : Str} (hne : x ≠ []) (hlast : isSpace (x.getLast hne) = false) :
    splitLast " " (strip ("get ".toList ++ x)) = x := by
  have hstrip : strip ("get ".toList ++ x) = "get ".toList ++ x := by
    have hdrop : ("get ".toList ++ x).dropWhile isSpace = "get ".toList ++ x := rfl
    unfold strip
    rw [hdrop, List.rdropWhile_eq_self_iff]
    intro hne'
    rw [List.getLast_append_of_ne_nil hne' hne, hlast]
    exact Bool.false_ne_true
  have happend : "get ".toList ++ x = "get".toList ++ ' ' :: x := rfl
  rw [hstrip, happend]
  exact splitLast_append (by decide) x

/-- What a channel does with a question. -/
theorem get_eq (hmacSha1 : Bytes → Bytes → Vector UInt8 20) (service : SrsService ω)
    (rewrite : RewriteAddressType) (w : ω × State) {x : Str} (hne : x ≠ [])
    (hlast : isSpace (x.getLast hne) = false) :
    service.get hmacSha1 rewrite w x =
      let (reply, w') :=
        if isEmail x then
          match rewrite with
          | .sender =>
            srsForward service.settings (service.calls hmacSha1) x (splitLast "@" x) w
          | .recipient => srsReverse (service.calls hmacSha1) x w
        else (TcpReplies.notExist ++ "Not a valid email address, bypassed.".toList, w)
      ⟨w', [reply ++ "\n".toList], false⟩ := by
  have hstarts : startsWith ("get ".toList ++ x) "get " = true :=
    (startsWith_iff _ _).mpr (List.prefix_append _ _)
  unfold SrsService.get SrsService.handler srsHandler
  simp only [decode_encode]
  unfold srsReply
  have hread := splitLast_strip_get hne hlast
  cases rewrite with
  | sender => simp only [hstarts, hread, if_true]
  | recipient => simp only [hstarts, hread, if_true]

/-- What is no address is not found. -/
theorem get_eq_of_not_isEmail (hmacSha1 : Bytes → Bytes → Vector UInt8 20) (service : SrsService ω)
    (rewrite : RewriteAddressType) (w : ω × State) {x : Str} (hne : x ≠ [])
    (hlast : isSpace (x.getLast hne) = false) (hemail : isEmail x = false) :
    service.get hmacSha1 rewrite w x =
      ⟨w, [TcpReplies.notExist ++ "Not a valid email address, bypassed.".toList ++ "\n".toList],
        false⟩ := by
  rw [get_eq hmacSha1 service rewrite w hne hlast, hemail]
  rfl

omit [Unicode] in
/-- The reply to what `reverse` returns or raises. -/
def replyToReverse : Except Srslib.Error Str → Str
  | .ok addr => TcpReplies.success ++ addr
  | .error _ => TcpReplies.notExist

/-- An address of the recipient's that is an SRS address is answered as it is reversed. -/
theorem get_recipient_eq {hmacSha1 : Bytes → Bytes → Vector UInt8 20} {recipient : SrsService ω'}
    (v : ω' × State) {x : Str} (hne : x ≠ []) (hlast : isSpace (x.getLast hne) = false)
    (hemail : isEmail x = true) (hsrs : isSrsAddress x true = true) {answer : Except Srslib.Error Str}
    {st : State}
    (hreverse : recipient.srslibInstance.reverse hmacSha1 recipient.timeFn x v.2 = (answer, st)) :
    recipient.get hmacSha1 .recipient v x =
      ⟨(v.1, st), [replyToReverse answer ++ "\n".toList], false⟩ := by
  have hcalls : (recipient.calls hmacSha1).isSrsAddress x = true := hsrs
  rw [get_eq hmacSha1 recipient .recipient v hne hlast, hemail, if_pos rfl]
  simp only
  unfold srsReverse
  rw [if_pos hcalls]
  unfold SrsService.calls
  simp only [hreverse]
  cases answer with
  | ok addr => rfl
  | error e => rfl

/-- A reply `200 r` of the sender service is what `forward` has made. -/
theorem forward_of_replies {hmacSha1 : Bytes → Bytes → Vector UInt8 20} {sender : SrsService ω}
    {w : ω × State} {x r : Str} (hne : x ≠ []) (hlast : isSpace (x.getLast hne) = false)
    (h : Replies (sender.get hmacSha1 .sender w x) r) :
    (sender.srslibInstance.forward hmacSha1 sender.timeFn x sender.settings.srsDomain w.2).1 =
      .ok r := by
  -- no other reply of the service begins like one
  have hnot : ∀ s : Str, TcpReplies.notExist ++ s ++ "\n".toList ≠
      "200 ".toList ++ r ++ "\n".toList := by
    intro s heq
    have hhead := congrArg List.head? heq
    exact absurd hhead (by simp [TcpReplies.notExist])
  have hnot' : TcpReplies.notExist ++ "\n".toList ≠ "200 ".toList ++ r ++ "\n".toList := by
    have hnil := hnot []
    rwa [List.append_nil] at hnil
  obtain ⟨hevents, -⟩ := h
  rw [get_eq hmacSha1 sender .sender w hne hlast] at hevents
  by_cases hemail : isEmail x = true
  · simp only [if_pos hemail, List.cons.injEq, and_true] at hevents
    -- through the branches of `srs_forward`: all but the last refuse
    unfold srsForward at hevents
    split_ifs at hevents
    · exact absurd hevents (hnot _)
    · exact absurd hevents (hnot _)
    unfold SrsService.calls at hevents
    simp only at hevents
    split_ifs at hevents
    · exact absurd hevents (hnot _)
    rcases hexcluded : sender.excludeDomains (possibleDomains (splitLast "@" x))
        (sender.isLocalDomain (splitLast "@" x) w.1).2 with ⟨e | b, w₁⟩
    · simp only [hexcluded] at hevents
      exact absurd hevents hnot'
    · simp only [hexcluded] at hevents
      cases b with
      | true => exact absurd hevents (hnot _)
      | false =>
        cases hforward : (sender.srslibInstance.forward hmacSha1 sender.timeFn x
            sender.settings.srsDomain w.2).1 with
        | error e =>
          simp only [hforward] at hevents
          exact absurd hevents hnot'
        | ok newAddr =>
          simp only [hforward] at hevents
          have happend : TcpReplies.success ++ newAddr = TcpReplies.success ++ r :=
            List.append_cancel_right hevents
          rw [List.append_cancel_left happend]
  · simp only [if_neg hemail, List.cons.injEq, and_true] at hevents
    exact absurd hevents (hnot _)

/-! ### The recipient service -/

section Recipient

variable {hmacSha1 : Bytes → Bytes → Vector UInt8 20} {recipient : SrsService ω'}
  (hspace : ∀ c, Unicode.isAlnum c = true → isSpace c = false)
  (hlower : ∀ s : Str, Unicode.lower (s.map Char.toLower) = Unicode.lower s)
  (hlate : ∀ n, 20 * 86400 < recipient.timeFn n)

include hspace in
theorem isSpace_getLast {s domain : Str} (h : AddressDomain domain) (hne : s ++ '@' :: domain ≠ []) :
    isSpace ((s ++ '@' :: domain).getLast hne) = false := by
  have hlast : (s ++ '@' :: domain).getLast hne = domain.getLast h.ne_nil := by
    rw [List.getLast_append_of_ne_nil hne (List.cons_ne_nil _ _), List.getLast_cons h.ne_nil]
  rw [hlast]
  exact h.chars.isSpace_eq_false hspace (by decide) _ (List.getLast_mem h.ne_nil)

omit [Unicode] in
include hlate in
theorem late_srslibInstance (n : ℕ) :
    ((recipient.srslibInstance.validityDays : ℚ) - 1) * 86400 < recipient.timeFn n := by
  have hdays : recipient.srslibInstance.validityDays = 21 := rfl
  have hlt := hlate n
  rw [hdays]
  push_cast
  linarith only [hlt]

include hlate in
/-- What the service keeps are the timestamps of a day, whatever it is asked. -/
theorem kept_reply {w : ω' × State} (hkept : recipient.srslibInstance.Kept w.2) (line : Str) :
    recipient.srslibInstance.Kept
      (srsReply recipient.settings (recipient.calls hmacSha1) .recipient line w).2.2 := by
  have hreverse : ∀ addr, recipient.srslibInstance.Kept
      (srsReverse (recipient.calls hmacSha1) addr w).2.2 := by
    intro addr
    have hkept' : recipient.srslibInstance.Kept
        (recipient.srslibInstance.reverse hmacSha1 recipient.timeFn addr w.2).2 :=
      Srs.kept_reverse (late_srslibInstance hlate) hkept addr
    unfold srsReverse
    split_ifs
    · unfold SrsService.calls
      simp only
      cases (recipient.srslibInstance.reverse hmacSha1 recipient.timeFn addr w.2).1 with
      | ok answer => exact hkept'
      | error e => exact hkept'
    · exact hkept
  unfold srsReply
  by_cases hstarts : startsWith line "get " = true
  · rw [if_pos hstarts]
    simp only
    split_ifs
    · exact hreverse _
    · exact hkept
  · rw [if_neg hstarts]
    exact hkept

include hlate in
theorem kept_run (w₀ : ω') (lines : List Bytes) :
    recipient.srslibInstance.Kept
      (Outcome.run (recipient.handler hmacSha1 .recipient).onLine (w₀, {}) lines).state.2 := by
  refine Outcome.run_invariant (fun w : ω' × State => recipient.srslibInstance.Kept w.2) ?_
    (Srs.kept_initial _) lines
  intro w line hkept
  unfold SrsService.handler srsHandler
  simp only
  cases decode line with
  | none => exact hkept
  | some line => exact kept_reply hlate hkept line

theorem newline_notMem_address {localPart aliasHost : Str} (hlocal : Over localChars localPart)
    (halias : AddressDomain aliasHost) : '\n' ∉ localPart ++ '@' :: aliasHost := by
  intro hmem
  rcases List.mem_append.mp hmem with hmem | hmem
  · exact notMem_newline hlocal hmem
  · rcases List.mem_cons.mp hmem with heq | hmem
    · exact absurd heq (by decide)
    · exact notMem_newline (over_domain halias) hmem

section Made

variable {secret : Bytes} (hsecret : secret ∈ recipient.secret :: recipient.prevSecrets)
  {v : ω' × State} {localPart host aliasHost : Str}
  {tag' hash' ts' host' localPart' aliasHost' : Str}

include hspace hlower hlate hsecret in
/-- An SRS0 address that comes back in any case of its letters. -/
theorem replies_srs0Address (hkept : recipient.srslibInstance.Kept v.2) (hlocal : LocalPart localPart)
    (hhost : AddressDomain host) (halias : AddressDomain aliasHost) (sentAt : ℚ)
    (htag : SameLetters tag' "SRS0".toList)
    (hhash : SameLetters hash'
      (generateHash hmacSha1 (dayTs (dayOf sentAt) ++ host ++ localPart) secret 4))
    (hts : SameLetters ts' (dayTs (dayOf sentAt))) (hhost' : SameLetters host' host)
    (hlocal' : SameLetters localPart' localPart) (halias' : SameLetters aliasHost' aliasHost)
    (hwithin : ∀ n, v.2.readings ≤ n →
      n < (recipient.get hmacSha1 .recipient v
        (srs0Address tag' hash' ts' host' localPart' aliasHost')).state.2.readings →
      sentAt ≤ recipient.timeFn n ∧ recipient.timeFn n ≤ sentAt + 20 * 86400) :
    Replies (recipient.get hmacSha1 .recipient v
      (srs0Address tag' hash' ts' host' localPart' aliasHost')) (localPart' ++ '@' :: host') := by
  obtain ⟨-, halphabet⟩ := generateHash_four hmacSha1 (dayTs (dayOf sentAt) ++ host ++ localPart) secret
  -- what stands before the `@` is a local part, in whatever case it comes back
  have hchars : Over localChars ("RS0".toList ++ '=' ::
      (generateHash hmacSha1 (dayTs (dayOf sentAt) ++ host ++ localPart) secret 4 ++ '=' ::
        (dayTs (dayOf sentAt) ++ '=' :: (host ++ '=' :: localPart)))) := by
    refine over_separated (by decide) (over_of_isAlphanum (by decide)) ?_
    refine over_separated (by decide) ((over_b64Alphabet halphabet).mono (by decide)) ?_
    refine over_separated (by decide) ((over_tsAlphabet fun c hc =>
      mem_tsAlphabet_of_mem_dayTs hc).mono (by decide)) ?_
    exact over_separated (by decide) (over_domain hhost) hlocal.chars
  have hwhole : LocalPart (tag' ++ '=' :: (hash' ++ '=' :: (ts' ++ '=' :: (host' ++ '=' :: localPart')))) :=
    (localPart_cons hchars).of_sameLetters (htag.append (.cons '=' (hhash.append
      (.cons '=' (hts.append (.cons '=' (hhost'.append (.cons '=' hlocal'))))))))
  have halias₁ := halias.of_sameLetters halias'
  have hhost₁ := hhost.of_sameLetters hhost'
  have hlocal₁ := hlocal.of_sameLetters hlocal'
  have hfieldTs : Field (dayTs (dayOf sentAt)) :=
    ⟨List.cons_ne_nil _ _, fun hmem => absurd (mem_tsAlphabet_of_mem_dayTs hmem) (by decide)⟩
  have hhashField := (field_generateHash hmacSha1 _ secret).of_sameLetters hhash
  have htsField := hfieldTs.of_sameLetters hts
  have hemail : isEmail (srs0Address tag' hash' ts' host' localPart' aliasHost') = true :=
    isEmail_of_parts hspace hwhole halias₁
  have hsrs : isSrsAddress (srs0Address tag' hash' ts' host' localPart' aliasHost') true = true := by
    have hline := newline_notMem_address hlocal₁.chars halias₁
    have hfound := srs0_eq htag hhashField htsField (field_domain hhost₁)
      (List.append_ne_nil_of_left_ne_nil hlocal₁.ne_nil ('@' :: aliasHost')) hline
    have happend : srs0Address tag' hash' ts' host' localPart' aliasHost' =
        tag' ++ '=' :: (hash' ++ '=' :: (ts' ++ '=' :: (host' ++ '=' ::
          (localPart' ++ '@' :: aliasHost')))) := by
      unfold srs0Address
      simp only [List.append_assoc, List.cons_append]
    unfold isSrsAddress
    rw [happend, if_pos rfl, hfound]
    rfl
  have hcheckHash := recipient.srslibInstance.checkHash_eq_ok hlower hsecret hhash
    ((hts.append hhost').append hlocal') (srs0Address tag' hash' ts' host' localPart' aliasHost')
  have hget := get_recipient_eq (x := srs0Address tag' hash' ts' host' localPart' aliasHost') v
    (List.append_ne_nil_of_left_ne_nil hwhole.ne_nil _) (isSpace_getLast hspace halias₁ _) hemail hsrs
    (recipient.srslibInstance.reverse_srs0Address v.2 htag hhashField htsField (field_domain hhost₁)
      hlocal₁.ne_nil (notMem_newline hlocal₁.chars) (notMem_at hwhole.chars)
      (notMem_at (over_domain halias₁)) hcheckHash)
  -- what is left is the time stamp: it is valid for 21 days, a day more than the reply takes
  rw [hget] at hwithin
  rw [hget, recipient.srslibInstance.checkTs_eq_ok (late_srslibInstance hlate) hkept hts]
  · exact ⟨rfl, rfl⟩
  · intro n hle hlt
    have hdays : recipient.srslibInstance.validityDays = 21 := rfl
    obtain ⟨hafter, hbefore⟩ := hwithin n hle hlt
    refine ⟨hafter, ?_⟩
    rw [hdays]
    push_cast
    linarith only [hbefore]

include hspace hlower hsecret in
/-- An SRS1 address that comes back in any case of its letters. -/
theorem replies_srs1Address (hlocal : Over localChars localPart) (hseparated : Separated localPart)
    (hhost : Over localChars host) (hfield : Field host) (halias : AddressDomain aliasHost)
    (htag : SameLetters tag' "SRS1".toList)
    (hhash : SameLetters hash' (generateHash hmacSha1 (host ++ localPart) secret 4))
    (hhost' : SameLetters host' host) (hlocal' : SameLetters localPart' localPart)
    (halias' : SameLetters aliasHost' aliasHost) :
    Replies (recipient.get hmacSha1 .recipient v
      (srs1Address tag' hash' host' localPart' aliasHost'))
      ("SRS0".toList ++ localPart' ++ '@' :: host') := by
  obtain ⟨-, halphabet⟩ := generateHash_four hmacSha1 (host ++ localPart) secret
  have hchars : Over localChars ("RS1".toList ++ '=' ::
      (generateHash hmacSha1 (host ++ localPart) secret 4 ++ '=' :: (host ++ '=' :: localPart))) := by
    refine over_separated (by decide) (over_of_isAlphanum (by decide)) ?_
    refine over_separated (by decide) ((over_b64Alphabet halphabet).mono (by decide)) ?_
    exact over_separated (by decide) hhost hlocal
  have hwhole : LocalPart (tag' ++ '=' :: (hash' ++ '=' :: (host' ++ '=' :: localPart'))) :=
    (localPart_cons hchars).of_sameLetters (htag.append (.cons '=' (hhash.append
      (.cons '=' (hhost'.append (.cons '=' hlocal'))))))
  have halias₁ := halias.of_sameLetters halias'
  have hlocal₁ : Over localChars localPart' := hlocal.of_sameLetters (by decide) hlocal'
  have hseparated₁ := hseparated.of_sameLetters hlocal'
  have hfield₁ := hfield.of_sameLetters hhost'
  have hhashField := (field_generateHash hmacSha1 _ secret).of_sameLetters hhash
  have hemail : isEmail (srs1Address tag' hash' host' localPart' aliasHost') = true :=
    isEmail_of_parts hspace hwhole halias₁
  have hsrs : isSrsAddress (srs1Address tag' hash' host' localPart' aliasHost') true = true := by
    -- the local part keeps the separator of the SRS0 address of the first hop
    obtain ⟨c, text, rfl, hc, hne⟩ := hseparated₁
    have hseparated₂ : Separated (c :: text ++ '@' :: aliasHost') :=
      ⟨c, text ++ '@' :: aliasHost', rfl, hc, List.append_ne_nil_of_left_ne_nil hne _⟩
    have hline := newline_notMem_address hlocal₁ halias₁
    have hfound := srs1_eq htag hhashField hfield₁ hseparated₂ hline
    have happend : srs1Address tag' hash' host' (c :: text) aliasHost' =
        tag' ++ '=' :: (hash' ++ '=' :: (host' ++ '=' :: (c :: text ++ '@' :: aliasHost'))) := by
      unfold srs1Address
      simp only [List.append_assoc, List.cons_append]
    unfold isSrsAddress
    rw [happend, hfound]
    exact Bool.or_true _
  have hcheckHash := recipient.srslibInstance.checkHash_eq_ok hlower hsecret hhash
    (hhost'.append hlocal') (srs1Address tag' hash' host' localPart' aliasHost')
  have hget := get_recipient_eq (x := srs1Address tag' hash' host' localPart' aliasHost') v
    (List.append_ne_nil_of_left_ne_nil hwhole.ne_nil _) (isSpace_getLast hspace halias₁ _) hemail hsrs
    (recipient.srslibInstance.reverse_srs1Address v.2 htag hhashField hfield₁ hseparated₁
      (notMem_newline hlocal₁) (notMem_at hwhole.chars) (notMem_at (over_domain halias₁)) hcheckHash)
  rw [hget]
  exact ⟨rfl, rfl⟩

end Made

end Recipient

/-! ### The round trip -/

section RoundTrip

variable {hmacSha1 : Bytes → Bytes → Vector UInt8 20} {sender : SrsService ω}
  {recipient : SrsService ω'} {w : ω × State} {v : ω' × State} {localPart host r : Str}

/-- The rewritten address, by the first hop of the address. -/
theorem rewritten_eq (hlocal : '@' ∉ localPart) (hhost : '@' ∉ host)
    (hforward : (sender.srslibInstance.forward hmacSha1 sender.timeFn (localPart ++ '@' :: host)
      sender.settings.srsDomain w.2).1 = .ok r) :
    r = match firstHop localPart host with
      | some (first, rest) =>
        srs1Address "SRS1".toList (generateHash hmacSha1 (first ++ rest) sender.secret 4) first rest
          sender.settings.srsDomain
      | none =>
        srs0Address "SRS0".toList (generateHash hmacSha1
            (dayTs (dayOf (sender.timeFn w.2.readings)) ++ host ++ localPart) sender.secret 4)
          (dayTs (dayOf (sender.timeFn w.2.readings))) host localPart sender.settings.srsDomain := by
  rw [Srs.forward_eq hlocal hhost] at hforward
  exact (Except.ok.inj hforward).symm

omit [Unicode] in
theorem bounceAddress_eq (hlocal : '@' ∉ localPart) : bounceAddress (localPart ++ '@' :: host) =
    match firstHop localPart host with
    | some (first, rest) => "SRS0".toList ++ rest ++ '@' :: first
    | none => localPart ++ '@' :: host := by
  have hfirst : splitFirst "@".toList (localPart ++ '@' :: host) = localPart :=
    splitFirst_append hlocal host
  have hlast : splitLast "@".toList (localPart ++ '@' :: host) = host :=
    splitLast_append hlocal host
  unfold bounceAddress
  rw [hfirst, hlast]

/-- An address without white space before it comes back. -/
theorem answers_of_localPart (hspace : ∀ c, Unicode.isAlnum c = true → isSpace c = false)
    (hlower : ∀ s : Str, Unicode.lower (s.map Char.toLower) = Unicode.lower s)
    (hlate : ∀ n, 20 * 86400 < recipient.timeFn n)
    (hsecret : sender.secret ∈ recipient.secret :: recipient.prevSecrets)
    (hkept : recipient.srslibInstance.Kept v.2) (hdomain : AddressDomain sender.settings.srsDomain)
    (hlocal : LocalPart localPart) (hhost : AddressDomain host)
    (hforward : (sender.srslibInstance.forward hmacSha1 sender.timeFn (localPart ++ '@' :: host)
      sender.settings.srsDomain w.2).1 = .ok r) :
    Answers hmacSha1 recipient v (sender.timeFn w.2.readings) r
      (bounceAddress (localPart ++ '@' :: host)) := by
  have hat := notMem_at hlocal.chars
  have hr := rewritten_eq hat (notMem_at (over_domain hhost)) hforward
  rw [bounceAddress_eq hat]
  intro asked hsame hwithin
  cases hhop : firstHop localPart host with
  -- the first hop rewrites to an SRS0 address
  | none =>
    rw [hhop] at hr
    simp only at hr ⊢
    by_cases hasked : asked = r
    · subst hasked
      rw [hr] at hwithin ⊢
      exact ⟨_, replies_srs0Address hspace hlower hlate hsecret hkept hlocal hhost hdomain _ (.refl _)
        (.refl _) (.refl _) (.refl _) (.refl _) (.refl _) hwithin, .refl _, fun _ => rfl⟩
    · rw [hr] at hsame
      obtain ⟨tag', hash', ts', host', localPart', aliasHost', rfl, htag, hhash, hts, hhost', hlocal',
        halias⟩ := exists_of_sameLetters_srs0Address hsame
      exact ⟨_, replies_srs0Address hspace hlower hlate hsecret hkept hlocal hhost hdomain _ htag hhash
        hts hhost' hlocal' halias hwithin, hlocal'.append (.cons '@' hhost'),
        fun h => absurd h hasked⟩
  -- an SRS address of another host becomes an SRS1 address, which holds no time of its own
  | some hop =>
    obtain ⟨first, rest⟩ := hop
    rw [hhop] at hr
    simp only at hr ⊢
    obtain ⟨hfield, hseparated, hfirst, hrest⟩ :=
      exists_of_firstHop (notMem_newline hlocal.chars) (field_domain hhost) hhop
    have hfirstChars : Over localChars first := by
      rcases hfirst with rfl | hsub
      · exact over_domain hhost
      · exact fun c hc => hlocal.chars c (hsub hc)
    have hrestChars : Over localChars rest := fun c hc => hlocal.chars c (hrest hc)
    by_cases hasked : asked = r
    · subst hasked
      rw [hr]
      exact ⟨_, replies_srs1Address hspace hlower hsecret hrestChars hseparated hfirstChars hfield
        hdomain (.refl _) (.refl _) (.refl _) (.refl _) (.refl _), .refl _, fun _ => rfl⟩
    · rw [hr] at hsame
      obtain ⟨tag', hash', host', localPart', aliasHost', rfl, htag, hhash, hhost', hlocal', halias⟩ :=
        exists_of_sameLetters_srs1Address hsame
      exact ⟨_, replies_srs1Address hspace hlower hsecret hrestChars hseparated hfirstChars hfield
        hdomain htag hhash hhost' hlocal' halias,
        (SameLetters.refl _).append hlocal' |>.append (.cons '@' hhost'),
        fun h => absurd h hasked⟩

/-- An address with white space before it does not. -/
theorem not_answers_of_isSpace (hspace : ∀ c, Unicode.isAlnum c = true → isSpace c = false)
    {c : Char} {s : Str} {sentAt : ℚ} {addr : Str} (hc : isSpace c = true)
    (hdomain : AddressDomain sender.settings.srsDomain) (hhost : AddressDomain host) (hlocal : '@' ∉ c :: s)
    (hforward : (sender.srslibInstance.forward hmacSha1 sender.timeFn (c :: s ++ '@' :: host)
      sender.settings.srsDomain w.2).1 = .ok r) :
    ¬ Answers hmacSha1 recipient v sentAt r addr := by
  have hS : isS c = false := by
    have hnot : ∀ d : Char, isS d = true → isSpace d = false := by
      intro d hd
      unfold isS at hd
      rw [Bool.or_eq_true, Bool.or_eq_true, beq_iff_eq, beq_iff_eq, beq_iff_eq] at hd
      rcases hd with (rfl | rfl) | hd
      · rfl
      · rfl
      · unfold isSpace
        simp only [hd]
        rfl
    cases hd : isS c with
    | false => rfl
    | true =>
      rw [hnot c hd] at hc
      cases hc
  have hr := rewritten_eq hlocal (notMem_at (over_domain hhost)) hforward
  rw [firstHop_eq_none hS] at hr
  simp only at hr
  set hash := generateHash hmacSha1
    (dayTs (dayOf (sender.timeFn w.2.readings)) ++ host ++ c :: s) sender.secret 4
  set ts := dayTs (dayOf (sender.timeFn w.2.readings))
  have hhash : Over localChars hash :=
    (over_b64Alphabet (generateHash_four hmacSha1 _ _).2).mono (by decide)
  have hts : Over localChars ts :=
    (over_tsAlphabet fun c hc => mem_tsAlphabet_of_mem_dayTs hc).mono (by decide)
  have hemail : isEmail r = false := by
    rw [← Bool.not_eq_true]
    intro hemail
    obtain ⟨pre, localPart', domain, heq, hat, hpre, hlocal', -⟩ := exists_parts_of_isEmail hemail
    have hat' : '@' ∉ "SRS0".toList ++ '=' :: (hash ++ '=' :: (ts ++ '=' ::
        (host ++ '=' :: (c :: s)))) := by
      intro hmem
      simp only [List.mem_append, List.mem_cons] at hmem
      rcases hmem with hmem | hmem | hmem | hmem | hmem | hmem | hmem | hmem
      · exact absurd hmem (by decide)
      · exact absurd hmem (by decide)
      · exact notMem_at hhash hmem
      · exact absurd hmem (by decide)
      · exact notMem_at hts hmem
      · exact absurd hmem (by decide)
      · exact notMem_at (over_domain hhost) hmem
      · rcases hmem with hmem | hmem
        · exact absurd hmem (by decide)
        · exact hlocal (List.mem_cons.mpr hmem)
    rw [hr] at heq
    obtain ⟨hwhole, -⟩ := append_cons_inj hat' hat heq
    -- the tag is no white space, so the local part is all of it
    cases pre with
    | cons d pre =>
      have hd : d = 'S' := (List.cons.inj hwhole).1.symm
      exact absurd (hpre d List.mem_cons_self) (by rw [hd]; decide)
    | nil =>
      rw [List.nil_append] at hwhole
      have hnot := hlocal'.chars.isSpace_eq_false hspace (by decide) c (by rw [← hwhole]; simp)
      rw [hnot] at hc
      cases hc
  have hne : r ≠ [] := by
    rw [hr]
    exact List.cons_ne_nil _ _
  have hlast : isSpace (r.getLast hne) = false := by
    simp only [hr]
    exact isSpace_getLast hspace hdomain _
  have hget := get_eq_of_not_isEmail hmacSha1 recipient .recipient v hne hlast hemail
  intro hanswers
  obtain ⟨answer, ⟨hevents, -⟩, -⟩ := hanswers r (.refl r) fun n hle hlt => by
    rw [hget] at hlt
    exact absurd hlt (not_lt.mpr hle)
  rw [hget] at hevents
  exact absurd (congrArg (fun events => events.head?.bind List.head?) hevents)
    (by simp [TcpReplies.notExist])

end RoundTrip

/-- **An address makes the round trip exactly when it does not begin with white space.** -/
theorem answers_iff (hspace : ∀ c, Unicode.isAlnum c = true → isSpace c = false)
    (hlower : ∀ s : Str, Unicode.lower (s.map Char.toLower) = Unicode.lower s)
    (hmacSha1 : Bytes → Bytes → Vector UInt8 20) {sender : SrsService ω} {recipient : SrsService ω'}
    (hdomain : AddressDomain sender.settings.srsDomain)
    (hsecret : sender.secret ∈ recipient.secret :: recipient.prevSecrets)
    (hlate : ∀ n, 20 * 86400 < recipient.timeFn n) {a r : Str} (hemail : isEmail a = true)
    (hchars : Over ['-', '.'] (splitLast "@" a)) {w : ω × State}
    (hsent : Replies (sender.get hmacSha1 .sender w a) r) (w₀ : ω') (lines : List Bytes) :
    Answers hmacSha1 recipient
        (Outcome.run (recipient.handler hmacSha1 .recipient).onLine (w₀, {}) lines).state
        (sender.timeFn w.2.readings) r (bounceAddress a) ↔
      ∀ c ∈ a.head?, isSpace c = false := by
  obtain ⟨pre, localPart, host, rfl, hat, hpre, hlocal, hpattern⟩ := exists_parts_of_isEmail hemail
  have hlast : splitLast "@".toList (pre ++ localPart ++ '@' :: host) = host :=
    splitLast_append hat host
  rw [hlast] at hchars
  have hhost : AddressDomain host := ⟨hchars, hpattern⟩
  have hne : pre ++ localPart ++ '@' :: host ≠ [] :=
    List.append_ne_nil_of_right_ne_nil _ (List.cons_ne_nil _ _)
  have hforward := forward_of_replies hne (isSpace_getLast hspace hhost hne) hsent
  cases pre with
  | nil =>
    rw [List.nil_append] at hforward ⊢
    refine iff_of_true (answers_of_localPart hspace hlower hlate hsecret (kept_run hlate w₀ lines)
      hdomain hlocal hhost hforward) ?_
    have hnot := hlocal.chars.isSpace_eq_false hspace (by decide)
    obtain ⟨d, user, rfl, -⟩ := hlocal
    intro c hc
    obtain rfl := Option.some.inj hc
    exact hnot _ List.mem_cons_self
  | cons c pre =>
    have hc := hpre c List.mem_cons_self
    refine iff_of_false (not_answers_of_isSpace hspace hc hdomain hhost hat hforward) fun h => ?_
    rw [h c rfl] at hc
    cases hc

/-! ### Two questions -/

/-- A service whose clock stands still, with a secret that hashes everything to zeros. -/
def stillService (ω : Type*) : SrsService ω where
  settings := { srsDomain := "s.dd" }
  secret := []
  prevSecrets := []
  timeFn _ := 1700000000
  fqdn := "mx.s.dd"
  isLocalDomain _ w := (.ok false, w)
  excludeDomains _ w := (.ok false, w)

theorem addressDomain_sdd : AddressDomain "s.dd".toList :=
  ⟨over_of_isAlphanum (by decide), "s.dd".toList, List.prefix_refl _, 's', [], "dd".toList, rfl,
    over_of_isAlphanum (by decide), fun c hc => absurd hc List.not_mem_nil, by decide, by decide,
    by decide⟩

omit [Unicode] in
/-- ASCII letters and digits are not white space. -/
theorem isSpace_eq_false_of_isAlphanum (c : Char) (h : c.isAlphanum = true) : isSpace c = false := by
  have hrange : 48 ≤ c.toNat ∧ c.toNat ≤ 57 ∨ 65 ≤ c.toNat ∧ c.toNat ≤ 122 := by
    unfold Char.isAlphanum Char.isAlpha Char.isUpper Char.isLower Char.isDigit at h
    simp only [ge_iff_le, Bool.or_eq_true, Bool.and_eq_true, decide_eq_true_eq,
      UInt32.le_iff_toNat_le] at h
    change ((65 ≤ c.toNat ∧ c.toNat ≤ 90) ∨ 97 ≤ c.toNat ∧ c.toNat ≤ 122) ∨
      48 ≤ c.toNat ∧ c.toNat ≤ 57 at h
    omega
  unfold isSpace
  simp only [Bool.or_eq_false_iff, Bool.and_eq_false_iff, decide_eq_false_iff_not, beq_eq_false_iff_ne]
  omega

omit [Unicode] in
/-- A plain address, asked for again in lower case. -/
theorem answers_plain :
    letI := asciiUnicode
    Answers (fun _ _ => Vector.replicate 20 0) (stillService Unit) ((), {}) 1700000000
      "SRS0=AAAA=G3=y.zz=x@s.dd".toList "x@y.zz".toList := by
  let := asciiUnicode
  have hsent : Replies ((stillService Unit).get (fun _ _ => Vector.replicate 20 0) .sender ((), {})
      "x@y.zz".toList) "SRS0=AAAA=G3=y.zz=x@s.dd".toList := by
    unfold Replies SrsService.get SrsService.handler srsHandler
    simp only [decode_encode]
    decide +kernel
  have hlate : ∀ n, 20 * 86400 < (stillService Unit).timeFn n := fun _ => by
    unfold stillService
    norm_num
  have hchars : Over ['-', '.'] (splitLast "@" "x@y.zz".toList) := over_of_isAlphanum (by decide)
  exact (answers_iff isSpace_eq_false_of_isAlphanum (fun s => sameLetters_map_toLower s) _
    addressDomain_sdd List.mem_cons_self hlate (by decide) hchars hsent () []).mpr (by
      intro c hc
      obtain rfl := Option.some.inj hc
      rfl)

omit [Unicode] in
/-- An address with a space before it is rewritten, and what it becomes is no address. -/
theorem address_with_space_not_answered :
    letI := asciiUnicode
    isEmail " x@y.zz".toList = true ∧
      Replies ((stillService Unit).get (fun _ _ => Vector.replicate 20 0) .sender ((), {})
        " x@y.zz".toList) "SRS0=AAAA=G3=y.zz= x@s.dd".toList ∧
      ¬ Answers (fun _ _ => Vector.replicate 20 0) (stillService Unit) ((), {}) 1700000000
        "SRS0=AAAA=G3=y.zz= x@s.dd".toList (bounceAddress " x@y.zz".toList) := by
  let := asciiUnicode
  have hget : (stillService Unit).get (fun _ _ => Vector.replicate 20 0) .recipient ((), {})
      "SRS0=AAAA=G3=y.zz= x@s.dd".toList =
        ⟨((), {}), ["500 Not a valid email address, bypassed.\n".toList], false⟩ :=
    get_eq_of_not_isEmail _ _ _ _ (by decide) (by decide) (by decide)
  refine ⟨by decide, ?_, fun hanswers => ?_⟩
  · unfold Replies SrsService.get SrsService.handler srsHandler
    simp only [decode_encode]
    decide +kernel
  · obtain ⟨answer, ⟨hevents, -⟩, -⟩ := hanswers _ (.refl _) fun n hle hlt => by
      rw [hget] at hlt
      exact absurd hlt (not_lt.mpr hle)
    rw [hget] at hevents
    exact absurd (congrArg (fun events => events.head?.bind List.head?) hevents) (by simp)

end IRedAPD

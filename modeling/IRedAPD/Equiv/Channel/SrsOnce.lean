/-
  The replies of the sender channel of SRS that rewrite an address, whatever the
  backend.

  A host never rewrites an address again that it has rewritten
  (`not_rewritten_again`): the new address has its domain in it once, at the end.
-/
import IRedAPD.Equiv.Channel.SrsRoundTrip

namespace IRedAPD

open Py Srslib

variable {ω : Type*}

/-! ### A reply with an address -/

theorem notExist_append_ne (s r : Str) : TcpReplies.notExist ++ s ≠ TcpReplies.success ++ r := by
  intro h
  have hhead : '5' = '2' := (List.cons.inj h).1
  exact absurd hhead (by decide)

theorem notExist_ne (r : Str) : TcpReplies.notExist ≠ TcpReplies.success ++ r := by
  have hne := notExist_append_ne [] r
  rwa [List.append_nil] at hne

section Replies

variable [Unicode] {settings : Settings} {calls : SrsCalls ω}

/-- A line is answered with an address as `srs_forward` answers what follows its first `@`. -/
theorem srsReply_eq_success_iff {line r : Str} {w : ω} :
    (srsReply settings calls .sender line w).1 = TcpReplies.success ++ r ↔
      startsWith line "get " = true ∧ ∃ localPart domain,
        splitLast " " (strip line) = localPart ++ '@' :: domain ∧ '@' ∉ localPart ∧
          isEmail (localPart ++ '@' :: domain) = true ∧
          (srsForward settings calls (localPart ++ '@' :: domain) domain w).1 =
            TcpReplies.success ++ r := by
  unfold srsReply
  by_cases hget : startsWith line "get " = true
  · rw [if_pos hget]
    simp only [hget, true_and]
    constructor
    · intro h
      by_cases hemail : isEmail (splitLast " " (strip line)) = true
      · obtain ⟨localPart, domain, haddr, hat⟩ :=
          List.eq_append_cons_of_mem (at_mem_of_isEmail hemail)
        have hlast : splitLast "@" (localPart ++ '@' :: domain) = domain := splitLast_append hat _
        rw [if_pos hemail, haddr, hlast] at h
        exact ⟨localPart, domain, haddr, hat, haddr ▸ hemail, h⟩
      · rw [if_neg hemail] at h
        exact absurd h (notExist_append_ne _ _)
    · rintro ⟨localPart, domain, haddr, hat, hemail, h⟩
      have hlast : splitLast "@" (localPart ++ '@' :: domain) = domain := splitLast_append hat _
      rw [haddr, if_pos hemail, hlast]
      exact h
  · rw [if_neg hget]
    constructor
    · intro h
      rw [List.append_assoc] at h
      exact absurd h (notExist_append_ne _ _)
    · intro h
      exact absurd h.1 hget

omit [Unicode] in
/-- `srs_forward` leaves the addresses of its own domain, and asks `forward` about the others. -/
theorem of_srsForward_eq_success {addr domain r : Str} {w : ω}
    (h : (srsForward settings calls addr domain w).1 = TcpReplies.success ++ r) :
    domain ≠ settings.srsDomain ∧ ∃ w, (calls.forward addr settings.srsDomain w).1 = .ok r := by
  unfold srsForward at h
  split_ifs at h with hsrs hfqdn
  · exact absurd h (notExist_append_ne _ _)
  · exact absurd h (notExist_append_ne _ _)
  refine ⟨hsrs, ?_⟩
  rcases hlocal : calls.isLocalDomain domain w with ⟨isLocal, w₁⟩
  simp only [hlocal] at h
  split_ifs at h
  · exact absurd h (notExist_append_ne _ _)
  rcases hexcluded : calls.excludeDomains (possibleDomains domain) w₁ with ⟨_ | excluded, w₂⟩
  · simp only [hexcluded] at h
    exact absurd h (notExist_ne _)
  · simp only [hexcluded] at h
    cases excluded with
    | true => exact absurd h (notExist_append_ne _ _)
    | false =>
      rcases hanswer : calls.forward addr settings.srsDomain w₂ with ⟨_ | newAddr, w₃⟩
      · simp only [hanswer] at h
        exact absurd h (notExist_ne _)
      · simp only [hanswer] at h
        refine ⟨w₂, ?_⟩
        rw [hanswer, List.append_cancel_left h]

end Replies

/-! ### What `forward` makes of an address -/

/-- `_split_addr` takes one `@` only. -/
theorem exists_splitAddr_eq_error {localPart domain : Str} (hlocal : '@' ∉ localPart)
    (hdomain : '@' ∈ domain) : ∃ e, splitAddr (localPart ++ '@' :: domain) = .error e := by
  obtain ⟨u, v, rfl, hu⟩ := List.eq_append_cons_of_mem hdomain
  unfold splitAddr
  rw [List.splitOn_append_cons_self_of_not_mem hlocal, List.splitOn_append_cons_self_of_not_mem hu]
  cases hv : v.splitOn '@' with
  | nil => exact absurd hv (List.splitOn_ne_nil _ _)
  | cons part parts => exact ⟨_, rfl⟩

section Forward

variable [Unicode] {hmacSha1 : Bytes → Bytes → Vector UInt8 20} {srs : SrsService ω}

/-- What an address is rewritten to: an SRS1 address if it has been rewritten before. -/
def rewrittenAddress (hmacSha1 : Bytes → Bytes → Vector UInt8 20) (srs : SrsService ω) (st : State)
    (localPart domain : Str) : Str :=
  let hash (text : Str) := generateHash hmacSha1 text srs.secret srs.srslibInstance.hashLength
  match firstHop localPart domain with
  | some (first, rest) => srs1Address "SRS1" (hash (first ++ rest)) first rest srs.settings.srsDomain
  | none =>
    let ts := dayTs (dayOf (srs.timeFn st.readings))
    srs0Address "SRS0" (hash (ts ++ domain ++ localPart)) ts domain localPart srs.settings.srsDomain

/-- `forward` returns an address for each one with one `@`. -/
theorem forward_eq_ok_iff {localPart domain r : Str} (hlocal : '@' ∉ localPart) (st : State) :
    (srs.srslibInstance.forward hmacSha1 srs.timeFn (localPart ++ '@' :: domain)
      srs.settings.srsDomain st).1 = .ok r ↔
        '@' ∉ domain ∧ r = rewrittenAddress hmacSha1 srs st localPart domain := by
  by_cases hdomain : '@' ∈ domain
  · obtain ⟨e, he⟩ := exists_splitAddr_eq_error hlocal hdomain
    unfold Srs.forward
    simp [he, hdomain]
  · rw [Srs.forward_eq hlocal hdomain, Except.ok.injEq, eq_comm]
    simp only [hdomain, not_false_eq_true, true_and]
    rfl

end Forward

/-! ### The domain of a new address -/

theorem subset_of_tag {digit : Char} {s t : Str} (h : tag digit s = some t) : t ⊆ s := by
  unfold tag at h
  split at h
  · split_ifs at h
    obtain rfl := Option.some.inj h
    intro c hc
    simp only [List.mem_cons]
    exact .inr (.inr (.inr (.inr hc)))
  · cases h

theorem subset_of_separator {s t : Str} (h : separator s = some t) : t ⊆ s := by
  cases s with
  | nil => cases h
  | cons c s =>
    unfold separator at h
    dsimp only at h
    split_ifs at h
    obtain rfl := Option.some.inj h
    exact List.subset_cons_self c _

theorem subset_of_separatorAndText {s t : Str} (h : separatorAndText s = some t) : t ⊆ s := by
  cases s with
  | nil => cases h
  | cons c s =>
    unfold separatorAndText at h
    dsimp only at h
    split_ifs at h
    obtain ⟨text, htext, rfl⟩ := Option.map_eq_some_iff.mp h
    unfold someText at htext
    obtain ⟨htake, -⟩ := Option.filter_eq_some_iff.mp htext
    obtain rfl := Option.some.inj htake
    exact List.cons_subset_cons c (List.takeWhile_subset _)

/-- The parts of an address that has been rewritten before come from it. -/
theorem notMem_of_firstHop {c : Char} {localPart host first rest : Str} (hlocal : c ∉ localPart)
    (hhost : c ∉ host) (h : firstHop localPart host = some (first, rest)) : c ∉ first ∧ c ∉ rest := by
  unfold firstHop at h
  cases hsrs1 : srs1 localPart with
  | none =>
    rw [hsrs1] at h
    obtain ⟨text, hopaque, heq⟩ := Option.map_eq_some_iff.mp h
    obtain ⟨rfl, rfl⟩ := Prod.ext_iff.mp heq
    obtain ⟨s, htag, htext⟩ := Option.bind_eq_some_iff.mp hopaque
    exact ⟨hhost, fun hc => hlocal (subset_of_tag htag (subset_of_separatorAndText htext hc))⟩
  | some parts =>
    rw [hsrs1] at h
    obtain ⟨hash, host₁, text⟩ := parts
    obtain ⟨rfl, rfl⟩ := Prod.ext_iff.mp (Option.some.inj h)
    unfold srs1 at hsrs1
    obtain ⟨s, htag, hsrs1⟩ := Option.bind_eq_some_iff.mp hsrs1
    obtain ⟨s₁, hseparator, hsrs1⟩ := Option.bind_eq_some_iff.mp hsrs1
    obtain ⟨⟨hash₂, s₂⟩, hfield₂, hsrs1⟩ := Option.bind_eq_some_iff.mp hsrs1
    obtain ⟨⟨host₃, s₃⟩, hfield₃, hsrs1⟩ := Option.bind_eq_some_iff.mp hsrs1
    obtain ⟨text₃, htext, hparts⟩ := Option.bind_eq_some_iff.mp hsrs1
    obtain ⟨-, hparts⟩ := Prod.ext_iff.mp (Option.some.inj hparts)
    obtain ⟨rfl, rfl⟩ := Prod.ext_iff.mp hparts
    have hs : c ∉ s₁ := fun hc => hlocal (subset_of_tag htag (subset_of_separator hseparator hc))
    obtain ⟨rfl, -⟩ := of_field hfield₂
    obtain ⟨rfl, -⟩ := of_field hfield₃
    simp only [List.mem_append, List.mem_cons, not_or] at hs
    exact ⟨hs.2.2.1, fun hc => hs.2.2.2.2 (subset_of_separatorAndText htext hc)⟩

section Once

variable [Unicode] {hmacSha1 : Bytes → Bytes → Vector UInt8 20} {srs : SrsService ω}

/-- The domain of a new address follows its first `@`. -/
theorem exists_rewrittenAddress_eq {localPart domain : Str} (hlocal : '@' ∉ localPart)
    (hdomain : '@' ∉ domain) (st : State) : ∃ text, '@' ∉ text ∧
      rewrittenAddress hmacSha1 srs st localPart domain = text ++ '@' :: srs.settings.srsDomain := by
  have hhash : ∀ text, '@' ∉ generateHash hmacSha1 text srs.secret srs.srslibInstance.hashLength :=
    fun text hc => absurd ((generateHash_four hmacSha1 text srs.secret).2 hc) (by decide)
  have hts : ∀ d, '@' ∉ dayTs d := fun d hc => absurd (mem_tsAlphabet_of_mem_dayTs hc) (by decide)
  unfold rewrittenAddress
  cases hfirst : firstHop localPart domain with
  | none =>
    refine ⟨_, ?_, rfl⟩
    simp only [List.mem_append, List.mem_cons, not_or]
    exact ⟨by decide, by decide, hhash _, by decide, hts _, by decide, hdomain, by decide, hlocal⟩
  | some parts =>
    obtain ⟨first, rest⟩ := parts
    obtain ⟨hfirst, hrest⟩ := notMem_of_firstHop hlocal hdomain hfirst
    refine ⟨_, ?_, rfl⟩
    simp only [List.mem_append, List.mem_cons, not_or]
    exact ⟨by decide, by decide, hhash _, by decide, hfirst, by decide, hrest⟩

/-- An address the sender channel answers with, and the domain it has left alone. -/
theorem of_sender_reply {w : ω × State} {line r : Str}
    (h : (srsReply srs.settings (srs.calls hmacSha1) .sender line w).1 = TcpReplies.success ++ r) :
    (∃ text, '@' ∉ text ∧ r = text ++ '@' :: srs.settings.srsDomain) ∧
      ∃ localPart domain, splitLast " " (strip line) = localPart ++ '@' :: domain ∧
        '@' ∉ localPart ∧ domain ≠ srs.settings.srsDomain := by
  obtain ⟨-, localPart, domain, haddr, hat, -, hreply⟩ := srsReply_eq_success_iff.mp h
  obtain ⟨hdomain, w', hforward⟩ := of_srsForward_eq_success hreply
  have hok : (srs.srslibInstance.forward hmacSha1 srs.timeFn (localPart ++ '@' :: domain)
      srs.settings.srsDomain w'.2).1 = .ok r := by
    have hmap : (srs.srslibInstance.forward hmacSha1 srs.timeFn (localPart ++ '@' :: domain)
        srs.settings.srsDomain w'.2).1.mapError (fun _ => Exn.valueError) = .ok r := hforward
    cases hanswer : (srs.srslibInstance.forward hmacSha1 srs.timeFn (localPart ++ '@' :: domain)
        srs.settings.srsDomain w'.2).1 with
    | error e =>
      rw [hanswer] at hmap
      cases hmap
    | ok newAddr =>
      rw [hanswer] at hmap
      rw [Except.ok.inj hmap]
  obtain ⟨hone, rfl⟩ := (forward_eq_ok_iff hat w'.2).mp hok
  exact ⟨exists_rewrittenAddress_eq hat hone w'.2, localPart, domain, haddr, hat, hdomain⟩

/-- **No address is rewritten twice** by one host: whatever has happened to the databases, the clock and
the cache in between, the sender channel leaves an address alone that it has answered with. -/
theorem not_rewritten_again {w : ω × State} {line r : Str}
    (h : (srsReply srs.settings (srs.calls hmacSha1) .sender line w).1 = TcpReplies.success ++ r)
    (w' : ω × State) {line' : Str} (hline' : splitLast " " (strip line') = r) (r' : Str) :
    (srsReply srs.settings (srs.calls hmacSha1) .sender line' w').1 ≠ TcpReplies.success ++ r' := by
  intro h'
  obtain ⟨⟨text, htext, hr⟩, -⟩ := of_sender_reply h
  obtain ⟨-, localPart, domain, haddr, hat, hdomain⟩ := of_sender_reply h'
  have hone : splitOnce "@" (text ++ '@' :: srs.settings.srsDomain) =
      some (text, srs.settings.srsDomain) := splitOnce_append htext _
  have htwo : splitOnce "@" (localPart ++ '@' :: domain) = some (localPart, domain) :=
    splitOnce_append hat _
  rw [← hr, ← hline', haddr, htwo] at hone
  exact hdomain (Prod.ext_iff.mp (Option.some.inj hone)).2

end Once

/-- A mail that comes back to the host. -/
theorem not_rewritten_again_plain :
    letI := asciiUnicode
    let hmacSha1 : Bytes → Bytes → Vector UInt8 20 := fun _ _ => Vector.replicate 20 0
    (srsReply (stillService Unit).settings ((stillService Unit).calls hmacSha1) .sender
      "get SRS0=AAAA=G3=y.zz=x@s.dd" ((), {})).1 ≠ TcpReplies.success ++ "x@y.zz".toList := by
  let := asciiUnicode
  intro hmacSha1
  have hsent : (srsReply (stillService Unit).settings ((stillService Unit).calls hmacSha1) .sender
      "get x@y.zz" ((), {})).1 = TcpReplies.success ++ "SRS0=AAAA=G3=y.zz=x@s.dd".toList := by
    decide +kernel
  exact not_rewritten_again hsent ((), {}) (by decide) "x@y.zz".toList

end IRedAPD

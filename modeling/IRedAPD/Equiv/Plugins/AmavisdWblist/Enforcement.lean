/-
  Which requests an accepted blacklist entry rejects.

  `add_wblist` stores the account as it is given and the sender in lower case;
  the plugin looks for the policy addresses of the recipient, and for texts made
  from the sender without extension and from the client address.  A request is
  rejected exactly when it looks for both (`enforced_iff`), whatever it is that
  the two cover.
-/
import IRedAPD.Equiv.Libs.Wblist
import IRedAPD.Equiv.Plugins.AmavisdWblist.Precedence
import IRedAPD.Equiv.PolicyAddresses

namespace IRedAPD.AmavisdWblist

open Py LibWblist

/-! ### What an entry covers -/

section Covers

/-- `*` stands for any field. -/
def WildcardCovers (x clientAddress : Str) : Prop :=
  isIpv4 clientAddress = true ∧
    List.Forall₂ (fun field clientField => field = "*".toList ∨ field = clientField)
      (x.splitOn '.') (clientAddress.splitOn '.')

/-- An address, a network or a pattern with wildcards covers a client. -/
def CoversClient (x clientAddress : Str) : Prop :=
  ∃ ip, ipAddress clientAddress = some ip ∧
    (ipAddress x = some ip ∨ (∃ net, ipNetwork x = some net ∧ net.contains ip = true) ∨
      WildcardCovers x clientAddress)

/-- `@.` covers every address, `@domain` those of the domain, `@.domain` those of its sub-domains,
too, and an address itself. -/
def CoversMail (x mail : Str) : Prop :=
  x = "@.".toList ∨ x = mail ∨ ∃ user domain, mail = user ++ '@' :: domain ∧ '@' ∉ domain ∧
    (x = '@' :: domain ∨ ∃ d, x = "@.".toList ++ d ∧ (domain = d ∨ ∃ sub, domain = sub ++ '.' :: d))

variable [Unicode]

/-- The account covers the recipient, and the sender the sender address or the client. -/
def Covers (account sender : Str) (kwargs : PluginKwargs) : Prop :=
  CoversMail (Unicode.lower account) kwargs.recipient ∧
    ((CoversMail (Unicode.lower sender) kwargs.sender ∧ kwargs.sender ≠ kwargs.recipient) ∨
      CoversClient sender kwargs.clientAddress)

end Covers

/-! ### What a request looks for -/

section LooksFor

variable [Unicode]

/-- The sender `user@*`. -/
def anyDomain (mail : Str) : Str := splitFirst "+" (splitFirst "@" mail) ++ "@*".toList

/-- An IPv4 address with one run of fields replaced by `*`. -/
def WildcardOf (clientAddress x : Str) : Prop :=
  isIpv4 clientAddress = true ∧
    ∃ i j, i + j < 4 ∧ x = starFields (clientAddress.splitOn '.') i (i + j)

/-- An IPv4 network of the client that starts with the same field. -/
def NetworkOf (clientAddress x : Str) : Prop :=
  ∃ ip net, ipAddress clientAddress = some ⟨.v4, ip⟩ ∧ ipNetwork x = some net ∧
    net.contains ⟨.v4, ip⟩ = true ∧ (clientAddress.splitOn '.').headD [] ++ ['.'] <+: x

/-- A text the request finds in `mailaddr`. -/
def LooksForSender (kwargs : PluginKwargs) (senderTarget : Option Str) (x : Str) : Prop :=
  x ∈ getPolicyAddressesFromEmail kwargs.senderWithoutExt ∨ x = anyDomain kwargs.senderWithoutExt ∨
    x = kwargs.clientAddress ∨ WildcardOf kwargs.clientAddress x ∨
    x ∈ aliasAddresses senderTarget kwargs.senderWithoutExt ∨ NetworkOf kwargs.clientAddress x

/-- A text the request finds in `users`. -/
def LooksForRecipient (kwargs : PluginKwargs) (rcptTarget : Option Str) (x : Str) : Prop :=
  x ∈ getPolicyAddressesFromEmail kwargs.recipientWithoutExt ∨
    x ∈ aliasAddresses rcptTarget kwargs.recipientWithoutExt

omit [Unicode] in
theorem mem_wildcardIpv4_iff {settings : Settings} (hwildcard : settings.enableAllWildcardIp = true)
    {clientAddress x : Str} : x ∈ wildcardIpv4 settings clientAddress ↔ WildcardOf clientAddress x := by
  unfold WildcardOf
  by_cases hip : isIpv4 clientAddress = true
  · rw [mem_wildcardIpv4_all hwildcard hip, and_iff_right hip]
  · rw [wildcardIpv4, if_neg hip]
    exact iff_of_false (List.not_mem_nil) fun h => hip h.1

/-- The texts of an unauthenticated request. -/
theorem looksForSender_iff {settings : Settings} (hwildcard : settings.enableAllWildcardIp = true)
    {kwargs : PluginKwargs} (hauth : kwargs.saslUsername = []) {senderTarget : Option Str} {x : Str} :
    LooksForSender kwargs senderTarget x ↔
      x ∈ validSenders settings kwargs senderTarget ∨ NetworkOf kwargs.clientAddress x := by
  have hsenderOf : senderOf kwargs = (kwargs.senderWithoutExt, kwargs.senderDomain) :=
    if_neg (by simp [hauth])
  have hwildcardSender : (if kwargs.saslUsername ≠ [] then []
      else if '+' ∈ splitFirst "@" kwargs.senderWithoutExt then
        [splitFirst "+" (splitFirst "@" kwargs.senderWithoutExt) ++ "@*".toList]
      else [splitFirst "@" kwargs.senderWithoutExt ++ "@*".toList]) =
      [anyDomain kwargs.senderWithoutExt] := by
    rw [if_neg (by simp [hauth])]
    unfold anyDomain
    split_ifs with hplus
    · rfl
    · rw [show "+".toList = ['+'] from rfl, splitFirst_of_notMem hplus]
  unfold LooksForSender validSenders
  simp only [hsenderOf]
  rw [hwildcardSender]
  simp only [List.mem_append, List.mem_singleton, mem_wildcardIpv4_iff hwildcard, or_assoc]

end LooksFor

/-! ### What a request that is rejected has looked for -/

section Reject

variable {ω : Type*} {settings : Settings} {calls : Calls ω} {users mailaddr : List AmavisdAddress}
  {wblist outbound : List Wblist} {w : ω}

theorem rejectAction_ne_defaultAction : rejectAction settings ≠ SmtpActions.defaultAction := by
  unfold rejectAction
  split_ifs <;> decide

/-- Nothing is rejected without a recipient and a sender that are found. -/
theorem found_of_checkInbound {senders recipients : List Str} {clientAddress : Str}
    (h : checkInbound settings calls (conn users mailaddr wblist outbound) clientAddress senders
      recipients w = .ok (rejectAction settings)) :
    (∃ u ∈ users, u.email ∈ recipients) ∧
      ∃ m ∈ mailaddr, m.email ∈ senders ∨ ContainsClient clientAddress m := by
  by_contra hno
  have hdefault : checkInbound settings calls (conn users mailaddr wblist outbound) clientAddress
      senders recipients w = .ok SmtpActions.defaultAction := by
    rw [checkInbound_eq]
    refine applyInboundWblist_default fun row _ hsid hrid => absurd ?_ hno
    obtain ⟨u, hu, hemail, -⟩ := mem_idsOf.mp hrid
    obtain ⟨m, hm, hfound, -⟩ := mem_senderIds.mp hsid
    exact ⟨⟨u, hu, hemail⟩, m, hm, hfound⟩
  rw [hdefault] at h
  exact rejectAction_ne_defaultAction (Except.ok.inj h).symm

/-- A blacklisted pair alone is rejected when both are found. -/
theorem checkInbound_blacklist {u m : AmavisdAddress} {senders recipients : List Str}
    {clientAddress : Str} (hrcpt : u.email ∈ recipients)
    (hsender : m.email ∈ senders ∨ ContainsClient clientAddress m) :
    checkInbound settings calls (conn [u] [m] [⟨u.id, m.id, "B"⟩] outbound) clientAddress senders
      recipients w = .ok (rejectAction settings) := by
  have hrid : u.id ∈ idsOf [u] recipients := mem_idsOf.mpr ⟨u, List.mem_singleton_self u, hrcpt, rfl⟩
  have hsid : m.id ∈ senderIds calls [m] clientAddress senders w :=
    mem_senderIds.mpr ⟨m, List.mem_singleton_self m, hsender, rfl⟩
  obtain ⟨first, hfirst, -, -, -, haction, -⟩ :=
    exists_first (List.mem_singleton_self ⟨u.id, m.id, "B"⟩) (.inr rfl) hrid hsid
  rw [List.mem_singleton.mp hfirst] at haction
  rw [checkInbound_eq, haction]
  rfl

variable [Unicode]

/-- A request that is rejected has passed all other branches. -/
theorem checkInbound_of_restriction {kwargs : PluginKwargs} (hauth : kwargs.saslUsername = [])
    (hconn : calls.engineAmavisd = some (conn users mailaddr wblist outbound))
    (h : restriction settings calls kwargs w = .ok (rejectAction settings)) :
    kwargs.senderWithoutExt ≠ [] ∧ kwargs.senderWithoutExt ≠ kwargs.recipientWithoutExt ∧
      ∃ senderTarget rcptTarget,
        calls.getAliasTargetDomain kwargs.senderDomain w = .ok senderTarget ∧
        calls.getAliasTargetDomain kwargs.recipientDomain w = .ok rcptTarget ∧
        checkInbound settings calls (conn users mailaddr wblist outbound) kwargs.clientAddress
          (validSenders settings kwargs senderTarget) (validRecipients kwargs rcptTarget) w =
            .ok (rejectAction settings) := by
  have hsenderOf : senderOf kwargs = (kwargs.senderWithoutExt, kwargs.senderDomain) :=
    if_neg (by simp [hauth])
  have hdefault : (Except.ok SmtpActions.defaultAction : Except Exn Str) ≠
      .ok (rejectAction settings) :=
    fun heq => rejectAction_ne_defaultAction (Except.ok.inj heq).symm
  have hrestriction := h
  unfold restriction at h
  simp only [hconn, hsenderOf] at h
  by_cases hsender : kwargs.senderWithoutExt = []
  · rw [if_pos hsender] at h
    exact absurd h hdefault
  by_cases hself : kwargs.senderWithoutExt = kwargs.recipientWithoutExt
  · rw [if_neg hsender, if_pos hself] at h
    exact absurd h hdefault
  rw [if_neg hsender, if_neg hself] at h
  rcases hsenderTarget : calls.getAliasTargetDomain kwargs.senderDomain w with e | senderTarget
  · rw [hsenderTarget] at h
    cases h
  rcases hrcptTarget : calls.getAliasTargetDomain kwargs.recipientDomain w with e | rcptTarget
  · rw [hsenderTarget, hrcptTarget] at h
    cases h
  rw [restriction_eq hauth hsender hself hsenderTarget hrcptTarget hconn] at hrestriction
  exact ⟨hsender, hself, senderTarget, rcptTarget, rfl, rfl, hrestriction⟩

end Reject

/-! ### When an entry is enforced -/

section Enforced

variable [Unicode] {ω : Type*}

/-- The connection to the tables. -/
def connOf (t : Tables) : AmavisdConn ω :=
  conn (t.users.rows.map toAddress) (t.mailaddr.rows.map toAddress) (t.wblist.rows.map Prod.snd)
    (t.outboundWblist.rows.map Prod.snd)

/-- A request that the entry covers is rejected after `add_wblist` has stored it in tables without
rows, on every database that does what the statements say. -/
def Enforced (settings : Settings) (calls : Calls ω) (account sender : Str) (kwargs : PluginKwargs)
    (w : ω) : Prop :=
  Covers account sender kwargs → ∀ execute, Faithful execute → ∀ (sets : SetOrder Str) (t t' : Tables),
    t.users.rows = [] → t.mailaddr.rows = [] → t.wblist.rows = [] →
    addWblist execute sets account { blSenders := [sender] } t = (.ok (.ok ()), t') →
    ∀ order, restriction settings { calls with engineAmavisd := some (connOf t'), ipNetworks := order }
      kwargs w = .ok (rejectAction settings)

/-- The entry is stored, and the request looks for the texts that are stored. -/
structure Reached (calls : Calls ω) (account sender : Str) (kwargs : PluginKwargs) (w : ω) : Prop where
  account_plain : Sql.isPlain account = true
  sender_valid : (isValidAmavisdAddress sender).isSome
  lower_valid : (isValidAmavisdAddress (Unicode.lower sender)).isSome
  lower_quotable : isQuotable (Unicode.lower sender) = true
  sender_ne_nil : kwargs.senderWithoutExt ≠ []
  sender_ne_recipient : kwargs.senderWithoutExt ≠ kwargs.recipientWithoutExt
  looks : ∃ senderTarget rcptTarget,
    calls.getAliasTargetDomain kwargs.senderDomain w = .ok senderTarget ∧
    calls.getAliasTargetDomain kwargs.recipientDomain w = .ok rcptTarget ∧
    LooksForRecipient kwargs rcptTarget account ∧
    LooksForSender kwargs senderTarget (Unicode.lower sender)

variable {settings : Settings} {calls : Calls ω} {account sender : Str} {kwargs : PluginKwargs} {w : ω}

/-- The entry of a request that is covered and rejected has been stored and found. -/
theorem reached_of_enforced (hwildcard : settings.enableAllWildcardIp = true)
    (haccount : (isValidAmavisdAddress account).isSome) (hauth : kwargs.saslUsername = [])
    (h : Enforced settings calls account sender kwargs w) (hcovers : Covers account sender kwargs) :
    Reached calls account sender kwargs w := by
  obtain ⟨t', hadd, husers, hmailaddr⟩ :=
    addWblist_lenient SetOrder.ofDedup haccount sender (t := {}) rfl
  have hreject := h hcovers lenient faithful_lenient _ {} t' rfl rfl rfl hadd calls.ipNetworks
  obtain ⟨hsender, hself, senderTarget, rcptTarget, hsenderTarget, hrcptTarget, hcheck⟩ :=
    checkInbound_of_restriction hauth rfl hreject
  obtain ⟨⟨u, hu, hrecipients⟩, m, hm, hsenders⟩ := found_of_checkInbound hcheck
  -- what is found has been stored
  have hplain : Sql.isPlain account = true := by
    by_contra hno
    rw [husers (Bool.eq_false_iff.mpr hno)] at hu
    cases hu
  obtain ⟨hvalid, hlower, hquotable⟩ : (isValidAmavisdAddress sender).isSome ∧
      (isValidAmavisdAddress (Unicode.lower sender)).isSome ∧
      isQuotable (Unicode.lower sender) = true := by
    by_contra hno
    rw [hmailaddr hno] at hm
    cases hm
  obtain ⟨t'', priority, priority', hadd', husersRows, hmailaddrRows, -⟩ :=
    addWblist_blacklist faithful_lenient SetOrder.ofDedup haccount hplain hvalid hlower hquotable
      (t := {}) rfl rfl rfl
  obtain rfl : t' = t'' := (Prod.mk.inj (hadd.symm.trans hadd')).2
  rw [husersRows, List.map_singleton, List.mem_singleton] at hu
  rw [hmailaddrRows, List.map_singleton, List.mem_singleton] at hm
  subst hu hm
  exact ⟨hplain, hvalid, hlower, hquotable, hsender, hself, senderTarget, rcptTarget, hsenderTarget,
    hrcptTarget, List.mem_append.mp hrecipients, (looksForSender_iff hwildcard hauth).mpr hsenders⟩

/-- **An accepted blacklist entry is enforced exactly when** it is stored, and the requests it covers
look for its texts. -/
theorem enforced_iff (calls : Calls ω) (sender : Str) (w : ω)
    (hwildcard : settings.enableAllWildcardIp = true)
    (haccount : (isValidAmavisdAddress account).isSome) (hauth : kwargs.saslUsername = []) :
    Enforced settings calls account sender kwargs w ↔
      (Covers account sender kwargs → Reached calls account sender kwargs w) := by
  constructor
  · exact reached_of_enforced hwildcard haccount hauth
  · intro h hcovers execute hexec sets t t' husers hmailaddr hwblist hadd order
    obtain ⟨hplain, hvalid, hlower, hquotable, hsender, hself, senderTarget, rcptTarget, hsenderTarget,
      hrcptTarget, hrecipients, hsenders⟩ := h hcovers
    obtain ⟨t'', priority, priority', hadd', husersRows, hmailaddrRows, hwblistRows⟩ :=
      addWblist_blacklist hexec sets haccount hplain hvalid hlower hquotable husers hmailaddr hwblist
    obtain rfl : t' = t'' := (Prod.mk.inj (hadd.symm.trans hadd')).2
    -- the tables hold the entry and nothing else
    have hconn : (connOf t' : AmavisdConn ω) = conn [⟨t.users.nextId, priority, account⟩]
        [⟨t.mailaddr.nextId, priority', Unicode.lower sender⟩]
        [⟨t.users.nextId, t.mailaddr.nextId, "B"⟩] (t'.outboundWblist.rows.map Prod.snd) := by
      unfold connOf
      rw [husersRows, hmailaddrRows, hwblistRows]
      rfl
    rw [hconn]
    refine Eq.trans (restriction_eq hauth hsender hself hsenderTarget hrcptTarget rfl) ?_
    exact checkInbound_blacklist (List.mem_append.mpr hrecipients)
      ((looksForSender_iff hwildcard hauth).mp hsenders)

end Enforced

/-- A domain blacklists another one. -/
theorem enforced_domain :
    letI := asciiUnicode
    Enforced { enableAllWildcardIp := true } plainCalls "@b.com" "@a.com" inboundKwargs () ↔
      (Covers "@b.com" "@a.com" inboundKwargs →
        Reached plainCalls "@b.com" "@a.com" inboundKwargs ()) := by
  let := asciiUnicode
  exact enforced_iff plainCalls "@a.com" () rfl (by decide) rfl

/-- An IPv6 network is accepted, and nobody looks for it. -/
theorem ipv6Network_not_enforced :
    letI := asciiUnicode
    ¬Enforced { enableAllWildcardIp := true } plainCalls "@." "2001:db8::/32"
      { inboundKwargs with clientAddress := "2001:db8::1" } () := by
  let := asciiUnicode
  intro h
  have hclient : ipAddress "2001:db8::1".toList =
      some ⟨.v6, 0x20010db8000000000000000000000001⟩ := by decide
  have hnet : ipNetwork "2001:db8::/32".toList = some ⟨.v6, 0x20010db8000000000000000000000000, 32⟩ := by
    decide
  have hcovers : Covers "@." "2001:db8::/32" { inboundKwargs with clientAddress := "2001:db8::1" } :=
    ⟨.inl (by decide), .inr ⟨_, hclient, .inr (.inl ⟨_, hnet, by decide⟩)⟩⟩
  obtain ⟨senderTarget, rcptTarget, hsenderTarget, -, -, hsender⟩ :=
    (reached_of_enforced rfl (by decide) rfl h hcovers).looks
  obtain rfl : none = senderTarget := Except.ok.inj hsenderTarget
  have hwildcard : ({ enableAllWildcardIp := true } : Settings).enableAllWildcardIp = true := rfl
  rcases (looksForSender_iff hwildcard rfl).mp hsender with htext | ⟨ip, net, hip, -⟩
  · exact absurd htext (by decide)
  · rw [hclient] at hip
    cases hip

end IRedAPD.AmavisdWblist

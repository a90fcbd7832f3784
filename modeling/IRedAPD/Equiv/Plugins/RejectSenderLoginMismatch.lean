/-
  Fail-closed sender checks for authenticated senders.

  Once it runs on a sender with an `@` in it, the plugin rejects every sender
  that is not the user's own (`restriction_rejects`), and the modeler passes
  the rejection on.  What is accepted in spite of a mismatch is accepted by
  design before the plugin runs or beside it: an address that is refused is
  answered with `DUNNO` at once, the sender is compared without its extension,
  and a plugin that raises leaves the default action.  Where none of these
  applies, and `LIKE` takes the user name for itself, no reply is `DUNNO`
  (`login_mismatch_rejected`).
-/
import IRedAPD.Equiv.Addresses
import IRedAPD.Equiv.Channel.Replies
import IRedAPD.Equiv.Modeler
import IRedAPD.Equiv.Plugins.RejectSenderLoginMismatch.AliasSenders

namespace IRedAPD

open Py

variable [Unicode] {ω : Type*}

namespace RejectSenderLoginMismatch

/-- The sender is one of the user's alias addresses, or the same user under an alias domain.  A row
may also name a user without a domain. -/
def OwnAddress (conn : VmailConn ω) (sender saslUsername : Str) (w : ω) : Prop :=
  match conn with
  | .sql tables => ∃ db, tables w = .ok db ∧
      (IsAliasSender db sender (splitFirst "@" saslUsername) (splitLast "@" saslUsername) ∨
        ∃ r ∈ db.forwardings, r.address = sender ∧ r.isAlias = true ∧ r.forwarding = saslUsername)
  | .ldap search => (getAccountLdif search (filterUserAlias saslUsername sender) w).1.isSome

/-- The pattern of the strict check on the SQL backends takes the user name for itself. -/
def PlainUser (settings : Settings) (conn : VmailConn ω) (saslUsername : Str) : Prop :=
  match conn with
  | .sql _ => settings.allowedLoginMismatchStrictly = true →
      PlainPattern (splitFirst "@" saslUsername) (splitLast "@" saslUsername)
  | .ldap _ => True

/-- The SQL statements succeed.  `get_account_ldif` handles the failure of an LDAP search itself. -/
def QueriesSucceed (conn : VmailConn ω) (w : ω) : Prop :=
  match conn with
  | .sql tables => ∃ db, tables w = .ok db
  | .ldap _ => True

/-- The mlmmjadmin API does not know the user as a subscriber of the sender.  It is asked on the LDAP
backend, whose mlmmj check is not tied to `ALLOWED_LOGIN_MISMATCH_LIST_MEMBER`. -/
def NotSubscriber (settings : Settings) (calls : Calls ω) (sender saslUsername : Str) (w : ω) :
    Prop :=
  match calls.connVmail with
  | .sql _ => True
  | .ldap _ => calls.apiSuccess (apiEndpoint settings sender saslUsername) w ≠ .ok true

omit [Unicode] in
/-- What the strict check would let pass is the user's own. -/
theorem ownAddress_of_strict {tables : ω → Except Exn VmailTables} {db : VmailTables}
    {sender saslUsername : Str} {w : ω} (hdb : tables w = .ok db) (hat : '@' ∈ sender)
    (hplain : PlainPattern (splitFirst "@" saslUsername) (splitLast "@" saslUsername))
    (h : hasUserAlias db sender saslUsername (splitFirst "@" saslUsername)
        (splitLast "@" saslUsername) = true ∨
      hasAliasDomain db (splitLast "@" sender) (splitLast "@" saslUsername) = true ∧
        splitFirst "@" sender = splitFirst "@" saslUsername) :
    OwnAddress (.sql tables) sender saslUsername w := by
  refine ⟨db, hdb, ?_⟩
  rcases h with halias | ⟨hdomain, hname⟩
  · obtain ⟨r, hr, haddress, halias, heq | hlike⟩ := (hasUserAlias_iff db _ _ _ _).mp halias
    · exact .inr ⟨r, hr, haddress, halias, heq⟩
    · have hmailbox := (like_iff_of_plain hplain r.forwarding).mp hlike
      exact .inl (.inl ⟨r, hr, haddress, halias, .inr hmailbox⟩)
  · obtain ⟨name, domain, rfl, hnot⟩ := List.eq_append_cons_of_mem hat
    have hfirst : splitFirst "@".toList (name ++ '@' :: domain) = name := splitFirst_append hnot _
    have hlast : splitLast "@".toList (name ++ '@' :: domain) = domain := splitLast_append hnot _
    rw [hlast, hasAliasDomain_iff] at hdomain
    rw [hfirst] at hname
    exact .inl (.inr ⟨domain, hdomain, by rw [hname]⟩)

omit [Unicode] in
/-- The strict check does not let such a sender pass. -/
theorem checkStrict_ne_none {tables : ω → Except Exn VmailTables} {db : VmailTables}
    {sender saslUsername : Str} {w : ω} (hdb : tables w = .ok db) (hat : '@' ∈ sender)
    (hplain : PlainPattern (splitFirst "@" saslUsername) (splitLast "@" saslUsername))
    (hown : ¬ OwnAddress (.sql tables) sender saslUsername w) :
    ∃ real, checkStrict tables sender (splitFirst "@" sender) (splitLast "@" sender) saslUsername
      (splitFirst "@" saslUsername) (splitLast "@" saslUsername) w = .ok (some real) := by
  obtain ⟨halias, hdomain⟩ := not_or.mp fun h => hown (ownAddress_of_strict hdb hat hplain h)
  simp only [checkStrict, hdb, bind, Except.bind, pure, Except.pure]
  rw [if_neg halias]
  by_cases hsame : splitLast "@".toList sender = splitLast "@".toList saslUsername
  · rw [if_pos hsame]
    exact ⟨_, rfl⟩
  · rw [if_neg hsame]
    cases hd : hasAliasDomain db (splitLast "@".toList sender) (splitLast "@".toList saslUsername) with
    | false => exact ⟨_, rfl⟩
    | true =>
      simp only [Bool.not_true, Bool.false_eq_true, if_false]
      rw [if_neg fun hname => hdomain ⟨hd, hname⟩]
      exact ⟨_, rfl⟩

omit [Unicode] in
/-- Without the list member check, the account lookup finds nothing, or asks the mlmmjadmin API
about the sender. -/
theorem lookupAccount_eq {settings : Settings} {conn : VmailConn ω} {sender saslUsername : Str}
    {w : ω} (hlist : settings.allowedLoginMismatchListMember = false) (hat : '@' ∈ sender)
    (hplain : PlainUser settings conn saslUsername) (hquery : QueriesSucceed conn w)
    (hown : ¬ OwnAddress conn sender saslUsername w) :
    ∃ lookup, lookupAccount settings conn sender (splitFirst "@" sender) (splitLast "@" sender)
      saslUsername (splitLast "@" saslUsername) w = .ok lookup ∧
        (lookup = .unknown ∨ lookup = .checkMlmmj sender ∧ ∃ search, conn = .ldap search) := by
  unfold lookupAccount
  cases hstrict : settings.allowedLoginMismatchStrictly with
  | false => exact ⟨.unknown, by simp [hlist], Or.inl rfl⟩
  | true =>
    simp only [Bool.true_or, if_true]
    cases conn with
    | ldap search =>
      have hfilter : queryFilter settings saslUsername sender = filterUserAlias saslUsername sender := by
        simp [queryFilter, hstrict, hlist]
      have hnone : ¬ (getAccountLdif search (filterUserAlias saslUsername sender) w).1.isSome = true :=
        hown
      refine ⟨_, rfl, ?_⟩
      rw [lookupLdap, hfilter, if_neg hnone]
      split_ifs
      · exact Or.inr ⟨rfl, search, rfl⟩
      · exact Or.inl rfl
    | sql tables =>
      obtain ⟨db, hdb⟩ := hquery
      obtain ⟨real, hreal⟩ := checkStrict_ne_none hdb hat (hplain hstrict) hown
      refine ⟨.unknown, ?_, Or.inl rfl⟩
      simp only [lookupSql, hstrict, hlist, if_true, hreal, bind, Except.bind]
      rfl

omit [Unicode] in
/-- **The plugin rejects a sender that is not the user's own.** -/
theorem restriction_rejects {settings : Settings} {calls : Calls ω} (kwargs : PluginKwargs) (w : ω)
    (hallowed : settings.allowedLoginMismatchSenders = [])
    (hlist : settings.allowedLoginMismatchListMember = false)
    (hsasl : kwargs.saslUsername ≠ [])
    (hdomain : kwargs.saslUsernameDomain = splitLast "@" kwargs.saslUsername)
    (hat : '@' ∈ kwargs.senderWithoutExt) (hne : kwargs.senderWithoutExt ≠ kwargs.saslUsername)
    (hplain : PlainUser settings calls.connVmail kwargs.saslUsername)
    (hquery : QueriesSucceed calls.connVmail w)
    (hown : ¬ OwnAddress calls.connVmail kwargs.senderWithoutExt kwargs.saslUsername w)
    (hmember : NotSubscriber settings calls kwargs.senderWithoutExt kwargs.saslUsername w) :
    restriction settings calls kwargs w = .ok SmtpActions.rejectSenderLoginMismatch := by
  set sender := kwargs.senderWithoutExt
  have hsender : sender ≠ [] := List.ne_nil_of_mem hat
  obtain ⟨a, b, hsplit⟩ := exists_splitOnce hat
  have hparts : splitFirst "@".toList sender = a ∧ splitLast "@".toList sender = b := by
    have h : splitOnce "@".toList sender = some (a, b) := hsplit
    simp only [splitFirst, splitLast, h]
    exact ⟨rfl, rfl⟩
  obtain ⟨lookup, hlookup, hcases⟩ := lookupAccount_eq hlist hat hplain hquery hown
  rw [hparts.1, hparts.2, ← hdomain] at hlookup
  have hreject : checkAuthenticated settings calls sender a b kwargs w =
      .ok SmtpActions.rejectSenderLoginMismatch := by
    simp only [checkAuthenticated, hne, if_false, hlookup, bind, Except.bind]
    by_cases hnone : (settings.allowedLoginMismatchSenders.isEmpty &&
        !settings.allowedLoginMismatchStrictly && !settings.allowedLoginMismatchListMember) = true
    · rw [if_pos hnone]
      rfl
    · rw [if_neg hnone, if_neg (by simp [isAllowedSender, hallowed])]
      rcases hcases with rfl | ⟨rfl, search, hconn⟩
      · rfl
      · -- the API was asked, and does not know the user
        simp only [NotSubscriber, hconn] at hmember
        simp only [checkMlmmj]
        split_ifs
        · split
          · next h => exact absurd h hmember
          · rfl
          · rfl
        · rfl
  have hsplit' : splitOnce "@".toList sender = some (a, b) := hsplit
  simp only [restriction, hsender, if_false, bind, Except.bind, hsplit', and_false, hsasl, hreject,
    show kwargs.senderWithoutExt = sender from rfl, pure, Except.pure]

/-- An authenticated `RCPT` request on a connection, with a sender that is not the user's own. -/
structure MismatchedRequest (settings : Settings) (calls : Calls ω) (history request : List Bytes)
    (sender saslUsername : Str) : Prop where
  blank_not_mem : [] ∉ request
  rcpt : ∃ state, lastValue "protocol_state" (history ++ request) = some state ∧
    Unicode.upper state = "RCPT".toList
  sender_eq : lastValue "sender" (history ++ request) = some sender
  saslUsername_eq : lastValue "sasl_username" (history ++ request) = some saslUsername
  recipient_ne : lastValue "recipient" (history ++ request) ≠ none
  authenticated : saslUsername ≠ []
  mismatch : stripMailExtAddress settings sender ≠ saslUsername
  not_own : ∀ w, ¬ OwnAddress calls.connVmail (stripMailExtAddress settings sender) saslUsername w

/-- What the guards of the channel, the pattern and `apply_plugin` let pass otherwise. -/
structure NothingBypassed (settings : Settings) (calls : Calls ω) (request : List Bytes)
    (sender saslUsername : Str) : Prop where
  sender_valid : isEmail sender = true
  request_valid : ∀ line ∈ request, ¬ InvalidAddress line
  plain_user : PlainUser settings calls.connVmail saslUsername
  queries : ∀ w, QueriesSucceed calls.connVmail w
  not_subscriber : ∀ w,
    NotSubscriber settings calls (stripMailExtAddress settings sender) saslUsername w

/-! ### The modeler -/

/-- The modeler of either backend rejects such a request. -/
theorem backendHandleData_rejects {settings : Settings} {calls : Calls ω}
    (senderLdif recipientLdif : GetAccountLdif ω)
    (hallowed : settings.allowedLoginMismatchSenders = [])
    (hlist : settings.allowedLoginMismatchListMember = false)
    {before : List (Plugin ω)} (hbefore : ∀ p ∈ before, ReturnsAction p) (after : List (Plugin ω))
    {history request : List Bytes} {sender saslUsername : Str}
    (hreq : MismatchedRequest settings calls history request sender saslUsername)
    (hpass : NothingBypassed settings calls request sender saslUsername)
    {d : Session} (hd : SessionOf settings (history ++ request) d) (w : ω) :
    Rejects (backendHandleData calls.connVmail senderLdif recipientLdif
      (before ++ plugin settings calls :: after) d w).1 := by
  obtain ⟨state, hstate, hrcpt⟩ := hreq.rcpt
  -- the session data the modeler reads
  have hget : ∀ key v, lastValue (ownerOf key) (history ++ request) = some v →
      Dict.get? d key = some (derived settings key v) := by
    intro key v hv
    rw [hd key, hv, Option.map_some]
  have hps := hget "protocol_state" state hstate
  have hwithout := hget "sender_without_ext" sender hreq.sender_eq
  have hsasl := hget "sasl_username" saslUsername hreq.saslUsername_eq
  have hdomain := hget "sasl_username_domain" saslUsername hreq.saslUsername_eq
  obtain ⟨recipient, hrecipient⟩ := Option.ne_none_iff_exists'.mp hreq.recipient_ne
  have hrwithout := hget "recipient_without_ext" recipient hrecipient
  let P : PluginKwargs → Prop := fun kwargs =>
    kwargs.senderWithoutExt = stripMailExtAddress settings sender ∧
      kwargs.saslUsername = saslUsername ∧ kwargs.saslUsernameDomain = splitLast "@" saslUsername
  have hreject : ∀ kwargs w, P kwargs → ∃ action w',
      (plugin settings calls).restriction kwargs w = (.ok (some action), w') ∧ action ≠ [] ∧
        startsWith action "DUNNO" = false := by
    rintro kwargs w ⟨h₁, h₂, h₃⟩
    have hr := restriction_rejects kwargs w hallowed hlist
      (by rw [h₂]; exact hreq.authenticated) (by rw [h₃, h₂])
      (by rw [h₁]; exact at_mem_stripMailExtAddress settings hpass.sender_valid)
      (by rw [h₁, h₂]; exact hreq.mismatch) (by rw [h₂]; exact hpass.plain_user) (hpass.queries w)
      (by rw [h₁, h₂]; exact hreq.not_own w) (by rw [h₁, h₂]; exact hpass.not_subscriber w)
    refine ⟨SmtpActions.rejectSenderLoginMismatch, w, ?_, by decide, by decide⟩
    simp only [plugin, hr]
    rfl
  have hhandle : ∀ prepare : Plugin ω → PluginKwargs → ω → PluginKwargs × ω,
      (∀ p kwargs w, P kwargs → P (prepare p kwargs w).1) →
      Rejects (handleData prepare (before ++ plugin settings calls :: after) d w).1 := by
    intro prepare hprepare
    unfold handleData
    rw [if_neg (by simp)]
    simp only [hps, hwithout, hrwithout]
    refine applyPlugins_of_reject (P := P) hprepare ?_ hreject hbefore after ?_ w
    · rw [derived_attribute settings (by decide), hrcpt]
      exact List.mem_singleton.mpr rfl
    · refine ⟨rfl, ?_, ?_⟩
      · simp only [Session.getOrEmpty, hsasl]
        rfl
      · simp only [Session.getOrEmpty, hdomain]
        rfl
  unfold backendHandleData
  cases calls.connVmail with
  | sql tables => exact hhandle _ fun p kwargs w hP => hP
  | ldap search =>
    refine hhandle _ fun p kwargs w hP => ?_
    unfold ldapPrepare
    simp only
    split_ifs <;> exact hP

/-! ### The channel -/

omit [Unicode] in
/-- An action that does not start with `DUNNO` is not pushed as one. -/
theorem startsWith_pushed {action : Str} (h : startsWith action "DUNNO" = false) :
    startsWith ("action=".toList ++ action ++ "\n".toList ++ "\n".toList) "action=DUNNO" = false := by
  rw [Bool.eq_false_iff, ne_eq, startsWith_iff]
  intro hpre
  have hsplit : "action=DUNNO".toList = "action=".toList ++ "DUNNO".toList := by decide
  rw [hsplit, List.append_assoc, List.append_assoc, List.prefix_append_right_inj] at hpre
  rw [Bool.eq_false_iff, ne_eq, startsWith_iff] at h
  -- `DUNNO` holds no newline, so it would have to lie within the action
  rcases List.prefix_or_prefix_of_prefix hpre (List.prefix_append action _) with hin | ⟨t, ht⟩
  · exact h hin
  · rw [← ht, List.prefix_append_right_inj] at hpre
    cases t with
    | nil => exact h ⟨[], by simpa using ht.symm⟩
    | cons c t =>
      have hc : c = '\n' := by
        obtain ⟨u, hu⟩ := hpre
        exact (List.cons.inj hu).1
      have hmem : c ∈ "DUNNO".toList := by rw [← ht]; simp
      rw [hc] at hmem
      revert hmem
      decide

omit [Unicode] in
/-- The reply to a request the modeler rejects. -/
theorem pushed_onBlank_of_rejects {handleData : Session → ω → Except Exn Str × ω} {p : Policy ω}
    (hstate : p.smtpSessionData.get? "protocol_state" ≠ none)
    (hrejects : Rejects (handleData p.smtpSessionData p.world).1) :
    ∀ reply ∈ pushed (p.onBlank handleData).events, startsWith reply "action=DUNNO" = false := by
  obtain ⟨state, hs⟩ := Option.ne_none_iff_exists'.mp hstate
  obtain ⟨action, haction, hne, hd⟩ := hrejects
  have hsession : p.smtpSessionData ≠ [] := by
    intro h
    rw [h] at hs
    cases hs
  unfold Policy.onBlank
  simp only [hsession, ne_eq, not_false_eq_true, if_true, hs, haction, hne]
  intro reply hreply
  have hmem : reply = "action=".toList ++ action ++ "\n".toList ++ "\n".toList := by
    cases hc : Dict.get? p.smtpSessionData "client_address".toList with
    | none =>
      rw [hc] at hreply
      exact List.mem_singleton.mp hreply
    | some c =>
      rw [hc] at hreply
      simp only at hreply
      -- what is logged is no reply
      split_ifs at hreply <;> exact List.mem_singleton.mp hreply
  rw [hmem]
  exact startsWith_pushed hd

/-- Lines of valid addresses push nothing. -/
theorem pushed_run_eq_nil (settings : Settings) (handleData : Session → ω → Except Exn Str × ω)
    {lines : List Bytes} (hblank : [] ∉ lines) (hvalid : ∀ line ∈ lines, ¬ InvalidAddress line)
    (p : Policy ω) :
    pushed (effects (Outcome.run (handleLine (policyHandler settings handleData)) p lines).events) =
      [] := by
  induction lines generalizing p with
  | nil => rfl
  | cons line lines ih =>
    have hline : line ≠ [] := fun h => hblank (by simp [h])
    have hfirst : pushed (effects (handleLine (policyHandler settings handleData) p line).events) =
        [] := by
      rw [handleLine, effects_announce, if_neg hline]
      exact (pushed_onLine_eq_nil settings p line).mpr (hvalid line (by simp))
    have hrest := ih (fun h => hblank (by simp [h])) (fun l hl => hvalid l (by simp [hl]))
      (handleLine (policyHandler settings handleData) p line).state
    rw [Outcome.run_cons, Outcome.andThen]
    split_ifs
    · exact hfirst
    · simp only [effects_append, pushed_append, hfirst, hrest, List.append_nil]

/-- **No authenticated sender passes as someone else**, when the addresses of the request are valid,
the user name holds nothing that `LIKE` reads as a pattern, the lookups succeed and every plugin
before returns an action or raises: none of the replies to the request starts with `action=DUNNO`. -/
theorem login_mismatch_rejected {settings : Settings} {calls : Calls ω}
    (senderLdif recipientLdif : GetAccountLdif ω)
    (hallowed : settings.allowedLoginMismatchSenders = [])
    (hlist : settings.allowedLoginMismatchListMember = false)
    {before : List (Plugin ω)} (hbefore : ∀ p ∈ before, ReturnsAction p) (after : List (Plugin ω))
    {history request : List Bytes} {sender saslUsername : Str}
    (hopen : NoneRaises PolicyRaises history)
    (hreq : MismatchedRequest settings calls history request sender saslUsername)
    (hpass : NothingBypassed settings calls request sender saslUsername) (w : ω) :
    let h := policyHandler settings (backendHandleData calls.connVmail senderLdif recipientLdif
      (before ++ plugin settings calls :: after))
    let o := Outcome.run h.receive ⟨[], ⟨[], w⟩⟩ history
    ∀ reply ∈ pushed (effects (Outcome.run h.receive o.state (request ++ [[]])).events),
      startsWith reply "action=DUNNO" = false := by
  intro h o reply hreply
  have hrun := (policy_run_raised_iff settings (backendHandleData calls.connVmail senderLdif
    recipientLdif (before ++ plugin settings calls :: after)) w history).mpr hopen
  have hd₀ := sessionOf_run (sessionOf_nil settings) (p := ⟨[], w⟩) hrun
  rw [List.nil_append] at hd₀
  set p := (Outcome.run (handleLine h) ⟨[], w⟩ history).state with hp
  have ho : o.state = ⟨[], p⟩ := by
    simp only [o, run_receive, Outcome.mapState_state]
    rfl
  rw [ho, run_receive, Outcome.mapState_events, Outcome.run_append, Outcome.andThen] at hreply
  have hnil := pushed_run_eq_nil settings (backendHandleData calls.connVmail senderLdif recipientLdif
    (before ++ plugin settings calls :: after)) hreq.blank_not_mem hpass.request_valid p
  -- the lines before the blank one push nothing; if one raises, the blank one is never read
  cases hr : (Outcome.run (handleLine h) p request).raised with
  | true =>
    rw [hr, if_pos rfl] at hreply
    rw [hnil] at hreply
    cases hreply
  | false =>
    simp only [hr, Bool.false_eq_true, if_false, effects_append, pushed_append] at hreply
    rw [hnil, List.nil_append] at hreply
    have hd := sessionOf_run hd₀ hr
    obtain ⟨state, hstate, -⟩ := hreq.rcpt
    refine pushed_onBlank_of_rejects ?_ (backendHandleData_rejects senderLdif recipientLdif hallowed
      hlist hbefore after hreq hpass hd _) reply ?_
    · rw [ne_eq, hd.get?_eq_none (k := "protocol_state".toList) (by decide), hstate]
      simp
    · have hblank : reply ∈ pushed (h.onBlank (Outcome.run (handleLine h) p request).state).events := by
        simpa [Outcome.run_cons, handleLine] using hreply
      exact hblank

/-- The one row of the tables: an alias address of `c@b.cd`. -/
def aliasTables : VmailTables := ⟨[⟨"e@b.cd", "c@b.cd", true, false, true⟩], [], []⟩

omit [Unicode] in
/-- Nothing in the tables is an address of the user `a@b.cd`. -/
theorem not_ownAddress_aliasTables (sender : Str) (w : ω) :
    ¬ OwnAddress (.sql fun _ => .ok aliasTables) sender "a@b.cd" w := by
  have hname : splitFirst "@".toList "a@b.cd".toList = "a".toList := by decide
  have hdomain : splitLast "@".toList "a@b.cd".toList = "b.cd".toList := by decide
  rintro ⟨db, hdb, hown⟩
  obtain rfl := Except.ok.inj hdb
  rw [hname, hdomain] at hown
  rcases hown with (⟨r, hr, -, -, hmail⟩ | ⟨a, ha, -⟩) | ⟨r, hr, -, -, heq⟩
  · rw [List.mem_singleton.mp hr] at hmail
    rcases hmail with heq | ⟨ext, heq⟩
    · exact absurd heq (by decide)
    · exact absurd (congrArg List.head? heq) (by simp)
  · cases ha
  · rw [List.mem_singleton.mp hr] at heq
    exact absurd heq (by decide)

omit [Unicode] in
/-- A request with another user's alias address as its sender. -/
theorem login_mismatch_rejected_request :
    letI := asciiUnicode
    let calls : Calls Unit := ⟨.sql fun _ => .ok aliasTables, fun _ _ => .ok true,
      fun _ _ _ => .ok false, fun _ _ => .ok false⟩
    let h := policyHandler {} (backendHandleData calls.connVmail (fun _ w => ((none, none), w))
      (fun _ w => ((none, none), w)) [plugin {} calls])
    ∀ reply ∈ pushed (effects (Outcome.run h.receive ⟨[], ⟨[], ()⟩⟩
      [asciiBytes "protocol_state=RCPT", asciiBytes "sender=e@b.cd", asciiBytes "recipient=c@d.ef",
        asciiBytes "sasl_username=a@b.cd", asciiBytes "client_address=1.2.3.4", []]).events),
      startsWith reply "action=DUNNO" = false := by
  let := asciiUnicode
  intro calls
  refine @login_mismatch_rejected asciiUnicode Unit {} calls _ _ rfl rfl [] (by simp) [] []
    [asciiBytes "protocol_state=RCPT", asciiBytes "sender=e@b.cd", asciiBytes "recipient=c@d.ef",
      asciiBytes "sasl_username=a@b.cd", asciiBytes "client_address=1.2.3.4"]
    "e@b.cd".toList "a@b.cd".toList (by unfold NoneRaises; simp) ?_ ?_ ()
  · exact
      { blank_not_mem := by decide
        rcpt := ⟨"RCPT".toList, by decide, by decide⟩
        sender_eq := by decide
        saslUsername_eq := by decide
        recipient_ne := by decide
        authenticated := by decide
        mismatch := by decide
        not_own := fun w => not_ownAddress_aliasTables _ w }
  · exact
      { sender_valid := by decide
        request_valid := by decide
        plain_user := fun _ => ⟨by decide, by decide, by decide⟩
        queries := fun w => ⟨_, rfl⟩
        not_subscriber := fun w => trivial }

omit [Unicode] in
/-- The reply to a sender that is no address: the request is not over, but it has been accepted. -/
theorem invalid_sender_accepted :
    letI := asciiUnicode
    let calls : Calls Unit := ⟨.sql fun _ => .ok aliasTables, fun _ _ => .ok true,
      fun _ _ _ => .ok false, fun _ _ => .ok false⟩
    let request := [asciiBytes "protocol_state=RCPT", asciiBytes "sender=bob",
      asciiBytes "recipient=c@d.ef", asciiBytes "sasl_username=a@b.cd",
      asciiBytes "client_address=1.2.3.4"]
    let h := policyHandler {} (backendHandleData calls.connVmail (fun _ w => ((none, none), w))
      (fun _ w => ((none, none), w)) [plugin {} calls])
    MismatchedRequest {} calls [] request "bob" "a@b.cd" ∧
      ∃ reply ∈ pushed (effects (Outcome.run h.receive ⟨[], ⟨[], ()⟩⟩ (request ++ [[]])).events),
        startsWith reply "action=DUNNO" = true := by
  let := asciiUnicode
  intro calls request
  refine ⟨?_, ?_⟩
  · exact
      { blank_not_mem := by decide
        rcpt := ⟨"RCPT".toList, by decide, by decide⟩
        sender_eq := by decide
        saslUsername_eq := by decide
        recipient_ne := by decide
        authenticated := by decide
        mismatch := by decide
        not_own := fun w => not_ownAddress_aliasTables _ w }
  · decide

end RejectSenderLoginMismatch

end IRedAPD

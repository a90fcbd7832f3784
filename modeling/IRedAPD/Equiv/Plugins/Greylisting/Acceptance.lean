/-
  No client is accepted before its time.

  `Traced` ties the tracking table to the attempts of the past: every
  `block_expired` has been set by an attempt of the row's triplet, and behind
  every row that has passed there are two attempts of one triplet that lie far
  enough apart.  Requests and cleanups keep it (`traced_step`).
-/
import IRedAPD.Equiv.Plugins.Greylisting.Step

namespace IRedAPD.Greylisting

open Py History

variable [Unicode]

/-- An attempt of a triplet. -/
def IsAttempt (k : Triplet) : Event → Prop
  | .request call => tripletOf call.2 = k
  | .cleanup _ => False

/-- Two attempts of a client with one sender and recipient that lie `GREYLISTING_BLOCK_EXPIRE` minutes
apart. -/
def TwoAttempts (settings : Settings) (c : Str) (events : List Event) : Prop :=
  ∃ first second, [first, second].Sublist events ∧ ∃ sender recipient,
    IsAttempt (sender, recipient, c) first ∧ IsAttempt (sender, recipient, c) second ∧
      first.time + settings.greylistingBlockExpire * 60 ≤ second.time

/-- The rows come from attempts of the past. -/
structure Traced (settings : Settings) (events : List Event) (t : TrackingTable) : Prop where
  blockExpired : ∀ row ∈ t.rows, ∃ e ∈ events,
    IsAttempt row.2.key e ∧ row.2.blockExpired = blockExpire settings e.time
  passed : ∀ row ∈ t.rows, row.2.passed = true → TwoAttempts settings row.2.clientAddress events

omit [Unicode] in
theorem TwoAttempts.append {settings : Settings} {c : Str} {events : List Event}
    (h : TwoAttempts settings c events) (e : Event) : TwoAttempts settings c (events ++ [e]) := by
  obtain ⟨first, second, hsub, hrest⟩ := h
  exact ⟨first, second, hsub.trans (List.sublist_append_left _ _), hrest⟩

omit [Unicode] in
/-- An attempt on a row whose blocking has expired is the second of two. -/
theorem Traced.twoAttempts {settings : Settings} {events : List Event} {t : TrackingTable}
    (h : Traced settings events t) {row : ℕ × Tracking} (hrow : row ∈ t.rows) (call : Call)
    (hkey : row.2.key = tripletOf call.2) (htime : row.2.blockExpired ≤ call.1.now) :
    TwoAttempts settings call.2.clientAddress (events ++ [.request call]) := by
  obtain ⟨e, he, hattempt, hblock⟩ := h.blockExpired row hrow
  rw [hkey] at hattempt
  have hsub : ([e] ++ [Event.request call]).Sublist (events ++ [.request call]) :=
    (List.singleton_sublist.mpr he).append (List.Sublist.refl _)
  refine ⟨e, .request call, hsub, call.2.senderWithoutExt, call.2.recipientWithoutExt, hattempt, rfl, ?_⟩
  show e.time + settings.greylistingBlockExpire * 60 ≤ call.1.now
  unfold blockExpire at hblock
  omega

omit [Unicode] in
/-- A row that stays as it is keeps what is known of it. -/
theorem Traced.keep {settings : Settings} {events : List Event} {t : TrackingTable}
    (h : Traced settings events t) (e : Event) {row : ℕ × Tracking} (hrow : row ∈ t.rows) :
    (∃ e' ∈ events ++ [e], IsAttempt row.2.key e' ∧
        row.2.blockExpired = blockExpire settings e'.time) ∧
      (row.2.passed = true → TwoAttempts settings row.2.clientAddress (events ++ [e])) := by
  obtain ⟨e', he', hrest⟩ := h.blockExpired row hrow
  exact ⟨⟨e', List.mem_append_left _ he', hrest⟩, fun hp => (h.passed row hrow hp).append e⟩

/-- **One event keeps the rows traced.** -/
theorem traced_step {settings : Settings} {events : List Event} {t : TrackingTable}
    (h : Traced settings events t) (e : Event) :
    Traced settings (events ++ [e]) (step settings e t).2 := by
  suffices hrow : ∀ row ∈ (step settings e t).2.rows,
      (∃ e' ∈ events ++ [e], IsAttempt row.2.key e' ∧
        row.2.blockExpired = blockExpire settings e'.time) ∧
      (row.2.passed = true → TwoAttempts settings row.2.clientAddress (events ++ [e])) from
    ⟨fun row hmem => (hrow row hmem).1, fun row hmem => (hrow row hmem).2⟩
  intro row' hmem
  cases e with
  | cleanup now =>
    have hold : row' ∈ t.rows := by
      have hmem' : row' ∈ (CleanupDb.cleanupGreylistingTracking settings now t).rows := hmem
      exact CleanupDb.mem_of_mem_cleanupSqlTable hmem'
    exact h.keep _ hold
  | request call =>
    obtain ⟨env, kwargs⟩ := call
    have hpresent : Event.request (env, kwargs) ∈ events ++ [.request (env, kwargs)] := by simp
    have hleaves := leaves_of_mem_restriction
      (show row' ∈ (restriction settings env kwargs t).2.rows from hmem)
    generalize row'.2 = r at hleaves
    cases hleaves with
    | keep hrow => exact h.keep _ hrow
    | refresh hrow hpassed => exact h.keep _ hrow
    | new => exact ⟨⟨_, hpresent, rfl, rfl⟩, fun hp => by cases hp⟩
    | @reset row hrow hkey hpassed =>
      refine ⟨⟨_, hpresent, hkey.symm, rfl⟩, fun hp => ?_⟩
      have hp' : row.2.passed = true := hp
      rw [hpassed] at hp'
      cases hp'
    | block hrow => exact h.keep _ hrow
    | @accept row hrow hkey hblock =>
      refine ⟨(h.keep _ hrow).1, fun _ => ?_⟩
      have hclient : row.2.clientAddress = kwargs.clientAddress :=
        (congrArg (fun k : Triplet => k.2.2) hkey :)
      show TwoAttempts settings row.2.clientAddress _
      rw [hclient]
      exact h.twoAttempts hrow (env, kwargs) hkey hblock

/-- A request that is greylisted by setting and has nothing to pass it. -/
structure Greylisted (settings : Settings) (call : Call) (target : Option Str) (ip : IpAddress) :
    Prop where
  not_authenticated : call.2.saslUsername = []
  not_trusted : isTrustedClient settings call.2.clientAddress = .ok false
  target_eq : call.1.getAliasTargetDomain call.2.recipientDomain = .ok target
  ip_eq : ipAddress call.2.clientAddress = some ip
  not_whitelisted : isWhitelisted call.1
    (policySenders call.2.senderWithoutExt call.2.clientAddress)
    (policyRecipients call.2.recipientWithoutExt target) call.2.clientAddress ip = .ok false
  by_setting : shouldBeGreylistedBySetting call.1
    (policyRecipients call.2.recipientWithoutExt target)
    (policySenders call.2.senderWithoutExt call.2.clientAddress) call.2.clientAddress ip = .ok true

/-- Such a request is not bypassed when SPF bypass is off. -/
theorem Greylisted.bypass_eq {settings : Settings} {call : Call} {target : Option Str}
    {ip : IpAddress} (h : Greylisted settings call target ip)
    (hspf : settings.greylistingBypassSpf = false) :
    bypass settings call.1 call.2 = .ok false := by
  unfold bypass
  rw [if_neg (not_not.mpr h.not_authenticated)]
  simp only [h.not_trusted, h.target_eq, h.ip_eq, h.not_whitelisted, h.by_setting, hspf, ok_bind]
  rfl

/-- **No early acceptance.** After any requests and cleanups, a request that is greylisted by setting
and is answered `DUNNO` has two attempts of its client behind it that lie far enough apart; it may
itself be the later one. -/
theorem no_early_acceptance (settings : Settings) (hspf : settings.greylistingBypassSpf = false)
    (htraining : settings.greylistingTrainingMode = false) (before : List Event) {call : Call}
    {target : Option Str} {ip : IpAddress} (hgreylisted : Greylisted settings call target ip)
    (haccepts : (restriction settings call.1 call.2
      (after (step settings) Sql.Table.empty before)).1 = .ok SmtpActions.defaultAction) :
    TwoAttempts settings call.2.clientAddress (before ++ [.request call]) := by
  have htraced : Traced settings before (after (step settings) Sql.Table.empty before) := by
    have hrun := invariant_of_step (fun h t => Traced settings (h.map Prod.fst) t)
      (fun h t e hinv => by
        rw [List.map_append, List.map_singleton]
        exact traced_step hinv e)
      (h := []) (s := Sql.Table.empty) ⟨fun row hrow => (by cases hrow), fun row hrow => by cases hrow⟩
      before
    rw [List.nil_append, map_fst_history] at hrun
    exact hrun
  rcases exists_row_of_accepts htraining (hgreylisted.bypass_eq hspf) haccepts with
    ⟨row, hrow, hclient, hpassed⟩ | ⟨row, hrow, hkey, htime⟩
  · rw [← hclient]
    exact (htraced.passed row hrow hpassed).append _
  · exact htraced.twoAttempts hrow call hkey htime

omit [Unicode] in
/-- A second attempt after fifteen minutes. -/
theorem no_early_acceptance_second_attempt :
    letI := asciiUnicode
    let settings : Settings := { greylistingBypassSpf := false }
    let kwargs : PluginKwargs :=
      { smtpSessionData := [], sender := "a@b.com", senderWithoutExt := "a@b.com",
        recipient := "c@d.com", recipientWithoutExt := "c@d.com", clientAddress := "1.2.3.4",
        senderDomain := "b.com", recipientDomain := "d.com", saslUsername := [],
        saslUsernameDomain := [] }
    let call := fun now : ℤ => ((⟨now, [], [], [⟨"@.", 0, "@.", 0, 1⟩], fun _ => .ok none,
      fun _ _ => .ok false, fun _ => false⟩, kwargs) : Call)
    TwoAttempts settings "1.2.3.4" [.request (call 0), .request (call 900)] := by
  let := asciiUnicode
  intro settings kwargs call
  exact @no_early_acceptance asciiUnicode settings rfl rfl [.request (call 0)] (call 900) none
    ⟨.v4, 0x01020304⟩ ⟨rfl, by rfl, rfl, by decide, by rfl, by rfl⟩ (by rfl)

end IRedAPD.Greylisting

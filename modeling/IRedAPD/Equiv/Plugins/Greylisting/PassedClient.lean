/-
  A client that has passed stays passed while it keeps coming.

  Every request that reaches the tracking check moves the expiry of the
  client's passed rows (`passedUntil_step_of_tracked`); a request that is
  bypassed does not, which is why only the others count for the distance
  between two requests of the client.
-/
import IRedAPD.Equiv.Plugins.Greylisting.Step

namespace IRedAPD.Greylisting

open Py History

variable [Unicode]

/-- The SQL statements of a request succeed, and the lookups of other modules do not raise. -/
structure Sound (env : Env) : Prop where
  succeeds : ∀ statement, env.fails statement = false
  target : ∀ domain, ∃ target, env.getAliasTargetDomain domain = .ok target
  spf : ∀ domain ip, ∃ allowed, env.isAllowedServerInSpf domain ip = .ok allowed

/-- All requests are sound. -/
def SoundEvent : Event → Prop
  | .request call => Sound call.1
  | .cleanup _ => True

/-- The request reaches the tracking check. -/
def isTracked (settings : Settings) (call : Call) : Bool :=
  match bypass settings call.1 call.2 with
  | .ok false => true
  | _ => false

theorem bypass_of_isTracked {settings : Settings} {call : Call}
    (h : isTracked settings call = true) : bypass settings call.1 call.2 = .ok false := by
  unfold isTracked at h
  split at h
  · assumption
  · cases h

/-- The times of some of the requests. -/
def requestTimes (p : Call → Bool) (events : List Event) : List ℤ :=
  events.filterMap fun
    | .request call => if p call then some call.1.now else none
    | .cleanup _ => none

/-- No two consecutive times are more than `GREYLISTING_AUTH_TRIPLET_EXPIRE` days apart. -/
def WithinExpire (settings : Settings) (times : List ℤ) : Prop :=
  times.IsChain fun a b => b ≤ authTripletExpire settings a

/-- The client has a row that has passed and does not expire before `x`. -/
def PassedUntil (c : Str) (x : ℤ) (t : TrackingTable) : Prop :=
  ∃ row ∈ t.rows, row.2.clientAddress = c ∧ row.2.passed = true ∧ x ≤ row.2.recordExpired

omit [Unicode] in
theorem PassedUntil.hasPassed {c : Str} {x : ℤ} {t : TrackingTable} (h : PassedUntil c x t) :
    HasPassed c t := by
  obtain ⟨row, hrow, hclient, hpassed, -⟩ := h
  exact ⟨row, hrow, hclient, hpassed⟩

/-! ### Expiry times of the past -/

/-- No row expires later than that of a client accepted by one of the events. -/
def Bounded (settings : Settings) (events : List Event) (t : TrackingTable) : Prop :=
  ∀ row ∈ t.rows, ∃ e ∈ events, row.2.recordExpired ≤ authTripletExpire settings e.time

/-- **One event keeps the expiry times bounded.** -/
theorem bounded_step {settings : Settings}
    (hexpire : settings.greylistingUnauthTripletExpire ≤ settings.greylistingAuthTripletExpire)
    {events : List Event} {t : TrackingTable} (h : Bounded settings events t) (e : Event) :
    Bounded settings (events ++ [e]) (step settings e t).2 := by
  have hkeep : ∀ row ∈ t.rows, ∃ e' ∈ events ++ [e],
      row.2.recordExpired ≤ authTripletExpire settings e'.time := by
    intro row hrow
    obtain ⟨e', he', hle⟩ := h row hrow
    exact ⟨e', List.mem_append_left _ he', hle⟩
  intro row' hmem
  cases e with
  | cleanup now =>
    refine hkeep row' ?_
    have hmem' : row' ∈ (CleanupDb.cleanupGreylistingTracking settings now t).rows := hmem
    exact CleanupDb.mem_of_mem_cleanupSqlTable hmem'
  | request call =>
    obtain ⟨env, kwargs⟩ := call
    have hpresent : Event.request (env, kwargs) ∈ events ++ [.request (env, kwargs)] := by simp
    have hunauth : unauthTripletExpire settings env.now ≤ authTripletExpire settings env.now := by
      unfold unauthTripletExpire authTripletExpire
      omega
    have hleaves := leaves_of_mem_restriction
      (show row' ∈ (restriction settings env kwargs t).2.rows from hmem)
    generalize row'.2 = r at hleaves
    cases hleaves with
    | keep hrow => exact hkeep _ hrow
    | refresh hrow hpassed => exact ⟨_, hpresent, le_refl _⟩
    | new => exact ⟨_, hpresent, hunauth⟩
    | reset hrow hkey hpassed => exact ⟨_, hpresent, hunauth⟩
    | block hrow => exact hkeep _ hrow
    | accept hrow hkey hblock => exact ⟨_, hpresent, le_refl _⟩

/-! ### One event -/

omit [Unicode] in
/-- A row of another triplet stays as it is. -/
theorem mem_updateTriplet_of_ne {t : TrackingTable} {k : Triplet} {f : Tracking → Tracking}
    (hf : ∀ r, (f r).key = r.key) {row : ℕ × Tracking} (hrow : row ∈ t.rows) (hne : row.2.key ≠ k) :
    row ∈ (updateTriplet t k f hf).rows :=
  (Sql.Table.mem_rows_update hf).mpr (.inl ⟨hrow, decide_eq_false hne⟩)

/-- The rows of other clients stay as they are. -/
theorem mem_restriction_of_ne {settings : Settings} {env : Env} {kwargs : PluginKwargs}
    {t : TrackingTable} {row : ℕ × Tracking} (hrow : row ∈ t.rows)
    (hne : row.2.clientAddress ≠ kwargs.clientAddress) :
    row ∈ (restriction settings env kwargs t).2.rows := by
  have hkey : row.2.key ≠ tripletOf kwargs := fun h => hne (congrArg (fun k : Triplet => k.2.2) h)
  have hrestricts := restricts settings env kwargs t
  generalize (restriction settings env kwargs t).1 = action at hrestricts
  generalize (restriction settings env kwargs t).2 = t' at hrestricts ⊢
  cases hrestricts with
  | raised hbypass => exact hrow
  | bypassed hbypass => exact hrow
  | failed hbypass hfails => exact hrow
  | passed hbypass hpassed =>
    exact (Sql.Table.mem_rows_update (Tracking.key_refresh settings env.now)).mpr
      (.inl ⟨hrow, decide_eq_false fun h => hne h.1⟩)
  | checked hbypass hnot =>
    have hcheck := byTracking settings env kwargs t
    generalize (trackingCheck settings env kwargs t).1 = b at hcheck
    generalize (trackingCheck settings env kwargs t).2 = t' at hcheck ⊢
    cases hcheck with
    | raised hfails => exact hrow
    | failed hfails => exact hrow
    | new hinsert => exact (Sql.Table.mem_rows_insert hinsert).mpr (.inl hrow)
    | reset => exact mem_updateTriplet_of_ne (Tracking.key_reset settings env.now) hrow hkey
    | block => exact mem_updateTriplet_of_ne Tracking.key_block hrow hkey
    | late => exact hrow
    | accept =>
      unfold acceptTriplet
      have hupdated : row ∈ (if env.fails .updateAccepted then t else
          updateTriplet t (tripletOf kwargs) (Tracking.accept settings env.now)
            (Tracking.key_accept settings env.now)).rows := by
        split_ifs
        · exact hrow
        · exact mem_updateTriplet_of_ne (Tracking.key_accept settings env.now) hrow hkey
      simp only
      by_cases hdelete : env.fails .deleteTracking = true
      · rw [if_pos hdelete]
        exact hupdated
      · rw [if_neg hdelete]
        exact Sql.Table.mem_rows_delete.mpr ⟨hupdated, decide_eq_false fun h => hne h.1⟩

omit [Unicode] in
/-- No statement of a sound request fails. -/
theorem Sound.not_fails {env : Env} (h : Sound env) : ¬ ∃ statement, env.fails statement = true := by
  rintro ⟨statement, hfails⟩
  rw [h.succeeds] at hfails
  cases hfails

/-- A request of a client that has passed is answered `DUNNO` when it reaches the tracking check, and
its rows are refreshed. -/
theorem restriction_of_hasPassed {settings : Settings} {call : Call} {t : TrackingTable}
    (hsound : Sound call.1) (htracked : isTracked settings call = true)
    (hpassed : HasPassed call.2.clientAddress t) :
    restriction settings call.1 call.2 t = (.ok SmtpActions.defaultAction,
      t.update (fun row => row.2.clientAddress = call.2.clientAddress ∧ row.2.passed = true)
        (Tracking.refresh settings call.1.now) (Tracking.key_refresh settings call.1.now)) := by
  have hbypass := bypass_of_isTracked htracked
  have hrestricts := restricts settings call.1 call.2 t
  generalize restriction settings call.1 call.2 t = result at hrestricts
  obtain ⟨action, t'⟩ := result
  simp only at hrestricts
  cases hrestricts with
  | raised hbypass' => cases hbypass.symm.trans hbypass'
  | bypassed hbypass' => cases hbypass.symm.trans hbypass'
  | failed _ hfails => exact absurd hfails hsound.not_fails
  | passed _ _ => rfl
  | checked _ hnot => exact absurd hpassed hnot

omit [Unicode] in
/-- Refreshing the rows of a client that has passed. -/
theorem passedUntil_refresh (settings : Settings) {c : Str} {t : TrackingTable}
    (hpassed : HasPassed c t) (now : ℤ) :
    PassedUntil c (authTripletExpire settings now)
      (t.update (fun row => row.2.clientAddress = c ∧ row.2.passed = true)
        (Tracking.refresh settings now) (Tracking.key_refresh settings now)) := by
  obtain ⟨row, hrow, hclient, hpass⟩ := hpassed
  refine ⟨(row.1, row.2.refresh settings now), ?_, hclient, hpass, le_refl _⟩
  exact (Sql.Table.mem_rows_update (Tracking.key_refresh settings now)).mpr
    (.inr ⟨row, hrow, decide_eq_true ⟨hclient, hpass⟩, rfl⟩)

/-- **A request that reaches the tracking check keeps its client passed** for
`GREYLISTING_AUTH_TRIPLET_EXPIRE` days. -/
theorem passedUntil_step_of_tracked {settings : Settings} {call : Call} {t : TrackingTable}
    (hsound : Sound call.1) (htracked : isTracked settings call = true)
    (hpassed : HasPassed call.2.clientAddress t) :
    PassedUntil call.2.clientAddress (authTripletExpire settings call.1.now)
      (step settings (.request call) t).2 := by
  show PassedUntil _ _ (restriction settings call.1 call.2 t).2
  rw [restriction_of_hasPassed hsound htracked hpassed]
  exact passedUntil_refresh settings hpassed call.1.now

/-- The tracking check accepts a request: its client has passed, or its triplet passes. -/
def AcceptedByTracking (settings : Settings) (call : Call) (t : TrackingTable) : Prop :=
  isTracked settings call = true ∧
    (HasPassed call.2.clientAddress t ∨ (trackingCheck settings call.1 call.2 t).1 = .ok false)

/-- **An accepted client has passed**, when no row expires later than one accepted now. -/
theorem passedUntil_step_of_accepted {settings : Settings} {call : Call} {t : TrackingTable}
    (hsound : Sound call.1) (haccepted : AcceptedByTracking settings call t)
    (hbounded : ∀ row ∈ t.rows, row.2.recordExpired ≤ authTripletExpire settings call.1.now) :
    PassedUntil call.2.clientAddress (authTripletExpire settings call.1.now)
      (step settings (.request call) t).2 := by
  obtain ⟨htracked, hcases⟩ := haccepted
  have hbypass := bypass_of_isTracked htracked
  have hrestricts := restricts settings call.1 call.2 t
  show PassedUntil _ _ (restriction settings call.1 call.2 t).2
  generalize (restriction settings call.1 call.2 t).1 = action at hrestricts
  generalize (restriction settings call.1 call.2 t).2 = t' at hrestricts ⊢
  cases hrestricts with
  | raised hbypass' => cases hbypass.symm.trans hbypass'
  | bypassed hbypass' => cases hbypass.symm.trans hbypass'
  | failed _ hfails => exact absurd hfails hsound.not_fails
  | passed _ hpassed => exact passedUntil_refresh settings hpassed call.1.now
  | checked _ hnot =>
    have hfalse := hcases.resolve_left hnot
    have hcheck := byTracking settings call.1 call.2 t
    rw [hfalse] at hcheck
    generalize (trackingCheck settings call.1 call.2 t).2 = t' at hcheck ⊢
    cases hcheck with
    | late hrow _ _ _ hlate => exact absurd hlate (not_lt.mpr (hbounded _ hrow))
    | @accept row hrow hkey =>
      unfold acceptTriplet
      simp only [hsound.succeeds]
      have hclient : row.2.clientAddress = call.2.clientAddress :=
        (congrArg (fun k : Triplet => k.2.2) hkey :)
      refine ⟨(row.1, row.2.accept settings call.1.now), ?_, hclient, rfl, le_refl _⟩
      -- the row itself is not deleted, as it has passed
      refine Sql.Table.mem_rows_delete.mpr ⟨?_, decide_eq_false fun h => by cases h.2⟩
      exact (Sql.Table.mem_rows_update (Tracking.key_accept settings call.1.now)).mpr
        (.inr ⟨row, hrow, decide_eq_true hkey, rfl⟩)

/-- A request of the client that reaches the tracking check. -/
def isTrackedOf (settings : Settings) (c : Str) (call : Call) : Bool :=
  call.2.clientAddress == c && isTracked settings call

/-- **Other events keep a client passed** until its row expires. -/
theorem passedUntil_step_of_not_tracked {settings : Settings} {c : Str} {x : ℤ} {t : TrackingTable}
    (hpassed : PassedUntil c x t) {e : Event}
    (hnot : ∀ call, e = .request call → isTrackedOf settings c call = false) (htime : e.time ≤ x) :
    PassedUntil c x (step settings e t).2 := by
  obtain ⟨row, hrow, hclient, hpass, hexpire⟩ := hpassed
  refine ⟨row, ?_, hclient, hpass, hexpire⟩
  cases e with
  | cleanup now =>
    refine CleanupDb.mem_cleanupSqlTable_of_not hrow (decide_eq_false ?_)
    exact not_lt.mpr (le_trans htime hexpire)
  | request call =>
    show row ∈ (restriction settings call.1 call.2 t).2.rows
    by_cases hc : call.2.clientAddress = c
    · -- the request is bypassed
      have hbypass : isTracked settings call = false := by
        have h := hnot call rfl
        rw [isTrackedOf, hc, beq_self_eq_true, Bool.true_and] at h
        exact h
      unfold restriction
      unfold isTracked at hbypass
      split
      · exact hrow
      · exact hrow
      · rename_i heq
        rw [heq] at hbypass
        cases hbypass
    · exact mem_restriction_of_ne hrow fun h => hc (h.symm.trans hclient)

/-! ### Whole runs -/

/-- **A client that comes back in time is still passed** when it does. -/
theorem hasPassed_after {settings : Settings} {last : Call} {events : List Event}
    {t : TrackingTable} {seen : ℤ}
    (hpassed : PassedUntil last.2.clientAddress (authTripletExpire settings seen) t)
    (hlast : isTracked settings last = true)
    (hsound : ∀ e ∈ events, SoundEvent e)
    (hsorted : ((events ++ [Event.request last]).map Event.time).Pairwise (· ≤ ·))
    (hwithin : WithinExpire settings (seen ::
      requestTimes (isTrackedOf settings last.2.clientAddress) (events ++ [Event.request last]))) :
    HasPassed last.2.clientAddress (after (step settings) t events) := by
  have hlast' : isTrackedOf settings last.2.clientAddress last = true := by
    rw [isTrackedOf, beq_self_eq_true, hlast]
    rfl
  induction events generalizing t seen with
  | nil => exact hpassed.hasPassed
  | cons e events ih =>
    rw [List.cons_append, List.map_cons, List.pairwise_cons] at hsorted
    have hrest : ∀ e' ∈ events, SoundEvent e' := fun e' he' => hsound e' (List.mem_cons_of_mem _ he')
    by_cases htracked : ∃ call, e = .request call ∧
        isTrackedOf settings last.2.clientAddress call = true
    · obtain ⟨call, rfl, hcall⟩ := htracked
      have htimes : requestTimes (isTrackedOf settings last.2.clientAddress)
          (.request call :: events ++ [Event.request last]) = call.1.now ::
            requestTimes (isTrackedOf settings last.2.clientAddress) (events ++ [Event.request last]) := by
        simp [requestTimes, hcall]
      rw [htimes, WithinExpire, List.isChain_cons_cons] at hwithin
      obtain ⟨hclient, hreach⟩ := Bool.and_eq_true_iff.mp hcall
      rw [beq_iff_eq] at hclient
      refine ih ?_ hrest hsorted.2 hwithin.2
      rw [← hclient] at hpassed ⊢
      exact passedUntil_step_of_tracked (hsound _ (List.mem_cons_self ..)) hreach hpassed.hasPassed
    · have hnot : ∀ call, e = .request call →
          isTrackedOf settings last.2.clientAddress call = false := by
        intro call he
        rw [Bool.eq_false_iff]
        exact fun hcall => htracked ⟨call, he, hcall⟩
      have htimes : requestTimes (isTrackedOf settings last.2.clientAddress)
          (e :: events ++ [Event.request last]) =
            requestTimes (isTrackedOf settings last.2.clientAddress) (events ++ [Event.request last]) := by
        cases e with
        | cleanup now => rfl
        | request call => simp [requestTimes, hnot call rfl]
      rw [htimes] at hwithin
      -- the next request that counts is not earlier than this event
      have htime : e.time ≤ authTripletExpire settings seen := by
        have hmem : last.1.now ∈ requestTimes (isTrackedOf settings last.2.clientAddress)
            (events ++ [Event.request last]) :=
          List.mem_filterMap.mpr ⟨.request last, by simp, by simp [hlast']⟩
        cases hnext : requestTimes (isTrackedOf settings last.2.clientAddress)
            (events ++ [Event.request last]) with
        | nil =>
          rw [hnext] at hmem
          cases hmem
        | cons next times =>
          rw [hnext, WithinExpire, List.isChain_cons_cons] at hwithin
          refine le_trans ?_ hwithin.1
          have hin : next ∈ requestTimes (isTrackedOf settings last.2.clientAddress)
              (events ++ [Event.request last]) := by
            rw [hnext]
            exact List.mem_cons_self ..
          obtain ⟨e', he', hnow⟩ := List.mem_filterMap.mp hin
          have hle := hsorted.1 e'.time (List.mem_map_of_mem he')
          cases e' with
          | cleanup now => cases hnow
          | request call =>
            simp only at hnow
            split_ifs at hnow
            rw [← Option.some.inj hnow]
            exact hle
      exact ih (passedUntil_step_of_not_tracked hpassed hnot htime) hrest hsorted.2 hwithin

/-- Whether a request raises before the tracking check depends on its client only. -/
theorem exists_bypass_eq {settings : Settings} {call : Call} (hsound : Sound call.1)
    {accepted : Call} (hclient : call.2.clientAddress = accepted.2.clientAddress)
    (haccepted : isTracked settings accepted = true) :
    ∃ b, bypass settings call.1 call.2 = .ok b := by
  obtain ⟨htrusted, ip, hip⟩ := of_bypass_eq_false (bypass_of_isTracked haccepted)
  rw [← hclient] at htrusted hip
  obtain ⟨target, htarget⟩ := hsound.target call.2.recipientDomain
  obtain ⟨allowed, hspf⟩ := hsound.spf call.2.senderDomain call.2.clientAddress
  have hwhitelist : ∀ senders recipients, ∃ b,
      isWhitelisted call.1 senders recipients call.2.clientAddress ip = .ok b := by
    intro senders recipients
    unfold isWhitelisted
    simp only [hsound.succeeds, Bool.false_eq_true, if_false]
    split_ifs <;> exact ⟨_, rfl⟩
  have hsetting : ∀ recipients senders, ∃ b,
      shouldBeGreylistedBySetting call.1 recipients senders call.2.clientAddress ip = .ok b := by
    intro recipients senders
    unfold shouldBeGreylistedBySetting
    simp only [hsound.succeeds, Bool.false_eq_true, if_false]
    split <;> exact ⟨_, rfl⟩
  obtain ⟨whitelisted, hwhitelisted⟩ := hwhitelist
    (policySenders call.2.senderWithoutExt call.2.clientAddress)
    (policyRecipients call.2.recipientWithoutExt target)
  obtain ⟨greylisted, hgreylisted⟩ := hsetting
    (policyRecipients call.2.recipientWithoutExt target)
    (policySenders call.2.senderWithoutExt call.2.clientAddress)
  unfold bypass
  simp only [htrusted, htarget, hip, hwhitelisted, hgreylisted, hspf, ok_bind]
  split_ifs <;> exact ⟨_, rfl⟩

/-- **A passed client stays passed.** In a run from an empty table, once the tracking check has
accepted a request of a client, a later request of the client is answered `DUNNO`, as long as no two
consecutive requests of the client that reach the tracking check are more than
`GREYLISTING_AUTH_TRIPLET_EXPIRE` days apart. -/
theorem passed_client_stays_passed (settings : Settings)
    (hexpire : settings.greylistingUnauthTripletExpire ≤ settings.greylistingAuthTripletExpire)
    {before between : List Event} {accepted last : Call}
    (hclient : last.2.clientAddress = accepted.2.clientAddress)
    (hsorted : ((before ++ Event.request accepted :: between ++ [Event.request last]).map
      Event.time).Pairwise (· ≤ ·))
    (hsound : ∀ e ∈ before ++ Event.request accepted :: between ++ [Event.request last], SoundEvent e)
    (haccepted : AcceptedByTracking settings accepted
      (after (step settings) Sql.Table.empty before))
    (hwithin : WithinExpire settings (requestTimes (isTrackedOf settings accepted.2.clientAddress)
      (.request accepted :: between ++ [Event.request last]))) :
    (restriction settings last.1 last.2 (after (step settings) Sql.Table.empty
      (before ++ Event.request accepted :: between))).1 = .ok SmtpActions.defaultAction := by
  have hmem : ∀ e, e ∈ before ++ Event.request accepted :: between ++ [Event.request last] ↔
      e ∈ before ∨ e = .request accepted ∨ e ∈ between ∨ e = .request last := by
    intro e
    simp
  obtain ⟨b, hbypass⟩ := exists_bypass_eq (hsound _ ((hmem _).mpr (.inr (.inr (.inr rfl)))))
    hclient haccepted.1
  cases b with
  | true =>
    unfold restriction
    rw [hbypass]
  | false =>
    have hlast : isTracked settings last = true := by
      unfold isTracked
      rw [hbypass]
    rw [List.append_assoc, List.map_append, List.pairwise_append] at hsorted
    obtain ⟨-, hsorted, hbefore⟩ := hsorted
    rw [List.cons_append, List.map_cons, List.pairwise_cons] at hsorted
    -- what has happened before the client is accepted
    have hbounded := invariant_of_step (fun h t => Bounded settings (h.map Prod.fst) t)
      (fun h t e hinv => by
        rw [List.map_append, List.map_singleton]
        exact bounded_step hexpire hinv e)
      (h := []) (s := Sql.Table.empty) (fun row hrow => by cases hrow) before
    rw [List.nil_append, map_fst_history] at hbounded
    have hsound' := hsound _ ((hmem _).mpr (.inr (.inl rfl)))
    have hpassed := passedUntil_step_of_accepted hsound' haccepted (by
      intro row hrow
      obtain ⟨e, he, hle⟩ := hbounded row hrow
      have htime : e.time ≤ accepted.1.now :=
        hbefore _ (List.mem_map_of_mem he) _ (by simp [Event.time])
      unfold authTripletExpire at hle ⊢
      omega)
    rw [← hclient] at hpassed hwithin
    have htimes : requestTimes (isTrackedOf settings last.2.clientAddress)
        (.request accepted :: between ++ [Event.request last]) = accepted.1.now ::
          requestTimes (isTrackedOf settings last.2.clientAddress)
            (between ++ [Event.request last]) := by
      simp [requestTimes, isTrackedOf, hclient, haccepted.1]
    rw [htimes] at hwithin
    have hstill := hasPassed_after hpassed hlast
      (fun e he => hsound e ((hmem e).mpr (.inr (.inr (.inl he))))) hsorted.2 hwithin
    rw [after_append]
    have hreply := restriction_of_hasPassed (hsound _ ((hmem _).mpr (.inr (.inr (.inr rfl)))))
      hlast hstill
    exact congrArg Prod.fst hreply

omit [Unicode] in
/-- A client that comes back after a month less a day, and after a cleanup. -/
theorem passed_client_stays_passed_a_month :
    letI := asciiUnicode
    let settings : Settings := { greylistingBypassSpf := false }
    let kwargs : PluginKwargs :=
      { smtpSessionData := [], sender := "a@b.com", senderWithoutExt := "a@b.com",
        recipient := "c@d.com", recipientWithoutExt := "c@d.com", clientAddress := "1.2.3.4",
        senderDomain := "b.com", recipientDomain := "d.com", saslUsername := [],
        saslUsernameDomain := [] }
    let call := fun now : ℤ => ((⟨now, [], [], [⟨"@.", 0, "@.", 0, 1⟩], fun _ => .ok none,
      fun _ _ => .ok false, fun _ => false⟩, kwargs) : Call)
    (restriction settings (call 2506500).1 (call 2506500).2 (after (step settings) Sql.Table.empty
      ([.request (call 0)] ++ Event.request (call 900) :: [.cleanup 2505600]))).1 =
        .ok SmtpActions.defaultAction := by
  let := asciiUnicode
  intro settings kwargs call
  have hsound : ∀ now, Sound (call now).1 := fun now =>
    ⟨fun _ => rfl, fun _ => ⟨none, rfl⟩, fun _ _ => ⟨false, rfl⟩⟩
  have htracked : ∀ now, isTracked settings (call now) = true := fun now => by rfl
  refine @passed_client_stays_passed asciiUnicode settings (by decide) [.request (call 0)]
    [.cleanup 2505600] (call 900) (call 2506500) rfl (by decide) ?_ ⟨htracked 900, .inr (by rfl)⟩ ?_
  · exact List.forall_mem_cons.mpr ⟨hsound 0, List.forall_mem_cons.mpr ⟨hsound 900,
      List.forall_mem_cons.mpr ⟨trivial, List.forall_mem_cons.mpr ⟨hsound 2506500, by simp⟩⟩⟩⟩
  · unfold WithinExpire
    decide

omit [Unicode] in
/-- A request that is authenticated does not keep the passed row of its client alive: after it and a
cleanup, the client is greylisted again, though it has never been away for more than 20 days. -/
theorem passed_client_greylisted_again :
    letI := asciiUnicode
    let settings : Settings := { greylistingBypassSpf := false }
    let kwargs : PluginKwargs :=
      { smtpSessionData := [], sender := "a@b.com", senderWithoutExt := "a@b.com",
        recipient := "c@d.com", recipientWithoutExt := "c@d.com", clientAddress := "1.2.3.4",
        senderDomain := "b.com", recipientDomain := "d.com", saslUsername := [],
        saslUsernameDomain := [] }
    let env := fun now : ℤ => (⟨now, [], [], [⟨"@.", 0, "@.", 0, 1⟩], fun _ => .ok none,
      fun _ _ => .ok false, fun _ => false⟩ : Env)
    let before : List Event := [.request (env 0, kwargs)]
    let accepted : Call := (env 900, kwargs)
    let between : List Event :=
      [.request (env 1728900, { kwargs with saslUsername := "u@d.com" }), .cleanup 3024000]
    let last : Call := (env 3456000, kwargs)
    let events := before ++ Event.request accepted :: between ++ [Event.request last]
    settings.greylistingUnauthTripletExpire ≤ settings.greylistingAuthTripletExpire ∧
      (events.map Event.time).Pairwise (· ≤ ·) ∧ (∀ e ∈ events, SoundEvent e) ∧
      AcceptedByTracking settings accepted (after (step settings) Sql.Table.empty before) ∧
      WithinExpire settings (requestTimes (fun call => call.2.clientAddress == "1.2.3.4".toList)
        (Event.request accepted :: between ++ [Event.request last])) ∧
      (restriction settings last.1 last.2 (after (step settings) Sql.Table.empty
        (before ++ Event.request accepted :: between))).1 = .ok (actionGreylisting settings) := by
  let := asciiUnicode
  intro settings kwargs env before accepted between last events
  have hsound : ∀ now, Sound (env now) := fun now =>
    ⟨fun _ => rfl, fun _ => ⟨none, rfl⟩, fun _ _ => ⟨false, rfl⟩⟩
  have hok : ∀ {x : Except Exn Str} {a : Str}, x.toOption = some a → x = .ok a := by
    intro x a h
    cases x with
    | error e => cases h
    | ok b => rw [Option.some.inj h]
  refine ⟨by decide, by decide, ?_, ⟨by rfl, .inr (by rfl)⟩, by unfold WithinExpire; decide, hok (by decide)⟩
  exact List.forall_mem_cons.mpr ⟨hsound 0, List.forall_mem_cons.mpr ⟨hsound 900,
    List.forall_mem_cons.mpr ⟨hsound 1728900, List.forall_mem_cons.mpr ⟨trivial,
      List.forall_mem_cons.mpr ⟨hsound 3456000, by simp⟩⟩⟩⟩⟩

end IRedAPD.Greylisting

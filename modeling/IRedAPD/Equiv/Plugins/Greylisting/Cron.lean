/-
  Greylisting with and without the cron job.

  The tracking check treats an expired row like one that the cron job has
  deleted, but for one query: a client is asked for any row that has passed,
  expired or not.  Where no request finds such an expired row of its client,
  the replies do not depend on the runs of the cron job (`request_related`);
  where one does, a run just before it changes the reply
  (`reply_after_cleanup`), because a client that has passed has no other row
  (`Settled`).
-/
import IRedAPD.Equiv.Plugins.Greylisting.PassedClient
import IRedAPD.Sql.Expiry

namespace IRedAPD.Greylisting

open Py History

variable [Unicode]

/-- The requests among the events. -/
def requestsOf (events : List Event) : List Call :=
  events.filterMap fun
    | .request call => some call
    | .cleanup _ => none

/-- An event that is no run of the cron job. -/
def Event.isRequest : Event → Bool
  | .request _ => true
  | .cleanup _ => false

/-- The events come in the order of their times. -/
def InOrder (events : List Event) : Prop := (events.map Event.time).Pairwise (· ≤ ·)

/-- The replies to the requests, from an empty table on. -/
def replies (settings : Settings) (events : List Event) : List (Except Exn Str) :=
  answers (step settings) Sql.Table.empty events

/-- A request that reaches the tracking check finds a row of its client that has passed and has
expired. -/
def FindsStale (settings : Settings) : Event → TrackingTable → Prop
  | .request (env, kwargs), t => isTracked settings (env, kwargs) = true ∧
      ∃ row ∈ t.rows, row.2.clientAddress = kwargs.clientAddress ∧ row.2.passed = true ∧
        row.2.recordExpired < env.now
  | .cleanup _, _ => False

/-- The SQL statements of a request succeed. -/
def Succeeds : Event → Prop
  | .request call => ∀ statement, call.1.fails statement = false
  | .cleanup _ => True

/-! ### A request that finds an expired row and one that does not -/

/-- Rows that the tracking check treats alike. -/
def SameTracking (r r' : Tracking) : Prop :=
  r.blockExpired = r'.blockExpired ∧ r.recordExpired = r'.recordExpired ∧ r.passed = r'.passed

/-- The second table has lost some rows that have expired by this time. -/
def Related (now : ℤ) (t t' : TrackingTable) : Prop :=
  Sql.Table.Less (fun _ => True) (fun r => r.recordExpired < now) SameTracking t t'

omit [Unicode] in
theorem Related.mono {x y : ℤ} {t t' : TrackingTable} (hle : x ≤ y) (h : Related x t t') :
    Related y t t' := Sql.Table.Less.mono h fun _ hr => lt_of_lt_of_le hr hle

omit [Unicode] in
/-- A run of the cron job on the second table. -/
theorem Related.cleanup {settings : Settings} {now : ℤ} {t t' : TrackingTable}
    (h : Related now t t') :
    Related now t (CleanupDb.cleanupGreylistingTracking settings now t') := by
  unfold CleanupDb.cleanupGreylistingTracking
  rcases CleanupDb.cleanupSqlTable_cases settings
    (fun row : ℕ × Tracking => row.2.recordExpired < now) t' with heq | heq
  · rw [heq]
    exact h
  · rw [heq]
    refine Sql.Table.Less.delete_right h fun r row' hsame hdelete => ?_
    show r.recordExpired < now
    rw [hsame.2.1]
    exact of_decide_eq_true hdelete

section Request

variable {settings : Settings} {env : Env} {kwargs : PluginKwargs} {t t' : TrackingTable}

omit [Unicode] in
/-- The tracking check when the statements succeed. -/
theorem trackingCheck_of_succeeds (hsucceeds : ∀ statement, env.fails statement = false) :
    trackingCheck settings env kwargs t =
      match t.find? (tripletOf kwargs) with
      | none => (.ok true, (t.insert (newTrackingOf settings env kwargs)).getD t)
      | some (_, r) =>
        if r.recordExpired < env.now then
          (.ok true, updateTriplet t (tripletOf kwargs) (Tracking.reset settings env.now)
            (Tracking.key_reset settings env.now))
        else if env.now < r.blockExpired then
          (.ok true, updateTriplet t (tripletOf kwargs) Tracking.block Tracking.key_block)
        else if authTripletExpire settings env.now < r.recordExpired then (.ok false, t)
        else (.ok false, (updateTriplet t (tripletOf kwargs) (Tracking.accept settings env.now)
          (Tracking.key_accept settings env.now)).delete fun row =>
            row.2.clientAddress = kwargs.clientAddress ∧ row.2.passed = false) := by
  unfold trackingCheck shouldBeGreylistedByTracking updateBlocked acceptTriplet
  simp only [hsucceeds, Bool.false_eq_true, if_false, Bool.and_self]
  rfl

omit [Unicode] in
/-- A triplet that the second table has not lost is updated in both. -/
theorem Related.updateTriplet {now : ℤ} (h : Related now t t') {k : Triplet}
    {f : Tracking → Tracking} {hf : ∀ r, (f r).key = r.key} {row' : ℕ × Tracking}
    (hfound : t'.find? k = some row')
    (hsame : ∀ r r', SameTracking r r' → SameTracking (f r) (f r')) :
    Related now (updateTriplet t k f hf) (updateTriplet t' k f hf) := by
  refine Sql.Table.Less.update h ?_ ?_
  · intro row _ row' _ hkey _ hrow
    simp only [Sql.Table.updated, hkey]
    split_ifs
    · exact hsame _ _ hrow
    · exact hrow
  · intro row _ hnone hexpired
    unfold Sql.Table.updated
    rw [if_neg]
    · exact hexpired
    · intro hk
      rw [of_decide_eq_true hk, hfound] at hnone
      cases hnone

omit [Unicode] in
/-- Where no expired row has passed, the client has passed in both tables or in none. -/
theorem Related.hasPassed_iff {now : ℤ} (h : Related now t t') {c : Str}
    (hfresh : ∀ row ∈ t.rows, row.2.clientAddress = c → row.2.passed = true →
      now ≤ row.2.recordExpired) :
    HasPassed c t' ↔ HasPassed c t := by
  constructor
  · rintro ⟨row', hrow', hclient, hpassed⟩
    have hat := h row'.2.key trivial
    rw [Sql.Table.find?_eq_some_iff.mpr ⟨hrow', rfl⟩] at hat
    cases hrow : t.find? row'.2.key with
    | none =>
      rw [hrow] at hat
      cases hat
    | some row =>
      rw [hrow] at hat
      obtain ⟨hmem, hkey⟩ := Sql.Table.find?_eq_some_iff.mp hrow
      cases hat with
      | same hsame =>
        refine ⟨row, hmem, ?_, hsame.2.2.trans hpassed⟩
        exact (congrArg (fun k : Triplet => k.2.2) hkey).trans hclient
  · rintro ⟨row, hrow, hclient, hpassed⟩
    have hat := h row.2.key trivial
    rw [Sql.Table.find?_eq_some_iff.mpr ⟨hrow, rfl⟩] at hat
    cases hrow' : t'.find? row.2.key with
    | none =>
      rw [hrow'] at hat
      cases hat with
      | gone hgone => exact absurd hgone (not_lt.mpr (hfresh row hrow hclient hpassed))
    | some row' =>
      rw [hrow'] at hat
      obtain ⟨hmem, hkey⟩ := Sql.Table.find?_eq_some_iff.mp hrow'
      cases hat with
      | same hsame =>
        refine ⟨row', hmem, ?_, hsame.2.2.symm.trans hpassed⟩
        exact (congrArg (fun k : Triplet => k.2.2) hkey).trans hclient

omit [Unicode] in
/-- **The tracking check treats an expired row like none**, for a client that has not passed. -/
theorem trackingCheck_related (hsucceeds : ∀ statement, env.fails statement = false)
    (h : Related env.now t t') (hnot : ¬ HasPassed kwargs.clientAddress t) :
    (trackingCheck settings env kwargs t').1 = (trackingCheck settings env kwargs t).1 ∧
      Related env.now (trackingCheck settings env kwargs t).2
        (trackingCheck settings env kwargs t').2 := by
  have hinsert : ∀ {t : TrackingTable}, t.find? (tripletOf kwargs) = none →
      ∃ t₁, t.insert (newTrackingOf settings env kwargs) = some t₁ :=
    fun hnone => Sql.Table.exists_insert (r := newTrackingOf settings env kwargs) hnone
  rw [trackingCheck_of_succeeds hsucceeds, trackingCheck_of_succeeds hsucceeds]
  have hat := h (tripletOf kwargs) trivial
  cases hrow : t.find? (tripletOf kwargs) with
  -- new in both tables
  | none =>
    rw [hrow] at hat
    cases hrow' : t'.find? (tripletOf kwargs) with
    | some row' =>
      rw [hrow'] at hat
      cases hat
    | none =>
      obtain ⟨t₁, ht₁⟩ := hinsert hrow
      obtain ⟨t₁', ht₁'⟩ := hinsert hrow'
      simp only [ht₁, ht₁', Option.getD_some, true_and]
      exact Sql.Table.Less.insert h rfl ⟨rfl, rfl, rfl⟩ ht₁ ht₁'
  | some row =>
    rw [hrow] at hat
    obtain ⟨hmem, hkey⟩ := Sql.Table.find?_eq_some_iff.mp hrow
    cases hrow' : t'.find? (tripletOf kwargs) with
    | none =>
      rw [hrow'] at hat
      cases hat with
      | gone hexpired =>
        -- the job has deleted the expired row: renewed here, inserted there
        obtain ⟨t₁', ht₁'⟩ := hinsert hrow'
        simp only [hexpired, if_true, ht₁', Option.getD_some, true_and]
        have hnew : t.find? (newTrackingOf settings env kwargs).key = some row := hrow
        refine Sql.Table.Less.renew h hnew ?_ ?_ ht₁'
        · intro r
          exact decide_eq_true_iff
        · -- the row has not passed, like a new one
          have hpassed : row.2.passed = false := Bool.eq_false_iff.mpr fun hp =>
            hnot ⟨row, hmem, congrArg (fun k : Triplet => k.2.2) hkey, hp⟩
          exact ⟨rfl, rfl, hpassed⟩
    | some row' =>
      rw [hrow'] at hat
      cases hat with
      | same hsame =>
        -- the same row in both: the branches of the source, one after the other
        simp only [← hsame.1, ← hsame.2.1]
        by_cases hexpired : row.2.recordExpired < env.now
        · simp only [hexpired, if_true, true_and]
          exact h.updateTriplet hrow' fun r r' hr => ⟨rfl, rfl, hr.2.2⟩
        simp only [hexpired, if_false]
        by_cases hblocked : env.now < row.2.blockExpired
        · simp only [hblocked, if_true, true_and]
          exact h.updateTriplet hrow' fun r r' hr => hr
        simp only [hblocked, if_false]
        by_cases hlate : authTripletExpire settings env.now < row.2.recordExpired
        · simp only [hlate, if_true, true_and]
          exact h
        · simp only [hlate, if_false, true_and]
          have haccepted : Related env.now
              (updateTriplet t (tripletOf kwargs) (Tracking.accept settings env.now)
                (Tracking.key_accept settings env.now))
              (updateTriplet t' (tripletOf kwargs) (Tracking.accept settings env.now)
                (Tracking.key_accept settings env.now)) :=
            h.updateTriplet hrow' fun r r' hr => ⟨hr.1, rfl, rfl⟩
          refine Sql.Table.Less.delete haccepted fun r _ r' _ hk hr => ?_
          have hclient : r.2.clientAddress = r'.2.clientAddress :=
            congrArg (fun k : Triplet => k.2.2) hk
          rw [hclient, hr.2.2]

omit [Unicode] in
/-- The query for passed rows when the statements succeed. -/
theorem clientAddressPassedInTracking_of_succeeds
    (hsucceeds : ∀ statement, env.fails statement = false) (c : Str) (t : TrackingTable) :
    (HasPassed c t ∧ clientAddressPassedInTracking env c t = .ok true) ∨
      (¬ HasPassed c t ∧ clientAddressPassedInTracking env c t = .ok false) := by
  rcases clientAddressPassedInTracking_cases env c t with ⟨hfails, -⟩ | hquery
  · rw [hsucceeds] at hfails
    cases hfails
  · exact hquery

omit [Unicode] in
/-- A request of a client that has passed. -/
theorem checkTracking_of_passed (hsucceeds : ∀ statement, env.fails statement = false)
    (hquery : clientAddressPassedInTracking env kwargs.clientAddress t = .ok true) :
    checkTracking settings env kwargs t = (.ok SmtpActions.defaultAction,
      t.update (fun row => row.2.clientAddress = kwargs.clientAddress ∧ row.2.passed = true)
        (Tracking.refresh settings env.now) (Tracking.key_refresh settings env.now)) := by
  unfold checkTracking
  rw [hquery]
  simp only [hsucceeds, Bool.false_eq_true, if_false]

omit [Unicode] in
/-- The rows of a client that have passed are refreshed in both tables. -/
theorem Related.refresh {now : ℤ} (h : Related now t t') {c : Str}
    (hlive : ∀ row ∈ t.rows, row.2.clientAddress = c → row.2.passed = true →
      now ≤ row.2.recordExpired) :
    Related now
      (t.update (fun row => row.2.clientAddress = c ∧ row.2.passed = true)
        (Tracking.refresh settings now) (Tracking.key_refresh settings now))
      (t'.update (fun row => row.2.clientAddress = c ∧ row.2.passed = true)
        (Tracking.refresh settings now) (Tracking.key_refresh settings now)) := by
  refine Sql.Table.Less.update h ?_ ?_
  · intro row _ row' _ hkey _ hsame
    have hclient : row.2.clientAddress = row'.2.clientAddress :=
      congrArg (fun k : Triplet => k.2.2) hkey
    simp only [Sql.Table.updated, hclient, hsame.2.2]
    split_ifs
    · exact ⟨hsame.1, rfl, hsame.2.2⟩
    · exact hsame
  · intro row hrow _ hexpired
    unfold Sql.Table.updated
    rw [if_neg]
    · exact hexpired
    · intro hp
      obtain ⟨hclient, hpassed⟩ := of_decide_eq_true hp
      exact absurd hexpired (not_lt.mpr (hlive row hrow hclient hpassed))

/-- **A request that finds no stale row is replied to alike.** -/
theorem request_related (hsucceeds : ∀ statement, env.fails statement = false)
    (h : Related env.now t t') (hfresh : ¬ FindsStale settings (.request (env, kwargs)) t) :
    (restriction settings env kwargs t').1 = (restriction settings env kwargs t).1 ∧
      Related env.now (restriction settings env kwargs t).2
        (restriction settings env kwargs t').2 := by
  unfold restriction
  cases hbypass : bypass settings env kwargs with
  | error e => exact ⟨rfl, h⟩
  | ok b =>
    cases b with
    | true => exact ⟨rfl, h⟩
    | false =>
      simp only
      have htracked : isTracked settings (env, kwargs) = true := by
        unfold isTracked
        rw [hbypass]
      have hlive : ∀ row ∈ t.rows, row.2.clientAddress = kwargs.clientAddress →
          row.2.passed = true → env.now ≤ row.2.recordExpired := by
        intro row hrow hclient hpassed
        by_contra hexpired
        exact hfresh ⟨htracked, row, hrow, hclient, hpassed, not_le.mp hexpired⟩
      have hiff := h.hasPassed_iff hlive
      rcases clientAddressPassedInTracking_of_succeeds hsucceeds kwargs.clientAddress t with
        ⟨hpassed, hquery⟩ | ⟨hnot, hquery⟩
      · rcases clientAddressPassedInTracking_of_succeeds hsucceeds kwargs.clientAddress t' with
          ⟨-, hquery'⟩ | ⟨hnot', -⟩
        · rw [checkTracking_of_passed hsucceeds hquery, checkTracking_of_passed hsucceeds hquery']
          exact ⟨rfl, h.refresh hlive⟩
        · exact absurd (hiff.mpr hpassed) hnot'
      · rcases clientAddressPassedInTracking_of_succeeds hsucceeds kwargs.clientAddress t' with
          ⟨hpassed', -⟩ | ⟨-, hquery'⟩
        · exact absurd (hiff.mp hpassed') hnot
        · rw [checkTracking_of_not_passed hquery, checkTracking_of_not_passed hquery']
          obtain ⟨hreply, hrelated⟩ := trackingCheck_related hsucceeds h hnot
          exact ⟨by rw [hreply], hrelated⟩

/-- In training mode, the reply does not depend on the table. -/
theorem reply_of_training (hsucceeds : ∀ statement, env.fails statement = false)
    (htraining : settings.greylistingTrainingMode = true) :
    (restriction settings env kwargs t').1 = (restriction settings env kwargs t).1 := by
  have hdefault : ∀ t, bypass settings env kwargs = .ok false →
      (checkTracking settings env kwargs t).1 = .ok SmtpActions.defaultAction := by
    intro t _
    rcases clientAddressPassedInTracking_of_succeeds hsucceeds kwargs.clientAddress t with
      ⟨-, hquery⟩ | ⟨-, hquery⟩
    · rw [checkTracking_of_passed hsucceeds hquery]
    · rw [checkTracking_of_not_passed hquery, trackingCheck_of_succeeds hsucceeds]
      cases t.find? (tripletOf kwargs) with
      | none => simp only [replyOf, htraining, if_true]
      | some row =>
        simp only
        split_ifs <;> simp only [replyOf, htraining, if_true]
  unfold restriction
  cases hbypass : bypass settings env kwargs with
  | error e => rfl
  | ok b =>
    cases b with
    | true => rfl
    | false => simp only [hdefault t hbypass, hdefault t' hbypass]

end Request

/-! ### A run of the cron job before a request that finds a stale row -/

/-- A row that has passed is the only one of its client. -/
def Settled (t : TrackingTable) : Prop :=
  ∀ row ∈ t.rows, ∀ row' ∈ t.rows, row.2.clientAddress = row'.2.clientAddress →
    row.2.passed = true → row = row'

omit [Unicode] in
/-- An update of other columns keeps a table settled. -/
theorem Settled.update {t : TrackingTable} (h : Settled t) {p : ℕ × Tracking → Bool}
    {f : Tracking → Tracking} {hf : ∀ r, (f r).key = r.key}
    (hclient : ∀ r, (f r).clientAddress = r.clientAddress) (hpassed : ∀ r, (f r).passed = r.passed) :
    Settled (t.update p f hf) := by
  have hcolumns : ∀ r : ℕ × Tracking,
      (if p r then (r.1, f r.2) else r).2.clientAddress = r.2.clientAddress ∧
        (if p r then (r.1, f r.2) else r).2.passed = r.2.passed := by
    intro r
    split_ifs
    · exact ⟨hclient r.2, hpassed r.2⟩
    · exact ⟨rfl, rfl⟩
  intro row hrow row' hrow' hsame hp
  obtain ⟨r, hr, rfl⟩ := List.mem_map.mp hrow
  obtain ⟨r', hr', rfl⟩ := List.mem_map.mp hrow'
  rw [(hcolumns r).1, (hcolumns r').1] at hsame
  rw [(hcolumns r).2] at hp
  rw [h r hr r' hr' hsame hp]

/-- **A request keeps the table settled.** -/
theorem settled_restriction {settings : Settings} {env : Env} {kwargs : PluginKwargs}
    {t : TrackingTable} (hsucceeds : ∀ statement, env.fails statement = false) (h : Settled t) :
    Settled (restriction settings env kwargs t).2 := by
  have hrestricts := restricts settings env kwargs t
  generalize (restriction settings env kwargs t).1 = action at hrestricts
  generalize (restriction settings env kwargs t).2 = t' at hrestricts ⊢
  cases hrestricts with
  | raised hbypass => exact h
  | bypassed hbypass => exact h
  | failed hbypass hfails => exact h
  | passed hbypass hpassed => exact h.update (fun _ => rfl) fun _ => rfl
  | checked hbypass hnot =>
    have hcheck := byTracking settings env kwargs t
    generalize (trackingCheck settings env kwargs t).1 = b at hcheck
    generalize (trackingCheck settings env kwargs t).2 = t' at hcheck ⊢
    cases hcheck with
    | raised hfails => exact h
    | failed hfails => exact h
    | late hrow hkey hlive hblock hlate => exact h
    | reset hrow hkey hexpired => exact h.update (fun _ => rfl) fun _ => rfl
    | block hrow hkey hlive hblocked => exact h.update (fun _ => rfl) fun _ => rfl
    | new hinsert =>
      intro row hrow row' hrow' hsame hp
      rcases (Sql.Table.mem_rows_insert hinsert).mp hrow with hold | rfl
      · rcases (Sql.Table.mem_rows_insert hinsert).mp hrow' with hold' | rfl
        · exact h row hold row' hold' hsame hp
        · exact absurd ⟨row, hold, hsame, hp⟩ hnot
      · cases hp
    | accept hrow hkey hlive hblock hlate =>
      -- what is left of the client is its row that has passed
      have hleft : ∀ row ∈ (acceptTriplet settings env (tripletOf kwargs) kwargs.clientAddress t).rows,
          (row ∈ t.rows ∧ row.2.clientAddress ≠ kwargs.clientAddress) ∨
            ∃ r ∈ t.rows, r.2.key = tripletOf kwargs ∧ row = (r.1, r.2.accept settings env.now) := by
        intro row hmem
        unfold acceptTriplet at hmem
        simp only [hsucceeds, Bool.false_eq_true, if_false] at hmem
        obtain ⟨hmem, hkept⟩ := Sql.Table.mem_rows_delete.mp hmem
        rcases (Sql.Table.mem_rows_update (Tracking.key_accept settings env.now)).mp hmem with
          ⟨hold, -⟩ | ⟨r, hr, hk, rfl⟩
        · refine .inl ⟨hold, fun hclient => ?_⟩
          have hp : row.2.passed = false := Bool.eq_false_iff.mpr fun hp => hnot ⟨row, hold, hclient, hp⟩
          exact of_decide_eq_false hkept ⟨hclient, hp⟩
        · exact .inr ⟨r, hr, of_decide_eq_true hk, rfl⟩
      have hclient : ∀ r : ℕ × Tracking, r.2.key = tripletOf kwargs →
          (r.1, r.2.accept settings env.now).2.clientAddress = kwargs.clientAddress :=
        fun r hk => congrArg (fun k : Triplet => k.2.2) hk
      intro row hmem row' hmem' hsame hp
      rcases hleft row hmem with ⟨hold, hne⟩ | ⟨r, hr, hk, rfl⟩
      · rcases hleft row' hmem' with ⟨hold', -⟩ | ⟨r', -, hk', rfl⟩
        · exact h row hold row' hold' hsame hp
        · exact absurd (hsame.trans (hclient r' hk')) hne
      · rcases hleft row' hmem' with ⟨-, hne⟩ | ⟨r', hr', hk', rfl⟩
        · exact absurd (hsame.symm.trans (hclient r hk)) hne
        · rw [t.eq_of_key_eq hr hr' (hk.trans hk'.symm)]

/-- A run of requests leaves a settled table. -/
theorem settled_after {settings : Settings} {t : TrackingTable} (h : Settled t) {events : List Event}
    (hrequests : ∀ e ∈ events, e.isRequest = true) (hsucceeds : ∀ e ∈ events, Succeeds e) :
    Settled (after (step settings) t events) := by
  induction events generalizing t with
  | nil => exact h
  | cons e events ih =>
    refine ih ?_ (fun e he => hrequests e (List.mem_cons_of_mem _ he))
      fun e he => hsucceeds e (List.mem_cons_of_mem _ he)
    cases e with
    | cleanup now => exact absurd (hrequests _ (List.mem_cons_self ..)) (by simp [Event.isRequest])
    | request call => exact settled_restriction (hsucceeds _ (List.mem_cons_self ..)) h

/-- **A run of the cron job changes the reply** to a request that finds a stale row. -/
theorem reply_after_cleanup {settings : Settings} {env : Env} {kwargs : PluginKwargs}
    {t : TrackingTable} (hlimit : settings.cleanupQuerySizeLimit ≠ 0)
    (htraining : settings.greylistingTrainingMode = false)
    (hsucceeds : ∀ statement, env.fails statement = false) (hsettled : Settled t)
    (hstale : FindsStale settings (.request (env, kwargs)) t) :
    (restriction settings env kwargs t).1 = .ok SmtpActions.defaultAction ∧
      (restriction settings env kwargs
        (CleanupDb.cleanupGreylistingTracking settings env.now t)).1 =
        .ok (actionGreylisting settings) := by
  obtain ⟨htracked, row, hrow, hclient, hpassed, hexpired⟩ := hstale
  have hbypass : bypass settings env kwargs = .ok false := bypass_of_isTracked htracked
  unfold restriction
  simp only [hbypass]
  constructor
  · rcases clientAddressPassedInTracking_of_succeeds hsucceeds kwargs.clientAddress t with
      ⟨-, hquery⟩ | ⟨hnot, -⟩
    · rw [checkTracking_of_passed hsucceeds hquery]
    · exact absurd ⟨row, hrow, hclient, hpassed⟩ hnot
  · have hcleanup : CleanupDb.cleanupGreylistingTracking settings env.now t =
        t.delete fun row => row.2.recordExpired < env.now := CleanupDb.cleanupSqlTable_eq hlimit _ t
    rw [hcleanup]
    -- no row of the client is left
    have hgone : ∀ r ∈ (t.delete fun row => row.2.recordExpired < env.now).rows,
        r.2.clientAddress ≠ kwargs.clientAddress := by
      intro r hmem hc
      obtain ⟨hr, hkept⟩ := Sql.Table.mem_rows_delete.mp hmem
      rw [← hsettled row hrow r hr (hclient.trans hc.symm) hpassed] at hkept
      exact of_decide_eq_false hkept hexpired
    rcases clientAddressPassedInTracking_of_succeeds hsucceeds kwargs.clientAddress
      (t.delete fun row => row.2.recordExpired < env.now) with ⟨⟨r, hr, hc, -⟩, -⟩ | ⟨-, hquery⟩
    · exact absurd hc (hgone r hr)
    · have hnone : (t.delete fun row => row.2.recordExpired < env.now).find? (tripletOf kwargs) =
          none := Sql.Table.find?_eq_none_iff.mpr fun r hr hk =>
        hgone r hr (congrArg (fun k : Triplet => k.2.2) hk)
      rw [checkTracking_of_not_passed hquery, trackingCheck_of_succeeds hsucceeds, hnone]
      simp only [replyOf, htraining, Bool.false_eq_true, if_false]

/-! ### All runs -/

/-- The replies to these requests do not depend on the runs of the cron job between them. -/
def CronIndependent (settings : Settings) (calls : List Call) : Prop :=
  ∀ events events', InOrder events → InOrder events' → requestsOf events = calls →
    requestsOf events' = calls → replies settings events = replies settings events'

omit [Unicode] in
/-- Leaving out the runs of the cron job leaves the requests. -/
theorem filter_isRequest (events : List Event) :
    events.filter Event.isRequest = (requestsOf events).map .request := by
  induction events with
  | nil => rfl
  | cons e events ih =>
    cases e with
    | request call =>
      have hcons : requestsOf (.request call :: events) = call :: requestsOf events := rfl
      rw [List.filter_cons_of_pos rfl, ih, hcons, List.map_cons]
    | cleanup now =>
      have hcons : requestsOf (.cleanup now :: events) = requestsOf events := rfl
      rw [List.filter_cons_of_neg (by simp [Event.isRequest]), ih, hcons]

/-- **The replies are those without any run of the cron job**, in training mode or where no request
finds a stale row. -/
theorem replies_eq_of_requests {settings : Settings} {events : List Event} (horder : InOrder events)
    (hsucceeds : ∀ e ∈ events, Succeeds e)
    (hfresh : settings.greylistingTrainingMode = true ∨
      Throughout (step settings) (fun e t => ¬ FindsStale settings e t) Sql.Table.empty
        ((requestsOf events).map .request)) :
    replies settings events = replies settings ((requestsOf events).map .request) := by
  unfold replies
  rw [← filter_isRequest] at hfresh ⊢
  rcases hfresh with htraining | hfresh
  · refine answers_filter Event.time Event.isRequest Succeeds (fun _ _ => True)
      (fun _ _ _ => True) (fun _ _ _ _ _ _ => trivial) ?_ ?_ (fun _ _ => trivial) horder hsucceeds ?_
    · intro e t t' he _
      cases e with
      | request call => cases he
      | cleanup now => exact ⟨rfl, trivial⟩
    · intro e t t' hok he _ _
      cases e with
      | cleanup now => cases he
      | request call => exact ⟨congrArg some (reply_of_training hok htraining), trivial⟩
    · exact throughout_of_forall (fun _ _ => trivial) _ _
  · refine answers_filter Event.time Event.isRequest Succeeds _ Related
      (fun _ _ _ _ hle h => h.mono hle) ?_ ?_
      (fun _ _ => Sql.Table.Less.refl (fun _ => ⟨rfl, rfl, rfl⟩) _) horder hsucceeds hfresh
    · intro e t t' he h
      cases e with
      | request call => cases he
      | cleanup now => exact ⟨rfl, Related.cleanup h⟩
    · intro e t t' hok he hfresh h
      cases e with
      | cleanup now => cases he
      | request call =>
        obtain ⟨hreply, hrelated⟩ := request_related hok h hfresh
        exact ⟨congrArg some hreply, hrelated⟩

omit [Unicode] in
/-- The cron job may run just before a request. -/
theorem InOrder.insert_cleanup {before rest : List Event} {env : Env} {kwargs : PluginKwargs}
    (h : InOrder (before ++ .request (env, kwargs) :: rest)) :
    InOrder (before ++ .cleanup env.now :: .request (env, kwargs) :: rest) := by
  unfold InOrder at h ⊢
  rw [List.map_append, List.pairwise_append] at h ⊢
  obtain ⟨hbefore, hafter, hacross⟩ := h
  have hhead := List.pairwise_cons.mp hafter
  refine ⟨hbefore, List.pairwise_cons.mpr ⟨?_, hafter⟩, ?_⟩
  · intro x hx
    rcases List.mem_cons.mp hx with rfl | hx
    · exact le_refl _
    · exact hhead.1 x hx
  · intro x hx y hy
    rcases List.mem_cons.mp hy with rfl | hy
    · exact hacross x hx _ (List.mem_cons_self ..)
    · exact hacross x hx y hy

/-- A request that finds a stale row is answered differently when the cron job runs just before it. -/
theorem replies_ne_of_findsStale {settings : Settings} (hlimit : settings.cleanupQuerySizeLimit ≠ 0)
    (htraining : settings.greylistingTrainingMode = false) {before rest : List Event} {env : Env}
    {kwargs : PluginKwargs} (hrequests : ∀ e ∈ before, e.isRequest = true)
    (hsucceeds : ∀ e ∈ before, Succeeds e) (hok : ∀ statement, env.fails statement = false)
    (hfinds : FindsStale settings (.request (env, kwargs))
      (after (step settings) Sql.Table.empty before)) :
    replies settings (before ++ .request (env, kwargs) :: rest) ≠
      replies settings (before ++ .cleanup env.now :: .request (env, kwargs) :: rest) := by
  intro hsame
  have hsettled : Settled (after (step settings) Sql.Table.empty before) :=
    settled_after (fun _ hrow => by cases hrow) hrequests hsucceeds
  obtain ⟨hplain, hgreylisted⟩ := reply_after_cleanup hlimit htraining hok hsettled hfinds
  have hhead : (step settings (.request (env, kwargs))
      (after (step settings) Sql.Table.empty before)).1 =
      some (.ok SmtpActions.defaultAction) := congrArg some hplain
  have hhead' : (step settings (.request (env, kwargs)) (step settings (.cleanup env.now)
      (after (step settings) Sql.Table.empty before)).2).1 =
      some (.ok (actionGreylisting settings)) := congrArg some hgreylisted
  unfold replies at hsame
  rw [answers_append, answers_append, List.append_cancel_left_eq, answers_cons, answers_cons,
    answers_cons, hhead, hhead'] at hsame
  have haction := Except.ok.inj (List.cons.inj hsame).1
  exact actionGreylisting_ne settings haction.symm

/-- **Greylisting does not depend on the cron job** exactly in training mode, or when no request
finds an expired row of its client that has passed. -/
theorem cronIndependent_iff {settings : Settings} (hlimit : settings.cleanupQuerySizeLimit ≠ 0)
    {calls : List Call} (horder : (calls.map fun call => call.1.now).Pairwise (· ≤ ·))
    (hsucceeds : ∀ call ∈ calls, ∀ statement, call.1.fails statement = false) :
    CronIndependent settings calls ↔ settings.greylistingTrainingMode = true ∨
      Throughout (step settings) (fun e t => ¬ FindsStale settings e t) Sql.Table.empty
        (calls.map .request) := by
  have hevents : ∀ {events}, requestsOf events = calls → ∀ e ∈ events, Succeeds e := by
    rintro events rfl e he
    cases e with
    | cleanup now => trivial
    | request call => exact hsucceeds call (List.mem_filterMap.mpr ⟨_, he, rfl⟩)
  constructor
  · intro hindependent
    by_contra hnot
    obtain ⟨htraining, hstale⟩ := not_or.mp hnot
    obtain ⟨before, e, rest, heq, -, hfinds⟩ := exists_first_of_not_throughout hstale
    have hrequests : ∀ e' ∈ before ++ e :: rest, e'.isRequest = true := by
      rw [← heq]
      intro e' he'
      obtain ⟨call, -, rfl⟩ := List.mem_map.mp he'
      rfl
    have hcalls : requestsOf (before ++ e :: rest) = calls := by
      rw [← heq, requestsOf, List.filterMap_map]
      exact List.filterMap_some
    have htimes : InOrder (before ++ e :: rest) := by
      unfold InOrder
      rw [← heq, List.map_map]
      exact horder
    cases e with
    | cleanup now => exact absurd (hrequests (.cleanup now) (by simp)) (by simp [Event.isRequest])
    | request call =>
      obtain ⟨env, kwargs⟩ := call
      -- the cron job runs just before the request that finds the stale row
      have hcleaned : requestsOf (before ++ .cleanup env.now :: .request (env, kwargs) :: rest) =
          calls := by
        rw [← hcalls]
        simp [requestsOf]
      exact replies_ne_of_findsStale hlimit (Bool.eq_false_iff.mpr htraining)
        (fun e he => hrequests e (List.mem_append_left _ he))
        (fun e he => hevents hcalls e (List.mem_append_left _ he))
        (hevents hcalls (.request (env, kwargs)) (by simp)) (not_not.mp hfinds)
        (hindependent _ _ htimes htimes.insert_cleanup hcalls hcleaned)
  · intro hfresh events events' horder₁ horder₂ hcalls hcalls'
    have h := replies_eq_of_requests horder₁ (hevents hcalls) (hcalls ▸ hfresh)
    have h' := replies_eq_of_requests horder₂ (hevents hcalls') (hcalls' ▸ hfresh)
    rw [h, h', hcalls, hcalls']

omit [Unicode] in
/-- A client that comes back within the month that its record lives. -/
theorem cronIndependent_within_a_month :
    letI := asciiUnicode
    let settings : Settings := { greylistingBypassSpf := false }
    let kwargs : PluginKwargs :=
      { smtpSessionData := [], sender := "a@b.com", senderWithoutExt := "a@b.com",
        recipient := "c@d.com", recipientWithoutExt := "c@d.com", clientAddress := "1.2.3.4",
        senderDomain := "b.com", recipientDomain := "d.com", saslUsername := [],
        saslUsernameDomain := [] }
    let call := fun now : ℤ => ((⟨now, [], [], [⟨"@.", 0, "@.", 0, 1⟩], fun _ => .ok none,
      fun _ _ => .ok false, fun _ => false⟩, kwargs) : Call)
    CronIndependent settings [call 0, call 900, call 2592900] := by
  let := asciiUnicode
  intro settings kwargs call
  refine (@cronIndependent_iff asciiUnicode settings (by decide) _ (by decide) ?_).mpr (.inr ?_)
  · intro c hc statement
    simp only [List.mem_cons, List.not_mem_nil, or_false] at hc
    rcases hc with rfl | rfl | rfl <;> rfl
  · refine ⟨?_, ?_, ?_, trivial⟩ <;> (unfold FindsStale; decide)

omit [Unicode] in
/-- A client that comes back a second after its record has expired: it is still let through without
a run of the cron job, and greylisted after one. -/
theorem passed_after_expiry :
    letI := asciiUnicode
    let settings : Settings := { greylistingBypassSpf := false }
    let kwargs : PluginKwargs :=
      { smtpSessionData := [], sender := "a@b.com", senderWithoutExt := "a@b.com",
        recipient := "c@d.com", recipientWithoutExt := "c@d.com", clientAddress := "1.2.3.4",
        senderDomain := "b.com", recipientDomain := "d.com", saslUsername := [],
        saslUsernameDomain := [] }
    let call := fun now : ℤ => ((⟨now, [], [], [⟨"@.", 0, "@.", 0, 1⟩], fun _ => .ok none,
      fun _ _ => .ok false, fun _ => false⟩, kwargs) : Call)
    ¬ CronIndependent settings [call 0, call 900, call 2592901] := by
  let := asciiUnicode
  intro settings kwargs call hindependent
  have h := hindependent [.request (call 0), .request (call 900), .request (call 2592901)]
    [.request (call 0), .request (call 900), .cleanup 2592901, .request (call 2592901)]
    (by unfold InOrder; decide) (by unfold InOrder; decide) rfl rfl
  have hplain : (replies settings [.request (call 0), .request (call 900),
      .request (call 2592901)]).map Except.toOption ≠ (replies settings [.request (call 0),
        .request (call 900), .cleanup 2592901, .request (call 2592901)]).map Except.toOption := by
    decide
  exact hplain (congrArg (List.map Except.toOption) h)

end IRedAPD.Greylisting

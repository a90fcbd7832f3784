/-
  One request to the greylisting plugin, and runs of requests and cleanups.

  `Restricts` and `ByTracking` list what a request can do, branch by branch of
  the source; from them, `Leaves` says where every row comes from that a request
  leaves, and `exists_row_of_accepts` what there is when one is accepted.
-/
import IRedAPD.Equiv.Tools.CleanupDb
import IRedAPD.History

namespace IRedAPD.Greylisting

open Py

variable [Unicode]

/-! ### Runs -/

/-- A call of `restriction`. -/
abbrev Call := Env × PluginKwargs

/-- What happens to `greylisting_tracking`. -/
inductive Event where
  | request (call : Call)
  /-- a run of `cleanup_db.py` -/
  | cleanup (now : ℤ)

/-- The time of an event. -/
def Event.time : Event → ℤ
  | .request call => call.1.now
  | .cleanup now => now

/-- An event, with the reply to a request. -/
def step (settings : Settings) : Event → TrackingTable → Option (Except Exn Str) × TrackingTable
  | .request call, t =>
    let (action, t) := restriction settings call.1 call.2 t
    (some action, t)
  | .cleanup now, t => (none, CleanupDb.cleanupGreylistingTracking settings now t)

/-- The triplet of a request. -/
def tripletOf (kwargs : PluginKwargs) : Triplet :=
  (kwargs.senderWithoutExt, kwargs.recipientWithoutExt, kwargs.clientAddress)

/-! ### The steps before the tracking check -/

omit [Unicode] in
theorem ok_bind {α β : Type} (a : α) (f : α → Except Exn β) : (Except.ok a >>= f) = f a := rfl

/-- What is known of the client of a request that reaches the tracking check. -/
theorem of_bypass_eq_false {settings : Settings} {env : Env} {kwargs : PluginKwargs}
    (h : bypass settings env kwargs = .ok false) :
    isTrustedClient settings kwargs.clientAddress = .ok false ∧
      ∃ ip, ipAddress kwargs.clientAddress = some ip := by
  unfold bypass at h
  by_cases hsasl : kwargs.saslUsername ≠ []
  · rw [if_pos hsasl] at h
    cases h
  rw [if_neg hsasl] at h
  cases htrusted : isTrustedClient settings kwargs.clientAddress with
  | error e =>
    rw [htrusted] at h
    cases h
  | ok trusted =>
    rw [htrusted, ok_bind] at h
    cases trusted with
    | true => cases h
    | false =>
      refine ⟨rfl, ?_⟩
      rw [if_neg Bool.false_ne_true] at h
      cases htarget : env.getAliasTargetDomain kwargs.recipientDomain with
      | error e =>
        rw [htarget] at h
        cases h
      | ok target =>
        rw [htarget, ok_bind] at h
        cases hip : ipAddress kwargs.clientAddress with
        | none =>
          rw [hip] at h
          cases h
        | some ip => exact ⟨ip, rfl⟩

/-! ### What one request does -/

/-- The client has a row that has passed. -/
def HasPassed (c : Str) (t : TrackingTable) : Prop :=
  ∃ row ∈ t.rows, row.2.clientAddress = c ∧ row.2.passed = true

omit [Unicode] in
/-- The query for passed rows, unless it fails. -/
theorem clientAddressPassedInTracking_cases (env : Env) (c : Str) (t : TrackingTable) :
    (env.fails .selectPassed = true ∧
      clientAddressPassedInTracking env c t = .error .operationalError) ∨
    (HasPassed c t ∧ clientAddressPassedInTracking env c t = .ok true) ∨
    (¬ HasPassed c t ∧ clientAddressPassedInTracking env c t = .ok false) := by
  unfold clientAddressPassedInTracking HasPassed
  by_cases hfails : env.fails .selectPassed = true
  · rw [if_pos hfails]
    exact .inl ⟨hfails, rfl⟩
  · rw [if_neg hfails]
    right
    cases hany : t.rows.any fun row => row.2.clientAddress = c ∧ row.2.passed = true with
    | true =>
      obtain ⟨row, hrow, hp⟩ := List.any_eq_true.mp hany
      exact .inl ⟨⟨row, hrow, of_decide_eq_true hp⟩, rfl⟩
    | false =>
      refine .inr ⟨?_, rfl⟩
      rintro ⟨row, hrow, hp⟩
      exact List.any_eq_false.mp hany row hrow (decide_eq_true hp)

section Request

variable (settings : Settings) (env : Env) (kwargs : PluginKwargs) (t : TrackingTable)

/-- `_should_be_greylisted_by_tracking` of a request. -/
abbrev trackingCheck : Except Exn Bool × TrackingTable :=
  shouldBeGreylistedByTracking settings env kwargs.senderWithoutExt kwargs.senderDomain
    kwargs.recipientWithoutExt kwargs.recipientDomain kwargs.clientAddress t

/-- The row of a request whose triplet is seen for the first time. -/
abbrev newTrackingOf : Tracking :=
  newTracking settings env.now kwargs.senderWithoutExt kwargs.senderDomain
    kwargs.recipientWithoutExt kwargs.recipientDomain kwargs.clientAddress

/-- What `_should_be_greylisted_by_tracking` returns and the table it leaves. -/
inductive ByTracking : Except Exn Bool → TrackingTable → Prop
  | raised (hfails : ∃ statement, env.fails statement = true) :
    ByTracking (.error .operationalError) t
  | failed (hfails : ∃ statement, env.fails statement = true) : ByTracking (.ok true) t
  | new {t' : TrackingTable} (hinsert : t.insert (newTrackingOf settings env kwargs) = some t') :
    ByTracking (.ok true) t'
  | reset {row : ℕ × Tracking} (hrow : row ∈ t.rows) (hkey : row.2.key = tripletOf kwargs)
      (hexpired : row.2.recordExpired < env.now) :
    ByTracking (.ok true) (updateTriplet t (tripletOf kwargs) (Tracking.reset settings env.now)
      (Tracking.key_reset settings env.now))
  | block {row : ℕ × Tracking} (hrow : row ∈ t.rows) (hkey : row.2.key = tripletOf kwargs)
      (hlive : env.now ≤ row.2.recordExpired) (hblocked : env.now < row.2.blockExpired) :
    ByTracking (.ok true) (updateTriplet t (tripletOf kwargs) Tracking.block Tracking.key_block)
  | late {row : ℕ × Tracking} (hrow : row ∈ t.rows) (hkey : row.2.key = tripletOf kwargs)
      (hlive : env.now ≤ row.2.recordExpired) (hblock : row.2.blockExpired ≤ env.now)
      (hlate : authTripletExpire settings env.now < row.2.recordExpired) :
    ByTracking (.ok false) t
  | accept {row : ℕ × Tracking} (hrow : row ∈ t.rows) (hkey : row.2.key = tripletOf kwargs)
      (hlive : env.now ≤ row.2.recordExpired) (hblock : row.2.blockExpired ≤ env.now)
      (hlate : row.2.recordExpired ≤ authTripletExpire settings env.now) :
    ByTracking (.ok false) (acceptTriplet settings env (tripletOf kwargs) kwargs.clientAddress t)

omit [Unicode] in
/-- **The tracking check of a request.** -/
theorem byTracking : ByTracking settings env kwargs t (trackingCheck settings env kwargs t).1
    (trackingCheck settings env kwargs t).2 := by
  unfold trackingCheck shouldBeGreylistedByTracking
  dsimp only
  cases hfound : (if env.fails .selectTracking then none
    else t.find? (kwargs.senderWithoutExt, kwargs.recipientWithoutExt, kwargs.clientAddress)) with
  | none =>
    simp only
    by_cases hfails : env.fails .insertTracking = true
    · rw [if_pos hfails]
      exact .failed ⟨_, hfails⟩
    · rw [if_neg hfails]
      cases hinsert : t.insert (newTrackingOf settings env kwargs) with
      | some t' => exact .new hinsert
      | none =>
        -- the triplet exists, so it is the query that has failed
        refine .failed ⟨.selectTracking, ?_⟩
        by_contra hselect
        rw [if_neg hselect] at hfound
        exact Sql.Table.insert_eq_none_iff.mp hinsert hfound
  | some row =>
    split_ifs at hfound
    obtain ⟨hrow, hkey⟩ := Sql.Table.find?_eq_some_iff.mp hfound
    simp only
    by_cases hexpired : row.2.recordExpired < env.now
    · rw [if_pos hexpired]
      by_cases hfails : env.fails .updateExpired = true
      · rw [if_pos hfails]
        exact .raised ⟨_, hfails⟩
      · rw [if_neg hfails]
        exact .reset hrow hkey hexpired
    rw [if_neg hexpired]
    by_cases hblocked : env.now < row.2.blockExpired
    · rw [if_pos hblocked]
      unfold updateBlocked
      by_cases hfails : (env.fails .updateBlocked && env.fails .updateBlockedAgain) = true
      · rw [if_pos hfails]
        exact .raised ⟨_, (Bool.and_eq_true_iff.mp hfails).1⟩
      · rw [if_neg hfails]
        exact .block hrow hkey (not_lt.mp hexpired) hblocked
    rw [if_neg hblocked]
    by_cases hlate : authTripletExpire settings env.now < row.2.recordExpired
    · rw [if_pos hlate]
      exact .late hrow hkey (not_lt.mp hexpired) (not_lt.mp hblocked) hlate
    · rw [if_neg hlate]
      exact .accept hrow hkey (not_lt.mp hexpired) (not_lt.mp hblocked) (not_lt.mp hlate)

/-- The reply to what the tracking check returns. -/
def replyOf : Except Exn Bool → Except Exn Str
  | .error e => .error e
  | .ok true =>
    .ok (if settings.greylistingTrainingMode then SmtpActions.defaultAction
      else actionGreylisting settings)
  | .ok false => .ok SmtpActions.defaultAction

variable {settings env kwargs t} in
omit [Unicode] in
/-- A request of a client that has not passed is replied to as the tracking check says. -/
theorem checkTracking_of_not_passed
    (hquery : clientAddressPassedInTracking env kwargs.clientAddress t = .ok false) :
    checkTracking settings env kwargs t =
      (replyOf settings (trackingCheck settings env kwargs t).1,
        (trackingCheck settings env kwargs t).2) := by
  unfold checkTracking
  rw [hquery]
  simp only
  rcases hcheck : trackingCheck settings env kwargs t with ⟨e | b, t'⟩
  · unfold trackingCheck at hcheck
    rw [hcheck]
    rfl
  · unfold trackingCheck at hcheck
    rw [hcheck]
    cases b with
    | false => rfl
    | true =>
      simp only [replyOf]
      split_ifs <;> rfl

/-- What `restriction` returns and the table it leaves. -/
inductive Restricts : Except Exn Str → TrackingTable → Prop
  | raised {e : Exn} (hbypass : bypass settings env kwargs = .error e) : Restricts (.error e) t
  | bypassed (hbypass : bypass settings env kwargs = .ok true) :
    Restricts (.ok SmtpActions.defaultAction) t
  | failed (hbypass : bypass settings env kwargs = .ok false)
      (hfails : ∃ statement, env.fails statement = true) : Restricts (.error .operationalError) t
  | passed (hbypass : bypass settings env kwargs = .ok false)
      (hpassed : HasPassed kwargs.clientAddress t) :
    Restricts (.ok SmtpActions.defaultAction)
      (t.update (fun row => row.2.clientAddress = kwargs.clientAddress ∧ row.2.passed = true)
        (Tracking.refresh settings env.now) (Tracking.key_refresh settings env.now))
  | checked (hbypass : bypass settings env kwargs = .ok false)
      (hnot : ¬ HasPassed kwargs.clientAddress t) :
    Restricts (replyOf settings (trackingCheck settings env kwargs t).1)
      (trackingCheck settings env kwargs t).2

/-- **A request.** -/
theorem restricts : Restricts settings env kwargs t (restriction settings env kwargs t).1
    (restriction settings env kwargs t).2 := by
  unfold restriction
  cases hbypass : bypass settings env kwargs with
  | error e => exact .raised hbypass
  | ok b =>
    cases b with
    | true => exact .bypassed hbypass
    | false =>
      simp only
      rcases clientAddressPassedInTracking_cases env kwargs.clientAddress t with
        ⟨hfails, hquery⟩ | ⟨hpassed, hquery⟩ | ⟨hnot, hquery⟩
      · unfold checkTracking
        rw [hquery]
        exact .failed hbypass ⟨_, hfails⟩
      · unfold checkTracking
        rw [hquery]
        simp only
        by_cases hfails : env.fails .updatePassed = true
        · rw [if_pos hfails]
          exact .failed hbypass ⟨_, hfails⟩
        · rw [if_neg hfails]
          exact .passed hbypass hpassed
      · rw [checkTracking_of_not_passed hquery]
        exact .checked hbypass hnot

end Request

/-! ### The rows of one request -/

/-- Where a row comes from that a request leaves. -/
inductive Leaves (settings : Settings) (env : Env) (kwargs : PluginKwargs) (t : TrackingTable) :
    Tracking → Prop
  | keep {row : ℕ × Tracking} (hrow : row ∈ t.rows) : Leaves settings env kwargs t row.2
  | refresh {row : ℕ × Tracking} (hrow : row ∈ t.rows) (hpassed : row.2.passed = true) :
    Leaves settings env kwargs t (row.2.refresh settings env.now)
  | new : Leaves settings env kwargs t (newTrackingOf settings env kwargs)
  | reset {row : ℕ × Tracking} (hrow : row ∈ t.rows) (hkey : row.2.key = tripletOf kwargs)
      (hpassed : row.2.passed = false) : Leaves settings env kwargs t (row.2.reset settings env.now)
  | block {row : ℕ × Tracking} (hrow : row ∈ t.rows) : Leaves settings env kwargs t row.2.block
  | accept {row : ℕ × Tracking} (hrow : row ∈ t.rows) (hkey : row.2.key = tripletOf kwargs)
      (hblock : row.2.blockExpired ≤ env.now) :
    Leaves settings env kwargs t (row.2.accept settings env.now)

omit [Unicode] in
/-- The rows an update of a triplet leaves. -/
theorem mem_rows_updateTriplet {t : TrackingTable} {k : Triplet} {f : Tracking → Tracking}
    (hf : ∀ r, (f r).key = r.key) {row : ℕ × Tracking} (h : row ∈ (updateTriplet t k f hf).rows) :
    row ∈ t.rows ∨ ∃ r ∈ t.rows, r.2.key = k ∧ row.2 = f r.2 := by
  rcases (Sql.Table.mem_rows_update hf).mp h with ⟨hrow, -⟩ | ⟨r, hr, hk, rfl⟩
  · exact .inl hrow
  · exact .inr ⟨r, hr, of_decide_eq_true hk, rfl⟩

omit [Unicode] in
/-- The rows that are left when a triplet has passed. -/
theorem mem_rows_acceptTriplet {settings : Settings} {env : Env} {k : Triplet} {c : Str}
    {t : TrackingTable} {row : ℕ × Tracking}
    (h : row ∈ (acceptTriplet settings env k c t).rows) :
    row ∈ t.rows ∨ ∃ r ∈ t.rows, r.2.key = k ∧ row.2 = r.2.accept settings env.now := by
  unfold acceptTriplet at h
  simp only at h
  have hupdated : row ∈ (if env.fails .updateAccepted then t else
      updateTriplet t k (Tracking.accept settings env.now)
        (Tracking.key_accept settings env.now)).rows := by
    by_cases hdelete : env.fails .deleteTracking = true
    · rw [if_pos hdelete] at h
      exact h
    · rw [if_neg hdelete] at h
      exact (Sql.Table.mem_rows_delete.mp h).1
  split_ifs at hupdated
  · exact .inl hupdated
  · exact mem_rows_updateTriplet (Tracking.key_accept settings env.now) hupdated

/-- **The rows a request leaves.** -/
theorem leaves_of_mem_restriction {settings : Settings} {env : Env} {kwargs : PluginKwargs}
    {t : TrackingTable} {row : ℕ × Tracking} (h : row ∈ (restriction settings env kwargs t).2.rows) :
    Leaves settings env kwargs t row.2 := by
  have hrestricts := restricts settings env kwargs t
  generalize (restriction settings env kwargs t).1 = action at hrestricts
  generalize (restriction settings env kwargs t).2 = t' at h hrestricts
  cases hrestricts with
  | raised hbypass => exact .keep h
  | bypassed hbypass => exact .keep h
  | failed hbypass hfails => exact .keep h
  | passed hbypass hpassed =>
    rcases (Sql.Table.mem_rows_update (Tracking.key_refresh settings env.now)).mp h with
      ⟨hold, -⟩ | ⟨r, hr, hp, rfl⟩
    · exact .keep hold
    · exact .refresh hr (of_decide_eq_true hp).2
  | checked hbypass hnot =>
    have hcheck := byTracking settings env kwargs t
    generalize (trackingCheck settings env kwargs t).1 = b at hcheck
    generalize (trackingCheck settings env kwargs t).2 = t' at h hcheck
    -- a row of the triplet is one of the client, which has not passed
    have hpassed : ∀ r ∈ t.rows, r.2.key = tripletOf kwargs → r.2.passed = false := fun r hr hk =>
      Bool.eq_false_iff.mpr fun hp => hnot ⟨r, hr, congrArg (fun k : Triplet => k.2.2) hk, hp⟩
    cases hcheck with
    | raised hfails => exact .keep h
    | failed hfails => exact .keep h
    | new hinsert =>
      rcases (Sql.Table.mem_rows_insert hinsert).mp h with hold | rfl
      · exact .keep hold
      · exact .new
    | reset hrow hkey hexpired =>
      rcases mem_rows_updateTriplet (Tracking.key_reset settings env.now) h with
        hold | ⟨r, hr, hk, heq⟩
      · exact .keep hold
      · rw [heq]
        exact .reset hr hk (hpassed r hr hk)
    | block hrow hkey hlive hblocked =>
      rcases mem_rows_updateTriplet Tracking.key_block h with hold | ⟨r, hr, -, heq⟩
      · exact .keep hold
      · rw [heq]
        exact .block hr
    | late hrow hkey hlive hblock hlate => exact .keep h
    | accept hrow hkey hlive hblock hlate =>
      rcases mem_rows_acceptTriplet h with hold | ⟨r, hr, hk, heq⟩
      · exact .keep hold
      · rw [heq]
        refine .accept hr hk ?_
        rw [t.eq_of_key_eq hr hrow (hk.trans hkey.symm)]
        exact hblock

/-! ### The reply to one request -/

omit [Unicode] in
theorem actionGreylisting_ne (settings : Settings) :
    actionGreylisting settings ≠ SmtpActions.defaultAction := by
  intro h
  have hhead : some '4' = some 'D' := congrArg List.head? h
  exact absurd hhead (by decide)

/-- **What there is when a request is accepted** that is not bypassed. -/
theorem exists_row_of_accepts {settings : Settings} {env : Env} {kwargs : PluginKwargs}
    {t : TrackingTable} (htraining : settings.greylistingTrainingMode = false)
    (hbypass : bypass settings env kwargs = .ok false)
    (haccepts : (restriction settings env kwargs t).1 = .ok SmtpActions.defaultAction) :
    HasPassed kwargs.clientAddress t ∨
      ∃ row ∈ t.rows, row.2.key = tripletOf kwargs ∧ row.2.blockExpired ≤ env.now := by
  have hrestricts := restricts settings env kwargs t
  rw [haccepts] at hrestricts
  generalize (restriction settings env kwargs t).2 = t' at hrestricts
  generalize haction : Except.ok SmtpActions.defaultAction = action at hrestricts
  cases hrestricts with
  | raised hbypass' =>
    rw [hbypass] at hbypass'
    cases hbypass'
  | bypassed hbypass' =>
    rw [hbypass] at hbypass'
    cases hbypass'
  | failed _ hfails => cases haction
  | passed _ hpassed => exact .inl hpassed
  | checked _ hnot =>
    have hcheck := byTracking settings env kwargs t
    generalize (trackingCheck settings env kwargs t).1 = b at hcheck haction
    generalize (trackingCheck settings env kwargs t).2 = t' at hcheck
    -- a message that is greylisted is not answered `DUNNO`
    have hnotTrue : b ≠ .ok true := by
      rintro rfl
      rw [replyOf, htraining, if_neg Bool.false_ne_true] at haction
      exact actionGreylisting_ne settings (Except.ok.inj haction).symm
    cases hcheck with
    | raised hfails => cases haction
    | failed hfails => exact absurd rfl hnotTrue
    | new hinsert => exact absurd rfl hnotTrue
    | reset hrow hkey hexpired => exact absurd rfl hnotTrue
    | block hrow hkey hlive hblocked => exact absurd rfl hnotTrue
    | late hrow hkey hlive hblock hlate => exact .inr ⟨_, hrow, hkey, hblock⟩
    | accept hrow hkey hlive hblock hlate => exact .inr ⟨_, hrow, hkey, hblock⟩

end IRedAPD.Greylisting

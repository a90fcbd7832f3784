/-
  The keys of `throttle_tracking` that a call writes and the keys it reads.

  What is written is computed from the account of a setting once it decides a
  tracked rule (`writes_iff`), what is read from the client and the user while
  the settings are tried (`mem_trackingKeys`).  The two agree but for settings
  with a wildcard account, whose records no call ever finds.
-/
import IRedAPD.Equiv.Plugins.Throttle.Step
import IRedAPD.History

namespace IRedAPD.Throttle

open Py History

variable [Unicode]

/-! ### What is written -/

/-- `sql_inserts` and `sql_updates` of a call, `none` when the message does not pass the checks or
there is no setting for it. -/
def recordingOf (settings : Settings) (throttle : List Setting) (call : Call) (t : TrackingTable) :
    Option Recording :=
  match possibleAddrs settings call.1 call.2 with
  | .error _ => none
  | .ok addrs =>
    let sel := selection call.2 (throttleRecords throttle (throttleKind call.2) addrs)
    let ld := loadedFor call.1.now call.2 sel t
    if call.1.fails .selectThrottle || sel.tSettings.isEmpty || (checkMessage sel call.2).isSome ||
        call.1.fails .selectTracking ||
        ((maxMsgsExceeded call.1 call.2 ld).or (maxQuotaExceeded call.1 ld)).isSome then none
    else some (collect call.1.now call.2 ld)

/-- The statements of a call are those of its `sql_inserts` and `sql_updates`. -/
theorem applyThrottle_of_recordingOf {settings : Settings} {throttle : List Setting} {call : Call}
    {t : TrackingTable} {rec : Recording}
    (hrec : recordingOf settings throttle call t = some rec) :
    applyThrottle settings throttle call t = record call.1 rec t := by
  obtain ⟨env, args⟩ := call
  unfold recordingOf at hrec
  unfold applyThrottle
  simp only at hrec ⊢
  cases haddrs : possibleAddrs settings env args with
  | error e =>
    rw [haddrs] at hrec
    cases hrec
  | ok addrs =>
    rw [haddrs] at hrec
    simp only at hrec ⊢
    set sel := selection args (throttleRecords throttle (throttleKind args) addrs)
    split_ifs at hrec with hchecks
    simp only [Bool.or_eq_true, not_or, Bool.not_eq_true, Option.isSome_eq_false_iff,
      Option.isNone_iff_eq_none] at hchecks
    obtain ⟨⟨⟨⟨hselect, hempty⟩, hmessage⟩, htracking⟩, hexceeded⟩ := hchecks
    rw [hselect, hempty, hmessage, ← Option.some.inj hrec]
    simp only [Bool.false_eq_true, if_false]
    rw [applyTracking_eq htracking, hexceeded]

/-- The statements of a call that comes to the tracking data and is not rejected. -/
theorem Reaches.recordingOf_eq {settings : Settings} {throttle : List Setting} {env : Env} {args : Args}
    {sel : Selection} (h : Reaches settings throttle env args sel) (t : TrackingTable) :
    recordingOf settings throttle (env, args) t =
      if ((maxMsgsExceeded env args (loadedFor env.now args sel t)).or
        (maxQuotaExceeded env (loadedFor env.now args sel t))).isSome then none
      else some (collect env.now args (loadedFor env.now args sel t)) := by
  obtain ⟨addrs, haddrs, rfl⟩ := h.addrs
  have hempty : (selection args (throttleRecords throttle (throttleKind args) addrs)).tSettings.isEmpty =
      false := by
    rw [Bool.eq_false_iff]
    exact fun hempty => h.nonempty (List.isEmpty_iff.mp hempty)
  unfold recordingOf
  simp only [haddrs, h.selectThrottle, hempty, h.message, h.selectTracking, Option.isSome_none,
    Bool.or_self, Bool.false_or]

/-- A row is inserted under the key, or the row under it is updated. -/
def Recording.Writes (rec : Recording) (t : TrackingTable) (k : ℕ × Str) : Prop :=
  rec.sqlInserts.get? k ≠ none ∨ ∃ id r, t.find? k = some (id, r) ∧ rec.sqlUpdates.get? id ≠ none

/-- **The keys a call writes** are those of the settings that decide `max_msgs` and `max_quota`. -/
theorem writes_iff {settings : Settings} {throttle : List Setting}
    (hids : (throttle.map (·.id)).Nodup) {call : Call} {t : TrackingTable} {rec : Recording}
    (hrec : recordingOf settings throttle call t = some rec) {k : ℕ × Str} :
    rec.Writes t k ↔ ∃ rule rcd, rule.isTracked = true ∧
      effective settings throttle call rule = some rcd ∧
        (rcd.id, trackKeyOf call.2 rcd.account) = k := by
  obtain ⟨env, args⟩ := call
  unfold recordingOf at hrec
  simp only at hrec ⊢
  cases haddrs : possibleAddrs settings env args with
  | error e =>
    rw [haddrs] at hrec
    cases hrec
  | ok addrs =>
    rw [haddrs] at hrec
    simp only at hrec
    split_ifs at hrec
    have hsel := valid_effective hids haddrs
    set sel := selection args (throttleRecords throttle (throttleKind args) addrs)
    have hvalid := valid_collect env.now args (loadedFor env.now args sel t)
    rw [Option.some.inj hrec] at hvalid
    constructor
    · rintro (hinsert | ⟨id, r, hrow, hupdate⟩)
      · obtain ⟨r, hr⟩ := Option.ne_none_iff_exists'.mp hinsert
        obtain ⟨p, hp, hkey, -, -⟩ := hvalid.inserts k r hr
        obtain ⟨rule, rcd, hrule, hrcd, htid, haccount, -⟩ := exists_of_mem_trackPairs hsel hp
        exact ⟨rule, rcd, hrule, hrcd, by rw [← hkey, htid, haccount]⟩
      · obtain ⟨u, hu⟩ := Option.ne_none_iff_exists'.mp hupdate
        obtain ⟨p, hp, hid, -⟩ := hvalid.updates id u hu
        obtain ⟨rule, rcd, hrule, hrcd, htid, haccount, -⟩ := exists_of_mem_trackPairs hsel hp
        -- the row with this id is the one under the key of the setting
        obtain ⟨r', hrow'⟩ := find?_of_trackingIds hid
        exact ⟨rule, rcd, hrule, hrcd, by rw [← key_eq_of_id_eq hrow' hrow, htid, haccount]⟩
    · rintro ⟨rule, rcd, hrule, hrcd, rfl⟩
      obtain ⟨ts, htid, hp⟩ := mem_trackPairs env t hsel hrule hrcd
      rw [← htid]
      cases hid : (loadedFor env.now args sel t).trackingIds.get?
          (ts.tid, trackKeyOf args rcd.account) with
      | none => exact .inl (hvalid.inserts_of_mem _ hp hid)
      | some id =>
        obtain ⟨r, hrow⟩ := find?_of_trackingIds hid
        exact .inr ⟨id, r, hrow, hvalid.updates_of_mem _ hp id hid⟩

/-! ### What is read -/

/-- The keys the tracking query of a call asks for. -/
def trackingKeys (settings : Settings) (throttle : List Setting) (call : Call) : List (ℕ × Str) :=
  match possibleAddrs settings call.1 call.2 with
  | .error _ => []
  | .ok addrs =>
    (selection call.2 (throttleRecords throttle (throttleKind call.2) addrs)).trackingSqlWhere

/-- **The keys of a deciding setting that a call reads** are the client and the user. -/
theorem mem_trackingKeys {settings : Settings} {throttle : List Setting}
    (hids : (throttle.map (·.id)).Nodup) {call : Call} {rule : Rule} {rcd : Setting}
    (hrcd : effective settings throttle call rule = some rcd) {account : Str} :
    (rcd.id, account) ∈ trackingKeys settings throttle call ↔
      account = call.2.clientAddress ∨ account = call.2.user := by
  obtain ⟨env, args⟩ := call
  cases haddrs : possibleAddrs settings env args with
  | error e =>
    simp only [effective, haddrs] at hrcd
    cases hrcd
  | ok addrs =>
    have hsel := valid_effective hids haddrs
    simp only [trackingKeys, haddrs]
    rw [hsel.where_iff]
    constructor
    · rintro (⟨_, _, _, hp⟩ | ⟨_, _, _, hp⟩)
      · exact .inl (Prod.mk.inj hp).2
      · exact .inr (Prod.mk.inj hp).2
    · rintro (rfl | rfl)
      · have hdecides := hrcd
        simp only [effective, haddrs] at hdecides
        obtain ⟨-, -, hperiod⟩ := mem_of_find?_throttleRecords hdecides
        exact .inl ⟨rcd, hsel.mem_seen rule rcd hrcd, hperiod, rfl⟩
      · exact .inr ⟨rule, rcd, hrcd, rfl⟩

/-- A later call for the same user and client, in the same direction and with the same alias
domains. -/
structure SameRequest (call later : Call) : Prop where
  user_eq : later.2.user = call.2.user
  clientAddress_eq : later.2.clientAddress = call.2.clientAddress
  kind_eq : throttleKind later.2 = throttleKind call.2
  alias_eq : later.1.getAliasTargetDomain = call.1.getAliasTargetDomain

theorem SameRequest.effective_eq {call later : Call} (h : SameRequest call later)
    (settings : Settings) (throttle : List Setting) :
    effective settings throttle later = effective settings throttle call := by
  funext rule
  unfold effective possibleAddrs
  rw [h.user_eq, h.clientAddress_eq, h.kind_eq, h.alias_eq]

/-- Every key a call writes is read by the later calls. -/
def KeysRead (settings : Settings) (throttle : List Setting) (call : Call) (t : TrackingTable)
    (rec : Recording) : Prop :=
  ∀ k, rec.Writes t k → ∀ later, SameRequest call later → k ∈ trackingKeys settings throttle later

/-- A setting for IP addresses such as `192.168.1.*`, or for addresses such as `user@*`. -/
def Setting.HasWildcard (rcd : Setting) : Prop :=
  isValidAmavisdAddress rcd.account = some .wildcardIp ∨
    isValidAmavisdAddress rcd.account = some .wildcardAddr

/-- Only a setting with a wildcard is tracked under its account. -/
theorem trackKeyOf_eq_or (args : Args) (rcd : Setting) :
    (rcd.HasWildcard ∧ trackKeyOf args rcd.account = rcd.account) ∨
      (¬ rcd.HasWildcard ∧ (trackKeyOf args rcd.account = args.clientAddress ∨
        trackKeyOf args rcd.account = args.user)) := by
  unfold Setting.HasWildcard trackKeyOf
  cases haddr : isValidAmavisdAddress rcd.account with
  | none => simp
  | some type => cases type <;> simp

/-- **The keys written are the keys read** if and only if no setting with a wildcard decides
`max_msgs` or `max_quota`, unless its account is the client or the user. -/
theorem keysRead_iff (settings : Settings) {throttle : List Setting}
    (hids : (throttle.map (·.id)).Nodup) {call : Call} {t : TrackingTable} {rec : Recording}
    (hrec : recordingOf settings throttle call t = some rec) :
    KeysRead settings throttle call t rec ↔ ∀ rule rcd, rule.isTracked = true →
      effective settings throttle call rule = some rcd → rcd.HasWildcard →
        rcd.account = call.2.clientAddress ∨ rcd.account = call.2.user := by
  constructor
  · intro hread rule rcd hrule hrcd hwildcard
    have hkey : trackKeyOf call.2 rcd.account = rcd.account := by
      rcases trackKeyOf_eq_or call.2 rcd with ⟨-, h⟩ | ⟨hno, -⟩
      · exact h
      · exact absurd hwildcard hno
    have hwrites := (writes_iff hids hrec).mpr ⟨rule, rcd, hrule, hrcd, rfl⟩
    have hmem := hread _ hwrites call ⟨rfl, rfl, rfl, rfl⟩
    rw [hkey] at hmem
    exact (mem_trackingKeys hids hrcd).mp hmem
  · intro hcond k hwrites later hsame
    obtain ⟨rule, rcd, hrule, hrcd, rfl⟩ := (writes_iff hids hrec).mp hwrites
    have hlater : effective settings throttle later rule = some rcd := by
      rw [hsame.effective_eq]
      exact hrcd
    rw [mem_trackingKeys hids hlater, hsame.clientAddress_eq, hsame.user_eq]
    rcases trackKeyOf_eq_or call.2 rcd with ⟨hwildcard, hkey⟩ | ⟨-, hkey⟩
    · rw [hkey]
      exact hcond rule rcd hrule hrcd hwildcard
    · exact hkey

omit [Unicode] in
/-- A sender whose own address has a setting. -/
theorem keysRead_own_address :
    letI := asciiUnicode
    let rcd : Setting :=
      { id := 1, account := "a@b.com", kind := "outbound", priority := 0, period := 3600, maxMsgs := 1 }
    let call : Call := (⟨100, by decide, 100, fun _ => .ok none, fun _ => .ok true, fun _ => false⟩,
      ⟨"a@b.com", "192.168.1.5", 10, 1, true, false⟩)
    ∃ recording, recordingOf {} [rcd] call Sql.Table.empty = some recording ∧
      KeysRead {} [rcd] call Sql.Table.empty recording := by
  let := asciiUnicode
  intro rcd call
  have hsome : (recordingOf {} [rcd] call Sql.Table.empty).isSome = true := by decide
  obtain ⟨recording, hrec⟩ := Option.isSome_iff_exists.mp hsome
  refine ⟨recording, hrec, (keysRead_iff {} (by decide) hrec).mpr ?_⟩
  intro rule rcd' hrule hrcd hwildcard
  have hmsgs : effective {} [rcd] call .maxMsgs = some rcd := by decide
  have hquota : effective {} [rcd] call .maxQuota = none := by decide
  cases rule with
  | maxMsgs =>
    rw [hmsgs] at hrcd
    rw [← Option.some.inj hrcd] at hwildcard
    exact absurd hwildcard (by unfold Setting.HasWildcard; decide)
  | maxQuota =>
    rw [hquota] at hrcd
    cases hrcd
  | msgSize => cases hrule
  | maxRcpts => cases hrule

omit [Unicode] in
/-- The messages of a client of `192.168.1.*` are recorded under a key that is never read, and the
second one passes a limit of one message: its insert fails. -/
theorem wildcard_ip_not_read :
    letI := asciiUnicode
    let rcd : Setting :=
      { id := 1, account := "192.168.1.*", kind := "external", priority := 0, period := 3600
        maxMsgs := 1 }
    let call := fun now : ℕ => ((⟨now + 1, Nat.succ_pos now, now + 1, fun _ => .ok none,
      fun _ => .ok true, fun _ => false⟩, ⟨[], "192.168.1.5", 10, 1, true, true⟩) : Call)
    (∃ recording, recordingOf {} [rcd] (call 99) Sql.Table.empty = some recording ∧
      ¬ KeysRead {} [rcd] (call 99) Sql.Table.empty recording) ∧
    (history (applyThrottle {} [rcd]) Sql.Table.empty [call 99, call 199]).map
      (fun e => (e.2.action.toOption, e.2.failed)) =
        [(some SmtpActions.defaultAction, []),
          (some SmtpActions.defaultAction, [Statement.insertTracking])] := by
  let := asciiUnicode
  intro rcd call
  have hsome : (recordingOf {} [rcd] (call 99) Sql.Table.empty).isSome = true := by decide
  obtain ⟨recording, hrec⟩ := Option.isSome_iff_exists.mp hsome
  refine ⟨⟨recording, hrec, fun hread => ?_⟩, by decide⟩
  have hwrites := (@writes_iff asciiUnicode {} [rcd] (by decide) (call 99) _ _ hrec
    (1, "192.168.1.*".toList)).mpr ⟨.maxMsgs, rcd, rfl, by decide, by decide⟩
  have hmem := hread _ hwrites (call 199) ⟨rfl, rfl, rfl, rfl⟩
  exact absurd hmem (by decide)

end IRedAPD.Throttle

/-
  One call of `apply_throttle`.

  A call records the message in the tracking records of the settings that
  decide `max_msgs` and `max_quota` for it, or leaves every record as it is but
  for the time of the last notification (`applyThrottle_cases`).
-/
import IRedAPD.Equiv.Addresses
import IRedAPD.Equiv.Plugins.Throttle.Record

namespace IRedAPD.Throttle

open Py

variable [Unicode]

/-- The setting that decides a rule for a call. -/
def effective (settings : Settings) (throttle : List Setting) (call : Call) (rule : Rule) :
    Option Setting :=
  match possibleAddrs settings call.1 call.2 with
  | .error _ => none
  | .ok addrs => (throttleRecords throttle (throttleKind call.2) addrs).find? (·.decides rule)

/-- The call is answered `DUNNO`. -/
def Output.Accepts (o : Output) : Prop := o.action = .ok SmtpActions.defaultAction

/-- A tracking record without the time of the last notification. -/
def core (row : ℕ × Tracking) : ℕ × Tracking := (row.1, row.2.notify 0)

omit [Unicode] in
/-- A deciding setting is one of the table, with a period, and matches an address of the call. -/
theorem mem_of_find?_throttleRecords {throttle : List Setting} {kind : Str} {addrs : List Str}
    {rule : Rule} {rcd : Setting}
    (h : (throttleRecords throttle kind addrs).find? (·.decides rule) = some rcd) :
    rcd ∈ throttle ∧ rcd.account ∈ addrs ∧ rcd.period ≠ 0 := by
  have hmem := (List.mem_insertionSort _).mp (List.mem_of_find?_eq_some h)
  have hdec := List.find?_some h
  obtain ⟨hthrottle, hmatch⟩ := List.mem_filter.mp hmem
  rw [Bool.and_eq_true, List.contains_iff_mem] at hmatch
  exact ⟨hthrottle, hmatch.2, (of_decide_eq_true hdec).1⟩

/-- The setting that decides a rule is one of the table, with a period. -/
theorem mem_of_effective {settings : Settings} {throttle : List Setting} {call : Call} {rule : Rule}
    {rcd : Setting} (h : effective settings throttle call rule = some rcd) :
    rcd ∈ throttle ∧ rcd.period ≠ 0 := by
  unfold effective at h
  cases haddrs : possibleAddrs settings call.1 call.2 with
  | error e =>
    simp only [haddrs] at h
    cases h
  | ok addrs =>
    simp only [haddrs] at h
    obtain ⟨hmem, -, hperiod⟩ := mem_of_find?_throttleRecords h
    exact ⟨hmem, hperiod⟩

omit [Unicode] in
/-- A rejection changes the time of a notification at most. -/
theorem find?_reject (env : Env) (args : Args) (info : Str) (e : Exceeded) (t : TrackingTable)
    (k : ℕ × Str) : ((reject env args info e t).2.find? k).map core = (t.find? k).map core := by
  have hsend : ∀ mail, ((sendNotification env mail e.ts.trackingId t).2.find? k).map core =
      (t.find? k).map core := by
    intro mail
    unfold sendNotification
    split
    · rfl
    · rfl
    · split_ifs
      · rfl
      · rfl
      · rw [Sql.Table.find?_update, Option.map_map]
        congr 1
        funext row
        rw [Function.comp_apply]
        split_ifs <;> rfl
  unfold reject
  split_ifs
  · exact hsend _
  · rfl

omit [Unicode] in
/-- When `max_msgs` is exceeded, and what its notification is given. -/
theorem maxMsgsExceeded_eq_some_iff {env : Env} {args : Args} {ld : Loaded} {e : Exceeded} :
    maxMsgsExceeded env args ld = some e ↔ ∃ ts, ld.tSettings.get? .maxMsgs = some ts ∧
      exceeds ((if ts.expired env.now then 0 else ts.curMsgs) + args.recipientCount) ts.value ∧
        e = ⟨.maxMsgs, ts, ts.lastNotifyTime⟩ := by
  unfold maxMsgsExceeded
  rw [Option.bind_eq_some_iff]
  refine exists_congr fun ts => and_congr_right fun _ => ?_
  rw [Option.ite_none_right_eq_some, Option.some.injEq, eq_comm (b := e)]

omit [Unicode] in
/-- When `max_quota` is exceeded, and what its notification is given: the time of the last
notification of the `max_msgs` check, if there was one, or of the last record that was loaded. -/
theorem maxQuotaExceeded_eq_some_iff {env : Env} {ld : Loaded} {e : Exceeded} :
    maxQuotaExceeded env ld = some e ↔ ∃ ts, ld.tSettings.get? .maxQuota = some ts ∧
      exceeds (if ts.expired env.now then 0 else ts.curQuota) ts.value ∧
        e = ⟨.maxQuota, ts, (ld.tSettings.get? .maxMsgs).elim (ld.lastNotifyTime.getD 0)
          (·.lastNotifyTime)⟩ := by
  unfold maxQuotaExceeded
  rw [Option.bind_eq_some_iff]
  refine exists_congr fun ts => and_congr_right fun _ => ?_
  rw [Option.ite_none_right_eq_some, Option.some.injEq, eq_comm (b := e)]
  cases ld.tSettings.get? .maxMsgs <;> rfl

/-- The selection of a call, with the settings that decide its rules. -/
theorem valid_effective {settings : Settings} {throttle : List Setting}
    (hids : (throttle.map (·.id)).Nodup) {env : Env} {args : Args} {addrs : List Str}
    (haddrs : possibleAddrs settings env args = .ok addrs) :
    (selection args (throttleRecords throttle (throttleKind args) addrs)).Valid args.user
      args.clientAddress (throttleRecords throttle (throttleKind args) addrs)
      (effective settings throttle (env, args)) := by
  have heffective : effective settings throttle (env, args) = fun rule =>
      (throttleRecords throttle (throttleKind args) addrs).find? (·.decides rule) := by
    funext rule
    simp only [effective, haddrs]
  rw [heffective]
  exact valid_selection args (nodup_throttleRecords hids (throttleKind args) addrs)

/-- The checks against the tracking data, and what follows. -/
theorem applyTracking_eq {env : Env} (hselect : env.fails .selectTracking = false) (args : Args)
    (sel : Selection) (t : TrackingTable) :
    applyTracking env args sel t =
      match (maxMsgsExceeded env args (loadedFor env.now args sel t)).or
        (maxQuotaExceeded env (loadedFor env.now args sel t)) with
      | some e => reject env args sel.throttleInfo e t
      | none => record env (collect env.now args (loadedFor env.now args sel t)) t := by
  unfold applyTracking
  rw [hselect]
  rfl

/-! ### The parts of a call -/

/-- The selection of a call whose message passes every check that needs no tracking data. -/
structure Reaches (settings : Settings) (throttle : List Setting) (env : Env) (args : Args)
    (sel : Selection) : Prop where
  addrs : ∃ addrs, possibleAddrs settings env args = .ok addrs ∧
    sel = selection args (throttleRecords throttle (throttleKind args) addrs)
  selectThrottle : env.fails .selectThrottle = false
  nonempty : sel.tSettings ≠ []
  message : checkMessage sel args = none
  selectTracking : env.fails .selectTracking = false

omit [Unicode] in
/-- What the checks of a message answer is no `DUNNO`. -/
theorem ne_default_of_checkMessage {sel : Selection} {args : Args} {action : Str}
    (h : checkMessage sel args = some action) : action ≠ SmtpActions.defaultAction := by
  unfold checkMessage at h
  split_ifs at h
  · rw [← Option.some.inj h]
    decide
  · rw [← Option.some.inj h]
    decide

/-- A call whose message passes these checks comes to the tracking data. -/
theorem Reaches.applyThrottle_eq {settings : Settings} {throttle : List Setting} {env : Env}
    {args : Args} {sel : Selection} (h : Reaches settings throttle env args sel) (t : TrackingTable) :
    applyThrottle settings throttle (env, args) t = applyTracking env args sel t := by
  obtain ⟨addrs, haddrs, rfl⟩ := h.addrs
  have hne := fun hempty => h.nonempty (List.isEmpty_iff.mp hempty)
  simp only [applyThrottle, haddrs, h.selectThrottle, if_neg hne, h.message, Bool.false_eq_true,
    if_false]

/-- An answer that is given without the tracking data: it accepts the message only if no setting
decides. -/
structure Early (settings : Settings) (throttle : List Setting) (env : Env) (args : Args)
    (o : Output) : Prop where
  apply : ∀ t, applyThrottle settings throttle (env, args) t = (o, t)
  mails : o.mails = []
  failed : (∀ statement, env.fails statement = false) → o.failed = []
  action : ¬ o.Accepts ∨ ∀ rule, effective settings throttle (env, args) rule = none

/-- **The parts of a call.** It comes to the tracking data, or it is answered without. -/
theorem applyThrottle_parts (settings : Settings) {throttle : List Setting}
    (hids : (throttle.map (·.id)).Nodup) (env : Env) (args : Args) :
    (∃ sel, Reaches settings throttle env args sel ∧
      ∀ t, applyThrottle settings throttle (env, args) t = applyTracking env args sel t) ∨
    ∃ o, Early settings throttle env args o := by
  -- in the order of the source: what is answered early names its reply, the rest goes on
  cases haddrs : possibleAddrs settings env args with
  | error e =>
    refine .inr ⟨⟨.error e, [], []⟩, fun t => ?_, rfl, fun _ => rfl, .inl (by simp [Output.Accepts])⟩
    simp only [applyThrottle, haddrs]
  | ok addrs =>
    have hsel := valid_effective hids haddrs
    set sel := selection args (throttleRecords throttle (throttleKind args) addrs) with hdef
    cases hselect : env.fails .selectThrottle with
    | true =>
      refine .inr ⟨⟨.error .operationalError, [], [.selectThrottle]⟩, fun t => ?_, rfl,
        fun hfails => ?_, .inl (by simp [Output.Accepts])⟩
      · simp only [applyThrottle, haddrs, hselect, if_true]
      · rw [hfails] at hselect
        cases hselect
    | false =>
      by_cases hempty : sel.tSettings = []
      · refine .inr ⟨⟨.ok SmtpActions.defaultAction, [], []⟩, fun t => ?_, rfl, fun _ => rfl,
          .inr fun rule => ?_⟩
        · simp only [applyThrottle, haddrs, hselect, ← hdef, hempty, List.isEmpty_nil,
            Bool.false_eq_true, if_false, if_true]
        · have hnone := hsel.settings rule
          rw [hempty, Dict.get?_nil] at hnone
          exact Option.map_eq_none_iff.mp hnone.symm
      have hne : ¬ sel.tSettings.isEmpty = true := fun h => hempty (List.isEmpty_iff.mp h)
      cases hmessage : checkMessage sel args with
      | some action =>
        refine .inr ⟨⟨.ok action, [], []⟩, fun t => ?_, rfl, fun _ => rfl, .inl fun h => ?_⟩
        · simp only [applyThrottle, haddrs, hselect, ← hdef, if_neg hne, hmessage,
            Bool.false_eq_true, if_false]
        · exact ne_default_of_checkMessage hmessage (Except.ok.inj h)
      | none =>
        cases htracking : env.fails .selectTracking with
        | true =>
          refine .inr ⟨⟨.error .operationalError, [], [.selectTracking]⟩, fun t => ?_, rfl,
            fun hfails => ?_, .inl (by simp [Output.Accepts])⟩
          · simp only [applyThrottle, haddrs, hselect, ← hdef, if_neg hne, hmessage, applyTracking,
              htracking, Bool.false_eq_true, if_false, if_true]
          · rw [hfails] at htracking
            cases htracking
        | false =>
          have hreaches : Reaches settings throttle env args sel :=
            ⟨⟨addrs, haddrs, hdef⟩, hselect, hempty, hmessage, htracking⟩
          exact .inl ⟨sel, hreaches, hreaches.applyThrottle_eq⟩

/-- What a selection that comes to the tracking data knows of the settings that decide. -/
theorem Reaches.valid {settings : Settings} {throttle : List Setting}
    (hids : (throttle.map (·.id)).Nodup) {env : Env} {args : Args} {sel : Selection}
    (h : Reaches settings throttle env args sel) :
    ∃ seen, (seen.map (·.id)).Nodup ∧ (∀ rcd ∈ seen, rcd ∈ throttle) ∧
      sel.Valid args.user args.clientAddress seen (effective settings throttle (env, args)) := by
  obtain ⟨addrs, haddrs, rfl⟩ := h.addrs
  refine ⟨_, nodup_throttleRecords hids (throttleKind args) addrs, fun rcd hrcd => ?_,
    valid_effective hids haddrs⟩
  exact (List.mem_filter.mp ((List.mem_insertionSort _).mp hrcd)).1

/-- The two ends of a call that comes to the tracking data. -/
theorem Reaches.ends {settings : Settings} {throttle : List Setting} {env : Env} {args : Args}
    {sel : Selection} (h : Reaches settings throttle env args sel) (t : TrackingTable) :
    (∃ e, (maxMsgsExceeded env args (loadedFor env.now args sel t)).or
        (maxQuotaExceeded env (loadedFor env.now args sel t)) = some e ∧
      applyTracking env args sel t = reject env args sel.throttleInfo e t) ∨
    (maxMsgsExceeded env args (loadedFor env.now args sel t) = none ∧
      maxQuotaExceeded env (loadedFor env.now args sel t) = none ∧
      applyTracking env args sel t =
        record env (collect env.now args (loadedFor env.now args sel t)) t) := by
  rw [applyTracking_eq h.selectTracking]
  cases hexceeded : (maxMsgsExceeded env args (loadedFor env.now args sel t)).or
      (maxQuotaExceeded env (loadedFor env.now args sel t)) with
  | some e => exact .inl ⟨e, rfl, rfl⟩
  | none =>
    obtain ⟨hmsgs, hquota⟩ := Option.or_eq_none_iff.mp hexceeded
    exact .inr ⟨hmsgs, hquota, rfl⟩

omit [Unicode] in
/-- A rejection is no `DUNNO`. -/
theorem action_reject (env : Env) (args : Args) (info : Str) (e : Exceeded) (t : TrackingTable) :
    (reject env args info e t).1.action = .ok SmtpActions.rejectQuotaExceeded := by
  unfold reject
  split_ifs <;> rfl

omit [Unicode] in
theorem not_accepts_reject (env : Env) (args : Args) (info : Str) (e : Exceeded) (t : TrackingTable) :
    ¬ (reject env args info e t).1.Accepts := by
  unfold Output.Accepts
  rw [action_reject]
  exact fun h => absurd (Except.ok.inj h) (by decide)

/-- **What a call does**, when no statement fails: it records the message, or leaves every tracking
record as it is but for a notification, and then it rejects the message or no setting decides. -/
theorem applyThrottle_cases (settings : Settings) {throttle : List Setting}
    (hids : (throttle.map (·.id)).Nodup) (env : Env) (args : Args) (t : TrackingTable) :
    (∃ addrs sel, possibleAddrs settings env args = .ok addrs ∧
      sel.Valid args.user args.clientAddress (throttleRecords throttle (throttleKind args) addrs)
        (effective settings throttle (env, args)) ∧
      maxMsgsExceeded env args (loadedFor env.now args sel t) = none ∧
      maxQuotaExceeded env (loadedFor env.now args sel t) = none ∧
      applyThrottle settings throttle (env, args) t =
        record env (collect env.now args (loadedFor env.now args sel t)) t) ∨
    ((∀ k, ((applyThrottle settings throttle (env, args) t).2.find? k).map core =
        (t.find? k).map core) ∧
      (¬ (applyThrottle settings throttle (env, args) t).1.Accepts ∨
        ∀ rule, effective settings throttle (env, args) rule = none)) := by
  rcases applyThrottle_parts settings hids env args with ⟨sel, hreaches, happly⟩ | ⟨o, hearly⟩
  · rw [happly]
    rcases hreaches.ends t with ⟨e, -, hreject⟩ | ⟨hmsgs, hquota, hrecord⟩
    · rw [hreject]
      exact .inr ⟨find?_reject env args sel.throttleInfo e t,
        .inl (not_accepts_reject env args sel.throttleInfo e t)⟩
    · obtain ⟨addrs, haddrs, rfl⟩ := hreaches.addrs
      exact .inl ⟨addrs, _, haddrs, valid_effective hids haddrs, hmsgs, hquota, hrecord⟩
  · rw [hearly.apply]
    exact .inr ⟨fun k => rfl, hearly.action⟩

/-! ### The account forms -/

/-- A setting for an IP address or `@ip`, which is tracked by client. -/
def Setting.TracksClient (rcd : Setting) : Prop :=
  isValidAmavisdAddress rcd.account = some .ip ∨ isValidAmavisdAddress rcd.account = some .catchallIp

/-- A setting for an email address, a domain with or without its sub-domains, a top level domain or
all addresses, which is tracked by user. -/
def Setting.TracksUser (rcd : Setting) : Prop :=
  ∃ type ∈ [AddressType.email, .domain, .subdomain, .topLevelDomain, .catchall],
    isValidAmavisdAddress rcd.account = some type

/-- A client address, which is not empty and holds no `@`. -/
def IsClientAddress (s : Str) : Prop := s ≠ [] ∧ '@' ∉ s

/-- The texts a setting is tracked under. -/
def Setting.TracksUnder (rcd : Setting) (k : Str) : Prop :=
  (rcd.TracksClient ∧ IsClientAddress k) ∨ (rcd.TracksUser ∧ '@' ∈ k)

theorem Setting.TracksClient.trackKeyOf {rcd : Setting} (h : rcd.TracksClient) (args : Args) :
    trackKeyOf args rcd.account = args.clientAddress := by
  unfold Throttle.trackKeyOf
  rcases h with h | h <;> rw [h]

theorem Setting.TracksUser.trackKeyOf {rcd : Setting} (h : rcd.TracksUser) (args : Args) :
    trackKeyOf args rcd.account = args.user := by
  obtain ⟨type, htype, haccount⟩ := h
  unfold Throttle.trackKeyOf
  rw [haccount]
  simp only [List.mem_cons, List.not_mem_nil, or_false] at htype
  rcases htype with rfl | rfl | rfl | rfl | rfl <;> rfl

/-- No setting is tracked both ways. -/
theorem Setting.TracksUser.not_tracksClient {rcd : Setting} (h : rcd.TracksUser) :
    ¬ rcd.TracksClient := by
  obtain ⟨type, htype, haccount⟩ := h
  rintro (hip | hip) <;>
  · rw [haccount] at hip
    rw [Option.some.inj hip] at htype
    exact absurd htype (by decide)

/-- The account of a setting that is tracked by user has an `@`, and is not `@ip`. -/
theorem Setting.TracksUser.at_mem {rcd : Setting} (h : rcd.TracksUser) :
    '@' ∈ rcd.account ∧ rcd.account ≠ "@ip".toList := by
  obtain ⟨type, htype, haccount⟩ := h
  constructor
  · by_contra hat
    have hpre : ∀ pre : Str, '@' ∈ pre → startsWith rcd.account pre = false := by
      intro pre hmem
      rw [Bool.eq_false_iff, ne_eq, startsWith_iff]
      exact fun h => hat (h.subset hmem)
    have hemail : isEmail rcd.account = false := by
      rw [Bool.eq_false_iff]
      exact fun h => hat (at_mem_of_isEmail h)
    -- what is left are the forms of client addresses
    unfold isValidAmavisdAddress at haccount
    rw [hpre "@." (by decide), hpre "@" (by decide), hemail] at haccount
    simp only [Bool.false_eq_true, if_false] at haccount
    split_ifs at haccount <;>
    · rw [← Option.some.inj haccount] at htype
      exact absurd htype (by decide)
  · intro hip
    have htype' : isValidAmavisdAddress "@ip".toList = some .catchallIp := rfl
    rw [hip, htype'] at haccount
    rw [← Option.some.inj haccount] at htype
    exact absurd htype (by decide)

/-! ### The user of a call -/

/-- Where the addresses of a call come from. -/
theorem mem_possibleAddrs {settings : Settings} {env : Env} {args : Args} {addrs : List Str}
    (h : possibleAddrs settings env args = .ok addrs) :
    (args.user = [] ∨ '@' ∈ args.user) ∧ (args.user = [] → ∀ a ∈ addrs,
      a = args.clientAddress ∨ a = "@ip".toList ∨ a ∈ wildcardIpv4 settings args.clientAddress) := by
  unfold possibleAddrs at h
  by_cases huser : args.user = []
  · refine ⟨.inl huser, fun _ a ha => ?_⟩
    rw [if_pos huser] at h
    have haddrs : [args.clientAddress, "@ip".toList] ++ [] ++
        wildcardIpv4 settings args.clientAddress = addrs := Except.ok.inj h
    rw [← haddrs, List.append_nil, List.mem_append] at ha
    rcases ha with ha | ha
    · simp only [List.mem_cons, List.not_mem_nil, or_false] at ha
      rcases ha with ha | ha
      · exact .inl ha
      · exact .inr (.inl ha)
    · exact .inr (.inr ha)
  · refine ⟨.inr ?_, fun h => absurd h huser⟩
    rw [if_neg huser] at h
    cases hsplit : splitOnce "@".toList args.user with
    | none =>
      rw [hsplit] at h
      cases h
    | some parts =>
      have hsome : (splitOnce ['@'] args.user).isSome := by
        have hsplit' : splitOnce ['@'] args.user = some parts := hsplit
        rw [hsplit']
        rfl
      exact isSome_splitOnce.mp hsome

/-- **A deciding setting is tracked under a text of its own kind.** -/
theorem tracksUnder_trackKeyOf {settings : Settings} {throttle : List Setting} {env : Env}
    {args : Args} {rule : Rule} {rcd : Setting}
    (hrcd : effective settings throttle (env, args) rule = some rcd)
    (hkind : rcd.TracksClient ∨ rcd.TracksUser) (hclient : IsClientAddress args.clientAddress) :
    rcd.TracksUnder (trackKeyOf args rcd.account) := by
  rcases hkind with hkind | hkind
  · rw [hkind.trackKeyOf]
    exact .inl ⟨hkind, hclient⟩
  · rw [hkind.trackKeyOf]
    refine .inr ⟨hkind, ?_⟩
    unfold effective at hrcd
    cases haddrs : possibleAddrs settings env args with
    | error e =>
      simp only [haddrs] at hrcd
      cases hrcd
    | ok addrs =>
      simp only [haddrs] at hrcd
      obtain ⟨-, hmem, -⟩ := mem_of_find?_throttleRecords hrcd
      obtain ⟨hat, hip⟩ := hkind.at_mem
      obtain ⟨huser | huser, hwhere⟩ := mem_possibleAddrs haddrs
      · -- without a user only texts of the client are looked up
        rcases hwhere huser _ hmem with heq | heq | hwild
        · rw [heq] at hat
          exact absurd hat hclient.2
        · exact absurd heq hip
        · rcases mem_of_mem_wildcardIpv4 hwild hat with h | h | h
          · exact absurd h hclient.2
          · cases h
          · cases h
      · exact huser

/-! ### The records of one setting -/

/-- The records of a setting are tracked under texts of its own kind. -/
def KeysOf (rcd : Setting) (t : TrackingTable) : Prop :=
  ∀ k row, t.find? (rcd.id, k) = some row → rcd.TracksUnder k

theorem keysOf_empty (rcd : Setting) : KeysOf rcd Sql.Table.empty := by
  intro k row hrow
  cases hrow

/-- A setting of a known kind agrees with every call. -/
theorem agrees_of_keysOf {settings : Settings} {throttle : List Setting} {env : Env} {args : Args}
    {rule : Rule} {rcd : Setting} {t : TrackingTable}
    (hrcd : effective settings throttle (env, args) rule = some rcd)
    (hkind : rcd.TracksClient ∨ rcd.TracksUser) (hclient : IsClientAddress args.clientAddress)
    (hkeys : KeysOf rcd t) : Agrees t args rcd := by
  have huser : args.user = [] ∨ '@' ∈ args.user := by
    unfold effective at hrcd
    cases haddrs : possibleAddrs settings env args with
    | error e =>
      simp only [haddrs] at hrcd
      cases hrcd
    | ok addrs => exact (mem_possibleAddrs haddrs).1
  have hunder : ∀ row ∈ t.rows, row.2.tid = rcd.id → rcd.TracksUnder row.2.account := by
    intro row hrow htid
    refine hkeys row.2.account row (Sql.Table.find?_eq_some_iff.mpr ⟨hrow, ?_⟩)
    rw [Tracking.key, htid]
  rcases hkind with hkind | hkind
  · refine ⟨.inl (hkind.trackKeyOf args), fun row hrow htid haccount => ?_⟩
    rw [hkind.trackKeyOf]
    rcases hunder row hrow htid with ⟨-, hne, hat⟩ | ⟨htracks, -⟩
    · -- the user is no client address
      rcases haccount with h | h
      · exact h
      · rcases huser with hu | hu
        · rw [h, hu] at hne
          exact absurd rfl hne
        · rw [h] at hat
          exact absurd hu hat
    · exact absurd hkind htracks.not_tracksClient
  · refine ⟨.inr (hkind.trackKeyOf args), fun row hrow htid haccount => ?_⟩
    rw [hkind.trackKeyOf]
    rcases hunder row hrow htid with ⟨htracks, -⟩ | ⟨-, hat⟩
    · exact absurd htracks hkind.not_tracksClient
    · rcases haccount with h | h
      · rw [h] at hat
        exact absurd hat hclient.2
      · exact h

/-- The `cur_msgs` a check of `max_msgs` starts from. -/
def Setting.curMsgs (now : ℕ) (rcd : Setting) (r : Option Tracking) : ℤ :=
  r.elim 0 fun r => if r.expired now rcd.period then 0 else r.curMsgs

/-- The check starts from the data of the record. -/
theorem curMsgs_loaded (now : ℕ) (args : Args) (rcd : Setting) (rule : Rule)
    (row : Option (ℕ × Tracking)) :
    (if (rcd.loaded now args rule row).expired now then 0
      else (rcd.loaded now args rule row).curMsgs) = rcd.curMsgs now (row.map Prod.snd) := by
  cases row with
  | none =>
    have hzero : (rcd.loaded now args rule none).curMsgs = 0 := rfl
    rw [hzero, ite_self]
    rfl
  | some row =>
    have hexpired : (rcd.loaded now args rule (some row)).expired now =
        row.2.expired now rcd.period := expired_withRecord now row _
    rw [hexpired]
    rfl

/-- A `max_msgs` check that is passed. -/
theorem not_exceeds_of_maxMsgs {env : Env} {args : Args} {seen : List Setting}
    {decider : Rule → Option Setting} {sel : Selection} {t : TrackingTable} {rcd : Setting}
    (hsel : sel.Valid args.user args.clientAddress seen decider)
    (hdecider : decider .maxMsgs = some rcd) (hperiod : rcd.period ≠ 0) (hagrees : Agrees t args rcd)
    (hpass : maxMsgsExceeded env args (loadedFor env.now args sel t) = none) :
    ¬ exceeds (rcd.curMsgs env.now ((t.find? (rcd.id, trackKeyOf args rcd.account)).map Prod.snd) +
      args.recipientCount) rcd.maxMsgs := by
  intro hex
  have hvalue : (rcd.loaded env.now args .maxMsgs
      (t.find? (rcd.id, trackKeyOf args rcd.account))).value = rcd.maxMsgs := by
    cases t.find? (rcd.id, trackKeyOf args rcd.account) <;> rfl
  unfold maxMsgsExceeded at hpass
  rw [get?_load_of_agrees hsel rfl hdecider hperiod hagrees, Option.bind_some] at hpass
  simp only [curMsgs_loaded, hvalue] at hpass
  rw [if_pos hex] at hpass
  cases hpass

/-- The `cur_quota` a check of `max_quota` starts from. -/
def Setting.curQuota (now : ℕ) (rcd : Setting) (r : Option Tracking) : ℤ :=
  r.elim 0 fun r => if r.expired now rcd.period then 0 else r.curQuota

theorem curQuota_loaded (now : ℕ) (args : Args) (rcd : Setting) (rule : Rule)
    (row : Option (ℕ × Tracking)) :
    (if (rcd.loaded now args rule row).expired now then 0
      else (rcd.loaded now args rule row).curQuota) = rcd.curQuota now (row.map Prod.snd) := by
  cases row with
  | none =>
    have hzero : (rcd.loaded now args rule none).curQuota = 0 := rfl
    rw [hzero, ite_self]
    rfl
  | some row =>
    have hexpired : (rcd.loaded now args rule (some row)).expired now =
        row.2.expired now rcd.period := expired_withRecord now row _
    rw [hexpired]
    rfl

/-- A `max_quota` check that is passed. -/
theorem not_exceeds_of_maxQuota {env : Env} {args : Args} {seen : List Setting}
    {decider : Rule → Option Setting} {sel : Selection} {t : TrackingTable} {rcd : Setting}
    (hsel : sel.Valid args.user args.clientAddress seen decider)
    (hdecider : decider .maxQuota = some rcd) (hperiod : rcd.period ≠ 0) (hagrees : Agrees t args rcd)
    (hpass : maxQuotaExceeded env (loadedFor env.now args sel t) = none) :
    ¬ exceeds (rcd.curQuota env.now
      ((t.find? (rcd.id, trackKeyOf args rcd.account)).map Prod.snd)) rcd.maxQuota := by
  intro hex
  have hvalue : (rcd.loaded env.now args .maxQuota
      (t.find? (rcd.id, trackKeyOf args rcd.account))).value = rcd.maxQuota := by
    cases t.find? (rcd.id, trackKeyOf args rcd.account) <;> rfl
  unfold maxQuotaExceeded at hpass
  rw [get?_load_of_agrees hsel rfl hdecider hperiod hagrees, Option.bind_some] at hpass
  simp only [curQuota_loaded, hvalue] at hpass
  rw [if_pos hex] at hpass
  cases hpass

/-- A setting decides a rule that is tracked for the call, under this text. -/
def TracksFor (settings : Settings) (throttle : List Setting) (call : Call) (rcd : Setting) (k : Str) :
    Prop :=
  ∃ rule, rule.isTracked = true ∧ effective settings throttle call rule = some rcd ∧
    trackKeyOf call.2 rcd.account = k

/-- The record of a setting after a call that is counted in it. -/
structure Recorded (settings : Settings) (throttle : List Setting) (call : Call) (rcd : Setting)
    (k : Str) (before after : Option (ℕ × Tracking)) : Prop where
  tracks : TracksFor settings throttle call rcd k
  period_ne : rcd.period ≠ 0
  row : after.map Prod.snd = some (rcd.next call.1.now call.2 k (before.map Prod.snd))
  maxMsgs : effective settings throttle call .maxMsgs = some rcd →
    ¬ exceeds (rcd.curMsgs call.1.now (before.map Prod.snd) + call.2.recipientCount) rcd.maxMsgs

/-- **What a call does to the record of a setting.** -/
theorem setting_cases_of_agrees {settings : Settings} {throttle : List Setting}
    (hids : (throttle.map (·.id)).Nodup) {rcd : Setting} (hrcd : rcd ∈ throttle) {call : Call}
    {t : TrackingTable} (hagrees : ∀ rule, rule.isTracked = true →
      effective settings throttle call rule = some rcd → Agrees t call.2 rcd)
    (hfailed : (applyThrottle settings throttle call t).1.failed = []) (k : Str) :
    ((applyThrottle settings throttle call t).1.Accepts ∧
      Recorded settings throttle call rcd k (t.find? (rcd.id, k))
        ((applyThrottle settings throttle call t).2.find? (rcd.id, k))) ∨
    (((applyThrottle settings throttle call t).2.find? (rcd.id, k)).map core =
        (t.find? (rcd.id, k)).map core ∧
      ¬ ((applyThrottle settings throttle call t).1.Accepts ∧
        TracksFor settings throttle call rcd k)) := by
  obtain ⟨env, args⟩ := call
  rcases applyThrottle_cases settings hids env args t with
    ⟨addrs, sel, haddrs, hsel, hmsgs, -, happly⟩ | ⟨hsame, hnone⟩
  · rw [happly] at hfailed ⊢
    by_cases htracks : TracksFor settings throttle (env, args) rcd k
    · obtain ⟨rule, hrule, heff, hk⟩ := htracks
      have hagrees := hagrees rule hrule heff
      obtain ⟨-, hperiod⟩ := mem_of_effective heff
      have hseen := nodup_throttleRecords hids (throttleKind args) addrs
      have hrow := find?_record_of_tracked hsel hseen hrule heff hperiod hagrees hfailed
      simp only at hk
      rw [hk] at hrow
      refine .inl ⟨rfl, ⟨rule, hrule, heff, hk⟩, hperiod, hrow, fun heff' => ?_⟩
      have hpass := not_exceeds_of_maxMsgs hsel heff' hperiod hagrees hmsgs
      rw [hk] at hpass
      exact hpass
    · refine .inr ⟨?_, fun h => htracks h.2⟩
      rw [find?_record_of_not_tracked hsel (k := (rcd.id, k)) ?_ hfailed]
      intro rule rcd' hrule heff heq
      -- the settings of the table have ids of their own
      obtain rfl : rcd = rcd' :=
        List.inj_on_of_nodup_map hids hrcd (mem_of_effective heff).1 (Prod.mk.inj heq).1.symm
      exact htracks ⟨rule, hrule, heff, (Prod.mk.inj heq).2⟩
  · refine .inr ⟨hsame _, ?_⟩
    rintro ⟨haccepts, rule, -, heff, -⟩
    rcases hnone with hno | hno
    · exact hno haccepts
    · rw [hno rule] at heff
      cases heff

/-- The same of a setting of a known kind, whose records are under texts of its kind. -/
theorem setting_cases {settings : Settings} {throttle : List Setting}
    (hids : (throttle.map (·.id)).Nodup) {rcd : Setting} (hrcd : rcd ∈ throttle)
    (hkind : rcd.TracksClient ∨ rcd.TracksUser) {call : Call}
    (hclient : IsClientAddress call.2.clientAddress) {t : TrackingTable} (hkeys : KeysOf rcd t)
    (hfailed : (applyThrottle settings throttle call t).1.failed = []) (k : Str) :
    ((applyThrottle settings throttle call t).1.Accepts ∧
      Recorded settings throttle call rcd k (t.find? (rcd.id, k))
        ((applyThrottle settings throttle call t).2.find? (rcd.id, k))) ∨
    (((applyThrottle settings throttle call t).2.find? (rcd.id, k)).map core =
        (t.find? (rcd.id, k)).map core ∧
      ¬ ((applyThrottle settings throttle call t).1.Accepts ∧
        TracksFor settings throttle call rcd k)) :=
  setting_cases_of_agrees hids hrcd (fun _ _ heff => agrees_of_keysOf heff hkind hclient hkeys)
    hfailed k

/-- A call keeps the records of a setting under texts of its kind. -/
theorem keysOf_step {settings : Settings} {throttle : List Setting}
    (hids : (throttle.map (·.id)).Nodup) {rcd : Setting} (hrcd : rcd ∈ throttle)
    (hkind : rcd.TracksClient ∨ rcd.TracksUser) {call : Call}
    (hclient : IsClientAddress call.2.clientAddress) {t : TrackingTable} (hkeys : KeysOf rcd t)
    (hfailed : (applyThrottle settings throttle call t).1.failed = []) :
    KeysOf rcd (applyThrottle settings throttle call t).2 := by
  intro k row hrow
  rcases setting_cases hids hrcd hkind hclient hkeys hfailed k with ⟨-, hrec⟩ | ⟨hsame, -⟩
  · obtain ⟨rule, -, heff, rfl⟩ := hrec.tracks
    exact tracksUnder_trackKeyOf heff hkind hclient
  · rw [hrow, Option.map_some] at hsame
    obtain ⟨row', hrow', -⟩ := Option.map_eq_some_iff.mp hsame.symm
    exact hkeys k row' hrow'

end IRedAPD.Throttle

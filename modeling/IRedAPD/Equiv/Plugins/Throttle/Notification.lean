/-
  Notifications over whole runs.

  A mail is held back when the last one was sent in the window of the record.
  That works for a message which finds the record of its setting live.  Without
  a record there is nothing to remember the mail; the window of an expired
  record is only reset where the message is recorded, so it begins anew with
  every message that is rejected; a mail in the second the window began in does
  not count as one of the window; and the check of `max_quota` takes the time
  of the last mail from the check of `max_msgs` or from the record that was
  loaded last.  When no message meets any of these (`FindsWindow`), a window has
  at most one mail (`at_most_one_notification`).  Each names the rule and the
  value that rejected the message (`mail_names`).
-/
import IRedAPD.Equiv.Plugins.Throttle.Cron
import IRedAPD.Equiv.Plugins.Throttle.Inheritance
import IRedAPD.Equiv.Plugins.Throttle.TrackingKeys

namespace IRedAPD.Throttle

open Py History

variable [Unicode]

/-! ### Mails, windows and what a check reads -/

/-- The notification for a setting, a tracked account and a rule is sent. -/
structure Notifies (settings : Settings) (throttle : List Setting) (rcd : Setting) (k : Str)
    (rule : Rule) (call : Call) (t : TrackingTable) : Prop where
  mails_ne : (applyThrottle settings throttle call t).1.mails ≠ []
  rejectedBy : rejectedBy settings throttle call t = some rule
  effective : effective settings throttle call rule = some rcd
  trackKey : trackKeyOf call.2 rcd.account = k

/-- The record of a setting under a tracked account is inserted or reset. -/
def Renews (settings : Settings) (throttle : List Setting) (rcd : Setting) (k : Str) (call : Call)
    (t : TrackingTable) : Prop :=
  (t.find? (rcd.id, k) = none ∧
    (applyThrottle settings throttle call t).2.find? (rcd.id, k) ≠ none) ∨
  ∃ row row', t.find? (rcd.id, k) = some row ∧ row.2.initTime + rcd.period < call.1.now ∧
    (applyThrottle settings throttle call t).2.find? (rcd.id, k) = some row' ∧
      row'.2.initTime = call.1.now

/-- **At most one notification per window**: of two mails for the same setting, tracked account and
rule that are no more than a period apart, the record has been inserted or reset in between. -/
def AtMostOncePerWindow (settings : Settings) (throttle : List Setting) (calls : List Call) : Prop :=
  ∀ before first between second later, calls = before ++ first :: (between ++ second :: later) →
    ∀ rcd k rule,
      Notifies settings throttle rcd k rule first
          (after (applyThrottle settings throttle) Sql.Table.empty before) →
        Notifies settings throttle rcd k rule second
            (after (applyThrottle settings throttle) Sql.Table.empty (before ++ first :: between)) →
          second.1.now ≤ first.1.now + rcd.period →
            ¬ Throughout (applyThrottle settings throttle)
              (fun call t => ¬ Renews settings throttle rcd k call t)
              (after (applyThrottle settings throttle) Sql.Table.empty (before ++ [first])) between

/-- Calls one after the other: the mail of one is sent before the next one begins. -/
def Sequential (calls : List Call) : Prop :=
  (calls.flatMap fun call => [call.1.now, call.1.notifyTime]).Pairwise (· ≤ ·)

/-- A mail is due in the window that begins at a time, when the last one was sent at another. -/
def Due (start period last : ℕ) : Prop := last = 0 ∨ ¬ (start < last ∧ last ≤ start + period)

/-- The `_last_notify_time` of both checks: the one of the record of the `max_msgs` setting, if there
is such a setting, and otherwise the one of the record that was selected last. -/
def lastNotifyTime (settings : Settings) (throttle : List Setting) (call : Call) (t : TrackingTable) :
    ℕ :=
  (effective settings throttle call .maxMsgs).elim
    ((t.select fun row => (trackingKeys settings throttle call).contains row.2.key).getLast?.elim 0
      (·.2.lastNotifyTime))
    fun rcd => (rowRead call rcd t).elim 0 (·.2.lastNotifyTime)

/-- What a message that a tracked rule rejects has to find for its mail to be held back: the record of
the rule's setting, live, whose last mail was not sent in the second its window began in; and a time
of the last mail that lets none pass which the one of that record would not. -/
def FindsWindow (settings : Settings) (throttle : List Setting) (call : Call) (t : TrackingTable) :
    Prop :=
  ∀ rule rcd, rule.isTracked = true → rejectedBy settings throttle call t = some rule →
    effective settings throttle call rule = some rcd →
      ∃ id r, rowRead call rcd t = some (id, r) ∧ call.1.now ≤ r.initTime + rcd.period ∧
        r.lastNotifyTime ≠ r.initTime ∧
        (Due r.initTime rcd.period (lastNotifyTime settings throttle call t) →
          Due r.initTime rcd.period r.lastNotifyTime)

/-! ### The mail of a rejection -/

section Rejection

variable {settings : Settings} {throttle : List Setting} {env : Env} {args : Args} {sel : Selection}
  {t : TrackingTable}

omit [Unicode] in
/-- The mail of a rejection. -/
theorem mails_reject_ne_nil_iff (env : Env) (args : Args) (info : Str) (e : Exceeded)
    (t : TrackingTable) : (reject env args info e t).1.mails ≠ [] ↔ e.notifies env.now = true := by
  unfold reject
  split_ifs with hdue
  · exact iff_of_true (List.cons_ne_nil _ _) hdue
  · exact iff_of_false (fun h => h rfl) hdue

omit [Unicode] in
theorem eq_of_mem_mails_reject {info : Str} {e : Exceeded} {mail : Mail}
    (h : mail ∈ (reject env args info e t).1.mails) : mail = notification args info e := by
  unfold reject at h
  split_ifs at h
  · exact List.mem_singleton.mp h
  · exact absurd h List.not_mem_nil

omit [Unicode] in
/-- A rejection changes at most the time of the last mail, of one record. -/
theorem find?_reject_cases (env : Env) (args : Args) (info : Str) (e : Exceeded) (t : TrackingTable)
    (k : ℕ × Str) :
    (reject env args info e t).2.find? k = t.find? k ∨ ∃ id r, t.find? k = some (id, r) ∧
      (reject env args info e t).2.find? k = some (id, r.notify env.notifyTime) := by
  have hsend : ∀ mail, (sendNotification env mail e.ts.trackingId t).2.find? k = t.find? k ∨
      ∃ id r, t.find? k = some (id, r) ∧
        (sendNotification env mail e.ts.trackingId t).2.find? k =
          some (id, r.notify env.notifyTime) := by
    intro mail
    unfold sendNotification
    split
    · exact .inl rfl
    · exact .inl rfl
    · split_ifs
      · exact .inl rfl
      · exact .inl rfl
      · rw [Sql.Table.find?_update]
        cases hrow : t.find? k with
        | none => exact .inl rfl
        | some row =>
          rw [Option.map_some]
          split_ifs
          · exact .inr ⟨row.1, row.2, rfl, rfl⟩
          · exact .inl rfl
  unfold reject
  split_ifs
  · exact hsend _
  · exact .inl rfl

omit [Unicode] in
/-- A mail that is sent for a record is remembered by it. -/
theorem find?_reject_of_notifies {info : Str} {e : Exceeded} {id : ℕ} {r : Tracking} {k : ℕ × Str}
    (hmail : ∀ mail, env.sendmail mail = .ok true) (hrow : t.find? k = some (id, r))
    (hid : e.ts.trackingId = some id) (hnotifies : e.notifies env.now = true)
    (hfailed : (reject env args info e t).1.failed = []) :
    (reject env args info e t).2.find? k = some (id, r.notify env.notifyTime) := by
  have hpos : id ≠ 0 := Nat.ne_of_gt (t.id_pos (id, r) (Sql.Table.find?_eq_some_iff.mp hrow).1)
  unfold reject at hfailed ⊢
  rw [if_pos hnotifies] at hfailed ⊢
  unfold sendNotification at hfailed ⊢
  simp only [hmail, hid, if_neg hpos] at hfailed ⊢
  split_ifs at hfailed ⊢
  show (t.update (fun row => row.1 = id) (Tracking.notify env.notifyTime)
    (Tracking.key_notify env.notifyTime)).find? k = _
  rw [Sql.Table.find?_update, hrow, Option.map_some, if_pos (decide_eq_true rfl)]

/-- A message that a tracked rule rejects comes to the tracking data. -/
theorem exists_reaches (hids : (throttle.map (·.id)).Nodup) {rule : Rule}
    (hrule : rule.isTracked = true)
    (hrejected : rejectedBy settings throttle (env, args) t = some rule) :
    ∃ sel, Reaches settings throttle env args sel := by
  unfold rejectedBy at hrejected
  cases haddrs : possibleAddrs settings env args with
  | error e =>
    simp only [haddrs] at hrejected
    cases hrejected
  | ok addrs =>
    have hsel := valid_effective hids haddrs
    simp only [haddrs] at hrejected
    set sel := selection args (throttleRecords throttle (throttleKind args) addrs) with hdef
    split_ifs at hrejected with hselect hsize hrcpts htracking
    · rw [← Option.some.inj hrejected] at hrule
      cases hrule
    · rw [← Option.some.inj hrejected] at hrule
      cases hrule
    · obtain ⟨e, he, -⟩ := Option.map_eq_some_iff.mp hrejected
      obtain ⟨rcd, hrcd, -⟩ := pos_of_exceeded hsel he
      refine ⟨sel, ⟨addrs, haddrs, hdef⟩, Bool.eq_false_iff.mpr hselect, fun hempty => ?_, ?_,
        Bool.eq_false_iff.mpr htracking⟩
      · have hget := hsel.settings e.rule
        rw [hempty, Dict.get?_nil, hrcd] at hget
        cases hget
      · unfold checkMessage
        rw [if_neg hsize, if_neg hrcpts]

/-- The rule that rejects a message which comes to the tracking data. -/
theorem Reaches.rejectedBy_eq (h : Reaches settings throttle env args sel) (t : TrackingTable) :
    rejectedBy settings throttle (env, args) t =
      ((maxMsgsExceeded env args (loadedFor env.now args sel t)).or
        (maxQuotaExceeded env (loadedFor env.now args sel t))).map (·.rule) := by
  obtain ⟨addrs, haddrs, rfl⟩ := h.addrs
  have hmessage := h.message
  unfold checkMessage at hmessage
  unfold rejectedBy
  simp only [haddrs]
  split_ifs at hmessage with hsize hrcpts
  rw [h.selectThrottle, if_neg Bool.false_ne_true, if_neg hsize, if_neg hrcpts, h.selectTracking,
    if_neg Bool.false_ne_true]

/-- **A mail names what rejected the message**: the user in its subject and its body, the client, the
rule and the value of the setting that decides it. -/
theorem mail_names (hids : (throttle.map (·.id)).Nodup) {mail : Mail}
    (h : mail ∈ (applyThrottle settings throttle (env, args) t).1.mails) :
    ∃ rule rcd, rejectedBy settings throttle (env, args) t = some rule ∧
      effective settings throttle (env, args) rule = some rcd ∧
      mail.subject = "Throttle quota exceeded: ".toList ++ args.user ++ ", ".toList ++ rule.name ++
        "=".toList ++ intStr (rule.value rcd) ++ " ".toList ++ rule.valueUnit ∧
      "- User: ".toList ++ args.user ++ "\n".toList ++
        "- Client IP address: ".toList ++ args.clientAddress ++ "\n".toList ++
        "- Throttle type: ".toList ++ throttleKind args ++ "\n".toList ++
        "- Throttle setting: ".toList ++ rule.name ++ "\n".toList ++
        "- Limit: ".toList ++ intStr (rule.value rcd) ++ " ".toList ++ rule.valueUnit <+: mail.body := by
  rcases applyThrottle_parts settings hids env args with ⟨sel, hreaches, happly⟩ | ⟨o, hearly⟩
  · rw [happly, applyTracking_eq hreaches.selectTracking] at h
    rw [hreaches.rejectedBy_eq]
    obtain ⟨seen, -, -, hsel⟩ := hreaches.valid hids
    cases he : (maxMsgsExceeded env args (loadedFor env.now args sel t)).or
        (maxQuotaExceeded env (loadedFor env.now args sel t)) with
    | none =>
      rw [he] at h
      exact absurd h List.not_mem_nil
    | some e =>
      obtain ⟨rcd, hrcd, hvalue, -⟩ := value_of_exceeded hsel he
      refine ⟨e.rule, rcd, rfl, hrcd, ?_⟩
      rw [he] at h
      obtain rfl := eq_of_mem_mails_reject h
      unfold notification
      rw [hvalue]
      refine ⟨rfl, "\n".toList ++ ("- Detailed setting: ".toList ++ (sel.throttleInfo ++ "\n".toList)), ?_⟩
      simp only [List.append_assoc]
  · rw [hearly.apply, hearly.mails] at h
    exact absurd h List.not_mem_nil

end Rejection

/-! ### One call -/

omit [Unicode] in
/-- The time of the last mail that is loaded last. -/
theorem lastNotifyTime_foldl (now : ℕ) (sel : Selection) (rows : List (ℕ × Tracking)) (ld : Loaded) :
    (rows.foldl (Loaded.takeRecord now sel) ld).lastNotifyTime =
      rows.getLast?.elim ld.lastNotifyTime fun row => some row.2.lastNotifyTime := by
  induction rows using List.reverseRecOn with
  | nil => rfl
  | append_singleton rows row ih =>
    rw [List.foldl_append, List.getLast?_append]
    rfl

section Call

variable {settings : Settings} {throttle : List Setting} (hids : (throttle.map (·.id)).Nodup)
  {env : Env} {args : Args} (hclient : IsClientAddress args.clientAddress) {t : TrackingTable}
  (hrecords : AreRecords throttle t)

include hids hclient hrecords

/-- **What a message that a tracked rule rejects is checked against**: the record its setting reads,
and the time of the last mail. -/
theorem exists_exceeded {rule : Rule} {rcd : Setting} (hrule : rule.isTracked = true)
    (hrejected : rejectedBy settings throttle (env, args) t = some rule)
    (heff : effective settings throttle (env, args) rule = some rcd) :
    ∃ info e, applyThrottle settings throttle (env, args) t = reject env args info e t ∧
      e.ts = rcd.loaded env.now args rule (rowRead (env, args) rcd t) ∧
      e.lastNotifyTime = lastNotifyTime settings throttle (env, args) t := by
  obtain ⟨sel, hreaches⟩ := exists_reaches hids hrule hrejected
  obtain ⟨addrs, haddrs, hdef⟩ := hreaches.addrs
  have hin : InTable throttle args (effective settings throttle (env, args)) :=
    inTable_effective haddrs hclient
  have hsel := valid_effective hids haddrs
  rw [← hdef] at hsel
  rw [hreaches.rejectedBy_eq] at hrejected
  obtain ⟨e, he, rfl⟩ := Option.map_eq_some_iff.mp hrejected
  refine ⟨sel.throttleInfo, e, ?_, ?_⟩
  · rw [hreaches.applyThrottle_eq, applyTracking_eq hreaches.selectTracking, he]
  have hload : ∀ {rule rcd}, rule.isTracked = true →
      effective settings throttle (env, args) rule = some rcd →
        (loadedFor env.now args sel t).tSettings.get? rule =
          some (rcd.loaded env.now args rule (rowRead (env, args) rcd t)) :=
    fun hrule heff => get?_load_eq hsel hin hrecords hrule heff
  have hlast : ∀ {rcd : Setting} {rule : Rule} (row : Option (ℕ × Tracking)),
      (rcd.loaded env.now args rule row).lastNotifyTime = row.elim 0 (·.2.lastNotifyTime) := by
    intro rcd rule row
    cases row <;> rfl
  rcases Option.or_eq_some_iff.mp he with hmsgs | ⟨-, hquota⟩
  · obtain ⟨ts, hget, -, rfl⟩ := maxMsgsExceeded_eq_some_iff.mp hmsgs
    have heff : effective settings throttle (env, args) .maxMsgs = some rcd := heff
    rw [hload rfl heff] at hget
    have hts := (Option.some.inj hget).symm
    refine ⟨hts, ?_⟩
    simp only [lastNotifyTime, heff, Option.elim_some, hts, hlast]
  · obtain ⟨ts, hget, -, rfl⟩ := maxQuotaExceeded_eq_some_iff.mp hquota
    have heff : effective settings throttle (env, args) .maxQuota = some rcd := heff
    rw [hload rfl heff] at hget
    refine ⟨(Option.some.inj hget).symm, ?_⟩
    -- the time is that of the record of `max_msgs`, or of the last row read if it has none
    cases hmsgs : effective settings throttle (env, args) .maxMsgs with
    | some rcd' => simp only [lastNotifyTime, hmsgs, hload rfl hmsgs, Option.elim_some, hlast]
    | none =>
      have hwhere : trackingKeys settings throttle (env, args) = sel.trackingSqlWhere := by
        simp only [trackingKeys, haddrs, hdef]
      have hloaded : (loadedFor env.now args sel t).lastNotifyTime =
          (selected sel t).getLast?.elim none fun row => some row.2.lastNotifyTime :=
        lastNotifyTime_foldl env.now sel _ _
      simp only [lastNotifyTime, hmsgs, get?_load_of_none hsel hmsgs, Option.elim_none, hwhere, hloaded,
        selected]
      cases (t.select fun row => sel.trackingSqlWhere.contains row.2.key).getLast? <;> rfl

/-- **What a call does to a record of a setting**: it is left, it remembers a mail, or the message is
counted in it. -/
theorem row_cases {rcd : Setting} (hrcd : rcd ∈ throttle)
    (hfailed : (applyThrottle settings throttle (env, args) t).1.failed = []) (k : Str) :
    (applyThrottle settings throttle (env, args) t).2.find? (rcd.id, k) = t.find? (rcd.id, k) ∨
    (∃ id r, t.find? (rcd.id, k) = some (id, r) ∧
      (applyThrottle settings throttle (env, args) t).2.find? (rcd.id, k) =
        some (id, r.notify env.notifyTime)) ∨
    ((applyThrottle settings throttle (env, args) t).2.find? (rcd.id, k)).map Prod.snd =
      some (rcd.next env.now args k ((t.find? (rcd.id, k)).map Prod.snd)) := by
  rcases applyThrottle_parts settings hids env args with ⟨sel, hreaches, happly⟩ | ⟨o, hearly⟩
  · rw [happly] at hfailed ⊢
    rcases hreaches.ends t with ⟨e, -, hreject⟩ | ⟨-, -, hrecord⟩
    · rw [hreject]
      rcases find?_reject_cases env args sel.throttleInfo e t (rcd.id, k) with hsame | hmail
      · exact .inl hsame
      · exact .inr (.inl hmail)
    · rw [hrecord] at hfailed ⊢
      obtain ⟨addrs, haddrs, -⟩ := hreaches.addrs
      obtain ⟨seen, hseen, -, hsel⟩ := hreaches.valid hids
      have hin : InTable throttle args (effective settings throttle (env, args)) :=
        inTable_effective haddrs hclient
      rcases find?_record_of_succeeds hseen hsel hin hrecords hfailed (rcd.id, k) with
        hsame | ⟨rule, rcd', -, heff, hk, hnext⟩
      · exact .inl hsame
      · -- the settings of the table have ids of their own
        obtain rfl := List.inj_on_of_nodup_map hids hrcd (hin.mem rule rcd' heff) (Prod.mk.inj hk).1
        rw [← (Prod.mk.inj hk).2] at hnext
        exact .inr (.inr hnext)
  · rw [hearly.apply]
    exact .inl rfl

/-- A call in which no statement fails keeps the records those of their settings. -/
theorem areRecords_of_succeeds
    (hfailed : (applyThrottle settings throttle (env, args) t).1.failed = []) :
    AreRecords throttle (applyThrottle settings throttle (env, args) t).2 := by
  rcases applyThrottle_parts settings hids env args with ⟨sel, hreaches, happly⟩ | ⟨o, hearly⟩
  · rw [happly] at hfailed ⊢
    rcases hreaches.ends t with ⟨e, -, hreject⟩ | ⟨-, -, hrecord⟩
    · rw [hreject]
      exact hrecords.of_core (find?_reject env args sel.throttleInfo e t)
    · rw [hrecord] at hfailed ⊢
      obtain ⟨addrs, haddrs, -⟩ := hreaches.addrs
      obtain ⟨seen, hseen, -, hsel⟩ := hreaches.valid hids
      have hin : InTable throttle args (effective settings throttle (env, args)) :=
        inTable_effective haddrs hclient
      refine areRecords_of_next env hids hin hrecords fun k => ?_
      rcases find?_record_of_succeeds hseen hsel hin hrecords hfailed k with
        hsame | ⟨rule, rcd, -, heff, hk, hnext⟩
      · exact .inl hsame
      · exact .inr ⟨rule, rcd, heff, hk, t.find? k, fun r hr => hr, hnext⟩
  · rw [hearly.apply]
    exact hrecords

end Call

/-! ### Windows that are not renewed -/

/-- The record of a setting remembers a mail that was sent in its window, no later than some time. -/
def Remembers (rcd : Setting) (k : Str) (time : ℕ) (t : TrackingTable) : Prop :=
  ∃ id r, t.find? (rcd.id, k) = some (id, r) ∧ r.initTime ≤ r.lastNotifyTime ∧
    r.lastNotifyTime ≠ 0 ∧ r.lastNotifyTime ≤ time

/-- No window of the records began later than some time. -/
def BegunBy (throttle : List Setting) (time : ℕ) (t : TrackingTable) : Prop :=
  ∀ rcd ∈ throttle, ∀ k row, t.find? (rcd.id, k) = some row → row.2.initTime ≤ time

section Windows

variable {settings : Settings} {throttle : List Setting} (hids : (throttle.map (·.id)).Nodup)
  {call : Call} (hclient : IsClientAddress call.2.clientAddress) {t : TrackingTable}
  (hrecords : AreRecords throttle t) {rcd : Setting} {k : Str} {rule : Rule}

/-- The guard of a mail for a live record. -/
theorem notifies_iff_due {now : ℕ} {args : Args} (row : ℕ × Tracking) (hinit : row.2.initTime ≠ 0)
    (hlive : now ≤ row.2.initTime + rcd.period) {e : Exceeded}
    (hts : e.ts = rcd.loaded now args rule (some row)) :
    e.notifies now = true ↔ Due row.2.initTime rcd.period e.lastNotifyTime := by
  have hexpired : e.ts.expired now = false := by
    rw [hts]
    have hrow : (rcd.loaded now args rule (some row)).expired now =
        row.2.expired now rcd.period := expired_withRecord now row _
    rw [hrow, Tracking.expired, decide_eq_false_iff_not]
    exact fun h => absurd h.2.2 (not_lt.mpr hlive)
  have hstart : e.ts.windowStart now = row.2.initTime := by
    unfold TSetting.windowStart
    rw [hexpired, if_neg Bool.false_ne_true, hts]
    exact if_neg hinit
  have hperiod : e.ts.period = rcd.period := by
    rw [hts]
    rfl
  unfold Exceeded.notifies Due
  rw [hstart, hperiod, decide_eq_true_eq]

include hids

/-- The rule that rejects a message with a mail is one that is tracked. -/
theorem Notifies.isTracked (h : Notifies settings throttle rcd k rule call t) :
    rule.isTracked = true := by
  obtain ⟨env, args⟩ := call
  have hmails := h.mails_ne
  rcases applyThrottle_parts settings hids env args with ⟨sel, hreaches, -⟩ | ⟨o, hearly⟩
  · have hrejected := h.rejectedBy
    rw [hreaches.rejectedBy_eq] at hrejected
    obtain ⟨e, he, rfl⟩ := Option.map_eq_some_iff.mp hrejected
    rcases Option.or_eq_some_iff.mp he with hmsgs | ⟨-, hquota⟩
    · obtain ⟨ts, -, -, rfl⟩ := maxMsgsExceeded_eq_some_iff.mp hmsgs
      rfl
    · obtain ⟨ts, -, -, rfl⟩ := maxQuotaExceeded_eq_some_iff.mp hquota
      rfl
  · rw [hearly.apply] at hmails
    exact absurd hearly.mails hmails

include hclient hrecords

/-- What a mail is sent for: the record of its setting, live, and the guard lets it pass. -/
theorem Notifies.exists_row (hfinds : FindsWindow settings throttle call t)
    (h : Notifies settings throttle rcd k rule call t) :
    ∃ info e id r, applyThrottle settings throttle call t = reject call.1 call.2 info e t ∧
      e.ts.trackingId = some id ∧ e.notifies call.1.now = true ∧ t.find? (rcd.id, k) = some (id, r) ∧
      call.1.now ≤ r.initTime + rcd.period ∧ r.lastNotifyTime ≠ r.initTime ∧
      Due r.initTime rcd.period r.lastNotifyTime := by
  obtain ⟨env, args⟩ := call
  have hrule := h.isTracked hids
  obtain ⟨info, e, happly, hts, hlast⟩ :=
    exists_exceeded hids hclient hrecords hrule h.rejectedBy h.effective
  obtain ⟨id, r, hread, hlive, hne, hdue⟩ := hfinds rule rcd hrule h.rejectedBy h.effective
  have hrow : t.find? (rcd.id, k) = some (id, r) := by
    unfold rowRead at hread
    split_ifs at hread
    rw [← h.trackKey]
    exact hread
  have hnotifies : e.notifies env.now = true := by
    have hmails := h.mails_ne
    rw [happly, mails_reject_ne_nil_iff] at hmails
    exact hmails
  rw [hread] at hts
  have hinit : r.initTime ≠ 0 := hrecords.initTime_ne (mem_of_effective h.effective).1 hrow
  refine ⟨info, e, id, r, happly, by rw [hts]; rfl, hnotifies, hrow, hlive, hne, hdue ?_⟩
  rw [← hlast]
  exact (notifies_iff_due (id, r) hinit hlive hts).mp hnotifies

/-- **A mail is remembered** by the record of its setting. -/
theorem remembers_of_notifies (hmail : ∀ mail, call.1.sendmail mail = .ok true)
    (hfailed : (applyThrottle settings throttle call t).1.failed = [])
    (hfinds : FindsWindow settings throttle call t) (hbegun : BegunBy throttle call.1.now t)
    (hle : call.1.now ≤ call.1.notifyTime) (h : Notifies settings throttle rcd k rule call t) :
    Remembers rcd k call.1.notifyTime (applyThrottle settings throttle call t).2 := by
  obtain ⟨info, e, id, r, happly, hid, hnotifies, hrow, -⟩ :=
    h.exists_row hids hclient hrecords hfinds
  rw [happly] at hfailed ⊢
  refine ⟨id, r.notify call.1.notifyTime,
    find?_reject_of_notifies hmail hrow hid hnotifies hfailed, ?_, ?_, le_refl _⟩
  · show r.initTime ≤ call.1.notifyTime
    exact le_trans (hbegun rcd (mem_of_effective h.effective).1 k (id, r) hrow) hle
  · show call.1.notifyTime ≠ 0
    have hpos := call.1.now_pos
    omega

/-- **No second mail** is sent for a record that remembers one. -/
theorem not_notifies_of_remembers (hfinds : FindsWindow settings throttle call t)
    (hremembers : Remembers rcd k call.1.now t) :
    ¬ Notifies settings throttle rcd k rule call t := by
  intro h
  obtain ⟨info, e, id, r, -, -, -, hrow, hlive, hne, hdue⟩ :=
    h.exists_row hids hclient hrecords hfinds
  obtain ⟨id', r', hrow', hafter, hsome, hbefore⟩ := hremembers
  obtain ⟨rfl, rfl⟩ := Prod.mk.inj (Option.some.inj (hrow.symm.trans hrow'))
  rcases hdue with hzero | hout
  · exact hsome hzero
  · -- the last mail was sent after the window began, and before the message came
    omega

/-- A call that does not renew the record leaves it to remember the mail. -/
theorem remembers_step (hrcd : rcd ∈ throttle)
    (hfailed : (applyThrottle settings throttle call t).1.failed = [])
    (hle : call.1.now ≤ call.1.notifyTime)
    (hrenews : ¬ Renews settings throttle rcd k call t) (h : Remembers rcd k call.1.now t) :
    Remembers rcd k call.1.notifyTime (applyThrottle settings throttle call t).2 := by
  obtain ⟨env, args⟩ := call
  obtain ⟨id, r, hrow, hafter, hsome, hbefore⟩ := h
  have hbefore : r.lastNotifyTime ≤ env.now := hbefore
  have hle : env.now ≤ env.notifyTime := hle
  rcases row_cases hids hclient hrecords hrcd hfailed k with hsame | ⟨id', r', hrow', hmail⟩ | hnext
  · exact ⟨id, r, hsame.trans hrow, hafter, hsome, le_trans hbefore hle⟩
  · obtain ⟨rfl, rfl⟩ := Prod.mk.inj (Option.some.inj (hrow.symm.trans hrow'))
    have hpos := env.now_pos
    refine ⟨id, r.notify env.notifyTime, hmail, ?_, ?_, le_refl _⟩
    · show r.initTime ≤ env.notifyTime
      omega
    · show env.notifyTime ≠ 0
      omega
  · obtain ⟨row, hnew, hval⟩ := Option.map_eq_some_iff.mp hnext
    rw [hrow, Option.map_some] at hval
    have hinit : r.initTime ≠ 0 := hrecords.initTime_ne hrcd hrow
    by_cases hexpired : r.expired env.now rcd.period = true
    · -- the message would have reset the record
      refine absurd (.inr ⟨(id, r), row, hrow, (of_decide_eq_true hexpired).2.2, hnew, ?_⟩) hrenews
      rw [hval]
      simp only [Setting.next, if_pos hexpired]
    · refine ⟨row.1, row.2, hnew, ?_, ?_, ?_⟩
      · rw [hval]
        simp only [Setting.next, if_neg hexpired, if_neg hinit]
        exact hafter
      · rw [hval]
        simp only [Setting.next, if_neg hexpired]
        exact hsome
      · rw [hval]
        simp only [Setting.next, if_neg hexpired]
        exact le_trans hbefore hle

/-- A call begins no window later than its own time. -/
theorem begunBy_step (hfailed : (applyThrottle settings throttle call t).1.failed = [])
    (hbegun : BegunBy throttle call.1.now t) :
    BegunBy throttle call.1.now (applyThrottle settings throttle call t).2 := by
  obtain ⟨env, args⟩ := call
  intro rcd hrcd k row hafter
  rcases row_cases hids hclient hrecords hrcd hfailed k with hsame | ⟨id, r, hrow, hmail⟩ | hnext
  · rw [hsame] at hafter
    exact hbegun rcd hrcd k row hafter
  · rw [hmail] at hafter
    rw [← Option.some.inj hafter]
    exact hbegun rcd hrcd k (id, r) hrow
  · rw [hafter, Option.map_some, Option.some.injEq] at hnext
    rw [hnext]
    cases hrow : t.find? (rcd.id, k) with
    | none => exact le_refl _
    | some row₀ =>
      have hold : row₀.2.initTime ≤ env.now := hbegun rcd hrcd k row₀ hrow
      simp only [Option.map_some, Setting.next]
      split_ifs
      · exact le_refl _
      · exact le_refl _
      · exact hold

end Windows

/-- A message that `max_msgs` rejects is checked against the last mail of its own record. -/
theorem findsWindow_of_maxMsgs {settings : Settings} {throttle : List Setting} {call : Call}
    {t : TrackingTable} (rcd : Setting) (id : ℕ) (r : Tracking)
    (hrejected : rejectedBy settings throttle call t = some .maxMsgs)
    (heff : effective settings throttle call .maxMsgs = some rcd)
    (hread : rowRead call rcd t = some (id, r)) (hlive : call.1.now ≤ r.initTime + rcd.period)
    (hne : r.lastNotifyTime ≠ r.initTime) : FindsWindow settings throttle call t := by
  intro rule rcd' _ hrejected' heff'
  obtain rfl := Option.some.inj (hrejected.symm.trans hrejected')
  obtain rfl := Option.some.inj (heff.symm.trans heff')
  refine ⟨id, r, hread, hlive, hne, ?_⟩
  simp only [lastNotifyTime, heff, Option.elim_some, hread]
  exact fun h => h

/-! ### Runs -/

omit [Unicode] in
theorem Remembers.mono {rcd : Setting} {k : Str} {x y : ℕ} (hle : x ≤ y) {t : TrackingTable}
    (h : Remembers rcd k x t) : Remembers rcd k y t := by
  obtain ⟨id, r, hrow, hafter, hsome, hbefore⟩ := h
  exact ⟨id, r, hrow, hafter, hsome, le_trans hbefore hle⟩

omit [Unicode] in
theorem BegunBy.mono {throttle : List Setting} {x y : ℕ} (hle : x ≤ y) {t : TrackingTable}
    (h : BegunBy throttle x t) : BegunBy throttle y t :=
  fun rcd hrcd k row hrow => le_trans (h rcd hrcd k row hrow) hle

omit [Unicode] in
/-- Calls one after the other come in the order of their times. -/
theorem Sequential.sorted {calls : List Call} (h : Sequential calls) :
    (calls.map (·.1.now)).Pairwise (· ≤ ·) := by
  refine h.sublist ?_
  clear h
  induction calls with
  | nil => exact List.Sublist.slnil
  | cons call calls ih => exact (ih.cons call.1.notifyTime).cons_cons call.1.now

section Run

variable {settings : Settings} {throttle : List Setting} (hids : (throttle.map (·.id)).Nodup)

include hids

/-- **The records of a run** are those of their settings, and no window began after the last call. -/
theorem begunBy_of_run {calls : List Call} (hsorted : (calls.map (·.1.now)).Pairwise (· ≤ ·))
    (hsound : ∀ e ∈ history (applyThrottle settings throttle) Sql.Table.empty calls,
      IsClientAddress e.1.2.clientAddress ∧ e.2.failed = []) {x : ℕ}
    (hlast : ∀ call ∈ calls, call.1.now ≤ x) :
    AreRecords throttle (after (applyThrottle settings throttle) Sql.Table.empty calls) ∧
      BegunBy throttle x (after (applyThrottle settings throttle) Sql.Table.empty calls) := by
  have hrun := invariant (fun call : Call => call.1.now)
    (fun e : Call × Output => IsClientAddress e.1.2.clientAddress ∧ e.2.failed = [])
    (fun h t => AreRecords throttle t ∧ ∀ x, (∀ e ∈ h, e.1.1.now ≤ x) → BegunBy throttle x t)
    (fun h t call hle hok hinv => ?_)
    (h := []) (s := (Sql.Table.empty : TrackingTable)) ⟨?_, fun x _ => ?_⟩ hsorted hsound
  · obtain ⟨hrecords, hbegun⟩ := hrun
    refine ⟨hrecords, hbegun x fun e he => hlast e.1 ?_⟩
    have hmem := List.mem_map_of_mem (f := Prod.fst) he
    rwa [List.nil_append, map_fst_history] at hmem
  · obtain ⟨hclient, hfailed⟩ := hok
    obtain ⟨hrecords, hbegun⟩ := hinv
    refine ⟨areRecords_of_succeeds hids hclient hrecords hfailed, fun x hx => ?_⟩
    have hnow : call.1.now ≤ x :=
      hx _ (List.mem_append_right _ (List.mem_singleton.mpr rfl))
    exact (begunBy_step hids hclient hrecords hfailed (hbegun call.1.now hle)).mono hnow
  · intro row hrow
    cases hrow
  · intro rcd _ k row hrow
    cases hrow

/-- **While no call renews the record, it remembers the mail.** -/
theorem remembers_of_run {rcd : Setting} (hrcd : rcd ∈ throttle) {k : Str} {calls : List Call}
    {time x : ℕ} {t : TrackingTable} (hrecords : AreRecords throttle t)
    (hsequential : (time :: (calls.flatMap (fun call => [call.1.now, call.1.notifyTime]) ++
      [x])).Pairwise (· ≤ ·))
    (hsound : ∀ e ∈ history (applyThrottle settings throttle) t calls,
      IsClientAddress e.1.2.clientAddress ∧ e.2.failed = [])
    (hrenews : Throughout (applyThrottle settings throttle)
      (fun call t => ¬ Renews settings throttle rcd k call t) t calls)
    (h : Remembers rcd k time t) :
    AreRecords throttle (after (applyThrottle settings throttle) t calls) ∧
      Remembers rcd k x (after (applyThrottle settings throttle) t calls) := by
  induction calls generalizing time t with
  | nil =>
    refine ⟨hrecords, h.mono ((List.pairwise_cons.mp hsequential).1 x ?_)⟩
    exact List.mem_singleton.mpr rfl
  | cons call calls ih =>
    obtain ⟨hle, hrest⟩ := List.pairwise_cons.mp hsequential
    obtain ⟨hle', hlater⟩ := List.pairwise_cons.mp hrest
    have hnow : time ≤ call.1.now := hle _ List.mem_cons_self
    have hnotify : call.1.now ≤ call.1.notifyTime := hle' _ List.mem_cons_self
    obtain ⟨hclient, hfailed⟩ := hsound _ List.mem_cons_self
    exact ih (areRecords_of_succeeds hids hclient hrecords hfailed) hlater
      (fun e he => hsound e (List.mem_cons_of_mem _ he)) hrenews.2
      (remembers_step hids hclient hrecords hrcd hfailed hnotify hrenews.1 (h.mono hnow))

/-- **At most one notification per window**, in every run in which each message that a tracked rule
rejects finds the window of the record it is rejected for. -/
theorem at_most_one_notification {calls : List Call} (hsequential : Sequential calls)
    (hsound : ∀ e ∈ history (applyThrottle settings throttle) Sql.Table.empty calls,
      IsClientAddress e.1.2.clientAddress ∧ e.2.failed = [])
    (hmails : ∀ call ∈ calls, ∀ mail, call.1.sendmail mail = .ok true)
    (hfinds : Throughout (applyThrottle settings throttle) (FindsWindow settings throttle)
      Sql.Table.empty calls) :
    AtMostOncePerWindow settings throttle calls := by
  rintro before first between second later rfl rcd k rule hfirst hsecond - hrenews
  have hrcd : rcd ∈ throttle := (mem_of_effective hfirst.effective).1
  set step := applyThrottle settings throttle with hstep
  set t := after step Sql.Table.empty before with ht
  rw [after_append] at hsecond hrenews
  rw [history_append, ← ht] at hsound
  rw [throughout_append, ← ht] at hfinds
  -- the state the first mail is sent in
  have hsorted := hsequential.sorted
  rw [List.map_append, List.map_cons] at hsorted
  obtain ⟨hsorted, hfrom, hbefore⟩ := List.pairwise_append.mp hsorted
  obtain ⟨hrecords, hbegun⟩ := begunBy_of_run hids hsorted
    (fun e he => hsound e (List.mem_append_left _ he))
    (fun call hcall => hbefore _ (List.mem_map_of_mem hcall) _ List.mem_cons_self)
  -- and what is later than it
  unfold Sequential at hsequential
  rw [List.flatMap_append, List.flatMap_cons, List.flatMap_append, List.flatMap_cons] at hsequential
  obtain ⟨-, hsequential, -⟩ := List.pairwise_append.mp hsequential
  obtain ⟨hnotify, hsequential⟩ := List.pairwise_cons.mp hsequential
  have hbetween : (first.1.notifyTime :: (between.flatMap (fun call => [call.1.now, call.1.notifyTime])
      ++ [second.1.now])).Pairwise (· ≤ ·) := by
    refine hsequential.sublist (List.Sublist.cons_cons _ (List.Sublist.append_left ?_ _))
    exact List.Sublist.cons_cons _ (List.nil_sublist _)
  have hsoundFirst := hsound _ (List.mem_append_right _ List.mem_cons_self)
  have hsoundRest : ∀ e ∈ history step (step first t).2 (between ++ second :: later),
      IsClientAddress e.1.2.clientAddress ∧ e.2.failed = [] :=
    fun e he => hsound e (List.mem_append_right _ (List.mem_cons_of_mem _ he))
  rw [history_append] at hsoundRest
  obtain ⟨hfindsFirst, hfindsRest⟩ := hfinds.2
  rw [throughout_append] at hfindsRest
  have hremembers := remembers_of_notifies hids hsoundFirst.1 hrecords
    (hmails first (List.mem_append_right _ List.mem_cons_self)) hsoundFirst.2 hfindsFirst hbegun
    (hnotify _ List.mem_cons_self) hfirst
  have hnext := areRecords_of_succeeds hids hsoundFirst.1 hrecords hsoundFirst.2
  obtain ⟨hrecords', hkept⟩ := remembers_of_run hids hrcd hnext hbetween
    (fun e he => hsoundRest e (List.mem_append_left _ he)) hrenews hremembers
  obtain ⟨hclient, -⟩ := hsoundRest _ (List.mem_append_right _ List.mem_cons_self)
  exact not_notifies_of_remembers hids hclient hrecords' hfindsRest.2.1 hkept hsecond

end Run

/-- A request of a client to which `@ip` applies. -/
def ofClient (now : ℕ) (recipientCount : ℤ) : Call :=
  (⟨now + 1, Nat.succ_pos now, now + 1, fun _ => .ok none, fun _ => .ok true, fun _ => false⟩,
    ⟨[], "1.2.3.4", 10, recipientCount, true, true⟩)

omit [Unicode] in
/-- The mail of the second message holds back the one of the third. -/
theorem at_most_one_notification_two_messages :
    letI := asciiUnicode
    AtMostOncePerWindow {}
      [{ id := 1, account := "@ip", kind := "external", priority := 0, period := 60, maxMsgs := 1 }]
      [ofClient 99 1, ofClient 100 1, ofClient 101 1] := by
  let := asciiUnicode
  refine at_most_one_notification (by decide) (by unfold Sequential; decide)
    (by unfold IsClientAddress; decide) (fun call hcall mail => ?_) ⟨?_, ?_, ?_, trivial⟩
  · simp only [List.mem_cons, List.not_mem_nil, or_false] at hcall
    rcases hcall with rfl | rfl | rfl <;> rfl
  · -- the first message is accepted
    intro rule rcd _ hrejected
    have hnone : rejectedBy {}
        [{ id := 1, account := "@ip", kind := "external", priority := 0, period := 60, maxMsgs := 1 }]
        (ofClient 99 1) Sql.Table.empty = none := by decide
    rw [hnone] at hrejected
    cases hrejected
  · exact findsWindow_of_maxMsgs
      { id := 1, account := "@ip", kind := "external", priority := 0, period := 60, maxMsgs := 1 } 1
      { tid := 1, account := "1.2.3.4", period := 60, curMsgs := 1, curQuota := 10
        initTime := 100, lastTime := 100 }
      (by decide) (by decide) (by decide) (by decide) (by decide)
  · exact findsWindow_of_maxMsgs
      { id := 1, account := "@ip", kind := "external", priority := 0, period := 60, maxMsgs := 1 } 1
      { tid := 1, account := "1.2.3.4", period := 60, curMsgs := 1, curQuota := 10
        initTime := 100, lastTime := 100, lastNotifyTime := 101 }
      (by decide) (by decide) (by decide) (by decide) (by decide)

omit [Unicode] in
/-- A mail in the second the window begins in does not hold back the next one. -/
theorem second_notification_in_window :
    letI := asciiUnicode
    let throttle : List Setting :=
      [{ id := 1, account := "@ip", kind := "external", priority := 0, period := 60, maxMsgs := 1 }]
    let calls := [ofClient 99 1, ofClient 99 1, ofClient 100 1]
    Sequential calls ∧
      (∀ e ∈ history (applyThrottle {} throttle) Sql.Table.empty calls,
        IsClientAddress e.1.2.clientAddress ∧ e.2.failed = []) ∧
      (∀ call ∈ calls, ∀ mail, call.1.sendmail mail = .ok true) ∧
      ¬ AtMostOncePerWindow {} throttle calls := by
  let := asciiUnicode
  intro throttle calls
  refine ⟨by unfold Sequential; decide, by unfold IsClientAddress; decide, fun call hcall mail => ?_,
    fun h => ?_⟩
  · simp only [calls, List.mem_cons, List.not_mem_nil, or_false] at hcall
    rcases hcall with rfl | rfl | rfl <;> rfl
  · refine h [ofClient 99 1] (ofClient 99 1) [] (ofClient 100 1) [] rfl
      { id := 1, account := "@ip", kind := "external", priority := 0, period := 60, maxMsgs := 1 }
      "1.2.3.4".toList .maxMsgs ⟨by decide, by decide, by decide, by decide⟩
      ⟨by decide, by decide, by decide, by decide⟩ (by decide) trivial

end IRedAPD.Throttle

/-
  Throttling with and without the cron job.

  A tracking record that has expired is reset in place where the cron job has
  not run, and inserted anew where it has.  A setting that reads its records
  back sees no difference (`LessAt.curMsgs_eq`, `LessAt.next_same`); one with a
  wildcard account reads none of its records (`TrackingKeys`), and an old one
  makes the insert of its call fail.  `actions_eq` follows for the runs in which
  no call depends on settings of both kinds (`NotMixed`).
-/
import IRedAPD.Equiv.Plugins.Throttle.TrackingKeys
import IRedAPD.Equiv.Tools.CleanupDb
import IRedAPD.Sql.Expiry

namespace IRedAPD.Throttle

open Py History

variable [Unicode]

/-! ### Runs -/

/-- A call of `apply_throttle`, or a run of the cron job. -/
inductive Event where
  | call (call : Call)
  | cleanup (now : ℕ)

/-- When an event happens. -/
def Event.time : Event → ℕ
  | .call c => c.1.now
  | .cleanup now => now

/-- An event that is no run of the cron job. -/
def Event.isCall : Event → Bool
  | .call _ => true
  | .cleanup _ => false

/-- The calls among the events. -/
def callsOf (events : List Event) : List Call :=
  events.filterMap fun
    | .call call => some call
    | .cleanup _ => none

/-- One event, with the action if it is a call. -/
def step (settings : Settings) (throttle : List Setting) :
    Event → TrackingTable → Option (Except Exn Str) × TrackingTable
  | .call call, t =>
    (some (applyThrottle settings throttle call t).1.action, (applyThrottle settings throttle call t).2)
  | .cleanup now, t => (none, CleanupDb.cleanupThrottleTracking settings now t)

/-- The actions of the calls, from an empty table on. -/
def actions (settings : Settings) (throttle : List Setting) (events : List Event) :
    List (Except Exn Str) := answers (step settings throttle) Sql.Table.empty events

/-- The records a setting writes for a call are those it reads. -/
def Reads (call : Call) (rcd : Setting) : Prop :=
  trackKeyOf call.2 rcd.account = call.2.clientAddress ∨ trackKeyOf call.2 rcd.account = call.2.user

instance (call : Call) (rcd : Setting) : Decidable (Reads call rcd) :=
  inferInstanceAs (Decidable (_ ∨ _))

/-- The setting decides `max_msgs` or `max_quota` for the call. -/
def Decides (settings : Settings) (throttle : List Setting) (call : Call) (rcd : Setting) : Prop :=
  ∃ rule : Rule, rule.isTracked = true ∧ effective settings throttle call rule = some rcd

/-- No call is decided by a setting that reads its records and by another one that does not, and no
setting reads its records in one call and not in another. -/
structure NotMixed (settings : Settings) (throttle : List Setting) (calls : List Call) : Prop where
  within : ∀ call ∈ calls, ∀ rcd rcd', Decides settings throttle call rcd →
    Decides settings throttle call rcd' → Reads call rcd → Reads call rcd'
  across : ∀ call ∈ calls, ∀ call' ∈ calls, ∀ rcd, Decides settings throttle call rcd →
    Decides settings throttle call' rcd → Reads call rcd → Reads call' rcd

/-! ### The records of a setting -/

/-- A text the records of a setting are tracked under. -/
def Setting.Owns (rcd : Setting) (k : Str) : Prop :=
  ∃ args : Args, IsClientAddress args.clientAddress ∧ (args.user = [] ∨ '@' ∈ args.user) ∧
    trackKeyOf args rcd.account = k

/-- A tracking record as its setting has written it. -/
structure Setting.IsRecord (rcd : Setting) (r : Tracking) : Prop where
  period_eq : r.period = rcd.period
  initTime_ne : r.initTime ≠ 0
  owns : rcd.Owns r.account

/-- Every tracking record is one of its setting. -/
def AreRecords (throttle : List Setting) (t : TrackingTable) : Prop :=
  ∀ row ∈ t.rows, ∀ rcd ∈ throttle, rcd.id = row.2.tid → rcd.IsRecord row.2

/-- Records that count the same messages in the same window. -/
def SameWindow (r r' : Tracking) : Prop :=
  r.period = r'.period ∧ r.curMsgs = r'.curMsgs ∧ r.curQuota = r'.curQuota ∧ r.initTime = r'.initTime

/-- A record of a setting of the table has the time its window began. -/
theorem AreRecords.initTime_ne {throttle : List Setting} {t : TrackingTable} (h : AreRecords throttle t)
    {rcd : Setting} (hrcd : rcd ∈ throttle) {k : Str} {row : ℕ × Tracking}
    (hrow : t.find? (rcd.id, k) = some row) : row.2.initTime ≠ 0 := by
  obtain ⟨hmem, hkey⟩ := Sql.Table.find?_eq_some_iff.mp hrow
  exact (h row hmem rcd hrcd (Prod.mk.inj hkey).1.symm).initTime_ne

/-- The cron job deletes this record. -/
def Outdated (now : ℕ) (r : Tracking) : Prop := r.initTime + r.period < now

/-- Of the records of a setting a call selects only the one it writes. -/
theorem Setting.Owns.eq_trackKeyOf {rcd : Setting} {k : Str} (h : rcd.Owns k) {args : Args}
    (hclient : IsClientAddress args.clientAddress) (huser : args.user = [] ∨ '@' ∈ args.user)
    (hk : k = args.clientAddress ∨ k = args.user) : k = trackKeyOf args rcd.account := by
  obtain ⟨args', hclient', huser', rfl⟩ := h
  -- no client address is a user
  have hne : ∀ {a b : Args}, IsClientAddress a.clientAddress → (b.user = [] ∨ '@' ∈ b.user) →
      a.clientAddress ≠ b.user := by
    intro a b ha hb heq
    rcases hb with hb | hb
    · exact ha.1 (heq.trans hb)
    · exact ha.2 (heq ▸ hb)
  unfold trackKeyOf at hk ⊢
  split at hk
  · rcases hk with hk | hk
    · exact hk
    · exact absurd hk (hne hclient' huser)
  · rcases hk with hk | hk
    · exact hk
    · exact absurd hk (hne hclient' huser)
  · rfl
  · rfl
  · rcases hk with hk | hk
    · exact absurd hk.symm (hne hclient huser')
    · exact hk

/-! ### A record that has expired and one that is gone -/

section Window

variable {now : ℕ} {rcd : Setting} {o o' : Option (ℕ × Tracking)}

/-- A record of a setting with a period has expired when the cron job deletes it. -/
theorem Setting.IsRecord.expired_of_outdated {r : Tracking} (h : rcd.IsRecord r)
    (hperiod : rcd.period ≠ 0) (hold : Outdated now r) : r.expired now rcd.period = true := by
  unfold Outdated at hold
  rw [h.period_eq] at hold
  exact decide_eq_true ⟨hperiod, h.initTime_ne, hold⟩

omit [Unicode] in
theorem SameWindow.expired_eq {r r' : Tracking} (h : SameWindow r r') (now period : ℕ) :
    r.expired now period = r'.expired now period := by
  unfold Tracking.expired
  rw [h.2.2.2]

/-- **The checks start from the same counters.** -/
theorem LessAt.counters_eq (h : Sql.Table.LessAt (Outdated now) SameWindow o o')
    (hperiod : rcd.period ≠ 0) (hrecord : ∀ row, o = some row → rcd.IsRecord row.2) :
    rcd.curMsgs now (o.map Prod.snd) = rcd.curMsgs now (o'.map Prod.snd) ∧
      rcd.curQuota now (o.map Prod.snd) = rcd.curQuota now (o'.map Prod.snd) := by
  unfold Setting.curMsgs Setting.curQuota
  cases h with
  | absent => exact ⟨rfl, rfl⟩
  | @gone row hold =>
    have hexpired := (hrecord row rfl).expired_of_outdated hperiod hold
    simp only [Option.map_some, Option.map_none, Option.elim_some, Option.elim_none, hexpired,
      if_true, and_self]
  | @same row row' hsame =>
    simp only [Option.map_some, Option.elim_some, hsame.expired_eq, hsame.2.1, hsame.2.2.1, and_self]

/-- **The record is reset or inserted anew with the same counters.** -/
theorem LessAt.next_same (h : Sql.Table.LessAt (Outdated now) SameWindow o o')
    (hperiod : rcd.period ≠ 0) (hrecord : ∀ row, o = some row → rcd.IsRecord row.2) (args : Args)
    (k : Str) : SameWindow (rcd.next now args k (o.map Prod.snd))
      (rcd.next now args k (o'.map Prod.snd)) := by
  unfold Setting.next
  cases h with
  | absent => exact ⟨rfl, rfl, rfl, rfl⟩
  | @gone row hold =>
    have hexpired := (hrecord row rfl).expired_of_outdated hperiod hold
    simp only [Option.map_some, Option.map_none, hexpired, if_true]
    exact ⟨rfl, rfl, rfl, rfl⟩
  | @same row row' hsame =>
    simp only [Option.map_some, ← hsame.expired_eq]
    by_cases hexpired : row.2.expired now rcd.period = true
    · rw [if_pos hexpired, if_pos hexpired]
      exact ⟨rfl, rfl, rfl, rfl⟩
    · rw [if_neg hexpired, if_neg hexpired]
      refine ⟨rfl, ?_, ?_, ?_⟩
      · simp only [hsame.2.1]
      · simp only [hsame.2.2.1]
      · simp only [hsame.2.2.2]

/-- What a setting writes is a record of it. -/
theorem Setting.isRecord_next (hnow : 0 < now) (args : Args) {k : Str} (hk : rcd.Owns k)
    {r : Option Tracking} (hr : ∀ r₀, r = some r₀ → rcd.IsRecord r₀) :
    rcd.IsRecord (rcd.next now args k r) := by
  have hne : now ≠ 0 := Nat.ne_of_gt hnow
  unfold Setting.next
  cases r with
  | none => exact ⟨rfl, hne, hk⟩
  | some r =>
    have hold := hr r rfl
    by_cases hexpired : r.expired now rcd.period = true
    · simp only [if_pos hexpired]
      exact ⟨rfl, hne, hold.owns⟩
    · simp only [if_neg hexpired, if_neg hold.initTime_ne]
      exact ⟨rfl, hold.initTime_ne, hold.owns⟩

end Window

/-! ### A call on both tables -/

/-- The second table has lost some records that have expired by this time, as far as the settings
that read their records go. -/
structure Related (throttle : List Setting) (reading : Setting → Prop) (now : ℕ)
    (t t' : TrackingTable) : Prop where
  less : Sql.Table.Less (fun k => ∃ rcd ∈ throttle, rcd.id = k.1 ∧ reading rcd) (Outdated now)
    SameWindow t t'
  records : AreRecords throttle t
  records' : AreRecords throttle t'

theorem Related.mono {throttle : List Setting} {reading : Setting → Prop} {x y : ℕ}
    {t t' : TrackingTable} (hle : x ≤ y) (h : Related throttle reading x t t') :
    Related throttle reading y t t' where
  less := Sql.Table.Less.mono h.less fun _ hr => lt_of_lt_of_le hr hle
  records := h.records
  records' := h.records'

/-- A run of the cron job on the second table. -/
theorem Related.cleanup {settings : Settings} {throttle : List Setting} {reading : Setting → Prop}
    {now : ℕ} {t t' : TrackingTable} (h : Related throttle reading now t t') :
    Related throttle reading now t (CleanupDb.cleanupThrottleTracking settings now t') where
  less := by
    unfold CleanupDb.cleanupThrottleTracking
    rcases CleanupDb.cleanupSqlTable_cases settings
      (fun row : ℕ × Tracking => row.2.initTime + row.2.period < now) t' with heq | heq
    · rw [heq]
      exact h.less
    · rw [heq]
      refine Sql.Table.Less.delete_right h.less fun r row' hsame hdelete => ?_
      show r.initTime + r.period < now
      rw [hsame.1, hsame.2.2.2]
      exact of_decide_eq_true hdelete
  records := h.records
  records' := fun row hrow => h.records' row (CleanupDb.mem_of_mem_cleanupSqlTable hrow)

omit [Unicode] in
/-- Records that differ in the time of the last notification only. -/
theorem sameWindow_of_core {row row' : ℕ × Tracking} (h : core row = core row') :
    SameWindow row.2 row'.2 ∧ row.2.key = row'.2.key := by
  have hrow : row.2.notify 0 = row'.2.notify 0 := congrArg Prod.snd h
  have hperiod := congrArg Tracking.period hrow
  have hmsgs := congrArg Tracking.curMsgs hrow
  have hquota := congrArg Tracking.curQuota hrow
  have hinit := congrArg Tracking.initTime hrow
  have hkey := congrArg Tracking.key hrow
  exact ⟨⟨hperiod, hmsgs, hquota, hinit⟩, hkey⟩

/-- The records stay those of their settings when only notifications change. -/
theorem AreRecords.of_core {throttle : List Setting} {t t₁ : TrackingTable}
    (h : AreRecords throttle t) (hcore : ∀ k, (t₁.find? k).map core = (t.find? k).map core) :
    AreRecords throttle t₁ := by
  intro row hrow rcd hrcd hid
  have hfind := hcore row.2.key
  rw [Sql.Table.find?_eq_some_iff.mpr ⟨hrow, rfl⟩, Option.map_some] at hfind
  obtain ⟨row₀, hrow₀, heq⟩ := Option.map_eq_some_iff.mp hfind.symm
  obtain ⟨hsame, hkey⟩ := sameWindow_of_core heq
  have hold := h row₀ (Sql.Table.find?_eq_some_iff.mp hrow₀).1 rcd hrcd
    (hid.trans (congrArg Prod.fst hkey).symm)
  refine ⟨hsame.1.symm.trans hold.period_eq, ?_, ?_⟩
  · rw [← hsame.2.2.2]
    exact hold.initTime_ne
  · have haccount : row₀.2.account = row.2.account := congrArg Prod.snd hkey
    rw [← haccount]
    exact hold.owns

/-- Notifications do not matter. -/
theorem Related.of_core {throttle : List Setting} {reading : Setting → Prop} {now : ℕ}
    {t t' t₁ t₁' : TrackingTable} (h : Related throttle reading now t t')
    (hcore : ∀ k, (t₁.find? k).map core = (t.find? k).map core)
    (hcore' : ∀ k, (t₁'.find? k).map core = (t'.find? k).map core) :
    Related throttle reading now t₁ t₁' where
  less := by
    intro k hk
    have hat := h.less k hk
    have hfind := hcore k
    have hfind' := hcore' k
    generalize t.find? k = o at hat hfind
    generalize t'.find? k = o' at hat hfind'
    generalize t₁.find? k = o₁ at hfind
    generalize t₁'.find? k = o₁' at hfind'
    cases hat with
    | absent =>
      rw [Option.map_none, Option.map_eq_none_iff] at hfind hfind'
      rw [hfind, hfind']
      exact .absent
    | @gone row hold =>
      rw [Option.map_none, Option.map_eq_none_iff] at hfind'
      rw [Option.map_some] at hfind
      obtain ⟨row₁, rfl, heq⟩ := Option.map_eq_some_iff.mp hfind
      obtain ⟨hsame, -⟩ := sameWindow_of_core heq
      rw [hfind']
      refine .gone ?_
      show row₁.2.initTime + row₁.2.period < now
      rw [hsame.1, hsame.2.2.2]
      exact hold
    | @same row row' hrow =>
      rw [Option.map_some] at hfind hfind'
      obtain ⟨row₁, rfl, heq⟩ := Option.map_eq_some_iff.mp hfind
      obtain ⟨row₁', rfl, heq'⟩ := Option.map_eq_some_iff.mp hfind'
      obtain ⟨⟨h₁, h₂, h₃, h₄⟩, -⟩ := sameWindow_of_core heq
      obtain ⟨⟨h₁', h₂', h₃', h₄'⟩, -⟩ := sameWindow_of_core heq'
      obtain ⟨g₁, g₂, g₃, g₄⟩ := hrow
      exact .same ⟨h₁.trans (g₁.trans h₁'.symm), h₂.trans (g₂.trans h₂'.symm),
        h₃.trans (g₃.trans h₃'.symm), h₄.trans (g₄.trans h₄'.symm)⟩
  records := h.records.of_core hcore
  records' := h.records'.of_core hcore'

/-! ### The checks of a call -/

section Checks

variable {throttle : List Setting} {env : Env} {args : Args} {seen : List Setting}
  {decider : Rule → Option Setting} {sel : Selection} {t : TrackingTable}

/-- The record of a setting that a call reads. -/
def rowRead (call : Call) (rcd : Setting) (t : TrackingTable) : Option (ℕ × Tracking) :=
  if Reads call rcd then t.find? (rcd.id, trackKeyOf call.2 rcd.account) else none

/-- The deciding settings of a selection are settings of the table that have a period, and the
client and the user of the call are well formed. -/
structure InTable (throttle : List Setting) (args : Args) (decider : Rule → Option Setting) :
    Prop where
  mem : ∀ rule rcd, decider rule = some rcd → rcd ∈ throttle
  period_ne : ∀ rule rcd, decider rule = some rcd → rcd.period ≠ 0
  client : IsClientAddress args.clientAddress
  user : args.user = [] ∨ '@' ∈ args.user

variable {rule : Rule} {rcd : Setting}

theorem InTable.owns (h : InTable throttle args decider) (rcd : Setting) :
    rcd.Owns (trackKeyOf args rcd.account) := ⟨args, h.client, h.user, rfl⟩

/-- The records of a setting that a call may select are under the text that it writes. -/
theorem InTable.account_eq (h : InTable throttle args decider) (hrecords : AreRecords throttle t)
    (hdecider : decider rule = some rcd) {row : ℕ × Tracking} (hrow : row ∈ t.rows)
    (htid : row.2.tid = rcd.id)
    (haccount : row.2.account = args.clientAddress ∨ row.2.account = args.user) :
    row.2.account = trackKeyOf args rcd.account :=
  (hrecords row hrow rcd (h.mem rule rcd hdecider) htid.symm).owns.eq_trackKeyOf h.client h.user haccount

/-- A setting that reads its records agrees with the call. -/
theorem InTable.agrees (h : InTable throttle args decider) (hrecords : AreRecords throttle t)
    (hdecider : decider rule = some rcd) (hreads : Reads (env, args) rcd) : Agrees t args rcd where
  key := hreads
  account := fun _ hrow htid haccount => h.account_eq hrecords hdecider hrow htid haccount

/-- **What the checks see of a setting**: the record that it reads. -/
theorem get?_load_eq (hsel : sel.Valid args.user args.clientAddress seen decider)
    (h : InTable throttle args decider) (hrecords : AreRecords throttle t)
    (hrule : rule.isTracked = true) (hdecider : decider rule = some rcd) :
    (loadedFor env.now args sel t).tSettings.get? rule =
      some (rcd.loaded env.now args rule (rowRead (env, args) rcd t)) := by
  unfold rowRead
  by_cases hreads : Reads (env, args) rcd
  · rw [if_pos hreads]
    exact get?_load_of_agrees hsel hrule hdecider (h.period_ne rule rcd hdecider)
      (h.agrees hrecords hdecider hreads)
  · rw [if_neg hreads]
    -- none of its records is selected
    have hnil : (selected sel t).filter (fun row => row.2.tid = rcd.id) = [] := by
      rw [List.filter_eq_nil_iff]
      intro row hrow htid
      obtain ⟨hmem, hwhere⟩ := List.mem_filter.mp hrow
      have haccount : row.2.account = args.clientAddress ∨ row.2.account = args.user := by
        rcases (hsel.where_iff _).mp (List.contains_iff_mem.mp hwhere) with ⟨_, _, _, hp⟩ | ⟨_, _, _, hp⟩
        · exact .inl (Prod.mk.inj hp).2
        · exact .inr (Prod.mk.inj hp).2
      have heq := h.account_eq hrecords hdecider hmem (of_decide_eq_true htid) haccount
      rw [heq] at haccount
      exact hreads haccount
    have htid : (rcd.tracked args rule).tid = rcd.id := rfl
    rw [get?_load hsel, get?_trackedSettings hsel, if_pos hrule, hdecider, Option.map_some,
      Option.map_some, htid, hnil]
    rfl

/-- A rule without a setting is not checked. -/
theorem get?_load_of_none (hsel : sel.Valid args.user args.clientAddress seen decider)
    (hdecider : decider rule = none) :
    (loadedFor env.now args sel t).tSettings.get? rule = none := by
  rw [get?_load hsel, get?_trackedSettings hsel, hdecider, Option.map_none, ite_self, Option.map_none]

/-- The check of `max_msgs` of a setting. -/
def Setting.overMsgs (now : ℕ) (args : Args) (rcd : Setting) (r : Option Tracking) : Bool :=
  exceeds (rcd.curMsgs now r + args.recipientCount) rcd.maxMsgs

/-- The check of `max_quota` of a setting. -/
def Setting.overQuota (now : ℕ) (rcd : Setting) (r : Option Tracking) : Bool :=
  exceeds (rcd.curQuota now r) rcd.maxQuota

theorem isSome_maxMsgsExceeded (hsel : sel.Valid args.user args.clientAddress seen decider)
    (h : InTable throttle args decider) (hrecords : AreRecords throttle t) :
    (maxMsgsExceeded env args (loadedFor env.now args sel t)).isSome =
      (decider .maxMsgs).any fun rcd =>
        rcd.overMsgs env.now args ((rowRead (env, args) rcd t).map Prod.snd) := by
  unfold maxMsgsExceeded
  cases hdecider : decider .maxMsgs with
  | none =>
    rw [get?_load_of_none hsel hdecider]
    rfl
  | some rcd =>
    have hvalue : (rcd.loaded env.now args .maxMsgs (rowRead (env, args) rcd t)).value =
        rcd.maxMsgs := by
      cases rowRead (env, args) rcd t <;> rfl
    rw [get?_load_eq hsel h hrecords rfl hdecider, Option.bind_some]
    simp only [curMsgs_loaded, hvalue, Option.any_some, Setting.overMsgs]
    split_ifs with hover
    · exact (decide_eq_true hover).symm
    · exact (decide_eq_false hover).symm

theorem isSome_maxQuotaExceeded (hsel : sel.Valid args.user args.clientAddress seen decider)
    (h : InTable throttle args decider) (hrecords : AreRecords throttle t) :
    (maxQuotaExceeded env (loadedFor env.now args sel t)).isSome =
      (decider .maxQuota).any fun rcd =>
        rcd.overQuota env.now ((rowRead (env, args) rcd t).map Prod.snd) := by
  unfold maxQuotaExceeded
  cases hdecider : decider .maxQuota with
  | none =>
    rw [get?_load_of_none hsel hdecider]
    rfl
  | some rcd =>
    have hvalue : (rcd.loaded env.now args .maxQuota (rowRead (env, args) rcd t)).value =
        rcd.maxQuota := by
      cases rowRead (env, args) rcd t <;> rfl
    rw [get?_load_eq hsel h hrecords rfl hdecider, Option.bind_some]
    simp only [curQuota_loaded, hvalue, Option.any_some, Setting.overQuota]
    split_ifs with hover
    · exact (decide_eq_true hover).symm
    · exact (decide_eq_false hover).symm

/-! ### What a call records -/

omit [Unicode] in
/-- Updates that cannot fail. -/
theorem runUpdates_failed (hsucceeds : ∀ statement, env.fails statement = false)
    (us : Dict ℕ Update) (st : List Statement × TrackingTable) :
    (us.foldl (runUpdate env) st).1 = st.1 := by
  induction us generalizing st with
  | nil => rfl
  | cons u us ih =>
    rw [List.foldl_cons, ih, runUpdate, hsucceeds, if_neg Bool.false_ne_true]

/-- `tracking_ids` of the key a setting writes. -/
theorem get?_trackingIds_of_decider (hsel : sel.Valid args.user args.clientAddress seen decider)
    (hdecider : decider rule = some rcd) (hperiod : rcd.period ≠ 0) :
    (loadedFor env.now args sel t).trackingIds.get? (rcd.id, trackKeyOf args rcd.account) =
      (rowRead (env, args) rcd t).map Prod.fst := by
  have hwhere : (rcd.id, trackKeyOf args rcd.account) ∈ sel.trackingSqlWhere ↔
      Reads (env, args) rcd := by
    rw [hsel.where_iff]
    constructor
    · rintro (⟨_, _, _, hp⟩ | ⟨_, _, _, hp⟩)
      · exact .inl (Prod.mk.inj hp).2
      · exact .inr (Prod.mk.inj hp).2
    · rintro (hkey | hkey)
      · exact .inl ⟨rcd, hsel.mem_seen rule rcd hdecider, hperiod, by rw [hkey]⟩
      · exact .inr ⟨rule, rcd, hdecider, by rw [hkey]⟩
  unfold loadedFor load rowRead
  rw [get?_trackingIds_selected]
  by_cases hreads : Reads (env, args) rcd
  · rw [if_pos (hwhere.mpr hreads), if_pos hreads]
  · rw [if_neg fun hmem => hreads (hwhere.mp hmem), if_neg hreads]
    rfl

/-- A call whose settings read their records finds the key of each or inserts it. -/
theorem record_failed_of_reads (hsucceeds : ∀ statement, env.fails statement = false)
    (hsel : sel.Valid args.user args.clientAddress seen decider)
    (h : InTable throttle args decider)
    (hreads : ∀ rule rcd, rule.isTracked = true → decider rule = some rcd → Reads (env, args) rcd) :
    (record env (collect env.now args (loadedFor env.now args sel t)) t).1.failed = [] := by
  have hvalid := valid_collect env.now args (loadedFor env.now args sel t)
  unfold record
  simp only [runUpdates_failed hsucceeds]
  set inserts := (collect env.now args (loadedFor env.now args sel t)).sqlInserts
  -- every row is inserted under its own key, and none of these is in use
  have hrow : ∀ p ∈ inserts, p.2.key = p.1 ∧ t.find? p.1 = none := by
    intro p hp
    obtain ⟨q, hq, hkey, hnone, hr⟩ := hvalid.inserts p.1 p.2
      ((Dict.get?_eq_some_iff hvalid.inserts_nodup).mpr hp)
    obtain ⟨rule, rcd, hrule, hrcd, htid, haccount, -⟩ := exists_of_mem_trackPairs hsel hq
    refine ⟨by rw [hr, ← hkey]; rfl, ?_⟩
    have hpkey : p.1 = (rcd.id, trackKeyOf args rcd.account) := by rw [← hkey, htid, haccount]
    rw [hpkey, get?_trackingIds_of_decider hsel hrcd (h.period_ne rule rcd hrcd), rowRead,
      if_pos (hreads rule rcd hrule hrcd), Option.map_eq_none_iff] at hnone
    rw [hpkey]
    exact hnone
  have hkeys : (inserts.map Prod.snd).map Tracking.key = inserts.map Prod.fst := by
    rw [List.map_map]
    exact List.map_congr_left fun p hp => (hrow p hp).1
  obtain ⟨t', ht'⟩ : ∃ t', t.insertAll (inserts.map Prod.snd) = some t' := by
    refine Sql.Table.exists_insertAll (by rw [hkeys]; exact hvalid.inserts_nodup) fun r hr => ?_
    obtain ⟨p, hp, rfl⟩ := List.mem_map.mp hr
    rw [(hrow p hp).1]
    exact (hrow p hp).2
  unfold runInserts
  rw [hsucceeds, ht', if_neg Bool.false_ne_true]
  split_ifs <;> rfl

/-- **A call whose settings do not read their records** inserts them, or does nothing. -/
theorem find?_record_of_not_reads (hsucceeds : ∀ statement, env.fails statement = false)
    (hsel : sel.Valid args.user args.clientAddress seen decider)
    (h : InTable throttle args decider)
    (hreads : ∀ rule rcd, rule.isTracked = true → decider rule = some rcd → ¬ Reads (env, args) rcd)
    (k : ℕ × Str) :
    (record env (collect env.now args (loadedFor env.now args sel t)) t).2.find? k = t.find? k ∨
      ∃ rule rcd id, rule.isTracked = true ∧ decider rule = some rcd ∧
        k = (rcd.id, trackKeyOf args rcd.account) ∧
        (record env (collect env.now args (loadedFor env.now args sel t)) t).2.find? k =
          some (id, rcd.next env.now args (trackKeyOf args rcd.account) none) := by
  have hvalid := valid_collect env.now args (loadedFor env.now args sel t)
  have hnone : ∀ rule rcd, rule.isTracked = true → decider rule = some rcd →
      (loadedFor env.now args sel t).trackingIds.get? (rcd.id, trackKeyOf args rcd.account) = none := by
    intro rule rcd hrule hrcd
    rw [get?_trackingIds_of_decider hsel hrcd (h.period_ne rule rcd hrcd), rowRead,
      if_neg (hreads rule rcd hrule hrcd)]
    rfl
  -- no record is known, so none is updated
  have hupdates : (collect env.now args (loadedFor env.now args sel t)).sqlUpdates = [] := by
    refine Dict.eq_nil_of_get? fun id => ?_
    cases hu : Dict.get? (collect env.now args (loadedFor env.now args sel t)).sqlUpdates id with
    | none => rfl
    | some u =>
      obtain ⟨q, hq, hid, -⟩ := hvalid.updates id u hu
      obtain ⟨rule, rcd, hrule, hrcd, htid, haccount, -⟩ := exists_of_mem_trackPairs hsel hq
      rw [htid, haccount, hnone rule rcd hrule hrcd] at hid
      cases hid
  unfold record runInserts
  rw [hupdates, hsucceeds]
  simp only [List.foldl_nil, Bool.false_eq_true, if_false]
  split_ifs
  · exact .inl rfl
  cases hinsert : t.insertAll ((collect env.now args (loadedFor env.now args sel t)).sqlInserts.map
      Prod.snd) with
  | none => exact .inl rfl
  | some t' =>
    rcases Sql.Table.find?_insertAll hinsert k with ⟨id, r, hr, hk, -, hsome⟩ | ⟨-, hsame⟩
    · obtain ⟨p, hp, rfl⟩ := List.mem_map.mp hr
      obtain ⟨q, hq, hkey, -, hpr⟩ := hvalid.inserts p.1 p.2
        ((Dict.get?_eq_some_iff hvalid.inserts_nodup).mpr hp)
      obtain ⟨rule, rcd, hrule, hrcd, htid, haccount, hget⟩ := exists_of_mem_trackPairs hsel hq
      obtain ⟨rcd', hrcd', -, hperiod, -⟩ := mem_of_trackingId hsel hget
      obtain rfl := Option.some.inj (hrcd.symm.trans hrcd')
      refine .inr ⟨rule, rcd, id, hrule, hrcd, ?_, ?_⟩
      · rw [← hk, hpr, newTracking, Tracking.key, htid, haccount]
      · rw [hsome, hpr, newTracking, htid, haccount, hperiod]
        rfl
    · exact .inl hsame

/-- The settings that decide a call read their records, or none of them does. -/
def Alike (env : Env) (args : Args) (decider : Rule → Option Setting) : Prop :=
  (∀ rule rcd, rule.isTracked = true → decider rule = some rcd → Reads (env, args) rcd) ∨
    ∀ rule rcd, rule.isTracked = true → decider rule = some rcd → ¬ Reads (env, args) rcd

/-- A record changes only into the next one of its setting. -/
theorem find?_record (hids : (seen.map (·.id)).Nodup)
    (hsucceeds : ∀ statement, env.fails statement = false)
    (hsel : sel.Valid args.user args.clientAddress seen decider)
    (h : InTable throttle args decider) (hrecords : AreRecords throttle t)
    (halike : Alike env args decider) (k : ℕ × Str) :
    (record env (collect env.now args (loadedFor env.now args sel t)) t).2.find? k = t.find? k ∨
      ∃ rule rcd, rule.isTracked = true ∧ decider rule = some rcd ∧
        k = (rcd.id, trackKeyOf args rcd.account) ∧
        ((record env (collect env.now args (loadedFor env.now args sel t)) t).2.find? k).map Prod.snd =
          some (rcd.next env.now args (trackKeyOf args rcd.account)
            ((rowRead (env, args) rcd t).map Prod.snd)) := by
  rcases halike with hreads | hreads
  · have hfailed := record_failed_of_reads (t := t) hsucceeds hsel h hreads
    by_cases htracked : ∃ rule rcd, rule.isTracked = true ∧ decider rule = some rcd ∧
        k = (rcd.id, trackKeyOf args rcd.account)
    · obtain ⟨rule, rcd, hrule, hrcd, rfl⟩ := htracked
      have hread := hreads rule rcd hrule hrcd
      refine .inr ⟨rule, rcd, hrule, hrcd, rfl, ?_⟩
      rw [rowRead, if_pos hread]
      exact find?_record_of_tracked hsel hids hrule hrcd (h.period_ne rule rcd hrcd)
        (h.agrees hrecords hrcd hread) hfailed
    · refine .inl (find?_record_of_not_tracked hsel ?_ hfailed)
      intro rule rcd hrule hrcd heq
      exact htracked ⟨rule, rcd, hrule, hrcd, heq.symm⟩
  · rcases find?_record_of_not_reads (t := t) hsucceeds hsel h hreads k with
      hsame | ⟨rule, rcd, id, hrule, hrcd, hk, hnew⟩
    · exact .inl hsame
    · refine .inr ⟨rule, rcd, hrule, hrcd, hk, ?_⟩
      rw [hnew, rowRead, if_neg (hreads rule rcd hrule hrcd)]
      rfl

/-- **A record changes only into the next one of its setting, when no statement fails**: one that the
setting does not read is inserted, so there has been none. -/
theorem find?_record_of_succeeds (hids : (seen.map (·.id)).Nodup)
    (hsel : sel.Valid args.user args.clientAddress seen decider)
    (h : InTable throttle args decider) (hrecords : AreRecords throttle t)
    (hfailed : (record env (collect env.now args (loadedFor env.now args sel t)) t).1.failed = [])
    (k : ℕ × Str) :
    (record env (collect env.now args (loadedFor env.now args sel t)) t).2.find? k = t.find? k ∨
      ∃ rule rcd, rule.isTracked = true ∧ decider rule = some rcd ∧
        k = (rcd.id, trackKeyOf args rcd.account) ∧
        ((record env (collect env.now args (loadedFor env.now args sel t)) t).2.find? k).map Prod.snd =
          some (rcd.next env.now args (trackKeyOf args rcd.account) ((t.find? k).map Prod.snd)) := by
  by_cases htracked : ∃ rule rcd, rule.isTracked = true ∧ decider rule = some rcd ∧
      k = (rcd.id, trackKeyOf args rcd.account)
  · obtain ⟨rule, rcd, hrule, hrcd, rfl⟩ := htracked
    refine .inr ⟨rule, rcd, hrule, hrcd, rfl, ?_⟩
    by_cases hread : Reads (env, args) rcd
    · exact find?_record_of_tracked hsel hids hrule hrcd (h.period_ne rule rcd hrcd)
        (h.agrees hrecords hrcd hread) hfailed
    · -- a row under the key would have made the insert fail
      have hnone : t.find? (rcd.id, trackKeyOf args rcd.account) = none := by
        have hvalid := valid_collect env.now args (loadedFor env.now args sel t)
        obtain ⟨ts, htid, hpair⟩ := mem_trackPairs env t hsel hrule hrcd
        have htracking : (loadedFor env.now args sel t).trackingIds.get?
            (rcd.id, trackKeyOf args rcd.account) = none := by
          rw [get?_trackingIds_of_decider hsel hrcd (h.period_ne rule rcd hrcd), rowRead, if_neg hread]
          rfl
        have hne := hvalid.inserts_of_mem _ hpair (by rw [htid]; exact htracking)
        rw [htid] at hne
        obtain ⟨r, hr⟩ := Option.ne_none_iff_exists'.mp hne
        have hrk : r.key = (rcd.id, trackKeyOf args rcd.account) := by
          obtain ⟨q, -, hqk, -, rfl⟩ := hvalid.inserts _ r hr
          exact hqk
        unfold record at hfailed
        simp only at hfailed
        rcases find?_runInserts (runUpdate_failed hfailed) (rcd.id, trackKeyOf args rcd.account) with
          ⟨_, _, _, _, hnone, -⟩ | ⟨hno, -⟩
        · exact hnone
        · exact absurd hrk (hno _ (Dict.mem_of_get? hr))
      rw [hnone]
      exact find?_record_of_none hsel hids hrule hrcd hnone hfailed
  · refine .inl (find?_record_of_not_tracked hsel ?_ hfailed)
    intro rule rcd hrule hrcd heq
    exact htracked ⟨rule, rcd, hrule, hrcd, heq.symm⟩

variable (env) in
/-- Records that stay, or change into the next ones of their settings, are records of their settings. -/
theorem areRecords_of_next {t₁ : TrackingTable} (hthrottle : (throttle.map (·.id)).Nodup)
    (h : InTable throttle args decider) (hrecords : AreRecords throttle t)
    (hnext : ∀ k, t₁.find? k = t.find? k ∨ ∃ rule rcd, decider rule = some rcd ∧
      k = (rcd.id, trackKeyOf args rcd.account) ∧ ∃ row : Option (ℕ × Tracking),
        (∀ r, row = some r → t.find? k = some r) ∧
        (t₁.find? k).map Prod.snd = some (rcd.next env.now args (trackKeyOf args rcd.account)
          (row.map Prod.snd))) :
    AreRecords throttle t₁ := by
  intro row hrow rcd hrcd hid
  have hfind := Sql.Table.find?_eq_some_iff.mpr ⟨hrow, rfl⟩
  rcases hnext row.2.key with hsame | ⟨rule, rcd', hdecider, hk, row₀, hrow₀, hnext⟩
  · rw [hfind] at hsame
    exact hrecords row (Sql.Table.find?_eq_some_iff.mp hsame.symm).1 rcd hrcd hid
  · -- the settings of the table have ids of their own
    have hid' : rcd.id = rcd'.id := hid.trans (congrArg Prod.fst hk)
    obtain rfl := List.inj_on_of_nodup_map hthrottle hrcd (h.mem rule rcd' hdecider) hid'
    rw [hfind, Option.map_some] at hnext
    rw [Option.some.inj hnext]
    refine rcd.isRecord_next env.now_pos args (h.owns rcd) fun r hr => ?_
    obtain ⟨row₁, hrow₁, rfl⟩ := Option.map_eq_some_iff.mp hr
    obtain ⟨hmem, -⟩ := Sql.Table.find?_eq_some_iff.mp (hrow₀ row₁ hrow₁)
    have hkey := (Sql.Table.find?_eq_some_iff.mp (hrow₀ row₁ hrow₁)).2
    exact hrecords row₁ hmem rcd hrcd (hid.trans (congrArg Prod.fst hkey).symm)

/-- What is recorded are records of their settings. -/
theorem areRecords_record (hthrottle : (throttle.map (·.id)).Nodup) (hids : (seen.map (·.id)).Nodup)
    (hsucceeds : ∀ statement, env.fails statement = false)
    (hsel : sel.Valid args.user args.clientAddress seen decider)
    (h : InTable throttle args decider) (hrecords : AreRecords throttle t)
    (halike : Alike env args decider) :
    AreRecords throttle
      (record env (collect env.now args (loadedFor env.now args sel t)) t).2 := by
  refine areRecords_of_next env hthrottle h hrecords fun k => ?_
  rcases find?_record hids hsucceeds hsel h hrecords halike k with
    hsame | ⟨rule, rcd, -, hdecider, hk, hnext⟩
  · exact .inl hsame
  · refine .inr ⟨rule, rcd, hdecider, hk, rowRead (env, args) rcd t, fun row hrow => ?_, hnext⟩
    unfold rowRead at hrow
    split_ifs at hrow
    rw [hk]
    exact hrow

end Checks

section Step

variable {settings : Settings} {throttle : List Setting} {reading : Setting → Prop} {env : Env}
  {args : Args} {seen : List Setting} {decider : Rule → Option Setting} {sel : Selection}
  {t t' : TrackingTable}

/-- The settings that decide a call read their records exactly when they are among those that do. -/
def ReadsAs (reading : Setting → Prop) (call : Call) (decider : Rule → Option Setting) : Prop :=
  ∀ rule rcd, rule.isTracked = true → decider rule = some rcd → (Reads call rcd ↔ reading rcd)

/-- What a setting reads of the two tables. -/
theorem Related.read (hrel : Related throttle reading env.now t t')
    (h : InTable throttle args decider) (hreadsAs : ReadsAs reading (env, args) decider) {rule : Rule}
    {rcd : Setting} (hrule : rule.isTracked = true) (hdecider : decider rule = some rcd) :
    Sql.Table.LessAt (Outdated env.now) SameWindow (rowRead (env, args) rcd t)
        (rowRead (env, args) rcd t') ∧
      ∀ row, rowRead (env, args) rcd t = some row → rcd.IsRecord row.2 := by
  have hmem := h.mem rule rcd hdecider
  unfold rowRead
  by_cases hreads : Reads (env, args) rcd
  · rw [if_pos hreads, if_pos hreads]
    refine ⟨hrel.less _ ⟨rcd, hmem, rfl, (hreadsAs rule rcd hrule hdecider).mp hreads⟩, ?_⟩
    intro row hrow
    obtain ⟨hrow, hkey⟩ := Sql.Table.find?_eq_some_iff.mp hrow
    exact hrel.records row hrow rcd hmem (congrArg Prod.fst hkey).symm
  · rw [if_neg hreads, if_neg hreads]
    exact ⟨.absent, fun row hrow => by cases hrow⟩

/-- **The checks come out the same** on both tables. -/
theorem Related.exceeded_eq (hrel : Related throttle reading env.now t t')
    (hsel : sel.Valid args.user args.clientAddress seen decider) (h : InTable throttle args decider)
    (hreadsAs : ReadsAs reading (env, args) decider) :
    ((maxMsgsExceeded env args (loadedFor env.now args sel t')).or
        (maxQuotaExceeded env (loadedFor env.now args sel t'))).isSome =
      ((maxMsgsExceeded env args (loadedFor env.now args sel t)).or
        (maxQuotaExceeded env (loadedFor env.now args sel t))).isSome := by
  rw [Option.isSome_or, Option.isSome_or, isSome_maxMsgsExceeded hsel h hrel.records,
    isSome_maxMsgsExceeded hsel h hrel.records', isSome_maxQuotaExceeded hsel h hrel.records,
    isSome_maxQuotaExceeded hsel h hrel.records']
  have hcounters : ∀ rule rcd, rule.isTracked = true → decider rule = some rcd →
      rcd.curMsgs env.now ((rowRead (env, args) rcd t).map Prod.snd) =
          rcd.curMsgs env.now ((rowRead (env, args) rcd t').map Prod.snd) ∧
        rcd.curQuota env.now ((rowRead (env, args) rcd t).map Prod.snd) =
          rcd.curQuota env.now ((rowRead (env, args) rcd t').map Prod.snd) := by
    intro rule rcd hrule hrcd
    obtain ⟨hat, hrecord⟩ := hrel.read h hreadsAs hrule hrcd
    exact LessAt.counters_eq hat (h.period_ne rule rcd hrcd) hrecord
  unfold Setting.overMsgs Setting.overQuota
  congr 1
  · cases hmsgs : decider .maxMsgs with
    | none => rfl
    | some rcd => rw [Option.any_some, Option.any_some, (hcounters .maxMsgs rcd rfl hmsgs).1]
  · cases hquota : decider .maxQuota with
    | none => rfl
    | some rcd => rw [Option.any_some, Option.any_some, (hcounters .maxQuota rcd rfl hquota).2]

/-- **The message is recorded the same** in both tables. -/
theorem Related.recorded (hrel : Related throttle reading env.now t t')
    (hthrottle : (throttle.map (·.id)).Nodup) (hids : (seen.map (·.id)).Nodup)
    (hsucceeds : ∀ statement, env.fails statement = false)
    (hsel : sel.Valid args.user args.clientAddress seen decider) (h : InTable throttle args decider)
    (hreadsAs : ReadsAs reading (env, args) decider) (halike : Alike env args decider) :
    Related throttle reading env.now
      (record env (collect env.now args (loadedFor env.now args sel t)) t).2
      (record env (collect env.now args (loadedFor env.now args sel t')) t').2 where
  less := by
    rintro k ⟨rcd, hrcd, hid, hreading⟩
    -- a deciding setting of this key reads its records
    have hreads : ∀ rule rcd', rule.isTracked = true → decider rule = some rcd' →
        k.1 = rcd'.id → Reads (env, args) rcd' := by
      intro rule rcd' hrule hdecider hid'
      obtain rfl := List.inj_on_of_nodup_map hthrottle hrcd (h.mem rule rcd' hdecider)
        (hid.trans hid')
      exact (hreadsAs rule rcd hrule hdecider).mpr hreading
    by_cases htracked : ∃ rule rcd', rule.isTracked = true ∧ decider rule = some rcd' ∧
        k = (rcd'.id, trackKeyOf args rcd'.account)
    · obtain ⟨rule, rcd', hrule, hdecider, rfl⟩ := htracked
      have hread := hreads rule rcd' hrule hdecider rfl
      have hall : ∀ rule rcd, rule.isTracked = true → decider rule = some rcd →
          Reads (env, args) rcd := by
        rcases halike with hall | hnone
        · exact hall
        · exact absurd hread (hnone rule rcd' hrule hdecider)
      have hperiod := h.period_ne rule rcd' hdecider
      have hnext := find?_record_of_tracked hsel hids hrule hdecider hperiod
        (h.agrees hrel.records hdecider hread) (record_failed_of_reads hsucceeds hsel h hall)
      have hnext' := find?_record_of_tracked hsel hids hrule hdecider hperiod
        (h.agrees hrel.records' hdecider hread) (record_failed_of_reads hsucceeds hsel h hall)
      obtain ⟨hat, hrecord⟩ := hrel.read h hreadsAs hrule hdecider
      unfold rowRead at hat hrecord
      rw [if_pos hread, if_pos hread] at hat
      rw [if_pos hread] at hrecord
      have hsame := LessAt.next_same hat hperiod hrecord args (trackKeyOf args rcd'.account)
      obtain ⟨row, hrow, hrow₂⟩ := Option.map_eq_some_iff.mp hnext
      obtain ⟨row', hrow', hrow₂'⟩ := Option.map_eq_some_iff.mp hnext'
      rw [hrow, hrow']
      refine .same ?_
      rw [hrow₂, hrow₂']
      exact hsame
    · have hother : ∀ t, AreRecords throttle t →
          (record env (collect env.now args (loadedFor env.now args sel t)) t).2.find? k =
            t.find? k := by
        intro t hrecords
        rcases find?_record hids hsucceeds hsel h hrecords halike k with
          hsame | ⟨rule, rcd', hrule, hdecider, hk, -⟩
        · exact hsame
        · exact absurd ⟨rule, rcd', hrule, hdecider, hk⟩ htracked
      rw [hother t hrel.records, hother t' hrel.records']
      exact hrel.less k ⟨rcd, hrcd, hid, hreading⟩
  records := areRecords_record hthrottle hids hsucceeds hsel h hrel.records halike
  records' := areRecords_record hthrottle hids hsucceeds hsel h hrel.records' halike

/-- The settings that decide a call are those of the table. -/
theorem inTable_effective {addrs : List Str} (haddrs : possibleAddrs settings env args = .ok addrs)
    (hclient : IsClientAddress args.clientAddress) :
    InTable throttle args (effective settings throttle (env, args)) := by
  have hmem : ∀ rule rcd, effective settings throttle (env, args) rule = some rcd →
      rcd ∈ throttle ∧ rcd.account ∈ addrs ∧ rcd.period ≠ 0 := by
    intro rule rcd hrcd
    simp only [effective, haddrs] at hrcd
    exact mem_of_find?_throttleRecords hrcd
  exact ⟨fun rule rcd h => (hmem rule rcd h).1, fun rule rcd h => (hmem rule rcd h).2.2, hclient,
    (mem_possibleAddrs haddrs).1⟩

/-- **One call** has the same action on both tables, and leaves them related. -/
theorem call_related (hthrottle : (throttle.map (·.id)).Nodup)
    (hsucceeds : ∀ statement, env.fails statement = false)
    (hclient : IsClientAddress args.clientAddress)
    (hreadsAs : ReadsAs reading (env, args) (effective settings throttle (env, args)))
    (halike : Alike env args (effective settings throttle (env, args)))
    (hrel : Related throttle reading env.now t t') :
    (applyThrottle settings throttle (env, args) t').1.action =
        (applyThrottle settings throttle (env, args) t).1.action ∧
      Related throttle reading env.now (applyThrottle settings throttle (env, args) t).2
        (applyThrottle settings throttle (env, args) t').2 := by
  rcases applyThrottle_parts settings hthrottle env args with
    ⟨sel, hreaches, happly⟩ | ⟨o, hearly⟩
  · obtain ⟨addrs, haddrs, hdef⟩ := hreaches.addrs
    have hsel := valid_effective hthrottle haddrs
    rw [← hdef] at hsel
    have hin : InTable throttle args (effective settings throttle (env, args)) :=
      inTable_effective haddrs hclient
    have hids := nodup_throttleRecords hthrottle (throttleKind args) addrs
    have hexceeded := hrel.exceeded_eq hsel hin hreadsAs
    rw [happly, happly, applyTracking_eq (hsucceeds _), applyTracking_eq (hsucceeds _)]
    cases hchecks : (maxMsgsExceeded env args (loadedFor env.now args sel t)).or
        (maxQuotaExceeded env (loadedFor env.now args sel t)) with
    | none =>
      rw [hchecks, Option.isSome_none, Option.isSome_eq_false_iff, Option.isNone_iff_eq_none]
        at hexceeded
      rw [hexceeded]
      exact ⟨rfl, hrel.recorded hthrottle hids hsucceeds hsel hin hreadsAs halike⟩
    | some e =>
      rw [hchecks, Option.isSome_some, Option.isSome_iff_exists] at hexceeded
      obtain ⟨e', hchecks'⟩ := hexceeded
      rw [hchecks']
      refine ⟨(action_reject env args sel.throttleInfo e' t').trans
        (action_reject env args sel.throttleInfo e t).symm, hrel.of_core ?_ ?_⟩
      · exact find?_reject env args sel.throttleInfo e t
      · exact find?_reject env args sel.throttleInfo e' t'
  · rw [hearly.apply, hearly.apply]
    exact ⟨rfl, hrel⟩

end Step

/-! ### All runs -/

/-- The SQL statements of a call succeed, and its client address is one. -/
def InContract : Event → Prop
  | .call call => (∀ statement, call.1.fails statement = false) ∧ IsClientAddress call.2.clientAddress
  | .cleanup _ => True

omit [Unicode] in
/-- Leaving out the runs of the cron job leaves the calls. -/
theorem filter_isCall (events : List Event) :
    events.filter Event.isCall = (callsOf events).map .call := by
  induction events with
  | nil => rfl
  | cons e events ih =>
    cases e with
    | call call =>
      have hcons : callsOf (.call call :: events) = call :: callsOf events := rfl
      rw [List.filter_cons_of_pos rfl, ih, hcons, List.map_cons]
    | cleanup now =>
      have hcons : callsOf (.cleanup now :: events) = callsOf events := rfl
      rw [List.filter_cons_of_neg (by simp [Event.isCall]), ih, hcons]

/-- **Throttling does not depend on the cron job**: when no call is decided by a setting that reads
its records and by another one that does not, every call has the action it has without any run of
the cron job. -/
theorem actions_eq (settings : Settings) {throttle : List Setting}
    (hthrottle : (throttle.map (·.id)).Nodup) {events : List Event}
    (horder : (events.map Event.time).Pairwise (· ≤ ·))
    (hcontract : ∀ e ∈ events, InContract e)
    (hnotMixed : NotMixed settings throttle (callsOf events)) :
    actions settings throttle events =
      actions settings throttle ((callsOf events).map .call) := by
  -- the settings that read their records
  set reading : Setting → Prop := fun rcd =>
    ∃ call ∈ callsOf events, Decides settings throttle call rcd ∧ Reads call rcd
  have hempty : AreRecords throttle Sql.Table.empty := fun _ hrow => by cases hrow
  unfold actions
  rw [← filter_isCall]
  refine answers_filter Event.time Event.isCall (fun e => InContract e ∧ e ∈ events) (fun _ _ => True)
    (Related throttle reading) (fun _ _ _ _ hle h => h.mono hle) ?_ ?_ ?_ horder
    (fun e he => ⟨hcontract e he, he⟩) ?_
  · intro e t t' he h
    cases e with
    | call call => cases he
    | cleanup now => exact ⟨rfl, h.cleanup⟩
  · rintro e t t' ⟨hok, hmem⟩ he _ h
    cases e with
    | cleanup now => cases he
    | call call =>
      obtain ⟨env, args⟩ := call
      have hcall : (env, args) ∈ callsOf events := List.mem_filterMap.mpr ⟨_, hmem, rfl⟩
      have hreadsAs : ReadsAs reading (env, args) (effective settings throttle (env, args)) := by
        intro rule rcd hrule hrcd
        constructor
        · exact fun hreads => ⟨(env, args), hcall, ⟨rule, hrule, hrcd⟩, hreads⟩
        · rintro ⟨call', hcall', hdecides, hreads⟩
          exact hnotMixed.across call' hcall' _ hcall rcd hdecides ⟨rule, hrule, hrcd⟩ hreads
      have halike : Alike env args (effective settings throttle (env, args)) := by
        by_cases hsome : ∃ rcd, Decides settings throttle (env, args) rcd ∧ Reads (env, args) rcd
        · obtain ⟨rcd, hdecides, hreads⟩ := hsome
          exact .inl fun rule rcd' hrule hrcd' =>
            hnotMixed.within _ hcall rcd rcd' hdecides ⟨rule, hrule, hrcd'⟩ hreads
        · exact .inr fun rule rcd hrule hrcd hreads => hsome ⟨rcd, ⟨rule, hrule, hrcd⟩, hreads⟩
      obtain ⟨haction, hrelated⟩ := call_related hthrottle hok.1 hok.2 hreadsAs halike h
      exact ⟨congrArg some haction, hrelated⟩
  · exact fun _ _ => ⟨Sql.Table.Less.refl (fun _ => ⟨rfl, rfl, rfl, rfl⟩) _, hempty, hempty⟩
  · exact throughout_of_forall (fun _ _ => trivial) _ _

omit [Unicode] in
/-- A client with a limit of one message an hour, whose record has expired and been deleted when it
comes back. -/
theorem actions_hourly_limit :
    letI := asciiUnicode
    let rcd : Setting :=
      { id := 1, account := "192.168.1.5", kind := "external", priority := 0, period := 3600
        maxMsgs := 1 }
    let call := fun now : ℕ => ((⟨now + 1, Nat.succ_pos now, now + 1, fun _ => .ok none,
      fun _ => .ok true, fun _ => false⟩, ⟨[], "192.168.1.5", 10, 1, true, true⟩) : Call)
    actions {} [rcd] [.call (call 99), .call (call 199), .cleanup 4000, .call (call 4000)] =
      actions {} [rcd] [.call (call 99), .call (call 199), .call (call 4000)] := by
  let := asciiUnicode
  intro rcd call
  refine @actions_eq asciiUnicode {} [rcd] (by decide)
    [.call (call 99), .call (call 199), .cleanup 4000, .call (call 4000)] (by decide) ?_ ?_
  · intro e he
    simp only [List.mem_cons, List.not_mem_nil, or_false] at he
    rcases he with rfl | rfl | rfl | rfl
    · exact ⟨fun _ => rfl, by decide, by decide⟩
    · exact ⟨fun _ => rfl, by decide, by decide⟩
    · trivial
    · exact ⟨fun _ => rfl, by decide, by decide⟩
  · have hreads : ∀ c ∈ [call 99, call 199, call 4000], ∀ rcd', Decides {} [rcd] c rcd' →
        Reads c rcd' := by
      intro c hc rcd' hdecides
      obtain ⟨rule, -, hrcd'⟩ := hdecides
      obtain rfl : rcd = rcd' := by
        unfold effective at hrcd'
        cases haddrs : possibleAddrs {} c.1 c.2 with
        | error e =>
          rw [haddrs] at hrcd'
          cases hrcd'
        | ok addrs =>
          rw [haddrs] at hrcd'
          exact (List.mem_singleton.mp (mem_of_find?_throttleRecords hrcd').1).symm
      simp only [List.mem_cons, List.not_mem_nil, or_false] at hc
      rcases hc with rfl | rfl | rfl <;> decide
    exact ⟨fun c hc _ rcd' _ hdecides _ => hreads c hc rcd' hdecides,
      fun _ _ c' hc' rcd' _ hdecides _ => hreads c' hc' rcd' hdecides⟩

omit [Unicode] in
/-- A limit of messages for `192.168.1.*`, whose record is never read, with a quota for all users:
the second message is recorded under its user only when the cron job has deleted the expired record
of the limit, so the third one is rejected only then. -/
theorem wildcard_record_in_the_way :
    letI := asciiUnicode
    let throttle : List Setting :=
      [{ id := 1, account := "192.168.1.*", kind := "external", priority := 10, period := 60
         maxMsgs := 100 },
       { id := 2, account := "@.", kind := "external", priority := 0, period := 3600, maxQuota := 5 }]
    let call := fun (now : ℕ) (user : Str) => ((⟨now + 1, Nat.succ_pos now, now + 1, fun _ => .ok none,
      fun _ => .ok true, fun _ => false⟩, ⟨user, "192.168.1.5", 10, 1, true, true⟩) : Call)
    actions {} throttle [.call (call 99 "x@y.zz"), .cleanup 170, .call (call 199 "a@b.cd"),
        .call (call 209 "a@b.cd")] ≠
      actions {} throttle [.call (call 99 "x@y.zz"), .call (call 199 "a@b.cd"),
        .call (call 209 "a@b.cd")] := by
  let := asciiUnicode
  intro throttle call h
  have hne : (actions {} throttle [.call (call 99 "x@y.zz"), .cleanup 170,
      .call (call 199 "a@b.cd"), .call (call 209 "a@b.cd")]).map Except.toOption ≠
      (actions {} throttle [.call (call 99 "x@y.zz"), .call (call 199 "a@b.cd"),
        .call (call 209 "a@b.cd")]).map Except.toOption := by
    decide
  exact hne (congrArg (List.map Except.toOption) h)

end IRedAPD.Throttle

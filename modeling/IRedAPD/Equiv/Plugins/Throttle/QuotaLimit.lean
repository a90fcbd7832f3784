/-
  The quota limit over whole runs.

  The check of `max_quota` compares what has been recorded before, without the
  message that it decides, so it lets one message pass that raises `cur_quota`
  above the limit (`Overshoots`).  In the runs in which no message does, the
  counter stays within the limit (`fits_quota`), and the bound on every window
  is the one of any counter that is kept so (`quota_limit`).
-/
import IRedAPD.Equiv.Plugins.Throttle.Counter
import IRedAPD.Equiv.Plugins.Throttle.TrackingKeys

namespace IRedAPD.Throttle

open Py History

variable [Unicode]

/-- The message passes the checks before the one of `max_quota`. -/
def ReachesQuota (settings : Settings) (throttle : List Setting) (call : Call) (t : TrackingTable) :
    Prop :=
  ∃ addrs, possibleAddrs settings call.1 call.2 = .ok addrs ∧
    let sel := selection call.2 (throttleRecords throttle (throttleKind call.2) addrs)
    checkMessage sel call.2 = none ∧
      maxMsgsExceeded call.1 call.2 (loadedFor call.1.now call.2 sel t) = none

/-- A message that the setting decides `max_quota` for comes when the quota is not exceeded, and
exceeds it. -/
def Overshoots (settings : Settings) (throttle : List Setting) (rcd : Setting) (call : Call)
    (t : TrackingTable) : Prop :=
  ReachesQuota settings throttle call t ∧ effective settings throttle call .maxQuota = some rcd ∧
    let curQuota := rcd.curQuota call.1.now
      ((t.find? (rcd.id, trackKeyOf call.2 rcd.account)).map Prod.snd)
    curQuota ≤ rcd.maxQuota ∧ rcd.maxQuota < curQuota + call.2.size

/-- A call that is fit to be counted: from a client, with a non-negative size, and without a failing
statement. -/
def SoundSize (e : Call × Output) : Prop :=
  IsClientAddress e.1.2.clientAddress ∧ 0 ≤ e.1.2.size ∧ e.2.failed = []

/-- A message that a setting decides is accepted once it passes every check. -/
theorem isSome_recordingOf_of_accepts {settings : Settings} {throttle : List Setting}
    (hids : (throttle.map (·.id)).Nodup) {call : Call} {t : TrackingTable} {rule : Rule}
    {rcd : Setting} (heff : effective settings throttle call rule = some rcd)
    (haccepts : (applyThrottle settings throttle call t).1.Accepts) :
    (recordingOf settings throttle call t).isSome := by
  obtain ⟨env, args⟩ := call
  rcases applyThrottle_parts settings hids env args with ⟨sel, hreaches, happly⟩ | ⟨o, hearly⟩
  · rw [happly] at haccepts
    rw [hreaches.recordingOf_eq]
    rcases hreaches.ends t with ⟨e, -, hreject⟩ | ⟨hmsgs, hquota, -⟩
    · rw [hreject] at haccepts
      exact absurd haccepts (not_accepts_reject env args sel.throttleInfo e t)
    · rw [hmsgs, hquota]
      rfl
  · rw [hearly.apply] at haccepts
    rcases hearly.action with ho | ho
    · exact absurd haccepts ho
    · rw [ho rule] at heff
      cases heff

/-- **A message that does not overshoot keeps the counter within the limit.** -/
theorem fits_quota {settings : Settings} {throttle : List Setting}
    (hids : (throttle.map (·.id)).Nodup) {rcd : Setting} (hkind : rcd.TracksClient ∨ rcd.TracksUser)
    (hmax : 0 < rcd.maxQuota) {call : Call} {t : TrackingTable} (hkeys : KeysOf rcd t)
    (hclient : IsClientAddress call.2.clientAddress)
    (hnot : ¬ Overshoots settings throttle rcd call t) :
    Counter.quota.Fits settings throttle rcd call t := by
  rintro k ⟨haccepts, heff, hk⟩
  have heff : effective settings throttle call .maxQuota = some rcd := heff
  obtain ⟨rec, hrec⟩ :=
    Option.isSome_iff_exists.mp (isSome_recordingOf_of_accepts hids heff haccepts)
  obtain ⟨env, args⟩ := call
  unfold recordingOf at hrec
  cases haddrs : possibleAddrs settings env args with
  | error e =>
    simp only [haddrs] at hrec
    cases hrec
  | ok addrs =>
    simp only [haddrs] at hrec
    have hsel := valid_effective hids haddrs
    set sel := selection args (throttleRecords throttle (throttleKind args) addrs) with hsel'
    split_ifs at hrec with hchecks
    simp only [Bool.or_eq_true, not_or, Bool.not_eq_true, Option.isSome_eq_false_iff,
      Option.isNone_iff_eq_none] at hchecks
    obtain ⟨⟨⟨-, hmessage⟩, -⟩, hexceeded⟩ := hchecks
    obtain ⟨hmsgs, hquota⟩ := Option.or_eq_none_iff.mp hexceeded
    have hperiod : rcd.period ≠ 0 := by
      have hfind := heff
      simp only [effective, haddrs] at hfind
      exact (mem_of_find?_throttleRecords hfind).2.2
    have hpass := not_exceeds_of_maxQuota hsel heff hperiod
      (agrees_of_keysOf heff hkind hclient hkeys) hquota
    simp only [exceeds, not_and] at hpass
    have hreaches : ReachesQuota settings throttle (env, args) t := ⟨addrs, haddrs, hmessage, hmsgs⟩
    show rcd.curQuota env.now ((t.find? (rcd.id, k)).map Prod.snd) + args.size ≤ rcd.maxQuota
    rw [← hk]
    by_contra hlt
    refine hnot ⟨hreaches, heff, ?_, not_le.mp hlt⟩
    by_contra hle
    exact hpass (not_le.mp hle) hmax

/-- **The quota limit over whole runs in which no message overshoots.** After any calls, the window a
tracking record has at some point of the run holds at most `max_quota` of the sizes that are accepted,
in the whole run, under the setting as the one that decides `max_quota`. -/
theorem quota_limit (settings : Settings) {throttle : List Setting}
    (hids : (throttle.map (·.id)).Nodup) {rcd : Setting} (hrcd : rcd ∈ throttle)
    (hkind : rcd.TracksClient ∨ rcd.TracksUser) (hmax : 0 < rcd.maxQuota) {before later : List Call}
    (hsorted : ((before ++ later).map (·.1.now)).Pairwise (· ≤ ·))
    (hsound : ∀ e ∈ history (applyThrottle settings throttle) Sql.Table.empty (before ++ later),
      SoundSize e)
    (hquota : Throughout (applyThrottle settings throttle)
      (fun call t => ¬ Overshoots settings throttle rcd call t) Sql.Table.empty (before ++ later))
    {k : Str} {id : ℕ} {r : Tracking}
    (hrow : (after (applyThrottle settings throttle) Sql.Table.empty before).find? (rcd.id, k) =
      some (id, r)) :
    Counter.quota.countedWithin settings throttle rcd k r.initTime (r.initTime + rcd.period)
        (history (applyThrottle settings throttle) Sql.Table.empty (before ++ later)) ≤
      rcd.maxQuota := by
  refine limit_of_run settings hids hrcd hkind Counter.quota (le_of_lt hmax)
    (fun call t => SoundSize (call, (applyThrottle settings throttle call t).1) ∧
      ¬ Overshoots settings throttle rcd call t) ?_ hsorted
    ((throughout_of_history hsound).and hquota) hrow
  rintro call t hkeys ⟨⟨hclient, hsize, hfailed⟩, hnot⟩
  exact ⟨⟨hclient, hfailed⟩, hsize, fits_quota hids hkind hmax hkeys hclient hnot⟩

omit [Unicode] in
/-- Two messages from one client that stay within the quota. -/
theorem quota_limit_two_messages :
    letI := asciiUnicode
    let rcd : Setting :=
      { id := 1, account := "@ip", kind := "external", priority := 0, period := 3600, maxQuota := 100 }
    let call := fun (now : ℕ) (size : ℤ) => ((⟨now + 1, Nat.succ_pos now, now + 1, fun _ => .ok none,
      fun _ => .ok true, fun _ => false⟩, ⟨[], "1.2.3.4", size, 1, true, true⟩) : Call)
    Counter.quota.countedWithin {} [rcd] rcd "1.2.3.4" 100 3700
      (history (applyThrottle {} [rcd]) Sql.Table.empty [call 99 60, call 199 40]) ≤ 100 := by
  let := asciiUnicode
  intro rcd call
  refine @quota_limit asciiUnicode {} [rcd] (by decide) rcd (List.mem_singleton.mpr rfl)
    (.inl (.inr rfl)) (by decide) [call 99 60] [call 199 40] (by decide)
    (by unfold SoundSize IsClientAddress; decide) ⟨?_, ?_, trivial⟩ "1.2.3.4".toList 1
    { tid := 1, account := "1.2.3.4", period := 3600, curMsgs := 1, curQuota := 60
      initTime := 100, lastTime := 100 } (by decide)
  · rintro ⟨-, -, -, hlt⟩
    exact absurd hlt (by decide)
  · rintro ⟨-, -, -, hlt⟩
    exact absurd hlt (by decide)

omit [Unicode] in
/-- A message larger than the whole quota is accepted. -/
theorem large_message_accepted :
    letI := asciiUnicode
    let rcd : Setting :=
      { id := 1, account := "@ip", kind := "external", priority := 0, period := 3600, maxQuota := 100 }
    let call : Call := (⟨100, by decide, 100, fun _ => .ok none, fun _ => .ok true, fun _ => false⟩,
      ⟨[], "1.2.3.4", 1000, 1, true, true⟩)
    (∀ e ∈ history (applyThrottle {} [rcd]) Sql.Table.empty [call], SoundSize e) ∧
      (after (applyThrottle {} [rcd]) Sql.Table.empty [call]).find? (1, "1.2.3.4") =
        some (1, { tid := 1, account := "1.2.3.4", period := 3600, curMsgs := 1, curQuota := 1000
                   initTime := 100, lastTime := 100 }) ∧
      ¬ Counter.quota.countedWithin {} [rcd] rcd "1.2.3.4" 100 3700
        (history (applyThrottle {} [rcd]) Sql.Table.empty [call]) ≤ rcd.maxQuota := by
  let := asciiUnicode
  intro rcd call
  exact ⟨by unfold SoundSize IsClientAddress; decide, by decide, by decide⟩

end IRedAPD.Throttle

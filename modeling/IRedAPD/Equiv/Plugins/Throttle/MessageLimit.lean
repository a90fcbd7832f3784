/-
  The message limit over whole runs.

  The check of `max_msgs` counts the message that it decides, so it keeps
  `cur_msgs` within the limit (`fits_messages`); the bound on every window is the
  one of any counter that is kept so (`message_limit`).
-/
import IRedAPD.Equiv.Plugins.Throttle.Counter

namespace IRedAPD.Throttle

open Py History

variable [Unicode]

/-- A call that is accepted under the `max_msgs` of a setting, tracked under this text. -/
def Counts (settings : Settings) (throttle : List Setting) (rcd : Setting) (k : Str)
    (e : Call × Output) : Prop :=
  e.2.Accepts ∧ effective settings throttle e.1 .maxMsgs = some rcd ∧ trackKeyOf e.1.2 rcd.account = k

instance (settings : Settings) (throttle : List Setting) (rcd : Setting) (k : Str)
    (e : Call × Output) : Decidable (Counts settings throttle rcd k e) :=
  inferInstanceAs (Decidable (_ ∧ _ ∧ _))

/-- The recipients of the calls of a history that have a property. -/
def recipients (p : Call × Output → Bool) (h : List (Call × Output)) : ℤ :=
  ((h.filter p).map fun e => e.1.2.recipientCount).sum

section Limit

variable (settings : Settings) (throttle : List Setting) (rcd : Setting)

/-- The recipients accepted under a setting between two times. -/
def acceptedWithin (k : Str) (start stop : ℕ) (h : List (Call × Output)) : ℤ :=
  recipients (fun e => Counts settings throttle rcd k e ∧ start ≤ e.1.1.now ∧ e.1.1.now ≤ stop) h

end Limit

/-- A call that is fit to be counted: from a client, with a non-negative number of recipients, and
without a failing statement. -/
def Sound (e : Call × Output) : Prop :=
  IsClientAddress e.1.2.clientAddress ∧ 0 ≤ e.1.2.recipientCount ∧ e.2.failed = []

/-- The check of `max_msgs` keeps the counter within its value. -/
theorem fits_messages {settings : Settings} {throttle : List Setting}
    (hids : (throttle.map (·.id)).Nodup) {rcd : Setting} (hrcd : rcd ∈ throttle)
    (hkind : rcd.TracksClient ∨ rcd.TracksUser) (hmax : 0 < rcd.maxMsgs) {call : Call}
    {t : TrackingTable} (hkeys : KeysOf rcd t)
    (hsucceeds : Succeeds (call, (applyThrottle settings throttle call t).1)) :
    Counter.messages.Fits settings throttle rcd call t := by
  intro k hc
  rcases setting_cases hids hrcd hkind hsucceeds.1 hkeys hsucceeds.2 k with ⟨-, hrec⟩ | ⟨-, hnot⟩
  · have hpass := hrec.maxMsgs hc.2.1
    simp only [exceeds, not_and] at hpass
    by_contra hlt
    exact hpass (not_le.mp hlt) hmax
  · exact absurd hc.records hnot

/-- **The message limit over whole runs.** After any calls, the window a tracking record has at some
point of the run holds at most `max_msgs` recipients that are accepted, in the whole run, under the
setting as the one that decides `max_msgs`. -/
theorem message_limit (settings : Settings) {throttle : List Setting}
    (hids : (throttle.map (·.id)).Nodup) {rcd : Setting} (hrcd : rcd ∈ throttle)
    (hkind : rcd.TracksClient ∨ rcd.TracksUser) (hmax : 0 < rcd.maxMsgs) {before later : List Call}
    (hsorted : ((before ++ later).map (·.1.now)).Pairwise (· ≤ ·))
    (hsound : ∀ e ∈ history (applyThrottle settings throttle) Sql.Table.empty (before ++ later),
      Sound e) {k : Str} {id : ℕ} {r : Tracking}
    (hrow : (after (applyThrottle settings throttle) Sql.Table.empty before).find? (rcd.id, k) =
      some (id, r)) :
    acceptedWithin settings throttle rcd k r.initTime (r.initTime + rcd.period)
      (history (applyThrottle settings throttle) Sql.Table.empty (before ++ later)) ≤ rcd.maxMsgs := by
  refine limit_of_run settings hids hrcd hkind Counter.messages (le_of_lt hmax)
    (fun call t => Sound (call, (applyThrottle settings throttle call t).1)) ?_ hsorted
    (throughout_of_history hsound) hrow
  rintro call t hkeys ⟨hclient, hcount, hfailed⟩
  exact ⟨⟨hclient, hfailed⟩, hcount, fits_messages hids hrcd hkind hmax hkeys ⟨hclient, hfailed⟩⟩

omit [Unicode] in
/-- Two bounces from one client: the second one is over the limit. -/
theorem message_limit_bounces :
    letI := asciiUnicode
    let rcd : Setting :=
      { id := 1, account := "@ip", kind := "external", priority := 0, period := 3600, maxMsgs := 1 }
    let call := fun now : ℕ => ((⟨now + 1, Nat.succ_pos now, now + 1, fun _ => .ok none,
      fun _ => .ok true, fun _ => false⟩, ⟨[], "1.2.3.4", 100, 1, true, true⟩) : Call)
    acceptedWithin {} [rcd] rcd "1.2.3.4" 100 3700
      (history (applyThrottle {} [rcd]) Sql.Table.empty [call 99, call 199]) ≤ 1 := by
  let := asciiUnicode
  intro rcd call
  exact @message_limit asciiUnicode {} [rcd] (by decide) rcd (List.mem_singleton.mpr rfl)
    (.inl (.inr rfl)) (by decide) [call 99] [call 199] (by decide)
    (by unfold Sound IsClientAddress; decide) "1.2.3.4".toList 1
    { tid := 1, account := "1.2.3.4", period := 3600, curMsgs := 1, curQuota := 100
      initTime := 100, lastTime := 100 } (by decide)

end IRedAPD.Throttle

/-
  What an earlier request on a connection leaves behind for the next one.

  `self.smtp_session_data` is filled by every line and never emptied, so the
  session handed to the modeler holds for each attribute the value of its last
  line on the connection.  Two histories make no difference to the next request
  exactly when they agree on the attributes it leaves out (`isolation_iff`);
  `leaked_sasl_username` is a request that inherits a login.
-/
import IRedAPD.Equiv.Channel.Session

namespace IRedAPD

open Py

variable [Unicode] {ω : Type*}

/-- The lines of requests that have been completed. -/
def historyLines (history : List (List Bytes)) : List Bytes :=
  history.flatMap fun request => request ++ [[]]

/-- The sessions handed to the modeler for the next request: at most one, when its blank line is
received. -/
def handedNext (settings : Settings) (handleData : Session → ω → Except Exn Str × ω) (w : ω)
    (history : List (List Bytes)) (next : List Bytes) : List Session :=
  let h := policyHandler settings handleData
  let o := Outcome.run h.receive ⟨[], ⟨[], w⟩⟩ (historyLines history ++ next)
  handed (effects (h.receive o.state []).events)

omit [Unicode] in
/-- A blank line hands over the session if it holds `protocol_state`. -/
theorem handed_onBlank (handleData : Session → ω → Except Exn Str × ω) (p : Policy ω) :
    handed (p.onBlank handleData).events =
      if p.smtpSessionData.get? "protocol_state" = none then [] else [p.smtpSessionData] := by
  unfold Policy.onBlank
  simp only
  by_cases hd : p.smtpSessionData = []
  · simp [hd, handed, Policy.push]
  · rw [if_pos hd]
    cases hs : Dict.get? p.smtpSessionData "protocol_state".toList with
    | none => simp [handed]
    | some v =>
      rw [if_neg (by simp)]
      cases hc : Dict.get? p.smtpSessionData "client_address".toList with
      | none => rfl
      | some c =>
        simp only
        split_ifs <;> rfl

/-- The session handed over for the next request is that of all the lines so far. -/
theorem exists_handedNext (settings : Settings) (handleData : Session → ω → Except Exn Str × ω)
    (w : ω) {history : List (List Bytes)} {next : List Bytes}
    (hopen : NoneRaises PolicyRaises (historyLines history ++ next)) :
    ∃ d, SessionOf settings (historyLines history ++ next) d ∧
      handedNext settings handleData w history next =
        if lastValue "protocol_state" (historyLines history ++ next) = none then [] else [d] := by
  have hrun := (policy_run_raised_iff settings handleData w (historyLines history ++ next)).mpr hopen
  have hd := sessionOf_run (sessionOf_nil settings) (p := ⟨[], w⟩) hrun
  rw [List.nil_append] at hd
  refine ⟨_, hd, ?_⟩
  have hblank := handed_onBlank handleData (Outcome.run
    (handleLine (policyHandler settings handleData)) ⟨[], w⟩ (historyLines history ++ next)).state
  simp only [hd.get?_eq_none (k := "protocol_state".toList) (by decide)] at hblank
  rw [← hblank]
  simp only [handedNext, run_receive, receive_eq, Outcome.mapState_state, Outcome.mapState_events,
    handleLine, effects_announce, if_true]
  rfl

/-- An attribute that is not known has no value. -/
theorem lastValue_eq_none {k : Str} (hk : ¬ smtpSessionAttributes.contains k = true)
    (lines : List Bytes) : lastValue k lines = none := by
  by_contra hne
  obtain ⟨line, -, v, hattr⟩ := lastValue_ne_none_iff.mp hne
  exact hk (contains_of_attributeOf hattr)

/-- Sessions are the same exactly when the lines agree on every attribute. -/
theorem same_iff {settings : Settings} {lines₁ lines₂ : List Bytes} {d₁ d₂ : Session}
    (h₁ : SessionOf settings lines₁ d₁) (h₂ : SessionOf settings lines₂ d₂) :
    Dict.Same d₁ d₂ ↔ ∀ a ∈ smtpSessionAttributes, lastValue a lines₁ = lastValue a lines₂ := by
  constructor
  · intro hsame a ha
    have hk : smtpSessionAttributes.contains a = true := List.contains_iff_mem.mpr ha
    have hid : derived settings a = id := funext fun v => derived_attribute settings hk v
    have hkey := hsame a
    rw [h₁ a, h₂ a, ownerOf_attribute hk, hid, Option.map_id, id, id] at hkey
    exact hkey
  · intro hlast key
    rw [h₁ key, h₂ key]
    by_cases hk : smtpSessionAttributes.contains (ownerOf key) = true
    · rw [hlast _ (List.contains_iff_mem.mp hk)]
    · rw [lastValue_eq_none hk, lastValue_eq_none hk]

/-- **Request isolation.** On connections that are still open, and where the modeler is called for the
next request, the sessions handed over are the same after two histories exactly when, for every
attribute the request leaves out, the last value the one history gave is the last value the other
gave. -/
theorem isolation_iff (settings : Settings) (handleData : Session → ω → Except Exn Str × ω)
    (w₁ w₂ : ω) (history₁ history₂ : List (List Bytes)) (next : List Bytes)
    (hopen₁ : NoneRaises PolicyRaises (historyLines history₁ ++ next))
    (hopen₂ : NoneRaises PolicyRaises (historyLines history₂ ++ next))
    (hstate : lastValue "protocol_state" (historyLines history₁ ++ next) ≠ none ∨
      lastValue "protocol_state" (historyLines history₂ ++ next) ≠ none) :
    List.Forall₂ Dict.Same (handedNext settings handleData w₁ history₁ next)
        (handedNext settings handleData w₂ history₂ next) ↔
      ∀ a ∈ smtpSessionAttributes, lastValue a next = none →
        lastValue a (historyLines history₁) = lastValue a (historyLines history₂) := by
  obtain ⟨d₁, hd₁, heq₁⟩ := exists_handedNext settings handleData w₁ hopen₁
  obtain ⟨d₂, hd₂, heq₂⟩ := exists_handedNext settings handleData w₂ hopen₂
  -- both conditions say that the connections agree on every attribute
  have hnext : (∀ a ∈ smtpSessionAttributes, lastValue a next = none →
      lastValue a (historyLines history₁) = lastValue a (historyLines history₂)) ↔
      ∀ a ∈ smtpSessionAttributes, lastValue a (historyLines history₁ ++ next) =
        lastValue a (historyLines history₂ ++ next) := by
    refine forall₂_congr fun a _ => ?_
    rw [lastValue_append, lastValue_append]
    cases lastValue a next <;> simp
  have hmem : "protocol_state".toList ∈ smtpSessionAttributes := by decide
  rw [hnext]
  rw [heq₁, heq₂]
  by_cases hs₁ : lastValue "protocol_state" (historyLines history₁ ++ next) = none <;>
    by_cases hs₂ : lastValue "protocol_state" (historyLines history₂ ++ next) = none
  · exact absurd hstate (by rw [hs₁, hs₂]; simp)
  · rw [if_pos hs₁, if_neg hs₂]
    refine iff_of_false nofun fun h => hs₂ ?_
    rw [← h _ hmem, hs₁]
  · rw [if_neg hs₁, if_pos hs₂]
    refine iff_of_false nofun fun h => hs₁ ?_
    rw [h _ hmem, hs₂]
  · rw [if_neg hs₁, if_neg hs₂, List.forall₂_cons, ← same_iff hd₁ hd₂]
    exact and_iff_left List.Forall₂.nil

omit [Unicode] in
/-- A request after an empty history and after one that set the attributes it sets again. -/
theorem isolation_iff_overwritten :
    letI := asciiUnicode
    let next := [asciiBytes "protocol_state=RCPT", asciiBytes "client_address=1.2.3.4"]
    NoneRaises PolicyRaises (historyLines [next] ++ next) ∧
      (List.Forall₂ Dict.Same
          (handedNext {} (fun _ w => (.ok "DUNNO".toList, w)) () [] next)
          (handedNext {} (fun _ w => (.ok "DUNNO".toList, w)) () [next] next) ↔
        ∀ a ∈ smtpSessionAttributes, lastValue a next = none →
          lastValue a (historyLines []) = lastValue a (historyLines [next])) :=
  let := asciiUnicode
  ⟨by decide, isolation_iff {} (fun _ w => (.ok "DUNNO".toList, w)) () () [] [_] _
    (by decide) (by decide) (by decide)⟩

omit [Unicode] in
/-- A request without `sasl_username` is handed over with the login of the request before. -/
theorem leaked_sasl_username :
    letI := asciiUnicode
    let next := [asciiBytes "protocol_state=RCPT", asciiBytes "client_address=1.2.3.4"]
    let earlier := asciiBytes "sasl_username=a@b.cd" :: next
    NoneRaises PolicyRaises (historyLines [next] ++ next) ∧
      NoneRaises PolicyRaises (historyLines [earlier] ++ next) ∧
        ¬ List.Forall₂ Dict.Same
          (handedNext {} (fun _ w => (.ok "DUNNO".toList, w)) () [next] next)
          (handedNext {} (fun _ w => (.ok "DUNNO".toList, w)) () [earlier] next) := by
  intro next earlier
  refine ⟨by decide, by decide, fun hsame => ?_⟩
  cases hsame with
  | cons h _ =>
    have hlogin := h "sasl_username"
    revert hlogin
    decide

end IRedAPD

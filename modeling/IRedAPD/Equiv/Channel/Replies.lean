/-
  How many replies a `Policy` connection pushes.

  The blank line that ends a request is answered once.  A line whose address
  fails `is_email` is answered as well, when it arrives, because the branch does
  not return: a connection pushes one reply per request exactly when no such
  line is received (`one_reply_iff`), and `two_replies` is a request with two.
-/
import IRedAPD.Equiv.Channel.Session

namespace IRedAPD

open Py Framing

variable [Unicode] {ω : Type*}

/-- A complete line as the peer sends it. -/
structure Utf8Line where
  bytes : Bytes
  text : Str
  decode_bytes : decode bytes = some text
  newline_not_mem : 10 ∉ bytes

/-- The requests: the lines up to each blank line. -/
def requests (lines : List Bytes) : List (List Bytes) := (lines.splitOn []).dropLast

/-- A request with the two attributes the channel reads unconditionally. -/
def CarriesRequired (request : List Bytes) : Prop :=
  lastValue "protocol_state" request ≠ none ∧ lastValue "client_address" request ≠ none

/-- One `action=` reply for each blank line and none for any other line. -/
def OneReplyPerRequest (settings : Settings) (handleData : Session → ω → Except Exn Str × ω) (w : ω)
    (lines : List Bytes) : Prop :=
  let h := policyHandler settings handleData
  ∀ l₁ l l₂, lines = l₁ ++ l :: l₂ →
    let o := Outcome.run h.receive ⟨[], ⟨[], w⟩⟩ l₁
    o.raised = false ∧
      (pushed (effects (h.receive o.state l).events)).map (startsWith · "action=") =
        if l = [] then [true] else []

/-- An address line whose address is refused. -/
def InvalidAddress (line : Bytes) : Prop :=
  ∃ k v, attributeOf line = some (k, v) ∧ addressAttributes.contains k = true ∧ v ≠ [] ∧
    isEmail v = false

instance (line : Bytes) : Decidable (InvalidAddress line) :=
  decidable_of_iff (∃ a ∈ attributeOf line, addressAttributes.contains a.1 = true ∧ a.2 ≠ [] ∧
    isEmail a.2 = false) (by simp [InvalidAddress])

/-! ### One line -/

/-- What is pushed for a known attribute: a message about an address that is refused. -/
theorem pushed_attribute_eq_nil (settings : Settings) (p : Policy ω) (k v : Str) :
    pushed (p.attribute settings k v).events = [] ↔
      ¬ (addressAttributes.contains k = true ∧ normalize k v ≠ [] ∧
        isEmail (normalize k v) = false) := by
  unfold Policy.attribute
  simp only [← normalize.eq_1]
  by_cases haddr : addressAttributes.contains k = true
  · rw [if_pos haddr]
    by_cases hv : normalize k v ≠ [] ∧ isEmail (normalize k v) = false
    · rw [if_pos hv]
      exact iff_of_false (by simp [pushed, Policy.push]) (not_not.mpr ⟨haddr, hv⟩)
    · rw [if_neg hv]
      exact iff_of_true rfl fun h => hv h.2
  · rw [if_neg haddr]
    simp only [haddr, Bool.false_eq_true, false_and, not_false_eq_true, iff_true]
    rfl

/-- A line that is not blank pushes nothing exactly when it gives no refused address. -/
theorem pushed_onLine_eq_nil (settings : Settings) (p : Policy ω) (line : Bytes) :
    pushed (p.onLine settings line).events = [] ↔ ¬ InvalidAddress line := by
  rcases onLine_cases settings p line with ⟨-, hline, hattr⟩ | ⟨k, v, -, -, hline, hattr⟩ |
    ⟨-, hline, hattr⟩
  · simp [hline, hattr, InvalidAddress, pushed]
  · rw [hline, pushed_attribute_eq_nil]
    simp [InvalidAddress, hattr]
  · simp [hline, hattr, InvalidAddress, pushed, Outcome.pure]

omit [Unicode] in
/-- A blank line that does not raise pushes one reply. -/
theorem pushed_onBlank (handleData : Session → ω → Except Exn Str × ω) (p : Policy ω)
    (hr : (p.onBlank handleData).raised = false) :
    (pushed (p.onBlank handleData).events).map (startsWith · "action=") = [true] := by
  have haction : ∀ action : Str,
      startsWith ("action=".toList ++ action ++ "\n".toList ++ "\n".toList) "action=" = true := by
    intro action
    rw [startsWith_iff, List.append_assoc, List.append_assoc]
    exact List.prefix_append _ _
  have hone : ∀ action logged, (∀ e ∈ logged, ∃ a s, e = PolicyEvent.logSmtpSession a s) →
      (pushed (Policy.push ("action=".toList ++ action ++ "\n".toList) :: logged)).map
        (startsWith · "action=") = [true] := by
    intro action logged hlogged
    have hnil : pushed logged = [] := by
      refine List.filterMap_eq_nil_iff.mpr fun e he => ?_
      obtain ⟨a, s, rfl⟩ := hlogged e he
      rfl
    rw [← haction action]
    simp only [pushed, Policy.push, List.filterMap_cons, List.map_cons] at hnil ⊢
    rw [hnil]
    rfl
  unfold Policy.onBlank at hr ⊢
  simp only at hr ⊢
  split_ifs at hr ⊢
  · split at hr
    · simp at hr
    · split at hr
      · simp at hr
      · refine hone _ _ fun e he => ?_
        split_ifs at he
        · exact ⟨_, _, List.mem_singleton.mp he⟩
        · simp at he
  · exact hone _ [] (by simp)

/-! ### Runs -/

/-- A request that carries the two attributes is followed by a blank line that does not raise. -/
theorem not_policyRaises_nil {before after : List Bytes}
    (hreq : ∀ r ∈ requests (before ++ [] :: after), CarriesRequired r) :
    ¬ PolicyRaises before [] := by
  obtain ⟨r, hr, hmem⟩ := exists_splitOn_of_append_cons (d := ([] : Bytes)) before after
  obtain ⟨hstate, hclient⟩ := hreq r hmem
  have hgiven : ∀ k, lastValue k r ≠ none → lastValue k before ≠ none := by
    intro k hk
    obtain ⟨line, hline, hattr⟩ := lastValue_ne_none_iff.mp hk
    exact lastValue_ne_none_iff.mpr ⟨line, mem_of_mem_splitOn hr hline, hattr⟩
  rintro (hdec | ⟨-, -, hnone | hnone⟩)
  · simp at hdec
  · exact hgiven _ hstate hnone
  · exact hgiven _ hclient hnone

/-- Such a connection raises nothing. -/
theorem noneRaises_of_requests {lines : List Bytes} (hutf8 : ∀ l ∈ lines, (decode l).isSome)
    (hreq : ∀ r ∈ requests lines, CarriesRequired r) : NoneRaises PolicyRaises lines := by
  intro l₁ l l₂ hl
  by_cases hblank : l = []
  · subst hblank
    exact not_policyRaises_nil (hl ▸ hreq)
  · rintro (hdec | ⟨hnil, -⟩)
    · have := hutf8 l (by simp [hl])
      simp [hdec] at this
    · exact hblank hnil

/-- **One reply per request.** On a connection whose requests all carry `protocol_state` and
`client_address`, there is one reply for each blank line and none for any other exactly when no
line gives `sender`, `recipient` or `sasl_username` a value that is refused. -/
theorem one_reply_iff (settings : Settings) (handleData : Session → ω → Except Exn Str × ω) (w : ω)
    (lines : List Utf8Line)
    (hreq : ∀ r ∈ requests (lines.map Utf8Line.bytes), CarriesRequired r) :
    OneReplyPerRequest settings handleData w (lines.map Utf8Line.bytes) ↔
      ∀ line ∈ lines, ¬ InvalidAddress line.bytes := by
  set ls := lines.map Utf8Line.bytes with hls
  have hutf8 : ∀ l ∈ ls, (decode l).isSome := by
    intro l hl
    obtain ⟨line, -, rfl⟩ := List.mem_map.mp hl
    rw [line.decode_bytes]
    rfl
  have hnone := noneRaises_of_requests hutf8 hreq
  -- what one line pushes, after lines that raise nothing
  have hpush : ∀ l₁ l l₂, ls = l₁ ++ l :: l₂ →
      let h := policyHandler settings handleData
      let o := Outcome.run h.receive ⟨[], ⟨[], w⟩⟩ l₁
      o.raised = false ∧
        ((pushed (effects (h.receive o.state l).events)).map (startsWith · "action=") =
          (if l = [] then [true] else []) ↔ ¬ InvalidAddress l) := by
    intro l₁ l l₂ hl h o
    have hrun := policy_run_raised_iff settings handleData w
    have hr₁ : (Outcome.run (handleLine h) ⟨[], w⟩ l₁).raised = false := by
      refine (hrun l₁).mpr fun a b c hab => ?_
      exact hnone a b (c ++ l :: l₂) (by rw [hl, hab]; simp)
    have hr₂ : (Outcome.run (handleLine h) ⟨[], w⟩ (l₁ ++ [l])).raised = false := by
      refine (hrun (l₁ ++ [l])).mpr fun a b c hab => ?_
      exact hnone a b (c ++ l₂) (by rw [hl, List.append_cons, hab]; simp)
    simp only [o, run_receive, receive_eq, Outcome.mapState_state, Outcome.mapState_raised,
      Outcome.mapState_events, hr₁, true_and, handleLine, effects_announce]
    by_cases hblank : l = []
    · subst hblank
      have hraised : ((Outcome.run (handleLine h) ⟨[], w⟩ l₁).state.onBlank handleData).raised =
          false := by
        have := ((Outcome.run_concat_raised _ _ _ _).mp hr₂).2
        simp only [handleLine, announce, if_true] at this
        exact this
      have hok := pushed_onBlank handleData _ hraised
      rw [if_pos rfl, if_pos rfl]
      exact iff_of_true hok (by simp [InvalidAddress])
    · rw [if_neg hblank, if_neg hblank, List.map_eq_nil_iff]
      exact pushed_onLine_eq_nil settings _ l
  constructor
  · intro hone line hline
    obtain ⟨l₁, l₂, hl⟩ := List.append_of_mem (List.mem_map_of_mem (f := Utf8Line.bytes) hline)
    exact (hpush l₁ line.bytes l₂ hl).2.mp (hone l₁ line.bytes l₂ hl).2
  · intro hvalid l₁ l l₂ hl
    obtain ⟨line, hline, rfl⟩ : ∃ line ∈ lines, line.bytes = l :=
      List.mem_map.mp (by rw [← hls, hl]; simp)
    exact ⟨(hpush l₁ _ l₂ hl).1, (hpush l₁ _ l₂ hl).2.mpr (hvalid line hline)⟩

omit [Unicode] in
/-- A request with one reply. -/
theorem one_reply_iff_request :
    letI := asciiUnicode
    let lines : List Utf8Line :=
      [⟨asciiBytes "protocol_state=RCPT", "protocol_state=RCPT", by decide, by decide⟩,
        ⟨asciiBytes "client_address=1.2.3.4", "client_address=1.2.3.4", by decide, by decide⟩,
        ⟨[], [], by decide, by decide⟩]
    (∀ r ∈ requests (lines.map Utf8Line.bytes), CarriesRequired r) ∧
      (OneReplyPerRequest {} (fun _ w => (.ok "DUNNO".toList, w)) () (lines.map Utf8Line.bytes) ↔
        ∀ line ∈ lines, ¬ InvalidAddress line.bytes) :=
  let := asciiUnicode
  ⟨by unfold CarriesRequired; decide,
    one_reply_iff {} (fun _ w => (.ok "DUNNO".toList, w)) () _ (by unfold CarriesRequired; decide)⟩

omit [Unicode] in
/-- A request with two replies: `action=DUNNO Error: Invalid sender address: bob` is pushed when the
sender arrives, and the blank line is answered again. -/
theorem two_replies :
    letI := asciiUnicode
    let lines := [asciiBytes "sender=bob", asciiBytes "protocol_state=RCPT",
      asciiBytes "client_address=1.2.3.4", []]
    (∀ r ∈ requests lines, CarriesRequired r) ∧
      ¬ OneReplyPerRequest {} (fun _ w => (.ok "DUNNO".toList, w)) () lines := by
  intro lines
  refine ⟨by unfold CarriesRequired; decide, fun hone => ?_⟩
  have hsender := (hone [] (asciiBytes "sender=bob") _ rfl).2
  revert hsender
  decide

end IRedAPD

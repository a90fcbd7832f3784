/-
  The session data of a `Policy` connection.

  After any lines that raise nothing, the session holds for every key what the
  last line of its attribute gave (`SessionOf`, `sessionOf_run`): an address
  attribute also owns its `_domain` and `_without_ext` keys.  A line raises
  exactly when it is not UTF-8, or is blank while the session holds something
  but not both of `protocol_state` and `client_address` (`raised_iff`).
-/
import IRedAPD.Equiv.Channel.Lines

namespace IRedAPD

open Py

variable [Unicode] {ω : Type*}

/-! ### What a `Policy` run shows -/

/-- The sessions handed to the modeler. -/
def handed (events : List PolicyEvent) : List Session :=
  events.filterMap fun
    | .handleData session => some session
    | _ => none

/-- The replies pushed. -/
def pushed (events : List PolicyEvent) : List Str :=
  events.filterMap fun
    | .push msg => some msg
    | _ => none

omit [Unicode] in
@[simp] theorem pushed_append (es es' : List PolicyEvent) :
    pushed (es ++ es') = pushed es ++ pushed es' := List.filterMap_append ..

/-! ### The attribute of a line -/

/-- The value stored under the attribute's own key. -/
def normalize (k v : Str) : Str := if lowerAttributes.contains k then Unicode.lower v else v

/-- The known attribute a line gives, with its value. -/
def attributeOf (line : Bytes) : Option (Str × Str) :=
  (decode line).bind fun line =>
    (splitOnce "=" line).bind fun (k, v) =>
      if smtpSessionAttributes.contains k then some (k, normalize k v) else none

/-- The last value the lines give to an attribute. -/
def lastValue (k : Str) (lines : List Bytes) : Option Str :=
  (((lines.filterMap attributeOf).filter fun a => a.1 = k).getLast?).map Prod.snd

/-- The attribute whose line writes a key of the session. -/
def ownerOf (key : Str) : Str :=
  if key = "sender_domain".toList ∨ key = "sender_without_ext".toList then "sender"
  else if key = "recipient_domain".toList ∨ key = "recipient_without_ext".toList then "recipient"
  else if key = "sasl_username_domain".toList then "sasl_username"
  else key

/-- What is written under a key when its attribute has a value. -/
def derived (settings : Settings) (key v : Str) : Str :=
  if key = "sender_domain".toList ∨ key = "recipient_domain".toList ∨
      key = "sasl_username_domain".toList then splitLast "@" v
  else if key = "sender_without_ext".toList ∨ key = "recipient_without_ext".toList then
    stripMailExtAddress settings v
  else v

theorem lastValue_append (k : Str) (lines lines' : List Bytes) :
    lastValue k (lines ++ lines') = (lastValue k lines').or (lastValue k lines) := by
  simp only [lastValue, List.filterMap_append, List.filter_append, List.getLast?_append]
  cases ((lines'.filterMap attributeOf).filter fun a => a.1 = k).getLast? <;> simp

theorem lastValue_singleton (k : Str) (line : Bytes) :
    lastValue k [line] = (attributeOf line).bind fun a => if a.1 = k then some a.2 else none := by
  cases h : attributeOf line with
  | none => simp [lastValue, h]
  | some a =>
    by_cases hk : a.1 = k <;> simp [lastValue, h, hk]

/-- An attribute has a last value exactly when some line gives it one. -/
theorem lastValue_ne_none_iff {k : Str} {lines : List Bytes} :
    lastValue k lines ≠ none ↔ ∃ line ∈ lines, ∃ v, attributeOf line = some (k, v) := by
  simp only [lastValue, ne_eq, Option.map_eq_none_iff, List.getLast?_eq_none_iff,
    List.filter_eq_nil_iff, List.mem_filterMap, decide_eq_true_eq, not_forall, not_not]
  constructor
  · rintro ⟨⟨_, v⟩, ⟨line, hline, hattr⟩, rfl⟩
    exact ⟨line, hline, v, hattr⟩
  · rintro ⟨line, hline, v, hattr⟩
    exact ⟨(k, v), ⟨line, hline, hattr⟩, rfl⟩

/-- A blank line gives no attribute. -/
@[simp] theorem attributeOf_nil : attributeOf [] = none := by
  simp [attributeOf, splitOnce]

omit [Unicode] in
/-- The attributes of `SMTP_SESSION_ATTRIBUTES` own themselves. -/
theorem ownerOf_attribute {k : Str} (hk : smtpSessionAttributes.contains k = true) :
    ownerOf k = k := by
  have hall : ∀ k ∈ smtpSessionAttributes, ownerOf k = k := by decide
  exact hall k (List.contains_iff_mem.mp hk)

/-- Under its own key an attribute is stored as it is. -/
theorem derived_attribute (settings : Settings) {k : Str}
    (hk : smtpSessionAttributes.contains k = true) (v : Str) : derived settings k v = v := by
  have hall : ∀ k ∈ smtpSessionAttributes, ¬ (k = "sender_domain".toList ∨
      k = "recipient_domain".toList ∨ k = "sasl_username_domain".toList) ∧
      ¬ (k = "sender_without_ext".toList ∨ k = "recipient_without_ext".toList) := by decide
  obtain ⟨h₁, h₂⟩ := hall k (List.contains_iff_mem.mp hk)
  simp only [derived, h₁, h₂, if_false]

/-- Lines give known attributes only. -/
theorem contains_of_attributeOf {line : Bytes} {a : Str × Str} (h : attributeOf line = some a) :
    smtpSessionAttributes.contains a.1 = true := by
  simp only [attributeOf, Option.bind_eq_some_iff] at h
  obtain ⟨_, -, kv, -, hkv⟩ := h
  split at hkv
  · next hk =>
    obtain rfl := Option.some.inj hkv
    exact hk
  · cases hkv

/-! ### One attribute -/

/-- A line of an address attribute writes the keys it owns. -/
theorem get?_attribute_address (settings : Settings) (p : Policy ω) {k : Str}
    (hk : addressAttributes.contains k = true) (v : Str) (key : Str) :
    (p.attribute settings k v).state.smtpSessionData.get? key =
      if ownerOf key = k then some (derived settings key (normalize k v))
      else p.smtpSessionData.get? key := by
  have hmem : k ∈ addressAttributes := List.contains_iff_mem.mp hk
  simp only [addressAttributes, List.mem_cons, List.not_mem_nil, or_false] at hmem
  have hlower : lowerAttributes.contains k = true := by
    rcases hmem with rfl | rfl | rfl <;> decide
  simp only [Policy.attribute, hk, hlower, if_true, normalize]
  -- `sender` and `recipient` own three keys, `sasl_username` only two
  rcases hmem with rfl | rfl | rfl
  · have hext : extAttributes.contains "sender".toList = true := by decide
    have hd : "sender".toList ++ "_domain".toList = "sender_domain".toList := by decide
    have hw : "sender".toList ++ "_without_ext".toList = "sender_without_ext".toList := by decide
    simp only [hext, hd, hw, if_true, Dict.get?_set]
    by_cases e₁ : "sender_without_ext".toList = key
    · subst e₁; rfl
    by_cases e₂ : "sender_domain".toList = key
    · subst e₂; rfl
    by_cases e₃ : "sender".toList = key
    · subst e₃; rfl
    have ho : ownerOf key ≠ "sender".toList := by
      simp only [ownerOf, Ne.symm e₁, Ne.symm e₂, or_self, if_false]
      split_ifs <;> first | decide | exact Ne.symm e₃
    simp only [e₁, e₂, e₃, ho, if_false]
  · have hext : extAttributes.contains "recipient".toList = true := by decide
    have hd : "recipient".toList ++ "_domain".toList = "recipient_domain".toList := by decide
    have hw : "recipient".toList ++ "_without_ext".toList = "recipient_without_ext".toList := by
      decide
    simp only [hext, hd, hw, if_true, Dict.get?_set]
    by_cases e₁ : "recipient_without_ext".toList = key
    · subst e₁; rfl
    by_cases e₂ : "recipient_domain".toList = key
    · subst e₂; rfl
    by_cases e₃ : "recipient".toList = key
    · subst e₃; rfl
    have ho : ownerOf key ≠ "recipient".toList := by
      simp only [ownerOf, Ne.symm e₁, Ne.symm e₂, or_self, if_false]
      split_ifs <;> first | decide | exact Ne.symm e₃
    simp only [e₁, e₂, e₃, ho, if_false]
  · have hext : extAttributes.contains "sasl_username".toList = false := by decide
    have hd : "sasl_username".toList ++ "_domain".toList = "sasl_username_domain".toList := by
      decide
    simp only [hext, hd, Bool.false_eq_true, if_false, Dict.get?_set]
    by_cases e₁ : "sasl_username_domain".toList = key
    · subst e₁; rfl
    by_cases e₂ : "sasl_username".toList = key
    · subst e₂; rfl
    have ho : ownerOf key ≠ "sasl_username".toList := by
      simp only [ownerOf, Ne.symm e₁, if_false]
      split_ifs <;> first | decide | exact Ne.symm e₂
    simp only [e₁, e₂, ho, if_false]

/-- **A line of a known attribute writes the keys it owns.** -/
theorem get?_attribute (settings : Settings) (p : Policy ω) {k : Str}
    (hk : smtpSessionAttributes.contains k = true) (v : Str) (key : Str) :
    (p.attribute settings k v).state.smtpSessionData.get? key =
      if ownerOf key = k then some (derived settings key (normalize k v))
      else p.smtpSessionData.get? key := by
  by_cases haddr : addressAttributes.contains k = true
  · exact get?_attribute_address settings p haddr v key
  · -- the attribute owns its own key only
    have hself : ownerOf k = k := ownerOf_attribute hk
    have howner : ownerOf key = k ↔ k = key := by
      constructor
      · intro ho
        by_contra hne
        refine haddr (List.contains_iff_mem.mpr ?_)
        rw [← ho] at hne ⊢
        unfold ownerOf at hne ⊢
        split_ifs at hne ⊢ <;> first | decide | exact absurd rfl hne
      · rintro rfl
        exact hself
    simp only [Policy.attribute, haddr, Bool.false_eq_true, if_false, howner]
    by_cases hl : lowerAttributes.contains k = true
    · simp only [hl, if_true, Dict.get?_set]
      by_cases hkey : k = key
      · subst hkey
        simp only [derived_attribute settings hk, normalize, hl, if_true]
      · simp only [hkey, if_false]
    · simp only [hl, Bool.false_eq_true, if_false, Dict.get?_set]
      by_cases hkey : k = key
      · subst hkey
        simp only [derived_attribute settings hk, normalize, hl, Bool.false_eq_true, if_true, if_false]
      · simp only [hkey, if_false]

/-- A known attribute never raises. -/
@[simp] theorem attribute_raised (settings : Settings) (p : Policy ω) (k v : Str) :
    (p.attribute settings k v).raised = false := by
  unfold Policy.attribute
  simp only
  split <;> rfl

/-! ### Lines -/

/-- The session after these lines: every key holds what the last line of its attribute gave. -/
def SessionOf (settings : Settings) (lines : List Bytes) (d : Session) : Prop :=
  ∀ key, d.get? key = (lastValue (ownerOf key) lines).map (derived settings key)

theorem sessionOf_nil (settings : Settings) : SessionOf settings [] [] := by
  intro key
  rfl

/-- A session holds something exactly when some line gave an attribute. -/
theorem SessionOf.eq_nil_iff {settings : Settings} {lines : List Bytes} {d : Session}
    (hd : SessionOf settings lines d) : d = [] ↔ lines.filterMap attributeOf = [] := by
  constructor
  · rintro rfl
    by_contra hne
    obtain ⟨init, a, ha⟩ := (List.eq_nil_or_concat _).resolve_left hne
    rw [List.concat_eq_append] at ha
    have hmem : a ∈ lines.filterMap attributeOf := by simp [ha]
    obtain ⟨line, -, hline⟩ := List.mem_filterMap.mp hmem
    have hk := contains_of_attributeOf hline
    have := hd a.1
    simp [ownerOf_attribute hk, lastValue, ha] at this
  · intro hnil
    refine Dict.eq_nil_of_get? fun key => ?_
    rw [hd key]
    simp [lastValue, hnil]

/-- What a line does: it raises, it stores the attribute it gives, or it is dropped. -/
theorem onLine_cases (settings : Settings) (p : Policy ω) (line : Bytes) :
    (decode line = none ∧ p.onLine settings line = ⟨p, [], true⟩ ∧ attributeOf line = none) ∨
    (∃ k v, smtpSessionAttributes.contains k = true ∧ (decode line).isSome ∧
      p.onLine settings line = p.attribute settings k v ∧
      attributeOf line = some (k, normalize k v)) ∨
    ((decode line).isSome ∧ p.onLine settings line = .pure p ∧ attributeOf line = none) := by
  cases hdec : decode line with
  | none => exact .inl ⟨rfl, by simp only [Policy.onLine, hdec], by simp [attributeOf, hdec]⟩
  | some text =>
    right
    cases hsplit : splitOnce "=".toList text with
    | none =>
      refine .inr ⟨rfl, by simp only [Policy.onLine, hdec, hsplit], ?_⟩
      simp only [attributeOf, hdec, Option.bind_some, hsplit, Option.bind_none]
    | some kv =>
      obtain ⟨k, v⟩ := kv
      by_cases hk : smtpSessionAttributes.contains k = true
      · refine .inl ⟨k, v, hk, rfl, ?_, ?_⟩
        · simp only [Policy.onLine, hdec, hsplit, hk, if_true]
        · simp only [attributeOf, hdec, Option.bind_some, hsplit, hk, if_true]
      · refine .inr ⟨rfl, ?_, ?_⟩
        · simp only [Policy.onLine, hdec, hsplit, hk, Bool.false_eq_true, if_false]
        · simp only [attributeOf, hdec, Option.bind_some, hsplit, hk, Bool.false_eq_true, if_false]

omit [Unicode] in
/-- The blank line leaves the session as it is. -/
@[simp] theorem onBlank_session (handleData : Session → ω → Except Exn Str × ω) (p : Policy ω) :
    (p.onBlank handleData).state.smtpSessionData = p.smtpSessionData := by
  unfold Policy.onBlank
  simp only
  split_ifs
  · split
    · rfl
    · split <;> rfl
  · rfl

/-- A line extends the session by its attribute. -/
theorem sessionOf_handleLine {settings : Settings} (handleData : Session → ω → Except Exn Str × ω)
    {before : List Bytes} {p : Policy ω} (hp : SessionOf settings before p.smtpSessionData)
    (line : Bytes) :
    SessionOf settings (before ++ [line])
      (handleLine (policyHandler settings handleData) p line).state.smtpSessionData := by
  intro key
  rw [lastValue_append, lastValue_singleton]
  simp only [handleLine, announce, policyHandler]
  by_cases hl : line = []
  · simp [hl, hp key]
  · rw [if_neg hl]
    rcases onLine_cases settings p line with ⟨-, hline, hattr⟩ | ⟨k, v, hk, -, hline, hattr⟩ |
      ⟨-, hline, hattr⟩
    · simp [hline, hattr, hp key]
    · rw [hline, hattr, get?_attribute settings p hk]
      by_cases ho : ownerOf key = k
      · simp [ho]
      · simp [ho, Ne.symm ho, hp key]
    · simp [hline, hattr, hp key, Outcome.pure]

/-- **The session after a run of lines.** -/
theorem sessionOf_run {settings : Settings} {handleData : Session → ω → Except Exn Str × ω}
    {before lines : List Bytes} {p : Policy ω} (hp : SessionOf settings before p.smtpSessionData)
    (hrun : (Outcome.run (handleLine (policyHandler settings handleData)) p lines).raised = false) :
    SessionOf settings (before ++ lines)
      (Outcome.run (handleLine (policyHandler settings handleData)) p lines).state.smtpSessionData :=
  Outcome.run_induction (fun before p => SessionOf settings before p.smtpSessionData)
    (fun _ _ line hp _ => sessionOf_handleLine handleData hp line) hp hrun

/-! ### Exceptions -/

/-- A line on which `found_terminator` raises, after these lines: it is not UTF-8, or it is blank
while known attributes have been given, but not both of the two the reply needs. -/
def PolicyRaises (before : List Bytes) (line : Bytes) : Prop :=
  decode line = none ∨
    (line = [] ∧ before.filterMap attributeOf ≠ [] ∧
      (lastValue "protocol_state" before = none ∨ lastValue "client_address" before = none))

instance (before : List Bytes) (line : Bytes) : Decidable (PolicyRaises before line) :=
  inferInstanceAs (Decidable (_ ∨ _))

/-- What a session holds under an attribute that owns only itself. -/
theorem SessionOf.get?_eq_none {settings : Settings} {lines : List Bytes} {d : Session}
    (hd : SessionOf settings lines d) {k : Str} (hk : ownerOf k = k) :
    d.get? k = none ↔ lastValue k lines = none := by
  rw [hd k, hk, Option.map_eq_none_iff]

/-- **When a line raises.** -/
theorem raised_iff {settings : Settings} {handleData : Session → ω → Except Exn Str × ω}
    {before : List Bytes} {p : Policy ω} (hp : SessionOf settings before p.smtpSessionData)
    (line : Bytes) :
    (handleLine (policyHandler settings handleData) p line).raised = true ↔
      PolicyRaises before line := by
  simp only [handleLine, announce, policyHandler, PolicyRaises]
  by_cases hl : line = []
  · subst hl
    have hstate := hp.get?_eq_none (k := "protocol_state") (by decide)
    have hclient := hp.get?_eq_none (k := "client_address") (by decide)
    rw [if_pos rfl, decode_nil, Policy.onBlank]
    simp only [reduceCtorEq, false_or, true_and, ne_eq, ← hp.eq_nil_iff, ← hstate, ← hclient]
    by_cases hd : p.smtpSessionData = []
    · simp [hd]
    · simp only [hd, not_false_eq_true, if_true, true_and]
      cases hs : Dict.get? p.smtpSessionData "protocol_state".toList with
      | none => simp
      | some v =>
        cases hc : Dict.get? p.smtpSessionData "client_address".toList with
        | none => simp
        | some c => simp
  · simp only [hl, if_false, false_and, or_false]
    rcases onLine_cases settings p line with ⟨hdec, hline, -⟩ | ⟨k, v, hk, hdec, hline, -⟩ |
      ⟨hdec, hline, -⟩
    · simp [hline, hdec]
    · simp [hline, Option.ne_none_iff_isSome.mpr hdec]
    · simp [hline, Outcome.pure, Option.ne_none_iff_isSome.mpr hdec]

/-- **A new connection raises nothing exactly when no line of it does.** -/
theorem policy_run_raised_iff (settings : Settings) (handleData : Session → ω → Except Exn Str × ω)
    (w : ω) (lines : List Bytes) :
    (Outcome.run (handleLine (policyHandler settings handleData)) ⟨[], w⟩ lines).raised = false ↔
      NoneRaises PolicyRaises lines :=
  run_raised_iff (policyHandler settings handleData)
    (R := fun before p => SessionOf settings before p.smtpSessionData)
    (fun _ _ line hp => raised_iff hp line) (fun _ _ line hp => sessionOf_handleLine handleData hp line)
    [] ⟨[], w⟩ (sessionOf_nil settings) lines

end IRedAPD

/-
  Which reverse DNS names are rejected.

  The plugin asks for the name itself and for its end parts with a `.` in front.
  Those are the texts that start with a `.` and end the name with a `.` put before
  it (`mem_policyRdnsNames_iff`), which is how the formats of the table are
  documented, so a row is found exactly when it matches the name, and the
  whitelist is asked first (`rejects_iff`).
-/
import IRedAPD.Equiv.PolicyAddresses
import IRedAPD.Plugins.WblistRdns

namespace IRedAPD.WblistRdns

open Py

/-! ### The names that are asked for -/

/-- A row matches a name: it is the name, or it starts with a `.` and ends the name with a `.` put
before it. -/
def RdnsMatches (r n : Str) : Prop :=
  r = n ∨ (startsWith r "." = true ∧ endsWith ('.' :: n) r = true)

/-- The loop takes one label away after the other. -/
theorem dottedNames_eq (labels : List Str) :
    dottedNames labels = (labels.tails.dropLast.map (join ".")).map ('.' :: ·) := by
  induction labels with
  | nil => rfl
  | cons label labels ih =>
    have htails : labels.tails ≠ [] := by
      cases labels <;> simp
    rw [dottedNames, ih, List.tails_cons, List.dropLast_cons_of_ne_nil htails]
    rfl

/-- **The plugin asks for the names that match.** -/
theorem mem_policyRdnsNames_iff {n r : Str} : r ∈ policyRdnsNames n ↔ RdnsMatches r n := by
  unfold policyRdnsNames RdnsMatches
  rw [List.mem_cons, dottedNames_eq]
  apply or_congr_right
  rw [startsWith_iff, endsWith_iff, List.mem_map]
  constructor
  · rintro ⟨d, hd, rfl⟩
    exact ⟨⟨d, rfl⟩, mem_labelTails_iff_suffix.mp hd⟩
  · rintro ⟨⟨d, rfl⟩, hsuffix⟩
    exact ⟨d, mem_labelTails_iff_suffix.mpr hsuffix, rfl⟩

/-- A query finds a row exactly when one of its kind matches. -/
theorem selectRdns_isSome_iff {rows : List Rdns} {n wb : Str} :
    (selectRdns rows (policyRdnsNames n) wb).isSome ↔ ∃ r ∈ rows, r.wb = wb ∧ RdnsMatches r.rdns n := by
  unfold selectRdns
  rw [List.find?_isSome]
  apply exists_congr
  intro r
  rw [Bool.and_eq_true, List.contains_iff_mem, beq_iff_eq, mem_policyRdnsNames_iff,
    and_comm (a := RdnsMatches r.rdns n)]

/-! ### The action -/

theorem rejectAction_ne (settings : Settings) : rejectAction settings ≠ SmtpActions.defaultAction := by
  unfold rejectAction
  split_ifs
  · decide
  · decide

/-- The whitelist is asked first. -/
theorem checkRdns_eq {settings : Settings} {env : Env} {n action : Str}
    (h : checkRdns settings env n = .ok action) :
    (action = rejectAction settings ↔
      (selectRdns env.wblistRdns (policyRdnsNames n) "B").isSome ∧
        ¬(selectRdns env.wblistRdns (policyRdnsNames n) "W").isSome) := by
  unfold checkRdns at h
  by_cases hwhite : env.fails .selectWhitelist = true
  · rw [if_pos hwhite] at h
    cases h
  rw [if_neg hwhite] at h
  cases hw : selectRdns env.wblistRdns (policyRdnsNames n) "W" with
  | some r =>
    rw [hw] at h
    rw [← Except.ok.inj h]
    constructor
    · exact fun heq => absurd heq.symm (rejectAction_ne settings)
    · exact fun hno => absurd rfl hno.2
  | none =>
    rw [hw] at h
    simp only at h
    by_cases hblack : env.fails .selectBlacklist = true
    · rw [if_pos hblack] at h
      cases h
    rw [if_neg hblack] at h
    cases hb : selectRdns env.wblistRdns (policyRdnsNames n) "B" with
    | some r =>
      rw [hb] at h
      rw [← Except.ok.inj h]
      exact ⟨fun _ => ⟨rfl, Bool.false_ne_true⟩, fun _ => rfl⟩
    | none =>
      rw [hb] at h
      rw [← Except.ok.inj h]
      constructor
      · exact fun heq => absurd heq.symm (rejectAction_ne settings)
      · exact fun hyes => absurd hyes.1 Bool.false_ne_true

/-- Only a query that fails leaves no action. -/
theorem exists_checkRdns {env : Env} (hanswers : ∀ s, env.fails s = false) (settings : Settings)
    (n : Str) : ∃ action, checkRdns settings env n = .ok action := by
  unfold checkRdns
  rw [hanswers, if_neg Bool.false_ne_true]
  cases selectRdns env.wblistRdns (policyRdnsNames n) "W" with
  | some r => exact ⟨_, rfl⟩
  | none =>
    simp only
    rw [hanswers, if_neg Bool.false_ne_true]
    cases selectRdns env.wblistRdns (policyRdnsNames n) "B" with
    | some r => exact ⟨_, rfl⟩
    | none => exact ⟨_, rfl⟩

/-- **A request without user name from a client that is not trusted is rejected exactly when a `B` row
matches the reverse name and no `W` row does.** -/
theorem rejects_iff {settings : Settings} {env : Env} {kwargs : PluginKwargs} {n clientAddress : Str}
    (hname : kwargs.smtpSessionData.get? "reverse_client_name" = some n)
    (hclient : kwargs.smtpSessionData.get? "client_address" = some clientAddress)
    (husername : kwargs.saslUsername = []) (huntrusted : isTrustedClient settings clientAddress = .ok false)
    (hunknown : n ≠ "unknown".toList) :
    ((∀ s, env.fails s = false) → ∃ action, restriction settings env kwargs = .ok action) ∧
      ∀ action, restriction settings env kwargs = .ok action →
        (action = rejectAction settings ↔
          (∃ r ∈ env.wblistRdns, r.wb = "B" ∧ RdnsMatches r.rdns n) ∧
            ¬∃ r ∈ env.wblistRdns, r.wb = "W" ∧ RdnsMatches r.rdns n) := by
  have hcheck : restriction settings env kwargs = checkRdns settings env n := by
    unfold restriction
    rw [hname, hclient]
    simp only
    rw [if_neg fun h => h husername, if_neg hunknown, huntrusted]
  rw [hcheck]
  constructor
  · exact fun hanswers => exists_checkRdns hanswers settings n
  · intro action haction
    rw [checkRdns_eq haction, selectRdns_isSome_iff, selectRdns_isSome_iff]

/-- A session of a client. -/
def sessionOf (rdnsName clientAddress : Str) : PluginKwargs where
  smtpSessionData := [("reverse_client_name", rdnsName), ("client_address", clientAddress)]
  sender := "a@a.com"
  senderWithoutExt := "a@a.com"
  recipient := "b@b.com"
  recipientWithoutExt := "b@b.com"
  clientAddress := clientAddress
  senderDomain := "a.com"
  recipientDomain := "b.com"
  saslUsername := []
  saslUsernameDomain := []

/-- A table that blacklists a domain and whitelists a host of it. -/
def exampleRows : List Rdns := [⟨".a.com", "B"⟩, ⟨"mx.a.com", "W"⟩]

theorem rejects_iff_subdomain :
    let env : Env := { wblistRdns := exampleRows }
    let kwargs := sessionOf "host.a.com" "1.2.3.4"
    ((∀ s, env.fails s = false) → ∃ action, restriction {} env kwargs = .ok action) ∧
      ∀ action, restriction {} env kwargs = .ok action →
        (action = rejectAction {} ↔
          (∃ r ∈ env.wblistRdns, r.wb = "B" ∧ RdnsMatches r.rdns "host.a.com") ∧
            ¬∃ r ∈ env.wblistRdns, r.wb = "W" ∧ RdnsMatches r.rdns "host.a.com") := by
  have huntrusted : isTrustedClient {} "1.2.3.4".toList = .ok false := by decide
  exact rejects_iff rfl rfl rfl huntrusted (by decide)

end IRedAPD.WblistRdns

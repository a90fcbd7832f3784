/-
  What the members of `no_greylisting_for_internal` become.

  The script inserts a member as it inserts the global setting, with `active=1` and
  for every sender, so every row it leaves enables greylisting (`Enables`), and the
  first row of a recipient decides so whatever the sender and the client are.  No
  exemption keeps its meaning, unless there is no recipient it could be about
  (`keepsExemptions_iff`).
-/
import IRedAPD.Equiv.Libs.Greylisting
import IRedAPD.Tools.MigrateCluebringerGreylisting
import Mathlib.Data.Finset.Max

namespace IRedAPD.MigrateCluebringerGreylisting

open Py Greylisting LibGl

/-! ### The rows of a run -/

/-- Greylisting is enabled for every sender. -/
def Enables (r : Setting) : Prop := r.sender = "@.".toList ∧ r.active = 1

/-- Every row enables greylisting with a priority that is not negative; besides the global setting the
rows are those of the members that are logged. -/
structure Inverts (st : Migrated) : Prop where
  enables : ∀ row ∈ st.table.rows, Enables row.2
  nonneg : ∀ row ∈ st.table.rows, 0 ≤ row.2.priority
  listed : ∀ member ∈ st.members, ∃ row ∈ st.table.rows, row.2.account = member
  logged : ∀ row ∈ st.table.rows, row.2 = globalSetting ∨ row.2.account ∈ st.members

theorem inverts_empty : Inverts { table := Sql.Table.empty } :=
  ⟨by simp [Sql.Table.empty], by simp [Sql.Table.empty], by simp, by simp [Sql.Table.empty]⟩

theorem inverts_migrateGlobal (run : Migration) :
    Inverts { table := (migrateGlobal run Sql.Table.empty).2 } := by
  unfold migrateGlobal
  split_ifs
  · exact inverts_empty
  · exact inverts_empty
  · exact inverts_empty
  · exact inverts_empty
  · exact inverts_empty
  cases h : (Sql.Table.empty : GreylistingTable).insert globalSetting with
  | none => exact inverts_empty
  | some t =>
    have hrow : ∀ row ∈ t.rows, row.2 = globalSetting := by
      intro row hrow
      rcases (Sql.Table.mem_rows_insert h).mp hrow with hold | rfl
      · cases hold
      · rfl
    refine ⟨fun row hmem => ?_, fun row hmem => ?_, by simp, fun row hmem => .inl (hrow row hmem)⟩
    · rw [hrow row hmem]
      exact ⟨rfl, rfl⟩
    · rw [hrow row hmem]
      exact le_refl 0

/-- A member is inserted with greylisting enabled. -/
theorem Inverts.insertMember {st : Migrated} (h : Inverts st) (run : Migration) (member : Str)
    {priority : ℤ} (hpriority : 0 ≤ priority) : Inverts (insertMember run member priority st) := by
  unfold MigrateCluebringerGreylisting.insertMember
  split_ifs
  · exact h
  cases ht : st.table.insert (memberSetting member priority) with
  | none => exact h
  | some t =>
    have hrows : ∀ row, row ∈ t.rows ↔
        row ∈ st.table.rows ∨ row = (st.table.nextId, memberSetting member priority) :=
      fun row => Sql.Table.mem_rows_insert ht
    refine ⟨fun row hrow => ?_, fun row hrow => ?_, fun m hm => ?_, fun row hrow => ?_⟩
    · rcases (hrows row).mp hrow with hold | rfl
      · exact h.enables row hold
      · exact ⟨rfl, rfl⟩
    · rcases (hrows row).mp hrow with hold | rfl
      · exact h.nonneg row hold
      · exact hpriority
    · rcases List.mem_append.mp hm with hm | hm
      · obtain ⟨row, hrow, haccount⟩ := h.listed m hm
        exact ⟨row, (hrows row).mpr (.inl hrow), haccount⟩
      · rw [List.mem_singleton.mp hm]
        exact ⟨_, (hrows _).mpr (.inr rfl), rfl⟩
    · rcases (hrows row).mp hrow with hold | rfl
      · exact (h.logged row hold).imp_right fun hmem => List.mem_append_left _ hmem
      · exact .inr (List.mem_append_right _ (List.mem_singleton_self _))

/-- The priorities of accounts are not negative. -/
theorem accountPriorities_nonneg {k : Str} {priority : ℤ}
    (h : accountPriorities.get? k = some priority) : 0 ≤ priority := by
  have hall : ∀ e ∈ accountPriorities, 0 ≤ e.2 := by decide
  exact hall _ (Dict.mem_of_get? h)

variable [Unicode]

theorem Inverts.migrateMembers {st : Migrated} (h : Inverts st) (run : Migration)
    (members : List Str) : Inverts (migrateMembers run members st).2 := by
  induction members generalizing st with
  | nil => exact h
  | cons member members ih =>
    unfold MigrateCluebringerGreylisting.migrateMembers
    cases isValidAmavisdAddress member with
    | none => exact ih h
    | some accountType =>
      simp only
      cases hpriority : accountPriorities.get? accountType.name with
      | none => exact h
      | some priority => exact ih (h.insertMember run member (accountPriorities_nonneg hpriority))

/-- **Every row of a run enables greylisting**, also when an exception ends it. -/
theorem inverts_migrate (run : Migration) : Inverts (migrate run).2 := by
  have hglobal := inverts_migrateGlobal run
  unfold migrate
  generalize migrateGlobal run Sql.Table.empty = global at hglobal ⊢
  rcases global with ⟨_ | ⟨⟩, t⟩
  · exact hglobal
  · simp only
    split_ifs
    · exact hglobal
    · exact hglobal.migrateMembers run _

/-! ### What the plugin decides -/

/-- `_should_be_greylisted_by_setting` for a recipient, a sender and a client, after a run. -/
def decision (run : Migration) (env : Env) (c : Client) : Except Exn Bool :=
  shouldBeGreylistedBySetting (Tables.env { greylisting := (migrate run).2.table } env)
    (policyRecipients c.recipient c.target) (policySenders c.sender c.clientAddress) c.clientAddress c.ip

/-- The account covers the recipient, and none that does has a higher priority. -/
def MostSpecific (t : GreylistingTable) (account : Str) (c : Client) : Prop :=
  account ∈ policyRecipients c.recipient c.target ∧
    ∃ row ∈ t.rows, row.2.account = account ∧
      ∀ row' ∈ t.rows, row'.2.account ∈ policyRecipients c.recipient c.target →
        row'.2.priority ≤ row.2.priority

/-- Recipients whose most specific account is a migrated member are not greylisted. -/
def KeepsExemptions (run : Migration) : Prop :=
  ∀ member ∈ (migrate run).2.members, ∀ (env : Env) (c : Client), env.fails .selectGreylisting = false →
    MostSpecific (migrate run).2.table member c → decision run env c = .ok false

/-- A row for everybody among the senders is a match. -/
theorem Enables.matchesSender {r : Setting} (h : Enables r) (sender clientAddress : Str)
    (ip : IpAddress) : r.matchesSender (policySenders sender clientAddress) clientAddress ip = true := by
  have hmem : r.sender ∈ policySenders sender clientAddress := by
    rw [h.1]
    unfold policySenders
    rw [List.append_assoc]
    exact List.mem_append_left _ (catchall_mem_policyAddresses sender)
  unfold Setting.matchesSender
  rw [List.contains_iff_mem.mpr hmem, Bool.true_or]

/-- **A recipient of a migrated member is greylisted**, for every sender and client. -/
theorem decision_eq_true {run : Migration} {env : Env} {c : Client} {member : Str}
    (hmember : member ∈ (migrate run).2.members) (hanswers : env.fails .selectGreylisting = false)
    (hcovers : member ∈ policyRecipients c.recipient c.target) : decision run env c = .ok true := by
  have hinverts := inverts_migrate run
  obtain ⟨row, hrow, haccount⟩ := hinverts.listed member hmember
  unfold decision shouldBeGreylistedBySetting
  set recipients := policyRecipients c.recipient c.target
  have hfails : (Tables.env { greylisting := (migrate run).2.table } env).fails .selectGreylisting =
      false := hanswers
  rw [hfails, if_neg Bool.false_ne_true]
  have hmem : ∀ r, r ∈ greylistingRecords
      (Tables.env { greylisting := (migrate run).2.table } env).greylisting recipients ↔
      r ∈ (migrate run).2.table.rows.map Prod.snd ∧ recipients.contains r.account = true := by
    intro r
    rw [greylistingRecords, List.mem_insertionSort, List.mem_filter]
    rfl
  -- there is a first row
  cases hrecords : greylistingRecords
      (Tables.env { greylisting := (migrate run).2.table } env).greylisting recipients with
  | nil =>
    have hrecord := (hmem row.2).mpr
      ⟨List.mem_map_of_mem hrow, List.contains_iff_mem.mpr (haccount ▸ hcovers)⟩
    rw [hrecords] at hrecord
    cases hrecord
  | cons r records =>
    have hr := ((hmem r).mp (hrecords ▸ List.mem_cons_self ..)).1
    obtain ⟨row', hrow', rfl⟩ := List.mem_map.mp hr
    have henables := hinverts.enables row' hrow'
    have hmatches := henables.matchesSender c.sender c.clientAddress c.ip
    have hfirst : (row'.2 :: records).find?
        (·.matchesSender (policySenders c.sender c.clientAddress) c.clientAddress c.ip) = some row'.2 :=
      List.find?_cons_of_pos hmatches
    rw [hfirst]
    simp only
    rw [henables.2]
    rfl

/-- A member that covers a recipient, or one with a higher priority, is its most specific account. -/
theorem exists_mostSpecific {st : Migrated} (h : Inverts st) {c : Client} {member : Str}
    (hmember : member ∈ st.members) (hcovers : member ∈ policyRecipients c.recipient c.target) :
    ∃ best ∈ st.members, MostSpecific st.table best c := by
  obtain ⟨row, hrow, haccount⟩ := h.listed member hmember
  set covering := st.table.rows.filter fun row =>
    (policyRecipients c.recipient c.target).contains row.2.account with hcovering
  have hmem : ∀ row, row ∈ covering.toFinset ↔
      row ∈ st.table.rows ∧ row.2.account ∈ policyRecipients c.recipient c.target := by
    intro row
    rw [List.mem_toFinset, hcovering, List.mem_filter, List.contains_iff_mem]
  obtain ⟨best, hbest, hmax⟩ := Finset.exists_max_image covering.toFinset (fun row => row.2.priority)
    ⟨row, (hmem row).mpr ⟨hrow, haccount ▸ hcovers⟩⟩
  obtain ⟨hbestRow, hbestCovers⟩ := (hmem best).mp hbest
  rcases h.logged best hbestRow with hglobal | hlogged
  · -- the member has the lowest priority, as has the global setting
    have hle := hmax row ((hmem row).mpr ⟨hrow, haccount ▸ hcovers⟩)
    refine ⟨member, hmember, hcovers, row, hrow, haccount, fun row' hrow' hcovers' => ?_⟩
    calc row'.2.priority ≤ best.2.priority := hmax row' ((hmem row').mpr ⟨hrow', hcovers'⟩)
      _ = 0 := by rw [hglobal]; rfl
      _ ≤ row.2.priority := h.nonneg row hrow
  · refine ⟨best.2.account, hlogged, hbestCovers, best, hbestRow, rfl, fun row' hrow' hcovers' => ?_⟩
    exact hmax row' ((hmem row').mpr ⟨hrow', hcovers'⟩)

/-- A request to a recipient. -/
def clientTo (recipient : Str) (target : Option Str) : Client :=
  { clientOf1234 with
    recipient := recipient
    target := target }

/-- A database without greylisting settings whose queries succeed. -/
def emptyEnv : Env where
  now := 0
  whitelistDomainSpf := []
  whitelists := []
  greylisting := []
  getAliasTargetDomain _ := .ok none
  isAllowedServerInSpf _ _ := .ok false
  fails _ := false

/-- **No exemption keeps its meaning**: where a migrated member covers the recipient, greylisting is
applied, so exemptions are kept exactly when there is no recipient that one covers. -/
theorem keepsExemptions_iff (run : Migration) :
    (∀ member ∈ (migrate run).2.members, ∀ (env : Env) (c : Client),
      env.fails .selectGreylisting = false → MostSpecific (migrate run).2.table member c →
      decision run env c = .ok true) ∧
    (KeepsExemptions run ↔ ∀ member ∈ (migrate run).2.members, ∀ (recipient : Str) (target : Option Str),
      member ∉ policyRecipients recipient target) := by
  constructor
  · intro member hmember env c hanswers hspecific
    exact decision_eq_true hmember hanswers hspecific.1
  constructor
  · intro hkeeps member hmember recipient target hcovers
    obtain ⟨best, hbest, hspecific⟩ :=
      exists_mostSpecific (c := clientTo recipient target) (inverts_migrate run) hmember hcovers
    have hfalse := hkeeps best hbest emptyEnv (clientTo recipient target) rfl hspecific
    rw [decision_eq_true hbest rfl hspecific.1] at hfalse
    cases hfalse
  · intro hnone member hmember env c hanswers hspecific
    exact absurd hspecific.1 (hnone member hmember c.recipient c.target)

/-- Greylisting is enabled for everybody and disabled for a domain. -/
def exampleMigration : Migration where
  cb :=
    { greylisting := [⟨"Greylisting Inbound Emails", 1⟩]
      policyGroups := [⟨1, "internal_domains"⟩, ⟨2, "no_greylisting_for_internal"⟩]
      policyGroupMembers := [⟨1, "@b.com"⟩, ⟨2, "@a.com"⟩] }

omit [Unicode] in
/-- An exempt domain is greylisted after the migration. -/
theorem exempt_domain_greylisted : letI := asciiUnicode; ¬KeepsExemptions exampleMigration := by
  let := asciiUnicode
  intro hkeeps
  have hmember : letI := asciiUnicode; "@a.com".toList ∈ (migrate exampleMigration).2.members := by
    decide
  have hspecific : letI := asciiUnicode; MostSpecific (migrate exampleMigration).2.table "@a.com"
      (clientTo "u@a.com" none) := by
    refine ⟨by decide, (2, memberSetting "@a.com" 60), by decide, rfl, ?_⟩
    decide
  have hdecision := hkeeps _ hmember emptyEnv (clientTo "u@a.com" none) rfl hspecific
  have htrue : letI := asciiUnicode; decision exampleMigration emptyEnv (clientTo "u@a.com" none) =
      .ok true := by decide
  rw [htrue] at hdecision
  cases hdecision

end IRedAPD.MigrateCluebringerGreylisting

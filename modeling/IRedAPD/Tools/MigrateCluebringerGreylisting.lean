/-
  `tools/migrate_cluebringer_greylisting.py`, up to the migration of whitelists

  The inserts commit one by one, so what a run has migrated stays when an exception
  ends it.  The tables of Cluebringer are given by the columns the queries read.
-/
import IRedAPD.Libs.Greylisting

namespace IRedAPD.MigrateCluebringerGreylisting

open Py Greylisting LibGl

variable [Unicode]

/-- A row of the table `greylisting` of Cluebringer. -/
structure CbGreylisting where
  name : Str
  usegreylisting : ℤ

/-- A row of `policy_groups`. -/
structure PolicyGroup where
  id : ℕ
  name : Str

/-- A row of `policy_group_members`. -/
structure PolicyGroupMember where
  policygroupid : ℕ
  member : Str

/-- The database `cluebringer`. -/
structure Cluebringer where
  greylisting : List CbGreylisting
  policyGroups : List PolicyGroup
  policyGroupMembers : List PolicyGroupMember

/-- The SQL statements of the script. -/
inductive MigrationStatement where
  | selectEnabled
  | selectGlobal
  | insertGlobal
  | selectMembers
  | insertMember (member : Str)

/-- A run: the database it reads, the order in which a query returns its rows, and which statements
fail, besides an insert of a setting that exists. -/
structure Migration where
  cb : Cluebringer
  order : List Str → List Str := id
  order_perm : ∀ rows, (order rows).Perm rows := by exact fun rows => List.Perm.refl rows
  fails : MigrationStatement → Bool := fun _ => false

/-- The table `greylisting` of iRedAPD. -/
abbrev GreylistingTable := Sql.Table settingKey

/-- What a run leaves: the members it has logged as migrated, and the table. -/
structure Migrated where
  members : List Str := []
  table : GreylistingTable := Sql.Table.empty

/-! ### The global setting -/

/-- The row that is inserted when greylisting is enabled globally. -/
def globalSetting : Setting where
  account := "@."
  priority := 0
  sender := "@."
  senderPriority := 0
  active := 1

/-- `name='Greylisting Inbound Emails' AND usegreylisting=1` -/
def enabledGlobally (cb : Cluebringer) : Bool :=
  cb.greylisting.any fun r => r.name = "Greylisting Inbound Emails".toList ∧ r.usegreylisting = 1

/-- The migration of the global setting. -/
def migrateGlobal (run : Migration) (t : GreylistingTable) : Except Exn Unit × GreylistingTable :=
  if run.fails .selectEnabled then (.error .operationalError, t)
  else if !enabledGlobally run.cb then (.ok (), t)
  else if run.fails .selectGlobal then (.error .operationalError, t)
  else if (t.find? ("@.", "@.")).isSome then (.ok (), t)
  else if run.fails .insertGlobal then (.error .operationalError, t)
  else
    match t.insert globalSetting with
    | some t => (.ok (), t)
    | none => (.error .integrityError, t)

/-! ### The members of the group -/

/-- `policy_groups.name='no_greylisting_for_internal' AND
policy_group_members.policygroupid=policy_groups.id` -/
def noGreylistingMembers (cb : Cluebringer) : List Str :=
  (cb.policyGroups.filter fun g => g.name = "no_greylisting_for_internal".toList).flatMap fun g =>
    (cb.policyGroupMembers.filter fun m => m.policygroupid = g.id).map (·.member)

/-- The row that is inserted for a member. -/
def memberSetting (member : Str) (priority : ℤ) : Setting where
  account := member
  priority := priority
  sender := "@."
  senderPriority := 0
  active := 1

/-- The insert of a member, whose failure is logged. -/
def insertMember (run : Migration) (member : Str) (priority : ℤ) (st : Migrated) : Migrated :=
  if run.fails (.insertMember member) then st
  else
    match st.table.insert (memberSetting member priority) with
    | some t => ⟨st.members ++ [member], t⟩
    | none => st

/-- The loop over the members.  Not every address type is a key of `ACCOUNT_PRIORITIES`. -/
def migrateMembers (run : Migration) : List Str → Migrated → Except Exn Unit × Migrated
  | [], st => (.ok (), st)
  | member :: members, st =>
    match isValidAmavisdAddress member with
    | none => migrateMembers run members st
    | some accountType =>
      match accountPriorities.get? accountType.name with
      | none => (.error .keyError, st)
      | some priority => migrateMembers run members (insertMember run member priority st)

/-- The script on an empty table. -/
def migrate (run : Migration) : Except Exn Unit × Migrated :=
  match migrateGlobal run Sql.Table.empty with
  | (.error e, t) => (.error e, { table := t })
  | (.ok (), t) =>
    if run.fails .selectMembers then (.error .operationalError, { table := t })
    else migrateMembers run (run.order (noGreylistingMembers run.cb)) { table := t }

end IRedAPD.MigrateCluebringerGreylisting

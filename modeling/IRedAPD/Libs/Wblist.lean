/-
  `libs/wblist.py`

  The functions run over a database that is a state `σ` and a way to execute
  statements on it, so that a statement may fail or do something else.  `.ok ()`
  stands for `(True,)` and `.error` for `(False, error)`; an exception that is
  not caught is an `Exn`.

  `Faithful` databases do what the statements say (`effect`), as far as the texts
  between the quotes stand for themselves; so do the ones that `Answers` describes,
  where the statements with some numbers fail.
-/
import IRedAPD.Libs.Amavisd
import IRedAPD.Libs.Utils
import IRedAPD.Py.SetOrder
import IRedAPD.Sql.Engine
import IRedAPD.Sql.Statement
import IRedAPD.Sql.Table

namespace IRedAPD.LibWblist

open Py

/-- The SQL statements of the module. -/
inductive Statement where
  | insertMailaddr (email : Str) (priority : ℤ)
  | insertUser (account : Str) (priority : ℤ)
  /-- `SELECT ... FROM users WHERE email='%s' LIMIT 1` -/
  | selectUser (account : Str)
  /-- `SELECT id, email FROM mailaddr WHERE email IN %s` -/
  | selectMailaddr (emails : List Str)
  /-- `DELETE FROM wblist WHERE rid=%s` -/
  | flushWblist (rid : ℕ)
  /-- `DELETE FROM outbound_wblist WHERE sid=%s` -/
  | flushOutboundWblist (sid : ℕ)
  | deleteWblist (rid : ℕ) (sids : List ℕ)
  | deleteOutboundWblist (sid : ℕ) (rids : List ℕ)
  | insertWblist (row : Wblist)
  | insertOutboundWblist (row : Wblist)
  /-- `DELETE FROM wblist WHERE rid={} AND sid IN {} AND wb=...` -/
  | deleteWblistWb (rid : ℕ) (sids : List ℕ) (wb : Str)
  /-- `DELETE FROM outbound_wblist WHERE sid={} AND rid IN {} AND wb=...` -/
  | deleteOutboundWblistWb (sid : ℕ) (rids : List ℕ) (wb : Str)
  deriving DecidableEq

/-- The text of the insert of `create_user`. -/
def insertUserSql (account : Str) (priority : ℤ) : Str :=
  "INSERT INTO users (policy_id, email, priority) VALUES (0, ".toList ++ Sql.quoted account ++
    ", ".toList ++ intStr priority ++ ")".toList

/-- The text of the query of `create_user`. -/
def selectUserSql (account : Str) : Str :=
  "SELECT id, priority, policy_id, email FROM users WHERE email=".toList ++ Sql.quoted account ++
    " LIMIT 1".toList

/-- The text of the query of `get_user_record`. -/
def userRecordSql (account : Str) : Str :=
  "SELECT id, priority, policy_id, email\n                   FROM users\n".toList ++
    "                  WHERE email=".toList ++ Sql.quoted account ++
    "\n                  LIMIT 1".toList

/-- `utils.execute_sql`: the rows that were selected, or the text of an exception. -/
abbrev Execute (σ : Type*) := Statement → σ → Except Str (List AmavisdAddress) × σ

section Functions

variable [Unicode] {σ : Type*} (execute : Execute σ)

/-- `MAILADDR_PRIORITIES` of the type of an address; there is none for `False`. -/
def mailaddrPriority (addr : Str) : Option ℤ :=
  (isValidAmavisdAddress addr).bind fun t => mailaddrPriorities.get? t.name

/-- `create_mailaddr`; an insert that fails is passed over. -/
def createMailaddr : List Str → σ → σ
  | [], w => w
  | addr :: addresses, w =>
    match mailaddrPriority addr with
    | some priority => createMailaddr addresses (execute (.insertMailaddr addr priority) w).2
    | none => createMailaddr addresses w

/-- `create_user`, with the record. -/
def createUser (account : Str) (w : σ) : Except Str (Option AmavisdAddress) × σ :=
  match mailaddrPriority account with
  -- the `KeyError`
  | none => (.error "False".toList, w)
  | some priority =>
    match execute (.insertUser account priority) w with
    | (.error e, w) => (.error e, w)
    | (.ok _, w) =>
      match execute (.selectUser account) w with
      | (.error e, w) => (.error e, w)
      | (.ok rows, w) => (.ok rows.head?, w)

/-- `get_user_record` -/
def getUserRecord (account : Str) (w : σ) : Except Str AmavisdAddress × σ :=
  match execute (.selectUser account) w with
  | (.error e, w) => (.error e, w)
  | (.ok (r :: _), w) => (.ok r, w)
  | (.ok [], w) =>
    match createUser execute account w with
    | (.error e, w) => (.error e, w)
    | (.ok (some r), w) => (.ok r, w)
    | (.ok none, w) => (.error "cannot unpack non-iterable NoneType object".toList, w)

/-- The keyword arguments of `add_wblist`. -/
structure Request where
  wlSenders : List Str := []
  blSenders : List Str := []
  wlRcpts : List Str := []
  blRcpts : List Str := []
  flushBeforeImport : Bool := false

/-- The valid addresses of an argument, in lower case and without duplicates. -/
def normalize (sets : SetOrder Str) (addresses : List Str) : List Str :=
  sets.order ((addresses.filter fun s => (isValidAmavisdAddress s).isSome).map Unicode.lower)

/-- The old rows of the account are deleted. -/
def flush (userId : ℕ) (w : σ) : Except Exn Unit × σ :=
  match execute (.flushWblist userId) w with
  | (.error _, w) => (.error .operationalError, w)
  | (.ok _, w) =>
    match execute (.flushOutboundWblist userId) w with
    | (.error _, w) => (.error .operationalError, w)
    | (.ok _, w) => (.ok (), w)

/-- `sender_records` and `rcpt_records` -/
def mailaddrRecords (addresses : List Str) (w : σ) : Except Exn (Dict Str ℕ) × σ :=
  if addresses.isEmpty then (.ok [], w)
  else
    match execute (.selectMailaddr addresses) w with
    | (.error _, w) => (.error .operationalError, w)
    | (.ok rows, w) => (.ok (rows.foldl (fun d r => d.set r.email r.id) []), w)

/-- The rows of the submitted records are deleted. -/
def deleteOld (userId : ℕ) (senderRecords rcptRecords : Dict Str ℕ) (w : σ) : Except Str Unit × σ :=
  let (qr, w) :=
    if senderRecords.isEmpty then (.ok [], w)
    else execute (.deleteWblist userId (senderRecords.map Prod.snd)) w
  match qr with
  | .error e => (.error e, w)
  | .ok _ =>
    if rcptRecords.isEmpty then (.ok (), w)
    else
      match execute (.deleteOutboundWblist userId (rcptRecords.map Prod.snd)) w with
      | (.error e, w) => (.error e, w)
      | (.ok _, w) => (.ok (), w)

/-- `records.get(s)`, as the condition of an `if`. -/
def recordOf (records : Dict Str ℕ) (s : Str) : Option ℕ := (records.get? s).filter (· ≠ 0)

/-- The ids and `wb` of `values` and `rcpt_values`. -/
def values (records : Dict Str ℕ) (wl bl : List Str) : List (ℕ × Str) :=
  (wl.filterMap fun s => (recordOf records s).map fun id => (id, "W".toList)) ++
    (bl.filter fun s => !wl.contains s).filterMap fun s =>
      (recordOf records s).map fun id => (id, "B".toList)

/-- An insert that fails is only logged. -/
def insertRows (insert : Wblist → Statement) : List Wblist → σ → σ
  | [], w => w
  | row :: rows, w => insertRows insert rows (execute (insert row) w).2

/-- `add_wblist` from `create_mailaddr` on. -/
def importWblist (userId : ℕ) (sets : SetOrder Str) (wlSenders blSenders wlRcpts blRcpts : List Str)
    (w : σ) : Except Exn (Except Str Unit) × σ :=
  let senderAddresses := sets.order (wlSenders ++ blSenders)
  let rcptAddresses := sets.order (wlRcpts ++ blRcpts)
  let w := createMailaddr execute (sets.order (senderAddresses ++ rcptAddresses)) w
  match mailaddrRecords execute senderAddresses w with
  | (.error e, w) => (.error e, w)
  | (.ok senderRecords, w) =>
    match mailaddrRecords execute rcptAddresses w with
    | (.error e, w) => (.error e, w)
    | (.ok rcptRecords, w) =>
      match deleteOld execute userId senderRecords rcptRecords w with
      -- the deletes are in a `try`, unlike the queries
      | (.error e, w) => (.ok (.error e), w)
      | (.ok (), w) =>
        let w := insertRows execute .insertWblist
          ((values senderRecords wlSenders blSenders).map fun (sid, wb) => ⟨userId, sid, wb⟩) w
        let w := insertRows execute .insertOutboundWblist
          ((values rcptRecords wlRcpts blRcpts).map fun (rid, wb) => ⟨rid, userId, wb⟩) w
        (.ok (.ok ()), w)

/-- `add_wblist` -/
def addWblist (sets : SetOrder Str) (account : Str) (request : Request) (w : σ) :
    Except Exn (Except Str Unit) × σ :=
  if (isValidAmavisdAddress account).isNone then (.ok (.error "INVALID_ACCOUNT".toList), w)
  else
    let wlSenders := normalize sets request.wlSenders
    let wlRcpts := normalize sets request.wlRcpts
    -- what is whitelisted is not blacklisted
    let less (bl wl : List Str) :=
      if request.flushBeforeImport then sets.order (bl.filter fun s => !wl.contains s) else bl
    let blSenders := less (normalize sets request.blSenders) wlSenders
    let blRcpts := less (normalize sets request.blRcpts) wlRcpts
    match getUserRecord execute account w with
    | (.error e, w) => (.ok (.error e), w)
    | (.ok user, w) =>
      let (flushed, w) := if request.flushBeforeImport then flush execute user.id w else (.ok (), w)
      match flushed with
      | .error e => (.error e, w)
      | .ok () =>
        if (wlSenders ++ blSenders ++ wlRcpts ++ blRcpts).isEmpty then (.ok (.ok ()), w)
        else importWblist execute user.id sets wlSenders blSenders wlRcpts blRcpts w

/-- The arguments of `delete_wblist`, and the addresses it returns. -/
structure Lists where
  wlSenders : List Str := []
  blSenders : List Str := []
  wlRcpts : List Str := []
  blRcpts : List Str := []
  deriving DecidableEq

/-- What `delete_wblist` does for one of its lists. -/
def deleteFrom (delete : List ℕ → Statement) (addresses : List Str) (w : σ) :
    Except Str (List Str) × σ :=
  if addresses.isEmpty then (.ok [], w)
  else
    match execute (.selectMailaddr addresses) w with
    | (.error e, w) => (.error e, w)
    | (.ok rows, w) =>
      if rows.isEmpty then (.ok [], w)
      else
        match execute (delete (rows.map (·.id))) w with
        | (.error e, w) => (.error e, w)
        | (.ok _, w) => (.ok (rows.map (·.email)), w)

/-- `delete_wblist` -/
def deleteWblist (sets : SetOrder Str) (account : Str) (lists : Lists) (w : σ) : Except Str Lists × σ :=
  if (isValidAmavisdAddress account).isNone then (.error "INVALID_ACCOUNT".toList, w)
  else
    match getUserRecord execute account w with
    | (.error e, w) => (.error e, w)
    | (.ok user, w) =>
      match deleteFrom execute (.deleteWblistWb user.id · "W") (normalize sets lists.wlSenders) w with
      | (.error e, w) => (.error e, w)
      | (.ok wlSenders, w) =>
        match deleteFrom execute (.deleteWblistWb user.id · "B") (normalize sets lists.blSenders) w with
        | (.error e, w) => (.error e, w)
        | (.ok blSenders, w) =>
          match deleteFrom execute (.deleteOutboundWblistWb user.id · "W")
              (normalize sets lists.wlRcpts) w with
          | (.error e, w) => (.error e, w)
          | (.ok wlRcpts, w) =>
            match deleteFrom execute (.deleteOutboundWblistWb user.id · "B")
                (normalize sets lists.blRcpts) w with
            | (.error e, w) => (.error e, w)
            | (.ok blRcpts, w) => (.ok ⟨wlSenders, blSenders, wlRcpts, blRcpts⟩, w)

end Functions

/-! ### The lists of an account -/

/-- `wblist` or `outbound_wblist` -/
inductive Direction where
  | inbound
  | outbound
  deriving DecidableEq

/-- The queries of `get_account_wblist` and `get_account_outbound_wblist`, with the condition on
`wb`. -/
structure ListQuery where
  direction : Direction
  account : Str
  wb : Option Str

/-- The texts and `wb` a query selects. -/
abbrev Select (σ : Type*) := ListQuery → σ → Except Str (List (Str × Str))

section Reads

variable {σ : Type*} (select : Select σ)

/-- `sql_where` after the join. -/
def wbCondition (whitelist blacklist : Bool) : Option Str :=
  if whitelist && !blacklist then some "W"
  else if !whitelist && blacklist then some "B"
  else none

/-- Both functions: the whitelist and the blacklist. -/
def getAccountLists (direction : Direction) (account : Str) (whitelist blacklist : Bool) (w : σ) :
    Except Str (List Str × List Str) :=
  (select ⟨direction, account, wbCondition whitelist blacklist⟩ w).map fun rows =>
    ((rows.filter fun r => r.2 = "W".toList).map Prod.fst,
      (rows.filter fun r => r.2 ≠ "W".toList).map Prod.fst)

/-- `get_account_wblist` -/
def getAccountWblist (account : Str) (whitelist blacklist : Bool) (w : σ) :
    Except Str (List Str × List Str) := getAccountLists select .inbound account whitelist blacklist w

/-- `get_account_outbound_wblist` -/
def getAccountOutboundWblist (account : Str) (whitelist blacklist : Bool) (w : σ) :
    Except Str (List Str × List Str) := getAccountLists select .outbound account whitelist blacklist w

end Reads

/-! ### The tables -/

/-- A row of `users` or `mailaddr`, less its id. -/
structure Address where
  priority : ℤ
  email : Str
  deriving DecidableEq

/-- `users` or `mailaddr` -/
abbrev AddressTable := Sql.Table Address.email

/-- The primary key of `wblist` and `outbound_wblist`. -/
def wblistKey (row : Wblist) : ℕ × ℕ := (row.rid, row.sid)

/-- The tables of the database `amavisd`; the rows of `wblist` and `outbound_wblist` are numbered,
too. -/
structure Tables where
  users : AddressTable := Sql.Table.empty
  mailaddr : AddressTable := Sql.Table.empty
  wblist : Sql.Table wblistKey := Sql.Table.empty
  outboundWblist : Sql.Table wblistKey := Sql.Table.empty

/-- A row with its id. -/
def toAddress (row : ℕ × Address) : AmavisdAddress := ⟨row.1, row.2.priority, row.2.email⟩

/-- What a statement selects and does, `none` when it would violate a unique index. -/
def effect : Statement → Tables → Option (List AmavisdAddress × Tables)
  | .insertMailaddr email priority, t =>
    (t.mailaddr.insert ⟨priority, email⟩).map fun m => ([], { t with mailaddr := m })
  | .insertUser account priority, t =>
    (t.users.insert ⟨priority, account⟩).map fun u => ([], { t with users := u })
  | .selectUser account, t => some (((t.users.find? account).map toAddress).toList, t)
  | .selectMailaddr emails, t =>
    some ((t.mailaddr.rows.filter fun row => emails.contains row.2.email).map toAddress, t)
  | .flushWblist rid, t => some ([], { t with wblist := t.wblist.delete fun row => row.2.rid = rid })
  | .flushOutboundWblist sid, t =>
    some ([], { t with outboundWblist := t.outboundWblist.delete fun row => row.2.sid = sid })
  | .deleteWblist rid sids, t =>
    some ([], { t with
      wblist := t.wblist.delete fun row => row.2.rid = rid && sids.contains row.2.sid })
  | .deleteOutboundWblist sid rids, t =>
    some ([], { t with
      outboundWblist :=
        t.outboundWblist.delete fun row => row.2.sid = sid && rids.contains row.2.rid })
  | .insertWblist row, t => (t.wblist.insert row).map fun l => ([], { t with wblist := l })
  | .insertOutboundWblist row, t =>
    (t.outboundWblist.insert row).map fun l => ([], { t with outboundWblist := l })
  | .deleteWblistWb rid sids wb, t =>
    some ([], { t with
      wblist := t.wblist.delete fun row =>
        row.2.rid = rid && sids.contains row.2.sid && row.2.wb = wb })
  | .deleteOutboundWblistWb sid rids wb, t =>
    some ([], { t with
      outboundWblist := t.outboundWblist.delete fun row =>
        row.2.sid = sid && rids.contains row.2.rid && row.2.wb = wb })

/-- The rows of a list. -/
def Tables.listRows (t : Tables) : Direction → List (ℕ × Wblist)
  | .inbound => t.wblist.rows
  | .outbound => t.outboundWblist.rows

/-- The id in `users`. -/
def localId : Direction → Wblist → ℕ
  | .inbound => Wblist.rid
  | .outbound => Wblist.sid

/-- The id in `mailaddr`. -/
def remoteId : Direction → Wblist → ℕ
  | .inbound => Wblist.sid
  | .outbound => Wblist.rid

/-- What a query selects. -/
def selected (q : ListQuery) (t : Tables) : List (Str × Str) :=
  (t.listRows q.direction).flatMap fun row =>
    (t.users.rows.filter fun u => u.2.email = q.account && u.1 = localId q.direction row.2).flatMap
      fun _ => (t.mailaddr.rows.filter fun m =>
        m.1 = remoteId q.direction row.2 && q.wb.all (· = row.2.wb)).map fun m => (m.2.email, row.2.wb)

section Faithful

variable [Unicode]

/-- `sqlquote` puts the text between single quotes as it is. -/
def isQuotable (s : Str) : Bool := Sql.isPlain s && s.all Unicode.isPrintable

/-- The texts of the statement stand for themselves. -/
def Statement.IsPlain : Statement → Prop
  | insertUser account _ | selectUser account => Sql.isPlain account = true
  | insertMailaddr email _ => isQuotable email = true
  | selectMailaddr emails => ∀ email ∈ emails, isQuotable email = true
  | insertWblist row | insertOutboundWblist row => isQuotable row.wb = true
  | flushWblist _ | flushOutboundWblist _ | deleteWblist _ _ | deleteOutboundWblist _ _
  | deleteWblistWb _ _ _ | deleteOutboundWblistWb _ _ _ => True

/-- A database that does what the statements say. -/
structure Faithful (execute : Execute Tables) : Prop where
  of_effect : ∀ i : Statement, i.IsPlain → ∀ {t rows t'}, effect i t = some (rows, t') →
    execute i t = (.ok rows, t')
  of_none : ∀ i : Statement, i.IsPlain → ∀ {t}, effect i t = none → ∃ e, execute i t = (.error e, t)

/-- A database that numbers the statements: those with the numbers in `fails` fail, and those that
violate a unique index.  The others do what they say, when they are plain, or anything. -/
structure Answers (fails : ℕ → Bool) (execute : Execute (Tables × ℕ)) : Prop where
  of_fails : ∀ i t {n}, fails n = true → ∃ e, execute i (t, n) = (.error e, (t, n + 1))
  of_effect : ∀ i : Statement, i.IsPlain → ∀ {t n rows t'}, fails n = false →
    effect i t = some (rows, t') → execute i (t, n) = (.ok rows, (t', n + 1))
  of_none : ∀ i : Statement, i.IsPlain → ∀ {t n}, fails n = false → effect i t = none →
    ∃ e, execute i (t, n) = (.error e, (t, n + 1))
  of_not_plain : ∀ i : Statement, ¬i.IsPlain → ∀ t {n}, fails n = false →
    ∃ rows t', execute i (t, n) = (.ok rows, (t', n + 1))

/-- Queries of a plain account select what they say, in any order; others select anything. -/
structure FaithfulSelect (select : Select Tables) : Prop where
  of_quotable : ∀ q : ListQuery, isQuotable q.account = true → ∀ t,
    ∃ rows, select q t = .ok rows ∧ rows.Perm (selected q t)
  succeeds : ∀ q t, ∃ rows, select q t = .ok rows

end Faithful

end IRedAPD.LibWblist

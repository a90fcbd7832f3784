/-
  `tools/senderscore_admin.py`, and the part of `tools/cleanup_db.py` on
  `senderscore_cache`.

  Both work on the table of the plugin while the daemon runs, statement by
  statement.
-/
import IRedAPD.Plugins.Senderscore

namespace IRedAPD.SenderscoreAdmin

open Py Senderscore

/-! ### Whitelisting -/

/-- `expire_epoch_seconds`: 2099-12-31 23:59:59. -/
def expireEpochSeconds : ℤ := 4102444799

/-- The messages the script exits with. -/
inductive Refusal where
  | usage
  | noValidIp
  | invalidArgument
  deriving DecidableEq

/-- The addresses to whitelist, from the arguments. -/
def parseArgs (args : List Str) : Except Refusal (List Str) :=
  -- `len(sys.argv) <= 2`
  if args.length ≤ 1 then .error .usage
  else if args.contains "-w".toList then
    let ips := (args.drop 1).filter isStrictIp
    if ips.isEmpty then .error .noValidIp else .ok ips
  else .error .invalidArgument

/-- The row of a whitelisted address. -/
def whitelisted (ip : Str) : Cached := ⟨ip, 100, expireEpochSeconds⟩

/-- Which statements of the script fail, besides an insert of an address that exists. -/
structure Fails where
  delete : Bool := false
  insert : Bool := false

/-- The statements of a whitelisting; `true` when it gets to its end. -/
def whitelist (fails : Fails) (ips : List Str) : Senderscore.Program Bool :=
  if fails.delete then .pure false
  else
    .write (.delete ips) fun _ =>
      if fails.insert then .pure false else .write (.insertAll (ips.map whitelisted)) .pure

/-! ### Cleanup -/

/-- The next statement of `cleanup_sql_table`. -/
inductive CleanupStep where
  | select
  | delete (removeValues : List Str)
  | done
  deriving DecidableEq

/-- A run of `cleanup_sql_table` on `senderscore_cache`. -/
structure Cleanup where
  expireSeconds : ℤ
  next : CleanupStep := .select

/-- The run `cleanup_db` starts. -/
def Cleanup.start (config : Config) (now : ℤ) : Cleanup :=
  ⟨now - config.senderscoreCacheDays * 86400, .select⟩

/-- The rows of a page, by their unique index. -/
def page (config : Config) (expireSeconds : ℤ) (t : CacheTable) : List Str :=
  ((t.select fun row => row.2.time < expireSeconds).take config.cleanupQuerySizeLimit).map
    fun row => row.2.clientAddress

/-- The next statement. -/
def Cleanup.run (config : Config) (c : Cleanup) (t : CacheTable) : Cleanup × CacheTable :=
  match c.next with
  | .select =>
    let removeValues := page config c.expireSeconds t
    if removeValues.isEmpty then ({ c with next := .done }, t)
    else ({ c with next := .delete removeValues }, t)
  | .delete removeValues =>
    ({ c with next := .select }, t.delete fun row => removeValues.contains row.2.clientAddress)
  | .done => (c, t)

/-! ### All of them at once -/

/-- The table, and every process that has worked on it or still does, in the order of their starts. -/
structure State where
  cache : CacheTable
  requests : List (Call × Senderscore.Program Output) := []
  whitelistings : List (List Str × Senderscore.Program Bool) := []
  cleanups : List Cleanup := []

/-- What happens next. -/
inductive Event where
  /-- a request reaches the plugin -/
  | receive (call : Call)
  /-- `senderscore_admin.py` is started -/
  | admin (args : List Str) (fails : Fails)
  /-- `cleanup_db.py` is started -/
  | cron (now : ℤ)
  /-- a process runs its next statement -/
  | request (i : ℕ)
  | whitelisting (i : ℕ)
  | cleanup (i : ℕ)

/-- One statement, of any process. -/
def step (config : Config) (s : State) : Event → State
  | .receive call => { s with requests := s.requests ++ [(call, program config call)] }
  | .admin args fails =>
    match parseArgs args with
    | .ok ips => { s with whitelistings := s.whitelistings ++ [(ips, whitelist fails ips)] }
    | .error _ => s
  | .cron now => { s with cleanups := s.cleanups ++ [Cleanup.start config now] }
  | .request i =>
    match s.requests[i]? with
    | none => s
    | some (call, p) =>
      let (rest, t) := p.next Senderscore.Write.exec s.cache
      { s with cache := t, requests := s.requests.set i (call, rest) }
  | .whitelisting i =>
    match s.whitelistings[i]? with
    | none => s
    | some (ips, p) =>
      let (rest, t) := p.next Senderscore.Write.exec s.cache
      { s with cache := t, whitelistings := s.whitelistings.set i (ips, rest) }
  | .cleanup i =>
    match s.cleanups[i]? with
    | none => s
    | some c =>
      let (c, t) := c.run config s.cache
      { s with cache := t, cleanups := s.cleanups.set i c }

/-- Statements in some order. -/
def run (config : Config) (s : State) (events : List Event) : State := events.foldl (step config) s

end IRedAPD.SenderscoreAdmin

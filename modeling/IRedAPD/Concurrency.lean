/-
  The daemon and the cron job at work on the same tables.

  Every request in progress and `cleanup_db` take turns, statement by statement
  and in any order.  `cleanup_sql_table` remembers the ids of a page between its
  `SELECT` and its `DELETE`.
-/
import IRedAPD.Daemon
import IRedAPD.Tools.CleanupDb

namespace IRedAPD.Concurrency

open Py

variable [Unicode]

/-- Where `cleanup_db` is: the statement that comes next. -/
inductive Cleanup where
  | selectThrottle
  | deleteThrottle (removeValues : List ℕ)
  | selectGreylisting
  | deleteGreylisting (removeValues : List ℕ)
  | done

/-- The tables, the requests in progress and the cron job. -/
structure State where
  db : Db
  throttling : List (Program Throttle.Output) := []
  greylisting : List (Program (Except Exn Str)) := []
  cleanup : Cleanup := .selectThrottle

/-- What happens next. -/
inductive Event where
  /-- a request reaches a plugin -/
  | throttle (throttle : List Throttle.Setting) (call : Throttle.Call)
  | greylist (call : Greylisting.Env × PluginKwargs)
  /-- a request in progress runs its next statement -/
  | throttling (i : ℕ)
  | greylisting (i : ℕ)
  /-- the cron job runs its next statement -/
  | cleanup

/-- `(init_time + period) < now` -/
def throttleWhere (now : ℕ) (row : ℕ × Throttle.Tracking) : Bool :=
  row.2.initTime + row.2.period < now

/-- `record_expired < now` -/
def greylistingWhere (now : ℕ) (row : ℕ × Greylisting.Tracking) : Bool := row.2.recordExpired < now

/-- The rows a statement of the cron job deletes, as they are then. -/
inductive Deletion where
  | throttle (rows : List (ℕ × Throttle.Tracking))
  | greylisting (rows : List (ℕ × Greylisting.Tracking))

/-- The ids of a page. -/
def page {ρ κ : Type*} {key : ρ → κ} (settings : Settings) (sqlWhere : ℕ × ρ → Bool)
    (t : Sql.Table key) : List ℕ :=
  ((t.select sqlWhere).take settings.cleanupQuerySizeLimit).map Prod.fst

/-- The next statement of `cleanup_db`, which has started at `now`. -/
def cleanupStep (settings : Settings) (now : ℕ) (s : State) : Option Deletion × State :=
  match s.cleanup with
  | .selectThrottle =>
    let removeValues := page settings (throttleWhere now) s.db.throttleTracking
    if removeValues.isEmpty then (none, { s with cleanup := .selectGreylisting })
    else (none, { s with cleanup := .deleteThrottle removeValues })
  | .deleteThrottle removeValues =>
    let t := s.db.throttleTracking
    (some (.throttle (t.select fun row => removeValues.contains row.1)),
      { s with
        db := { s.db with throttleTracking := t.delete fun row => removeValues.contains row.1 }
        cleanup := .selectThrottle })
  | .selectGreylisting =>
    let removeValues := page settings (greylistingWhere now) s.db.greylistingTracking
    if removeValues.isEmpty then (none, { s with cleanup := .done })
    else (none, { s with cleanup := .deleteGreylisting removeValues })
  | .deleteGreylisting removeValues =>
    let t := s.db.greylistingTracking
    (some (.greylisting (t.select fun row => removeValues.contains row.1)),
      { s with
        db := { s.db with greylistingTracking := t.delete fun row => removeValues.contains row.1 }
        cleanup := .selectGreylisting })
  | .done => (none, s)

/-- One statement, with the rows the cron job deletes. -/
def step (settings : Settings) (now : ℕ) : Event → State → Option Deletion × State
  -- a new request, which has sent nothing
  | .throttle throttle call, s =>
    (none, { s with throttling := s.throttling ++ [Throttle.program settings throttle call] })
  | .greylist call, s =>
    (none, { s with greylisting := s.greylisting ++ [Greylisting.program settings call] })
  | .throttling i, s =>
    match s.throttling[i]? with
    | none => (none, s)
    | some p =>
      let (rest, db) := p.next (Db.exec settings) s.db
      (none, { s with db, throttling := s.throttling.set i rest })
  | .greylisting i, s =>
    match s.greylisting[i]? with
    | none => (none, s)
    | some p =>
      let (rest, db) := p.next (Db.exec settings) s.db
      (none, { s with db, greylisting := s.greylisting.set i rest })
  | .cleanup, s => cleanupStep settings now s

end IRedAPD.Concurrency

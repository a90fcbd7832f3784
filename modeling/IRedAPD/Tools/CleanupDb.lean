/-
  `tools/cleanup_db.py`, with `cleanup_sql_table` of `tools/__init__.py`.
-/
import IRedAPD.Plugins.Greylisting
import IRedAPD.Plugins.Throttle

namespace IRedAPD.CleanupDb

/-- The loop of `cleanup_sql_table`: a page of rows is selected and then deleted by id, until a page
is empty.  The first argument bounds the number of pages. -/
def cleanupLoop {ρ κ : Type*} {key : ρ → κ} (limit : ℕ) (sqlWhere : ℕ × ρ → Bool) :
    ℕ → Sql.Table key → Sql.Table key
  | 0, t => t
  | n + 1, t =>
    let removeValues := ((t.select sqlWhere).take limit).map Prod.fst
    if removeValues.isEmpty then t
    else cleanupLoop limit sqlWhere n (t.delete fun row => removeValues.contains row.1)

/-- `cleanup_sql_table`: there are no more pages than rows. -/
def cleanupSqlTable {ρ κ : Type*} {key : ρ → κ} (settings : Settings) (sqlWhere : ℕ × ρ → Bool)
    (t : Sql.Table key) : Sql.Table key :=
  cleanupLoop settings.cleanupQuerySizeLimit sqlWhere t.rows.length t

/-- The cleanup of `throttle_tracking`. -/
def cleanupThrottleTracking (settings : Settings) (now : ℕ) (t : Throttle.TrackingTable) :
    Throttle.TrackingTable :=
  cleanupSqlTable settings (fun row => row.2.initTime + row.2.period < now) t

/-- The cleanup of `greylisting_tracking`. -/
def cleanupGreylistingTracking (settings : Settings) (now : ℤ) (t : Greylisting.TrackingTable) :
    Greylisting.TrackingTable :=
  cleanupSqlTable settings (fun row => row.2.recordExpired < now) t

end IRedAPD.CleanupDb

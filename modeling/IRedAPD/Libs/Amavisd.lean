/-
  The Amavisd database (`@lookup_sql_dsn`), as `SQL/` of Amavisd defines it.

  `users` holds local addresses and `mailaddr` external ones.  Each table counts
  its own ids, and `wblist` and `outbound_wblist` refer to both: in `wblist` the
  recipient is local, in `outbound_wblist` the sender is.
-/
import IRedAPD.Py.Str
import Mathlib.Data.List.Sort

namespace IRedAPD

open Py

/-- A row of `users` or of `mailaddr`. -/
structure AmavisdAddress where
  id : ℕ
  priority : ℤ
  email : Str
  deriving DecidableEq

/-- A row of `wblist` or of `outbound_wblist`. -/
structure Wblist where
  rid : ℕ
  sid : ℕ
  wb : Str
  deriving DecidableEq

/-- `engine_amavisd`: reading a table may fail. -/
structure AmavisdConn (ω : Type*) where
  users : ω → Except Exn (List AmavisdAddress)
  mailaddr : ω → Except Exn (List AmavisdAddress)
  wblist : ω → Except Exn (List Wblist)
  outboundWblist : ω → Except Exn (List Wblist)

/-- `ORDER BY priority DESC`. -/
def orderByPriority (rows : List AmavisdAddress) : List AmavisdAddress :=
  rows.insertionSort fun a b => b.priority ≤ a.priority

@[simp] theorem mem_orderByPriority {r : AmavisdAddress} {rows : List AmavisdAddress} :
    r ∈ orderByPriority rows ↔ r ∈ rows := List.mem_insertionSort _

end IRedAPD

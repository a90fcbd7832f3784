/-
  `sqlquote` of `web/db.py` on a `str`.
-/
import IRedAPD.Py.Repr

namespace IRedAPD

open Py

variable [Unicode]

/-- `sqlify` of a `str`, the last branch: `repr(obj)`. -/
def sqlify (obj : Str) : Str := repr obj

/-- `'%s' % sqlquote(a)`: the `SQLQuery` of one parameter, formatted. -/
def sqlquote (a : Str) : Str := sqlify a

end IRedAPD

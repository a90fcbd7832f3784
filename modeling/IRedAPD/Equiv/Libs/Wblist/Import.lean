/-
  What `add_wblist` stores from `create_mailaddr` on, when its statements succeed.

  The rows of the submitted addresses are deleted and inserted anew, so that
  after it each of them has the `wb` it was submitted with
  (`wbAt_replaced_of_mem`), and every other row is what it was
  (`wbAt_replaced_of_ne`).
-/
import IRedAPD.Equiv.Libs.Wblist.Steps
import Mathlib.Data.Set.Basic

namespace IRedAPD.LibWblist

open Py

/-- The `wb` of the row with a key. -/
def wbAt (table : Sql.Table wblistKey) (key : ℕ × ℕ) : Option Str :=
  (table.find? key).map fun row => row.2.wb

/-! ### `values` -/

section Values

variable {addresses wl bl : List Str} {t : Tables}

theorem recordOf_recordsOf {a : Str} (ha : a ∈ addresses) :
    recordOf (recordsOf addresses t) a = idOf t a := by
  unfold recordOf
  rw [get?_recordsOf, if_pos ha]
  cases hid : idOf t a with
  | none => rfl
  | some id => rw [Option.filter_some_pos (by simpa using (idOf_pos hid).ne')]

theorem filterMap_recordOf {l : List Str} (hl : ∀ a ∈ l, a ∈ addresses) (wb : Str) :
    (l.filterMap fun s => (recordOf (recordsOf addresses t) s).map fun id => (id, wb)) =
      (l.filterMap (idOf t)).map fun id => (id, wb) := by
  rw [List.map_filterMap]
  refine List.filterMap_congr fun a ha => ?_
  rw [recordOf_recordsOf (hl a ha)]

/-- The ids and `wb` of the addresses that have an id. -/
theorem values_recordsOf (hwl : ∀ a ∈ wl, a ∈ addresses) (hbl : ∀ a ∈ bl, a ∈ addresses) :
    values (recordsOf addresses t) wl bl =
      ((wl.filterMap (idOf t)).map fun id => (id, "W".toList)) ++
        ((bl.filter fun s => !wl.contains s).filterMap (idOf t)).map fun id => (id, "B".toList) := by
  unfold values
  rw [filterMap_recordOf hwl, filterMap_recordOf fun a ha => hbl a (List.mem_filter.mp ha).1]

theorem mem_values_iff (hwl : ∀ a ∈ wl, a ∈ addresses) (hbl : ∀ a ∈ bl, a ∈ addresses) {id : ℕ}
    {wb : Str} : (id, wb) ∈ values (recordsOf addresses t) wl bl ↔
      ∃ a, (a ∈ wl ∨ a ∈ bl) ∧ idOf t a = some id ∧
        wb = if wl.contains a then "W".toList else "B".toList := by
  rw [values_recordsOf hwl hbl, List.mem_append, List.mem_map, List.mem_map]
  simp only [List.mem_filterMap, List.mem_filter, Bool.not_eq_true', Bool.eq_false_iff, ne_eq,
    List.contains_iff_mem]
  constructor
  · rintro (⟨id, ⟨a, ha, hid⟩, heq⟩ | ⟨id, ⟨a, ⟨ha, hno⟩, hid⟩, heq⟩)
    · obtain ⟨rfl, rfl⟩ := Prod.mk.inj heq
      exact ⟨a, .inl ha, hid, (if_pos ha).symm⟩
    · obtain ⟨rfl, rfl⟩ := Prod.mk.inj heq
      exact ⟨a, .inr ha, hid, (if_neg hno).symm⟩
  · rintro ⟨a, ha, hid, rfl⟩
    by_cases hmem : a ∈ wl
    · exact .inl ⟨id, ⟨a, hmem, hid⟩, by rw [if_pos hmem]⟩
    · exact .inr ⟨id, ⟨a, ⟨ha.resolve_left hmem, hmem⟩, hid⟩, by rw [if_neg hmem]⟩

theorem nodup_filterMap_idOf {l : List Str} (h : l.Nodup) : (l.filterMap (idOf t)).Nodup :=
  h.filterMap fun _ _ _ ha hb => eq_of_idOf ha hb

/-- Every id occurs once. -/
theorem nodup_ids_values (hwl : ∀ a ∈ wl, a ∈ addresses) (hbl : ∀ a ∈ bl, a ∈ addresses)
    (hwlNodup : wl.Nodup) (hblNodup : bl.Nodup) :
    ((values (recordsOf addresses t) wl bl).map Prod.fst).Nodup := by
  have hfst : ∀ (ids : List ℕ) (wb : Str), (ids.map fun id => (id, wb)).map Prod.fst = ids := by
    intro ids wb
    rw [List.map_map]
    exact List.map_id ids
  rw [values_recordsOf hwl hbl, List.map_append, hfst, hfst]
  refine List.nodup_append.mpr ⟨nodup_filterMap_idOf hwlNodup,
    nodup_filterMap_idOf (hblNodup.filter _), ?_⟩
  rintro id hid _ hid' rfl
  obtain ⟨a, ha, hida⟩ := List.mem_filterMap.mp hid
  obtain ⟨b, hb, hidb⟩ := List.mem_filterMap.mp hid'
  obtain rfl := eq_of_idOf hida hidb
  have hno := (List.mem_filter.mp hb).2
  simp [ha] at hno

end Values

/-! ### The statements of the import -/

/-- The arguments of the import. -/
structure Import where
  sets : SetOrder Str
  userId : ℕ
  wlSenders : List Str
  blSenders : List Str
  wlRcpts : List Str
  blRcpts : List Str

namespace Import

variable (c : Import) (fails : ℕ → Bool) (n : ℕ) (t : Tables)

def senders : List Str := c.sets.order (c.wlSenders ++ c.blSenders)

def rcpts : List Str := c.sets.order (c.wlRcpts ++ c.blRcpts)

def all : List Str := c.sets.order (c.senders ++ c.rcpts)

variable [Unicode]

/-- The tables with the addresses whose inserts succeed. -/
def registered : Tables :=
  { t with mailaddr := t.mailaddr.addAll (succeeding fails n (entries c.all)) }

def senderRecords : Dict Str ℕ := recordsOf c.senders (c.registered fails n t)

def rcptRecords : Dict Str ℕ := recordsOf c.rcpts (c.registered fails n t)

/-- The numbers of the statements after the inserts into `mailaddr`. -/
def selectAt : ℕ := n + (entries c.all).length

def selectRcptsAt : ℕ := c.selectAt n + stepsFor c.senders

def deleteAt : ℕ := c.selectRcptsAt n + stepsFor c.rcpts

def deleteRcptsAt : ℕ := c.deleteAt n + stepsFor (c.senderRecords fails n t)

def insertAt : ℕ := c.deleteRcptsAt fails n t + stepsFor (c.rcptRecords fails n t)

/-- The rows that are inserted. -/
def inboundRows : List Wblist :=
  (values (c.senderRecords fails n t) c.wlSenders c.blSenders).map fun (sid, wb) => ⟨c.userId, sid, wb⟩

def outboundRows : List Wblist :=
  (values (c.rcptRecords fails n t) c.wlRcpts c.blRcpts).map fun (rid, wb) => ⟨rid, c.userId, wb⟩

def insertRcptsAt : ℕ := c.insertAt fails n t + (c.inboundRows fails n t).length

/-- The tables after the deletes. -/
def deleted : Tables :=
  deletedOutbound c.userId ((c.rcptRecords fails n t).map Prod.snd)
    (deletedInbound c.userId ((c.senderRecords fails n t).map Prod.snd) (c.registered fails n t))

/-- The tables after the inserts. -/
def imported : Tables :=
  { c.deleted fails n t with
    wblist := (c.deleted fails n t).wblist.addAll
      (succeeding fails (c.insertAt fails n t) (c.inboundRows fails n t))
    outboundWblist := (c.deleted fails n t).outboundWblist.addAll
      (succeeding fails (c.insertRcptsAt fails n t) (c.outboundRows fails n t)) }

/-- Both queries and both deletes succeed. -/
def Reaches : Prop :=
  Succeed fails (c.selectAt n) (stepsFor c.senders) ∧
    Succeed fails (c.selectRcptsAt n) (stepsFor c.rcpts) ∧
    Succeed fails (c.deleteAt n) (stepsFor (c.senderRecords fails n t)) ∧
    Succeed fails (c.deleteRcptsAt fails n t) (stepsFor (c.rcptRecords fails n t))

end Import

section Run

variable [Unicode] {c : Import} {fails : ℕ → Bool} {execute : Execute (Tables × ℕ)} {n : ℕ} {t : Tables}

theorem isQuotable_W : isQuotable "W".toList = true := by
  unfold isQuotable
  rw [Bool.and_eq_true]
  refine ⟨rfl, ?_⟩
  simp [Unicode.isPrintable_ascii 'W' (by decide)]

omit [Unicode] in
theorem wb_of_mem_values {records : Dict Str ℕ} {wl bl : List Str} {v : ℕ × Str}
    (hv : v ∈ values records wl bl) : v.2 = "W".toList ∨ v.2 = "B".toList := by
  rcases List.mem_append.mp hv with hv | hv
  · obtain ⟨a, -, hv⟩ := List.mem_filterMap.mp hv
    obtain ⟨id, -, rfl⟩ := Option.map_eq_some_iff.mp hv
    exact .inl rfl
  · obtain ⟨a, -, hv⟩ := List.mem_filterMap.mp hv
    obtain ⟨id, -, rfl⟩ := Option.map_eq_some_iff.mp hv
    exact .inr rfl

theorem isQuotable_wb {records : Dict Str ℕ} {wl bl : List Str} {v : ℕ × Str}
    (hv : v ∈ values records wl bl) : isQuotable v.2 = true := by
  rcases wb_of_mem_values hv with hwb | hwb
  · rw [hwb]
    exact isQuotable_W
  · rw [hwb]
    exact isQuotable_B

section Steps

variable (hdb : Answers fails execute) (hquotable : ∀ a ∈ c.all, isQuotable a = true)

include hdb hquotable

/-- The first statements. -/
theorem importWblist_create :
    createMailaddr execute (c.sets.order (c.sets.order (c.wlSenders ++ c.blSenders) ++
      c.sets.order (c.wlRcpts ++ c.blRcpts))) (t, n) = (c.registered fails n t, c.selectAt n) :=
  createMailaddr_eq hdb hquotable t n

theorem importWblist_select (h : Succeed fails (c.selectAt n) (stepsFor c.senders)) :
    mailaddrRecords execute (c.sets.order (c.wlSenders ++ c.blSenders))
      (c.registered fails n t, c.selectAt n) =
        (.ok (c.senderRecords fails n t), (c.registered fails n t, c.selectRcptsAt n)) :=
  mailaddrRecords_of_succeed hdb
    (fun a ha => hquotable a (c.sets.mem_order.mpr (List.mem_append_left _ ha))) _ h

theorem importWblist_selectRcpts (h : Succeed fails (c.selectRcptsAt n) (stepsFor c.rcpts)) :
    mailaddrRecords execute (c.sets.order (c.wlRcpts ++ c.blRcpts))
      (c.registered fails n t, c.selectRcptsAt n) =
        (.ok (c.rcptRecords fails n t), (c.registered fails n t, c.deleteAt n)) :=
  mailaddrRecords_of_succeed hdb
    (fun a ha => hquotable a (c.sets.mem_order.mpr (List.mem_append_right _ ha))) _ h

/-- **The import, up to failures of its inserts.** -/
theorem importWblist_of_reaches (h : c.Reaches fails n t) :
    importWblist execute c.userId c.sets c.wlSenders c.blSenders c.wlRcpts c.blRcpts (t, n) =
      (.ok (.ok ()), (c.imported fails n t,
        c.insertRcptsAt fails n t + (c.outboundRows fails n t).length)) := by
  obtain ⟨hselect, hselectRcpts, hdelete, hdeleteRcpts⟩ := h
  have hdeleted : deleteOld execute c.userId (c.senderRecords fails n t) (c.rcptRecords fails n t)
      (c.registered fails n t, c.deleteAt n) =
        (.ok (), (c.deleted fails n t, c.insertAt fails n t)) :=
    deleteOld_of_succeed hdb _ _ _ _ hdelete hdeleteRcpts
  have hinbound : insertRows execute .insertWblist (c.inboundRows fails n t)
      (c.deleted fails n t, c.insertAt fails n t) =
        ({ c.deleted fails n t with
            wblist := (c.deleted fails n t).wblist.addAll
              (succeeding fails (c.insertAt fails n t) (c.inboundRows fails n t)) },
          c.insertRcptsAt fails n t) := by
    refine insertRows_inbound hdb (fun row hrow => ?_) _ _
    obtain ⟨v, hv, rfl⟩ := List.mem_map.mp hrow
    exact isQuotable_wb hv
  have houtbound : ∀ t', insertRows execute .insertOutboundWblist (c.outboundRows fails n t)
      (t', c.insertRcptsAt fails n t) =
        ({ t' with
            outboundWblist := t'.outboundWblist.addAll
              (succeeding fails (c.insertRcptsAt fails n t) (c.outboundRows fails n t)) },
          c.insertRcptsAt fails n t + (c.outboundRows fails n t).length) := by
    intro t'
    refine insertRows_outbound hdb (fun row hrow => ?_) _ _
    obtain ⟨v, hv, rfl⟩ := List.mem_map.mp hrow
    exact isQuotable_wb hv
  have hcreate := importWblist_create hdb hquotable (n := n) (t := t)
  have hrecords := importWblist_select hdb hquotable (t := t) hselect
  have hrcptRecords := importWblist_selectRcpts hdb hquotable (t := t) hselectRcpts
  unfold Import.inboundRows at hinbound
  unfold Import.outboundRows at houtbound
  unfold importWblist
  simp only [hcreate, hrecords, hrcptRecords, hdeleted, hinbound, houtbound]
  rfl

end Steps

end Run

/-! ### Rows that are replaced -/

/-- The key of a row. -/
def keyOf (userId : ℕ) : Direction → ℕ → ℕ × ℕ
  | .inbound, id => (userId, id)
  | .outbound, id => (id, userId)

/-- A row. -/
def rowOf (userId : ℕ) : Direction → ℕ → Str → Wblist
  | .inbound, id, wb => ⟨userId, id, wb⟩
  | .outbound, id, wb => ⟨id, userId, wb⟩

section Replaced

variable {userId : ℕ} {d : Direction}

@[simp] theorem wblistKey_rowOf (id : ℕ) (wb : Str) : wblistKey (rowOf userId d id wb) = keyOf userId d id := by
  cases d <;> rfl

@[simp] theorem wb_rowOf (id : ℕ) (wb : Str) : (rowOf userId d id wb).wb = wb := by
  cases d <;> rfl

theorem keyOf_inj {id id' : ℕ} : keyOf userId d id = keyOf userId d id' ↔ id = id' := by
  cases d with
  | inbound => simp [keyOf]
  | outbound => simp [keyOf]

/-- The keys of two users differ. -/
theorem keyOf_ne {userId' id id' : ℕ} (h : userId' ≠ userId) : keyOf userId' d id' ≠ keyOf userId d id := by
  cases d with
  | inbound => exact fun heq => h (Prod.mk.inj heq).1
  | outbound => exact fun heq => h (Prod.mk.inj heq).2

/-- The keys of rows with different ids differ. -/
theorem nodup_keys_rowOf {vs : List (ℕ × Str)} (h : (vs.map Prod.fst).Nodup) :
    ((vs.map fun v => rowOf userId d v.1 v.2).map wblistKey).Nodup := by
  rw [List.map_map]
  have hcomp : (wblistKey ∘ fun v : ℕ × Str => rowOf userId d v.1 v.2) =
      keyOf userId d ∘ Prod.fst := funext fun v => wblistKey_rowOf v.1 v.2
  rw [hcomp, ← List.map_map]
  exact h.map fun _ _ h => keyOf_inj.mp h

variable {table : Sql.Table wblistKey} {p : ℕ × Wblist → Bool} {ids : List ℕ}
  (hp : ∀ row, p row = true ↔ ∃ id ∈ ids, wblistKey row.2 = keyOf userId d id)

include hp

theorem find?_delete_of_mem {id : ℕ} (hid : id ∈ ids) : (table.delete p).find? (keyOf userId d id) = none := by
  rw [Sql.Table.find?_delete]
  cases hfind : table.find? (keyOf userId d id) with
  | none => rfl
  | some row =>
    have hkey := (Sql.Table.find?_eq_some_iff.mp hfind).2
    rw [Option.filter_some_neg (by simpa using (hp row).mpr ⟨id, hid, hkey⟩)]

theorem find?_delete_of_ne {k : ℕ × ℕ} (hk : ∀ id ∈ ids, keyOf userId d id ≠ k) :
    (table.delete p).find? k = table.find? k := by
  rw [Sql.Table.find?_delete]
  cases hfind : table.find? k with
  | none => rfl
  | some row =>
    have hkey := (Sql.Table.find?_eq_some_iff.mp hfind).2
    have hkeep : p row = false := by
      rw [Bool.eq_false_iff, ne_eq, hp]
      rintro ⟨id, hid, heq⟩
      exact hk id hid (heq.symm.trans hkey)
    rw [Option.filter_some_pos (by simp [hkeep])]

variable {vs : List (ℕ × Str)} (hids : ∀ id, id ∈ ids ↔ ∃ wb, (id, wb) ∈ vs) {rows : List Wblist}
  (hrows : rows.Sublist (vs.map fun v => rowOf userId d v.1 v.2))

include hids hrows

/-- A row that is inserted has its `wb`. -/
theorem wbAt_replaced_of_mem (hnodup : (vs.map Prod.fst).Nodup) {id : ℕ} {wb : Str}
    (hmem : rowOf userId d id wb ∈ rows) :
    wbAt ((table.delete p).addAll rows) (keyOf userId d id) = some wb := by
  have hkeys : (rows.map wblistKey).Nodup :=
    List.Nodup.sublist (hrows.map wblistKey) (nodup_keys_rowOf hnodup)
  have hid : id ∈ ids := by
    obtain ⟨v, hv, heq⟩ := List.mem_map.mp (hrows.subset hmem)
    have hkey := congrArg wblistKey heq
    rw [wblistKey_rowOf, wblistKey_rowOf, keyOf_inj] at hkey
    exact (hids id).mpr ⟨v.2, hkey ▸ hv⟩
  have hnew : (table.delete p).find? (wblistKey (rowOf userId d id wb)) = none := by
    rw [wblistKey_rowOf]
    exact find?_delete_of_mem hp hid
  obtain ⟨i, hi⟩ := Sql.Table.find?_addAll_of_mem hkeys hmem hnew
  rw [wblistKey_rowOf] at hi
  unfold wbAt
  rw [hi, Option.map_some, wb_rowOf]

omit hids in
/-- A row that is not inserted is gone. -/
theorem wbAt_replaced_of_notMem {id : ℕ} (hid : id ∈ ids) (hno : ∀ wb, rowOf userId d id wb ∉ rows) :
    wbAt ((table.delete p).addAll rows) (keyOf userId d id) = none := by
  have hne : ∀ row ∈ rows, wblistKey row ≠ keyOf userId d id := by
    intro row hrow heq
    obtain ⟨v, -, rfl⟩ := List.mem_map.mp (hrows.subset hrow)
    rw [wblistKey_rowOf, keyOf_inj] at heq
    rw [heq] at hrow
    exact hno v.2 hrow
  unfold wbAt
  rw [Sql.Table.find?_addAll_of_ne hne, find?_delete_of_mem hp hid]
  rfl

/-- Every other row is what it was. -/
theorem wbAt_replaced_of_ne {k : ℕ × ℕ} (hk : ∀ id ∈ ids, keyOf userId d id ≠ k) :
    wbAt ((table.delete p).addAll rows) k = wbAt table k := by
  have hne : ∀ row ∈ rows, wblistKey row ≠ k := by
    intro row hrow
    obtain ⟨v, hv, rfl⟩ := List.mem_map.mp (hrows.subset hrow)
    rw [wblistKey_rowOf]
    exact hk v.1 ((hids v.1).mpr ⟨v.2, hv⟩)
  unfold wbAt
  rw [Sql.Table.find?_addAll_of_ne hne, find?_delete_of_ne hp hk]

end Replaced

/-! ### The rows after the import -/

/-- The table of a list. -/
def Tables.table (t : Tables) : Direction → Sql.Table wblistKey
  | .inbound => t.wblist
  | .outbound => t.outboundWblist

/-- The row of an account under an id. -/
theorem wbAt_eq_some_iff {t : Tables} {u id : ℕ} {d : Direction} {wb : Str} :
    wbAt (t.table d) (keyOf u d id) = some wb ↔
      ∃ row ∈ t.listRows d, localId d row.2 = u ∧ remoteId d row.2 = id ∧ row.2.wb = wb := by
  unfold wbAt
  simp only [Option.map_eq_some_iff, Sql.Table.find?_eq_some_iff, and_assoc]
  cases d with
  | inbound =>
    refine exists_congr fun row => and_congr_right fun _ => ?_
    unfold wblistKey keyOf
    rw [Prod.mk.injEq, and_assoc]
    rfl
  | outbound =>
    refine exists_congr fun row => and_congr_right fun _ => ?_
    unfold wblistKey keyOf
    rw [Prod.mk.injEq, and_assoc, and_left_comm]
    rfl

namespace Import

variable (c : Import)

def wl : Direction → List Str
  | .inbound => c.wlSenders
  | .outbound => c.wlRcpts

def bl : Direction → List Str
  | .inbound => c.blSenders
  | .outbound => c.blRcpts

/-- An address of one of the two lists of a direction. -/
def Submitted (d : Direction) (a : Str) : Prop := a ∈ c.wl d ∨ a ∈ c.bl d

/-- The `wb` of an address. -/
def wbOf (d : Direction) (a : Str) : Str := if (c.wl d).contains a then "W" else "B"

theorem wbOf_of_mem {d : Direction} {a : Str} (ha : a ∈ c.wl d) : c.wbOf d a = "W".toList :=
  if_pos (List.contains_iff_mem.mpr ha)

theorem wbOf_of_notMem {d : Direction} {a : Str} (ha : a ∉ c.wl d) : c.wbOf d a = "B".toList :=
  if_neg (mt List.contains_iff_mem.mp ha)

def addresses : Direction → List Str
  | .inbound => c.senders
  | .outbound => c.rcpts

theorem mem_addresses_iff {d : Direction} {a : Str} : a ∈ c.addresses d ↔ c.Submitted d a := by
  cases d with
  | inbound => exact c.sets.mem_order.trans List.mem_append
  | outbound => exact c.sets.mem_order.trans List.mem_append

theorem mem_all_iff {a : Str} : a ∈ c.all ↔ ∃ d, c.Submitted d a := by
  have hall : a ∈ c.all ↔ a ∈ c.addresses .inbound ∨ a ∈ c.addresses .outbound :=
    c.sets.mem_order.trans List.mem_append
  rw [hall, mem_addresses_iff, mem_addresses_iff]
  constructor
  · rintro (h | h)
    · exact ⟨_, h⟩
    · exact ⟨_, h⟩
  · rintro ⟨_ | _, h⟩
    · exact .inl h
    · exact .inr h

variable [Unicode] (fails : ℕ → Bool) (n : ℕ) (t : Tables)

/-- The ids and `wb` of the rows. -/
def valuesOf (d : Direction) : List (ℕ × Str) :=
  values (recordsOf (c.addresses d) (c.registered fails n t)) (c.wl d) (c.bl d)

/-- The rows of a direction. -/
def rows (d : Direction) : List Wblist :=
  (c.valuesOf fails n t d).map fun v => rowOf c.userId d v.1 v.2

/-- The number of the first insert of a direction. -/
def rowsAt : Direction → ℕ
  | .inbound => c.insertAt fails n t
  | .outbound => c.insertRcptsAt fails n t

/-- The table of a direction. -/
theorem table_imported (d : Direction) : ∃ p, (∀ row, p row = true ↔
      ∃ id ∈ (recordsOf (c.addresses d) (c.registered fails n t)).map Prod.snd,
        wblistKey row.2 = keyOf c.userId d id) ∧
    (c.imported fails n t).table d = ((t.table d).delete p).addAll
      (succeeding fails (c.rowsAt fails n t d) (c.rows fails n t d)) := by
  cases d with
  | inbound =>
    refine ⟨_, fun row => ?_, rfl⟩
    rw [Bool.and_eq_true, decide_eq_true_iff, List.contains_iff_mem]
    constructor
    · rintro ⟨hrid, hsid⟩
      exact ⟨row.2.sid, hsid, Prod.ext hrid rfl⟩
    · rintro ⟨id, hid, hkey⟩
      obtain ⟨hrid, rfl⟩ := Prod.mk.inj hkey
      exact ⟨hrid, hid⟩
  | outbound =>
    refine ⟨_, fun row => ?_, rfl⟩
    rw [Bool.and_eq_true, decide_eq_true_iff, List.contains_iff_mem]
    constructor
    · rintro ⟨hsid, hrid⟩
      exact ⟨row.2.rid, hrid, Prod.ext rfl hsid⟩
    · rintro ⟨id, hid, hkey⟩
      obtain ⟨rfl, hsid⟩ := Prod.mk.inj hkey
      exact ⟨hsid, hid⟩

variable {c fails n t} {d : Direction}

theorem mem_valuesOf_iff {id : ℕ} {wb : Str} : (id, wb) ∈ c.valuesOf fails n t d ↔
    ∃ a, c.Submitted d a ∧ idOf (c.registered fails n t) a = some id ∧ wb = c.wbOf d a :=
  mem_values_iff (fun _ ha => c.mem_addresses_iff.mpr (.inl ha))
    fun _ ha => c.mem_addresses_iff.mpr (.inr ha)

theorem mem_ids_iff {id : ℕ} :
    id ∈ (recordsOf (c.addresses d) (c.registered fails n t)).map Prod.snd ↔
      ∃ wb, (id, wb) ∈ c.valuesOf fails n t d := by
  rw [mem_ids_recordsOf]
  constructor
  · rintro ⟨a, ha, hid⟩
    exact ⟨_, mem_valuesOf_iff.mpr ⟨a, c.mem_addresses_iff.mp ha, hid, rfl⟩⟩
  · rintro ⟨wb, hmem⟩
    obtain ⟨a, ha, hid, -⟩ := mem_valuesOf_iff.mp hmem
    exact ⟨a, c.mem_addresses_iff.mpr ha, hid⟩

/-- **An address whose row is inserted has its `wb`.** -/
theorem wbAt_imported_of_mem (hnodup : ((c.valuesOf fails n t d).map Prod.fst).Nodup) {id : ℕ} {wb : Str}
    (hmem : rowOf c.userId d id wb ∈ succeeding fails (c.rowsAt fails n t d) (c.rows fails n t d)) :
    wbAt ((c.imported fails n t).table d) (keyOf c.userId d id) = some wb := by
  obtain ⟨p, hp, htable⟩ := table_imported c fails n t d
  rw [htable]
  exact wbAt_replaced_of_mem hp (fun id => mem_ids_iff) (succeeding_sublist _ _) hnodup hmem

/-- An address whose row is not inserted is not listed. -/
theorem wbAt_imported_of_notMem {a : Str} (ha : c.Submitted d a) {id : ℕ}
    (hid : idOf (c.registered fails n t) a = some id)
    (hno : ∀ wb, rowOf c.userId d id wb ∉ succeeding fails (c.rowsAt fails n t d) (c.rows fails n t d)) :
    wbAt ((c.imported fails n t).table d) (keyOf c.userId d id) = none := by
  obtain ⟨p, hp, htable⟩ := table_imported c fails n t d
  rw [htable]
  refine wbAt_replaced_of_notMem hp (succeeding_sublist _ _) ?_ hno
  exact mem_ids_recordsOf.mpr ⟨a, c.mem_addresses_iff.mpr ha, hid⟩

/-- **Every other row is what it was.** -/
theorem wbAt_imported_of_ne {k : ℕ × ℕ} (hk : ∀ a id, c.Submitted d a →
      idOf (c.registered fails n t) a = some id → keyOf c.userId d id ≠ k) :
    wbAt ((c.imported fails n t).table d) k = wbAt (t.table d) k := by
  obtain ⟨p, hp, htable⟩ := table_imported c fails n t d
  rw [htable]
  refine wbAt_replaced_of_ne hp (fun id => mem_ids_iff) (succeeding_sublist _ _) fun id hid => ?_
  obtain ⟨a, ha, hida⟩ := mem_ids_recordsOf.mp hid
  exact hk a id (c.mem_addresses_iff.mp ha) hida

/-- Nothing is stored when nothing is submitted. -/
theorem imported_of_nothing (h : ∀ d a, ¬c.Submitted d a) : c.imported fails n t = t := by
  have hnil : ∀ d, c.wl d = [] ∧ c.bl d = [] := fun d =>
    ⟨List.eq_nil_iff_forall_not_mem.mpr fun a ha => h d a (.inl ha),
      List.eq_nil_iff_forall_not_mem.mpr fun a ha => h d a (.inr ha)⟩
  obtain ⟨hwlSenders, hblSenders⟩ := hnil .inbound
  obtain ⟨hwlRcpts, hblRcpts⟩ := hnil .outbound
  have hsenders : c.senders = [] := by
    rw [List.eq_nil_iff_forall_not_mem]
    exact fun a ha => h .inbound a (c.mem_addresses_iff.mp ha)
  have hrcpts : c.rcpts = [] := by
    rw [List.eq_nil_iff_forall_not_mem]
    exact fun a ha => h .outbound a (c.mem_addresses_iff.mp ha)
  have hall : c.all = [] := by
    rw [List.eq_nil_iff_forall_not_mem]
    intro a ha
    obtain ⟨d, hd⟩ := c.mem_all_iff.mp ha
    exact h d a hd
  have hregistered : c.registered fails n t = t := by
    unfold registered
    rw [hall]
    rfl
  have hrecords : recordsOf [] t = [] := recordsOf_eq_nil_iff.mpr fun a ha => absurd ha List.not_mem_nil
  have hdeleted : c.deleted fails n t = t := by
    unfold deleted senderRecords rcptRecords
    rw [hregistered, hsenders, hrcpts, hrecords, List.map_nil, deletedInbound_nil, deletedOutbound_nil]
  have hrows : c.inboundRows fails n t = [] ∧ c.outboundRows fails n t = [] := by
    unfold inboundRows outboundRows senderRecords rcptRecords
    rw [hregistered, hsenders, hrcpts, hrecords]
    have hwl : c.wlSenders = [] := hwlSenders
    have hbl : c.blSenders = [] := hblSenders
    have hwl' : c.wlRcpts = [] := hwlRcpts
    have hbl' : c.blRcpts = [] := hblRcpts
    rw [hwl, hbl, hwl', hbl']
    exact ⟨rfl, rfl⟩
  unfold imported
  rw [hdeleted, hrows.1, hrows.2]
  rfl

end Import

/-! ### `add_wblist` -/

section Add

/-- The whitelist of a direction. -/
def Request.wl (request : Request) : Direction → List Str
  | .inbound => request.wlSenders
  | .outbound => request.wlRcpts

def Request.bl (request : Request) : Direction → List Str
  | .inbound => request.blSenders
  | .outbound => request.blRcpts

variable [Unicode]

/-- The valid addresses of an argument, in lower case. -/
def validAddresses (l : List Str) : Set Str :=
  {x | ∃ s ∈ l, (isValidAmavisdAddress s).isSome ∧ Unicode.lower s = x}

theorem mem_normalize {sets : SetOrder Str} {l : List Str} {x : Str} :
    x ∈ normalize sets l ↔ x ∈ validAddresses l := by
  unfold normalize validAddresses
  rw [SetOrder.mem_order, List.mem_map]
  simp only [List.mem_filter, and_assoc]
  exact Iff.rfl

/-- `bl_senders` and `bl_rcpts` -/
def blacklisted (sets : SetOrder Str) (request : Request) (wl bl : List Str) : List Str :=
  if request.flushBeforeImport then sets.order (bl.filter fun s => !wl.contains s) else bl

/-- What the request imports. -/
def Request.import (request : Request) (sets : SetOrder Str) (userId : ℕ) : Import where
  sets := sets
  userId := userId
  wlSenders := normalize sets request.wlSenders
  blSenders := blacklisted sets request (normalize sets request.wlSenders)
    (normalize sets request.blSenders)
  wlRcpts := normalize sets request.wlRcpts
  blRcpts := blacklisted sets request (normalize sets request.wlRcpts) (normalize sets request.blRcpts)

variable {sets : SetOrder Str} {request : Request} {u : ℕ} {d : Direction}

omit [Unicode] in
theorem mem_blacklisted {wl bl : List Str} {x : Str} : x ∈ wl ∨ x ∈ blacklisted sets request wl bl ↔
    x ∈ wl ∨ x ∈ bl := by
  unfold blacklisted
  split_ifs
  · rw [SetOrder.mem_order, List.mem_filter, Bool.not_eq_true', Bool.eq_false_iff, ne_eq,
      List.contains_iff_mem]
    by_cases hx : x ∈ wl
    · exact iff_of_true (.inl hx) (.inl hx)
    · simp [hx]
  · rfl

theorem mem_wl_iff {x : Str} : x ∈ (request.import sets u).wl d ↔ x ∈ validAddresses (request.wl d) := by
  cases d with
  | inbound => exact mem_normalize
  | outbound => exact mem_normalize

/-- The addresses that are submitted. -/
theorem submitted_iff {x : Str} : (request.import sets u).Submitted d x ↔
    x ∈ validAddresses (request.wl d) ∨ x ∈ validAddresses (request.bl d) := by
  cases d with
  | inbound => exact mem_blacklisted.trans (or_congr mem_normalize mem_normalize)
  | outbound => exact mem_blacklisted.trans (or_congr mem_normalize mem_normalize)

omit [Unicode] in
theorem nodup_order (sets : SetOrder Str) (l : List Str) : (sets.order l).Nodup :=
  (sets.perm l).nodup_iff.mpr (List.nodup_dedup l)

theorem nodup_blacklisted {wl l : List Str} : (blacklisted sets request wl (normalize sets l)).Nodup := by
  unfold blacklisted
  split_ifs
  · exact nodup_order sets _
  · exact nodup_order sets _

/-- No row is inserted twice. -/
theorem nodup_valuesOf (fails : ℕ → Bool) (n : ℕ) (t : Tables) :
    (((request.import sets u).valuesOf fails n t d).map Prod.fst).Nodup := by
  have hnodup : ((request.import sets u).wl d).Nodup ∧ ((request.import sets u).bl d).Nodup := by
    cases d with
    | inbound => exact ⟨nodup_order sets _, nodup_blacklisted⟩
    | outbound => exact ⟨nodup_order sets _, nodup_blacklisted⟩
  exact nodup_ids_values (fun _ ha => (Import.mem_addresses_iff _).mpr (.inl ha))
    (fun _ ha => (Import.mem_addresses_iff _).mpr (.inr ha)) hnodup.1 hnodup.2

/-! ### The statements before the import -/

/-- The number of statements of a flush. -/
def Request.flushSteps (request : Request) : ℕ := if request.flushBeforeImport then 2 else 0

/-- The tables the import starts from. -/
def Request.start (request : Request) (account : Str) (t : Tables) : Tables :=
  if request.flushBeforeImport then flushed (userId account t) (registerUser account t)
  else registerUser account t

section Start

variable {fails : ℕ → Bool} {execute : Execute (Tables × ℕ)} {account : Str} {n : ℕ} {t : Tables}

/-- Nothing is done for an invalid account. -/
theorem addWblist_of_invalid (haccount : (isValidAmavisdAddress account).isNone) (w : Tables × ℕ) :
    addWblist execute sets account request w = (.ok (.error "INVALID_ACCOUNT".toList), w) := by
  unfold addWblist
  rw [if_pos haccount]

variable (haccount : (isValidAmavisdAddress account).isSome)

include haccount

/-- The user is not found and not created. -/
theorem addWblist_of_user_error {e : Str} {w w' : Tables × ℕ}
    (huser : getUserRecord execute account w = (.error e, w')) :
    addWblist execute sets account request w = (.ok (.error e), w') := by
  unfold addWblist
  rw [if_neg (by simpa using Option.isSome_iff_ne_none.mp haccount)]
  simp only [huser]

/-- The rows are imported, when anything is submitted. -/
theorem addWblist_of_flushed {user : AmavisdAddress} {w w' w'' : Tables × ℕ}
    (huser : getUserRecord execute account w = (.ok user, w'))
    (hflushed : (if request.flushBeforeImport then flush execute user.id w' else (.ok (), w')) =
      (.ok (), w'')) :
    addWblist execute sets account request w =
      if ((request.import sets user.id).wlSenders ++ (request.import sets user.id).blSenders ++
        (request.import sets user.id).wlRcpts ++ (request.import sets user.id).blRcpts).isEmpty then
        (.ok (.ok ()), w'')
      else
        importWblist execute user.id sets (request.import sets user.id).wlSenders
          (request.import sets user.id).blSenders (request.import sets user.id).wlRcpts
          (request.import sets user.id).blRcpts w'' := by
  unfold addWblist
  rw [if_neg (by simpa using Option.isSome_iff_ne_none.mp haccount)]
  simp only [huser, hflushed]
  rfl

section Flush

variable {user : AmavisdAddress} (hid : user.id = userId account t) {m : ℕ}
  (huser : getUserRecord execute account (t, n) = (.ok user, (registerUser account t, m)))

include hid huser

/-- A flush that fails raises. -/
theorem addWblist_of_flush_error (hflush : request.flushBeforeImport = true) {e : Exn} {w : Tables × ℕ}
    (herror : flush execute (userId account t) (registerUser account t, m) = (.error e, w)) :
    addWblist execute sets account request (t, n) = (.error e, w) := by
  rw [← hid] at herror
  unfold addWblist
  rw [if_neg (by simpa using Option.isSome_iff_ne_none.mp haccount)]
  simp only [huser, hflush, if_true, herror]

variable (hdb : Answers fails execute) (hsucceed : Succeed fails m request.flushSteps)

include hdb hsucceed

omit haccount huser in
/-- The old rows, if they are flushed. -/
theorem flush_start :
    (if request.flushBeforeImport then flush execute user.id (registerUser account t, m)
      else (.ok (), (registerUser account t, m))) =
      (.ok (), (request.start account t, m + request.flushSteps)) := by
  unfold Request.start Request.flushSteps at *
  by_cases hflush : request.flushBeforeImport = true
  · rw [if_pos hflush] at hsucceed
    rw [if_pos hflush, if_pos hflush, if_pos hflush, hid]
    exact flush_of_succeed hdb _ _ hsucceed
  · rw [if_neg hflush, if_neg hflush, if_neg hflush]
    rfl

/-- Nothing is submitted. -/
theorem addWblist_of_nothing (hnone : ∀ d a, ¬(request.import sets (userId account t)).Submitted d a) :
    addWblist execute sets account request (t, n) =
      (.ok (.ok ()), (request.start account t, m + request.flushSteps)) := by
  have hempty : ((request.import sets (userId account t)).wlSenders ++
      (request.import sets (userId account t)).blSenders ++
      (request.import sets (userId account t)).wlRcpts ++
      (request.import sets (userId account t)).blRcpts).isEmpty = true := by
    rw [List.isEmpty_iff, List.eq_nil_iff_forall_not_mem]
    intro a ha
    simp only [List.mem_append, or_assoc] at ha
    rcases ha with ha | ha | ha | ha
    · exact hnone .inbound a (.inl ha)
    · exact hnone .inbound a (.inr ha)
    · exact hnone .outbound a (.inl ha)
    · exact hnone .outbound a (.inr ha)
  rw [addWblist_of_flushed haccount huser (flush_start hid hdb hsucceed), hid]
  exact if_pos hempty

/-- Something is submitted. -/
theorem addWblist_of_something {d : Direction} {a : Str}
    (ha : (request.import sets (userId account t)).Submitted d a) :
    addWblist execute sets account request (t, n) =
      importWblist execute (userId account t) sets (request.import sets (userId account t)).wlSenders
        (request.import sets (userId account t)).blSenders
        (request.import sets (userId account t)).wlRcpts
        (request.import sets (userId account t)).blRcpts
        (request.start account t, m + request.flushSteps) := by
  have hempty : ¬((request.import sets (userId account t)).wlSenders ++
      (request.import sets (userId account t)).blSenders ++
      (request.import sets (userId account t)).wlRcpts ++
      (request.import sets (userId account t)).blRcpts).isEmpty = true := by
    rw [List.isEmpty_iff, List.eq_nil_iff_forall_not_mem]
    intro hno
    refine hno a ?_
    simp only [List.mem_append, or_assoc]
    cases d with
    | inbound => exact ha.imp_right .inl
    | outbound => exact .inr (.inr ha)
  rw [addWblist_of_flushed haccount huser (flush_start hid hdb hsucceed), hid]
  exact if_neg hempty

end Flush

end Start

end Add

end IRedAPD.LibWblist

/-
  What each part of `add_wblist` does on a database where some statements fail.

  The lists are tables with the two ids as their key, so that what a part does is
  said by what is stored under every pair of ids (`find?`).  The statements of a
  part are numbered from the number the database has reached.
-/
import IRedAPD.Equiv.Libs.Wblist

namespace IRedAPD.LibWblist

open Py

/-- The elements whose statements do not fail, when these are numbered from `n`. -/
def succeeding {α : Type*} (fails : ℕ → Bool) : ℕ → List α → List α
  | _, [] => []
  | n, a :: l => if fails n then succeeding fails (n + 1) l else a :: succeeding fails (n + 1) l

/-- No statement fails. -/
def never : ℕ → Bool := fun _ => false

/-- None of the next `k` statements fails. -/
def Succeed (fails : ℕ → Bool) (n k : ℕ) : Prop := ∀ i < k, fails (n + i) = false

section Numbers

variable {α : Type*} {fails : ℕ → Bool}

theorem succeeding_cons (n : ℕ) (a : α) (l : List α) : succeeding fails n (a :: l) =
    if fails n then succeeding fails (n + 1) l else a :: succeeding fails (n + 1) l := rfl

theorem succeeding_sublist (n : ℕ) (l : List α) : (succeeding fails n l).Sublist l := by
  induction l generalizing n with
  | nil => exact .slnil
  | cons b l ih =>
    rw [succeeding_cons]
    split_ifs
    · exact (ih (n + 1)).cons b
    · exact (ih (n + 1)).cons_cons b

theorem mem_of_mem_succeeding {n : ℕ} {l : List α} {a : α} (h : a ∈ succeeding fails n l) : a ∈ l :=
  (succeeding_sublist n l).subset h

theorem succeed_cons_iff {n k : ℕ} :
    Succeed fails n (k + 1) ↔ fails n = false ∧ Succeed fails (n + 1) k := by
  constructor
  · intro h
    refine ⟨h 0 (Nat.succ_pos k), fun i hi => ?_⟩
    rw [Nat.add_assoc, Nat.add_comm 1]
    exact h (i + 1) (Nat.succ_lt_succ hi)
  · rintro ⟨hfirst, hrest⟩ i hi
    cases i with
    | zero => exact hfirst
    | succ i =>
      rw [Nat.add_comm i 1, ← Nat.add_assoc]
      exact hrest i (Nat.lt_of_succ_lt_succ hi)

theorem succeeding_of_succeed {n : ℕ} {l : List α} (h : Succeed fails n l.length) :
    succeeding fails n l = l := by
  induction l generalizing n with
  | nil => rfl
  | cons a l ih =>
    rw [List.length_cons, succeed_cons_iff] at h
    rw [succeeding, if_neg (by simp [h.1]), ih h.2]

/-- Of elements that differ, all are left only when nothing fails. -/
theorem succeed_of_forall_mem {n : ℕ} {l : List α} (hnodup : l.Nodup)
    (h : ∀ a ∈ l, a ∈ succeeding fails n l) : Succeed fails n l.length := by
  induction l generalizing n with
  | nil => exact fun i hi => absurd hi (Nat.not_lt_zero i)
  | cons a l ih =>
    obtain ⟨ha, hl⟩ := List.nodup_cons.mp hnodup
    have hfirst : fails n = false := by
      by_contra hfails
      have hmem := h a List.mem_cons_self
      rw [succeeding, if_pos (Bool.not_eq_false _ ▸ hfails)] at hmem
      exact ha (mem_of_mem_succeeding hmem)
    rw [List.length_cons, succeed_cons_iff]
    refine ⟨hfirst, ih hl fun b hb => ?_⟩
    have hmem := h b (List.mem_cons_of_mem a hb)
    rw [succeeding, if_neg (by simp [hfirst])] at hmem
    rcases List.mem_cons.mp hmem with rfl | hmem
    · exact absurd hb ha
    · exact hmem

theorem succeed_zero (n : ℕ) : Succeed fails n 0 := fun i hi => absurd hi (Nat.not_lt_zero i)

theorem fails_of_not_succeed_one {n : ℕ} (h : ¬Succeed fails n 1) : fails n = true := by
  by_contra hno
  exact h (succeed_cons_iff.mpr ⟨Bool.eq_false_iff.mpr hno, succeed_zero (n + 1)⟩)

end Numbers

variable [Unicode] {fails : ℕ → Bool} {execute : Execute (Tables × ℕ)}

/-! ### Inserts -/

/-- An insert into one of the tables, that may fail. -/
theorem execute_insert (hdb : Answers fails execute) {ρ κ : Type*} {key : ρ → κ} [DecidableEq κ]
    {i : Statement} (hplain : i.IsPlain) {t : Tables} {table : Sql.Table key} {r : ρ}
    (put : Sql.Table key → Tables) (hput : put table = t)
    (heffect : effect i t = (table.insert r).map fun l => ([], put l)) (n : ℕ) :
    (execute i (t, n)).2 = (if fails n then t else put (table.add r), n + 1) := by
  by_cases hn : fails n = true
  · obtain ⟨e, he⟩ := hdb.of_fails i t hn
    rw [he, if_pos hn]
  · rw [if_neg hn]
    rw [Bool.not_eq_true] at hn
    unfold Sql.Table.add
    cases hinsert : table.insert r with
    | none =>
      obtain ⟨e, he⟩ := hdb.of_none i hplain hn (heffect.trans (congrArg (Option.map _) hinsert))
      rw [he, Option.getD_none, hput]
    | some table' =>
      rw [hdb.of_effect i hplain hn (heffect.trans (congrArg (Option.map _) hinsert)), Option.getD_some]

/-! ### The user -/

/-- The number of statements of `get_user_record`. -/
def userSteps (account : Str) (t : Tables) : ℕ := if (t.users.find? account).isSome then 1 else 3

/-- The tables with a row for the account. -/
def registerUser (account : Str) (t : Tables) : Tables :=
  { t with users := t.users.addAll ((mailaddrPriority account).toList.map fun p => ⟨p, account⟩) }

/-- The id of the account. -/
def userId (account : Str) (t : Tables) : ℕ := ((t.users.find? account).map Prod.fst).getD t.users.nextId

/-- The account has a row with its id. -/
theorem find?_registerUser {account : Str} (haccount : (isValidAmavisdAddress account).isSome)
    (t : Tables) : ∃ row, (registerUser account t).users.find? account = some (userId account t, row) := by
  obtain ⟨priority, hpriority⟩ := exists_mailaddrPriority haccount
  unfold registerUser userId
  rw [hpriority]
  show ∃ row, (t.users.add ⟨priority, account⟩).find? account = _
  rw [Sql.Table.find?_add, if_pos rfl]
  cases t.users.find? account with
  | none => exact ⟨_, rfl⟩
  | some row => exact ⟨row.2, rfl⟩

omit [Unicode] in
theorem userSteps_of_some {account : Str} {t : Tables} {row : ℕ × Address}
    (h : t.users.find? account = some row) : userSteps account t = 1 := by
  unfold userSteps
  rw [h]
  rfl

omit [Unicode] in
theorem userSteps_of_none {account : Str} {t : Tables} (h : t.users.find? account = none) :
    userSteps account t = 3 := by
  unfold userSteps
  rw [h]
  rfl

theorem registerUser_of_some {account : Str} {t : Tables} {row : ℕ × Address}
    (h : t.users.find? account = some row) : registerUser account t = t := by
  have hadd : ∀ priority, t.users.add ⟨priority, account⟩ = t.users := by
    intro priority
    have hne : t.users.find? (⟨priority, account⟩ : Address).email ≠ none := by
      rw [h]
      exact Option.some_ne_none row
    unfold Sql.Table.add
    rw [Sql.Table.insert_eq_none_iff.mpr hne, Option.getD_none]
  unfold registerUser
  cases mailaddrPriority account with
  | none => rfl
  | some priority =>
    show { t with users := t.users.add ⟨priority, account⟩ } = t
    rw [hadd]

section User

variable (hdb : Answers fails execute) {account : Str} (hplain : Sql.isPlain account = true)

include hdb hplain

theorem execute_selectUser (t : Tables) {n : ℕ} (hn : fails n = false) :
    execute (.selectUser account) (t, n) =
      (.ok ((t.users.find? account).map toAddress).toList, (t, n + 1)) :=
  hdb.of_effect (.selectUser account) hplain hn rfl

theorem execute_insertUser {t : Tables} (hnone : t.users.find? account = none) {priority : ℤ}
    (hpriority : mailaddrPriority account = some priority) {n : ℕ} (hn : fails n = false) :
    execute (.insertUser account priority) (t, n) = (.ok [], (registerUser account t, n + 1)) := by
  obtain ⟨users, hinsert⟩ := Sql.Table.exists_insert (r := (⟨priority, account⟩ : Address)) hnone
  have hregister : registerUser account t = { t with users := users } := by
    unfold registerUser
    rw [hpriority]
    show { t with users := (t.users.insert ⟨priority, account⟩).getD t.users } = _
    rw [hinsert, Option.getD_some]
  refine hdb.of_effect (.insertUser account priority) hplain hn ?_
  show (t.users.insert ⟨priority, account⟩).map _ = _
  rw [hinsert, hregister]
  rfl

/-- `get_user_record` without a failure. -/
theorem getUserRecord_of_succeed (haccount : (isValidAmavisdAddress account).isSome) {t : Tables}
    {n : ℕ} (hsucceed : Succeed fails n (userSteps account t)) :
    ∃ user, user.id = userId account t ∧
      getUserRecord execute account (t, n) =
        (.ok user, (registerUser account t, n + userSteps account t)) := by
  obtain ⟨priority, hpriority⟩ := exists_mailaddrPriority haccount
  obtain ⟨row, hrow⟩ := find?_registerUser haccount t
  cases hfind : t.users.find? account with
  | some r =>
    rw [userSteps_of_some hfind] at hsucceed ⊢
    rw [registerUser_of_some hfind, hfind] at hrow
    have hselect := execute_selectUser hdb hplain t (succeed_cons_iff.mp hsucceed).1
    refine ⟨toAddress r, congrArg Prod.fst (Option.some.inj hrow), ?_⟩
    unfold getUserRecord
    rw [hselect, hfind, registerUser_of_some hfind]
    rfl
  | none =>
    rw [userSteps_of_none hfind] at hsucceed ⊢
    have hcreate := execute_insertUser hdb hplain hfind hpriority (hsucceed 1 (by decide))
    have hagain := execute_selectUser hdb hplain (registerUser account t) (hsucceed 2 (by decide))
    have hselect := execute_selectUser hdb hplain t (succeed_cons_iff.mp hsucceed).1
    refine ⟨toAddress (userId account t, row), rfl, ?_⟩
    unfold getUserRecord createUser
    rw [hselect, hfind]
    simp only [Option.map_none, Option.toList_none, hpriority, hcreate, hagain, hrow]
    rfl

/-- `get_user_record` with a failure. -/
theorem getUserRecord_of_fails (haccount : (isValidAmavisdAddress account).isSome) {t : Tables} {n : ℕ}
    (hfails : ¬Succeed fails n (userSteps account t)) :
    ∃ e t' m, getUserRecord execute account (t, n) = (.error e, (t', m)) ∧ t'.wblist = t.wblist ∧
      t'.outboundWblist = t.outboundWblist := by
  obtain ⟨priority, hpriority⟩ := exists_mailaddrPriority haccount
  by_cases hfirst : fails n = true
  · obtain ⟨e, he⟩ := hdb.of_fails (.selectUser account) t hfirst
    refine ⟨e, t, n + 1, ?_, rfl, rfl⟩
    unfold getUserRecord
    rw [he]
  rw [Bool.not_eq_true] at hfirst
  have hselect := execute_selectUser hdb hplain t hfirst
  cases hfind : t.users.find? account with
  | some row =>
    rw [userSteps_of_some hfind, succeed_cons_iff] at hfails
    exact absurd ⟨hfirst, succeed_zero (n + 1)⟩ hfails
  | none =>
    by_cases hsecond : fails (n + 1) = true
    · obtain ⟨e, he⟩ := hdb.of_fails (.insertUser account priority) t hsecond
      refine ⟨e, t, n + 1 + 1, ?_, rfl, rfl⟩
      unfold getUserRecord createUser
      rw [hselect, hfind]
      simp only [Option.map_none, Option.toList_none, hpriority, he]
    · rw [Bool.not_eq_true] at hsecond
      have hcreate := execute_insertUser hdb hplain hfind hpriority hsecond
      have hthird : fails (n + 1 + 1) = true := by
        rw [userSteps_of_none hfind, succeed_cons_iff, succeed_cons_iff] at hfails
        exact fails_of_not_succeed_one fun h => hfails ⟨hfirst, hsecond, h⟩
      obtain ⟨e, he⟩ := hdb.of_fails (.selectUser account) (registerUser account t) hthird
      refine ⟨e, registerUser account t, n + 1 + 1 + 1, ?_, rfl, rfl⟩
      unfold getUserRecord createUser
      rw [hselect, hfind]
      simp only [Option.map_none, Option.toList_none, hpriority, hcreate, he]

end User

/-! ### The old rows -/

/-- The tables without the rows of an account. -/
def flushed (userId : ℕ) (t : Tables) : Tables :=
  { t with
    wblist := t.wblist.delete fun row => row.2.rid = userId
    outboundWblist := t.outboundWblist.delete fun row => row.2.sid = userId }

section Flush

variable (hdb : Answers fails execute)

include hdb

theorem flush_of_succeed (userId : ℕ) (t : Tables) {n : ℕ} (hsucceed : Succeed fails n 2) :
    flush execute userId (t, n) = (.ok (), (flushed userId t, n + 2)) := by
  rw [succeed_cons_iff, succeed_cons_iff] at hsucceed
  obtain ⟨hfirst, hsecond, -⟩ := hsucceed
  have hinbound := hdb.of_effect (.flushWblist userId) trivial hfirst
    (t := t) rfl
  have houtbound := hdb.of_effect (.flushOutboundWblist userId) trivial hsecond
    (t := { t with wblist := t.wblist.delete fun row => row.2.rid = userId }) rfl
  unfold flush
  simp only [hinbound, houtbound]
  rfl

theorem flush_of_fails (userId : ℕ) (t : Tables) {n : ℕ} (hfails : ¬Succeed fails n 2) :
    ∃ e s, flush execute userId (t, n) = (.error e, s) := by
  by_cases hfirst : fails n = true
  · obtain ⟨e, he⟩ := hdb.of_fails (.flushWblist userId) t hfirst
    refine ⟨.operationalError, (t, n + 1), ?_⟩
    unfold flush
    rw [he]
  · rw [Bool.not_eq_true] at hfirst
    have hsecond : fails (n + 1) = true := by
      rw [succeed_cons_iff] at hfails
      exact fails_of_not_succeed_one fun h => hfails ⟨hfirst, h⟩
    have hinbound := hdb.of_effect (.flushWblist userId) trivial hfirst
      (t := t) rfl
    obtain ⟨e, he⟩ := hdb.of_fails (.flushOutboundWblist userId)
      { t with wblist := t.wblist.delete fun row => row.2.rid = userId } hsecond
    refine ⟨.operationalError,
      ({ t with wblist := t.wblist.delete fun row => row.2.rid = userId }, n + 1 + 1), ?_⟩
    unfold flush
    simp only [hinbound, he]

end Flush

/-! ### The addresses -/

/-- The rows `create_mailaddr` inserts. -/
def entries (addresses : List Str) : List Address :=
  addresses.filterMap fun a => (mailaddrPriority a).map fun p => ⟨p, a⟩

theorem createMailaddr_eq (hdb : Answers fails execute) {addresses : List Str}
    (hquotable : ∀ a ∈ addresses, isQuotable a = true) (t : Tables) (n : ℕ) :
    createMailaddr execute addresses (t, n) =
      ({ t with mailaddr := t.mailaddr.addAll (succeeding fails n (entries addresses)) },
        n + (entries addresses).length) := by
  induction addresses generalizing t n with
  | nil => rfl
  | cons a addresses ih =>
    have hrest := ih fun b hb => hquotable b (List.mem_cons_of_mem a hb)
    cases hpriority : mailaddrPriority a with
    | none =>
      have hentries : entries (a :: addresses) = entries addresses := by
        unfold entries
        rw [List.filterMap_cons, hpriority]
        rfl
      unfold createMailaddr
      rw [hpriority, hentries]
      exact hrest t n
    | some priority =>
      have hentries : entries (a :: addresses) = ⟨priority, a⟩ :: entries addresses := by
        unfold entries
        rw [List.filterMap_cons, hpriority]
        rfl
      have hstep := execute_insert hdb (i := .insertMailaddr a priority) (t := t)
        (hquotable a List.mem_cons_self) (fun m => { t with mailaddr := m }) rfl rfl n
      unfold createMailaddr
      rw [hpriority, hentries, List.length_cons, succeeding_cons]
      simp only [hstep, hrest]
      split_ifs
      · rw [Nat.add_assoc, Nat.add_comm 1]
      · rw [Nat.add_assoc, Nat.add_comm 1]
        rfl

/-- The id of an address. -/
def idOf (t : Tables) (address : Str) : Option ℕ := (t.mailaddr.find? address).map Prod.fst

omit [Unicode] in
/-- An id has one address. -/
theorem eq_of_idOf {t : Tables} {a b : Str} {id : ℕ} (ha : idOf t a = some id)
    (hb : idOf t b = some id) : a = b := by
  obtain ⟨row, hrow, rfl⟩ := Option.map_eq_some_iff.mp ha
  obtain ⟨row', hrow', hid⟩ := Option.map_eq_some_iff.mp hb
  obtain ⟨hmem, rfl⟩ := Sql.Table.find?_eq_some_iff.mp hrow
  obtain ⟨hmem', rfl⟩ := Sql.Table.find?_eq_some_iff.mp hrow'
  rw [t.mailaddr.eq_of_id_eq hmem hmem' hid.symm]

omit [Unicode] in
theorem idOf_pos {t : Tables} {a : Str} {id : ℕ} (ha : idOf t a = some id) : 0 < id := by
  obtain ⟨row, hrow, rfl⟩ := Option.map_eq_some_iff.mp ha
  exact t.mailaddr.id_pos row (Sql.Table.find?_eq_some_iff.mp hrow).1

/-- The dictionary of the ids of some addresses. -/
def recordsOf (addresses : List Str) (t : Tables) : Dict Str ℕ :=
  ((t.mailaddr.rows.filter fun row => addresses.contains row.2.email).map toAddress).foldl
    (fun d r => d.set r.email r.id) []

omit [Unicode] in
theorem get?_foldl_set {rows : List AmavisdAddress} (hnodup : (rows.map (·.email)).Nodup)
    (d : Dict Str ℕ) (a : Str) : Dict.get? (rows.foldl (fun d r => d.set r.email r.id) d) a =
      ((rows.find? fun r => r.email = a).map (·.id)).or (d.get? a) := by
  induction rows generalizing d with
  | nil => rfl
  | cons r rows ih =>
    obtain ⟨hr, hrows⟩ := List.nodup_cons.mp hnodup
    rw [List.foldl_cons, ih hrows, Dict.get?_set]
    by_cases ha : r.email = a
    · have hnone : rows.find? (fun r' => r'.email = a) = none := by
        rw [List.find?_eq_none]
        intro r' hr' heq
        exact hr (List.mem_map.mpr ⟨r', hr', (of_decide_eq_true heq).trans ha.symm⟩)
      rw [if_pos ha, hnone, List.find?_cons_of_pos (by simpa using ha)]
      rfl
    · rw [if_neg ha, List.find?_cons_of_neg (by simpa using ha)]

omit [Unicode] in
theorem get?_recordsOf (addresses : List Str) (t : Tables) (a : Str) :
    (recordsOf addresses t).get? a = if a ∈ addresses then idOf t a else none := by
  have hnodup : (((t.mailaddr.rows.filter fun row => addresses.contains row.2.email).map toAddress).map
      (·.email)).Nodup := by
    rw [List.map_map]
    exact t.mailaddr.key_nodup.sublist (List.filter_sublist.map _)
  unfold recordsOf
  rw [get?_foldl_set hnodup, Dict.get?_nil, Option.or_none, List.find?_map, List.find?_filter]
  split_ifs with ha
  · have hsame : (fun row : ℕ × Address => decide (addresses.contains row.2.email = true ∧
        ((fun r : AmavisdAddress => decide (r.email = a)) ∘ toAddress) row = true)) =
        fun row => decide (row.2.email = a) := by
      funext row
      rw [decide_eq_decide, Function.comp_apply, decide_eq_true_iff, List.contains_iff_mem]
      constructor
      · exact fun h => h.2
      · intro heq
        rw [heq]
        exact ⟨ha, heq⟩
    rw [hsame]
    unfold idOf Sql.Table.find?
    rw [Option.map_map]
    rfl
  · have hnone : t.mailaddr.rows.find? (fun row => decide (addresses.contains row.2.email = true ∧
        ((fun r : AmavisdAddress => decide (r.email = a)) ∘ toAddress) row = true)) = none := by
      rw [List.find?_eq_none]
      intro row _ hrow
      obtain ⟨hmem, heq⟩ := of_decide_eq_true hrow
      have heq' : row.2.email = a := of_decide_eq_true heq
      rw [heq', List.contains_iff_mem] at hmem
      exact ha hmem
    rw [hnone]
    rfl

omit [Unicode] in
/-- The ids of the dictionary. -/
theorem mem_ids_recordsOf {addresses : List Str} {t : Tables} {id : ℕ} :
    id ∈ (recordsOf addresses t).map Prod.snd ↔ ∃ a ∈ addresses, idOf t a = some id := by
  have hnodup : ((recordsOf addresses t).map Prod.fst).Nodup := by
    have hfold : ∀ (rows : List AmavisdAddress) (d : Dict Str ℕ), (d.map Prod.fst).Nodup →
        ((rows.foldl (fun d r => d.set r.email r.id) d).map Prod.fst).Nodup := by
      intro rows
      induction rows with
      | nil => exact fun d hd => hd
      | cons r rows ih => exact fun d hd => ih _ (Dict.nodup_keys_set hd r.email r.id)
    exact hfold _ [] List.nodup_nil
  have hmem : ∀ a, (a, id) ∈ recordsOf addresses t ↔ a ∈ addresses ∧ idOf t a = some id := by
    intro a
    rw [← Dict.get?_eq_some_iff hnodup, get?_recordsOf]
    split_ifs with ha
    · exact (and_iff_right ha).symm
    · exact iff_of_false (by simp) fun h => ha h.1
  rw [List.mem_map]
  constructor
  · rintro ⟨⟨a, id'⟩, hp, rfl⟩
    exact ⟨a, (hmem a).mp hp⟩
  · rintro ⟨a, ha⟩
    exact ⟨(a, id), (hmem a).mpr ha, rfl⟩

omit [Unicode] in
theorem recordsOf_eq_nil_iff {addresses : List Str} {t : Tables} :
    recordsOf addresses t = [] ↔ ∀ a ∈ addresses, idOf t a = none := by
  constructor
  · intro h a ha
    have hget := get?_recordsOf addresses t a
    rw [h, if_pos ha] at hget
    exact hget.symm
  · intro h
    refine Dict.eq_nil_of_get? fun a => ?_
    rw [get?_recordsOf]
    split_ifs with ha
    · exact h a ha
    · rfl

/-- The number of statements a list needs. -/
def stepsFor {α : Type*} (l : List α) : ℕ := if l.isEmpty then 0 else 1

section Records

variable (hdb : Answers fails execute) {addresses : List Str}
  (hquotable : ∀ a ∈ addresses, isQuotable a = true)

include hdb

include hquotable in
theorem mailaddrRecords_of_succeed (t : Tables) {n : ℕ}
    (hsucceed : Succeed fails n (stepsFor addresses)) :
    mailaddrRecords execute addresses (t, n) =
      (.ok (recordsOf addresses t), (t, n + stepsFor addresses)) := by
  unfold mailaddrRecords stepsFor at *
  by_cases hempty : addresses.isEmpty = true
  · rw [if_pos hempty, if_pos hempty, recordsOf_eq_nil_iff.mpr]
    · rfl
    · rw [List.isEmpty_iff.mp hempty]
      exact fun a ha => absurd ha List.not_mem_nil
  · rw [if_neg hempty] at hsucceed ⊢
    rw [if_neg hempty, hdb.of_effect (.selectMailaddr addresses) hquotable
      (succeed_cons_iff.mp hsucceed).1 rfl]
    rfl

theorem mailaddrRecords_of_fails (t : Tables) {n : ℕ}
    (hfails : ¬Succeed fails n (stepsFor addresses)) :
    ∃ e s, mailaddrRecords execute addresses (t, n) = (.error e, s) := by
  unfold mailaddrRecords stepsFor at *
  by_cases hempty : addresses.isEmpty = true
  · rw [if_pos hempty] at hfails
    exact absurd (succeed_zero n) hfails
  · rw [if_neg hempty] at hfails
    have hn : fails n = true := fails_of_not_succeed_one hfails
    obtain ⟨e, he⟩ := hdb.of_fails (.selectMailaddr addresses) t hn
    refine ⟨.operationalError, (t, n + 1), ?_⟩
    rw [if_neg hempty, he]

end Records

/-! ### The rows of the submitted addresses -/

/-- The tables without the rows of an account with some ids. -/
def deletedInbound (userId : ℕ) (ids : List ℕ) (t : Tables) : Tables :=
  { t with wblist := t.wblist.delete fun row => row.2.rid = userId && ids.contains row.2.sid }

def deletedOutbound (userId : ℕ) (ids : List ℕ) (t : Tables) : Tables :=
  { t with
    outboundWblist :=
      t.outboundWblist.delete fun row => row.2.sid = userId && ids.contains row.2.rid }

section Delete

variable (hdb : Answers fails execute) (userId : ℕ) (senders rcpts : Dict Str ℕ) (t : Tables)

omit [Unicode] in
theorem deletedInbound_nil : deletedInbound userId [] t = t := by
  have hsame : t.wblist.delete (fun row => row.2.rid = userId && [].contains row.2.sid) = t.wblist :=
    Sql.Table.delete_eq_self fun row _ => Bool.and_false _
  unfold deletedInbound
  rw [hsame]

omit [Unicode] in
theorem deletedOutbound_nil : deletedOutbound userId [] t = t := by
  have hsame : t.outboundWblist.delete (fun row => row.2.sid = userId && [].contains row.2.rid) =
      t.outboundWblist := Sql.Table.delete_eq_self fun row _ => Bool.and_false _
  unfold deletedOutbound
  rw [hsame]

include hdb

/-- The first of the two statements. -/
theorem deleteOld_inbound {n : ℕ} (hinbound : Succeed fails n (stepsFor senders)) :
    (if senders.isEmpty then (.ok [], (t, n))
      else execute (.deleteWblist userId (senders.map Prod.snd)) (t, n)) =
      (.ok [], (deletedInbound userId (senders.map Prod.snd) t, n + stepsFor senders)) := by
  unfold stepsFor at *
  by_cases hempty : senders.isEmpty = true
  · rw [if_pos hempty, if_pos hempty, List.isEmpty_iff.mp hempty, List.map_nil, deletedInbound_nil]
    rfl
  · rw [if_neg hempty] at hinbound
    rw [if_neg hempty, if_neg hempty,
      hdb.of_effect (.deleteWblist userId (senders.map Prod.snd)) trivial (succeed_cons_iff.mp hinbound).1
        rfl]
    rfl

theorem deleteOld_of_succeed {n : ℕ} (hinbound : Succeed fails n (stepsFor senders))
    (houtbound : Succeed fails (n + stepsFor senders) (stepsFor rcpts)) :
    deleteOld execute userId senders rcpts (t, n) =
      (.ok (), (deletedOutbound userId (rcpts.map Prod.snd)
          (deletedInbound userId (senders.map Prod.snd) t),
        n + stepsFor senders + stepsFor rcpts)) := by
  unfold deleteOld
  rw [deleteOld_inbound hdb userId senders t hinbound]
  simp only
  by_cases hempty : rcpts.isEmpty = true
  · rw [if_pos hempty, List.isEmpty_iff.mp hempty, List.map_nil, deletedOutbound_nil]
    rfl
  · have hsteps : stepsFor rcpts = 1 := if_neg hempty
    rw [hsteps] at houtbound
    rw [if_neg hempty, hsteps, hdb.of_effect (.deleteOutboundWblist userId (rcpts.map Prod.snd)) trivial
      (succeed_cons_iff.mp houtbound).1 rfl]
    rfl

/-- The first statement fails. -/
theorem deleteOld_of_fails_inbound {n : ℕ} (hfails : ¬Succeed fails n (stepsFor senders)) :
    ∃ e, deleteOld execute userId senders rcpts (t, n) = (.error e, (t, n + 1)) := by
  unfold stepsFor at hfails
  by_cases hempty : senders.isEmpty = true
  · rw [if_pos hempty] at hfails
    exact absurd (succeed_zero n) hfails
  · rw [if_neg hempty] at hfails
    have hn : fails n = true := fails_of_not_succeed_one hfails
    obtain ⟨e, he⟩ := hdb.of_fails (.deleteWblist userId (senders.map Prod.snd)) t hn
    refine ⟨e, ?_⟩
    unfold deleteOld
    rw [if_neg hempty, he]

/-- The second statement fails. -/
theorem deleteOld_of_fails_outbound {n : ℕ} (hinbound : Succeed fails n (stepsFor senders))
    (hfails : ¬Succeed fails (n + stepsFor senders) (stepsFor rcpts)) :
    ∃ e m, deleteOld execute userId senders rcpts (t, n) =
      (.error e, (deletedInbound userId (senders.map Prod.snd) t, m)) := by
  have hempty : ¬rcpts.isEmpty = true := by
    intro hempty
    have hsteps : stepsFor rcpts = 0 := if_pos hempty
    rw [hsteps] at hfails
    exact hfails (succeed_zero _)
  have hsteps : stepsFor rcpts = 1 := if_neg hempty
  rw [hsteps] at hfails
  have hn : fails (n + stepsFor senders) = true := fails_of_not_succeed_one hfails
  obtain ⟨e, he⟩ := hdb.of_fails (.deleteOutboundWblist userId (rcpts.map Prod.snd))
    (deletedInbound userId (senders.map Prod.snd) t) hn
  refine ⟨e, n + stepsFor senders + 1, ?_⟩
  unfold deleteOld
  rw [deleteOld_inbound hdb userId senders t hinbound]
  simp only
  rw [if_neg hempty, he]

end Delete

/-! ### The new rows -/

section Insert

variable (hdb : Answers fails execute)

include hdb

theorem insertRows_inbound {rows : List Wblist} (hquotable : ∀ row ∈ rows, isQuotable row.wb = true)
    (t : Tables) (n : ℕ) : insertRows execute .insertWblist rows (t, n) =
      ({ t with wblist := t.wblist.addAll (succeeding fails n rows) }, n + rows.length) := by
  induction rows generalizing t n with
  | nil => rfl
  | cons row rows ih =>
    have hrest := ih fun r hr => hquotable r (List.mem_cons_of_mem row hr)
    have hstep := execute_insert hdb (i := .insertWblist row) (t := t) (hquotable row List.mem_cons_self)
      (fun l => { t with wblist := l }) rfl rfl n
    unfold insertRows
    rw [hstep, succeeding_cons, List.length_cons, hrest]
    split_ifs
    · rw [Nat.add_assoc, Nat.add_comm 1]
    · rw [Nat.add_assoc, Nat.add_comm 1]
      rfl

theorem insertRows_outbound {rows : List Wblist} (hquotable : ∀ row ∈ rows, isQuotable row.wb = true)
    (t : Tables) (n : ℕ) : insertRows execute .insertOutboundWblist rows (t, n) =
      ({ t with outboundWblist := t.outboundWblist.addAll (succeeding fails n rows) },
        n + rows.length) := by
  induction rows generalizing t n with
  | nil => rfl
  | cons row rows ih =>
    have hrest := ih fun r hr => hquotable r (List.mem_cons_of_mem row hr)
    have hstep := execute_insert hdb (i := .insertOutboundWblist row) (t := t)
      (hquotable row List.mem_cons_self) (fun l => { t with outboundWblist := l }) rfl rfl n
    unfold insertRows
    rw [hstep, succeeding_cons, List.length_cons, hrest]
    split_ifs
    · rw [Nat.add_assoc, Nat.add_comm 1]
    · rw [Nat.add_assoc, Nat.add_comm 1]
      rfl

end Insert

end IRedAPD.LibWblist

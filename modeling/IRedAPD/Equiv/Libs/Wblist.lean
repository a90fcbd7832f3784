/-
  What `add_wblist` stores of one blacklisted sender.

  On a faithful database without rows it leaves a user, an entry and a row for
  them (`addWblist_blacklist`).  A database that passes over other statements
  leaves less, without an error (`addWblist_lenient`).
-/
import IRedAPD.Equiv.Sqlquote
import IRedAPD.Libs.Wblist

namespace IRedAPD.LibWblist

open Py

variable [Unicode]

/-! ### Statements -/

/-- `bl_senders` for one text. -/
theorem normalize_singleton (sets : SetOrder Str) (s : Str) :
    normalize sets [s] = if (isValidAmavisdAddress s).isSome then [Unicode.lower s] else [] := by
  unfold normalize
  rw [List.filter_cons, List.filter_nil]
  split_ifs
  · exact sets.order_singleton _
  · exact sets.order_nil

theorem normalize_nil (sets : SetOrder Str) : normalize sets [] = [] := by
  unfold normalize
  rw [List.filter_nil, List.map_nil, SetOrder.order_nil]

/-- Every type has a priority. -/
theorem exists_mailaddrPriority {addr : Str} (h : (isValidAmavisdAddress addr).isSome) :
    ∃ priority, mailaddrPriority addr = some priority := by
  unfold mailaddrPriority
  obtain ⟨t, ht⟩ := Option.isSome_iff_exists.mp h
  rw [ht, Option.bind_some]
  cases t <;> exact ⟨_, rfl⟩

section Add

variable {σ : Type*} {execute : Execute σ}

/-- `add_wblist` for one blacklisted sender. -/
theorem addWblist_singleton (sets : SetOrder Str) {account : Str}
    (haccount : (isValidAmavisdAddress account).isSome) (sender : Str) (w : σ) :
    addWblist execute sets account { blSenders := [sender] } w =
      match getUserRecord execute account w with
      | (.error e, w) => (.ok (.error e), w)
      | (.ok user, w) =>
        if (isValidAmavisdAddress sender).isSome then
          importWblist execute user.id sets [] [Unicode.lower sender] [] [] w
        else (.ok (.ok ()), w) := by
  unfold addWblist
  rw [if_neg (by simpa using Option.isSome_iff_ne_none.mp haccount)]
  simp only [normalize_nil, normalize_singleton, Bool.false_eq_true, if_false, List.nil_append,
    List.append_nil]
  rcases getUserRecord execute account w with ⟨e | user, w⟩
  · rfl
  · by_cases hsender : (isValidAmavisdAddress sender).isSome = true
    · simp only [if_pos hsender]
      rfl
    · simp only [if_neg hsender]
      rfl

end Add

/-! ### A faithful database -/

section Faithful

variable {execute : Execute Tables}

omit [Unicode] in
/-- An insert into a table without rows. -/
theorem exists_insert_of_empty {ρ κ : Type*} {key : ρ → κ} [DecidableEq κ] {t : Sql.Table key}
    (h : t.rows = []) (r : ρ) : ∃ t', t.insert r = some t' ∧ t'.rows = [(t.nextId, r)] := by
  obtain ⟨t', ht'⟩ := Sql.Table.exists_insert (Sql.Table.find?_of_rows_eq_nil h (key r))
  refine ⟨t', ht', ?_⟩
  rw [Sql.Table.rows_insert ht', h, List.nil_append]

/-- A user that is missing is created. -/
theorem getUserRecord_of_missing (hexec : Faithful execute) {account : Str}
    (hplain : Sql.isPlain account = true) {priority : ℤ}
    (hpriority : mailaddrPriority account = some priority) {t : Tables} (hempty : t.users.rows = []) :
    ∃ users, users.rows = [(t.users.nextId, ⟨priority, account⟩)] ∧
      getUserRecord execute account t =
        (.ok ⟨t.users.nextId, priority, account⟩, { t with users := users }) := by
  obtain ⟨users, hinsert, hrows⟩ := exists_insert_of_empty hempty (⟨priority, account⟩ : Address)
  refine ⟨users, hrows, ?_⟩
  have hnone : t.users.find? account = none := Sql.Table.find?_of_rows_eq_nil hempty account
  have hsome : users.find? account = some (t.users.nextId, ⟨priority, account⟩) :=
    Sql.Table.find?_eq_some_iff.mpr ⟨by rw [hrows]; exact List.mem_singleton_self _, rfl⟩
  have hselect : execute (.selectUser account) t = (.ok [], t) := by
    refine hexec.of_effect (.selectUser account) hplain ?_
    show some (((t.users.find? account).map toAddress).toList, t) = _
    rw [hnone]
    rfl
  have hcreate : execute (.insertUser account priority) t = (.ok [], { t with users := users }) := by
    refine hexec.of_effect (.insertUser account priority) hplain ?_
    show (t.users.insert ⟨priority, account⟩).map _ = _
    rw [hinsert]
    rfl
  have hagain : execute (.selectUser account) { t with users := users } =
      (.ok [⟨t.users.nextId, priority, account⟩], { t with users := users }) := by
    refine hexec.of_effect (.selectUser account) hplain ?_
    show some (((users.find? account).map toAddress).toList, _) = _
    rw [hsome]
    rfl
  unfold getUserRecord createUser
  simp only [hselect, hpriority, hcreate, hagain, List.head?_cons]

omit [Unicode] in
/-- `values` of one blacklisted sender. -/
theorem values_blacklist {s : Str} {sid : ℕ} (hsid : sid ≠ 0) :
    values [(s, sid)] [] [s] = [(sid, "B".toList)] := by
  have hrecord : recordOf [(s, sid)] s = some sid := by
    unfold recordOf Dict.get?
    rw [if_pos rfl, Option.filter_some_pos (by simpa using hsid)]
  unfold values
  simp [hrecord]

theorem isQuotable_B : isQuotable "B".toList = true := by
  unfold isQuotable
  rw [Bool.and_eq_true]
  refine ⟨rfl, ?_⟩
  simp [Unicode.isPrintable_ascii 'B' (by decide)]

/-- `create_mailaddr` and `sender_records` of one sender, on a table without rows. -/
theorem createMailaddr_of_missing (hexec : Faithful execute) {s : Str} {priority : ℤ}
    (hpriority : mailaddrPriority s = some priority) (hquotable : isQuotable s = true) {t : Tables}
    (hempty : t.mailaddr.rows = []) :
    ∃ mailaddr, mailaddr.rows = [(t.mailaddr.nextId, ⟨priority, s⟩)] ∧
      createMailaddr execute [s] t = { t with mailaddr := mailaddr } ∧
      mailaddrRecords execute [s] { t with mailaddr := mailaddr } =
        (.ok [(s, t.mailaddr.nextId)], { t with mailaddr := mailaddr }) := by
  obtain ⟨mailaddr, hinsert, hrows⟩ := exists_insert_of_empty hempty (⟨priority, s⟩ : Address)
  have hquotables : ∀ email ∈ [s], isQuotable email = true := by
    intro email hemail
    rw [List.mem_singleton.mp hemail]
    exact hquotable
  have hexecInsert : execute (.insertMailaddr s priority) t =
      (.ok [], { t with mailaddr := mailaddr }) := by
    refine hexec.of_effect (.insertMailaddr s priority) hquotable ?_
    show (t.mailaddr.insert ⟨priority, s⟩).map _ = _
    rw [hinsert]
    rfl
  have hselect : execute (.selectMailaddr [s]) { t with mailaddr := mailaddr } =
      (.ok [⟨t.mailaddr.nextId, priority, s⟩], { t with mailaddr := mailaddr }) := by
    refine hexec.of_effect (.selectMailaddr [s]) hquotables ?_
    show some ((mailaddr.rows.filter _).map toAddress, _) = _
    rw [hrows, List.filter_cons_of_pos (by simp)]
    rfl
  refine ⟨mailaddr, hrows, ?_, ?_⟩
  · unfold createMailaddr
    simp only [hpriority, hexecInsert]
    rfl
  · unfold mailaddrRecords
    rw [if_neg (by simp), hselect]
    rfl

/-- The old rows are deleted and a new one inserted, on a table without rows. -/
theorem replaceRow_of_empty (hexec : Faithful execute) (s : Str) (userId sid : ℕ) {t : Tables}
    (hempty : t.wblist.rows = []) :
    ∃ t₁ t₂, deleteOld execute userId [(s, sid)] [] t = (.ok (), t₁) ∧
      execute (.insertWblist ⟨userId, sid, "B"⟩) t₁ = (.ok [], t₂) ∧ t₂.users = t.users ∧
      t₂.mailaddr = t.mailaddr ∧ t₂.wblist.rows.map Prod.snd = [⟨userId, sid, "B"⟩] := by
  set deleted := t.wblist.delete fun row => row.2.rid = userId && [sid].contains row.2.sid
  have hdeletedRows : deleted.rows = [] := by
    refine List.eq_nil_iff_forall_not_mem.mpr fun row hrow => ?_
    have hmem := (Sql.Table.mem_rows_delete.mp hrow).1
    rw [hempty] at hmem
    cases hmem
  obtain ⟨wblist, hinsert, hrows⟩ := exists_insert_of_empty hdeletedRows (⟨userId, sid, "B"⟩ : Wblist)
  have hdelete : execute (.deleteWblist userId [sid]) t = (.ok [], { t with wblist := deleted }) :=
    hexec.of_effect (.deleteWblist userId [sid]) trivial rfl
  refine ⟨{ t with wblist := deleted }, { t with wblist := wblist }, ?_, ?_, rfl, rfl, ?_⟩
  · unfold deleteOld
    simp only [List.isEmpty_cons, List.isEmpty_nil, Bool.false_eq_true, if_false, if_true,
      List.map_cons, List.map_nil, hdelete]
  · refine hexec.of_effect (.insertWblist ⟨userId, sid, "B"⟩) isQuotable_B ?_
    show (deleted.insert ⟨userId, sid, "B"⟩).map _ = _
    rw [hinsert]
    rfl
  · show wblist.rows.map Prod.snd = _
    rw [hrows]
    rfl

/-- **A blacklisted sender is stored with a row for it**, on a database without rows. -/
theorem addWblist_blacklist (hexec : Faithful execute) (sets : SetOrder Str) {account sender : Str}
    (haccount : (isValidAmavisdAddress account).isSome) (hplain : Sql.isPlain account = true)
    (hsender : (isValidAmavisdAddress sender).isSome)
    (hlower : (isValidAmavisdAddress (Unicode.lower sender)).isSome)
    (hquotable : isQuotable (Unicode.lower sender) = true) {t : Tables} (husers : t.users.rows = [])
    (hmailaddr : t.mailaddr.rows = []) (hwblist : t.wblist.rows = []) :
    ∃ t' priority priority',
      addWblist execute sets account { blSenders := [sender] } t = (.ok (.ok ()), t') ∧
      t'.users.rows = [(t.users.nextId, ⟨priority, account⟩)] ∧
      t'.mailaddr.rows = [(t.mailaddr.nextId, ⟨priority', Unicode.lower sender⟩)] ∧
      t'.wblist.rows.map Prod.snd = [⟨t.users.nextId, t.mailaddr.nextId, "B"⟩] := by
  obtain ⟨priority, hpriority⟩ := exists_mailaddrPriority haccount
  obtain ⟨priority', hpriority'⟩ := exists_mailaddrPriority hlower
  -- the user, the entry and the row, one after another
  obtain ⟨users, husersRows, huser⟩ := getUserRecord_of_missing hexec hplain hpriority husers
  set t₁ : Tables := { t with users := users }
  obtain ⟨mailaddr, hmailaddrRows, hcreate, hrecords⟩ :=
    createMailaddr_of_missing hexec hpriority' hquotable (t := t₁) hmailaddr
  set t₂ : Tables := { t₁ with mailaddr := mailaddr }
  obtain ⟨t₃, t₄, hdelete, hinsert, husers₄, hmailaddr₄, hwblistRows⟩ :=
    replaceRow_of_empty hexec (Unicode.lower sender) t.users.nextId t₁.mailaddr.nextId (t := t₂) hwblist
  refine ⟨t₄, priority, priority', ?_, ?_, ?_, hwblistRows⟩
  · rw [addWblist_singleton sets haccount, huser]
    simp only [if_pos hsender]
    have hvalues : values [(Unicode.lower sender, t₁.mailaddr.nextId)] [] [Unicode.lower sender] =
        [(t₁.mailaddr.nextId, "B".toList)] := values_blacklist t.mailaddr.nextId_pos.ne'
    have hnone : values [] [] [] = [] := rfl
    unfold importWblist
    simp only [List.nil_append, List.append_nil, SetOrder.order_singleton, SetOrder.order_nil, hcreate,
      hrecords]
    simp only [mailaddrRecords, List.isEmpty_nil, if_true, hdelete, hvalues, hnone, List.map_cons,
      List.map_nil, insertRows, hinsert]
  · rw [husers₄]
    exact husersRows
  · rw [hmailaddr₄]
    exact hmailaddrRows

end Faithful

/-! ### A database that passes over statements -/

instance (i : Statement) : Decidable i.IsPlain :=
  match i with
  | .insertUser account _ | .selectUser account =>
    inferInstanceAs (Decidable (Sql.isPlain account = true))
  | .insertMailaddr email _ => inferInstanceAs (Decidable (isQuotable email = true))
  | .selectMailaddr emails => inferInstanceAs (Decidable (∀ email ∈ emails, isQuotable email = true))
  | .insertWblist row | .insertOutboundWblist row =>
    inferInstanceAs (Decidable (isQuotable row.wb = true))
  | .flushWblist _ | .flushOutboundWblist _ | .deleteWblist _ _ | .deleteOutboundWblist _ _
  | .deleteWblistWb _ _ _ | .deleteOutboundWblistWb _ _ _ => inferInstanceAs (Decidable True)

/-- A database where every other statement selects a row and does nothing. -/
def lenient : Execute Tables := fun i t =>
  if i.IsPlain then
    match effect i t with
    | some (rows, t') => (.ok rows, t')
    | none => (.error "duplicate key".toList, t)
  else (.ok [⟨1, 0, []⟩], t)

theorem faithful_lenient : Faithful lenient where
  of_effect i hi t rows t' heffect := by
    unfold lenient
    rw [if_pos hi, heffect]
  of_none i hi t heffect := by
    unfold lenient
    rw [if_pos hi, heffect]
    exact ⟨_, rfl⟩

/-- It leaves the tables, or does what a plain statement says. -/
theorem lenient_cases (i : Statement) (t : Tables) : (lenient i t).2 = t ∨
    ∃ rows t', i.IsPlain ∧ effect i t = some (rows, t') ∧ (lenient i t).2 = t' := by
  unfold lenient
  by_cases hplain : i.IsPlain
  · rw [if_pos hplain]
    cases heffect : effect i t with
    | none => exact .inl rfl
    | some r => exact .inr ⟨r.1, r.2, hplain, rfl, rfl⟩
  · rw [if_neg hplain]
    exact .inl rfl

/-- The addresses are the same. -/
def SameAddresses (t t' : Tables) : Prop := t'.users = t.users ∧ t'.mailaddr = t.mailaddr

theorem lenient_selectMailaddr (emails : List Str) (t : Tables) :
    ∃ rows, lenient (.selectMailaddr emails) t = (.ok rows, t) := by
  unfold lenient
  split_ifs <;> exact ⟨_, rfl⟩

theorem lenient_deleteWblist (rid : ℕ) (sids : List ℕ) (t : Tables) :
    ∃ t', lenient (.deleteWblist rid sids) t = (.ok [], t') ∧ SameAddresses t t' :=
  ⟨_, if_pos trivial, rfl, rfl⟩

theorem lenient_insertWblist (row : Wblist) (t : Tables) :
    SameAddresses t (lenient (.insertWblist row) t).2 := by
  rcases lenient_cases (.insertWblist row) t with hsame | ⟨rows, t', -, heffect, ht'⟩
  · rw [hsame]
    exact ⟨rfl, rfl⟩
  · obtain ⟨w, -, heq⟩ := Option.map_eq_some_iff.mp heffect
    rw [ht', ← (Prod.mk.inj heq).2]
    exact ⟨rfl, rfl⟩

theorem lenient_insertRows (rows : List Wblist) (t : Tables) :
    SameAddresses t (insertRows lenient .insertWblist rows t) := by
  induction rows generalizing t with
  | nil => exact ⟨rfl, rfl⟩
  | cons row rows ih =>
    obtain ⟨husers, hmailaddr⟩ := lenient_insertWblist row t
    obtain ⟨husers', hmailaddr'⟩ := ih (lenient (.insertWblist row) t).2
    exact ⟨husers'.trans husers, hmailaddr'.trans hmailaddr⟩

/-- An entry is stored only when its text is valid and quotable. -/
theorem lenient_createMailaddr (s : Str) (t : Tables) :
    (createMailaddr lenient [s] t).users = t.users ∧
      (¬((isValidAmavisdAddress s).isSome ∧ isQuotable s = true) →
        (createMailaddr lenient [s] t).mailaddr = t.mailaddr) := by
  cases hpriority : mailaddrPriority s with
  | none =>
    have hsame : createMailaddr lenient [s] t = t := by
      unfold createMailaddr
      rw [hpriority]
      rfl
    rw [hsame]
    exact ⟨rfl, fun _ => rfl⟩
  | some priority =>
    have hstep : createMailaddr lenient [s] t = (lenient (.insertMailaddr s priority) t).2 := by
      unfold createMailaddr
      rw [hpriority]
      rfl
    have hvalid : (isValidAmavisdAddress s).isSome := by
      cases htype : isValidAmavisdAddress s with
      | none =>
        unfold mailaddrPriority at hpriority
        rw [htype] at hpriority
        cases hpriority
      | some t => rfl
    rw [hstep]
    rcases lenient_cases (.insertMailaddr s priority) t with hsame | ⟨rows, t', hplain, heffect, ht'⟩
    · rw [hsame]
      exact ⟨rfl, fun _ => rfl⟩
    · obtain ⟨m, -, heq⟩ := Option.map_eq_some_iff.mp heffect
      refine ⟨?_, fun hno => absurd ⟨hvalid, hplain⟩ hno⟩
      rw [ht', ← (Prod.mk.inj heq).2]

theorem importWblist_lenient (userId : ℕ) (sets : SetOrder Str) (s : Str) (t : Tables) :
    ∃ t', importWblist lenient userId sets [] [s] [] [] t = (.ok (.ok ()), t') ∧
      SameAddresses (createMailaddr lenient [s] t) t' := by
  unfold importWblist
  simp only [List.nil_append, List.append_nil, SetOrder.order_singleton, SetOrder.order_nil]
  set t₁ := createMailaddr lenient [s] t
  obtain ⟨rows, hselect⟩ := lenient_selectMailaddr [s] t₁
  have hrecords : ∃ records, mailaddrRecords lenient [s] t₁ = (.ok records, t₁) := by
    unfold mailaddrRecords
    rw [if_neg (by simp), hselect]
    exact ⟨_, rfl⟩
  obtain ⟨records, hrecords⟩ := hrecords
  have hdelete : ∃ t₂, deleteOld lenient userId records [] t₁ = (.ok (), t₂) ∧ SameAddresses t₁ t₂ := by
    obtain ⟨t₂, hdeleted, hsame⟩ := lenient_deleteWblist userId (records.map Prod.snd) t₁
    unfold deleteOld
    by_cases hempty : records.isEmpty = true
    · simp only [if_pos hempty, List.isEmpty_nil, if_true]
      exact ⟨t₁, rfl, rfl, rfl⟩
    · simp only [if_neg hempty, hdeleted, List.isEmpty_nil, if_true]
      exact ⟨t₂, rfl, hsame⟩
  obtain ⟨t₂, hdelete, husers, hmailaddr⟩ := hdelete
  simp only [hrecords]
  simp only [mailaddrRecords, List.isEmpty_nil, if_true, hdelete]
  refine ⟨_, rfl, ?_⟩
  have hvalues : values [] [] [] = [] := rfl
  rw [hvalues, List.map_nil]
  obtain ⟨husers', hmailaddr'⟩ := lenient_insertRows
    ((values records [] [s]).map fun p => ⟨userId, p.1, p.2⟩) t₂
  exact ⟨husers'.trans husers, hmailaddr'.trans hmailaddr⟩

/-- **The call succeeds on such a database**, and leaves no user when the account is not plain, and no
entry when the sender is not valid and quotable. -/
theorem addWblist_lenient (sets : SetOrder Str) {account : Str}
    (haccount : (isValidAmavisdAddress account).isSome) (sender : Str) {t : Tables}
    (husers : t.users.rows = []) :
    ∃ t', addWblist lenient sets account { blSenders := [sender] } t = (.ok (.ok ()), t') ∧
      (Sql.isPlain account = false → t'.users.rows = []) ∧
      (¬((isValidAmavisdAddress sender).isSome ∧
          (isValidAmavisdAddress (Unicode.lower sender)).isSome ∧
          isQuotable (Unicode.lower sender) = true) → t'.mailaddr = t.mailaddr) := by
  have huser : ∃ user t₁, getUserRecord lenient account t = (.ok user, t₁) ∧
      t₁.mailaddr = t.mailaddr ∧ (Sql.isPlain account = false → t₁ = t) := by
    by_cases hplain : Sql.isPlain account = true
    · obtain ⟨priority, hpriority⟩ := exists_mailaddrPriority haccount
      obtain ⟨users, -, hrecord⟩ :=
        getUserRecord_of_missing faithful_lenient hplain hpriority husers
      refine ⟨_, _, hrecord, rfl, fun hno => ?_⟩
      rw [hplain] at hno
      cases hno
    · have hselect : lenient (.selectUser account) t = (.ok [⟨1, 0, []⟩], t) := if_neg hplain
      refine ⟨⟨1, 0, []⟩, t, ?_, rfl, fun _ => rfl⟩
      unfold getUserRecord
      rw [hselect]
  obtain ⟨user, t₁, hrecord, hmailaddr₁, hsame₁⟩ := huser
  rw [addWblist_singleton sets haccount, hrecord]
  by_cases hsender : (isValidAmavisdAddress sender).isSome
  · simp only [if_pos hsender]
    obtain ⟨t', himport, husers', hmailaddr'⟩ := importWblist_lenient user.id sets (Unicode.lower sender) t₁
    obtain ⟨husers₂, hmailaddr₂⟩ := lenient_createMailaddr (Unicode.lower sender) t₁
    refine ⟨t', himport, fun hplain => ?_, fun hno => ?_⟩
    · rw [husers', husers₂, hsame₁ hplain]
      exact husers
    · rw [hmailaddr', hmailaddr₂ fun h => hno ⟨hsender, h⟩, hmailaddr₁]
  · simp only [if_neg hsender]
    refine ⟨t₁, rfl, fun hplain => ?_, fun _ => hmailaddr₁⟩
    rw [hsame₁ hplain]
    exact husers

end IRedAPD.LibWblist

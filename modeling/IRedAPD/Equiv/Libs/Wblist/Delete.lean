/-
  What `delete_wblist` removes and what it reports.

  It removes the rows it is asked for.  But it reports every requested address
  that `mailaddr` knows, whether a row was removed or not, and it creates a user
  for an account that has none.  The report is exact when the account has a user
  and lists what is known of the request (`deletesExactly_iff`).
-/
import IRedAPD.Equiv.Libs.Wblist.Detour

namespace IRedAPD.LibWblist

open Py

/-! ### The four lists -/

def Lists.of (lists : Lists) : Direction → Bool → List Str
  | .inbound, true => lists.wlSenders
  | .inbound, false => lists.blSenders
  | .outbound, true => lists.wlRcpts
  | .outbound, false => lists.blRcpts

/-- The `wb` of a list. -/
def wbText (white : Bool) : Str := if white then "W" else "B"

theorem wbText_inj {white white' : Bool} : wbText white = wbText white' ↔ white = white' := by
  cases white <;> cases white' <;> decide

/-- The statement for a list. -/
def deleteStatement (userId : ℕ) (white : Bool) : Direction → List ℕ → Statement
  | .inbound, sids => .deleteWblistWb userId sids (wbText white)
  | .outbound, rids => .deleteOutboundWblistWb userId rids (wbText white)

/-- The tables after it. -/
def deletedWb (userId : ℕ) (white : Bool) (t : Tables) : Direction → List ℕ → Tables
  | .inbound, sids =>
    { t with
      wblist := t.wblist.delete fun row =>
        row.2.rid = userId && sids.contains row.2.sid && row.2.wb = wbText white }
  | .outbound, rids =>
    { t with
      outboundWblist := t.outboundWblist.delete fun row =>
        row.2.sid = userId && rids.contains row.2.rid && row.2.wb = wbText white }

section Deleted

variable {userId : ℕ} {white : Bool} {d : Direction} {ids : List ℕ} {t : Tables}

theorem effect_deleteStatement :
    effect (deleteStatement userId white d ids) t = some ([], deletedWb userId white t d ids) := by
  cases d <;> rfl

@[simp] theorem users_deletedWb : (deletedWb userId white t d ids).users = t.users := by
  cases d <;> rfl

@[simp] theorem mailaddr_deletedWb : (deletedWb userId white t d ids).mailaddr = t.mailaddr := by
  cases d <;> rfl

/-- **The rows that are left.** -/
theorem mem_listRows_deletedWb {d' : Direction} {row : ℕ × Wblist} :
    row ∈ (deletedWb userId white t d ids).listRows d' ↔ row ∈ t.listRows d' ∧
      ¬(d' = d ∧ localId d row.2 = userId ∧ remoteId d row.2 ∈ ids ∧ row.2.wb = wbText white) := by
  cases d with
  | inbound =>
    cases d' with
    | inbound =>
      refine Sql.Table.mem_rows_delete.trans (and_congr_right fun _ => ?_)
      simp only [localId, remoteId, Bool.and_eq_false_iff, decide_eq_false_iff_not,
        List.contains_eq_mem, true_and, not_and_or, or_assoc]
    | outbound =>
      refine (and_iff_left ?_).symm
      rintro ⟨h, -⟩
      cases h
  | outbound =>
    cases d' with
    | inbound =>
      refine (and_iff_left ?_).symm
      rintro ⟨h, -⟩
      cases h
    | outbound =>
      refine Sql.Table.mem_rows_delete.trans (and_congr_right fun _ => ?_)
      simp only [localId, remoteId, Bool.and_eq_false_iff, decide_eq_false_iff_not,
        List.contains_eq_mem, true_and, not_and_or, or_assoc]

theorem deletedWb_nil : deletedWb userId white t d [] = t := by
  cases d with
  | inbound =>
    show { t with wblist := t.wblist.delete _ } = t
    rw [Sql.Table.delete_eq_self fun row _ => by simp]
  | outbound =>
    show { t with outboundWblist := t.outboundWblist.delete _ } = t
    rw [Sql.Table.delete_eq_self fun row _ => by simp]

end Deleted

/-- The rows of `mailaddr` with these addresses. -/
def known (t : Tables) (addresses : List Str) : List AmavisdAddress :=
  (t.mailaddr.rows.filter fun row => addresses.contains row.2.email).map toAddress

theorem known_nil (t : Tables) : known t [] = [] := by
  unfold known
  rw [List.map_eq_nil_iff, List.filter_eq_nil_iff]
  intro row _
  simp

theorem mem_ids_known_iff {t : Tables} {addresses : List Str} {id : ℕ} :
    id ∈ (known t addresses).map (·.id) ↔ ∃ m ∈ t.mailaddr.rows, m.1 = id ∧ m.2.email ∈ addresses := by
  unfold known
  rw [List.map_map, List.mem_map]
  simp only [List.mem_filter, List.contains_iff_mem]
  constructor
  · rintro ⟨m, ⟨hm, hemail⟩, rfl⟩
    exact ⟨m, hm, rfl, hemail⟩
  · rintro ⟨m, hm, rfl, hemail⟩
    exact ⟨m, ⟨hm, hemail⟩, rfl⟩

theorem mem_emails_known_iff {t : Tables} {addresses : List Str} {x : Str} :
    x ∈ (known t addresses).map (·.email) ↔ x ∈ addresses ∧ ∃ m ∈ t.mailaddr.rows, m.2.email = x := by
  unfold known
  rw [List.map_map, List.mem_map]
  simp only [List.mem_filter, List.contains_iff_mem]
  constructor
  · rintro ⟨m, ⟨hm, hemail⟩, rfl⟩
    exact ⟨hemail, m, hm, rfl⟩
  · rintro ⟨hx, m, hm, rfl⟩
    exact ⟨m, ⟨hm, hx⟩, rfl⟩

variable [Unicode]

theorem isPlain_deleteStatement (userId : ℕ) (white : Bool) (d : Direction) (ids : List ℕ) :
    (deleteStatement userId white d ids).IsPlain := by
  cases d <;> trivial

/-! ### One list -/

section DeleteFrom

variable {fails : ℕ → Bool} {execute : Execute (Tables × ℕ)} {userId : ℕ} {white : Bool} {d : Direction}
  {addresses : List Str}

/-- What one list removes and reports, when all its statements succeed. -/
theorem deleteFrom_of_ok (hdb : Answers fails execute)
    (hquotable : ∀ a ∈ addresses, isQuotable a = true) {t t' : Tables} {n n' : ℕ} {l : List Str}
    (h : deleteFrom execute (deleteStatement userId white d) addresses (t, n) = (.ok l, (t', n'))) :
    t' = deletedWb userId white t d ((known t addresses).map (·.id)) ∧
      l = (known t addresses).map (·.email) := by
  unfold deleteFrom at h
  by_cases hempty : addresses.isEmpty = true
  · rw [if_pos hempty] at h
    obtain ⟨hl, hw⟩ := Prod.mk.inj h
    rw [List.isEmpty_iff.mp hempty, known_nil, List.map_nil, List.map_nil, deletedWb_nil]
    exact ⟨(Prod.mk.inj hw).1.symm, (Except.ok.inj hl).symm⟩
  rw [if_neg hempty] at h
  by_cases hfirst : fails n = true
  · obtain ⟨e, he⟩ := hdb.of_fails (.selectMailaddr addresses) t hfirst
    rw [he] at h
    cases (Prod.mk.inj h).1
  rw [Bool.not_eq_true] at hfirst
  have hselect : execute (.selectMailaddr addresses) (t, n) = (.ok (known t addresses), (t, n + 1)) :=
    hdb.of_effect (.selectMailaddr addresses) hquotable hfirst rfl
  rw [hselect] at h
  simp only at h
  by_cases hnone : (known t addresses).isEmpty = true
  · rw [if_pos hnone] at h
    obtain ⟨hl, hw⟩ := Prod.mk.inj h
    rw [List.isEmpty_iff.mp hnone, List.map_nil, List.map_nil, deletedWb_nil]
    exact ⟨(Prod.mk.inj hw).1.symm, (Except.ok.inj hl).symm⟩
  rw [if_neg hnone] at h
  by_cases hsecond : fails (n + 1) = true
  · obtain ⟨e, he⟩ := hdb.of_fails
      (deleteStatement userId white d ((known t addresses).map (·.id))) t hsecond
    rw [he] at h
    cases (Prod.mk.inj h).1
  rw [Bool.not_eq_true] at hsecond
  rw [hdb.of_effect _ (isPlain_deleteStatement userId white d _) hsecond effect_deleteStatement] at h
  obtain ⟨hl, hw⟩ := Prod.mk.inj h
  exact ⟨(Prod.mk.inj hw).1.symm, (Except.ok.inj hl).symm⟩

/-- One list on a database that leaves other tables. -/
theorem deleteFrom_detour (bad : Tables) (userId : ℕ) (white : Bool) (d : Direction)
    (addresses : List Str) (w : Tables × ℕ) :
    ∃ l w', deleteFrom (detour never bad) (deleteStatement userId white d) addresses w = (.ok l, w') ∧
      (w'.1.users = w.1.users ∨ w'.1.users = bad.users) ∧
      (¬(∀ a ∈ addresses, isQuotable a = true) → w'.1.users = bad.users) := by
  have hdelete : ∀ (ids : List ℕ) (w : Tables × ℕ), detour never bad (deleteStatement userId white d ids) w =
      (.ok [], (deletedWb userId white w.1 d ids, w.2 + 1)) := fun ids w =>
    (answers_detour never bad).of_effect _ (isPlain_deleteStatement userId white d ids) rfl
      effect_deleteStatement
  unfold deleteFrom
  by_cases hempty : addresses.isEmpty = true
  · rw [if_pos hempty]
    refine ⟨_, _, rfl, .inl rfl, fun hno => absurd ?_ hno⟩
    rw [List.isEmpty_iff.mp hempty]
    exact fun a ha => absurd ha List.not_mem_nil
  rw [if_neg hempty]
  by_cases hplain : (Statement.selectMailaddr addresses).IsPlain
  · rw [(answers_detour never bad).of_effect (.selectMailaddr addresses) hplain (t := w.1) (n := w.2) rfl rfl]
    simp only
    split_ifs
    · exact ⟨_, _, rfl, .inl rfl, fun hno => absurd hplain hno⟩
    · rw [hdelete]
      exact ⟨_, _, rfl, .inl users_deletedWb, fun hno => absurd hplain hno⟩
  · rw [detour_of_not_plain hplain rfl]
    simp only [List.isEmpty_cons, Bool.false_eq_true, if_false, hdelete]
    exact ⟨_, _, rfl, .inr users_deletedWb, fun _ => users_deletedWb⟩

end DeleteFrom

/-! ### The call -/

section Call

variable {σ : Type*} {execute : Execute σ} {sets : SetOrder Str} {account : Str} {lists : Lists}

/-- The addresses of one list. -/
def requested (sets : SetOrder Str) (lists : Lists) (d : Direction) (white : Bool) : List Str :=
  normalize sets (lists.of d white)

/-- The four lists one after another. -/
theorem deleteWblist_of_deleteFrom (haccount : (isValidAmavisdAddress account).isSome)
    {user : AmavisdAddress} {w w₀ w₁ w₂ w₃ w₄ : σ} {report : Lists}
    (huser : getUserRecord execute account w = (.ok user, w₀))
    (h₁ : deleteFrom execute (deleteStatement user.id true .inbound)
      (requested sets lists .inbound true) w₀ = (.ok (report.of .inbound true), w₁))
    (h₂ : deleteFrom execute (deleteStatement user.id false .inbound)
      (requested sets lists .inbound false) w₁ = (.ok (report.of .inbound false), w₂))
    (h₃ : deleteFrom execute (deleteStatement user.id true .outbound)
      (requested sets lists .outbound true) w₂ = (.ok (report.of .outbound true), w₃))
    (h₄ : deleteFrom execute (deleteStatement user.id false .outbound)
      (requested sets lists .outbound false) w₃ = (.ok (report.of .outbound false), w₄)) :
    deleteWblist execute sets account lists w = (.ok report, w₄) := by
  have h₁' : deleteFrom execute (.deleteWblistWb user.id · "W") (normalize sets lists.wlSenders) w₀ =
    (.ok report.wlSenders, w₁) := h₁
  have h₂' : deleteFrom execute (.deleteWblistWb user.id · "B") (normalize sets lists.blSenders) w₁ =
    (.ok report.blSenders, w₂) := h₂
  have h₃' : deleteFrom execute (.deleteOutboundWblistWb user.id · "W") (normalize sets lists.wlRcpts)
    w₂ = (.ok report.wlRcpts, w₃) := h₃
  have h₄' : deleteFrom execute (.deleteOutboundWblistWb user.id · "B") (normalize sets lists.blRcpts)
    w₃ = (.ok report.blRcpts, w₄) := h₄
  unfold deleteWblist
  rw [if_neg (by simpa using Option.isSome_iff_ne_none.mp haccount)]
  simp only [huser, h₁', h₂', h₃', h₄']

/-- What succeeds when the call does. -/
theorem exists_of_deleteWblist {w w₄ : σ} {report : Lists}
    (h : deleteWblist execute sets account lists w = (.ok report, w₄)) :
    (isValidAmavisdAddress account).isSome ∧ ∃ user w₀ w₁ w₂ w₃,
      getUserRecord execute account w = (.ok user, w₀) ∧
      deleteFrom execute (deleteStatement user.id true .inbound)
        (requested sets lists .inbound true) w₀ = (.ok (report.of .inbound true), w₁) ∧
      deleteFrom execute (deleteStatement user.id false .inbound)
        (requested sets lists .inbound false) w₁ = (.ok (report.of .inbound false), w₂) ∧
      deleteFrom execute (deleteStatement user.id true .outbound)
        (requested sets lists .outbound true) w₂ = (.ok (report.of .outbound true), w₃) ∧
      deleteFrom execute (deleteStatement user.id false .outbound)
        (requested sets lists .outbound false) w₃ = (.ok (report.of .outbound false), w₄) := by
  unfold deleteWblist at h
  by_cases hinvalid : (isValidAmavisdAddress account).isNone = true
  · rw [if_pos hinvalid] at h
    cases (Prod.mk.inj h).1
  rw [if_neg hinvalid] at h
  refine ⟨by simpa [Option.isSome_iff_ne_none] using hinvalid, ?_⟩
  rcases huser : getUserRecord execute account w with ⟨_ | user, w₀⟩
  · simp only [huser] at h
    cases (Prod.mk.inj h).1
  simp only [huser] at h
  -- an exception in any of the four lists would be the result
  rcases h₁ : deleteFrom execute (.deleteWblistWb user.id · "W") (normalize sets lists.wlSenders) w₀ with
    ⟨_ | l₁, w₁⟩
  · simp only [h₁] at h
    cases (Prod.mk.inj h).1
  simp only [h₁] at h
  rcases h₂ : deleteFrom execute (.deleteWblistWb user.id · "B") (normalize sets lists.blSenders) w₁ with
    ⟨_ | l₂, w₂⟩
  · simp only [h₂] at h
    cases (Prod.mk.inj h).1
  simp only [h₂] at h
  rcases h₃ : deleteFrom execute (.deleteOutboundWblistWb user.id · "W") (normalize sets lists.wlRcpts)
    w₂ with ⟨_ | l₃, w₃⟩
  · simp only [h₃] at h
    cases (Prod.mk.inj h).1
  simp only [h₃] at h
  rcases h₄ : deleteFrom execute (.deleteOutboundWblistWb user.id · "B") (normalize sets lists.blRcpts)
    w₃ with ⟨_ | l₄, w₄'⟩
  · simp only [h₄] at h
    cases (Prod.mk.inj h).1
  simp only [h₄] at h
  obtain ⟨hreport, rfl⟩ := Prod.mk.inj h
  obtain rfl := Except.ok.inj hreport
  exact ⟨user, w₀, w₁, w₂, w₃, rfl, h₁, h₂, h₃, h₄⟩

end Call

/-! ### What is removed and reported -/

section Exact

/-- The row is one of the account, with an address and a `wb` that the request names. -/
def Requested (t : Tables) (account : Str) (lists : Lists) (d : Direction) (white : Bool)
    (row : Wblist) : Prop :=
  row.wb = wbText white ∧ (∃ u ∈ t.users.rows, u.2.email = account ∧ u.1 = localId d row) ∧
    ∃ m ∈ t.mailaddr.rows, m.1 = remoteId d row ∧ m.2.email ∈ validAddresses (lists.of d white)

/-- The rows that are requested are removed, the others are not, no row is added, and the addresses
of the rows that are removed are reported. -/
structure DeletedExactly (account : Str) (lists : Lists) (t t' : Tables) (report : Lists) : Prop where
  users : t'.users.rows = t.users.rows
  mailaddr : t'.mailaddr.rows = t.mailaddr.rows
  rows : ∀ d row, row ∈ t'.listRows d ↔
    row ∈ t.listRows d ∧ ¬∃ white, Requested t account lists d white row.2
  report : ∀ d white x, x ∈ report.of d white ↔ ∃ row ∈ t.listRows d, row ∉ t'.listRows d ∧
    row.2.wb = wbText white ∧ ∃ m ∈ t.mailaddr.rows, m.1 = remoteId d row.2 ∧ m.2.email = x

/-- So it is whenever the call succeeds, whatever fails. -/
def DeletesExactly (sets : SetOrder Str) (account : Str) (lists : Lists) (t : Tables) : Prop :=
  ∀ fails execute, Answers fails execute → ∀ n t' n' report,
    deleteWblist execute sets account lists (t, n) = (.ok report, (t', n')) →
      DeletedExactly account lists t t' report

/-- The account has a user, and what is known of each list is listed with its `wb`. -/
def AllListed (t : Tables) (account : Str) (lists : Lists) : Prop :=
  ∃ u, t.users.find? account = some u ∧ ∀ d white, ∀ x ∈ validAddresses (lists.of d white),
    ∀ id, idOf t x = some id → wbAt (t.table d) (keyOf u.1 d id) = some (wbText white)

variable {fails : ℕ → Bool} {execute : Execute (Tables × ℕ)} {sets : SetOrder Str} {account : Str}
  {lists : Lists} {t : Tables}

/-- A user that has a row is not created. -/
theorem getUserRecord_of_some (hdb : Answers fails execute) (hplain : Sql.isPlain account = true)
    {u : ℕ × Address} (hu : t.users.find? account = some u) {n : ℕ} {user : AmavisdAddress}
    {w : Tables × ℕ} (h : getUserRecord execute account (t, n) = (.ok user, w)) :
    user.id = u.1 ∧ w.1 = t := by
  unfold getUserRecord at h
  by_cases hfirst : fails n = true
  · obtain ⟨e, he⟩ := hdb.of_fails (.selectUser account) t hfirst
    rw [he] at h
    cases (Prod.mk.inj h).1
  · rw [execute_selectUser hdb hplain t (Bool.eq_false_iff.mpr hfirst), hu] at h
    obtain ⟨huser, rfl⟩ := Prod.mk.inj h
    obtain rfl := Except.ok.inj huser
    exact ⟨rfl, rfl⟩

/-- **What the call removes and reports**, for an account that has a user. -/
theorem deleteWblist_of_ok (hdb : Answers fails execute) (hplain : Sql.isPlain account = true)
    (hquotable : ∀ d white, ∀ x ∈ validAddresses (lists.of d white), isQuotable x = true)
    {u : ℕ × Address} (hu : t.users.find? account = some u) {t' : Tables} {n n' : ℕ} {report : Lists}
    (h : deleteWblist execute sets account lists (t, n) = (.ok report, (t', n'))) :
    t'.users = t.users ∧ t'.mailaddr = t.mailaddr ∧
      (∀ d row, row ∈ t'.listRows d ↔ row ∈ t.listRows d ∧
        ¬∃ white, localId d row.2 = u.1 ∧
          remoteId d row.2 ∈ (known t (requested sets lists d white)).map (·.id) ∧
          row.2.wb = wbText white) ∧
      ∀ d white, report.of d white = (known t (requested sets lists d white)).map (·.email) := by
  obtain ⟨-, user, w₀, w₁, w₂, w₃, huser, h₁, h₂, h₃, h₄⟩ := exists_of_deleteWblist h
  have hall : ∀ d white, ∀ x ∈ requested sets lists d white, isQuotable x = true := fun d white x hx =>
    hquotable d white x (mem_normalize.mp hx)
  obtain ⟨hid, hw₀⟩ := getUserRecord_of_some hdb hplain hu huser
  obtain ⟨t₀, n₀⟩ := w₀
  obtain rfl : t₀ = t := hw₀
  obtain ⟨ht₁, hl₁⟩ := deleteFrom_of_ok hdb (hall .inbound true) h₁
  obtain ⟨ht₂, hl₂⟩ := deleteFrom_of_ok hdb (hall .inbound false) h₂
  obtain ⟨ht₃, hl₃⟩ := deleteFrom_of_ok hdb (hall .outbound true) h₃
  obtain ⟨ht₄, hl₄⟩ := deleteFrom_of_ok hdb (hall .outbound false) h₄
  -- the addresses are known alike all along
  have hknown : ∀ {t₁ t₂ : Tables} (_ : t₁.mailaddr = t₂.mailaddr) (l : List Str),
      known t₁ l = known t₂ l := by
    intro t₁ t₂ hsame l
    unfold known
    rw [hsame]
  have hm₁ : w₁.1.mailaddr = t₀.mailaddr := by rw [ht₁, mailaddr_deletedWb]
  have hm₂ : w₂.1.mailaddr = t₀.mailaddr := by rw [ht₂, mailaddr_deletedWb, hm₁]
  have hm₃ : w₃.1.mailaddr = t₀.mailaddr := by rw [ht₃, mailaddr_deletedWb, hm₂]
  rw [hknown hm₁] at ht₂ hl₂
  rw [hknown hm₂] at ht₃ hl₃
  rw [hknown hm₃] at ht₄ hl₄
  refine ⟨?_, ?_, fun d row => ?_, ?_⟩
  · rw [ht₄, users_deletedWb, ht₃, users_deletedWb, ht₂, users_deletedWb, ht₁, users_deletedWb]
  · rw [ht₄, mailaddr_deletedWb, hm₃]
  · rw [ht₄, mem_listRows_deletedWb, ht₃, mem_listRows_deletedWb, ht₂, mem_listRows_deletedWb, ht₁,
      mem_listRows_deletedWb, hid]
    rw [not_exists, Bool.forall_bool]
    cases d with
    | inbound =>
      constructor
      · rintro ⟨⟨⟨⟨hrow, hwhite⟩, hblack⟩, -⟩, -⟩
        exact ⟨hrow, fun h => hblack ⟨rfl, h⟩, fun h => hwhite ⟨rfl, h⟩⟩
      · rintro ⟨hrow, hblack, hwhite⟩
        exact ⟨⟨⟨⟨hrow, fun h => hwhite h.2⟩, fun h => hblack h.2⟩, by simp⟩, by simp⟩
    | outbound =>
      constructor
      · rintro ⟨⟨⟨⟨hrow, -⟩, -⟩, hwhite⟩, hblack⟩
        exact ⟨hrow, fun h => hblack ⟨rfl, h⟩, fun h => hwhite ⟨rfl, h⟩⟩
      · rintro ⟨hrow, hblack, hwhite⟩
        exact ⟨⟨⟨⟨hrow, by simp⟩, by simp⟩, fun h => hwhite h.2⟩, fun h => hblack h.2⟩
  · rintro (_ | _) (_ | _)
    · exact hl₂
    · exact hl₁
    · exact hl₄
    · exact hl₃

/-- The rows the statements delete are those that are requested. -/
theorem requested_iff (sets : SetOrder Str) {u : ℕ × Address} (hu : t.users.find? account = some u)
    {d : Direction} {white : Bool} {row : Wblist} :
    Requested t account lists d white row ↔ localId d row = u.1 ∧
      remoteId d row ∈ (known t (requested sets lists d white)).map (·.id) ∧ row.wb = wbText white := by
  obtain ⟨hmem, hemail⟩ := Sql.Table.find?_eq_some_iff.mp hu
  have hids : remoteId d row ∈ (known t (requested sets lists d white)).map (·.id) ↔
      ∃ m ∈ t.mailaddr.rows, m.1 = remoteId d row ∧ m.2.email ∈ validAddresses (lists.of d white) := by
    unfold requested
    simp only [mem_ids_known_iff, mem_normalize]
  rw [hids]
  constructor
  · rintro ⟨hwb, ⟨u', hu', hemail', hid⟩, hm⟩
    obtain rfl := t.users.eq_of_key_eq hu' hmem (hemail'.trans hemail.symm)
    exact ⟨hid.symm, hm, hwb⟩
  · rintro ⟨hid, hm, hwb⟩
    exact ⟨hwb, ⟨u, hmem, hemail, hid.symm⟩, hm⟩

omit [Unicode] in
/-- The id of an address that is known. -/
theorem idOf_of_mem {m : ℕ × Address} (hm : m ∈ t.mailaddr.rows) : idOf t m.2.email = some m.1 := by
  unfold idOf
  rw [Sql.Table.find?_eq_some_iff.mpr ⟨hm, rfl⟩, Option.map_some]

/-- **The report is exact when what is known of the request is listed.** -/
theorem deletesExactly_of_allListed (hplain : Sql.isPlain account = true)
    (hquotable : ∀ d white, ∀ x ∈ validAddresses (lists.of d white), isQuotable x = true)
    (hlisted : AllListed t account lists) : DeletesExactly sets account lists t := by
  intro fails execute hdb n t' n' report h
  obtain ⟨u, hu, hlisted⟩ := hlisted
  obtain ⟨husers, hmailaddr, hrows, hreport⟩ := deleteWblist_of_ok hdb hplain hquotable hu h
  have hremoved : ∀ d row, row ∈ t'.listRows d ↔
      row ∈ t.listRows d ∧ ¬∃ white, Requested t account lists d white row.2 := by
    intro d row
    rw [hrows]
    simp only [requested_iff sets hu]
  refine ⟨by rw [husers], by rw [hmailaddr], hremoved, fun d white x => ?_⟩
  rw [hreport, mem_emails_known_iff]
  unfold requested
  rw [mem_normalize]
  constructor
  · rintro ⟨hx, m, hm, rfl⟩
    obtain ⟨row, hrow, hlocal, hremote, hwb⟩ :=
      wbAt_eq_some_iff.mp (hlisted d white m.2.email hx m.1 (idOf_of_mem hm))
    refine ⟨row, hrow, fun hleft => ?_, hwb, m, hm, hremote.symm, rfl⟩
    refine ((hremoved d row).mp hleft).2 ⟨white, (requested_iff sets hu).mpr ⟨hlocal, ?_, hwb⟩⟩
    exact mem_ids_known_iff.mpr ⟨m, hm, hremote.symm, mem_normalize.mpr hx⟩
  · rintro ⟨row, hrow, hgone, hwb, m, hm, hremote, rfl⟩
    obtain ⟨white', hwb', -, m', hm', hremote', hx⟩ : ∃ white, Requested t account lists d white row.2 :=
      by_contra fun hno => hgone ((hremoved d row).mpr ⟨hrow, hno⟩)
    obtain rfl := wbText_inj.mp (hwb.symm.trans hwb')
    obtain rfl := t.mailaddr.eq_of_id_eq hm' hm (hremote'.trans hremote.symm)
    exact ⟨hx, m', hm, rfl⟩

/-! ### What else may happen -/

omit [Unicode] in
/-- Tables with one more user. -/
theorem exists_more_users (t : Tables) : ∃ bad : Tables, bad.users.rows ≠ t.users.rows := by
  obtain ⟨other, -, hnone⟩ := exists_other [] t
  obtain ⟨users, hinsert⟩ := Sql.Table.exists_insert (r := (⟨0, other⟩ : Address)) hnone
  refine ⟨{ t with users := users }, fun h => ?_⟩
  rw [Sql.Table.rows_insert hinsert] at h
  exact absurd (congrArg List.length h) (by simp)

/-- Once a user is found, the call succeeds. -/
theorem exists_report (sets : SetOrder Str) (lists : Lists) {bad : Tables}
    (haccount : (isValidAmavisdAddress account).isSome)
    {user : AmavisdAddress} {w w₀ : Tables × ℕ}
    (huser : getUserRecord (detour never bad) account w = (.ok user, w₀)) :
    ∃ report w', deleteWblist (detour never bad) sets account lists w = (.ok report, w') ∧
      (w'.1.users = w₀.1.users ∨ w'.1.users = bad.users) ∧
      ∀ d white, ¬(∀ x ∈ requested sets lists d white, isQuotable x = true) →
        w'.1.users = bad.users := by
  obtain ⟨l₁, w₁, h₁, hcases₁, hbad₁⟩ :=
    deleteFrom_detour bad user.id true .inbound (requested sets lists .inbound true) w₀
  obtain ⟨l₂, w₂, h₂, hcases₂, hbad₂⟩ :=
    deleteFrom_detour bad user.id false .inbound (requested sets lists .inbound false) w₁
  obtain ⟨l₃, w₃, h₃, hcases₃, hbad₃⟩ :=
    deleteFrom_detour bad user.id true .outbound (requested sets lists .outbound true) w₂
  obtain ⟨l₄, w₄, h₄, hcases₄, hbad₄⟩ :=
    deleteFrom_detour bad user.id false .outbound (requested sets lists .outbound false) w₃
  -- the new users stay
  have hkeep : ∀ {w w' : Tables × ℕ}, w'.1.users = w.1.users ∨ w'.1.users = bad.users →
      w.1.users = bad.users → w'.1.users = bad.users := by
    intro w w' hcases hw
    rcases hcases with h | h
    · rw [h, hw]
    · exact h
  have hchain : ∀ {w w' : Tables × ℕ}, w'.1.users = w.1.users ∨ w'.1.users = bad.users →
      w.1.users = w₀.1.users ∨ w.1.users = bad.users →
      w'.1.users = w₀.1.users ∨ w'.1.users = bad.users := by
    intro w w' hcases hw
    rcases hcases with h | h
    · rw [h]
      exact hw
    · exact .inr h
  refine ⟨⟨l₁, l₂, l₃, l₄⟩, w₄, deleteWblist_of_deleteFrom haccount huser h₁ h₂ h₃ h₄,
    hchain hcases₄ (hchain hcases₃ (hchain hcases₂ hcases₁)), ?_⟩
  rintro (_ | _) (_ | _) hno
  · exact hkeep hcases₄ (hkeep hcases₃ (hbad₂ hno))
  · exact hkeep hcases₄ (hkeep hcases₃ (hkeep hcases₂ (hbad₁ hno)))
  · exact hbad₄ hno
  · exact hkeep hcases₄ (hbad₃ hno)

section Converse

variable (haccount : (isValidAmavisdAddress account).isSome)

include haccount

theorem DeletesExactly.isPlain (h : DeletesExactly sets account lists t) :
    Sql.isPlain account = true := by
  by_contra hplain
  obtain ⟨bad, hbad⟩ := exists_more_users t
  have huser : getUserRecord (detour never bad) account (t, 0) = (.ok ⟨0, 0, []⟩, (bad, 1)) := by
    unfold getUserRecord
    rw [detour_of_not_plain (i := .selectUser account) hplain rfl]
  obtain ⟨report, w', hreport, hcases, -⟩ := exists_report sets lists haccount huser
  have hexact := h never (detour never bad) (answers_detour never bad) 0 w'.1 w'.2 report hreport
  rw [or_self] at hcases
  exact hbad (hcases ▸ hexact.users)

theorem DeletesExactly.isQuotable (h : DeletesExactly sets account lists t) {d : Direction}
    {white : Bool} {x : Str} (hx : x ∈ validAddresses (lists.of d white)) : isQuotable x = true := by
  by_contra hno
  obtain ⟨bad, hbad⟩ := exists_more_users t
  obtain ⟨user, -, huser⟩ := getUserRecord_of_succeed (answers_detour never bad) (h.isPlain haccount) haccount
    (t := t) (n := 0) fun _ _ => rfl
  obtain ⟨report, w', hreport, -, hnot⟩ := exists_report sets lists haccount huser
  have hexact := h never (detour never bad) (answers_detour never bad) 0 w'.1 w'.2 report hreport
  have husers := hnot d white fun hall => hno (hall x (mem_normalize.mpr hx))
  exact hbad (husers ▸ hexact.users)

/-- The account has a user. -/
theorem DeletesExactly.exists_user (h : DeletesExactly sets account lists t) :
    ∃ u, t.users.find? account = some u := by
  by_contra hno
  obtain ⟨bad, hbad⟩ := exists_more_users t
  obtain ⟨user, -, huser⟩ := getUserRecord_of_succeed (answers_detour never bad) (h.isPlain haccount) haccount
    (t := t) (n := 0) fun _ _ => rfl
  obtain ⟨report, w', hreport, hcases, -⟩ := exists_report sets lists haccount huser
  have hexact := h never (detour never bad) (answers_detour never bad) 0 w'.1 w'.2 report hreport
  rcases hcases with husers | husers
  · -- the user that was created
    obtain ⟨row, hrow⟩ := find?_registerUser haccount t
    obtain ⟨hmem, hemail⟩ := Sql.Table.find?_eq_some_iff.mp hrow
    have hstored := hexact.users
    rw [husers] at hstored
    rw [hstored] at hmem
    exact hno ⟨_, Sql.Table.find?_eq_some_iff.mpr ⟨hmem, hemail⟩⟩
  · exact hbad (husers ▸ hexact.users)

theorem DeletesExactly.allListed (h : DeletesExactly sets account lists t) :
    AllListed t account lists := by
  have hplain := h.isPlain haccount
  obtain ⟨u, hu⟩ := h.exists_user haccount
  obtain ⟨user, -, huser⟩ := getUserRecord_of_succeed (answers_detour never t) hplain haccount
    (t := t) (n := 0) fun _ _ => rfl
  obtain ⟨report, w', hok, -⟩ := exists_report sets lists haccount huser
  have hexact := h never (detour never t) (answers_detour never t) 0 w'.1 w'.2 report hok
  obtain ⟨-, -, -, hreport⟩ := deleteWblist_of_ok (answers_detour never t) hplain
    (fun d white x hx => h.isQuotable haccount hx) hu hok
  refine ⟨u, hu, fun d white x hx id hid => ?_⟩
  obtain ⟨m, hm, rfl⟩ := Option.map_eq_some_iff.mp hid
  obtain ⟨hmem, rfl⟩ := Sql.Table.find?_eq_some_iff.mp hm
  -- the address is reported, so one of its rows was removed
  have hreported : m.2.email ∈ report.of d white := by
    rw [hreport]
    exact mem_emails_known_iff.mpr ⟨mem_normalize.mpr hx, m, hmem, rfl⟩
  obtain ⟨row, hrow, hgone, hwb, m', hm', hremote, hsame⟩ := (hexact.report d white _).mp hreported
  obtain rfl := t.mailaddr.eq_of_key_eq hm' hmem hsame
  obtain ⟨white', hrequested⟩ : ∃ white, Requested t account lists d white row.2 :=
    by_contra fun hno => hgone ((hexact.rows d row).mpr ⟨hrow, hno⟩)
  have hlocal := ((requested_iff sets hu).mp hrequested).1
  exact wbAt_eq_some_iff.mpr ⟨row, hrow, hlocal, hremote.symm, hwb⟩

end Converse

/-- **When `delete_wblist` only deletes and reports what it deleted.** -/
theorem deletesExactly_iff (sets : SetOrder Str) (account : Str) (lists : Lists) (t : Tables) :
    DeletesExactly sets account lists t ↔ (isValidAmavisdAddress account).isNone ∨
      (Sql.isPlain account = true ∧
        (∀ d white, ∀ x ∈ validAddresses (lists.of d white), isQuotable x = true) ∧
        AllListed t account lists) := by
  constructor
  · intro h
    cases haccount : isValidAmavisdAddress account with
    | none => exact .inl rfl
    | some type =>
      have hvalid : (isValidAmavisdAddress account).isSome := by rw [haccount]; rfl
      exact .inr ⟨h.isPlain hvalid, fun d white x hx => h.isQuotable hvalid hx, h.allListed hvalid⟩
  · rintro (hinvalid | ⟨hplain, hquotable, hlisted⟩)
    · intro fails execute _ n t' n' report hok
      have hvalid := (exists_of_deleteWblist hok).1
      rw [Option.isNone_iff_eq_none.mp hinvalid] at hvalid
      cases hvalid
    · exact deletesExactly_of_allListed hplain hquotable hlisted

omit [Unicode] in
/-- A sender that is known but not listed is reported; a user is created. -/
theorem reports_what_is_not_listed :
    letI := asciiUnicode
    let t : Tables :=
      { users := .single 1 Nat.one_pos ⟨10, "u@x.io"⟩, mailaddr := .single 1 Nat.one_pos ⟨10, "s@x.io"⟩ }
    let lists : Lists := { wlSenders := ["s@x.io"] }
    (deleteWblist (detour never t) .ofDedup "u@x.io" lists (t, 0)).1 = .ok lists ∧
      (∀ d, t.listRows d = []) ∧
      (deleteWblist (detour never {}) .ofDedup "new@x.io" {} ({}, 0)).1 = .ok {} ∧
      (deleteWblist (detour never {}) .ofDedup "new@x.io" {} ({}, 0)).2.1.users.rows =
        [(1, ⟨10, "new@x.io"⟩)] ∧
      ¬DeletesExactly .ofDedup "u@x.io" lists t ∧ ¬DeletesExactly .ofDedup "new@x.io" {} {} := by
  let := asciiUnicode
  refine ⟨by decide +kernel, by rintro (_ | _) <;> rfl, by decide +kernel, by decide +kernel,
    fun h => ?_, fun h => ?_⟩
  · obtain ⟨u, hu, hlisted⟩ := h.allListed (by decide)
    have hwb := hlisted .inbound true "s@x.io" ⟨_, List.mem_singleton_self _, by decide, by decide⟩ 1
      (by decide)
    cases hwb
  · obtain ⟨u, hu⟩ := h.exists_user (by decide)
    cases hu

end Exact

end IRedAPD.LibWblist

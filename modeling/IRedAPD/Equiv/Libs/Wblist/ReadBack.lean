/-
  What the lists of an account hold after `add_wblist`.

  An account lists an address with the `wb` of the row under both ids
  (`listedWb`), and this is what the two functions read (`getAccountLists_eq`).
  When nothing fails, the submitted addresses have the `wb` they were submitted
  with and the others the one they had, as far as no old row refers to an id
  that the call gives away (`reads_back_iff`).
-/
import IRedAPD.Equiv.LetterCase
import IRedAPD.Equiv.Libs.Wblist.Detour

namespace IRedAPD.LibWblist

open Py

/-! ### Lists -/

/-- The `wb` an account lists an address with. -/
def listedWb (t : Tables) (d : Direction) (account x : Str) : Option Str :=
  (t.users.find? account).bind fun u =>
    (idOf t x).bind fun id => wbAt (t.table d) (keyOf u.1 d id)

def whitelist (t : Tables) (d : Direction) (account : Str) : Set Str :=
  {x | listedWb t d account x = some "W".toList}

/-- Every other `wb` blacklists. -/
def blacklist (t : Tables) (d : Direction) (account : Str) : Set Str :=
  {x | ∃ wb, listedWb t d account x = some wb ∧ wb ≠ "W".toList}

theorem listedWb_eq_some_iff {t : Tables} {d : Direction} {account x wb : Str} :
    listedWb t d account x = some wb ↔ ∃ u id row, t.users.find? account = some u ∧
      idOf t x = some id ∧ (t.table d).find? (keyOf u.1 d id) = some row ∧ row.2.wb = wb := by
  unfold listedWb wbAt
  rw [Option.bind_eq_some_iff]
  constructor
  · rintro ⟨u, hu, h⟩
    obtain ⟨id, hid, h⟩ := Option.bind_eq_some_iff.mp h
    obtain ⟨row, hrow, hwb⟩ := Option.map_eq_some_iff.mp h
    exact ⟨u, id, row, hu, hid, hrow, hwb⟩
  · rintro ⟨u, id, row, hu, hid, hrow, hwb⟩
    refine ⟨u, hu, Option.bind_eq_some_iff.mpr ⟨id, hid, ?_⟩⟩
    rw [hrow, Option.map_some, hwb]

/-- The ids of a row are its key. -/
theorem wblistKey_eq (d : Direction) (row : Wblist) :
    wblistKey row = keyOf (localId d row) d (remoteId d row) := by
  cases d <;> rfl

theorem listRows_eq (t : Tables) (d : Direction) : t.listRows d = (t.table d).rows := by
  cases d <;> rfl

/-- **The query joins the three tables.** -/
theorem mem_selected_iff {t : Tables} {d : Direction} {account x wb : Str} :
    (x, wb) ∈ selected ⟨d, account, none⟩ t ↔ listedWb t d account x = some wb := by
  rw [listedWb_eq_some_iff]
  unfold selected idOf
  simp only [List.mem_flatMap, List.mem_map, List.mem_filter, Bool.and_eq_true, decide_eq_true_eq,
    Option.map_eq_some_iff, Sql.Table.find?_eq_some_iff, listRows_eq, Prod.mk.injEq]
  constructor
  · rintro ⟨row, hrow, u, ⟨hu, hemail, hlocal⟩, m, ⟨hm, hremote, -⟩, rfl, rfl⟩
    refine ⟨u, m.1, row, ⟨hu, hemail⟩, ⟨m, ⟨hm, rfl⟩, rfl⟩, ⟨hrow, ?_⟩, rfl⟩
    rw [wblistKey_eq d, ← hlocal, ← hremote]
  · rintro ⟨u, _, row, ⟨hu, hemail⟩, ⟨m, ⟨hm, rfl⟩, rfl⟩, ⟨hrow, hkey⟩, rfl⟩
    rw [wblistKey_eq d] at hkey
    refine ⟨row, hrow, u, ⟨hu, hemail, ?_⟩, m, ⟨hm, ?_, rfl⟩, rfl, rfl⟩
    · cases d with
      | inbound => exact (Prod.mk.inj hkey).1.symm
      | outbound => exact (Prod.mk.inj hkey).2.symm
    · cases d with
      | inbound => exact (Prod.mk.inj hkey).2.symm
      | outbound => exact (Prod.mk.inj hkey).1.symm

/-- **What `get_account_wblist` and `get_account_outbound_wblist` return.** -/
theorem getAccountLists_eq [Unicode] {select : Select Tables} (hselect : FaithfulSelect select)
    {account : Str} (hquotable : isQuotable account = true) (d : Direction) (t : Tables) :
    ∃ wl bl, getAccountLists select d account true true t = .ok (wl, bl) ∧
      {x | x ∈ wl} = whitelist t d account ∧ {x | x ∈ bl} = blacklist t d account := by
  obtain ⟨rows, hrows, hperm⟩ := hselect.of_quotable ⟨d, account, none⟩ hquotable t
  have hmem : ∀ x wb, (x, wb) ∈ rows ↔ listedWb t d account x = some wb := fun x wb =>
    hperm.mem_iff.trans mem_selected_iff
  refine ⟨(rows.filter fun r => r.2 = "W".toList).map Prod.fst,
    (rows.filter fun r => r.2 ≠ "W".toList).map Prod.fst, ?_, ?_, ?_⟩
  · have hcondition : wbCondition true true = none := rfl
    unfold getAccountLists
    rw [hcondition, hrows]
    rfl
  · ext x
    simp only [Set.mem_ofPred_eq, List.mem_map, List.mem_filter, decide_eq_true_eq]
    unfold whitelist
    rw [Set.mem_ofPred_eq, ← hmem]
    constructor
    · rintro ⟨⟨x, wb⟩, ⟨hrow, rfl⟩, rfl⟩
      exact hrow
    · exact fun h => ⟨_, ⟨h, rfl⟩, rfl⟩
  · ext x
    simp only [Set.mem_ofPred_eq, List.mem_map, List.mem_filter, decide_eq_true_eq]
    unfold blacklist
    rw [Set.mem_ofPred_eq]
    constructor
    · rintro ⟨⟨x, wb⟩, ⟨hrow, hwb⟩, rfl⟩
      exact ⟨wb, (hmem x wb).mp hrow, hwb⟩
    · rintro ⟨wb, hlisted, hwb⟩
      exact ⟨(x, wb), ⟨(hmem x wb).mpr hlisted, hwb⟩, rfl⟩

/-! ### What is stored -/

section Stored

variable [Unicode] {sets : SetOrder Str} {request : Request} {account : Str}

/-- The tables with the rows of the account and of the addresses, as far as they are missing. -/
def Request.withAddresses (request : Request) (sets : SetOrder Str) (account : Str) (t : Tables) :
    Tables :=
  { registerUser account t with
    mailaddr := t.mailaddr.addAll (entries (request.import sets (userId account t)).all) }

/-- **`add_wblist` stores what is imported**, when nothing fails. -/
theorem addWblist_eq {execute : Execute (Tables × ℕ)} (hdb : Answers never execute)
    (haccount : (isValidAmavisdAddress account).isSome) (hplain : Sql.isPlain account = true)
    {t : Tables} (hquotable : ∀ d a, (request.import sets (userId account t)).Submitted d a →
      isQuotable a = true) (n : ℕ) :
    ∃ m k, addWblist execute sets account request (t, n) =
      (.ok (.ok ()), ((request.import sets (userId account t)).imported never m
        (request.start account t), k)) := by
  have hsucceed : ∀ m k, Succeed never m k := fun _ _ _ _ => rfl
  obtain ⟨user, hid, huser⟩ := getUserRecord_of_succeed hdb hplain haccount (t := t) (hsucceed n _)
  set c := request.import sets (userId account t)
  by_cases hsome : ∃ d a, c.Submitted d a
  · obtain ⟨d, a, ha⟩ := hsome
    have hall : ∀ a ∈ c.all, isQuotable a = true := by
      intro a ha
      obtain ⟨d, hd⟩ := c.mem_all_iff.mp ha
      exact hquotable d a hd
    have himport := importWblist_of_reaches hdb hall (n := n + userSteps account t + request.flushSteps)
      (t := request.start account t) ⟨hsucceed _ _, hsucceed _ _, hsucceed _ _, hsucceed _ _⟩
    exact ⟨_, _, (addWblist_of_something haccount hid huser hdb (hsucceed _ _) ha).trans himport⟩
  · have hnone : ∀ d a, ¬c.Submitted d a := fun d a ha => hsome ⟨d, a, ha⟩
    have hnothing := addWblist_of_nothing haccount hid huser hdb (hsucceed _ _) hnone
    have hsame : c.imported never 0 (request.start account t) = request.start account t :=
      Import.imported_of_nothing hnone
    rw [← hsame] at hnothing
    exact ⟨0, _, hnothing⟩

/-- The rows before the import. -/
theorem wbAt_start (t : Tables) (d : Direction) (u id : ℕ) :
    wbAt ((request.start account t).table d) (keyOf u d id) =
      if request.flushBeforeImport = true ∧ u = userId account t then none
      else wbAt (t.table d) (keyOf u d id) := by
  have hsame : (registerUser account t).table d = t.table d := by
    cases d <;> rfl
  unfold Request.start
  by_cases hflush : request.flushBeforeImport = true
  · rw [if_pos hflush]
    have htable : ∃ p, (∀ row, p row = true ↔ localId d row.2 = userId account t) ∧
        (flushed (userId account t) (registerUser account t)).table d = (t.table d).delete p := by
      cases d with
      | inbound => exact ⟨_, fun row => decide_eq_true_iff, rfl⟩
      | outbound => exact ⟨_, fun row => decide_eq_true_iff, rfl⟩
    obtain ⟨p, hp, htable⟩ := htable
    unfold wbAt
    rw [htable, Sql.Table.find?_delete]
    cases hfind : (t.table d).find? (keyOf u d id) with
    | none =>
      rw [Option.map_none, ite_self]
      rfl
    | some row =>
      have hlocal : localId d row.2 = u := by
        have hkey := (Sql.Table.find?_eq_some_iff.mp hfind).2
        rw [wblistKey_eq d] at hkey
        cases d with
        | inbound => exact (Prod.mk.inj hkey).1
        | outbound => exact (Prod.mk.inj hkey).2
      have hrow := hp row
      rw [hlocal] at hrow
      by_cases hu : u = userId account t
      · rw [if_pos ⟨hflush, hu⟩, Option.filter_some_neg (by simpa using hrow.mpr hu)]
        rfl
      · rw [if_neg fun h => hu h.2, Option.filter_some_pos (by simpa using fun h => hu (hrow.mp h))]
  · rw [if_neg hflush, if_neg fun h => hflush h.1, hsame]

variable (t : Tables) (m : ℕ)

theorem users_imported (fails : ℕ → Bool) : ((request.import sets (userId account t)).imported fails m
    (request.start account t)).users = (registerUser account t).users := by
  have hstart : (request.start account t).users = (registerUser account t).users := by
    unfold Request.start
    split_ifs <;> rfl
  exact hstart

omit [Unicode] in
theorem succeeding_never {α : Type*} (n : ℕ) (l : List α) : succeeding never n l = l :=
  succeeding_of_succeed fun _ _ => rfl

/-- The ids are those of the tables with the addresses. -/
theorem idOf_registered (a : Str) : idOf ((request.import sets (userId account t)).registered never m
    (request.start account t)) a = idOf (request.withAddresses sets account t) a := by
  have hstart : (request.start account t).mailaddr = t.mailaddr := by
    unfold Request.start
    split_ifs <;> rfl
  unfold idOf Import.registered Request.withAddresses
  rw [hstart, succeeding_never]

variable (hvalid : ∀ d a, (request.import sets (userId account t)).Submitted d a →
  (isValidAmavisdAddress a).isSome)

include hvalid in
/-- Every submitted address has an id. -/
theorem exists_idOf {d : Direction} {a : Str}
    (ha : (request.import sets (userId account t)).Submitted d a) :
    ∃ id, idOf (request.withAddresses sets account t) a = some id := by
  obtain ⟨priority, hpriority⟩ := exists_mailaddrPriority (hvalid d a ha)
  have hentry : (⟨priority, a⟩ : Address) ∈ entries (request.import sets (userId account t)).all :=
    List.mem_filterMap.mpr ⟨a, Import.mem_all_iff _ |>.mpr ⟨d, ha⟩, by rw [hpriority]; rfl⟩
  have hsome : ((request.withAddresses sets account t).mailaddr.find? a).isSome :=
    Sql.Table.isSome_find?_addAll.mpr (.inr ⟨_, hentry, rfl⟩)
  obtain ⟨row, hrow⟩ := Option.isSome_iff_exists.mp hsome
  refine ⟨row.1, ?_⟩
  unfold idOf
  rw [hrow, Option.map_some]

/-- The ids of two accounts differ. -/
theorem ne_userId {other : Str} (hother : other ≠ account) {u : ℕ × Address}
    (haccount : (isValidAmavisdAddress account).isSome)
    (hu : (registerUser account t).users.find? other = some u) : u.1 ≠ userId account t := by
  intro heq
  obtain ⟨row, hrow⟩ := find?_registerUser haccount t
  obtain ⟨hmem, hemail⟩ := Sql.Table.find?_eq_some_iff.mp hu
  obtain ⟨hmem', hemail'⟩ := Sql.Table.find?_eq_some_iff.mp hrow
  have hsame := (registerUser account t).users.eq_of_id_eq hmem hmem' heq
  rw [hsame] at hemail
  exact hother (hemail.symm.trans hemail')

/-- An account lists what stands under both ids. -/
theorem listedWb_imported (d : Direction) (other a : Str) :
    listedWb ((request.import sets (userId account t)).imported never m (request.start account t)) d
      other a = ((registerUser account t).users.find? other).bind fun u =>
        (idOf (request.withAddresses sets account t) a).bind fun id =>
          wbAt (((request.import sets (userId account t)).imported never m
            (request.start account t)).table d) (keyOf u.1 d id) := by
  unfold listedWb
  rw [users_imported, ← idOf_registered t m]
  rfl

theorem listedWb_withAddresses (d : Direction) (other a : Str) :
    listedWb (request.withAddresses sets account t) d other a =
      ((registerUser account t).users.find? other).bind fun u =>
        (idOf (request.withAddresses sets account t) a).bind fun id =>
          wbAt (t.table d) (keyOf u.1 d id) := by
  cases d <;> rfl

section Listed

variable (haccount : (isValidAmavisdAddress account).isSome) (d : Direction)

include haccount

include hvalid in
/-- **A submitted address is listed** with its `wb`. -/
theorem listedWb_of_submitted {a : Str} (ha : (request.import sets (userId account t)).Submitted d a) :
    listedWb ((request.import sets (userId account t)).imported never m (request.start account t)) d
      account a = some ((request.import sets (userId account t)).wbOf d a) := by
  obtain ⟨row, hrow⟩ := find?_registerUser haccount t
  obtain ⟨id, hid⟩ := exists_idOf t hvalid ha
  rw [listedWb_imported, hrow, hid, Option.bind_some, Option.bind_some]
  rw [← idOf_registered t m] at hid
  have hvalue : (id, (request.import sets (userId account t)).wbOf d a) ∈
      (request.import sets (userId account t)).valuesOf never m (request.start account t) d :=
    Import.mem_valuesOf_iff.mpr ⟨a, ha, hid, rfl⟩
  refine Import.wbAt_imported_of_mem (c := request.import sets (userId account t)) (d := d)
    (nodup_valuesOf never m (request.start account t)) ?_
  rw [succeeding_never]
  exact List.mem_map_of_mem hvalue

/-- An address that is not submitted is listed as it was, unless the old rows are deleted. -/
theorem listedWb_of_not_submitted {a : Str}
    (ha : ¬(request.import sets (userId account t)).Submitted d a) :
    listedWb ((request.import sets (userId account t)).imported never m (request.start account t)) d
      account a = if request.flushBeforeImport = true then none
        else listedWb (request.withAddresses sets account t) d account a := by
  obtain ⟨row, hrow⟩ := find?_registerUser haccount t
  rw [listedWb_imported, listedWb_withAddresses, hrow, Option.bind_some, Option.bind_some]
  cases hid : idOf (request.withAddresses sets account t) a with
  | none =>
    rw [Option.bind_none, Option.bind_none, ite_self]
  | some id =>
    rw [Option.bind_some, Option.bind_some]
    -- the id is none of those that are replaced
    have hkeep : ∀ b id', (request.import sets (userId account t)).Submitted d b →
        idOf ((request.import sets (userId account t)).registered never m (request.start account t)) b =
          some id' → keyOf (userId account t) d id' ≠ keyOf (userId account t) d id := by
      intro b id' hb hidb hkey
      rw [idOf_registered, keyOf_inj.mp hkey] at hidb
      exact ha (eq_of_idOf hid hidb ▸ hb)
    rw [Import.wbAt_imported_of_ne hkeep, wbAt_start]
    by_cases hflush : request.flushBeforeImport = true
    · rw [if_pos ⟨hflush, rfl⟩, if_pos hflush]
    · rw [if_neg fun h => hflush h.1, if_neg hflush]

variable (sets request) in
/-- **The other accounts list what they listed.** -/
theorem listedWb_of_ne {other : Str} (hother : other ≠ account) (a : Str) :
    listedWb ((request.import sets (userId account t)).imported never m (request.start account t)) d
      other a = listedWb (request.withAddresses sets account t) d other a := by
  rw [listedWb_imported, listedWb_withAddresses]
  cases hu : (registerUser account t).users.find? other with
  | none => rfl
  | some u =>
    have hne := ne_userId t hother haccount hu
    rw [Option.bind_some, Option.bind_some]
    refine Option.bind_congr fun id _ => ?_
    rw [Import.wbAt_imported_of_ne (c := request.import sets (userId account t)) (d := d)
      fun b id' _ _ => keyOf_ne hne.symm, wbAt_start, if_neg fun h => hne h.2]

end Listed

end Stored

/-! ### Reading back -/

section ReadBack

variable [Unicode] {sets : SetOrder Str} {request : Request} {account : Str} {t : Tables}

/-- No old row is listed anew because the call gives its ids to the account or to an address, unless
it is replaced or deleted. -/
def Request.NoStray (request : Request) (sets : SetOrder Str) (account : Str) (t : Tables) : Prop :=
  ∀ d other x wb, listedWb (request.withAddresses sets account t) d other x = some wb →
    listedWb t d other x = some wb ∨ (other = account ∧ (request.flushBeforeImport = true ∨
      x ∈ validAddresses (request.wl d) ∨ x ∈ validAddresses (request.bl d)))

/-- After the call the functions return the old lists with the new entries, and every other account
has the lists it had. -/
def ReadsBack (sets : SetOrder Str) (account : Str) (request : Request) (t : Tables) : Prop :=
  ∀ execute, Answers never execute → ∀ select, FaithfulSelect select → ∀ n,
    let t' := (addWblist execute sets account request (t, n)).2.1
    (∀ d, ∃ wl bl, getAccountLists select d account true true t' = .ok (wl, bl) ∧
      {x | x ∈ wl} = (if request.flushBeforeImport then ∅
        else whitelist t d account \ validAddresses (request.bl d)) ∪ validAddresses (request.wl d) ∧
      {x | x ∈ bl} = (if request.flushBeforeImport then ∅
        else blacklist t d account \ validAddresses (request.wl d)) ∪
          (validAddresses (request.bl d) \ validAddresses (request.wl d))) ∧
    ∀ d other, other ≠ account →
      whitelist t' d other = whitelist t d other ∧ blacklist t' d other = blacklist t d other

/-- A row that is listed stays listed. -/
theorem listedWb_withAddresses_of_some {d : Direction} {other x wb : Str}
    (h : listedWb t d other x = some wb) :
    listedWb (request.withAddresses sets account t) d other x = some wb := by
  obtain ⟨u, id, row, hu, hid, hrow, rfl⟩ := listedWb_eq_some_iff.mp h
  obtain ⟨m, hm, rfl⟩ := Option.map_eq_some_iff.mp hid
  have hu' : (registerUser account t).users.find? other = some u := Sql.Table.find?_addAll_of_some hu _
  have hid' : idOf (request.withAddresses sets account t) x = some m.1 := by
    unfold idOf
    rw [show (request.withAddresses sets account t).mailaddr.find? x = some m from
      Sql.Table.find?_addAll_of_some hm _, Option.map_some]
  rw [listedWb_withAddresses, hu', hid', Option.bind_some, Option.bind_some]
  unfold wbAt
  rw [hrow, Option.map_some]

/-- Without stray rows, an address that is not submitted is listed as it was. -/
theorem Request.NoStray.listedWb_eq (hstray : request.NoStray sets account t) {d : Direction}
    {other x : Str} (hx : other = account → request.flushBeforeImport = false ∧
      x ∉ validAddresses (request.wl d) ∧ x ∉ validAddresses (request.bl d)) :
    listedWb (request.withAddresses sets account t) d other x = listedWb t d other x := by
  refine Option.ext fun wb => ⟨fun h => ?_, listedWb_withAddresses_of_some⟩
  rcases hstray d other x wb h with h | ⟨rfl, hreplaced⟩
  · exact h
  · obtain ⟨hflush, hwl, hbl⟩ := hx rfl
    rw [hflush] at hreplaced
    rcases hreplaced with h | h | h
    · cases h
    · exact absurd h hwl
    · exact absurd h hbl

omit [Unicode] in
/-- The two lists of an account follow from what it lists. -/
theorem lists_congr {t₁ t₂ : Tables} {d : Direction} {other : Str}
    (h : ∀ x, listedWb t₁ d other x = listedWb t₂ d other x) :
    whitelist t₁ d other = whitelist t₂ d other ∧ blacklist t₁ d other = blacklist t₂ d other := by
  unfold whitelist blacklist
  constructor
  · ext x
    rw [Set.mem_ofPred_eq, Set.mem_ofPred_eq, h]
  · ext x
    rw [Set.mem_ofPred_eq, Set.mem_ofPred_eq, h]

omit [Unicode] in
/-- What is listed follows from the two lists. -/
theorem listedWb_of_lists {t₁ t₂ : Tables} {d : Direction} {other x wb : Str}
    (hwl : x ∈ whitelist t₁ d other → x ∈ whitelist t₂ d other)
    (hbl : x ∈ blacklist t₁ d other → x ∈ blacklist t₂ d other)
    (h : ∀ wb, listedWb t₂ d other x = some wb → listedWb t₁ d other x = some wb)
    (hwb : listedWb t₁ d other x = some wb) : listedWb t₂ d other x = some wb := by
  by_cases hwhite : wb = "W".toList
  · subst hwhite
    exact hwl hwb
  · obtain ⟨wb', hwb', -⟩ := hbl ⟨wb, hwb, hwhite⟩
    obtain rfl : wb' = wb := Option.some.inj ((h wb' hwb').symm.trans hwb)
    exact hwb'

omit [Unicode] in
/-- The two lists when the entries of `W` and of `B` have replaced others. -/
theorem lists_of_listedWb {s t : Tables} {d : Direction} (other : Str) {W B : Set Str} (flush : Bool)
    (hwl : ∀ x ∈ W, listedWb t d other x = some "W".toList)
    (hbl : ∀ x ∉ W, x ∈ B → listedWb t d other x = some "B".toList)
    (hrest : ∀ x ∉ W, x ∉ B →
      listedWb t d other x = if flush then none else listedWb s d other x) :
    whitelist t d other = (if flush then ∅ else whitelist s d other \ B) ∪ W ∧
      blacklist t d other = (if flush then ∅ else blacklist s d other \ W) ∪ (B \ W) := by
  unfold whitelist blacklist
  constructor
  · ext x
    rw [Set.mem_ofPred_eq]
    by_cases hxW : x ∈ W
    · exact iff_of_true (hwl x hxW) (.inr hxW)
    by_cases hxB : x ∈ B
    · rw [hbl x hxW hxB]
      refine iff_of_false (by decide) ?_
      rintro (h | h)
      · split_ifs at h
        · exact h
        · exact h.2 hxB
      · exact hxW h
    · rw [hrest x hxW hxB]
      cases flush <;> simp [hxW, hxB]
  · ext x
    rw [Set.mem_ofPred_eq]
    by_cases hxW : x ∈ W
    · rw [hwl x hxW]
      refine iff_of_false (by simp) ?_
      rintro (h | h)
      · split_ifs at h
        · exact h
        · exact h.2 hxW
      · exact h.2 hxW
    by_cases hxB : x ∈ B
    · rw [hbl x hxW hxB]
      exact iff_of_true ⟨_, rfl, by decide⟩ (.inr ⟨hxB, hxW⟩)
    · rw [hrest x hxW hxB]
      cases flush <;> simp [hxW, hxB]

/-- Any database will do when the texts are plain. -/
theorem exists_addWblist_eq (sets : SetOrder Str) (haccount : (isValidAmavisdAddress account).isSome)
    (hplain : Sql.isPlain account = true)
    (hquotable : ∀ d x, x ∈ validAddresses (request.wl d) ∨ x ∈ validAddresses (request.bl d) →
      isQuotable x = true) {execute : Execute (Tables × ℕ)} (hdb : Answers never execute) (n : ℕ) :
    ∃ m, (addWblist execute sets account request (t, n)).2.1 =
      (request.import sets (userId account t)).imported never m (request.start account t) := by
  obtain ⟨m, k, heq⟩ := addWblist_eq hdb haccount hplain (t := t)
    (fun d x hx => hquotable d x (submitted_iff.mp hx)) n
  exact ⟨m, by rw [heq]⟩

section Iff

variable (haccount : (isValidAmavisdAddress account).isSome)

include haccount

/-- **The lists that are read back**, when the texts are plain and no row is stray. -/
theorem readsBack_of_quotable
    (hvalid : ∀ d a, (request.import sets (userId account t)).Submitted d a →
      (isValidAmavisdAddress a).isSome) (haccountQuotable : isQuotable account = true)
    (hquotable : ∀ d x, x ∈ validAddresses (request.wl d) ∨ x ∈ validAddresses (request.bl d) →
      isQuotable x = true) (hstray : request.NoStray sets account t) :
    ReadsBack sets account request t := by
  intro execute hdb select hselect n
  have hplain : Sql.isPlain account = true := (Bool.and_eq_true_iff.mp haccountQuotable).1
  obtain ⟨m, heq⟩ := exists_addWblist_eq sets (t := t) haccount hplain hquotable hdb n
  rw [heq]
  refine ⟨fun d => ?_, fun d other hother => ?_⟩
  · obtain ⟨wl, bl, hlists, hwl, hbl⟩ := getAccountLists_eq hselect haccountQuotable d
      ((request.import sets (userId account t)).imported never m (request.start account t))
    obtain ⟨hwhite, hblack⟩ := lists_of_listedWb account request.flushBeforeImport (s := t) (d := d)
      (W := validAddresses (request.wl d)) (B := validAddresses (request.bl d))
      (t := (request.import sets (userId account t)).imported never m (request.start account t))
      (fun x hx => by
        rw [listedWb_of_submitted t m hvalid haccount d (submitted_iff.mpr (.inl hx))]
        exact congrArg some (Import.wbOf_of_mem _ (mem_wl_iff.mpr hx)))
      (fun x hx hx' => by
        rw [listedWb_of_submitted t m hvalid haccount d (submitted_iff.mpr (.inr hx'))]
        exact congrArg some (Import.wbOf_of_notMem _ (mt mem_wl_iff.mp hx)))
      (fun x hx hx' => by
        rw [listedWb_of_not_submitted t m haccount d fun h => (submitted_iff.mp h).elim hx hx']
        split_ifs with hflush
        · rfl
        · exact hstray.listedWb_eq fun _ => ⟨Bool.eq_false_iff.mpr hflush, hx, hx'⟩)
    exact ⟨wl, bl, hlists, hwl.trans hwhite, hbl.trans hblack⟩
  · refine lists_congr fun x => ?_
    rw [listedWb_of_ne sets request t m haccount d hother]
    exact hstray.listedWb_eq fun h => absurd h hother

end Iff

/-! ### Texts that are not plain -/

/-- Queries that say anything about an account that is not quotable. -/
def selectBoth : Select Tables := fun q t =>
  if isQuotable q.account then .ok (selected q t) else .ok [([], "W".toList), ([], "B".toList)]

theorem faithfulSelect_selectBoth : FaithfulSelect selectBoth where
  of_quotable q hq t := ⟨selected q t, if_pos hq, List.Perm.refl _⟩
  succeeds q t := by
    unfold selectBoth
    split_ifs
    · exact ⟨_, rfl⟩
    · exact ⟨_, rfl⟩

/-- The other account has a list afterwards that it did not have. -/
theorem not_readsBack_of_intact {execute : Execute (Tables × ℕ)} (hdb : Answers never execute)
    {other x : Str} (hother : other ≠ account) (hnone : t.users.find? other = none) {u id n : ℕ}
    (h : Intact other x u id (addWblist execute sets account request (t, n)).2.1) :
    ¬ReadsBack sets account request t := by
  intro hreads
  have hframe := ((hreads execute hdb selectBoth faithfulSelect_selectBoth n).2 .inbound other hother).2
  have hlisted : listedWb (addWblist execute sets account request (t, n)).2.1 .inbound other x =
      some "B".toList := by
    obtain ⟨user, huser, rfl⟩ := Option.map_eq_some_iff.mp h.user
    unfold listedWb
    rw [huser, h.address, Option.bind_some, Option.bind_some]
    exact h.row
  have hmem : x ∈ blacklist t .inbound other := by
    rw [← hframe]
    exact ⟨_, hlisted, by decide⟩
  obtain ⟨wb, hwb, -⟩ := hmem
  unfold listedWb at hwb
  rw [hnone] at hwb
  cases hwb

section Converse

variable (haccount : (isValidAmavisdAddress account).isSome)

include haccount

/-- The account is plain. -/
theorem ReadsBack.isPlain (h : ReadsBack sets account request t) : Sql.isPlain account = true := by
  by_contra hplain
  obtain ⟨other, hother, hnone⟩ := exists_other account t
  have hbad := intact_listing other [] Nat.one_pos
  have huser : getUserRecord (detour never (listing other [] 1 Nat.one_pos)) account (t, 0) =
      (.ok ⟨0, 0, []⟩, (listing other [] 1 Nat.one_pos, 1)) := by
    unfold getUserRecord
    rw [detour_of_not_plain (i := .selectUser account) hplain rfl]
  exact not_readsBack_of_intact (answers_detour never _) hother hnone
    (addWblist_detour hbad haccount (kept_intact Nat.one_ne_zero) huser hbad) h

/-- Every entry is quotable. -/
theorem ReadsBack.isQuotable_entry (h : ReadsBack sets account request t) {d : Direction} {x : Str}
    (hx : x ∈ validAddresses (request.wl d) ∨ x ∈ validAddresses (request.bl d)) :
    isQuotable x = true := by
  by_contra hno
  obtain ⟨other, hother, hnone⟩ := exists_other account t
  have hpos : 0 < userId account t + 1 := Nat.succ_pos _
  have hbad := intact_listing other [] hpos
  have hdb := answers_detour never (listing other [] (userId account t + 1) hpos)
  obtain ⟨user, hid, huser⟩ := getUserRecord_of_succeed hdb (h.isPlain haccount) haccount (t := t)
    (n := 0) fun _ _ => rfl
  have hsubmitted : (request.import sets (userId account t)).Submitted d x := submitted_iff.mpr hx
  have himport := importWblist_detour never hbad (request.import sets (userId account t))
    (kept_intact (Nat.succ_ne_self _))
    (request.start account t, 0 + userSteps account t + request.flushSteps)
    (.inr ⟨d, x, hsubmitted, Bool.eq_false_iff.mpr hno⟩)
  have hintact := himport.resolve_left (by
    rintro ⟨_, _, -, hfails⟩
    exact Bool.false_ne_true hfails)
  have hafter : Intact other [] (userId account t + 1) 1 (addWblist
      (detour never (listing other [] (userId account t + 1) hpos)) sets account request (t, 0)).2.1 := by
    rw [addWblist_of_something haccount hid huser hdb (fun _ _ => rfl) hsubmitted]
    exact hintact
  exact not_readsBack_of_intact hdb hother hnone hafter h

omit haccount in
/-- The account is printable, too. -/
theorem ReadsBack.isQuotable_account (h : ReadsBack sets account request t) :
    isQuotable account = true := by
  by_contra hno
  obtain ⟨wl, bl, hlists, hwl, hbl⟩ :=
    (h (detour never t) (answers_detour never t) selectBoth faithfulSelect_selectBoth 0).1 .inbound
  have hselect : ∀ t' : Tables, getAccountLists selectBoth .inbound account true true t' =
      .ok ([[]], [[]]) := by
    intro t'
    unfold getAccountLists selectBoth
    rw [if_neg hno]
    rfl
  obtain ⟨rfl, rfl⟩ := Prod.mk.inj (Except.ok.inj ((hselect _).symm.trans hlists))
  -- the text in both lists
  have hmem : ([] : Str) ∈ {x | x ∈ [([] : Str)]} := List.mem_singleton_self _
  have hwhite := hwl ▸ hmem
  have hblack := hbl ▸ hmem
  have hnotW : ([] : Str) ∉ validAddresses (request.wl .inbound) := by
    rcases hblack with h | h
    · split_ifs at h
      · exact absurd h (Set.notMem_empty _)
      · exact h.2
    · exact h.2
  rcases hwhite with hwhite | hwhite
  · split_ifs at hwhite with hflush
    · exact hwhite
    · rw [if_neg hflush] at hblack
      rcases hblack with ⟨⟨wb, hwb, hne⟩, -⟩ | ⟨hB, -⟩
      · exact hne (Option.some.inj (hwb.symm.trans hwhite.1))
      · exact hwhite.2 hB
  · exact hnotW hwhite

/-- No row is stray. -/
theorem ReadsBack.noStray (h : ReadsBack sets account request t) : request.NoStray sets account t := by
  intro d other x wb hwb
  have hquotable := h.isQuotable_account
  obtain ⟨m, heq⟩ := exists_addWblist_eq sets (t := t) haccount (h.isPlain haccount)
    (fun d x => h.isQuotable_entry haccount) (answers_detour never t) 0
  obtain ⟨hown, hothers⟩ := h (detour never t) (answers_detour never t) selectBoth faithfulSelect_selectBoth 0
  rw [heq] at hown hothers
  by_cases hother : other = account
  · subst hother
    by_contra hno
    obtain ⟨hnotListed, hno⟩ := not_or.mp hno
    have hnot : ¬(request.flushBeforeImport = true ∨ x ∈ validAddresses (request.wl d) ∨
        x ∈ validAddresses (request.bl d)) := fun h => hno ⟨rfl, h⟩
    obtain ⟨hflush, hnot⟩ := not_or.mp hnot
    obtain ⟨hwlx, hblx⟩ := not_or.mp hnot
    obtain ⟨wl, bl, hlists, hwl, hbl⟩ := hown d
    obtain ⟨wl', bl', hlists', hwl', hbl'⟩ := getAccountLists_eq faithfulSelect_selectBoth hquotable d
      ((request.import sets (userId other t)).imported never m (request.start other t))
    obtain ⟨rfl, rfl⟩ := Prod.mk.inj (Except.ok.inj (hlists.symm.trans hlists'))
    have hnotSubmitted : ¬(request.import sets (userId other t)).Submitted d x :=
      fun h => (submitted_iff.mp h).elim hwlx hblx
    have hlisted := listedWb_of_not_submitted t m haccount d hnotSubmitted
    rw [if_neg hflush, hwb] at hlisted
    refine hnotListed (listedWb_of_lists (fun hmem => ?_) (fun hmem => ?_)
      (fun wb' hwb' => ?_) hlisted)
    · rw [← hwl', hwl, if_neg hflush] at hmem
      exact (hmem.resolve_right hwlx).1
    · rw [← hbl', hbl, if_neg hflush] at hmem
      exact (hmem.resolve_right fun h => hblx h.1).1
    · rw [hlisted, ← hwb]
      exact listedWb_withAddresses_of_some hwb'
  · obtain ⟨hwl, hbl⟩ := hothers d other hother
    have hlisted := listedWb_of_ne sets request t m haccount d hother x
    refine .inl (listedWb_of_lists (fun hmem => ?_) (fun hmem => ?_) (fun wb' hwb' => ?_)
      (hlisted.trans hwb))
    · rwa [← hwl]
    · rwa [← hbl]
    · rw [hlisted]
      exact listedWb_withAddresses_of_some hwb'

end Converse

/-- Valid ASCII entries are valid when they are stored. -/
theorem isSome_of_submitted
    (hascii : ∀ d, ∀ s ∈ request.wl d ++ request.bl d, ∀ c ∈ s, c.toNat < 128) {d : Direction} {a : Str}
    {u : ℕ} (ha : (request.import sets u).Submitted d a) : (isValidAmavisdAddress a).isSome := by
  rcases submitted_iff.mp ha with ⟨s, hs, hvalid, rfl⟩ | ⟨s, hs, hvalid, rfl⟩
  · exact isSome_isValidAmavisdAddress_lower (hascii d s (List.mem_append_left _ hs)) hvalid
  · exact isSome_isValidAmavisdAddress_lower (hascii d s (List.mem_append_right _ hs)) hvalid

/-- **What is added is read back, exactly when all texts are plain** and no old row is listed anew. -/
theorem reads_back_iff (haccount : (isValidAmavisdAddress account).isSome)
    (hascii : ∀ d, ∀ s ∈ request.wl d ++ request.bl d, ∀ c ∈ s, c.toNat < 128)
    (sets : SetOrder Str) (t : Tables) :
    ReadsBack sets account request t ↔ isQuotable account = true ∧
      (∀ d x, x ∈ validAddresses (request.wl d) ∨ x ∈ validAddresses (request.bl d) →
        isQuotable x = true) ∧ request.NoStray sets account t := by
  constructor
  · intro h
    exact ⟨h.isQuotable_account, fun d x hx => h.isQuotable_entry haccount hx, h.noStray haccount⟩
  · rintro ⟨hquotable, hentries, hstray⟩
    exact readsBack_of_quotable haccount (fun d a => isSome_of_submitted hascii) hquotable hentries
      hstray

/-- Without rows in the lists no row is stray. -/
theorem noStray_of_rows_eq_nil (h : ∀ d, (t.table d).rows = []) : request.NoStray sets account t := by
  intro d other x wb hwb
  rw [listedWb_withAddresses] at hwb
  obtain ⟨u, -, hwb⟩ := Option.bind_eq_some_iff.mp hwb
  obtain ⟨id, -, hwb⟩ := Option.bind_eq_some_iff.mp hwb
  unfold wbAt at hwb
  rw [Sql.Table.find?_of_rows_eq_nil (h d)] at hwb
  cases hwb

end ReadBack

/-! ### An account that is not plain -/

/-- A sender, in two cases, and another one. -/
theorem readsBack_mixed_case :
    letI := asciiUnicode
    ReadsBack .ofDedup "u@x.io" { wlSenders := ["A@b.io"], blSenders := ["a@b.io", "@c.io"] } {} := by
  let := asciiUnicode
  refine (reads_back_iff (by decide) ?_ .ofDedup {}).mpr ⟨by decide, ?_, noStray_of_rows_eq_nil ?_⟩
  · rintro (_ | _) s hs
    · fin_cases hs <;> decide
    · cases hs
  · rintro (_ | _) x (⟨s, hs, -, rfl⟩ | ⟨s, hs, -, rfl⟩) <;> fin_cases hs <;> decide
  · rintro (_ | _) <;> rfl

/-- A condition with more than one literal is met by the first user. -/
def firstUser [Unicode] : Execute (Tables × ℕ) :=
  answering never fun _ t => ((t.users.rows.head?.map toAddress).toList, t)

/-- What is added for an account with quotes goes into the list of another one. -/
theorem lands_in_other_list :
    letI := asciiUnicode
    let t : Tables := { users := .single 1 Nat.one_pos ⟨10, "o@x.io"⟩ }
    let request : Request := { blSenders := ["s@x.io"] }
    (isValidAmavisdAddress "a@b.io'or'1'='1").isSome ∧ Answers never firstUser ∧
      listedWb t .inbound "o@x.io" "s@x.io" = none ∧
      listedWb (addWblist firstUser .ofDedup "a@b.io'or'1'='1" request (t, 0)).2.1 .inbound "o@x.io"
        "s@x.io" = some "B".toList ∧
      ¬ReadsBack .ofDedup "a@b.io'or'1'='1" request t := by
  let := asciiUnicode
  refine ⟨by decide, answers_answering never _, by decide, by decide +kernel, fun h => ?_⟩
  exact absurd (h.isPlain (by decide)) (by decide)

end IRedAPD.LibWblist

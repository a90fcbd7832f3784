/-
  When `add_wblist` stores all it is asked for or nothing.

  The statements of a call are committed one by one, and their errors are
  handled in three ways: an error of a delete is returned, one of a query or of a
  flush is raised, and one of an insert is passed over.  So a call is all or
  nothing only when what fails comes before the first change, or when nothing
  that matters fails (`allOrNothing_iff`).
-/
import IRedAPD.Equiv.Libs.Wblist.ReadBack

namespace IRedAPD.LibWblist

open Py

variable [Unicode]

/-- Every valid entry is listed, with `B` only when it is not whitelisted. -/
def Stored (request : Request) (account : Str) (t : Tables) : Prop :=
  ∀ d x, (x ∈ validAddresses (request.wl d) → listedWb t d account x = some "W".toList) ∧
    (x ∈ validAddresses (request.bl d) → x ∉ validAddresses (request.wl d) →
      listedWb t d account x = some "B".toList)

/-- `(False, ...)` and the rows of both lists are what they were, or `(True,)` and all is stored. -/
def Met (request : Request) (account : Str) (t : Tables)
    (result : Except Exn (Except Str Unit) × Tables × ℕ) : Prop :=
  ((∃ e, result.1 = .ok (.error e)) ∧ ∀ d, result.2.1.listRows d = t.listRows d) ∨
    (result.1 = .ok (.ok ()) ∧ Stored request account result.2.1)

/-- So does the call end on every database, when the statements with these numbers fail. -/
def AllOrNothing (fails : ℕ → Bool) (n : ℕ) (sets : SetOrder Str) (account : Str) (request : Request)
    (t : Tables) : Prop :=
  ∀ execute, Answers fails execute →
    Met request account t (addWblist execute sets account request (t, n))

section Met

variable {request : Request} {account : Str} {t : Tables}

theorem not_met_of_exception {e : Exn} {w : Tables × ℕ} : ¬Met request account t (.error e, w) := by
  rintro (⟨⟨_, h⟩, -⟩ | ⟨h, -⟩)
  · cases h
  · cases h

theorem met_error_iff {e : Str} {w : Tables × ℕ} :
    Met request account t (.ok (.error e), w) ↔ ∀ d, w.1.listRows d = t.listRows d := by
  constructor
  · rintro (⟨-, h⟩ | ⟨h, -⟩)
    · exact h
    · cases h
  · exact fun h => .inl ⟨⟨e, rfl⟩, h⟩

theorem met_ok_iff {w : Tables × ℕ} :
    Met request account t (.ok (.ok ()), w) ↔ Stored request account w.1 := by
  constructor
  · rintro (⟨⟨_, h⟩, -⟩ | ⟨-, h⟩)
    · cases h
    · exact h
  · exact fun h => .inr ⟨rfl, h⟩

end Met

/-! ### What is stored -/

section Stored

variable {fails : ℕ → Bool} {n : ℕ} {sets : SetOrder Str} {account : Str} {request : Request} {t : Tables}

/-- Every submitted address is stored in `mailaddr` or its insert succeeds, and every insert of a row
succeeds. -/
def Import.Stores (c : Import) (fails : ℕ → Bool) (n : ℕ) (t : Tables) : Prop :=
  (∀ d a, c.Submitted d a → (idOf t a).isSome ∨
    ∃ row ∈ succeeding fails n (entries c.all), row.email = a) ∧
    ∀ d, Succeed fails (c.rowsAt fails n t d) (c.rows fails n t d).length

/-- Which addresses have an id after the inserts. -/
theorem Import.isSome_idOf_registered {c : Import} {a : Str} :
    (idOf (c.registered fails n t) a).isSome ↔ (idOf t a).isSome ∨
      ∃ row ∈ succeeding fails n (entries c.all), row.email = a := by
  unfold idOf
  rw [Option.isSome_map, Option.isSome_map]
  exact Sql.Table.isSome_find?_addAll

theorem stored_iff_submitted (sets : SetOrder Str) (t : Tables) {t' : Tables} : Stored request account t' ↔
    ∀ d x, (request.import sets (userId account t)).Submitted d x →
      listedWb t' d account x = some ((request.import sets (userId account t)).wbOf d x) := by
  constructor
  · intro h d x hx
    by_cases hwl : x ∈ validAddresses (request.wl d)
    · rw [Import.wbOf_of_mem _ (mem_wl_iff.mpr hwl)]
      exact (h d x).1 hwl
    · rw [Import.wbOf_of_notMem _ (mt mem_wl_iff.mp hwl)]
      exact (h d x).2 ((submitted_iff.mp hx).resolve_left hwl) hwl
  · refine fun h d x => ⟨fun hwl => ?_, fun hbl hwl => ?_⟩
    · rw [h d x (submitted_iff.mpr (.inl hwl))]
      exact congrArg some (Import.wbOf_of_mem _ (mem_wl_iff.mpr hwl))
    · rw [h d x (submitted_iff.mpr (.inr hbl))]
      exact congrArg some (Import.wbOf_of_notMem _ (mt mem_wl_iff.mp hwl))

/-- What the account lists after the import. -/
theorem listedWb_account_imported (haccount : (isValidAmavisdAddress account).isSome) (d : Direction)
    (x : Str) :
    listedWb ((request.import sets (userId account t)).imported fails n (request.start account t)) d
      account x = (idOf ((request.import sets (userId account t)).registered fails n
        (request.start account t)) x).bind fun id =>
          wbAt (((request.import sets (userId account t)).imported fails n
            (request.start account t)).table d) (keyOf (userId account t) d id) := by
  obtain ⟨row, hrow⟩ := find?_registerUser haccount t
  unfold listedWb
  rw [users_imported, hrow, Option.bind_some]
  rfl

/-- **All is stored exactly when every address has an id and every row is inserted.** -/
theorem stored_imported_iff (haccount : (isValidAmavisdAddress account).isSome) :
    Stored request account
      ((request.import sets (userId account t)).imported fails n (request.start account t)) ↔
    (request.import sets (userId account t)).Stores fails n (request.start account t) := by
  set c := request.import sets (userId account t) with hc
  set t₀ := request.start account t
  have hnodup : ∀ d, ((c.valuesOf fails n t₀ d).map Prod.fst).Nodup := fun d =>
    nodup_valuesOf fails n t₀
  have hlists : ∀ d x, listedWb (c.imported fails n t₀) d account x =
      (idOf (c.registered fails n t₀) x).bind fun id =>
        wbAt ((c.imported fails n t₀).table d) (keyOf (userId account t) d id) :=
    listedWb_account_imported haccount
  rw [stored_iff_submitted sets t]
  simp only [hlists, ← hc]
  constructor
  · intro h
    refine ⟨fun d a ha => ?_, fun d => ?_⟩
    · obtain ⟨id, hid, -⟩ := Option.bind_eq_some_iff.mp (h d a ha)
      exact Import.isSome_idOf_registered.mp (Option.isSome_iff_exists.mpr ⟨id, hid⟩)
    refine succeed_of_forall_mem (List.Nodup.of_map wblistKey (nodup_keys_rowOf (hnodup d)))
      fun row hrow => ?_
    obtain ⟨⟨id, wb⟩, hv, rfl⟩ := List.mem_map.mp hrow
    obtain ⟨a, ha, hid, rfl⟩ := Import.mem_valuesOf_iff.mp hv
    have hlisted := h d a ha
    rw [hid, Option.bind_some] at hlisted
    by_contra hno
    -- there is one row with the id
    have hnone : ∀ wb', rowOf c.userId d id wb' ∉ succeeding fails (c.rowsAt fails n t₀ d)
        (c.rows fails n t₀ d) := by
      intro wb' hmem
      obtain ⟨⟨id', wb''⟩, hv', heq⟩ := List.mem_map.mp (mem_of_mem_succeeding hmem)
      have hkey := congrArg wblistKey heq
      rw [wblistKey_rowOf, wblistKey_rowOf, keyOf_inj] at hkey
      have hwb := congrArg Wblist.wb heq
      rw [wb_rowOf, wb_rowOf] at hwb
      obtain ⟨a', -, hid', hwb'⟩ := Import.mem_valuesOf_iff.mp hv'
      have hid'' : id' = id := hkey
      rw [hid''] at hid'
      have hsame : a' = a := eq_of_idOf hid' hid
      rw [← hwb, hwb', hsame] at hmem
      exact hno hmem
    have hgone := Import.wbAt_imported_of_notMem ha hid hnone
    have huser : c.userId = userId account t := rfl
    rw [huser] at hgone
    rw [hgone] at hlisted
    cases hlisted
  · rintro ⟨hknown, hsucceed⟩ d a ha
    obtain ⟨id, hid⟩ := Option.isSome_iff_exists.mp (Import.isSome_idOf_registered.mpr (hknown d a ha))
    rw [hid, Option.bind_some]
    refine Import.wbAt_imported_of_mem (c := c) (hnodup d) ?_
    rw [succeeding_of_succeed (hsucceed d)]
    exact List.mem_map_of_mem (Import.mem_valuesOf_iff.mpr ⟨a, ha, hid, rfl⟩)

end Stored

/-! ### The import -/

section Import

variable {fails : ℕ → Bool} {n : ℕ} {sets : SetOrder Str} {account : Str} {request : Request} {t : Tables}

/-- The first delete fails, or the second one, and the account lists none of the senders. -/
def Import.Aborts (c : Import) (fails : ℕ → Bool) (n : ℕ) (t : Tables) : Prop :=
  ¬Succeed fails (c.deleteAt n) (stepsFor (c.senderRecords fails n t)) ∨
    (¬Succeed fails (c.deleteRcptsAt fails n t) (stepsFor (c.rcptRecords fails n t)) ∧
      ∀ id ∈ (c.senderRecords fails n t).map Prod.snd, wbAt t.wblist (c.userId, id) = none)

omit [Unicode] in
/-- A delete that deletes nothing. -/
theorem rows_deletedInbound_eq_iff {userId : ℕ} {ids : List ℕ} :
    (deletedInbound userId ids t).wblist.rows = t.wblist.rows ↔
      ∀ id ∈ ids, wbAt t.wblist (userId, id) = none := by
  unfold deletedInbound Sql.Table.delete wbAt
  rw [List.filter_eq_self]
  simp only [Option.map_eq_none_iff, Sql.Table.find?_eq_none_iff]
  constructor
  · intro h id hid row hrow hkey
    obtain ⟨hrid, hsid⟩ := Prod.mk.inj hkey
    have hkeep := h row hrow
    rw [hrid, hsid] at hkeep
    simp [hid] at hkeep
  · intro h row hrow
    have hne : ¬(row.2.rid = userId ∧ row.2.sid ∈ ids) := by
      rintro ⟨hrid, hsid⟩
      exact h row.2.sid hsid row hrow (Prod.ext hrid rfl)
    simpa [imp_iff_not_or] using hne

/-- Both queries succeed, and the import aborts before a change or completes. -/
def Import.Atomic (c : Import) (fails : ℕ → Bool) (n : ℕ) (t : Tables) (unchanged : Prop) : Prop :=
  Succeed fails (c.selectAt n) (stepsFor c.senders) ∧
    Succeed fails (c.selectRcptsAt n) (stepsFor c.rcpts) ∧
      ((unchanged ∧ c.Aborts fails n t) ∨ (c.Reaches fails n t ∧ c.Stores fails n t))

variable {c : Import} {execute : Execute (Tables × ℕ)} (hdb : Answers fails execute)
  (hquotable : ∀ a ∈ c.all, isQuotable a = true)

include hdb hquotable

theorem importWblist_of_select_fails (h : ¬(Succeed fails (c.selectAt n) (stepsFor c.senders) ∧
      Succeed fails (c.selectRcptsAt n) (stepsFor c.rcpts))) :
    ∃ e w, importWblist execute c.userId c.sets c.wlSenders c.blSenders c.wlRcpts c.blRcpts (t, n) =
      (.error e, w) := by
  have hcreate := importWblist_create hdb hquotable (n := n) (t := t)
  by_cases hselect : Succeed fails (c.selectAt n) (stepsFor c.senders)
  · have hrecords := importWblist_select hdb hquotable (t := t) hselect
    obtain ⟨e, w, hrcpts⟩ : ∃ e w, mailaddrRecords execute (c.sets.order (c.wlRcpts ++ c.blRcpts))
        (c.registered fails n t, c.selectRcptsAt n) = (.error e, w) :=
      mailaddrRecords_of_fails hdb _ fun hrcpts => h ⟨hselect, hrcpts⟩
    refine ⟨e, w, ?_⟩
    unfold importWblist
    simp only [hcreate, hrecords, hrcpts]
  · obtain ⟨e, w, hsenders⟩ : ∃ e w, mailaddrRecords execute (c.sets.order (c.wlSenders ++ c.blSenders))
        (c.registered fails n t, c.selectAt n) = (.error e, w) := mailaddrRecords_of_fails hdb _ hselect
    refine ⟨e, w, ?_⟩
    unfold importWblist
    simp only [hcreate, hsenders]

section Delete

variable (hselect : Succeed fails (c.selectAt n) (stepsFor c.senders))
  (hselectRcpts : Succeed fails (c.selectRcptsAt n) (stepsFor c.rcpts))

include hselect hselectRcpts

theorem importWblist_of_delete_error {e : Str} {w : Tables × ℕ}
    (h : deleteOld execute c.userId (c.senderRecords fails n t) (c.rcptRecords fails n t)
      (c.registered fails n t, c.deleteAt n) = (.error e, w)) :
    importWblist execute c.userId c.sets c.wlSenders c.blSenders c.wlRcpts c.blRcpts (t, n) =
      (.ok (.error e), w) := by
  have hcreate := importWblist_create hdb hquotable (n := n) (t := t)
  have hrecords := importWblist_select hdb hquotable (t := t) hselect
  have hrcptRecords := importWblist_selectRcpts hdb hquotable (t := t) hselectRcpts
  unfold importWblist
  simp only [hcreate, hrecords, hrcptRecords, h]

/-- The rows a failed import leaves. -/
theorem importWblist_of_delete_fails
    (h : ¬(Succeed fails (c.deleteAt n) (stepsFor (c.senderRecords fails n t)) ∧
      Succeed fails (c.deleteRcptsAt fails n t) (stepsFor (c.rcptRecords fails n t)))) :
    ∃ e w, importWblist execute c.userId c.sets c.wlSenders c.blSenders c.wlRcpts c.blRcpts (t, n) =
      (.ok (.error e), w) ∧ (∀ d, (w.1.listRows d).Sublist (t.listRows d)) ∧
        ((∀ d, w.1.listRows d = t.listRows d) ↔ c.Aborts fails n t) := by
  by_cases hdelete : Succeed fails (c.deleteAt n) (stepsFor (c.senderRecords fails n t))
  · have hrcpts : ¬Succeed fails (c.deleteRcptsAt fails n t) (stepsFor (c.rcptRecords fails n t)) :=
      fun hrcpts => h ⟨hdelete, hrcpts⟩
    obtain ⟨e, m, he⟩ := deleteOld_of_fails_outbound hdb c.userId (c.senderRecords fails n t)
      (c.rcptRecords fails n t) (c.registered fails n t) hdelete hrcpts
    refine ⟨e, _, importWblist_of_delete_error hdb hquotable hselect hselectRcpts he, ?_, ?_, ?_⟩
    · rintro (_ | _)
      · exact List.filter_sublist
      · exact List.Sublist.refl _
    · exact fun hrows => .inr ⟨hrcpts, rows_deletedInbound_eq_iff.mp (hrows .inbound)⟩
    · rintro (hfails | ⟨-, hrows⟩)
      · exact absurd hdelete hfails
      · rintro (_ | _)
        · exact rows_deletedInbound_eq_iff.mpr hrows
        · rfl
  · obtain ⟨e, he⟩ := deleteOld_of_fails_inbound hdb c.userId (c.senderRecords fails n t)
      (c.rcptRecords fails n t) (c.registered fails n t) hdelete
    refine ⟨e, _, importWblist_of_delete_error hdb hquotable hselect hselectRcpts he, ?_, ?_, ?_⟩
    · rintro (_ | _)
      · exact List.Sublist.refl _
      · exact List.Sublist.refl _
    · exact fun _ => .inl hdelete
    · rintro - (_ | _)
      · rfl
      · rfl

end Delete

end Import

/-! ### The call -/

section Call

variable {fails : ℕ → Bool} {n : ℕ} {sets : SetOrder Str} {account : Str} {request : Request} {t : Tables}

/-- The account has no rows to flush. -/
def Request.FlushesNothing (request : Request) (account : Str) (t : Tables) : Prop :=
  request.flushBeforeImport = true → ∀ d, ∀ row ∈ t.listRows d, localId d row.2 ≠ userId account t

theorem listRows_registerUser (d : Direction) : (registerUser account t).listRows d = t.listRows d := by
  cases d <;> rfl

theorem listRows_start_sublist (d : Direction) :
    ((request.start account t).listRows d).Sublist (t.listRows d) := by
  unfold Request.start
  split_ifs
  · cases d with
    | inbound => exact List.filter_sublist
    | outbound => exact List.filter_sublist
  · rw [listRows_registerUser]

theorem flushesNothing_iff : request.FlushesNothing account t ↔
    ∀ d, (request.start account t).listRows d = t.listRows d := by
  unfold Request.FlushesNothing Request.start
  split_ifs with hflush
  · refine (forall_prop_of_true hflush).trans (forall_congr' fun d => ?_)
    cases d with
    | inbound =>
      refine Iff.trans ?_ List.filter_eq_self.symm
      exact forall₂_congr fun row _ => by simp [localId]
    | outbound =>
      refine Iff.trans ?_ List.filter_eq_self.symm
      exact forall₂_congr fun row _ => by simp [localId]
  · exact iff_of_true (fun h => absurd h hflush) listRows_registerUser

variable {execute : Execute (Tables × ℕ)}

/-- **When an import of plain texts is all or nothing.** -/
theorem met_import_iff (haccount : (isValidAmavisdAddress account).isSome)
    (hdb : Answers fails execute)
    (hquotable : ∀ a ∈ (request.import sets (userId account t)).all, isQuotable a = true) :
    Met request account t (importWblist execute (userId account t) sets
      (request.import sets (userId account t)).wlSenders (request.import sets (userId account t)).blSenders
      (request.import sets (userId account t)).wlRcpts (request.import sets (userId account t)).blRcpts
      (request.start account t, n)) ↔
    (request.import sets (userId account t)).Atomic fails n (request.start account t)
      (request.FlushesNothing account t) := by
  set c := request.import sets (userId account t) with hc
  set t₀ := request.start account t with ht₀
  -- a failed query ends the import with an exception that is not reported
  by_cases hqueries : Succeed fails (c.selectAt n) (stepsFor c.senders) ∧
    Succeed fails (c.selectRcptsAt n) (stepsFor c.rcpts)
  swap
  · obtain ⟨e, w, himport⟩ := importWblist_of_select_fails hdb hquotable (t := t₀) hqueries
    refine iff_of_false (fun h => ?_) fun h => hqueries ⟨h.1, h.2.1⟩
    exact not_met_of_exception (himport ▸ h)
  obtain ⟨hselect, hselectRcpts⟩ := hqueries
  -- after the deletes a failed insert is passed over, so the import ends well
  by_cases hdeletes : Succeed fails (c.deleteAt n) (stepsFor (c.senderRecords fails n t₀)) ∧
    Succeed fails (c.deleteRcptsAt fails n t₀) (stepsFor (c.rcptRecords fails n t₀))
  · have hreaches : c.Reaches fails n t₀ := ⟨hselect, hselectRcpts, hdeletes⟩
    have himport := importWblist_of_reaches hdb hquotable hreaches
    have hmet : Met request account t (importWblist execute c.userId c.sets c.wlSenders c.blSenders
        c.wlRcpts c.blRcpts (t₀, n)) ↔ c.Stores fails n t₀ := by
      rw [himport, met_ok_iff]
      exact stored_imported_iff haccount
    refine hmet.trans ⟨fun h => ⟨hselect, hselectRcpts, .inr ⟨hreaches, h⟩⟩, ?_⟩
    rintro ⟨-, -, ⟨-, hdelete | ⟨hrcpts, -⟩⟩ | ⟨-, h⟩⟩
    · exact absurd hdeletes.1 hdelete
    · exact absurd hdeletes.2 hrcpts
    · exact h
  · obtain ⟨e, w, himport, hsublist, hrows⟩ :=
      importWblist_of_delete_fails hdb hquotable hselect hselectRcpts hdeletes
    have hmet : Met request account t (importWblist execute c.userId c.sets c.wlSenders c.blSenders
        c.wlRcpts c.blRcpts (t₀, n)) ↔ ∀ d, w.1.listRows d = t.listRows d := by
      rw [himport, met_error_iff]
    refine hmet.trans ⟨fun h => ?_, ?_⟩
    · -- no row is lost on the way
      have hstart : ∀ d, t₀.listRows d = t.listRows d := fun d =>
        (listRows_start_sublist d).antisymm ((h d) ▸ hsublist d)
      exact ⟨hselect, hselectRcpts,
        .inl ⟨flushesNothing_iff.mpr hstart, hrows.mp fun d => (h d).trans (hstart d).symm⟩⟩
    · rintro ⟨-, -, ⟨hstart, haborts⟩ | ⟨hreaches, -⟩⟩ d
      · rw [hrows.mpr haborts d]
        exact flushesNothing_iff.mp hstart d
      · exact absurd hreaches.2.2 hdeletes

/-- The user is not found or created; or the old rows are flushed, if they are to be, and nothing is
submitted or the import is all or nothing. -/
def Request.Atomic (request : Request) (fails : ℕ → Bool) (n : ℕ) (sets : SetOrder Str) (account : Str)
    (t : Tables) : Prop :=
  ¬Succeed fails n (userSteps account t) ∨
    (Succeed fails (n + userSteps account t) request.flushSteps ∧
      ((∀ d a, ¬(request.import sets (userId account t)).Submitted d a) ∨
        ((∀ a ∈ (request.import sets (userId account t)).all, isQuotable a = true) ∧
          (request.import sets (userId account t)).Atomic fails
            (n + userSteps account t + request.flushSteps) (request.start account t)
            (request.FlushesNothing account t))))

section Plain

variable (haccount : (isValidAmavisdAddress account).isSome) (hplain : Sql.isPlain account = true)
  (hdb : Answers fails execute)

include haccount hplain hdb

/-- The user is not found. -/
theorem met_of_user_fails (h : ¬Succeed fails n (userSteps account t)) :
    Met request account t (addWblist execute sets account request (t, n)) := by
  obtain ⟨e, t', m, huser, hwblist, houtbound⟩ := getUserRecord_of_fails hdb hplain haccount h
  rw [addWblist_of_user_error haccount huser, met_error_iff]
  rintro (_ | _)
  · exact congrArg Sql.Table.rows hwblist
  · exact congrArg Sql.Table.rows houtbound

variable (huserSteps : Succeed fails n (userSteps account t))

include huserSteps

/-- The flush fails. -/
theorem not_met_of_flush_fails
    (h : ¬Succeed fails (n + userSteps account t) request.flushSteps) :
    ¬Met request account t (addWblist execute sets account request (t, n)) := by
  obtain ⟨user, hid, huser⟩ := getUserRecord_of_succeed hdb hplain haccount huserSteps
  unfold Request.flushSteps at h
  by_cases hflush : request.flushBeforeImport = true
  · rw [if_pos hflush] at h
    obtain ⟨e, w, herror⟩ := flush_of_fails hdb (userId account t) (registerUser account t) h
    rw [addWblist_of_flush_error haccount hid huser hflush herror]
    exact not_met_of_exception
  · rw [if_neg hflush] at h
    exact absurd (succeed_zero _) h

variable (hflush : Succeed fails (n + userSteps account t) request.flushSteps)

include hflush

/-- Nothing is submitted. -/
theorem met_of_nothing (h : ∀ d a, ¬(request.import sets (userId account t)).Submitted d a) :
    Met request account t (addWblist execute sets account request (t, n)) := by
  obtain ⟨user, hid, huser⟩ := getUserRecord_of_succeed hdb hplain haccount huserSteps
  rw [addWblist_of_nothing haccount hid huser hdb hflush h, met_ok_iff,
    stored_iff_submitted sets t]
  exact fun d x hx => absurd hx (h d x)

/-- Something is submitted. -/
theorem met_of_something {d : Direction} {a : Str}
    (ha : (request.import sets (userId account t)).Submitted d a)
    (hquotable : ∀ a ∈ (request.import sets (userId account t)).all, isQuotable a = true) :
    Met request account t (addWblist execute sets account request (t, n)) ↔
      (request.import sets (userId account t)).Atomic fails
        (n + userSteps account t + request.flushSteps) (request.start account t)
        (request.FlushesNothing account t) := by
  obtain ⟨user, hid, huser⟩ := getUserRecord_of_succeed hdb hplain haccount huserSteps
  rw [addWblist_of_something haccount hid huser hdb hflush ha]
  exact met_import_iff haccount hdb hquotable

end Plain

/-! ### Texts that are not plain -/

omit [Unicode] in
/-- An id that no row has. -/
theorem exists_newId (t : Tables) (u : ℕ) :
    ∃ id, 0 < id ∧ id ≠ u ∧ ∀ row ∈ t.wblist.rows, row.2.rid ≠ id := by
  obtain ⟨id, hid⟩ := Infinite.exists_notMem_finset (0 :: u :: t.wblist.rows.map fun row => row.2.rid).toFinset
  rw [List.mem_toFinset] at hid
  refine ⟨id, Nat.pos_of_ne_zero ?_, ?_, fun row hrow => ?_⟩
  · rintro rfl
    exact hid List.mem_cons_self
  · rintro rfl
    exact hid (List.mem_cons_of_mem _ List.mem_cons_self)
  · rintro rfl
    exact hid (List.mem_cons_of_mem _ (List.mem_cons_of_mem _ (List.mem_map_of_mem hrow)))

omit [Unicode] in
/-- A row with such an id is new. -/
theorem Intact.rows_ne {other x : Str} {u id : ℕ} {t t' : Tables} (h : Intact other x u id t')
    (hnew : ∀ row ∈ t.wblist.rows, row.2.rid ≠ u) : t'.wblist.rows ≠ t.wblist.rows := by
  intro hsame
  obtain ⟨row, hrow, hlocal, -, -⟩ := (wbAt_eq_some_iff (t := t') (d := .inbound)).mp h.row
  have hmem : row ∈ t.wblist.rows := hsame ▸ hrow
  exact hnew row hmem hlocal

/-- An account that is not plain: a query that is answered with nothing may have changed the rows. -/
theorem AllOrNothing.fails_of_not_plain (haccount : (isValidAmavisdAddress account).isSome)
    (hplain : ¬Sql.isPlain account = true) (h : AllOrNothing fails n sets account request t) :
    fails n = true := by
  by_contra hn
  rw [Bool.not_eq_true] at hn
  obtain ⟨u, hpos, -, hnew⟩ := exists_newId t 0
  have hbad := intact_listing [] [] hpos
  set bad := listing [] [] u hpos
  set execute := answering fails fun _ _ => ([], bad) with hexecute
  have hdb : Answers fails execute := answers_answering fails _
  have hselect : execute (.selectUser account) (t, n) = (.ok [], (bad, n + 1)) :=
    answering_of_not_plain (i := .selectUser account) hplain hn
  -- whatever fails then, the new tables stay
  have hcreate : ∃ e m, createUser execute account (bad, n + 1) = (.error e, (bad, m)) ∨
      createUser execute account (bad, n + 1) = (.ok none, (bad, m)) := by
    obtain ⟨priority, hpriority⟩ := exists_mailaddrPriority haccount
    unfold createUser
    rw [hpriority]
    simp only
    by_cases hsecond : fails (n + 1) = true
    · obtain ⟨e, he⟩ := hdb.of_fails (.insertUser account priority) bad hsecond
      rw [he]
      exact ⟨e, _, .inl rfl⟩
    rw [Bool.not_eq_true] at hsecond
    rw [show execute (.insertUser account priority) (bad, n + 1) = (.ok [], (bad, n + 1 + 1)) from
      answering_of_not_plain (i := .insertUser account priority) hplain hsecond]
    simp only
    by_cases hthird : fails (n + 1 + 1) = true
    · obtain ⟨e, he⟩ := hdb.of_fails (.selectUser account) bad hthird
      rw [he]
      exact ⟨e, _, .inl rfl⟩
    rw [Bool.not_eq_true] at hthird
    rw [show execute (.selectUser account) (bad, n + 1 + 1) = (.ok [], (bad, n + 1 + 1 + 1)) from
      answering_of_not_plain (i := .selectUser account) hplain hthird]
    exact ⟨[], _, .inr rfl⟩
  have huser : ∃ e m, getUserRecord execute account (t, n) = (.error e, (bad, m)) := by
    unfold getUserRecord
    rw [hselect]
    obtain ⟨e, m, hcreate | hcreate⟩ := hcreate
    · exact ⟨e, m, by simp only [hcreate]⟩
    · exact ⟨_, m, by simp only [hcreate]; rfl⟩
  obtain ⟨e, m, huser⟩ := huser
  have hmet := h execute hdb
  rw [addWblist_of_user_error haccount huser, met_error_iff] at hmet
  exact hbad.rows_ne hnew (hmet .inbound)

section Converse

variable (haccount : (isValidAmavisdAddress account).isSome) (hplain : Sql.isPlain account = true)

include haccount hplain

/-- A submitted text that is not plain: the query for it may lose the user. -/
theorem AllOrNothing.isQuotable (h : AllOrNothing fails n sets account request t)
    (huserSteps : Succeed fails n (userSteps account t))
    (hflush : Succeed fails (n + userSteps account t) request.flushSteps) {d : Direction} {a : Str}
    (ha : (request.import sets (userId account t)).Submitted d a) : isQuotable a = true := by
  by_contra hno
  obtain ⟨u, hpos, hne, hnew⟩ := exists_newId t (userId account t)
  obtain ⟨other, hother, -⟩ := exists_other account t
  have hbad := intact_listing other [] hpos
  set bad := listing other [] u hpos
  have hdb := answers_detour fails bad
  obtain ⟨user, hid, huser⟩ := getUserRecord_of_succeed hdb hplain haccount huserSteps
  have hkept : Kept (userId account t) fun t' => Intact other [] u 1 t' ∧ t'.users = bad.users :=
    fun i hi t₁ t₂ rows h heffect => ⟨kept_intact hne i hi t₁ t₂ rows h.1 heffect,
      kept_users _ _ i hi t₁ t₂ rows h.2 heffect⟩
  have hmet := h (detour fails bad) hdb
  rw [addWblist_of_something haccount hid huser hdb hflush ha] at hmet
  rcases importWblist_detour fails ⟨hbad, rfl⟩ (request.import sets (userId account t)) hkept
    (request.start account t, n + userSteps account t + request.flushSteps)
    (.inr ⟨d, a, ha, Bool.eq_false_iff.mpr hno⟩) with ⟨e, m, hexception, -⟩ | ⟨hintact, husers⟩
  · rcases hmet with ⟨⟨e', herror⟩, -⟩ | ⟨hok, -⟩
    · cases hexception.symm.trans herror
    · cases hexception.symm.trans hok
  · rcases hmet with ⟨-, hrows⟩ | ⟨-, hstored⟩
    · exact hintact.rows_ne hnew (hrows .inbound)
    · -- the account has no user any more
      have hlisted := (stored_iff_submitted sets t).mp hstored d a ha
      obtain ⟨row, -, -, hrow, -⟩ := listedWb_eq_some_iff.mp hlisted
      have hrow' : bad.users.find? account = some row := husers ▸ hrow
      obtain ⟨hmem, hemail⟩ := Sql.Table.find?_eq_some_iff.mp hrow'
      rw [List.mem_singleton.mp hmem] at hemail
      exact hother hemail

/-- **A plain account.** -/
theorem allOrNothing_iff_atomic :
    AllOrNothing fails n sets account request t ↔ request.Atomic fails n sets account t := by
  by_cases huserSteps : Succeed fails n (userSteps account t)
  swap
  · exact iff_of_true (fun execute hdb => met_of_user_fails haccount hplain hdb huserSteps)
      (.inl huserSteps)
  by_cases hflush : Succeed fails (n + userSteps account t) request.flushSteps
  swap
  · refine iff_of_false (fun h => ?_) fun h => ?_
    · exact not_met_of_flush_fails haccount hplain (answers_detour fails t) huserSteps hflush
        (h _ (answers_detour fails t))
    · rcases h with h | ⟨h, -⟩
      · exact h huserSteps
      · exact hflush h
  by_cases hsome : ∃ d a, (request.import sets (userId account t)).Submitted d a
  swap
  · have hnone : ∀ d a, ¬(request.import sets (userId account t)).Submitted d a :=
      fun d a ha => hsome ⟨d, a, ha⟩
    exact iff_of_true (fun execute hdb => met_of_nothing haccount hplain hdb huserSteps hflush hnone)
      (.inr ⟨hflush, .inl hnone⟩)
  obtain ⟨d, a, ha⟩ := hsome
  constructor
  · intro h
    have hquotable : ∀ a ∈ (request.import sets (userId account t)).all, isQuotable a = true := by
      intro b hb
      obtain ⟨d', hd'⟩ := (Import.mem_all_iff _).mp hb
      exact h.isQuotable haccount hplain huserSteps hflush hd'
    have hatomic := (met_of_something haccount hplain (answers_detour fails t) huserSteps hflush ha
      hquotable).mp (h _ (answers_detour fails t))
    exact .inr ⟨hflush, .inr ⟨hquotable, hatomic⟩⟩
  · rintro (h | ⟨-, h | ⟨hquotable, hatomic⟩⟩)
    · exact absurd huserSteps h
    · exact absurd ha (h d a)
    · exact fun execute hdb =>
        (met_of_something haccount hplain hdb huserSteps hflush ha hquotable).mpr hatomic

end Converse

/-- **When `add_wblist` is all or nothing.** -/
theorem allOrNothing_iff (fails : ℕ → Bool) (n : ℕ) (sets : SetOrder Str) (account : Str)
    (request : Request) (t : Tables) :
    AllOrNothing fails n sets account request t ↔ (isValidAmavisdAddress account).isNone ∨
      (Sql.isPlain account = false ∧ fails n = true) ∨
      (Sql.isPlain account = true ∧ request.Atomic fails n sets account t) := by
  by_cases hinvalid : (isValidAmavisdAddress account).isNone = true
  · refine iff_of_true (fun execute hdb => ?_) (.inl hinvalid)
    rw [addWblist_of_invalid hinvalid, met_error_iff]
    exact fun d => rfl
  have haccount : (isValidAmavisdAddress account).isSome := by
    simpa [Option.isSome_iff_ne_none] using hinvalid
  by_cases hplain : Sql.isPlain account = true
  · rw [allOrNothing_iff_atomic haccount hplain]
    refine ⟨fun h => .inr (.inr ⟨hplain, h⟩), ?_⟩
    rintro (h | ⟨h, -⟩ | ⟨-, h⟩)
    · exact absurd h hinvalid
    · rw [hplain] at h
      cases h
    · exact h
  · constructor
    · exact fun h =>
        .inr (.inl ⟨Bool.eq_false_iff.mpr hplain, h.fails_of_not_plain haccount hplain⟩)
    · rintro (h | ⟨-, hn⟩ | ⟨h, -⟩) execute hdb
      · exact absurd h hinvalid
      · obtain ⟨e, he⟩ := hdb.of_fails (.selectUser account) t hn
        have huser : getUserRecord execute account (t, n) = (.error e, (t, n + 1)) := by
          unfold getUserRecord
          rw [he]
        rw [addWblist_of_user_error haccount huser, met_error_iff]
        exact fun d => rfl
      · exact absurd h hplain

end Call

/-- A success without an entry. -/
theorem not_met_of_not_listed {request : Request} {account x : Str} {d : Direction} {t : Tables}
    {result : Except Exn (Except Str Unit) × Tables × ℕ} (hok : result.1 = .ok (.ok ()))
    (hno : listedWb result.2.1 d account x = none) (hx : x ∈ validAddresses (request.wl d)) :
    ¬Met request account t result := by
  rintro (⟨⟨e, he⟩, -⟩ | ⟨-, hstored⟩)
  · rw [he] at hok
    cases hok
  · exact Option.some_ne_none _ (((hstored d x).1 hx).symm.trans hno)

/-- The tables with one user. -/
def oneUser : Tables := { users := .single 1 Nat.one_pos ⟨10, "u@x.io"⟩ }

/-- A request for one sender. -/
def oneSender : Request := { wlSenders := ["s@x.io"] }

omit [Unicode] in
/-- The insert of the row fails, and the call returns `(True,)`. -/
theorem reports_success_without_row :
    letI := asciiUnicode
    (isValidAmavisdAddress "u@x.io").isSome ∧
      (addWblist (detour (· == 4) oneUser) .ofDedup "u@x.io" oneSender (oneUser, 0)).1 = .ok (.ok ()) ∧
      listedWb (addWblist (detour (· == 4) oneUser) .ofDedup "u@x.io" oneSender (oneUser, 0)).2.1
        .inbound "u@x.io" "s@x.io" = none ∧
      ¬AllOrNothing (· == 4) 0 .ofDedup "u@x.io" oneSender oneUser := by
  have hresult : letI := asciiUnicode
      (addWblist (detour (· == 4) oneUser) .ofDedup "u@x.io" oneSender (oneUser, 0)).1 =
        .ok (.ok ()) := by decide +kernel
  have hlisted : letI := asciiUnicode
      listedWb (addWblist (detour (· == 4) oneUser) .ofDedup "u@x.io" oneSender (oneUser, 0)).2.1
        .inbound "u@x.io" "s@x.io" = none := by decide +kernel
  refine ⟨by decide, hresult, hlisted, fun h => ?_⟩
  have hx : "s@x.io".toList ∈ @validAddresses asciiUnicode (oneSender.wl .inbound) :=
    ⟨_, List.mem_singleton_self _, by decide, by decide⟩
  exact @not_met_of_not_listed asciiUnicode _ _ _ _ _ _ hresult hlisted hx
    (h _ (@answers_detour asciiUnicode _ _))

end IRedAPD.LibWblist

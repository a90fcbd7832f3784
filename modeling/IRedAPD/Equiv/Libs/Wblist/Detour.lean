/-
  A database that does anything when a text is not plain.

  `detour` replaces its tables at the first such statement.  What no later
  statement of the account changes is then there to stay (`addWblist_detour`), a
  row of another account for instance (`Intact`).
-/
import IRedAPD.Equiv.Addresses
import IRedAPD.Equiv.Libs.Wblist.Import

namespace IRedAPD.LibWblist

open Py

/-! ### Statements about one user -/

/-- The statement adds no user, and the rows of the lists it is about are those of one user. -/
def Statement.Concerns (userId : ℕ) : Statement → Prop
  | insertMailaddr _ _ | selectUser _ | selectMailaddr _ => True
  | insertUser _ _ => False
  | flushWblist rid | deleteWblist rid _ | deleteWblistWb rid _ _ => rid = userId
  | flushOutboundWblist sid | deleteOutboundWblist sid _ | deleteOutboundWblistWb sid _ _ =>
    sid = userId
  | insertWblist row => row.rid = userId
  | insertOutboundWblist row => row.sid = userId

section Keeps

variable {σ : Type*} {execute : Execute σ} {I : σ → Prop} {userId : ℕ}
  (hkeep : ∀ i : Statement, i.Concerns userId → ∀ w, I w → I (execute i w).2)

include hkeep

theorem createMailaddr_keeps [Unicode] (addresses : List Str) {w : σ} (hw : I w) :
    I (createMailaddr execute addresses w) := by
  induction addresses generalizing w with
  | nil => exact hw
  | cons a addresses ih =>
    unfold createMailaddr
    cases mailaddrPriority a with
    | none => exact ih hw
    | some priority => exact ih (hkeep (.insertMailaddr a priority) trivial w hw)

theorem flush_keeps {w : σ} (hw : I w) : I (flush execute userId w).2 := by
  have hfirst := hkeep (.flushWblist userId) rfl w hw
  unfold flush
  rcases hinbound : execute (.flushWblist userId) w with ⟨_ | _, w'⟩
  · rwa [hinbound] at hfirst
  · rw [hinbound] at hfirst
    have hsecond := hkeep (.flushOutboundWblist userId) rfl w' hfirst
    simp only
    rcases houtbound : execute (.flushOutboundWblist userId) w' with ⟨_ | _, w''⟩
    · rwa [houtbound] at hsecond
    · rwa [houtbound] at hsecond

theorem deleteOld_keeps (senders rcpts : Dict Str ℕ) {w : σ} (hw : I w) :
    I (deleteOld execute userId senders rcpts w).2 := by
  have hfirst : I (if senders.isEmpty then (.ok [], w)
      else execute (.deleteWblist userId (senders.map Prod.snd)) w).2 := by
    split_ifs
    · exact hw
    · exact hkeep (.deleteWblist userId (senders.map Prod.snd)) rfl w hw
  obtain ⟨qr, w', hinbound⟩ : ∃ (qr : Except Str (List AmavisdAddress)) (w' : σ),
      (if senders.isEmpty then (.ok [], w)
        else execute (.deleteWblist userId (senders.map Prod.snd)) w) = (qr, w') := ⟨_, _, rfl⟩
  rw [hinbound] at hfirst
  unfold deleteOld
  rw [hinbound]
  cases qr with
  | error e => exact hfirst
  | ok rows =>
    simp only
    by_cases hempty : rcpts.isEmpty = true
    · rwa [if_pos hempty]
    · rw [if_neg hempty]
      have hsecond := hkeep (.deleteOutboundWblist userId (rcpts.map Prod.snd)) rfl w' hfirst
      rcases houtbound : execute (.deleteOutboundWblist userId (rcpts.map Prod.snd)) w' with
        ⟨_ | _, w''⟩
      · rwa [houtbound] at hsecond
      · rwa [houtbound] at hsecond

theorem insertRows_keeps {insert : Wblist → Statement} {rows : List Wblist}
    (hrows : ∀ row ∈ rows, (insert row).Concerns userId) {w : σ} (hw : I w) :
    I (insertRows execute insert rows w) := by
  induction rows generalizing w with
  | nil => exact hw
  | cons row rows ih =>
    exact ih (fun r hr => hrows r (List.mem_cons_of_mem row hr))
      (hkeep (insert row) (hrows row List.mem_cons_self) w hw)

/-- The import keeps what holds after its queries. -/
theorem importWblist_keeps [Unicode] {sets : SetOrder Str}
    {wlSenders blSenders wlRcpts blRcpts : List Str} {senderRecords rcptRecords : Dict Str ℕ}
    {w w₁ w₂ : σ}
    (hsenders : mailaddrRecords execute (sets.order (wlSenders ++ blSenders))
      (createMailaddr execute (sets.order (sets.order (wlSenders ++ blSenders) ++
        sets.order (wlRcpts ++ blRcpts))) w) = (.ok senderRecords, w₁))
    (hrcpts : mailaddrRecords execute (sets.order (wlRcpts ++ blRcpts)) w₁ = (.ok rcptRecords, w₂))
    (hw : I w₂) :
    I (importWblist execute userId sets wlSenders blSenders wlRcpts blRcpts w).2 := by
  have hdelete := deleteOld_keeps hkeep senderRecords rcptRecords hw
  unfold importWblist
  simp only [hsenders, hrcpts]
  rcases hdeleted : deleteOld execute userId senderRecords rcptRecords w₂ with ⟨_ | _, w₃⟩
  · rwa [hdeleted] at hdelete
  · rw [hdeleted] at hdelete
    refine insertRows_keeps hkeep (fun row hrow => ?_) (insertRows_keeps hkeep (fun row hrow => ?_) hdelete)
    · obtain ⟨v, -, rfl⟩ := List.mem_map.mp hrow
      rfl
    · obtain ⟨v, -, rfl⟩ := List.mem_map.mp hrow
      rfl

end Keeps

/-! ### The database -/

section Detour

variable [Unicode] {bad : Tables}

/-- A plain statement does what it says, and what another one does is given. -/
def answering (fails : ℕ → Bool) (odd : Statement → Tables → List AmavisdAddress × Tables) :
    Execute (Tables × ℕ) := fun i w =>
  if fails w.2 then (.error "timeout".toList, (w.1, w.2 + 1))
  else if i.IsPlain then
    match effect i w.1 with
    | some (rows, t') => (.ok rows, (t', w.2 + 1))
    | none => (.error "duplicate key".toList, (w.1, w.2 + 1))
  else (.ok (odd i w.1).1, ((odd i w.1).2, w.2 + 1))

theorem answering_of_not_plain {fails : ℕ → Bool}
    {odd : Statement → Tables → List AmavisdAddress × Tables} {i : Statement} (hi : ¬i.IsPlain)
    {w : Tables × ℕ} (hn : fails w.2 = false) :
    answering fails odd i w = (.ok (odd i w.1).1, ((odd i w.1).2, w.2 + 1)) := by
  unfold answering
  rw [if_neg (by simpa using hn), if_neg hi]

theorem answers_answering (fails : ℕ → Bool)
    (odd : Statement → Tables → List AmavisdAddress × Tables) : Answers fails (answering fails odd) where
  of_fails i t n h := ⟨_, if_pos h⟩
  of_effect i hi t n rows t' hn heffect := by
    unfold answering
    rw [if_neg (by simpa using hn), if_pos hi, heffect]
  of_none i hi t n hn heffect := by
    unfold answering
    rw [if_neg (by simpa using hn), if_pos hi, heffect]
    exact ⟨_, rfl⟩
  of_not_plain i hi t n hn := ⟨_, _, answering_of_not_plain hi hn⟩

/-- A statement that is not plain selects a row without a text and leaves these tables. -/
def detour (fails : ℕ → Bool) (bad : Tables) : Execute (Tables × ℕ) :=
  answering fails fun _ _ => ([⟨0, 0, []⟩], bad)

variable {fails : ℕ → Bool}

theorem answers_detour (fails : ℕ → Bool) (bad : Tables) : Answers fails (detour fails bad) :=
  answers_answering fails _

theorem detour_of_not_plain {i : Statement} (hi : ¬i.IsPlain) {w : Tables × ℕ} (hn : fails w.2 = false) :
    detour fails bad i w = (.ok [⟨0, 0, []⟩], (bad, w.2 + 1)) := answering_of_not_plain hi hn

/-- It leaves the new tables, or the old ones, or does what a plain statement says. -/
theorem detour_cases (fails : ℕ → Bool) (bad : Tables) (i : Statement) (w : Tables × ℕ) :
    (detour fails bad i w).2.1 = bad ∨ (detour fails bad i w).2.1 = w.1 ∨
      ∃ rows, effect i w.1 = some (rows, (detour fails bad i w).2.1) := by
  by_cases hn : fails w.2 = true
  · obtain ⟨e, he⟩ := (answers_detour fails bad).of_fails i w.1 hn
    exact .inr (.inl (congrArg (fun r => r.2.1) he))
  rw [Bool.not_eq_true] at hn
  by_cases hplain : i.IsPlain
  · cases heffect : effect i w.1 with
    | none =>
      obtain ⟨e, he⟩ := (answers_detour fails bad).of_none i hplain hn heffect
      exact .inr (.inl (congrArg (fun r => r.2.1) he))
    | some r =>
      have h := (answers_detour fails bad).of_effect i hplain hn heffect
      exact .inr (.inr ⟨r.1, congrArg some (Prod.ext rfl (congrArg (fun r => r.2.1) h).symm)⟩)
  · rw [detour_of_not_plain hplain hn]
    exact .inl rfl

/-- A query fails, or keeps the tables, or leaves the new ones. -/
theorem mailaddrRecords_detour (fails : ℕ → Bool) (bad : Tables) (addresses : List Str) (w : Tables × ℕ) :
    (∃ e w', mailaddrRecords (detour fails bad) addresses w = (.error e, w') ∧ fails w.2 = true) ∨
      ∃ records w', mailaddrRecords (detour fails bad) addresses w = (.ok records, w') ∧
        (w'.1 = w.1 ∨ w'.1 = bad) ∧ (¬(∀ a ∈ addresses, isQuotable a = true) → w'.1 = bad) := by
  unfold mailaddrRecords
  by_cases hempty : addresses.isEmpty = true
  · rw [if_pos hempty]
    refine .inr ⟨_, _, rfl, .inl rfl, fun hno => absurd ?_ hno⟩
    rw [List.isEmpty_iff.mp hempty]
    exact fun a ha => absurd ha List.not_mem_nil
  rw [if_neg hempty]
  by_cases hn : fails w.2 = true
  · obtain ⟨e, he⟩ := (answers_detour fails bad).of_fails (.selectMailaddr addresses) w.1 hn
    rw [he]
    exact .inl ⟨_, _, rfl, hn⟩
  rw [Bool.not_eq_true] at hn
  by_cases hplain : (Statement.selectMailaddr addresses).IsPlain
  · rw [(answers_detour fails bad).of_effect (.selectMailaddr addresses) hplain (t := w.1) hn rfl]
    exact .inr ⟨_, _, rfl, .inl rfl, fun hno => absurd hplain hno⟩
  · rw [detour_of_not_plain hplain hn]
    exact .inr ⟨_, _, rfl, .inr rfl, fun _ => rfl⟩

/-! ### What is there to stay -/

/-- Statements about the user keep it. -/
def Kept (userId : ℕ) (I : Tables → Prop) : Prop :=
  ∀ i : Statement, i.Concerns userId → ∀ t t' rows, I t → effect i t = some (rows, t') → I t'

variable {userId : ℕ} {I : Tables → Prop}

/-- So does the database, if it holds of the new tables. -/
theorem Kept.detour (hkept : Kept userId I) (fails : ℕ → Bool) (hbad : I bad) (i : Statement)
    (hi : i.Concerns userId) (w : Tables × ℕ) (hw : I w.1) : I (detour fails bad i w).2.1 := by
  rcases detour_cases fails bad i w with hsame | hsame | ⟨rows, heffect⟩
  · rw [hsame]
    exact hbad
  · rw [hsame]
    exact hw
  · exact hkept i hi _ _ _ hw heffect

/-- An import with a text that is not plain ends with it, unless a query fails. -/
theorem importWblist_detour (fails : ℕ → Bool) (hbad : I bad) (c : Import) (hkept : Kept c.userId I)
    (w : Tables × ℕ) (h : I w.1 ∨ ∃ d a, c.Submitted d a ∧ isQuotable a = false) :
    (∃ e n, (importWblist (LibWblist.detour fails bad) c.userId c.sets c.wlSenders c.blSenders c.wlRcpts
        c.blRcpts w).1 = .error e ∧ fails n = true) ∨
      I (importWblist (LibWblist.detour fails bad) c.userId c.sets c.wlSenders c.blSenders c.wlRcpts
        c.blRcpts w).2.1 := by
  have hkeep := fun i hi w => hkept.detour fails hbad i hi w
  set w₀ := createMailaddr (LibWblist.detour fails bad) (c.sets.order
    (c.sets.order (c.wlSenders ++ c.blSenders) ++ c.sets.order (c.wlRcpts ++ c.blRcpts))) w with hw₀
  rcases mailaddrRecords_detour fails bad
    (c.sets.order (c.wlSenders ++ c.blSenders)) w₀ with
    ⟨e, w₁, hsenders, hfails⟩ | ⟨senderRecords, w₁, hsenders, hcases₁, hnot₁⟩
  · refine .inl ⟨e, _, ?_, hfails⟩
    unfold importWblist
    simp only [← hw₀, hsenders]
  rcases mailaddrRecords_detour fails bad
    (c.sets.order (c.wlRcpts ++ c.blRcpts)) w₁ with
    ⟨e, w₂, hrcpts, hfails⟩ | ⟨rcptRecords, w₂, hrcpts, hcases₂, hnot₂⟩
  · refine .inl ⟨e, _, ?_, hfails⟩
    unfold importWblist
    simp only [← hw₀, hsenders, hrcpts]
  refine .inr (importWblist_keeps (I := fun w : Tables × ℕ => I w.1) hkeep (hw₀ ▸ hsenders) hrcpts ?_)
  -- the queries keep the tables or replace them
  have hstep : ∀ {w w' : Tables × ℕ}, w'.1 = w.1 ∨ w'.1 = bad → I w.1 → I w'.1 := by
    intro w w' hcases hw
    rcases hcases with hsame | hsame
    · rw [hsame]
      exact hw
    · rw [hsame]
      exact hbad
  rcases h with hw | ⟨d, a, ha, hno⟩
  · exact hstep hcases₂ (hstep hcases₁
      (createMailaddr_keeps (I := fun w : Tables × ℕ => I w.1) hkeep _ hw))
  · have hmem := c.mem_addresses_iff.mpr ha
    have hnotAll : ¬∀ b ∈ c.addresses d, isQuotable b = true := fun hall => by
      rw [hall a hmem] at hno
      cases hno
    cases d with
    | inbound =>
      refine hstep hcases₂ ?_
      rw [hnot₁ hnotAll]
      exact hbad
    | outbound =>
      rw [hnot₂ hnotAll]
      exact hbad

/-- A call ends with what holds when it has found the user. -/
theorem addWblist_detour (hbad : I bad) {account : Str} (haccount : (isValidAmavisdAddress account).isSome)
    {sets : SetOrder Str} {request : Request} {user : AmavisdAddress} (hkept : Kept user.id I)
    {w w' : Tables × ℕ} (huser : getUserRecord (LibWblist.detour never bad) account w = (.ok user, w'))
    (h : I w'.1) : I (addWblist (LibWblist.detour never bad) sets account request w).2.1 := by
  have hkeep := fun i hi w => hkept.detour never hbad i hi w
  have hflushed : I (if request.flushBeforeImport then
      LibWblist.flush (LibWblist.detour never bad) user.id w' else (.ok (), w')).2.1 := by
    split_ifs
    · exact flush_keeps (I := fun w : Tables × ℕ => I w.1) hkeep h
    · exact h
  obtain ⟨flushed, w'', heq⟩ : ∃ (flushed : Except Exn Unit) (w'' : Tables × ℕ),
      (if request.flushBeforeImport then LibWblist.flush (LibWblist.detour never bad) user.id w'
        else (.ok (), w')) = (flushed, w'') := ⟨_, _, rfl⟩
  rw [heq] at hflushed
  cases flushed with
  | error e =>
    unfold addWblist
    rw [if_neg (by simpa using Option.isSome_iff_ne_none.mp haccount)]
    simp only [huser, heq]
    exact hflushed
  | ok =>
    rw [addWblist_of_flushed haccount huser heq]
    split_ifs
    · exact hflushed
    · rcases importWblist_detour never hbad (request.import sets user.id) hkept w''
        (.inl hflushed) with ⟨e, n, -, hfails⟩ | himported
      · cases hfails
      · exact himported

end Detour

/-! ### A row of another account -/

/-- Statements about a user keep the users. -/
theorem kept_users (u : ℕ) (users : AddressTable) : Kept u fun t => t.users = users := by
  intro i hi t t' rows ht heffect
  cases i with
  | insertUser account priority => exact hi.elim
  | insertMailaddr email priority =>
    obtain ⟨m, -, heq⟩ := Option.map_eq_some_iff.mp heffect
    obtain ⟨-, rfl⟩ := Prod.mk.inj heq
    exact ht
  | insertWblist row =>
    obtain ⟨l, -, heq⟩ := Option.map_eq_some_iff.mp heffect
    obtain ⟨-, rfl⟩ := Prod.mk.inj heq
    exact ht
  | insertOutboundWblist row =>
    obtain ⟨l, -, heq⟩ := Option.map_eq_some_iff.mp heffect
    obtain ⟨-, rfl⟩ := Prod.mk.inj heq
    exact ht
  | selectUser | selectMailaddr | flushWblist | flushOutboundWblist | deleteWblist
  | deleteOutboundWblist | deleteWblistWb | deleteOutboundWblistWb =>
    obtain ⟨-, rfl⟩ := Prod.mk.inj (Option.some.inj heffect)
    exact ht

/-- There is an account that is neither stored nor the one that is meant. -/
theorem exists_other (account : Str) (t : Tables) :
    ∃ other, other ≠ account ∧ t.users.find? other = none := by
  obtain ⟨other, -, -, hlonger⟩ := exists_longer (account :: t.users.rows.map fun u => u.2.email)
  refine ⟨other, ?_, Sql.Table.find?_eq_none_iff.mpr fun u hu => ?_⟩
  · rintro rfl
    exact absurd (hlonger other List.mem_cons_self) (Nat.lt_irrefl _)
  · rintro rfl
    exact absurd (hlonger u.2.email (List.mem_cons_of_mem _ (List.mem_map_of_mem hu))) (Nat.lt_irrefl _)

section Intact

/-- The account has this id and blacklists this address. -/
structure Intact (account x : Str) (u id : ℕ) (t : Tables) : Prop where
  user : (t.users.find? account).map Prod.fst = some u
  address : idOf t x = some id
  row : wbAt t.wblist (u, id) = some "B".toList

variable {account x : Str} {u id userId : ℕ}

/-- Statements about another user leave it. -/
theorem kept_intact (hu : u ≠ userId) : Kept userId (Intact account x u id) := by
  intro i hi t t' rows h heffect
  obtain ⟨huser, haddress, hrow⟩ := h
  obtain ⟨r, hr, hrid⟩ := Option.map_eq_some_iff.mp huser
  obtain ⟨m, hm, hmid⟩ := Option.map_eq_some_iff.mp haddress
  obtain ⟨w, hw, hwb⟩ := Option.map_eq_some_iff.mp hrow
  have hwid : w.2.rid = u := (Prod.mk.inj (Sql.Table.find?_eq_some_iff.mp hw).2).1
  -- a row that a delete does not ask for is found again
  have hdelete : ∀ p : ℕ × Wblist → Bool, p w = false →
      wbAt (t.wblist.delete p) (u, id) = some "B".toList := by
    intro p hp
    unfold wbAt
    rw [Sql.Table.find?_delete, hw, Option.filter_some_pos (by simp [hp]), Option.map_some, hwb]
  cases i with
  | insertMailaddr email priority =>
    obtain ⟨mailaddr, hinsert, heq⟩ := Option.map_eq_some_iff.mp heffect
    obtain ⟨-, rfl⟩ := Prod.mk.inj heq
    refine ⟨huser, ?_, hrow⟩
    unfold idOf
    rw [Sql.Table.find?_insert_of_some hinsert hm, Option.map_some, hmid]
  | insertUser email priority => exact hi.elim
  | selectUser email =>
    obtain ⟨-, rfl⟩ := Prod.mk.inj (Option.some.inj heffect)
    exact ⟨huser, haddress, hrow⟩
  | selectMailaddr emails =>
    obtain ⟨-, rfl⟩ := Prod.mk.inj (Option.some.inj heffect)
    exact ⟨huser, haddress, hrow⟩
  | flushWblist rid =>
    obtain ⟨-, rfl⟩ := Prod.mk.inj (Option.some.inj heffect)
    refine ⟨huser, haddress, hdelete _ (decide_eq_false ?_)⟩
    rw [hwid, hi]
    exact hu
  | flushOutboundWblist sid =>
    obtain ⟨-, rfl⟩ := Prod.mk.inj (Option.some.inj heffect)
    exact ⟨huser, haddress, hrow⟩
  | deleteWblist rid sids =>
    obtain ⟨-, rfl⟩ := Prod.mk.inj (Option.some.inj heffect)
    refine ⟨huser, haddress, hdelete _ ?_⟩
    have hrid : rid = userId := hi
    rw [hwid, hrid, decide_eq_false hu, Bool.false_and]
  | deleteOutboundWblist sid rids =>
    obtain ⟨-, rfl⟩ := Prod.mk.inj (Option.some.inj heffect)
    exact ⟨huser, haddress, hrow⟩
  | insertWblist row =>
    obtain ⟨wblist, hinsert, heq⟩ := Option.map_eq_some_iff.mp heffect
    obtain ⟨-, rfl⟩ := Prod.mk.inj heq
    refine ⟨huser, haddress, ?_⟩
    unfold wbAt
    rw [Sql.Table.find?_insert_of_some hinsert hw, Option.map_some, hwb]
  | insertOutboundWblist row =>
    obtain ⟨wblist, -, heq⟩ := Option.map_eq_some_iff.mp heffect
    obtain ⟨-, rfl⟩ := Prod.mk.inj heq
    exact ⟨huser, haddress, hrow⟩
  | deleteWblistWb rid sids wb =>
    obtain ⟨-, rfl⟩ := Prod.mk.inj (Option.some.inj heffect)
    refine ⟨huser, haddress, hdelete _ ?_⟩
    have hrid : rid = userId := hi
    rw [hwid, hrid, decide_eq_false hu, Bool.false_and, Bool.false_and]
  | deleteOutboundWblistWb sid rids wb =>
    obtain ⟨-, rfl⟩ := Prod.mk.inj (Option.some.inj heffect)
    exact ⟨huser, haddress, hrow⟩

/-- Tables where an account has an id and blacklists an address. -/
def listing (account x : Str) (u : ℕ) (hu : 0 < u) : Tables where
  users := .single u hu ⟨0, account⟩
  mailaddr := .single 1 Nat.one_pos ⟨0, x⟩
  wblist := .single 1 Nat.one_pos ⟨u, 1, "B"⟩

theorem intact_listing (account x : Str) {u : ℕ} (hu : 0 < u) :
    Intact account x u 1 (listing account x u hu) where
  user := by
    have hfind : (listing account x u hu).users.find? account = some (u, ⟨0, account⟩) :=
      Sql.Table.find?_eq_some_iff.mpr ⟨List.mem_singleton_self _, rfl⟩
    rw [hfind, Option.map_some]
  address := by
    have hfind : (listing account x u hu).mailaddr.find? x = some (1, ⟨0, x⟩) :=
      Sql.Table.find?_eq_some_iff.mpr ⟨List.mem_singleton_self _, rfl⟩
    unfold idOf
    rw [hfind, Option.map_some]
  row := by
    have hfind : (listing account x u hu).wblist.find? (u, 1) = some (1, ⟨u, 1, "B"⟩) :=
      Sql.Table.find?_eq_some_iff.mpr ⟨List.mem_singleton_self _, rfl⟩
    unfold wbAt
    rw [hfind, Option.map_some]

end Intact

end IRedAPD.LibWblist

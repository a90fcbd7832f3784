/-
  What the cron job deletes while requests are in progress.

  Alone, the statements of `cleanup_db` delete what they are asked to
  (`cleanup_alone`), and those of a request are the plugin (`throttling_alone`,
  `greylisting_alone`).  Between the `SELECT` of a page and its `DELETE` a request
  may renew a row of the page, which is deleted all the same
  (`renewed_row_deleted`).  Where no write does that, every row is deleted as it
  was selected (`deletes_outdated`).
-/
import IRedAPD.Concurrency
import IRedAPD.Equiv.Daemon
import IRedAPD.Equiv.Tools.CleanupDb
import IRedAPD.History
import IRedAPD.Sql.Page

namespace IRedAPD.Concurrency

open Py History

variable [Unicode] {settings : Settings} {now : ℕ}

/-! ### The cron job alone -/

omit [Unicode] in
/-- The next page of the loop of `cleanup_sql_table`. -/
theorem page_cases (settings : Settings) {ρ κ : Type*} {key : ρ → κ} {p : ℕ × ρ → Bool}
    {t : Sql.Table key} {n : ℕ} (hn : (t.select p).length ≤ n) :
    (page settings p t = [] ∧ CleanupDb.cleanupLoop settings.cleanupQuerySizeLimit p n t = t) ∨
      ∃ n', n = n' + 1 ∧ (page settings p t).isEmpty = false ∧
        ((t.delete fun row => (page settings p t).contains row.1).select p).length ≤ n' ∧
        CleanupDb.cleanupLoop settings.cleanupQuerySizeLimit p n t =
          CleanupDb.cleanupLoop settings.cleanupQuerySizeLimit p n'
            (t.delete fun row => (page settings p t).contains row.1) := by
  by_cases hpage : page settings p t = []
  · refine .inl ⟨hpage, ?_⟩
    cases n with
    | zero => rfl
    | succ n =>
      unfold CleanupDb.cleanupLoop
      unfold page at hpage
      simp only [hpage, List.isEmpty_nil, if_true]
  · have hlt := CleanupDb.length_select_delete_page hpage
    have hempty : (page settings p t).isEmpty = false := by
      rw [Bool.eq_false_iff, ne_eq, List.isEmpty_iff]
      exact hpage
    cases n with
    | zero =>
      have hzero := Nat.le_zero.mp hn
      omega
    | succ n =>
      refine .inr ⟨n, rfl, hempty, ?_, ?_⟩
      · unfold page
        omega
      · unfold page at hempty ⊢
        rw [CleanupDb.cleanupLoop]
        simp only [hempty, Bool.false_eq_true, if_false]

variable (settings now) in
/-- The loop over `throttle_tracking`. -/
theorem cleanup_throttle (n : ℕ) {s : State} (hstart : s.cleanup = .selectThrottle)
    (hn : (s.db.throttleTracking.select (throttleWhere now)).length ≤ n) :
    ∃ m, after (step settings now) s (List.replicate m .cleanup) =
      { s with
        db := { s.db with
          throttleTracking := CleanupDb.cleanupLoop settings.cleanupQuerySizeLimit
            (throttleWhere now) n s.db.throttleTracking }
        cleanup := .selectGreylisting } := by
  induction n using Nat.strong_induction_on generalizing s with
  | _ n ih =>
    rcases page_cases settings hn with ⟨hpage, hloop⟩ | ⟨n', rfl, hpage, hn', hloop⟩
    · refine ⟨1, ?_⟩
      show (cleanupStep settings now s).2 = _
      unfold cleanupStep
      simp only [hstart, hpage, List.isEmpty_nil, if_true, hloop]
    · -- one page is selected and deleted
      obtain ⟨m, hm⟩ := ih n' (Nat.lt_succ_self n') (s := { s with
        db := { s.db with throttleTracking := s.db.throttleTracking.delete fun row =>
          (page settings (throttleWhere now) s.db.throttleTracking).contains row.1 }
        cleanup := .selectThrottle }) rfl hn'
      refine ⟨m + 2, ?_⟩
      rw [hloop]
      have hselect : (cleanupStep settings now s).2 = { s with
          cleanup := .deleteThrottle (page settings (throttleWhere now) s.db.throttleTracking) } := by
        unfold cleanupStep
        simp only [hstart, hpage, Bool.false_eq_true, if_false]
      show after (step settings now) (cleanupStep settings now (cleanupStep settings now s).2).2
        (List.replicate m .cleanup) = _
      rw [hselect]
      exact hm

variable (settings now) in
/-- The loop over `greylisting_tracking`. -/
theorem cleanup_greylisting (n : ℕ) {s : State} (hstart : s.cleanup = .selectGreylisting)
    (hn : (s.db.greylistingTracking.select (greylistingWhere now)).length ≤ n) :
    ∃ m, after (step settings now) s (List.replicate m .cleanup) =
      { s with
        db := { s.db with
          greylistingTracking := CleanupDb.cleanupLoop settings.cleanupQuerySizeLimit
            (greylistingWhere now) n s.db.greylistingTracking }
        cleanup := .done } := by
  induction n using Nat.strong_induction_on generalizing s with
  | _ n ih =>
    rcases page_cases settings hn with ⟨hpage, hloop⟩ | ⟨n', rfl, hpage, hn', hloop⟩
    · refine ⟨1, ?_⟩
      show (cleanupStep settings now s).2 = _
      unfold cleanupStep
      simp only [hstart, hpage, List.isEmpty_nil, if_true, hloop]
    · obtain ⟨m, hm⟩ := ih n' (Nat.lt_succ_self n') (s := { s with
        db := { s.db with greylistingTracking := s.db.greylistingTracking.delete fun row =>
          (page settings (greylistingWhere now) s.db.greylistingTracking).contains row.1 }
        cleanup := .selectGreylisting }) rfl hn'
      refine ⟨m + 2, ?_⟩
      rw [hloop]
      have hselect : (cleanupStep settings now s).2 = { s with
          cleanup := .deleteGreylisting
            (page settings (greylistingWhere now) s.db.greylistingTracking) } := by
        unfold cleanupStep
        simp only [hstart, hpage, Bool.false_eq_true, if_false]
      show after (step settings now) (cleanupStep settings now (cleanupStep settings now s).2).2
        (List.replicate m .cleanup) = _
      rw [hselect]
      exact hm

/-- **The statements of the cron job**, run without any request in between, are `cleanup_db`. -/
theorem cleanup_alone {s : State} (hstart : s.cleanup = .selectThrottle) :
    ∃ m, after (step settings now) s (List.replicate m .cleanup) =
      { s with
        db := ⟨CleanupDb.cleanupThrottleTracking settings now s.db.throttleTracking,
          CleanupDb.cleanupGreylistingTracking settings now s.db.greylistingTracking⟩
        cleanup := .done } := by
  obtain ⟨m, hm⟩ := cleanup_throttle settings now _ hstart (List.length_filter_le _ _)
  obtain ⟨m', hm'⟩ := cleanup_greylisting settings now
    s.db.greylistingTracking.rows.length (s := { s with
      db := { s.db with throttleTracking :=
        CleanupDb.cleanupThrottleTracking settings now s.db.throttleTracking }
      cleanup := .selectGreylisting }) rfl (List.length_filter_le _ _)
  refine ⟨m + m', ?_⟩
  rw [List.replicate_add, after_append, hm]
  exact hm'

/-! ### A request alone -/

/-- Some statements of a throttling request. -/
theorem after_throttling (m : ℕ) {s : State} {i : ℕ} {p : Program Throttle.Output}
    (hp : s.throttling[i]? = some p) :
    after (step settings now) s (List.replicate m (.throttling i)) =
      let q := (fun q : Program Throttle.Output × Db => q.1.next (Db.exec settings) q.2)^[m] (p, s.db)
      { s with db := q.2, throttling := s.throttling.set i q.1 } := by
  induction m generalizing s p with
  | zero =>
    obtain ⟨hi, rfl⟩ := List.getElem?_eq_some_iff.mp hp
    simp only [List.replicate_zero, after, Function.iterate_zero, id, List.set_getElem_self]
  | succ m ih =>
    obtain ⟨hi, -⟩ := List.getElem?_eq_some_iff.mp hp
    have hset : (s.throttling.set i (p.next (Db.exec settings) s.db).1)[i]? =
        some (p.next (Db.exec settings) s.db).1 := List.getElem?_set_self hi
    rw [List.replicate_succ, after, Function.iterate_succ_apply]
    simp only [step, hp]
    rw [ih hset]
    simp only [List.set_set]

/-- Some statements of a greylisting request. -/
theorem after_greylisting (m : ℕ) {s : State} {i : ℕ} {p : Program (Except Exn Str)}
    (hp : s.greylisting[i]? = some p) :
    after (step settings now) s (List.replicate m (.greylisting i)) =
      let q := (fun q : Program (Except Exn Str) × Db => q.1.next (Db.exec settings) q.2)^[m] (p, s.db)
      { s with db := q.2, greylisting := s.greylisting.set i q.1 } := by
  induction m generalizing s p with
  | zero =>
    obtain ⟨hi, rfl⟩ := List.getElem?_eq_some_iff.mp hp
    simp only [List.replicate_zero, after, Function.iterate_zero, id, List.set_getElem_self]
  | succ m ih =>
    obtain ⟨hi, -⟩ := List.getElem?_eq_some_iff.mp hp
    have hset : (s.greylisting.set i (p.next (Db.exec settings) s.db).1)[i]? =
        some (p.next (Db.exec settings) s.db).1 := List.getElem?_set_self hi
    rw [List.replicate_succ, after, Function.iterate_succ_apply]
    simp only [step, hp]
    rw [ih hset]
    simp only [List.set_set]

/-- **A throttling request**, run without anything in between, is `apply_throttle`. -/
theorem throttling_alone (throttle : List Throttle.Setting) (call : Throttle.Call) (s : State) :
    ∃ m, after (step settings now) s
        (.throttle throttle call :: List.replicate m (.throttling s.throttling.length)) =
      { s with
        db := { s.db with throttleTracking :=
          (Throttle.applyThrottle settings throttle call s.db.throttleTracking).2 }
        throttling := s.throttling ++
          [.pure (Throttle.applyThrottle settings throttle call s.db.throttleTracking).1] } := by
  obtain ⟨m, hm⟩ := (Throttle.program settings throttle call).exists_iterate_next
    (Db.exec settings) s.db
  refine ⟨m, ?_⟩
  rw [after, after_throttling m (p := Throttle.program settings throttle call)
    List.getElem?_concat_length]
  simp only [step, hm, Throttle.run_program, List.set_append_right _ _ (le_refl _), Nat.sub_self,
    List.set_cons_zero]

/-- **A greylisting request**, run without anything in between, is `restriction`. -/
theorem greylisting_alone (call : Greylisting.Env × PluginKwargs) (s : State) :
    ∃ m, after (step settings now) s
        (.greylist call :: List.replicate m (.greylisting s.greylisting.length)) =
      { s with
        db := { s.db with greylistingTracking :=
          (Greylisting.restriction settings call.1 call.2 s.db.greylistingTracking).2 }
        greylisting := s.greylisting ++
          [.pure (Greylisting.restriction settings call.1 call.2 s.db.greylistingTracking).1] } := by
  obtain ⟨m, hm⟩ := (Greylisting.program settings call).exists_iterate_next (Db.exec settings) s.db
  refine ⟨m, ?_⟩
  rw [after, after_greylisting m (p := Greylisting.program settings call)
    List.getElem?_concat_length]
  simp only [step, hm, Greylisting.run_program, List.set_append_right _ _ (le_refl _), Nat.sub_self,
    List.set_cons_zero]

/-! ### Rows on the list -/

/-- A write renews a row whose id the cron job remembers: the row is no longer one to delete. -/
def RenewsThrottle (now : ℕ) (removeValues : List ℕ) : Throttle.Write → Prop
  | .update id u => id ∈ removeValues ∧ now ≤ u.initTime + u.period
  | .insert _ | .notify _ _ => False

/-- A write renews a row whose id the cron job remembers. -/
def RenewsGreylisting (settings : Settings) (now : ℕ) (removeValues : List ℕ)
    (t : Greylisting.TrackingTable) : Greylisting.Write → Prop
  | .reset k time => (∃ row ∈ t.rows, row.1 ∈ removeValues ∧ row.2.key = k) ∧
      now ≤ Greylisting.unauthTripletExpire settings time
  | .accept k time => (∃ row ∈ t.rows, row.1 ∈ removeValues ∧ row.2.key = k) ∧
      now ≤ Greylisting.authTripletExpire settings time
  | .refresh c time => (∃ row ∈ t.rows, row.1 ∈ removeValues ∧ row.2.clientAddress = c ∧
      row.2.passed = true) ∧ now ≤ Greylisting.authTripletExpire settings time
  | .insert _ | .block _ | .deleteOthers _ => False

instance (now : ℕ) (removeValues : List ℕ) :
    (w : Throttle.Write) → Decidable (RenewsThrottle now removeValues w)
  | .update _ _ => inferInstanceAs (Decidable (_ ∧ _))
  | .insert _ | .notify _ _ => inferInstanceAs (Decidable False)

instance (settings : Settings) (now : ℕ) (removeValues : List ℕ) (t : Greylisting.TrackingTable) :
    (w : Greylisting.Write) → Decidable (RenewsGreylisting settings now removeValues t w)
  | .reset _ _ | .accept _ _ | .refresh _ _ => inferInstanceAs (Decidable (_ ∧ _))
  | .insert _ | .block _ | .deleteOthers _ => inferInstanceAs (Decidable False)

/-- A write renews a row of the page that the cron job is about to delete. -/
def RenewsPage (settings : Settings) (now : ℕ) (db : Db) : Db.Write → Cleanup → Prop
  | .throttle w, .deleteThrottle removeValues => RenewsThrottle now removeValues w
  | .greylisting w, .deleteGreylisting removeValues =>
    RenewsGreylisting settings now removeValues db.greylistingTracking w
  | _, _ => False

instance (settings : Settings) (now : ℕ) (db : Db) :
    (w : Db.Write) → (c : Cleanup) → Decidable (RenewsPage settings now db w c)
  | .throttle w, .deleteThrottle removeValues =>
    inferInstanceAs (Decidable (RenewsThrottle now removeValues w))
  | .greylisting w, .deleteGreylisting removeValues =>
    inferInstanceAs (Decidable (RenewsGreylisting settings now removeValues db.greylistingTracking w))
  | .throttle _, .selectThrottle | .throttle _, .selectGreylisting
  | .throttle _, .deleteGreylisting _ | .throttle _, .done
  | .greylisting _, .selectThrottle | .greylisting _, .selectGreylisting
  | .greylisting _, .deleteThrottle _ | .greylisting _, .done => inferInstanceAs (Decidable False)

/-- A request renews a row of the page that the cron job is about to delete. -/
def Renews (settings : Settings) (now : ℕ) : Event → State → Prop
  | .throttling i, s =>
    ∃ w ∈ s.throttling[i]?.bind (·.pending), RenewsPage settings now s.db w s.cleanup
  | .greylisting i, s =>
    ∃ w ∈ s.greylisting[i]?.bind (·.pending), RenewsPage settings now s.db w s.cleanup
  | .throttle _ _, _ | .greylist _, _ | .cleanup, _ => False

/-- The rows the cron job is about to delete are rows to delete. -/
def Sound (now : ℕ) (db : Db) : Cleanup → Prop
  | .deleteThrottle removeValues =>
    db.throttleTracking.Marked removeValues fun row => throttleWhere now row = true
  | .deleteGreylisting removeValues =>
    db.greylistingTracking.Marked removeValues fun row => greylistingWhere now row = true
  | .selectThrottle | .selectGreylisting | .done => True

/-- Every deleted row satisfies the condition of the cron job. -/
def Deletion.Outdated (now : ℕ) : Deletion → Prop
  | .throttle rows => ∀ row ∈ rows, throttleWhere now row = true
  | .greylisting rows => ∀ row ∈ rows, greylistingWhere now row = true

instance (now : ℕ) : (d : Deletion) → Decidable (d.Outdated now)
  | .throttle rows => inferInstanceAs (Decidable (∀ row ∈ rows, throttleWhere now row = true))
  | .greylisting rows => inferInstanceAs (Decidable (∀ row ∈ rows, greylistingWhere now row = true))

omit [Unicode] in
/-- A write to `throttle_tracking` that renews no row of the page. -/
theorem marked_throttleWrite {removeValues : List ℕ} {t t' : Throttle.TrackingTable}
    (h : t.Marked removeValues fun row => throttleWhere now row = true) {w : Throttle.Write}
    (hnot : ¬ RenewsThrottle now removeValues w) (hexec : w.exec t = some t') :
    t'.Marked removeValues fun row => throttleWhere now row = true := by
  cases w with
  | insert rows => exact h.insertAll hexec
  | update id u =>
    rw [← Option.some.inj hexec]
    refine h.update _ _ fun row _ hid hrow _ => ?_
    by_contra hlive
    refine hnot ⟨of_decide_eq_true hrow ▸ hid, ?_⟩
    exact not_lt.mp fun hlt => hlive (decide_eq_true hlt)
  | notify id time =>
    rw [← Option.some.inj hexec]
    exact h.update _ _ fun row _ _ _ hold => hold

omit [Unicode] in
/-- A write to `greylisting_tracking` that renews no row of the page. -/
theorem marked_greylistingWrite {removeValues : List ℕ} {t t' : Greylisting.TrackingTable}
    (h : t.Marked removeValues fun row => greylistingWhere now row = true) {w : Greylisting.Write}
    (hnot : ¬ RenewsGreylisting settings now removeValues t w) (hexec : w.exec settings t = some t') :
    t'.Marked removeValues fun row => greylistingWhere now row = true := by
  cases w with
  | insert r => exact h.insert hexec
  | reset k time =>
    rw [← Option.some.inj hexec]
    refine h.update _ _ fun row hmem hid hrow _ => ?_
    by_contra hlive
    refine hnot ⟨⟨row, hmem, hid, of_decide_eq_true hrow⟩, ?_⟩
    exact not_lt.mp fun hlt => hlive (decide_eq_true hlt)
  | block k =>
    rw [← Option.some.inj hexec]
    exact h.update _ _ fun row _ _ _ hold => hold
  | accept k time =>
    rw [← Option.some.inj hexec]
    refine h.update _ _ fun row hmem hid hrow _ => ?_
    by_contra hlive
    refine hnot ⟨⟨row, hmem, hid, of_decide_eq_true hrow⟩, ?_⟩
    exact not_lt.mp fun hlt => hlive (decide_eq_true hlt)
  | refresh c time =>
    rw [← Option.some.inj hexec]
    refine h.update _ _ fun row hmem hid hrow _ => ?_
    by_contra hlive
    refine hnot ⟨⟨row, hmem, hid, of_decide_eq_true hrow⟩, ?_⟩
    exact not_lt.mp fun hlt => hlive (decide_eq_true hlt)
  | deleteOthers c =>
    rw [← Option.some.inj hexec]
    exact h.delete _

omit [Unicode] in
/-- A write that renews no row of the page. -/
theorem sound_exec {s : State} (h : Sound now s.db s.cleanup) {w : Db.Write}
    (hnot : ¬ RenewsPage settings now s.db w s.cleanup) {db : Db}
    (hexec : Db.exec settings w s.db = some db) :
    Sound now db s.cleanup := by
  cases w with
  | throttle w =>
    obtain ⟨t, ht, rfl⟩ := Option.map_eq_some_iff.mp hexec
    cases hcleanup : s.cleanup with
    | deleteThrottle removeValues =>
      rw [hcleanup] at h hnot
      exact marked_throttleWrite h hnot ht
    | deleteGreylisting removeValues =>
      rw [hcleanup] at h
      exact h
    | selectThrottle => trivial
    | selectGreylisting => trivial
    | done => trivial
  | greylisting w =>
    obtain ⟨t, ht, rfl⟩ := Option.map_eq_some_iff.mp hexec
    cases hcleanup : s.cleanup with
    | deleteThrottle removeValues =>
      rw [hcleanup] at h
      exact h
    | deleteGreylisting removeValues =>
      rw [hcleanup] at h hnot
      exact marked_greylistingWrite h hnot ht
    | selectThrottle => trivial
    | selectGreylisting => trivial
    | done => trivial

omit [Unicode] in
/-- The next statement of a request that renews no row of the page. -/
theorem sound_next {α : Type} {s : State} (h : Sound now s.db s.cleanup) (p : Program α)
    (hnot : ∀ w, p.pending = some w → ¬ RenewsPage settings now s.db w s.cleanup) :
    Sound now (p.next (Db.exec settings) s.db).2 s.cleanup := by
  rcases p.next_snd (Db.exec settings) s.db with hsame | ⟨w, hpending, hexec⟩
  · rw [hsame]
    exact h
  · exact sound_exec h (hnot w hpending) hexec

omit [Unicode] in
/-- The next statement of the cron job deletes rows to delete only. -/
theorem sound_cleanupStep {s : State} (h : Sound now s.db s.cleanup) :
    Sound now (cleanupStep settings now s).2.db (cleanupStep settings now s).2.cleanup ∧
      ∀ d, (cleanupStep settings now s).1 = some d → d.Outdated now := by
  unfold cleanupStep
  cases hcleanup : s.cleanup with
  | selectThrottle =>
    simp only
    split_ifs
    · exact ⟨trivial, fun d hd => by cases hd⟩
    · exact ⟨s.db.throttleTracking.marked_page _ _, fun d hd => by cases hd⟩
  | deleteThrottle removeValues =>
    rw [hcleanup] at h
    refine ⟨trivial, fun d hd => ?_⟩
    rw [← Option.some.inj hd]
    intro row hrow
    obtain ⟨hmem, hid⟩ := List.mem_filter.mp hrow
    exact h.holds row hmem (List.contains_iff_mem.mp hid)
  | selectGreylisting =>
    simp only
    split_ifs
    · exact ⟨trivial, fun d hd => by cases hd⟩
    · exact ⟨s.db.greylistingTracking.marked_page _ _, fun d hd => by cases hd⟩
  | deleteGreylisting removeValues =>
    rw [hcleanup] at h
    refine ⟨trivial, fun d hd => ?_⟩
    rw [← Option.some.inj hd]
    intro row hrow
    obtain ⟨hmem, hid⟩ := List.mem_filter.mp hrow
    exact h.holds row hmem (List.contains_iff_mem.mp hid)
  | done => exact ⟨by rw [hcleanup]; trivial, fun d hd => by cases hd⟩

/-- **One statement** that renews no row of the page. -/
theorem sound_step (e : Event) (s : State) (hnot : ¬ Renews settings now e s)
    (h : Sound now s.db s.cleanup) :
    Sound now (step settings now e s).2.db (step settings now e s).2.cleanup ∧
      ∀ d, (step settings now e s).1 = some d → d.Outdated now := by
  cases e with
  | throttle throttle call => exact ⟨h, fun d hd => by cases hd⟩
  | greylist call => exact ⟨h, fun d hd => by cases hd⟩
  | cleanup => exact sound_cleanupStep h
  | throttling i =>
    cases hp : s.throttling[i]? with
    | none =>
      simp only [step, hp]
      exact ⟨h, fun d hd => by cases hd⟩
    | some p =>
      simp only [step, hp]
      refine ⟨sound_next h p fun w hw hrenews => hnot ⟨w, ?_, hrenews⟩, fun d hd => by cases hd⟩
      rw [hp]
      exact hw
  | greylisting i =>
    cases hp : s.greylisting[i]? with
    | none =>
      simp only [step, hp]
      exact ⟨h, fun d hd => by cases hd⟩
    | some p =>
      simp only [step, hp]
      refine ⟨sound_next h p fun w hw hrenews => hnot ⟨w, ?_, hrenews⟩, fun d hd => by cases hd⟩
      rw [hp]
      exact hw

/-! ### All interleavings -/

/-- The rows the cron job deletes in an interleaving. -/
def deletions (settings : Settings) (now : ℕ) (s : State) (events : List Event) : List Deletion :=
  answers (step settings now) s events

/-- **The cron job deletes rows that are still to be deleted**, in every interleaving in which no
request renews a row between the `SELECT` of its page and the `DELETE`. -/
theorem deletes_outdated (settings : Settings) (now : ℕ) {s : State}
    (hstart : s.cleanup = .selectThrottle) {events : List Event}
    (hnone : Throughout (step settings now) (fun e s => ¬ Renews settings now e s) s events) :
    ∀ d ∈ deletions settings now s events, d.Outdated now :=
  forall_answers (fun s => Sound now s.db s.cleanup) (Deletion.Outdated now)
    (fun e s hnot h => sound_step e s hnot h) (by rw [hstart]; trivial) hnone

/-- A throttle table with one record, of `a@b.com` for the setting 1, that has expired at 4000. -/
def expiredRecord : Throttle.TrackingTable :=
  (Sql.Table.empty.insert ⟨1, "a@b.com", 3600, 1, 10, 100, 100, 0⟩).getD Sql.Table.empty

/-- A limit of ten messages an hour for all senders. -/
def hourlyLimit : List Throttle.Setting :=
  [{ id := 1, account := "@.", kind := "outbound", priority := 0, period := 3600, maxMsgs := 10 }]

/-- A message at 4001. -/
def messageOf (user : Str) : Throttle.Call :=
  (⟨4001, by decide, 4001, fun _ => .ok none, fun _ => .ok true, fun _ => false⟩,
    ⟨user, "192.168.1.5", 10, 1, true, false⟩)

omit [Unicode] in
/-- The cron job selects the record, a request inserts another one, and the cron job deletes the
first. -/
theorem deletes_outdated_beside_insert :
    letI := asciiUnicode
    (deletions {} 4000 { db := ⟨expiredRecord, Sql.Table.empty⟩ }
        [.cleanup, .throttle hourlyLimit (messageOf "c@d.com"), .throttling 0, .throttling 0,
          .cleanup]).length = 1 ∧
      ∀ d ∈ deletions {} 4000 { db := ⟨expiredRecord, Sql.Table.empty⟩ }
        [.cleanup, .throttle hourlyLimit (messageOf "c@d.com"), .throttling 0, .throttling 0,
          .cleanup], d.Outdated 4000 := by
  let := asciiUnicode
  refine ⟨by decide, ?_⟩
  refine @deletes_outdated asciiUnicode {} 4000 { db := ⟨expiredRecord, Sql.Table.empty⟩ } rfl
    [.cleanup, .throttle hourlyLimit (messageOf "c@d.com"), .throttling 0, .throttling 0, .cleanup] ?_
  refine ⟨id, id, ?_, ?_, id, trivial⟩ <;> (unfold Renews; decide)

omit [Unicode] in
/-- The cron job selects the record, a request renews it, and the cron job deletes it. -/
theorem renewed_row_deleted :
    letI := asciiUnicode
    ¬ ∀ d ∈ deletions {} 4000 { db := ⟨expiredRecord, Sql.Table.empty⟩ }
      [.cleanup, .throttle hourlyLimit (messageOf "a@b.com"), .throttling 0, .throttling 0, .cleanup],
      d.Outdated 4000 := by
  let := asciiUnicode
  decide

end IRedAPD.Concurrency

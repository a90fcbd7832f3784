/-
  How a message is recorded in `throttle_tracking`.

  Every tracked rule has its setting's record inserted or updated.  Two rules of
  one setting share the record, and as the statements are collected by record,
  it is still written once.  `find?_record_of_tracked` says what the record of a
  setting becomes, and `find?_record_of_not_tracked` that no other one changes.
-/
import IRedAPD.Equiv.Plugins.Throttle.Load

namespace IRedAPD.Throttle

open Py

variable [Unicode]

/-! ### Collecting the statements -/

/-- The settings with their track keys, in the order of the loops. -/
def trackPairs (ld : Loaded) : List (TSetting × Str) :=
  ld.tSettings.flatMap fun (_, ts) => ts.trackKey.map fun k => (ts, k)

/-- What the loops have collected after some settings. -/
structure Recording.Valid (now : ℕ) (args : Args) (trackingIds : Dict (ℕ × Str) ℕ)
    (expired : List ℕ) (pairs : List (TSetting × Str)) (rec : Recording) : Prop where
  inserts_nodup : (rec.sqlInserts.map Prod.fst).Nodup
  updates_nodup : (rec.sqlUpdates.map Prod.fst).Nodup
  inserts : ∀ key r, rec.sqlInserts.get? key = some r → ∃ p ∈ pairs, (p.1.tid, p.2) = key ∧
    trackingIds.get? key = none ∧ r = newTracking now args p.1 p.2
  inserts_of_mem : ∀ p ∈ pairs, trackingIds.get? (p.1.tid, p.2) = none →
    rec.sqlInserts.get? (p.1.tid, p.2) ≠ none
  updates : ∀ id u, rec.sqlUpdates.get? id = some u → ∃ p ∈ pairs,
    trackingIds.get? (p.1.tid, p.2) = some id ∧ u = updateOf now args expired p.1 id
  updates_of_mem : ∀ p ∈ pairs, ∀ id, trackingIds.get? (p.1.tid, p.2) = some id →
    rec.sqlUpdates.get? id ≠ none

omit [Unicode] in
/-- One more setting. -/
theorem Recording.Valid.takeKey {now : ℕ} {args : Args} {trackingIds : Dict (ℕ × Str) ℕ}
    {expired : List ℕ} {pairs : List (TSetting × Str)} {rec : Recording}
    (h : rec.Valid now args trackingIds expired pairs) (p : TSetting × Str) :
    (rec.takeKey now args trackingIds expired p.1 p.2).Valid now args trackingIds expired
      (pairs ++ [p]) := by
  unfold Recording.takeKey
  have hold : ∀ {q}, q ∈ pairs → q ∈ pairs ++ [p] := fun hq => List.mem_append_left _ hq
  have hlast : p ∈ pairs ++ [p] := List.mem_append_right _ (List.mem_singleton.mpr rfl)
  cases hid : trackingIds.get? (p.1.tid, p.2) with
  -- the key has a row: the update of its id is set, perhaps anew
  | some id =>
    refine ⟨h.inserts_nodup, Dict.nodup_keys_set h.updates_nodup _ _, ?_, ?_, ?_, ?_⟩
    · intro key r hr
      obtain ⟨q, hq, hkey⟩ := h.inserts key r hr
      exact ⟨q, hold hq, hkey⟩
    · intro q hq hnone
      rcases List.mem_append.mp hq with hq | hq
      · exact h.inserts_of_mem q hq hnone
      · rw [List.mem_singleton.mp hq, hid] at hnone
        cases hnone
    · intro id' u hu
      rw [Dict.get?_set] at hu
      split_ifs at hu with heq
      · subst heq
        exact ⟨p, hlast, hid, (Option.some.inj hu).symm⟩
      · obtain ⟨q, hq, hu'⟩ := h.updates id' u hu
        exact ⟨q, hold hq, hu'⟩
    · intro q hq id' hid'
      rw [Dict.get?_set]
      split_ifs with heq
      · simp
      · rcases List.mem_append.mp hq with hq | hq
        · exact h.updates_of_mem q hq id' hid'
        · rw [List.mem_singleton.mp hq, hid] at hid'
          exact absurd (Option.some.inj hid') heq
  -- no row: the first setting with the key is inserted, the next ones are left out
  | none =>
    simp only
    by_cases hsome : (rec.sqlInserts.get? (p.1.tid, p.2)).isSome = true
    · rw [if_pos hsome]
      refine ⟨h.inserts_nodup, h.updates_nodup, ?_, ?_, ?_, ?_⟩
      · intro key r hr
        obtain ⟨q, hq, hkey⟩ := h.inserts key r hr
        exact ⟨q, hold hq, hkey⟩
      · intro q hq hnone
        rcases List.mem_append.mp hq with hq | hq
        · exact h.inserts_of_mem q hq hnone
        · rw [List.mem_singleton.mp hq]
          exact Option.isSome_iff_ne_none.mp hsome
      · intro id' u hu
        obtain ⟨q, hq, hu'⟩ := h.updates id' u hu
        exact ⟨q, hold hq, hu'⟩
      · intro q hq id' hid'
        rcases List.mem_append.mp hq with hq | hq
        · exact h.updates_of_mem q hq id' hid'
        · rw [List.mem_singleton.mp hq, hid] at hid'
          cases hid'
    · rw [if_neg hsome]
      refine ⟨Dict.nodup_keys_set h.inserts_nodup _ _, h.updates_nodup, ?_, ?_, ?_, ?_⟩
      · intro key r hr
        rw [Dict.get?_set] at hr
        split_ifs at hr with heq
        · subst heq
          exact ⟨p, hlast, rfl, hid, (Option.some.inj hr).symm⟩
        · obtain ⟨q, hq, hkey⟩ := h.inserts key r hr
          exact ⟨q, hold hq, hkey⟩
      · intro q hq hnone
        rw [Dict.get?_set]
        split_ifs with heq
        · simp
        · rcases List.mem_append.mp hq with hq | hq
          · exact h.inserts_of_mem q hq hnone
          · rw [List.mem_singleton.mp hq] at heq
            exact absurd rfl heq
      · intro id' u hu
        obtain ⟨q, hq, hu'⟩ := h.updates id' u hu
        exact ⟨q, hold hq, hu'⟩
      · intro q hq id' hid'
        rcases List.mem_append.mp hq with hq | hq
        · exact h.updates_of_mem q hq id' hid'
        · rw [List.mem_singleton.mp hq, hid] at hid'
          cases hid'

omit [Unicode] in
/-- The two loops are one over the settings with their track keys. -/
theorem collect_eq_foldl (now : ℕ) (args : Args) (ld : Loaded) :
    collect now args ld = (trackPairs ld).foldl (fun rec p =>
      rec.takeKey now args ld.trackingIds (expiredTrackingIds now ld) p.1 p.2) {} := by
  rw [collect, trackPairs, List.foldl_flatMap]
  simp only [List.foldl_map]

omit [Unicode] in
/-- **The statements that are collected.** -/
theorem valid_collect (now : ℕ) (args : Args) (ld : Loaded) :
    (collect now args ld).Valid now args ld.trackingIds (expiredTrackingIds now ld) (trackPairs ld) := by
  rw [collect_eq_foldl]
  induction trackPairs ld using List.reverseRecOn with
  | nil => constructor <;> simp
  | append_singleton pairs p ih =>
    rw [List.foldl_append]
    exact ih.takeKey p

/-! ### Running the statements -/

omit [Unicode] in
/-- Inserts that do not fail. -/
theorem find?_runInserts {env : Env} {inserts : Dict (ℕ × Str) Tracking} {t : TrackingTable}
    (hfailed : (runInserts env inserts t).1 = []) (k : ℕ × Str) :
    (∃ id, ∃ p ∈ inserts, p.2.key = k ∧ t.find? k = none ∧
        (runInserts env inserts t).2.find? k = some (id, p.2)) ∨
      ((∀ p ∈ inserts, p.2.key ≠ k) ∧ (runInserts env inserts t).2.find? k = t.find? k) := by
  unfold runInserts at hfailed ⊢
  by_cases hnil : inserts.isEmpty = true
  · rw [if_pos hnil]
    rw [List.isEmpty_iff] at hnil
    subst hnil
    exact .inr ⟨by simp, rfl⟩
  · rw [if_neg hnil] at hfailed ⊢
    by_cases hfails : env.fails .insertTracking = true
    · rw [if_pos hfails] at hfailed
      cases hfailed
    · rw [if_neg hfails] at hfailed ⊢
      cases hinsert : t.insertAll (inserts.map Prod.snd) with
      | none =>
        rw [hinsert] at hfailed
        cases hfailed
      | some t' =>
        rcases Sql.Table.find?_insertAll hinsert k with ⟨id, r, hr, hk, hnone, hsome⟩ | ⟨hno, hsame⟩
        · obtain ⟨p, hp, rfl⟩ := List.mem_map.mp hr
          exact .inl ⟨id, p, hp, hk, hnone, hsome⟩
        · exact .inr ⟨fun p hp => hno p.2 (List.mem_map_of_mem hp), hsame⟩

omit [Unicode] in
/-- An insert leaves the rows that are stored already. -/
theorem find?_runInserts_of_some {env : Env} {inserts : Dict (ℕ × Str) Tracking} {t : TrackingTable}
    {k : ℕ × Str} {row : ℕ × Tracking} (h : t.find? k = some row) :
    (runInserts env inserts t).2.find? k = some row := by
  unfold runInserts
  split_ifs
  · exact h
  · exact h
  · cases hinsert : t.insertAll (inserts.map Prod.snd) with
    | none => exact h
    | some t' =>
      rcases Sql.Table.find?_insertAll hinsert k with ⟨_, _, _, _, hnone, _⟩ | ⟨-, hsame⟩
      · rw [h] at hnone
        cases hnone
      · exact hsame.trans h

omit [Unicode] in
/-- Updates of different rows, of which some may fail. -/
theorem find?_runUpdates_of_fails {env : Env} {us : Dict ℕ Update} (hnodup : (us.map Prod.fst).Nodup)
    (st : List Statement × TrackingTable) (k : ℕ × Str) :
    (us.foldl (runUpdate env) st).2.find? k = (st.2.find? k).map fun row =>
      (row.1, if env.fails (.updateTracking row.1) then row.2
        else (us.get? row.1).elim row.2 fun u => u.apply row.2) := by
  induction us generalizing st with
  | nil => simp
  | cons u us ih =>
    obtain ⟨hu, hus⟩ := List.nodup_cons.mp hnodup
    have hrun : (runUpdate env st u).2.find? k = (st.2.find? k).map fun row =>
        (row.1, if row.1 = u.1 ∧ env.fails (.updateTracking u.1) = false then u.2.apply row.2
          else row.2) := by
      unfold runUpdate
      cases hfails : env.fails (.updateTracking u.1) with
      | true => simp
      | false =>
        rw [if_neg Bool.false_ne_true, Sql.Table.find?_update]
        congr 1
        funext row
        by_cases hid : row.1 = u.1 <;> simp [hid]
    rw [List.foldl_cons, ih hus, hrun, Option.map_map]
    congr 1
    funext row
    rw [Function.comp_apply, Dict.get?]
    by_cases hid : row.1 = u.1
    · -- no later statement has the same id
      have hnone : Dict.get? us u.1 = none := by
        cases hget : Dict.get? us u.1 with
        | none => rfl
        | some u' => exact absurd (List.mem_map_of_mem (Dict.mem_of_get? hget)) hu
      cases hfails : env.fails (.updateTracking u.1) <;> simp [hid, hnone, hfails]
    · simp [hid, Ne.symm hid]

omit [Unicode] in
/-- Statements that have failed stay on the list. -/
theorem runUpdate_failed {env : Env} {us : Dict ℕ Update} {st : List Statement × TrackingTable}
    (h : (us.foldl (runUpdate env) st).1 = []) : st.1 = [] := by
  induction us generalizing st with
  | nil => exact h
  | cons u us ih =>
    have hst := ih h
    unfold runUpdate at hst
    split_ifs at hst
    · exact (List.append_eq_nil_iff.mp hst).1
    · exact hst

omit [Unicode] in
/-- Where none is on the list no update has failed. -/
theorem fails_of_runUpdate {env : Env} {us : Dict ℕ Update} {st : List Statement × TrackingTable}
    (h : (us.foldl (runUpdate env) st).1 = []) :
    ∀ u ∈ us, env.fails (.updateTracking u.1) = false := by
  induction us generalizing st with
  | nil => exact fun u hu => absurd hu List.not_mem_nil
  | cons u us ih =>
    intro v hv
    rcases List.mem_cons.mp hv with rfl | hv
    · have hst : (runUpdate env st v).1 = [] := @runUpdate_failed env us _ h
      unfold runUpdate at hst
      split_ifs at hst with hfails
      · exact absurd (List.append_eq_nil_iff.mp hst).2 (List.cons_ne_nil _ _)
      · exact Bool.eq_false_of_not_eq_true hfails
    · exact ih h v hv

omit [Unicode] in
/-- Updates that do not fail: each row is updated by the statement for its id. -/
theorem find?_runUpdates {env : Env} {us : Dict ℕ Update} (hnodup : (us.map Prod.fst).Nodup)
    {st : List Statement × TrackingTable} (h : (us.foldl (runUpdate env) st).1 = []) (k : ℕ × Str) :
    (us.foldl (runUpdate env) st).2.find? k =
      (st.2.find? k).map fun row => (row.1, (us.get? row.1).elim row.2 fun u => u.apply row.2) := by
  rw [find?_runUpdates_of_fails hnodup]
  congr 1
  funext row
  cases hget : us.get? row.1 with
  | none =>
    rw [Option.elim_none]
    split_ifs <;> rfl
  | some u =>
    rw [fails_of_runUpdate h _ (Dict.mem_of_get? hget), if_neg Bool.false_ne_true]

/-! ### The record of a setting -/

/-- The tracking record has expired. -/
def Tracking.expired (now period : ℕ) (r : Tracking) : Bool :=
  period ≠ 0 ∧ r.initTime ≠ 0 ∧ r.initTime + period < now

/-- What the record of a setting becomes when a message is recorded. -/
def Setting.next (now : ℕ) (args : Args) (rcd : Setting) (k : Str) : Option Tracking → Tracking
  | none =>
    { tid := rcd.id, account := k, period := rcd.period, curMsgs := args.recipientCount
      curQuota := args.size, initTime := now, lastTime := now }
  | some r =>
    if r.expired now rcd.period then
      { r with
        period := rcd.period, curMsgs := args.recipientCount, curQuota := args.size
        initTime := now, lastTime := now }
    else
      { r with
        period := rcd.period, curMsgs := r.curMsgs + args.recipientCount
        curQuota := r.curQuota + args.size
        initTime := if r.initTime = 0 then now else r.initTime, lastTime := now }

omit [Unicode] in
/-- Whether a setting has expired is read off its record. -/
theorem expired_withRecord (now : ℕ) (row : ℕ × Tracking) (ts : TSetting) :
    (ts.withRecord now row).expired now = row.2.expired now ts.period := by
  unfold TSetting.withRecord TSetting.expired Tracking.expired
  by_cases hinit : row.2.initTime = 0
  · simp [hinit]
  · have hpos : 0 < row.2.initTime := Nat.pos_of_ne_zero hinit
    simp [hinit, hpos]

section Record

variable {env : Env} {args : Args} {seen : List Setting} {decider : Rule → Option Setting}
  {sel : Selection} {t : TrackingTable}

/-- What a call has loaded. -/
abbrev loadedFor (now : ℕ) (args : Args) (sel : Selection) (t : TrackingTable) : Loaded :=
  load now sel args (selected sel t)

variable (env) in
/-- No rule occurs twice in `t_settings`. -/
theorem nodup_load (hsel : sel.Valid args.user args.clientAddress seen decider)
    (rows : List (ℕ × Tracking)) :
    ((load env.now sel args rows).tSettings.map Prod.fst).Nodup := by
  have htracked : ((trackedSettings sel args).map Prod.fst).Nodup := by
    unfold trackedSettings
    rw [Dict.keys_mapValues]
    exact Dict.nodup_keys_erase (Dict.nodup_keys_erase hsel.nodup _) _
  -- overwriting the data of a rule leaves the rules as they are
  have hmodify : ∀ (row : ℕ × Tracking) (rules : List Rule) (d : Dict Rule TSetting),
      (rules.foldl (fun d rule => d.modify rule (TSetting.withRecord env.now row)) d).map Prod.fst =
        d.map Prod.fst := by
    intro row rules
    induction rules with
    | nil => exact fun d => rfl
    | cons rule rules ih =>
      intro d
      rw [List.foldl_cons, ih, Dict.keys_modify]
  suffices h : ∀ ld : Loaded, (rows.foldl (Loaded.takeRecord env.now sel) ld).tSettings.map Prod.fst =
      ld.tSettings.map Prod.fst by
    rw [load, h]
    exact htracked
  induction rows with
  | nil => exact fun ld => rfl
  | cons row rows ih =>
    intro ld
    rw [List.foldl_cons, ih]
    exact hmodify row _ _

/-- The settings of the loops are those of the tracked rules. -/
theorem exists_of_mem_trackPairs (hsel : sel.Valid args.user args.clientAddress seen decider)
    {p : TSetting × Str} (hp : p ∈ trackPairs (loadedFor env.now args sel t)) :
    ∃ rule rcd, rule.isTracked = true ∧ decider rule = some rcd ∧ p.1.tid = rcd.id ∧
      p.2 = trackKeyOf args rcd.account ∧
        (loadedFor env.now args sel t).tSettings.get? rule = some p.1 := by
  obtain ⟨⟨rule, ts⟩, hmem, hkeys⟩ := List.mem_flatMap.mp hp
  obtain ⟨k, hk, rfl⟩ := List.mem_map.mp hkeys
  have hget := (Dict.get?_eq_some_iff (nodup_load env hsel (selected sel t))).mpr hmem
  obtain ⟨rcd, hrcd, htid, -, hkey, -⟩ := mem_of_trackingId hsel hget
  refine ⟨rule, rcd, ?_, hrcd, htid, ?_, hget⟩
  · cases hrule : rule.isTracked with
    | true => rfl
    | false =>
      rw [get?_load hsel, get?_trackedSettings hsel, hrule] at hget
      cases hget
  · rw [hkey] at hk
    exact List.mem_singleton.mp hk

variable (env t) in
/-- Every tracked rule is among them. -/
theorem mem_trackPairs (hsel : sel.Valid args.user args.clientAddress seen decider) {rule : Rule}
    (hrule : rule.isTracked = true) {rcd : Setting} (hdecider : decider rule = some rcd) :
    ∃ ts, ts.tid = rcd.id ∧ (ts, trackKeyOf args rcd.account) ∈
      trackPairs (loadedFor env.now args sel t) := by
  have hsome : ∃ ts, (loadedFor env.now args sel t).tSettings.get? rule = some ts := by
    rw [get?_load hsel, get?_trackedSettings hsel, if_pos hrule, hdecider]
    exact ⟨_, rfl⟩
  obtain ⟨ts, hts⟩ := hsome
  obtain ⟨rcd', hrcd', htid, -, hkey, -⟩ := mem_of_trackingId hsel hts
  obtain rfl := Option.some.inj (hdecider.symm.trans hrcd')
  refine ⟨ts, htid, List.mem_flatMap.mpr ⟨(rule, ts), Dict.mem_of_get? hts, ?_⟩⟩
  exact List.mem_map.mpr ⟨_, by rw [hkey]; exact List.mem_singleton.mpr rfl, rfl⟩

/-- A record the call has found is stored under its key. -/
theorem find?_of_trackingIds {k : ℕ × Str} {id : ℕ}
    (h : (loadedFor env.now args sel t).trackingIds.get? k = some id) :
    ∃ r, t.find? k = some (id, r) := by
  unfold loadedFor load at h
  rw [get?_trackingIds_selected] at h
  split_ifs at h
  obtain ⟨row, hrow, rfl⟩ := Option.map_eq_some_iff.mp h
  exact ⟨row.2, hrow⟩

omit [Unicode] in
/-- Two keys with a record of the same id are the same. -/
theorem key_eq_of_id_eq {k k' : ℕ × Str} {id : ℕ} {r r' : Tracking} (h : t.find? k = some (id, r))
    (h' : t.find? k' = some (id, r')) : k = k' := by
  obtain ⟨hr, hk⟩ := Sql.Table.find?_eq_some_iff.mp h
  obtain ⟨hr', hk'⟩ := Sql.Table.find?_eq_some_iff.mp h'
  rw [← hk, ← hk', t.eq_of_id_eq hr hr' rfl]

/-- **No other record changes.** -/
theorem find?_record_of_not_tracked
    (hsel : sel.Valid args.user args.clientAddress seen decider) {k : ℕ × Str}
    (hk : ∀ rule rcd, rule.isTracked = true → decider rule = some rcd →
      (rcd.id, trackKeyOf args rcd.account) ≠ k)
    (hfailed : (record env (collect env.now args (loadedFor env.now args sel t)) t).1.failed = []) :
    (record env (collect env.now args (loadedFor env.now args sel t)) t).2.find? k = t.find? k := by
  have hvalid := valid_collect env.now args (loadedFor env.now args sel t)
  have hpair : ∀ p ∈ trackPairs (loadedFor env.now args sel t), (p.1.tid, p.2) ≠ k := by
    intro p hp
    obtain ⟨rule, rcd, hrule, hrcd, htid, hkey, -⟩ := exists_of_mem_trackPairs hsel hp
    rw [htid, hkey]
    exact hk rule rcd hrule hrcd
  unfold record at hfailed ⊢
  simp only at hfailed ⊢
  rw [find?_runUpdates hvalid.updates_nodup hfailed]
  -- nothing is inserted under the key
  have hinsert : (runInserts env (collect env.now args (loadedFor env.now args sel t)).sqlInserts
      t).2.find? k = t.find? k := by
    rcases find?_runInserts (runUpdate_failed hfailed) k with ⟨_, p, hp, hpk, -, -⟩ | ⟨-, hsame⟩
    · obtain ⟨q, hq, hqk, -, hr⟩ := hvalid.inserts p.1 p.2
        ((Dict.get?_eq_some_iff hvalid.inserts_nodup).mpr hp)
      rw [hr] at hpk
      exact absurd hpk (hpair q hq)
    · exact hsame
  rw [hinsert]
  cases hrow : t.find? k with
  | none => rfl
  | some row =>
    -- nor is its record updated
    have hupdate : Dict.get? (collect env.now args (loadedFor env.now args sel t)).sqlUpdates row.1 =
        none := by
      cases hu : Dict.get? (collect env.now args (loadedFor env.now args sel t)).sqlUpdates row.1 with
      | none => rfl
      | some u =>
        obtain ⟨q, hq, hid, -⟩ := hvalid.updates row.1 u hu
        obtain ⟨r, hr⟩ := find?_of_trackingIds hid
        exact absurd (key_eq_of_id_eq hr hrow) (hpair q hq)
    rw [Option.map_some, hupdate]
    rfl

omit [Unicode] in
/-- Two deciders with the same id are the same. -/
theorem Selection.Valid.eq_of_id_eq {user clientAddress : Str}
    (hsel : sel.Valid user clientAddress seen decider) (hids : (seen.map (·.id)).Nodup)
    {rule rule' : Rule} {rcd rcd' : Setting} (h : decider rule = some rcd)
    (h' : decider rule' = some rcd') (hid : rcd.id = rcd'.id) : rcd = rcd' :=
  List.inj_on_of_nodup_map hids (hsel.mem_seen rule rcd h) (hsel.mem_seen rule' rcd' h') hid

section Tracked

variable {rule : Rule} {rcd : Setting}

/-- The key of a tracked rule is one the query asks for. -/
theorem mem_where_of_agrees (hsel : sel.Valid args.user args.clientAddress seen decider)
    (hdecider : decider rule = some rcd) (hperiod : rcd.period ≠ 0) (hagrees : Agrees t args rcd) :
    (rcd.id, trackKeyOf args rcd.account) ∈ sel.trackingSqlWhere := by
  rw [hsel.where_iff]
  rcases hagrees.key with hkey | hkey
  · exact .inl ⟨rcd, hsel.mem_seen rule rcd hdecider, hperiod, by rw [hkey]⟩
  · exact .inr ⟨rule, rcd, hdecider, by rw [hkey]⟩

/-- The setting of the loops that has the key of a tracked rule. -/
theorem eq_loaded_of_mem_trackPairs (hsel : sel.Valid args.user args.clientAddress seen decider)
    (hids : (seen.map (·.id)).Nodup) (hdecider : decider rule = some rcd) (hperiod : rcd.period ≠ 0)
    (hagrees : Agrees t args rcd) {p : TSetting × Str}
    (hp : p ∈ trackPairs (loadedFor env.now args sel t))
    (hkey : (p.1.tid, p.2) = (rcd.id, trackKeyOf args rcd.account)) :
    ∃ rule', p.1 = rcd.loaded env.now args rule' (t.find? (rcd.id, trackKeyOf args rcd.account)) := by
  obtain ⟨rule', rcd', hrule', hrcd', htid, -, hget⟩ := exists_of_mem_trackPairs hsel hp
  have hid : rcd.id = rcd'.id := (Prod.mk.inj hkey).1.symm.trans htid
  obtain rfl := hsel.eq_of_id_eq hids hdecider hrcd' hid
  refine ⟨rule', ?_⟩
  rw [get?_load_of_agrees hsel hrule' hrcd' hperiod hagrees] at hget
  exact (Option.some.inj hget).symm

/-- A record of a setting is marked as expired when it is the one the setting is loaded with and has
expired. -/
theorem mem_expiredTrackingIds_of_loaded
    (hsel : sel.Valid args.user args.clientAddress seen decider) (hids : (seen.map (·.id)).Nodup)
    (hrule : rule.isTracked = true) (hdecider : decider rule = some rcd) {row last : ℕ × Tracking}
    (hrow : row ∈ t.rows) (hlast : last ∈ t.rows) (htid : row.2.tid = rcd.id)
    (hloaded : ∀ rule, rule.isTracked = true → decider rule = some rcd →
      (loadedFor env.now args sel t).tSettings.get? rule =
        some ((rcd.tracked args rule).withRecord env.now last)) :
    row.1 ∈ expiredTrackingIds env.now (loadedFor env.now args sel t) ↔
      row = last ∧ row.2.expired env.now rcd.period = true := by
  simp only [expiredTrackingIds, List.mem_filterMap, List.mem_cons, List.not_mem_nil, or_false,
    Option.bind_eq_some_iff, Option.filter_eq_some_iff]
  constructor
  · rintro ⟨ts?, hmem, ts, ⟨rfl, hexpired⟩, hid⟩
    -- a rule with this record is a rule of the same setting
    have hsame : ∀ rule', rule'.isTracked = true →
        some ts = (loadedFor env.now args sel t).tSettings.get? rule' →
          row = last ∧ row.2.expired env.now rcd.period = true := by
      intro rule' hrule' hget
      obtain ⟨rcd', hrcd', -, -, -, -, hrec⟩ := mem_of_trackingId hsel hget.symm
      obtain ⟨row', hmem, hrowid, htid'⟩ := hrec row.1 hid
      obtain rfl : row' = row := t.eq_of_id_eq hmem hrow hrowid
      obtain rfl := hsel.eq_of_id_eq hids hdecider hrcd' (htid.symm.trans htid')
      rw [hloaded rule' hrule' hrcd'] at hget
      obtain rfl := Option.some.inj hget
      have heq : row' = last := t.eq_of_id_eq hrow hlast (Option.some.inj hid).symm
      rw [expired_withRecord, ← heq] at hexpired
      exact ⟨heq, hexpired⟩
    rcases hmem with hmem | hmem
    · exact hsame .maxMsgs rfl hmem
    · exact hsame .maxQuota rfl hmem
  · rintro ⟨rfl, hexpired⟩
    have hts : ((rcd.tracked args rule).withRecord env.now row).expired env.now = true := by
      rw [expired_withRecord]
      exact hexpired
    refine ⟨_, ?_, _, ⟨hloaded rule hrule hdecider, hts⟩, rfl⟩
    cases rule with
    | maxMsgs => exact .inl rfl
    | maxQuota => exact .inr rfl
    | msgSize => cases hrule
    | maxRcpts => cases hrule

variable (env) in
/-- The record of a setting is marked as expired when it has expired. -/
theorem mem_expiredTrackingIds (hsel : sel.Valid args.user args.clientAddress seen decider)
    (hids : (seen.map (·.id)).Nodup) (hrule : rule.isTracked = true)
    (hdecider : decider rule = some rcd) (hperiod : rcd.period ≠ 0) (hagrees : Agrees t args rcd)
    {id : ℕ} {r : Tracking} (hrow : t.find? (rcd.id, trackKeyOf args rcd.account) = some (id, r)) :
    id ∈ expiredTrackingIds env.now (loadedFor env.now args sel t) ↔
      r.expired env.now rcd.period = true := by
  have hloaded : ∀ rule, rule.isTracked = true → decider rule = some rcd →
      (loadedFor env.now args sel t).tSettings.get? rule =
        some ((rcd.tracked args rule).withRecord env.now (id, r)) := by
    intro rule hrule hdecider
    rw [get?_load_of_agrees hsel hrule hdecider hperiod hagrees, hrow]
    rfl
  obtain ⟨hmem, hkey⟩ := Sql.Table.find?_eq_some_iff.mp hrow
  have hiff := mem_expiredTrackingIds_of_loaded hsel hids hrule hdecider hmem hmem
    (Prod.mk.inj hkey).1 hloaded
  rw [hiff]
  exact and_iff_right rfl

/-- **A tracked setting without a record** has one inserted. -/
theorem find?_record_of_none (hsel : sel.Valid args.user args.clientAddress seen decider)
    (hids : (seen.map (·.id)).Nodup) (hrule : rule.isTracked = true)
    (hdecider : decider rule = some rcd)
    (hnone : t.find? (rcd.id, trackKeyOf args rcd.account) = none)
    (hfailed : (record env (collect env.now args (loadedFor env.now args sel t)) t).1.failed = []) :
    ((record env (collect env.now args (loadedFor env.now args sel t)) t).2.find?
        (rcd.id, trackKeyOf args rcd.account)).map Prod.snd =
      some (rcd.next env.now args (trackKeyOf args rcd.account) none) := by
  set k := trackKeyOf args rcd.account with hk
  have hvalid := valid_collect env.now args (loadedFor env.now args sel t)
  obtain ⟨ts, htid, hpair⟩ := mem_trackPairs env t hsel hrule hdecider
  rw [← hk] at hpair
  have htracking : (loadedFor env.now args sel t).trackingIds.get? (rcd.id, k) = none := by
    unfold loadedFor load
    rw [get?_trackingIds_selected, hnone, Option.map_none, ite_self]
  unfold record at hfailed ⊢
  simp only at hfailed ⊢
  rw [find?_runUpdates hvalid.updates_nodup hfailed]
  have hne := hvalid.inserts_of_mem _ hpair (by rw [htid]; exact htracking)
  rw [htid] at hne
  obtain ⟨r, hr⟩ := Option.ne_none_iff_exists'.mp hne
  rcases find?_runInserts (runUpdate_failed hfailed) (rcd.id, k) with
    ⟨id, p, hp, hpk, -, hfind⟩ | ⟨hno, -⟩
  · obtain ⟨q, hq, hqk, -, hpr⟩ := hvalid.inserts p.1 p.2
      ((Dict.get?_eq_some_iff hvalid.inserts_nodup).mpr hp)
    have hqkey : (q.1.tid, q.2) = (rcd.id, k) := by
      rw [← hpk, hpr]
      rfl
    obtain ⟨hqtid, hqaccount⟩ := Prod.mk.inj hqkey
    -- the row is one for this setting
    have hperiod : q.1.period = rcd.period := by
      obtain ⟨rule', rcd', -, hrcd', htid', -, hget⟩ := exists_of_mem_trackPairs hsel hq
      obtain ⟨rcd'', hrcd'', -, hperiod, -⟩ := mem_of_trackingId hsel hget
      obtain rfl := Option.some.inj (hrcd'.symm.trans hrcd'')
      rw [hperiod, hsel.eq_of_id_eq hids hdecider hrcd' (hqtid.symm.trans htid')]
    -- and it is not updated: its id is a new one
    have hupdate : Dict.get? (collect env.now args (loadedFor env.now args sel t)).sqlUpdates id =
        none := by
      cases hu : Dict.get? (collect env.now args (loadedFor env.now args sel t)).sqlUpdates id with
      | none => rfl
      | some u =>
        obtain ⟨q', -, hid, -⟩ := hvalid.updates id u hu
        obtain ⟨r', hr'⟩ := find?_of_trackingIds hid
        have hold : (runInserts env (collect env.now args (loadedFor env.now args sel t)).sqlInserts
            t).2.find? (q'.1.tid, q'.2) = some (id, r') := by
          rcases find?_runInserts (runUpdate_failed hfailed) (q'.1.tid, q'.2) with
            ⟨_, _, _, _, hno, _⟩ | ⟨-, hsame⟩
          · rw [hr'] at hno
            cases hno
          · rw [hsame, hr']
        rw [key_eq_of_id_eq hold hfind, hnone] at hr'
        cases hr'
    rw [hfind, Option.map_some, hupdate, Option.map_some, hpr, newTracking, hqtid, hqaccount, hperiod]
    rfl
  · have hrk : r.key = (rcd.id, k) := by
      obtain ⟨q, -, hqk, -, rfl⟩ := hvalid.inserts _ r hr
      exact hqk
    exact absurd hrk (hno _ (Dict.mem_of_get? hr))

/-- **What the record of a tracked setting becomes.** -/
theorem find?_record_of_tracked (hsel : sel.Valid args.user args.clientAddress seen decider)
    (hids : (seen.map (·.id)).Nodup) (hrule : rule.isTracked = true)
    (hdecider : decider rule = some rcd) (hperiod : rcd.period ≠ 0) (hagrees : Agrees t args rcd)
    (hfailed : (record env (collect env.now args (loadedFor env.now args sel t)) t).1.failed = []) :
    ((record env (collect env.now args (loadedFor env.now args sel t)) t).2.find?
        (rcd.id, trackKeyOf args rcd.account)).map Prod.snd =
      some (rcd.next env.now args (trackKeyOf args rcd.account)
        ((t.find? (rcd.id, trackKeyOf args rcd.account)).map Prod.snd)) := by
  cases hrow : t.find? (rcd.id, trackKeyOf args rcd.account) with
  | none => exact find?_record_of_none hsel hids hrule hdecider hrow hfailed
  | some row =>
    obtain ⟨id, r⟩ := row
    set k := trackKeyOf args rcd.account with hk
    have hvalid := valid_collect env.now args (loadedFor env.now args sel t)
    obtain ⟨ts, htid, hpair⟩ := mem_trackPairs env t hsel hrule hdecider
    rw [← hk] at hpair
    have htracking : (loadedFor env.now args sel t).trackingIds.get? (rcd.id, k) = some id := by
      unfold loadedFor load
      rw [get?_trackingIds_selected, if_pos (mem_where_of_agrees hsel hdecider hperiod hagrees), hrow]
      rfl
    unfold record at hfailed ⊢
    simp only at hfailed ⊢
    rw [find?_runUpdates hvalid.updates_nodup hfailed]
    -- the record is updated
    have hne := hvalid.updates_of_mem _ hpair id (by rw [htid]; exact htracking)
    obtain ⟨u, hu⟩ := Option.ne_none_iff_exists'.mp hne
    obtain ⟨q, hq, hqid, hqu⟩ := hvalid.updates id u hu
    obtain ⟨r', hr'⟩ := find?_of_trackingIds hqid
    obtain ⟨rule', hloaded⟩ := eq_loaded_of_mem_trackPairs hsel hids hdecider hperiod hagrees hq
      (key_eq_of_id_eq hr' hrow)
    rw [← hk, hrow] at hloaded
    have hold : (runInserts env (collect env.now args (loadedFor env.now args sel t)).sqlInserts
        t).2.find? (rcd.id, k) = some (id, r) := by
      rcases find?_runInserts (runUpdate_failed hfailed) (rcd.id, k) with
        ⟨_, _, _, _, hnone, _⟩ | ⟨-, hsame⟩
      · rw [hrow] at hnone
        cases hnone
      · rw [hsame, hrow]
    have hexpired := mem_expiredTrackingIds env hsel hids hrule hdecider hperiod hagrees hrow
    rw [hold, Option.map_some, hu, Option.map_some, Option.map_some]
    simp only [Option.elim_some, hqu, updateOf, List.contains_iff_mem, hexpired, hloaded]
    by_cases hex : r.expired env.now rcd.period = true
    · rw [if_pos hex, Setting.next, if_pos hex]
      rfl
    · rw [if_neg hex, Setting.next, if_neg hex]
      rfl

end Tracked

end Record

end IRedAPD.Throttle

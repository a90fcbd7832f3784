/-
  Nothing replaces a cached score.

  A request inserts and a whitelisting writes to its own addresses (`Confined`),
  and a page of the cleanup holds no score that is not old enough.  Until a
  cleanup may delete the score of a client, or a whitelisting deletes it first,
  the requests of the client are answered by it and no name is looked up
  (`answered_from_cache`), so that a whitelisted client is let through
  (`whitelisted_accepted`).
-/
import IRedAPD.Equiv.Plugins.Senderscore.Sources

namespace IRedAPD.SenderscoreAdmin

open Py Senderscore

variable {config : Config}

/-! ### Processes that may delete a score -/

/-- No process at work may still delete the score of a client, which has been cached at `time`. -/
structure Undisturbed (c : Str) (time : ℤ) (s : State) : Prop where
  whitelistings : ∀ w ∈ s.whitelistings, c ∈ w.1 → ∃ finished, w.2 = .pure finished
  cleanups : ∀ cl ∈ s.cleanups, cl.next = .done ∨
    (cl.expireSeconds ≤ time ∧ ∀ removeValues, cl.next = .delete removeValues → c ∉ removeValues)

/-- The event starts no process that may delete it. -/
def Harmless (config : Config) (c : Str) (time : ℤ) : Event → Prop
  | .admin args _ => ∀ ips, parseArgs args = .ok ips → c ∉ ips
  | .cron now => now - config.senderscoreCacheDays * 86400 ≤ time
  | .receive _ | .request _ | .whitelisting _ | .cleanup _ => True

/-! ### What the processes write -/

/-- A write of the plugin. -/
def IsInsert : Senderscore.Write → Prop
  | .insert _ => True
  | .insertAll _ | .delete _ => False

/-- A write of a whitelisting. -/
def IsWhitelisting (ips : List Str) (w : Senderscore.Write) : Prop :=
  w = .delete ips ∨ w = .insertAll (ips.map whitelisted)

theorem writes_afterScore (config : Config) (env : Env) (c : Str) (lookups : List Str) (score : ℤ)
    (cacheIt : Bool) : (afterScore config env c lookups score cacheIt).Writes IsInsert := by
  unfold afterScore
  simp only
  split_ifs
  · exact ⟨trivial, fun _ => trivial⟩
  · trivial
  · trivial

/-- The plugin inserts only. -/
theorem writes_program (config : Config) (call : Call) : (program config call).Writes IsInsert := by
  rcases program_cases config call with ⟨out, hpure, -, -⟩ | ⟨-, hquery⟩
  · rw [hpure]
    trivial
  · rw [hquery]
    intro t
    show (afterSelect config call.1 call.2.clientAddress t).Writes IsInsert
    unfold afterSelect
    split_ifs
    · trivial
    split
    · exact writes_afterScore ..
    · unfold afterMiss
      split
      · simp only
        split
        · trivial
        · exact writes_afterScore ..
      · trivial

/-- A whitelisting writes to its addresses only. -/
theorem writes_whitelist (fails : Fails) (ips : List Str) :
    (whitelist fails ips).Writes (IsWhitelisting ips) := by
  unfold whitelist
  by_cases hdelete : fails.delete = true
  · rw [if_pos hdelete]
    trivial
  · rw [if_neg hdelete]
    refine ⟨.inl rfl, fun _ => ?_⟩
    split_ifs
    · trivial
    · exact ⟨.inr rfl, fun _ => trivial⟩

/-- An insert keeps what is cached. -/
theorem find?_of_isInsert {c : Str} {row : ℕ × Cached} {w : Senderscore.Write} {t t' : CacheTable}
    (hw : IsInsert w) (hexec : w.exec t = some t') (hrow : t.find? c = some row) :
    t'.find? c = some row := by
  cases w with
  | insert r => exact Sql.Table.find?_insert_of_some hexec hrow
  | insertAll rs => cases hw
  | delete cs => cases hw

/-- A whitelisting keeps the scores of other clients. -/
theorem find?_of_isWhitelisting {c : Str} {row : ℕ × Cached} {ips : List Str} (hc : c ∉ ips)
    {w : Senderscore.Write} {t t' : CacheTable} (hw : IsWhitelisting ips w) (hexec : w.exec t = some t')
    (hrow : t.find? c = some row) : t'.find? c = some row := by
  rcases hw with rfl | rfl
  · obtain ⟨-, hkey⟩ := Sql.Table.find?_eq_some_iff.mp hrow
    have hkeep : ips.contains row.2.clientAddress = false := by
      rw [List.contains_eq_mem, decide_eq_false_iff_not]
      exact fun hmem => hc (hkey ▸ hmem)
    rw [← Option.some.inj hexec, Sql.Table.find?_delete, hrow,
      Option.filter_some_pos (by simp only [hkeep, Bool.not_false])]
  · rcases Sql.Table.find?_insertAll hexec c with ⟨id, r, -, -, hnone, -⟩ | ⟨-, hsame⟩
    · rw [hnone] at hrow
      cases hrow
    · rw [hsame, hrow]

variable (config) in
/-- A client with a cached score is answered by it, and no name is looked up. -/
theorem next_program_of_cached {call : Call} {t₀ t : CacheTable} {row : ℕ × Cached}
    (h₀ : t₀.find? call.2.clientAddress = some row) (h : t.find? call.2.clientAddress = some row) :
    (program config call).next Senderscore.Write.exec t = (.pure (restriction config call t₀).1, t) ∧
      (restriction config call t₀).1.lookups = [] := by
  unfold restriction
  rcases program_cases config call with ⟨out, hpure, hlookups, -⟩ | ⟨-, hquery⟩
  · rw [hpure]
    exact ⟨rfl, hlookups⟩
  · rw [hquery]
    have hselect : ∀ t' : CacheTable, t'.find? call.2.clientAddress = some row →
        afterSelect config call.1 call.2.clientAddress t' =
          if call.1.fails .selectScore then .pure ⟨.error .operationalError, []⟩
          else afterScore config call.1 call.2.clientAddress [] row.2.score false := by
      intro t' ht'
      unfold afterSelect
      rw [ht']
    show (afterSelect config call.1 call.2.clientAddress t, t) = (.pure ((afterSelect config call.1
      call.2.clientAddress t₀).run Senderscore.Write.exec t₀).1, t) ∧ ((afterSelect config call.1
        call.2.clientAddress t₀).run Senderscore.Write.exec t₀).1.lookups = []
    rw [hselect t h, hselect t₀ h₀]
    unfold afterScore
    simp only [Bool.false_and, Bool.false_eq_true, if_false]
    split_ifs
    · exact ⟨rfl, rfl⟩
    · exact ⟨rfl, rfl⟩
    · exact ⟨rfl, rfl⟩

/-- The processes write what is theirs. -/
structure Confined (s : State) : Prop where
  requests : ∀ q ∈ s.requests, q.2.Writes IsInsert
  whitelistings : ∀ w ∈ s.whitelistings, w.2.Writes (IsWhitelisting w.1)

theorem confined_step {s : State} (h : Confined s) (e : Event) : Confined (step config s e) := by
  cases e with
  | receive call =>
    refine ⟨fun q hq => ?_, h.whitelistings⟩
    rcases List.mem_append.mp hq with hq | hq
    · exact h.requests q hq
    · rw [List.mem_singleton.mp hq]
      exact writes_program config call
  | admin args fails =>
    unfold step
    simp only
    split
    next ips _ =>
      refine ⟨h.requests, fun w hw => ?_⟩
      rcases List.mem_append.mp hw with hw | hw
      · exact h.whitelistings w hw
      · rw [List.mem_singleton.mp hw]
        exact writes_whitelist fails ips
    · exact h
  | cron now => exact ⟨h.requests, h.whitelistings⟩
  | request i =>
    unfold step
    simp only
    split
    · exact h
    next call p hget =>
      have hp := h.requests _ (List.mem_of_getElem? hget)
      exact ⟨forall_mem_set h.requests i (hp.next Senderscore.Write.exec s.cache), h.whitelistings⟩
  | whitelisting i =>
    unfold step
    simp only
    split
    · exact h
    next ips p hget =>
      have hp := h.whitelistings _ (List.mem_of_getElem? hget)
      exact ⟨h.requests, forall_mem_set h.whitelistings i (hp.next Senderscore.Write.exec s.cache)⟩
  | cleanup i =>
    unfold step
    simp only
    split
    · exact h
    · exact ⟨h.requests, h.whitelistings⟩

theorem confined_run {s : State} (h : Confined s) (events : List Event) :
    Confined (run config s events) := by
  induction events generalizing s with
  | nil => exact h
  | cons e events ih => exact ih (confined_step h e)

theorem confined_initial : Confined initial where
  requests q hq := by cases hq
  whitelistings w hw := by cases hw

/-! ### Cached scores decide -/

/-- The score of a client is cached, and the requests it has sent after the first `n` are answered as
they would have been on the table `t₀`. -/
structure Decided (config : Config) (n : ℕ) (t₀ : CacheTable) (row : ℕ × Cached) (s : State) :
    Prop where
  cached : s.cache.find? row.2.clientAddress = some row
  undisturbed : Undisturbed row.2.clientAddress row.2.time s
  length_le : n ≤ s.requests.length
  requests : ∀ q ∈ s.requests.drop n, q.1.2.clientAddress = row.2.clientAddress →
    q.2 = program config q.1 ∨ q.2 = .pure (restriction config q.1 t₀).1

/-- A page holds no client whose score is not old enough. -/
theorem notMem_page {expireSeconds : ℤ} {t : CacheTable} {row : ℕ × Cached}
    (hrow : t.find? row.2.clientAddress = some row) (htime : expireSeconds ≤ row.2.time) :
    row.2.clientAddress ∉ page config expireSeconds t := by
  intro hmem
  obtain ⟨row', hrow', hkey⟩ := List.mem_map.mp hmem
  obtain ⟨hin, hold⟩ := List.mem_filter.mp (List.mem_of_mem_take hrow')
  rw [t.eq_of_key_eq hin (Sql.Table.find?_eq_some_iff.mp hrow).1 hkey] at hold
  have hlt : row.2.time < expireSeconds := of_decide_eq_true hold
  omega

variable (config) in
/-- The next statement of a cleanup that has to leave the score. -/
theorem cleanup_run {t : CacheTable} {row : ℕ × Cached}
    (hrow : t.find? row.2.clientAddress = some row) {cl : Cleanup}
    (hcl : cl.next = .done ∨ (cl.expireSeconds ≤ row.2.time ∧
      ∀ removeValues, cl.next = .delete removeValues → row.2.clientAddress ∉ removeValues)) :
    (cl.run config t).2.find? row.2.clientAddress = some row ∧
      ((cl.run config t).1.next = .done ∨ ((cl.run config t).1.expireSeconds ≤ row.2.time ∧
        ∀ removeValues, (cl.run config t).1.next = .delete removeValues →
          row.2.clientAddress ∉ removeValues)) := by
  unfold Cleanup.run
  split
  next hselect =>
    obtain ⟨htime, -⟩ := hcl.resolve_left (by rw [hselect]; exact fun h => by cases h)
    simp only
    split_ifs
    · exact ⟨hrow, .inl rfl⟩
    · refine ⟨hrow, .inr ⟨htime, fun removeValues hremove => ?_⟩⟩
      rw [← CleanupStep.delete.inj hremove]
      exact notMem_page hrow htime
  next removeValues hdelete =>
    obtain ⟨htime, hnot⟩ := hcl.resolve_left (by rw [hdelete]; exact fun h => by cases h)
    refine ⟨?_, .inr ⟨htime, fun _ h => by cases h⟩⟩
    have hkeep : removeValues.contains row.2.clientAddress = false := by
      rw [List.contains_eq_mem, decide_eq_false_iff_not]
      exact hnot _ hdelete
    rw [Sql.Table.find?_delete, hrow, Option.filter_some_pos (by simp only [hkeep, Bool.not_false])]
  next hdone => exact ⟨hrow, .inl hdone⟩

/-- **A statement keeps it decided**, unless it starts a process that may delete the score. -/
theorem decided_step {n : ℕ} {t₀ : CacheTable} {row : ℕ × Cached}
    (h₀ : t₀.find? row.2.clientAddress = some row) {s : State} (hconfined : Confined s)
    (h : Decided config n t₀ row s) {e : Event}
    (he : Harmless config row.2.clientAddress row.2.time e) :
    Decided config n t₀ row (step config s e) := by
  cases e with
  | receive call =>
    refine ⟨h.cached, ⟨h.undisturbed.whitelistings, h.undisturbed.cleanups⟩, ?_, fun q hq hclient => ?_⟩
    · exact h.length_le.trans (by simp [step])
    · have hdrop : (step config s (.receive call)).requests.drop n =
          s.requests.drop n ++ [(call, program config call)] :=
        List.drop_append_of_le_length h.length_le
      rw [hdrop] at hq
      rcases List.mem_append.mp hq with hq | hq
      · exact h.requests q hq hclient
      · rw [List.mem_singleton.mp hq]
        exact .inl rfl
  | admin args fails =>
    unfold step
    simp only
    split
    next ips hargs =>
      refine ⟨h.cached, ⟨fun w hw hc => ?_, h.undisturbed.cleanups⟩, h.length_le, h.requests⟩
      rcases List.mem_append.mp hw with hw | hw
      · exact h.undisturbed.whitelistings w hw hc
      · rw [List.mem_singleton.mp hw] at hc
        exact absurd hc (he ips hargs)
    · exact h
  | cron now =>
    refine ⟨h.cached, ⟨h.undisturbed.whitelistings, fun cl hcl => ?_⟩, h.length_le, h.requests⟩
    rcases List.mem_append.mp hcl with hcl | hcl
    · exact h.undisturbed.cleanups cl hcl
    · rw [List.mem_singleton.mp hcl]
      exact .inr ⟨he, fun _ hnext => by cases hnext⟩
  | request i =>
    unfold step
    simp only
    split
    · exact h
    next call p hget =>
      refine ⟨?_, ⟨h.undisturbed.whitelistings, h.undisturbed.cleanups⟩, ?_, fun q hq hclient => ?_⟩
      · exact (hconfined.requests _ (List.mem_of_getElem? hget)).keeps
          (fun t => t.find? row.2.clientAddress = some row)
          (fun w t t' hw hexec hrow => find?_of_isInsert hw hexec hrow) h.cached
      · simpa using h.length_le
      · rw [List.drop_set] at hq
        split_ifs at hq with hi
        · exact h.requests q hq hclient
        · rcases List.mem_or_eq_of_mem_set hq with hq | rfl
          · exact h.requests q hq hclient
          · -- one of the requests sent after the first `n`
            have hmem : (call, p) ∈ s.requests.drop n := by
              refine List.mem_of_getElem? (i := i - n) ?_
              rw [List.getElem?_drop, Nat.add_sub_cancel' (by omega), hget]
            have hcached := h.cached
            have hcall : call.2.clientAddress = row.2.clientAddress := hclient
            rw [← hcall] at h₀ hcached
            refine .inr ?_
            rcases h.requests _ hmem hclient with hp | hp
            · have hp' : p = program config call := hp
              rw [hp']
              exact congrArg Prod.fst (next_program_of_cached config h₀ hcached).1
            · have hp' : p = .pure (restriction config call t₀).1 := hp
              rw [hp']
              rfl
  | whitelisting i =>
    unfold step
    simp only
    split
    · exact h
    next ips p hget =>
      have hmem := List.mem_of_getElem? hget
      by_cases hc : row.2.clientAddress ∈ ips
      · -- such a whitelisting has ended
        obtain ⟨finished, hp⟩ := h.undisturbed.whitelistings _ hmem hc
        have hp' : p = .pure finished := hp
        subst hp'
        refine ⟨h.cached, ⟨forall_mem_set h.undisturbed.whitelistings i ?_, h.undisturbed.cleanups⟩,
          h.length_le, h.requests⟩
        exact fun _ => ⟨finished, rfl⟩
      · refine ⟨?_, ⟨forall_mem_set h.undisturbed.whitelistings i ?_, h.undisturbed.cleanups⟩,
          h.length_le, h.requests⟩
        · exact (hconfined.whitelistings _ hmem).keeps
            (fun t => t.find? row.2.clientAddress = some row)
            (fun w t t' hw hexec hrow => find?_of_isWhitelisting hc hw hexec hrow) h.cached
        · exact fun hin => absurd hin hc
  | cleanup i =>
    unfold step
    simp only
    split
    · exact h
    next cl hget =>
      obtain ⟨hcached, hnext⟩ := cleanup_run config h.cached
        (h.undisturbed.cleanups cl (List.mem_of_getElem? hget))
      exact ⟨hcached, ⟨h.undisturbed.whitelistings, forall_mem_set h.undisturbed.cleanups i hnext⟩,
        h.length_le, h.requests⟩

theorem decided_run {n : ℕ} {t₀ : CacheTable} {row : ℕ × Cached}
    (h₀ : t₀.find? row.2.clientAddress = some row) {s : State} (hconfined : Confined s)
    (h : Decided config n t₀ row s) {events : List Event}
    (hevents : ∀ e ∈ events, Harmless config row.2.clientAddress row.2.time e) :
    Decided config n t₀ row (run config s events) := by
  induction events generalizing s with
  | nil => exact h
  | cons e events ih =>
    obtain ⟨he, hrest⟩ := List.forall_mem_cons.mp hevents
    exact ih (confined_step hconfined e) (decided_step h₀ hconfined h he) hrest

/-- **A cached score decides.** While no process deletes it, every later request of the client that ends
is answered as on the table of then, without a DNS query. -/
theorem answered_from_cache (before : List Event) {row : ℕ × Cached}
    (hrow : (run config initial before).cache.find? row.2.clientAddress = some row)
    (hquiet : Undisturbed row.2.clientAddress row.2.time (run config initial before))
    {events : List Event}
    (hevents : ∀ e ∈ events, Harmless config row.2.clientAddress row.2.time e)
    {call : Call} {out : Output}
    (hdone : (call, .pure out) ∈ (run config (run config initial before) events).requests.drop
      (run config initial before).requests.length)
    (hclient : call.2.clientAddress = row.2.clientAddress) :
    out = (restriction config call (run config initial before).cache).1 ∧ out.lookups = [] := by
  have hstart : Decided config (run config initial before).requests.length
      (run config initial before).cache row (run config initial before) :=
    ⟨hrow, hquiet, le_rfl, fun q hq => by rw [List.drop_length] at hq; cases hq⟩
  have hend := decided_run hrow (confined_run confined_initial before) hstart hevents
  have hrow' : (run config initial before).cache.find? call.2.clientAddress = some row := by
    rw [hclient]
    exact hrow
  obtain ⟨hnext, hlookups⟩ := next_program_of_cached config hrow' hrow'
  rcases hend.requests _ hdone hclient with hp | hp
  · -- the request ends before its `SELECT`
    have hp' : Sql.Program.pure out = program config call := hp
    rw [← hp'] at hnext
    obtain rfl := Sql.Program.pure.inj (congrArg Prod.fst hnext)
    exact ⟨rfl, hlookups⟩
  · have hout : out = (restriction config call (run config initial before).cache).1 :=
      Sql.Program.pure.inj hp
    rw [hout]
    exact ⟨rfl, hlookups⟩

/-- The score of a client is cached, and an older one of another client. -/
def cachedEvents : List Event :=
  [.receive (exampleCall (.addresses ["127.0.4.10".toList])), .request 0, .request 0,
    .receive (⟨500, fun _ => .nxdomain, fun _ => false⟩,
      { (exampleCall .timeout).2 with clientAddress := "5.6.7.8" }), .request 1, .request 1]

/-- The client comes back while a cleanup deletes the older score and a third client is whitelisted;
the name servers time out. -/
def laterEvents : List Event :=
  [.cron 173800, .cleanup 0, .admin ["-w".toList, "9.9.9.9".toList] {}, .receive (exampleCall .timeout),
    .whitelisting 0, .cleanup 0, .request 2, .whitelisting 0]

theorem harmless_laterEvents : ∀ e ∈ laterEvents, Harmless {} "1.2.3.4".toList 1000 e := by
  have hargs : parseArgs ["-w".toList, "9.9.9.9".toList] = .ok ["9.9.9.9".toList] := by decide
  have hadmin : Harmless {} "1.2.3.4".toList 1000 (.admin ["-w".toList, "9.9.9.9".toList] {}) := by
    intro ips hips
    rw [hargs] at hips
    rw [← Except.ok.inj hips]
    decide
  have hcron : Harmless {} "1.2.3.4".toList 1000 (.cron 173800) := by
    unfold Harmless
    decide
  simp only [laterEvents, List.forall_mem_cons]
  exact ⟨hcron, trivial, hadmin, trivial, trivial, trivial, trivial, trivial,
    fun _ h => absurd h List.not_mem_nil⟩

/-- The score of the client is known, so that it is rejected. -/
theorem answered_from_cache_timeout :
    let s := run {} initial cachedEvents
    let out : Output := ⟨.ok (rejectLowSenderScore ++ "1.2.3.4".toList), []⟩
    s.cache.rows.map (fun row => row.2.clientAddress) = ["1.2.3.4".toList, "5.6.7.8".toList] ∧
      (run {} s laterEvents).cache.rows.map (fun row => row.2.clientAddress) =
        ["1.2.3.4".toList, "9.9.9.9".toList] ∧
      out = (restriction {} (exampleCall .timeout) s.cache).1 ∧ out.lookups = [] := by
  refine ⟨by decide +kernel, by decide +kernel, ?_⟩
  have hrow : (run {} initial cachedEvents).cache.find? "1.2.3.4" =
      some (1, ⟨"1.2.3.4", 10, 1000⟩) := by decide +kernel
  have hquiet : Undisturbed "1.2.3.4".toList 1000 (run {} initial cachedEvents) :=
    ⟨fun _ hw => absurd hw List.not_mem_nil, fun _ hcl => absurd hcl List.not_mem_nil⟩
  have hget : ((run {} (run {} initial cachedEvents) laterEvents).requests.drop
      (run {} initial cachedEvents).requests.length)[0]? = some (exampleCall .timeout,
        .pure ⟨.ok (rejectLowSenderScore ++ "1.2.3.4".toList), []⟩) := by rfl
  exact @answered_from_cache {} cachedEvents (1, ⟨"1.2.3.4", 10, 1000⟩) hrow hquiet laterEvents
    harmless_laterEvents (exampleCall .timeout) _ (List.mem_of_getElem? hget) rfl

/-! ### Whitelisting -/

theorem run_concat (s : State) (events : List Event) (e : Event) :
    run config s (events ++ [e]) = step config (run config s events) e := List.foldl_concat ..

/-- The next statement of a whitelisting. -/
theorem step_whitelisting {s : State} {i : ℕ} {ips : List Str} {p : Senderscore.Program Bool}
    (h : s.whitelistings[i]? = some (ips, p)) :
    step config s (.whitelisting i) =
      { s with
        cache := (p.next Senderscore.Write.exec s.cache).2
        whitelistings := s.whitelistings.set i (ips, (p.next Senderscore.Write.exec s.cache).1) } := by
  unfold step
  simp only [h]

/-- A whitelisting that gets to its end has cached the score of its addresses. -/
theorem find?_of_finished {ips : List Str} {p : Senderscore.Program Bool} (hstage : WhitelistStage ips p)
    (hp : p ≠ .pure true) {t : CacheTable}
    (hfinished : (p.next Senderscore.Write.exec t).1 = .pure true)
    {c : Str} (hc : c ∈ ips) :
    ∃ id, (p.next Senderscore.Write.exec t).2.find? c = some (id, whitelisted c) := by
  cases hstage with
  | start fails =>
    unfold whitelist at hp hfinished
    by_cases hdelete : fails.delete = true
    · rw [if_pos hdelete] at hfinished
      cases hfinished
    · rw [if_neg hdelete] at hfinished
      have hnext : (if fails.insert = true then .pure false else
          .write (.insertAll (ips.map whitelisted)) .pure : Senderscore.Program Bool) = .pure true :=
      hfinished
      split_ifs at hnext
      · cases hnext
  | insert =>
    unfold Sql.Program.next at hfinished ⊢
    simp only [Senderscore.Write.exec] at hfinished ⊢
    split
    next t' hinsert =>
      rcases Sql.Table.find?_insertAll hinsert c with ⟨id, r, hr, hkey, -, hnew⟩ | ⟨hno, -⟩
      · obtain ⟨ip, -, rfl⟩ := List.mem_map.mp hr
        obtain rfl : ip = c := hkey
        exact ⟨id, hnew⟩
      · exact absurd rfl (hno _ (List.mem_map_of_mem hc))
    next hnone =>
      simp only [hnone] at hfinished
      cases hfinished
  | done finished => exact absurd hfinished hp

/-- **A whitelisted client is let through.** Once a whitelisting has finished, and while no process
deletes its addresses again, a request of one of them that ends has the default action, and no name has
been looked up. -/
theorem whitelisted_accepted (hreject : config.senderscoreRejectScore < 100) (before : List Event)
    {i : ℕ} {ips : List Str} {p : Senderscore.Program Bool}
    (hbegun : (run config initial before).whitelistings[i]? = some (ips, p)) (hp : p ≠ .pure true)
    (hfinished : (run config initial (before ++ [.whitelisting i])).whitelistings[i]? =
      some (ips, .pure true))
    {c : Str} (hc : c ∈ ips)
    (hquiet : Undisturbed c expireEpochSeconds (run config initial (before ++ [.whitelisting i])))
    {events : List Event} (hevents : ∀ e ∈ events, Harmless config c expireEpochSeconds e)
    {call : Call} {out : Output}
    (hdone : (call, .pure out) ∈
      (run config (run config initial (before ++ [.whitelisting i])) events).requests.drop
        (run config initial (before ++ [.whitelisting i])).requests.length)
    (hclient : call.2.clientAddress = c) :
    out.lookups = [] ∧ ∀ action, out.action = .ok action → action = SmtpActions.defaultAction := by
  have hstage := (traced_run hreject traced_initial before).whitelistings _
    (List.mem_of_getElem? hbegun)
  have hstep : run config initial (before ++ [.whitelisting i]) =
      { run config initial before with
        cache := (p.next Senderscore.Write.exec (run config initial before).cache).2
        whitelistings := (run config initial before).whitelistings.set i
          (ips, (p.next Senderscore.Write.exec (run config initial before).cache).1) } := by
    rw [run_concat, step_whitelisting hbegun]
  have hnext : (p.next Senderscore.Write.exec (run config initial before).cache).1 = .pure true := by
    rw [hstep] at hfinished
    simp only [List.getElem?_set_self (List.getElem?_eq_some_iff.mp hbegun).1] at hfinished
    exact congrArg Prod.snd (Option.some.inj hfinished)
  obtain ⟨id, hrow⟩ := find?_of_finished hstage hp hnext hc
  have hcache : (run config initial (before ++ [.whitelisting i])).cache.find? c =
      some (id, whitelisted c) := by
    rw [hstep]
    exact hrow
  have hrow' : (run config initial (before ++ [.whitelisting i])).cache.find?
      (id, whitelisted c).2.clientAddress = some (id, whitelisted c) := hcache
  obtain ⟨hout, hlookups⟩ := answered_from_cache _ hrow' hquiet hevents hdone hclient
  refine ⟨hlookups, fun action haction => ?_⟩
  rw [hout] at haction
  subst hclient
  -- the answer by a score of 100
  unfold restriction at haction
  rcases program_cases config call with ⟨out', hpure, -, hdefault⟩ | ⟨-, hquery⟩
  · rw [hpure] at haction
    exact hdefault action haction
  · rw [hquery] at haction
    have haction' : ((afterSelect config call.1 call.2.clientAddress
        (run config initial (before ++ [.whitelisting i])).cache).run Senderscore.Write.exec
          (run config initial (before ++ [.whitelisting i])).cache).1.action = .ok action := haction
    unfold afterSelect at haction'
    rw [hcache] at haction'
    split_ifs at haction'
    · cases haction'
    · unfold afterScore whitelisted reply at haction'
      simp only [Bool.false_and, Bool.false_eq_true, if_false] at haction'
      rw [if_pos (by decide), if_neg (by omega)] at haction'
      exact (Except.ok.inj haction').symm

/-- A client with a score of 10 is whitelisted. -/
theorem whitelisted_accepted_low :
    let call := exampleCall (.addresses ["127.0.4.10".toList])
    let before := [Event.admin ["-w".toList, "1.2.3.4".toList] {}, .whitelisting 0]
    let out : Output := ⟨.ok SmtpActions.defaultAction, []⟩
    (call, .pure out) ∈ (run {} (run {} initial (before ++ [.whitelisting 0]))
        [.receive call, .request 0]).requests ∧
      out.lookups = [] ∧ ∀ action, out.action = .ok action → action = SmtpActions.defaultAction := by
  intro call before out
  have hquiet : Undisturbed "1.2.3.4".toList expireEpochSeconds
      (run {} initial (before ++ [.whitelisting 0])) := by
    refine ⟨fun w hw _ => ?_, fun _ hcl => absurd hcl List.not_mem_nil⟩
    rw [List.mem_singleton.mp hw]
    exact ⟨true, rfl⟩
  have hevents : ∀ e ∈ [Event.receive call, .request 0],
      Harmless {} "1.2.3.4".toList expireEpochSeconds e := by
    intro e he
    rcases List.mem_pair.mp he with rfl | rfl
    · trivial
    · trivial
  have hdone : (call, .pure out) ∈ (run {} (run {} initial (before ++ [.whitelisting 0]))
      [.receive call, .request 0]).requests.drop
        (run {} initial (before ++ [.whitelisting 0])).requests.length :=
    List.mem_of_getElem? (i := 0) rfl
  refine ⟨hdone, ?_⟩
  exact whitelisted_accepted (i := 0) (p := .write (.insertAll [whitelisted "1.2.3.4"]) .pure) (by decide)
    before rfl (fun h => by cases h) rfl (List.mem_singleton_self _) hquiet hevents hdone rfl

end IRedAPD.SenderscoreAdmin

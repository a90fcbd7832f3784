/-
  The score cache, with the daemon, the whitelisting and the cleanup at work on
  it statement by statement in any order.

  Every cached score has been answered to a request of its client or has been
  whitelisted, and so have those the processes are about to write (`Traced`).  A
  request is rejected for a low score only that a name server has answered for
  its client (`rejects_answered`).
-/
import IRedAPD.Tools.SenderscoreAdmin

namespace IRedAPD.SenderscoreAdmin

open Py Senderscore

variable {config : Config}

/-- A request that has reached the plugin, with what is left of its program. -/
abbrev Request := Call × Senderscore.Program Output

/-- No process has worked on the table. -/
def initial : State := { cache := Sql.Table.empty }

/-! ### Where scores come from -/

/-- The names that a program has looked up so far. -/
def lookedUp : Senderscore.Program Output → List Str
  | .pure out => out.lookups
  | .query _ => []
  -- the result of an insert makes no difference
  | .write _ next => lookedUp (next true)

/-- The request has looked the name of its client up, with this answer. -/
def Answers (q : Request) (answer : Answer) : Prop :=
  ∃ o1 o2 o3 o4, q.1.2.clientAddress.splitOn '.' = [o1, o2, o3, o4] ∧
    lookupDomain o1 o2 o3 o4 ∈ lookedUp q.2 ∧ q.1.1.query (lookupDomain o1 o2 o3 o4) = answer

/-- A row with the score a request has been answered. -/
structure CachedBy (config : Config) (q : Request) (row : Cached) : Prop where
  clientAddress_eq : row.clientAddress = q.1.2.clientAddress
  time_eq : row.time = q.1.1.now
  checked : bypass config q.1.2 = .ok false
  answer : ∃ answer, Answers q answer ∧ answer.score = some (row.score, true)
  range : 0 ≤ row.score ∧ row.score ≤ 100

/-- A row with a source. -/
def Sourced (config : Config) (requests : List Request) (row : Cached) : Prop :=
  (∃ q ∈ requests, CachedBy config q row) ∨ row = whitelisted row.clientAddress

/-- Among some requests there is one of the client that has been checked and has looked the name of
the client up: the answer was an address with a last octet not above the reject score. -/
def LowAnswered (config : Config) (requests : List Request) (clientAddress : Str) : Prop :=
  ∃ q ∈ requests, q.1.2.clientAddress = clientAddress ∧ bypass config q.1.2 = .ok false ∧
    ∃ ip ips n, Answers q (.addresses (ip :: ips)) ∧
      parseInt ((ip.splitOn '.').getLastD []) = .ok n ∧ 0 ≤ n ∧ n ≤ config.senderscoreRejectScore

/-- A rejection that some requests justify. -/
structure Rejected (config : Config) (requests : List Request) (call : Call) (action : Str) :
    Prop where
  action_eq : action = rejectLowSenderScore ++ call.2.clientAddress
  checked : bypass config call.2 = .ok false
  low : LowAnswered config requests call.2.clientAddress

/-- The action is the default, or a justified rejection. -/
def Justified (config : Config) (requests : List Request) (call : Call) (out : Output) : Prop :=
  ∀ action, out.action = .ok action →
    action = SmtpActions.defaultAction ∨ Rejected config requests call action

/-- Requests have gone on, and others have come. -/
def GoesOn (requests requests' : List Request) : Prop :=
  ∀ q ∈ requests, ∃ q' ∈ requests', q'.1 = q.1 ∧ lookedUp q.2 ⊆ lookedUp q'.2

theorem GoesOn.of_subset {requests requests' : List Request} (h : requests ⊆ requests') :
    GoesOn requests requests' := fun q hq => ⟨q, h hq, rfl, List.Subset.refl _⟩

theorem Answers.mono {q q' : Request} (hcall : q'.1 = q.1) (hnames : lookedUp q.2 ⊆ lookedUp q'.2)
    {answer : Answer} (h : Answers q answer) : Answers q' answer := by
  obtain ⟨o1, o2, o3, o4, hsplit, hname, hanswer⟩ := h
  unfold Answers
  rw [hcall]
  exact ⟨o1, o2, o3, o4, hsplit, hnames hname, hanswer⟩

theorem CachedBy.mono {q q' : Request} (hcall : q'.1 = q.1) (hnames : lookedUp q.2 ⊆ lookedUp q'.2)
    {row : Cached} (h : CachedBy config q row) : CachedBy config q' row := by
  obtain ⟨answer, hanswer, hscore⟩ := h.answer
  refine ⟨?_, ?_, ?_, ⟨answer, hanswer.mono hcall hnames, hscore⟩, h.range⟩
  · rw [hcall]
    exact h.clientAddress_eq
  · rw [hcall]
    exact h.time_eq
  · rw [hcall]
    exact h.checked

theorem Sourced.mono {requests requests' : List Request} (h : GoesOn requests requests')
    {row : Cached} (hrow : Sourced config requests row) : Sourced config requests' row := by
  rcases hrow with ⟨q, hq, hby⟩ | hwhite
  · obtain ⟨q', hq', hcall, hnames⟩ := h q hq
    exact .inl ⟨q', hq', hby.mono hcall hnames⟩
  · exact .inr hwhite

theorem LowAnswered.mono {requests requests' : List Request} (h : GoesOn requests requests')
    {clientAddress : Str} (hlow : LowAnswered config requests clientAddress) :
    LowAnswered config requests' clientAddress := by
  obtain ⟨q, hq, hclient, hchecked, ip, ips, n, hanswer, hscore⟩ := hlow
  obtain ⟨q', hq', hcall, hnames⟩ := h q hq
  refine ⟨q', hq', ?_, ?_, ip, ips, n, hanswer.mono hcall hnames, hscore⟩
  · rw [hcall]
    exact hclient
  · rw [hcall]
    exact hchecked

theorem Justified.mono {requests requests' : List Request} (h : GoesOn requests requests')
    {call : Call} {out : Output} (hout : Justified config requests call out) :
    Justified config requests' call out := by
  intro action haction
  refine (hout action haction).imp_right fun hrejected => ?_
  exact ⟨hrejected.action_eq, hrejected.checked, hrejected.low.mono h⟩

/-- A score other than 100 is the last octet of an address. -/
theorem exists_of_score {answer : Answer} {n : ℤ} {cacheIt : Bool}
    (h : answer.score = some (n, cacheIt)) (hn : n ≠ 100) : ∃ ip ips,
      answer = .addresses (ip :: ips) ∧ parseInt ((ip.splitOn '.').getLastD []) = .ok n := by
  unfold Answer.score at h
  split at h
  · cases h
  next ip ips =>
    split at h
    next m hparse =>
      obtain ⟨rfl, -⟩ := Prod.mk.inj (Option.some.inj h)
      exact ⟨ip, ips, rfl, hparse⟩
    · exact absurd (Prod.mk.inj (Option.some.inj h)).1.symm hn
  · exact absurd (Prod.mk.inj (Option.some.inj h)).1.symm hn
  · exact absurd (Prod.mk.inj (Option.some.inj h)).1.symm hn
  · exact absurd (Prod.mk.inj (Option.some.inj h)).1.symm hn
  · exact absurd (Prod.mk.inj (Option.some.inj h)).1.symm hn

/-- A low score that a request has been answered. -/
theorem lowAnswered_of_score (hreject : config.senderscoreRejectScore < 100) {requests : List Request}
    {q : Request} (hq : q ∈ requests) (hchecked : bypass config q.1.2 = .ok false) {answer : Answer}
    (hanswer : Answers q answer) {n : ℤ} {cacheIt : Bool} (hscore : answer.score = some (n, cacheIt))
    (hpos : 0 ≤ n) (hlow : n ≤ config.senderscoreRejectScore) :
    LowAnswered config requests q.1.2.clientAddress := by
  obtain ⟨ip, ips, rfl, hparse⟩ := exists_of_score hscore (by omega)
  exact ⟨q, hq, rfl, hchecked, ip, ips, n, hanswer, hparse, hpos, hlow⟩

/-- A low score with a source. -/
theorem Sourced.lowAnswered (hreject : config.senderscoreRejectScore < 100) {requests : List Request}
    {row : Cached} (h : Sourced config requests row)
    (hlow : row.score ≤ config.senderscoreRejectScore) :
    LowAnswered config requests row.clientAddress := by
  rcases h with ⟨q, hq, hby⟩ | hwhite
  · obtain ⟨answer, hanswer, hscore⟩ := hby.answer
    rw [hby.clientAddress_eq]
    exact lowAnswered_of_score hreject hq hby.checked hanswer hscore hby.range.1 hlow
  · -- 100 is not low
    have hscore : row.score = 100 := congrArg Cached.score hwhite
    omega

/-! ### What a process has still to do -/

/-- Where a request is. -/
inductive Stage (config : Config) (requests : List Request) (call : Call) :
    Senderscore.Program Output → Prop
  | start : Stage config requests call (program config call)
  | insert {row : Cached} {out : Output} (hrow : CachedBy config (call, .pure out) row)
      (hout : Justified config requests call out) :
      Stage config requests call (.write (.insert row) fun _ => .pure out)
  | done {out : Output} (hout : Justified config requests call out) :
      Stage config requests call (.pure out)

/-- Where a whitelisting is. -/
inductive WhitelistStage (ips : List Str) : Senderscore.Program Bool → Prop
  | start (fails : Fails) : WhitelistStage ips (whitelist fails ips)
  | insert : WhitelistStage ips (.write (.insertAll (ips.map whitelisted)) .pure)
  | done (finished : Bool) : WhitelistStage ips (.pure finished)

theorem Stage.mono {requests requests' : List Request} (h : GoesOn requests requests') {call : Call}
    {p : Senderscore.Program Output} (hp : Stage config requests call p) :
    Stage config requests' call p := by
  cases hp with
  | start => exact .start
  | insert hrow hout => exact .insert hrow (hout.mono h)
  | done hout => exact .done (hout.mono h)

theorem lookedUp_afterScore (config : Config) (env : Env) (clientAddress : Str) (lookups : List Str)
    (score : ℤ) (cacheIt : Bool) :
    lookedUp (afterScore config env clientAddress lookups score cacheIt) = lookups := by
  unfold afterScore
  simp only
  split_ifs <;> rfl

/-- A request that has a score. -/
theorem stage_afterScore {requests : List Request} {call : Call}
    (hchecked : bypass config call.2 = .ok false) {lookups : List Str} {score : ℤ} {cacheIt : Bool}
    (hlow : 0 ≤ score → score ≤ config.senderscoreRejectScore →
      LowAnswered config requests call.2.clientAddress)
    (hcached : cacheIt = true → 0 ≤ score ∧ score ≤ 100 → ∀ action, CachedBy config
      (call, .pure ⟨action, lookups⟩) ⟨call.2.clientAddress, score, call.1.now⟩) :
    Stage config requests call
      (afterScore config call.1 call.2.clientAddress lookups score cacheIt) := by
  unfold afterScore
  simp only
  by_cases hrange : 0 ≤ score ∧ score ≤ 100
  · have hout : Justified config requests call
        ⟨.ok (reply config call.2.clientAddress score), lookups⟩ := by
      intro action haction
      rw [← Except.ok.inj haction]
      unfold reply
      split_ifs with hreject
      · exact .inr ⟨rfl, hchecked, hlow hrange.1 hreject⟩
      · exact .inl rfl
    rw [if_pos hrange]
    split_ifs with hinsert
    · exact .insert (hcached (Bool.and_eq_true_iff.mp hinsert).1 hrange _) hout
    · exact .done hout
  · rw [if_neg hrange]
    exact .done fun action haction => .inl (Except.ok.inj haction).symm

/-- **The `SELECT` of a request**, when the scores in the table have sources. -/
theorem stage_afterSelect (hreject : config.senderscoreRejectScore < 100) {requests : List Request}
    {call : Call} {t : CacheTable}
    (hself : (call, afterSelect config call.1 call.2.clientAddress t) ∈ requests)
    (hchecked : bypass config call.2 = .ok false)
    (ht : ∀ c row, t.find? c = some row → Sourced config requests row.2) :
    Stage config requests call (afterSelect config call.1 call.2.clientAddress t) := by
  unfold afterSelect at hself ⊢
  split_ifs at hself ⊢ with hfails
  · exact .done fun action haction => by cases haction
  split at hself
  next id row hrow =>
    have hclient : row.clientAddress = call.2.clientAddress := (Sql.Table.find?_eq_some_iff.mp hrow).2
    refine stage_afterScore hchecked (fun _ hlow => ?_) (fun hcache => by cases hcache)
    rw [← hclient]
    exact (ht _ _ hrow).lowAnswered hreject hlow
  next hnone =>
    unfold afterMiss at hself ⊢
    split at hself
    next o1 o2 o3 o4 hsplit =>
      simp only at hself ⊢
      cases hscore : (call.1.query (lookupDomain o1 o2 o3 o4)).score with
      | none => exact .done fun action haction => .inl (Except.ok.inj haction).symm
      | some found =>
        obtain ⟨score, cacheIt⟩ := found
        simp only [hscore] at hself ⊢
        have hanswers : ∀ p, lookedUp p = [lookupDomain o1 o2 o3 o4] →
            Answers (call, p) (call.1.query (lookupDomain o1 o2 o3 o4)) := by
          intro p hp
          refine ⟨o1, o2, o3, o4, hsplit, ?_, rfl⟩
          rw [hp]
          exact List.mem_singleton_self _
        refine stage_afterScore hchecked (fun hpos hlow => ?_) fun hcache hrange action => ?_
        · exact lowAnswered_of_score hreject hself hchecked
            (hanswers _ (lookedUp_afterScore ..)) hscore hpos hlow
        · refine ⟨rfl, rfl, hchecked, ⟨_, hanswers _ rfl, ?_⟩, hrange⟩
          rw [hscore, hcache]
    · exact .done fun action haction => by cases haction

/-- What the statements of a request are before the first one. -/
theorem program_cases (config : Config) (call : Call) :
    (∃ out : Output, program config call = .pure out ∧ out.lookups = [] ∧
      ∀ action, out.action = .ok action → action = SmtpActions.defaultAction) ∨
    bypass config call.2 = .ok false ∧
      program config call = .query fun t => afterSelect config call.1 call.2.clientAddress t := by
  unfold program
  simp only
  split
  · exact .inl ⟨_, rfl, rfl, fun action haction => by cases haction⟩
  · exact .inl ⟨_, rfl, rfl, fun action haction => (Except.ok.inj haction).symm⟩
  next hbypass => exact .inr ⟨hbypass, rfl⟩

/-- A request that has ended. -/
theorem Stage.justified {requests : List Request} {call : Call} {p : Senderscore.Program Output}
    {out : Output} (h : Stage config requests call p) (hp : p = .pure out) :
    Justified config requests call out := by
  cases h with
  | start =>
    rcases program_cases config call with ⟨out', hpure, -, hdefault⟩ | ⟨-, hquery⟩
    · rw [hpure] at hp
      obtain rfl := Sql.Program.pure.inj hp
      exact fun action haction => .inl (hdefault action haction)
    · rw [hquery] at hp
      cases hp
  | insert hrow hout => cases hp
  | done hout =>
    obtain rfl := Sql.Program.pure.inj hp
    exact hout

/-! ### The invariant -/

/-- Scores have sources, and so have those the processes are about to write. -/
structure Traced (config : Config) (s : State) : Prop where
  cache : ∀ c row, s.cache.find? c = some row → Sourced config s.requests row.2
  requests : ∀ q ∈ s.requests, Stage config s.requests q.1 q.2
  whitelistings : ∀ w ∈ s.whitelistings, WhitelistStage w.1 w.2

/-- A write of rows with sources. -/
theorem sourced_insert {requests : List Request} {t t' : CacheTable}
    (ht : ∀ c row, t.find? c = some row → Sourced config requests row.2) {r : Cached} (hr : Sourced config requests r)
    (hinsert : t.insert r = some t') : ∀ c row, t'.find? c = some row → Sourced config requests row.2 := by
  intro c row hrow
  rw [Sql.Table.find?_insert hinsert] at hrow
  split_ifs at hrow
  · rw [← Option.some.inj hrow]
    exact hr
  · exact ht c row hrow

theorem sourced_delete {requests : List Request} {t : CacheTable}
    (ht : ∀ c row, t.find? c = some row → Sourced config requests row.2) (p : ℕ × Cached → Bool) :
    ∀ c row, (t.delete p).find? c = some row → Sourced config requests row.2 := by
  intro c row hrow
  obtain ⟨hmem, hkey⟩ := Sql.Table.find?_eq_some_iff.mp hrow
  exact ht c row (Sql.Table.find?_eq_some_iff.mpr ⟨(Sql.Table.mem_rows_delete.mp hmem).1, hkey⟩)

theorem sourced_whitelist {requests : List Request} {t t' : CacheTable}
    (ht : ∀ c row, t.find? c = some row → Sourced config requests row.2) {ips : List Str}
    (hinsert : t.insertAll (ips.map whitelisted) = some t') :
    ∀ c row, t'.find? c = some row → Sourced config requests row.2 := by
  intro c row hrow
  rcases Sql.Table.find?_insertAll hinsert c with ⟨id, r, hr, -, -, hnew⟩ | ⟨-, hold⟩
  · obtain ⟨ip, -, rfl⟩ := List.mem_map.mp hr
    rw [hnew] at hrow
    rw [← Option.some.inj hrow]
    exact .inr rfl
  · rw [hold] at hrow
    exact ht c row hrow

/-- What a request has looked up stays so. -/
theorem Stage.lookedUp_subset {requests : List Request} {call : Call}
    {p : Senderscore.Program Output} (hp : Stage config requests call p) (t : CacheTable) :
    lookedUp p ⊆ lookedUp (p.next Senderscore.Write.exec t).1 := by
  cases hp with
  | start =>
    rcases program_cases config call with ⟨out, hpure, -, -⟩ | ⟨-, hquery⟩
    · rw [hpure]
      exact List.Subset.refl _
    · rw [hquery]
      exact List.nil_subset _
  | insert hrow hout =>
    unfold Sql.Program.next
    simp only [Senderscore.Write.exec]
    split <;> exact List.Subset.refl _
  | done hout => exact List.Subset.refl _

/-- The next statement of a request, which is one of those that go on. -/
theorem stage_next (hreject : config.senderscoreRejectScore < 100) {requests requests' : List Request}
    (hgoesOn : GoesOn requests requests') {call : Call} {t : CacheTable}
    (ht : ∀ c row, t.find? c = some row → Sourced config requests row.2)
    {p : Senderscore.Program Output} (hp : Stage config requests call p)
    (hself : (call, (p.next Senderscore.Write.exec t).1) ∈ requests') :
    Stage config requests' call (p.next Senderscore.Write.exec t).1 ∧
      ∀ c row, (p.next Senderscore.Write.exec t).2.find? c = some row →
        Sourced config requests' row.2 := by
  have ht' : ∀ c row, t.find? c = some row → Sourced config requests' row.2 :=
    fun c row hrow => (ht c row hrow).mono hgoesOn
  cases hp with
  | start =>
    rcases program_cases config call with ⟨out, hpure, -, hdefault⟩ | ⟨hchecked, hquery⟩
    · rw [hpure]
      exact ⟨.done fun action haction => .inl (hdefault action haction), ht'⟩
    · rw [hquery] at hself ⊢
      exact ⟨stage_afterSelect hreject hself hchecked ht', ht'⟩
  | @insert row out hrow hout =>
    have hout' := hout.mono hgoesOn
    unfold Sql.Program.next at hself ⊢
    simp only [Senderscore.Write.exec] at hself ⊢
    split at hself
    next t' hinsert =>
      exact ⟨.done hout', sourced_insert ht' (.inl ⟨_, hself, hrow⟩) hinsert⟩
    · exact ⟨.done hout', ht'⟩
  | done hout => exact ⟨.done (hout.mono hgoesOn), ht'⟩

/-- The next statement of a whitelisting. -/
theorem whitelistStage_next {requests : List Request} {t : CacheTable}
    (ht : ∀ c row, t.find? c = some row → Sourced config requests row.2) {ips : List Str}
    {p : Senderscore.Program Bool}
    (hp : WhitelistStage ips p) :
    WhitelistStage ips (p.next Senderscore.Write.exec t).1 ∧
      ∀ c row, (p.next Senderscore.Write.exec t).2.find? c = some row → Sourced config requests row.2 := by
  cases hp with
  | start fails =>
    unfold whitelist
    by_cases hdelete : fails.delete = true
    · rw [if_pos hdelete]
      exact ⟨.done false, ht⟩
    · rw [if_neg hdelete]
      refine ⟨?_, sourced_delete ht _⟩
      show WhitelistStage ips (if fails.insert = true then .pure false else _)
      split_ifs
      · exact .done false
      · exact .insert
  | insert =>
    unfold Sql.Program.next
    simp only [Senderscore.Write.exec]
    split
    next t' hinsert => exact ⟨.done true, sourced_whitelist ht hinsert⟩
    · exact ⟨.done false, ht⟩
  | done finished => exact ⟨.done finished, ht⟩

/-- The next statement of a cleanup. -/
theorem sourced_cleanup {requests : List Request} {t : CacheTable}
    (ht : ∀ c row, t.find? c = some row → Sourced config requests row.2) (cl : Cleanup) :
    ∀ c row, (cl.run config t).2.find? c = some row → Sourced config requests row.2 := by
  unfold Cleanup.run
  split
  · simp only
    split_ifs
    · exact ht
    · exact ht
  · exact sourced_delete ht _
  · exact ht

/-- A list of processes after a step of one of them. -/
theorem forall_mem_set {α : Type*} {P : α → Prop} {as : List α} (h : ∀ a ∈ as, P a) (i : ℕ) {a : α}
    (ha : P a) : ∀ b ∈ as.set i a, P b := by
  intro b hb
  rcases List.mem_or_eq_of_mem_set hb with hb | rfl
  · exact h b hb
  · exact ha

/-- The requests after a step of one of them. -/
theorem goesOn_set {requests : List Request} {i : ℕ} {call : Call} {p q : Senderscore.Program Output}
    (h : requests[i]? = some (call, p)) (hnames : lookedUp p ⊆ lookedUp q) :
    GoesOn requests (requests.set i (call, q)) := by
  intro r hr
  obtain ⟨j, hj⟩ := List.mem_iff_getElem?.mp hr
  by_cases hij : i = j
  · subst hij
    obtain rfl : r = (call, p) := Option.some.inj (hj.symm.trans h)
    exact ⟨(call, q), List.mem_set (List.getElem?_eq_some_iff.mp h).1 _, rfl, hnames⟩
  · refine ⟨r, List.mem_of_getElem? (i := j) ?_, rfl, List.Subset.refl _⟩
    rw [List.getElem?_set_ne hij, hj]

/-- **Every statement keeps the scores traced.** -/
theorem traced_step (hreject : config.senderscoreRejectScore < 100) {s : State}
    (h : Traced config s) (e : Event) : Traced config (step config s e) := by
  cases e with
  | receive call =>
    have hgoesOn : GoesOn s.requests (step config s (.receive call)).requests :=
      .of_subset (List.subset_append_left _ _)
    refine ⟨fun c row hrow => (h.cache c row hrow).mono hgoesOn, fun q hq => ?_, h.whitelistings⟩
    rcases List.mem_append.mp hq with hq | hq
    · exact (h.requests q hq).mono hgoesOn
    · rw [List.mem_singleton.mp hq]
      exact .start
  | admin args fails =>
    unfold step
    simp only
    split
    next ips _ =>
      refine ⟨h.cache, h.requests, fun w hw => ?_⟩
      rcases List.mem_append.mp hw with hw | hw
      · exact h.whitelistings w hw
      · rw [List.mem_singleton.mp hw]
        exact .start fails
    · exact h
  | cron now => exact ⟨h.cache, h.requests, h.whitelistings⟩
  | request i =>
    unfold step
    simp only
    split
    · exact h
    next call p hget =>
      have hp := h.requests _ (List.mem_of_getElem? hget)
      have hgoesOn := goesOn_set hget (hp.lookedUp_subset s.cache)
      obtain ⟨hstage, hcache⟩ := stage_next hreject hgoesOn h.cache hp
        (List.mem_set (List.getElem?_eq_some_iff.mp hget).1 _)
      refine ⟨hcache, ?_, h.whitelistings⟩
      exact forall_mem_set (fun q hq => (h.requests q hq).mono hgoesOn) i hstage
  | whitelisting i =>
    unfold step
    simp only
    split
    · exact h
    next ips p hget =>
      obtain ⟨hstage, hcache⟩ := whitelistStage_next h.cache
        (h.whitelistings _ (List.mem_of_getElem? hget))
      exact ⟨hcache, h.requests, forall_mem_set h.whitelistings i hstage⟩
  | cleanup i =>
    unfold step
    simp only
    split
    · exact h
    next cl hget => exact ⟨sourced_cleanup h.cache cl, h.requests, h.whitelistings⟩

/-- Every run keeps them traced. -/
theorem traced_run (hreject : config.senderscoreRejectScore < 100) {s : State}
    (h : Traced config s) (events : List Event) : Traced config (run config s events) := by
  induction events generalizing s with
  | nil => exact h
  | cons e events ih => exact ih (traced_step hreject h e)

theorem traced_initial : Traced config initial where
  cache c row hrow := by
    rw [Sql.Table.find?_of_rows_eq_nil rfl] at hrow
    cases hrow
  requests q hq := by cases hq
  whitelistings w hw := by cases hw

/-- **No rejection without a low answer.** However the statements of requests, whitelistings and
cleanups follow each other, a request that has ended with an action other than the default has been
checked, and a name server has answered a score not above the reject score for its client: to it, or to
a request that has been checked, too, and has looked the name up. -/
theorem rejects_answered (hreject : config.senderscoreRejectScore < 100) (events : List Event)
    {call : Call} {out : Output}
    (hdone : (call, .pure out) ∈ (run config initial events).requests) {action : Str}
    (haction : out.action = .ok action) (hne : action ≠ SmtpActions.defaultAction) :
    Rejected config (run config initial events).requests call action := by
  have hjustified : Justified config (run config initial events).requests call out :=
    ((traced_run hreject traced_initial events).requests _ hdone).justified rfl
  exact (hjustified action haction).resolve_left hne

/-- A call of an outside client, whose score is asked of a name server that answers `answer`. -/
def exampleCall (answer : Answer) : Call :=
  (⟨1000, fun _ => answer, fun _ => false⟩,
    { smtpSessionData := [], sender := "a@b.com", senderWithoutExt := "a@b.com",
      recipient := "c@d.com", recipientWithoutExt := "c@d.com", clientAddress := "1.2.3.4",
      senderDomain := "b.com", recipientDomain := "d.com", saslUsername := [],
      saslUsernameDomain := [] })

/-- A client whose score is 10. -/
theorem rejects_answered_low :
    let call := exampleCall (.addresses ["127.0.4.10".toList])
    let events := [Event.receive call, .request 0, .request 0]
    Rejected {} (run {} initial events).requests call (rejectLowSenderScore ++ "1.2.3.4".toList) := by
  intro call events
  have hdone : (call, .pure ⟨.ok (rejectLowSenderScore ++ "1.2.3.4".toList),
      ["4.3.2.1.score.senderscore.com".toList]⟩) ∈ (run {} initial events).requests :=
    List.mem_of_getElem? (i := 0) rfl
  exact rejects_answered (by decide) events hdone rfl (by decide)

end IRedAPD.SenderscoreAdmin

/-
  What an SPF evaluation collects.

  Below the limit, an evaluation is a depth-first walk through the records that
  include one another, and it finds what the walk lists (`Traces`).  A walk
  leaves every reachable record, so nothing is lost by passing over a record
  that was visited elsewhere.

  `query_a` and `query_mx` compare the names with the marks without a prefix: a
  name that reads like a mark set before is not queried, and an address is lost
  when all the names that list it do (`evaluation_collectsUnion_iff`).
-/
import IRedAPD.Equiv.Libs.Dnsspf.Budget
import IRedAPD.Equiv.Libs.Dnsspf.Marks

namespace IRedAPD.Dnsspf

open Py
open DepthFirst (Step Walk)

variable [Unicode] {sets : SetOrder Str} {maxQueries : ℕ} {zone : Zone} {root : Str}

/-! ### Queries for addresses -/

omit [Unicode] in
/-- The names whose mark, or which themselves, are not among the marks. -/
theorem mem_filter_unmarked {mark : Str → Str} {names : List Str} {st : State} {x : Str} :
    x ∈ (names.filter fun d => !st.queriedDomains.contains (mark d)) ↔
      x ∈ names ∧ mark x ∉ st.queriedDomains := by
  rw [List.mem_filter, Bool.not_eq_true', ← Bool.not_eq_true, List.contains_iff_mem]

omit [Unicode] in
theorem queryALoop_of_lt {domains ips : List Str} {st : State}
    (hlt : (queryALoop maxQueries zone domains ips st).2.numQueries < maxQueries) :
    (queryALoop maxQueries zone domains ips st).1 = ips ++ domains.flatMap (aAddresses zone) ∧
    ∀ m, m ∈ (queryALoop maxQueries zone domains ips st).2.queriedDomains ↔
      m ∈ st.queriedDomains ∨ ∃ x ∈ domains, (zone.a x).isSome ∧ m = aMark x := by
  induction domains generalizing ips st with
  | nil => exact ⟨by simp [queryALoop], by simp [queryALoop]⟩
  | cons domain domains ih =>
    unfold queryALoop at hlt ⊢
    split_ifs at hlt ⊢ with hmax
    · exact absurd hlt (not_lt.mpr hmax)
    · cases hq : zone.a domain with
      | none =>
        simp only [hq] at hlt
        obtain ⟨hips, hmarks⟩ := ih hlt
        refine ⟨?_, fun m => ?_⟩
        · rw [hips, List.flatMap_cons, aAddresses, hq]
          rfl
        · rw [hmarks, List.exists_mem_cons_iff, hq]
          simp [State.issue]
      | some rs =>
        simp only [hq] at hlt
        obtain ⟨hips, hmarks⟩ := ih hlt
        refine ⟨?_, fun m => ?_⟩
        · rw [hips, List.flatMap_cons, aAddresses, hq, List.append_assoc]
          rfl
        · rw [hmarks, List.exists_mem_cons_iff, hq]
          simp only [State.mark, State.returns, State.issue, List.mem_cons, Option.isSome_some,
            true_and]
          rw [or_assoc, or_left_comm]

omit [Unicode] in
/-- `query_a` below the limit: the names that do not read like a mark are queried. -/
theorem queryA_of_lt {domains : List Str} {st : State}
    (hlt : (queryA maxQueries zone domains st).2.numQueries < maxQueries) :
    (∀ ip, ip ∈ (queryA maxQueries zone domains st).1 ↔
      ∃ x ∈ domains, x ∉ st.queriedDomains ∧ ip ∈ aAddresses zone x) ∧
    ∀ m, m ∈ (queryA maxQueries zone domains st).2.queriedDomains ↔
      m ∈ st.queriedDomains ∨
        ∃ x ∈ domains, x ∉ st.queriedDomains ∧ (zone.a x).isSome ∧ m = aMark x := by
  obtain ⟨hips, hmarks⟩ := queryALoop_of_lt hlt
  refine ⟨fun ip => ?_, fun m => ?_⟩
  · show ip ∈ (queryALoop maxQueries zone _ [] st).1 ↔ _
    rw [hips, List.nil_append, List.mem_flatMap]
    simp only [mem_filter_unmarked, and_assoc]
  · show m ∈ (queryALoop maxQueries zone _ [] st).2.queriedDomains ↔ _
    rw [hmarks]
    simp only [mem_filter_unmarked, and_assoc]

/-- The query for the hosts in the loop of `query_mx`. -/
def queryHosts (sets : SetOrder Str) (maxQueries : ℕ) (zone : Zone) (hosts : List Str) (st : State) :
    List Str × State :=
  if hosts.isEmpty then ([], st) else queryA maxQueries zone (sets.order hosts) st

theorem queryMxLoop_cons {domain : Str} (domains hostnames ips : List Str) {st : State}
    (hst : st.numQueries < maxQueries) {rs : List (ℕ × Str)} (hrs : zone.mx domain = some rs) :
    queryMxLoop sets maxQueries zone (domain :: domains) hostnames ips st =
      let q := queryHosts sets maxQueries zone (hostnames ++ mxHostnames rs) (st.issue (.mx domain))
      queryMxLoop sets maxQueries zone domains (hostnames ++ mxHostnames rs) (ips ++ q.1)
        (q.2.mark (mxMark domain)) := by
  rw [queryMxLoop, if_neg (not_le.mpr hst), hrs]
  rfl

/-- No host reads like a mark. -/
theorem queryHosts_of_lt {hosts : List Str} {st : State} (hhosts : ∀ host ∈ hosts, isDomain host = true)
    (hdomain : ∀ m ∈ st.queriedDomains, isDomain m = false)
    (hlt : (queryHosts sets maxQueries zone hosts st).2.numQueries < maxQueries) :
    (∀ ip, ip ∈ (queryHosts sets maxQueries zone hosts st).1 ↔
      ∃ host ∈ hosts, ip ∈ aAddresses zone host) ∧
    ∀ m, m ∈ (queryHosts sets maxQueries zone hosts st).2.queriedDomains ↔
      m ∈ st.queriedDomains ∨ ∃ host ∈ hosts, (zone.a host).isSome ∧ m = aMark host := by
  have hnot : ∀ host ∈ hosts, host ∉ st.queriedDomains := by
    intro host hhost hmem
    have h := hdomain host hmem
    rw [hhosts host hhost] at h
    cases h
  unfold queryHosts at hlt ⊢
  split_ifs at hlt ⊢ with hempty
  · rw [List.isEmpty_iff] at hempty
    subst hempty
    exact ⟨by simp, by simp⟩
  · obtain ⟨hips, hmarks⟩ := queryA_of_lt hlt
    refine ⟨fun ip => ?_, fun m => ?_⟩
    · rw [hips]
      simp only [sets.mem_order]
      exact exists_congr fun x => and_congr_right fun hx => and_iff_right (hnot x hx)
    · rw [hmarks]
      simp only [sets.mem_order]
      refine or_congr_right (exists_congr fun x => and_congr_right fun hx => ?_)
      exact and_iff_right (hnot x hx)

/-- What a name of an `mx` term sets. -/
def MarksMx (zone : Zone) (x m : Str) : Prop :=
  (zone.mx x).isSome ∧ (m = mxMark x ∨ ∃ host ∈ mxHosts zone x, (zone.a host).isSome ∧ m = aMark host)

/-- The hosts of the loop of `query_mx` so far are domains, and have been queried. -/
structure HostsQueried (zone : Zone) (hostnames ips : List Str) (st : State) : Prop where
  isDomain : ∀ host ∈ hostnames, isDomain host = true
  found : ∀ host ∈ hostnames, aAddresses zone host ⊆ ips
  marked : ∀ host ∈ hostnames, (zone.a host).isSome → aMark host ∈ st.queriedDomains

/-- The loop of `query_mx` below the limit, when no mark is a domain and the hosts so far have been
queried. -/
theorem queryMxLoop_of_lt {domains hostnames ips : List Str} {st : State}
    (hhosts : HostsQueried zone hostnames ips st)
    (hdomain : ∀ m ∈ st.queriedDomains, isDomain m = false)
    (hlt : (queryMxLoop sets maxQueries zone domains hostnames ips st).2.numQueries < maxQueries) :
    (∀ ip, ip ∈ (queryMxLoop sets maxQueries zone domains hostnames ips st).1 ↔
      ip ∈ ips ∨ ∃ x ∈ domains, ip ∈ mxAddresses zone x) ∧
    ∀ m, m ∈ (queryMxLoop sets maxQueries zone domains hostnames ips st).2.queriedDomains ↔
      m ∈ st.queriedDomains ∨ ∃ x ∈ domains, MarksMx zone x m := by
  induction domains generalizing hostnames ips st with
  | nil => exact ⟨by simp [queryMxLoop], by simp [queryMxLoop]⟩
  | cons domain domains ih =>
    have hissue : ∀ m ∈ (st.issue (.mx domain)).queriedDomains, isDomain m = false := hdomain
    by_cases hmax : maxQueries ≤ st.numQueries
    · rw [queryMxLoop, if_pos hmax] at hlt
      exact absurd hlt (not_lt.mpr hmax)
    cases hq : zone.mx domain with
    -- no answer: no host is added, the query is counted all the same
    | none =>
      have heq : queryMxLoop sets maxQueries zone (domain :: domains) hostnames ips st =
          queryMxLoop sets maxQueries zone domains hostnames ips (st.issue (.mx domain)) := by
        rw [queryMxLoop, if_neg hmax, hq]
      rw [heq] at hlt ⊢
      have hhosts' : HostsQueried zone hostnames ips (st.issue (.mx domain)) :=
        ⟨hhosts.isDomain, hhosts.found, hhosts.marked⟩
      obtain ⟨hips, hmarks⟩ := ih hhosts' hissue hlt
      have hnone : mxAddresses zone domain = [] := by
        rw [mxAddresses, mxHosts, hq]
        rfl
      have hnoMark : ∀ m, ¬MarksMx zone domain m := by
        rintro m ⟨hsome, -⟩
        rw [hq] at hsome
        cases hsome
      refine ⟨fun ip => ?_, fun m => ?_⟩
      · rw [hips, List.exists_mem_cons_iff, hnone]
        simp
      · rw [hmarks, List.exists_mem_cons_iff]
        simp only [hnoMark, false_or]
        rfl
    | some rs =>
      have hnew : mxHosts zone domain = mxHostnames rs := by
        rw [mxHosts, hq]
        rfl
      rw [queryMxLoop_cons _ _ _ (not_le.mp hmax) hq, ← hnew] at hlt ⊢
      simp only at hlt ⊢
      -- the loop goes through all hosts so far again, not only through the new ones
      set hosts := hostnames ++ mxHosts zone domain with hhostsDef
      have hhostsDomain : ∀ host ∈ hosts, isDomain host = true := by
        intro host hhost
        rcases List.mem_append.mp hhost with hhost | hhost
        · exact hhosts.isDomain host hhost
        · rw [hnew] at hhost
          exact (List.mem_filter.mp hhost).2
      have hltHosts : (queryHosts sets maxQueries zone hosts (st.issue (.mx domain))).2.numQueries <
          maxQueries :=
        lt_of_le_of_lt (advances_queryMxLoop _ _ _ (State.mark (mxMark domain) _)).le hlt
      obtain ⟨hipsHosts, hmarksHosts⟩ := queryHosts_of_lt hhostsDomain hissue hltHosts
      set q := queryHosts sets maxQueries zone hosts (st.issue (.mx domain))
      have hmarked : ∀ m, m ∈ (q.2.mark (mxMark domain)).queriedDomains ↔
          m ∈ st.queriedDomains ∨ MarksMx zone domain m := by
        intro m
        have hold : ∀ host ∈ hostnames, (zone.a host).isSome → m = aMark host →
            m ∈ st.queriedDomains := fun host hhost hsome heq => heq ▸ hhosts.marked host hhost hsome
        simp only [State.mark, List.mem_cons, hmarksHosts, MarksMx, hq, Option.isSome_some, true_and]
        constructor
        · rintro (heq | hm | ⟨host, hhost, hsome, heq⟩)
          · exact .inr (.inl heq)
          · exact .inl hm
          · rcases List.mem_append.mp hhost with hhost | hhost
            · exact .inl (hold host hhost hsome heq)
            · exact .inr (.inr ⟨host, hhost, hsome, heq⟩)
        · rintro (hm | heq | ⟨host, hhost, hsome, heq⟩)
          · exact .inr (.inl hm)
          · exact .inl heq
          · exact .inr (.inr ⟨host, List.mem_append_right _ hhost, hsome, heq⟩)
      -- the marks of hosts and of MX queries are no domain names
      have hdomain' : ∀ m ∈ (q.2.mark (mxMark domain)).queriedDomains, isDomain m = false := by
        intro m hm
        rcases (hmarked m).mp hm with hm | ⟨-, rfl | ⟨host, -, -, rfl⟩⟩
        · exact hdomain m hm
        · exact isDomain_mxMark _
        · exact isDomain_aMark _
      have hhosts' : HostsQueried zone hosts (ips ++ q.1) (q.2.mark (mxMark domain)) := by
        refine ⟨hhostsDomain, fun host hhost ip hip => ?_, fun host hhost hsome => ?_⟩
        · exact List.mem_append_right _ ((hipsHosts ip).mpr ⟨host, hhost, hip⟩)
        · exact List.mem_cons_of_mem _ ((hmarksHosts _).mpr (.inr ⟨host, hhost, hsome, rfl⟩))
      obtain ⟨hips, hmarks⟩ := ih hhosts' hdomain' hlt
      refine ⟨fun ip => ?_, fun m => ?_⟩
      · have hfirst : (∃ host ∈ hosts, ip ∈ aAddresses zone host) ↔
            (∃ host ∈ hostnames, ip ∈ aAddresses zone host) ∨ ip ∈ mxAddresses zone domain := by
          rw [mxAddresses, List.mem_flatMap]
          simp only [hhostsDef, List.mem_append, or_and_right, exists_or]
        have hold : (∃ host ∈ hostnames, ip ∈ aAddresses zone host) → ip ∈ ips := by
          rintro ⟨host, hhost, hip⟩
          exact hhosts.found host hhost hip
        rw [hips, List.mem_append, hipsHosts, hfirst, List.exists_mem_cons_iff, ← or_assoc,
          or_iff_left_of_imp hold, or_assoc]
      · rw [hmarks, hmarked, List.exists_mem_cons_iff, or_assoc]

/-- `query_mx` below the limit: the names that do not read like a mark are queried. -/
theorem queryMx_of_lt {domains : List Str} {st : State}
    (hdomain : ∀ m ∈ st.queriedDomains, isDomain m = false)
    (hlt : (queryMx sets maxQueries zone domains st).2.numQueries < maxQueries) :
    (∀ ip, ip ∈ (queryMx sets maxQueries zone domains st).1 ↔
      ∃ x ∈ domains, x ∉ st.queriedDomains ∧ ip ∈ mxAddresses zone x) ∧
    ∀ m, m ∈ (queryMx sets maxQueries zone domains st).2.queriedDomains ↔
      m ∈ st.queriedDomains ∨ ∃ x ∈ domains, x ∉ st.queriedDomains ∧ MarksMx zone x m := by
  obtain ⟨hips, hmarks⟩ := queryMxLoop_of_lt ⟨by simp, by simp, by simp⟩ hdomain hlt
  refine ⟨fun ip => ?_, fun m => ?_⟩
  · show ip ∈ (queryMxLoop sets maxQueries zone _ [] [] st).1 ↔ _
    rw [hips]
    simp only [mem_filter_unmarked, and_assoc, List.not_mem_nil, false_or]
  · show m ∈ (queryMxLoop sets maxQueries zone _ [] [] st).2.queriedDomains ↔ _
    rw [hmarks]
    simp only [mem_filter_unmarked, and_assoc]

/-! ### A step of the walk -/

omit [Unicode] in
/-- The names of the `a` terms below the limit.  The ones that are marked with their prefix have
been queried. -/
theorem queryTermsA_of_lt {ts : Terms} {st : State}
    (hlt : (queryTermsA sets maxQueries zone ts st).2.numQueries < maxQueries) :
    (∀ ip, ip ∈ (queryTermsA sets maxQueries zone ts st).1 ↔
      ∃ x ∈ ts.a, aMark x ∉ st.queriedDomains ∧ x ∉ st.queriedDomains ∧ ip ∈ aAddresses zone x) ∧
    ∀ m, m ∈ (queryTermsA sets maxQueries zone ts st).2.queriedDomains ↔
      m ∈ st.queriedDomains ∨ ∃ x ∈ ts.a, aMark x ∉ st.queriedDomains ∧ x ∉ st.queriedDomains ∧
        (zone.a x).isSome ∧ m = aMark x := by
  unfold queryTermsA at hlt ⊢
  split_ifs at hlt ⊢ with hempty
  · rw [List.isEmpty_iff] at hempty
    simp [hempty]
  · obtain ⟨hips, hmarks⟩ := queryA_of_lt hlt
    refine ⟨fun ip => ?_, fun m => ?_⟩
    · rw [hips]
      simp only [mem_filter_unmarked, sets.mem_order, and_assoc]
    · rw [hmarks]
      simp only [mem_filter_unmarked, sets.mem_order, and_assoc]

/-- The names of the `mx` terms below the limit. -/
theorem queryTermsMx_of_lt {ts : Terms} {st : State}
    (hdomain : ∀ m ∈ st.queriedDomains, isDomain m = false)
    (hlt : (queryTermsMx sets maxQueries zone ts st).2.numQueries < maxQueries) :
    (∀ ip, ip ∈ (queryTermsMx sets maxQueries zone ts st).1 ↔
      ∃ x ∈ ts.mx, mxMark x ∉ st.queriedDomains ∧ x ∉ st.queriedDomains ∧ ip ∈ mxAddresses zone x) ∧
    ∀ m, m ∈ (queryTermsMx sets maxQueries zone ts st).2.queriedDomains ↔
      m ∈ st.queriedDomains ∨ ∃ x ∈ ts.mx, mxMark x ∉ st.queriedDomains ∧ x ∉ st.queriedDomains ∧
        MarksMx zone x m := by
  unfold queryTermsMx at hlt ⊢
  split_ifs at hlt ⊢ with hempty
  · rw [List.isEmpty_iff] at hempty
    simp [hempty]
  · obtain ⟨hips, hmarks⟩ := queryMx_of_lt hdomain hlt
    refine ⟨fun ip => ?_, fun m => ?_⟩
    · rw [hips]
      simp only [mem_filter_unmarked, sets.mem_order, and_assoc]
    · rw [hmarks]
      simp only [mem_filter_unmarked, sets.mem_order, and_assoc]

/-- The marks set so far are those of the walk, and what it lists has been found. -/
structure Traces (zone : Zone) (w : List (Step Str)) (found : List Str) (st : State) : Prop where
  marks : ∀ m, m ∈ st.queriedDomains ↔ m ∈ marks zone w
  found : ∀ ip, ip ∈ found ↔ ListedIn zone w ip

namespace Traces

variable {w : List (Step Str)} {found : List Str} {st st' : State} {d : Str}

theorem enter_mem_iff (h : Traces zone w found st) :
    spfMark d ∈ st.queriedDomains ↔ .enter d ∈ w := by
  rw [h.marks, spfMark_mem_marks_iff]

/-- A domain is marked, and its record is entered. -/
theorem enters (h : Traces zone w found st)
    (heq : st'.queriedDomains = spfMark d :: st.queriedDomains) :
    Traces zone (.enter d :: w) found st' where
  marks := fun m => by
    rw [heq, List.mem_cons, h.marks]
    rfl
  found := fun ip => by rw [h.found, listedIn_enter]

/-- Marking again changes nothing. -/
theorem mark (h : Traces zone w found st) {m : Str} (hm : m ∈ st.queriedDomains) :
    Traces zone w found (st.mark m) where
  marks := fun m' => by
    rw [← h.marks, State.mark, List.mem_cons]
    exact or_iff_right_of_imp fun heq => heq ▸ hm
  found := h.found

/-- A domain without a record is left as soon as it is entered. -/
theorem leaves_empty (h : Traces zone w found st) (hnone : (zone.txt d).bind spfRecord = none) :
    Traces zone (.leave d :: w) found st where
  marks := fun m => by
    rw [h.marks, Dnsspf.marks, marksAfterMx, marksAfterA, termsOf_eq_empty hnone]
    simp
  found := fun ip => by
    rw [h.found, listedIn_leave, ListsUnmarked, termsOf_eq_empty hnone]
    simp

/-- The marks after the queries for the `a` names. -/
theorem mem_marksAfterA_iff (h : Traces zone w found st)
    (hlt : (queryTermsA sets maxQueries zone (termsOf zone d) st).2.numQueries < maxQueries) (m : Str) :
    m ∈ (queryTermsA sets maxQueries zone (termsOf zone d) st).2.queriedDomains ↔
      m ∈ marksAfterA zone d (Dnsspf.marks zone w) := by
  rw [(queryTermsA_of_lt hlt).2]
  simp only [h.marks]
  constructor
  · rintro (hm | ⟨x, hx, -, hnew, hsome, heq⟩)
    · exact .inl hm
    · exact .inr ⟨x, hx, hnew, hsome, heq⟩
  · rintro (hm | ⟨x, hx, hnew, hsome, rfl⟩)
    · exact .inl hm
    · by_cases hmarked : aMark x ∈ Dnsspf.marks zone w
      · exact .inl hmarked
      · exact .inr ⟨x, hx, hmarked, hnew, hsome, rfl⟩

/-- **A record is left** by the queries for its names. -/
theorem leaves {ips : List Str} (h : Traces zone w (found ++ ips) st)
    (hmarked : spfMark d ∈ st.queriedDomains)
    (hlt : (parseAddresses sets maxQueries zone d (termsOf zone d) ((termsOf zone d).ips ++ ips)
      st).2.numQueries < maxQueries) :
    Traces zone (.leave d :: w)
      (found ++ (parseAddresses sets maxQueries zone d (termsOf zone d) ((termsOf zone d).ips ++ ips)
        st).1)
      (parseAddresses sets maxQueries zone d (termsOf zone d) ((termsOf zone d).ips ++ ips) st).2 := by
  rw [parseAddresses_eq] at hlt ⊢
  simp only at hlt ⊢
  have hltA : (queryTermsA sets maxQueries zone (termsOf zone d) st).2.numQueries < maxQueries :=
    lt_of_le_of_lt (advances_queryTermsMx _ _).le hlt
  have hmarksA := h.mem_marksAfterA_iff hltA
  have hsubA := (@advances_queryTermsA sets maxQueries zone (termsOf zone d) st).marks
  have hipsA := (queryTermsA_of_lt hltA).1
  set qa := queryTermsA sets maxQueries zone (termsOf zone d) st
  have hdomain : ∀ m ∈ qa.2.queriedDomains, isDomain m = false := by
    intro m hm
    rcases (hmarksA m).mp hm with hm | ⟨x, -, -, -, rfl⟩
    · exact not_isDomain_of_mem_marks hm
    · exact isDomain_aMark _
  have hsubMx := (@advances_queryTermsMx _ sets maxQueries zone (termsOf zone d) qa.2).marks
  obtain ⟨hipsMx, hmarksMx⟩ := queryTermsMx_of_lt hdomain hlt
  set qm := queryTermsMx sets maxQueries zone (termsOf zone d) qa.2
  simp only [hmarksA, mxMark_mem_marksAfterA_iff] at hipsMx hmarksMx
  simp only [h.marks] at hipsA
  have hqm : Traces zone (.leave d :: w) (found ++ ((termsOf zone d).ips ++ ips ++ qa.1 ++ qm.1))
      qm.2 := by
    refine ⟨fun m => ?_, fun ip => ?_⟩
    · rw [hmarksMx]
      constructor
      · rintro (hm | ⟨x, hx, -, hnew, hsome, hm⟩)
        · exact .inl hm
        · exact .inr ⟨x, hx, hnew, hsome, hm⟩
      · rintro (hm | ⟨x, hx, hnew, hsome, hm⟩)
        · exact .inl hm
        by_cases hold : mxMark x ∈ Dnsspf.marks zone w
        -- a name that was queried before has marked its hosts
        · rcases hm with rfl | ⟨host, hhost, hanswer, rfl⟩
          · exact .inl (.inl hold)
          · exact .inl (.inl ((of_mxMark hold).2 host hhost hanswer))
        · exact .inr ⟨x, hx, hold, hnew, hsome, hm⟩
    · rw [listedIn_leave, ← h.found]
      simp only [List.mem_append, hipsA, hipsMx, ListsUnmarked]
      have hfound : ∀ ip, ListedIn zone w ip → ip ∈ found ∨ ip ∈ ips :=
        fun ip hip => List.mem_append.mp ((h.found ip).mpr hip)
      constructor
      · rintro (hip | ((hip | hip) | ⟨x, hx, -, hnew, hip⟩) | ⟨x, hx, -, hnew, hip⟩)
        · exact .inr (.inl hip)
        · exact .inl (.inl hip)
        · exact .inr (.inr hip)
        · exact .inl (.inr (.inl ⟨x, hx, hnew, hip⟩))
        · exact .inl (.inr (.inr ⟨x, hx, hnew, hip⟩))
      · rintro ((hip | ⟨x, hx, hnew, hip⟩ | ⟨x, hx, hnew, hip⟩) | hip | hip)
        · exact .inr (.inl (.inl (.inl hip)))
        · by_cases hold : aMark x ∈ Dnsspf.marks zone w
          · rcases hfound ip (listedIn_of_aMark hold hip) with hip | hip
            · exact .inl hip
            · exact .inr (.inl (.inl (.inr hip)))
          · exact .inr (.inl (.inr ⟨x, hx, hold, hnew, hip⟩))
        · by_cases hold : mxMark x ∈ Dnsspf.marks zone w
          · rcases hfound ip ((of_mxMark hold).1 ip hip) with hip | hip
            · exact .inl hip
            · exact .inr (.inl (.inl (.inr hip)))
          · exact .inr (.inr ⟨x, hx, hold, hnew, hip⟩)
        · exact .inl hip
        · exact .inr (.inl (.inl (.inr hip)))
  exact hqm.mark (hsubMx (hsubA hmarked))

end Traces

/-! ### Parsing -/

/-- A parser goes on with the walk through the record of a domain that has been entered. -/
def Follows (sets : SetOrder Str) (maxQueries : ℕ) (zone : Zone)
    (parse : Str → Option Str → State → Option (List Str × State)) : Prop :=
  ∀ w found d spf st r, parse d (some spf) st = some r → (zone.txt d).bind spfRecord = some spf →
    .enter d ∈ w → Traces zone w found st → r.2.numQueries < maxQueries →
    ∃ w', Walk (includedIn sets zone) w (includedIn sets zone d) w' ∧
      Traces zone (.leave d :: w') (found ++ r.1) r.2

/-- The loop over the included domains walks through them. -/
theorem traces_includedLoop {parse : Str → Option Str → State → Option (List Str × State)}
    (hnone : ∀ d st, parse d none st = some ([], st)) (hfollows : Follows sets maxQueries zone parse)
    (hadvances : ∀ d spf st r, parse d spf st = some r → Advances maxQueries st r.2)
    {w : List (Step Str)} {found domains ips : List Str} {st : State} {r : List Str × State}
    (hst : Traces zone w (found ++ ips) st)
    (h : includedLoop maxQueries zone parse domains ips st = some r)
    (hlt : r.2.numQueries < maxQueries) :
    ∃ w', Walk (includedIn sets zone) w domains w' ∧ Traces zone w' (found ++ r.1) r.2 := by
  induction domains generalizing w ips st with
  | nil =>
    rw [← Option.some.inj h]
    exact ⟨w, .done, hst⟩
  | cons d domains ih =>
    have hle := (advances_includedLoop hadvances h).le
    unfold includedLoop at h
    simp only at h
    cases hp : parse d (querySpf maxQueries zone d st).1 (querySpf maxQueries zone d st).2 with
    | none =>
      rw [hp] at h
      cases h
    | some q =>
      rw [hp] at h
      have hltq : q.2.numQueries < maxQueries :=
        lt_of_le_of_lt (advances_includedLoop hadvances h).le hlt
      -- marking the domain again changes nothing
      have hnext : ∀ {v}, Traces zone v (found ++ ips ++ q.1) q.2 → .enter d ∈ v →
          Traces zone v (found ++ (ips ++ q.1)) ((q.2.mark (spfMark d)).returns q.1) := by
        intro v hv hmem
        rw [← List.append_assoc]
        exact ⟨(hv.mark (hv.enter_mem_iff.mpr hmem)).marks, hv.found⟩
      -- a domain that is not queried was entered before, as the budget is not used up
      rcases @querySpf_cases maxQueries zone d st with ⟨hskip, heq⟩ | ⟨hnew, -, heq⟩
      · rw [heq, hnone] at hp
        have hmem : .enter d ∈ w :=
          hst.enter_mem_iff.mp (hskip.resolve_right (not_le.mpr (lt_of_le_of_lt hle hlt)))
        have hq : Traces zone w (found ++ ips ++ q.1) q.2 := by
          rw [← Option.some.inj hp, List.append_nil]
          exact hst
        obtain ⟨w', hwalk, htraces⟩ := ih (hnext hq hmem) h
        exact ⟨w', .skip hmem hwalk, htraces⟩
      · rw [heq] at hp
        have hopen : Traces zone (.enter d :: w) (found ++ ips)
            ((st.issue (.txt d)).mark (spfMark d)) := hst.enters rfl
        obtain ⟨inner, hbelow, hleft⟩ : ∃ inner,
            Walk (includedIn sets zone) (.enter d :: w) (includedIn sets zone d) inner ∧
              Traces zone (.leave d :: inner) (found ++ ips ++ q.1) q.2 := by
          cases hrecord : (zone.txt d).bind spfRecord with
          | none =>
            rw [hrecord, hnone] at hp
            rw [← Option.some.inj hp, List.append_nil, includedIn, termsOf_eq_empty hrecord,
              SetOrder.order_nil]
            exact ⟨_, .done, hopen.leaves_empty hrecord⟩
          | some spf =>
            rw [hrecord] at hp
            exact hfollows _ _ _ _ _ q hp hrecord List.mem_cons_self hopen hltq
        have hmem : .enter d ∈ .leave d :: inner :=
          List.mem_cons_of_mem _ (hbelow.suffix.subset List.mem_cons_self)
        obtain ⟨w', hwalk, htraces⟩ := ih (hnext hleft hmem) h
        exact ⟨w', .visit (fun hmem => hnew (hst.enter_mem_iff.mpr hmem)) hbelow hwalk, htraces⟩

/-- The included domains of a record are walked through. -/
theorem traces_parseIncluded {parse : Str → Option Str → State → Option (List Str × State)}
    (hnone : ∀ d st, parse d none st = some ([], st)) (hfollows : Follows sets maxQueries zone parse)
    (hadvances : ∀ d spf st r, parse d spf st = some r → Advances maxQueries st r.2)
    {w : List (Step Str)} {found : List Str} {d : Str} {st : State} {r : List Str × State}
    (hst : Traces zone w found st)
    (h : parseIncluded sets maxQueries zone parse (termsOf zone d) st = some r)
    (hlt : r.2.numQueries < maxQueries) :
    ∃ w', Walk (includedIn sets zone) w (includedIn sets zone d) w' ∧
      Traces zone w' (found ++ r.1) r.2 := by
  unfold parseIncluded at h
  split_ifs at h with hempty
  · rw [List.isEmpty_iff] at hempty
    rw [← Option.some.inj h, List.append_nil, includedIn, hempty, SetOrder.order_nil]
    exact ⟨w, .done, hst⟩
  · have hst' : Traces zone w (found ++ []) st := by
      rw [List.append_nil]
      exact hst
    obtain ⟨w', hwalk, htraces⟩ := traces_includedLoop hnone hfollows hadvances hst' h hlt
    -- what is left out has been entered
    have hentered : ∀ e, (!st.queriedDomains.contains (spfMark e)) = false → .enter e ∈ w := by
      intro e he
      rw [Bool.not_eq_false', List.contains_iff_mem] at he
      exact hst.enter_mem_iff.mp he
    refine ⟨w', .of_filter (fun e _ => hentered e) (.of_filter (fun e _ => hentered e) hwalk), htraces⟩

/-- `parse_spf` goes on with the walk. -/
theorem follows_parseSpf (depth : ℕ) :
    Follows sets maxQueries zone (parseSpf sets maxQueries zone depth) := by
  induction depth with
  | zero =>
    intro w found d spf st r h
    cases h
  | succ depth ih =>
    intro w found d spf st r h hrecord hmem hst hlt
    rw [parseSpf_succ] at h
    obtain ⟨q, hq, rfl⟩ := Option.map_eq_some_iff.mp h
    rw [← termsOf_eq hrecord] at hq hlt ⊢
    have hltq : q.2.numQueries < maxQueries :=
      lt_of_le_of_lt (advances_parseAddresses _ _ _ q.2).le hlt
    obtain ⟨w', hwalk, htraces⟩ :=
      traces_parseIncluded (parseSpf_none depth) ih (advances_parseSpf depth) hst hq hltq
    refine ⟨w', hwalk, htraces.leaves ?_ hlt⟩
    exact htraces.enter_mem_iff.mpr (hwalk.suffix.subset hmem)

/-! ### The evaluation -/

/-- What `parse_spf` returns inside `is_allowed_server_in_spf`. -/
def evaluation (sets : SetOrder Str) (maxQueries : ℕ) (zone : Zone) (depth : ℕ) (domain : Str) :
    Option (List Str × State) :=
  let (spf, st) := querySpf maxQueries zone domain {}
  parseSpf sets maxQueries zone depth domain spf { st with returnedIps := [], numQueries := 0 }

/-- The evaluation never reaches the limit. -/
def StaysBelow (sets : SetOrder Str) (maxQueries : ℕ) (zone : Zone) (domain : Str) : Prop :=
  ∀ depth r, evaluation sets maxQueries zone depth domain = some r → r.2.numQueries < maxQueries

/-- The evaluation ends, and when it stays below the limit it finds what the reachable records list,
with one `TXT` query at most for a domain. -/
def CollectsUnion (maxQueries : ℕ) (zone : Zone) (domain : Str) : Prop :=
  ∀ sets : SetOrder Str, ∃ r,
    (∀ depth, maxQueries < depth → evaluation sets maxQueries zone depth domain = some r) ∧
    (r.2.numQueries < maxQueries →
      (∀ ip, ip ∈ r.1 ↔ InUnion zone domain ip) ∧ (txtNames r.2.queries).Nodup)

/-- In the walk through the records that are reached, each address of the union is listed by itself,
or through a name that is none of the marks set before it is tried. -/
def ListedUnmarked (sets : SetOrder Str) (zone : Zone) (domain : Str) : Prop :=
  ∀ w, Walk (includedIn sets zone) [] [domain] w → ∀ ip, InUnion zone domain ip → ListedIn zone w ip

/-- The evaluation ends with at most one `TXT` query for a domain.  Below the limit it has gone
through all of a walk. -/
theorem evaluation_spec (sets : SetOrder Str) (maxQueries : ℕ) (zone : Zone) (domain : Str) :
    ∃ r, (∀ depth, maxQueries < depth → evaluation sets maxQueries zone depth domain = some r) ∧
      (txtNames r.2.queries).Nodup ∧
      (r.2.numQueries < maxQueries → ∃ w, Walk (includedIn sets zone) [] [domain] w ∧
        ∀ ip, ip ∈ r.1 ↔ ListedIn zone w ip) := by
  unfold evaluation
  have hadvances : Advances maxQueries {} (querySpf maxQueries zone domain {}).2 := advances_querySpf _ _
  have hcases := @querySpf_cases maxQueries zone domain {}
  rcases hspf : querySpf maxQueries zone domain {} with ⟨spf, st⟩
  rw [hspf] at hadvances hcases
  obtain ⟨r, hr⟩ : ∃ r, parseSpf sets maxQueries zone (maxQueries + 1) domain spf
      { st with returnedIps := [], numQueries := 0 } = some r :=
    exists_parseSpf domain spf (Nat.lt_succ_self _)
  have honce : TxtOnce { st with returnedIps := [], numQueries := 0 } := by
    have h := hadvances.txtOnce ⟨List.nodup_nil, by simp [txtNames]⟩
    exact ⟨h.nodup, h.marked⟩
  refine ⟨r, fun depth hdepth => parseSpf_mono (Nat.succ_le_of_lt hdepth) hr,
    ((advances_parseSpf _ _ _ _ r hr).txtOnce honce).nodup, fun hlt => ?_⟩
  -- the query for the record of the domain enters it
  have hpos : 0 < maxQueries := lt_of_le_of_lt (Nat.zero_le _) hlt
  rcases hcases with ⟨hskip, -⟩ | ⟨-, -, heq⟩
  · rcases hskip with hskip | hskip
    · cases hskip
    · exact absurd hskip (not_le.mpr hpos)
  obtain ⟨rfl, rfl⟩ := Prod.mk.inj heq
  have hempty : Traces zone [] [] {} := ⟨fun m => by simp [marks], fun ip => by simp⟩
  have hopen : Traces zone [.enter domain] [] ⟨[spfMark domain], [], 0, [.txt domain]⟩ :=
    hempty.enters rfl
  cases hrecord : (zone.txt domain).bind spfRecord with
  | none =>
    rw [hrecord, parseSpf_none] at hr
    obtain rfl := Option.some.inj hr
    refine ⟨[.leave domain, .enter domain], ?_, (hopen.leaves_empty hrecord).found⟩
    refine .visit List.not_mem_nil ?_ .done
    rw [includedIn, termsOf_eq_empty hrecord, SetOrder.order_nil]
    exact .done
  | some spf =>
    rw [hrecord] at hr
    obtain ⟨w, hwalk, htraces⟩ :=
      follows_parseSpf _ _ [] domain spf _ r hr hrecord List.mem_cons_self hopen hlt
    exact ⟨_, .visit List.not_mem_nil hwalk .done, htraces.found⟩

/-- **An SPF evaluation collects the union over the reachable records** exactly when, in whatever
order the sets are gone through without reaching the limit, no address is listed only through names
that read like marks set before. -/
theorem evaluation_collectsUnion_iff (maxQueries : ℕ) (zone : Zone) (domain : Str) :
    CollectsUnion maxQueries zone domain ↔
      ∀ sets, StaysBelow sets maxQueries zone domain → ListedUnmarked sets zone domain := by
  constructor
  · intro hunion sets hbelow w hwalk ip hip
    obtain ⟨r, hr, -, hwalked⟩ := evaluation_spec sets maxQueries zone domain
    obtain ⟨r', hr', hcollects⟩ := hunion sets
    obtain rfl : r' = r := Option.some.inj ((hr' _ (Nat.lt_succ_self _)).symm.trans
      (hr _ (Nat.lt_succ_self _)))
    have hlt := hbelow _ r' (hr _ (Nat.lt_succ_self _))
    obtain ⟨w', hwalk', hfound⟩ := hwalked hlt
    rw [hwalk.det hwalk', ← hfound]
    exact ((hcollects hlt).1 ip).mpr hip
  · intro hlisted sets
    obtain ⟨r, hr, honce, hwalked⟩ := evaluation_spec sets maxQueries zone domain
    refine ⟨r, hr, fun hlt => ⟨fun ip => ?_, honce⟩⟩
    obtain ⟨w, hwalk, hfound⟩ := hwalked hlt
    have hbelow : StaysBelow sets maxQueries zone domain := by
      intro depth r' hr'
      have hmono : evaluation sets maxQueries zone (max depth (maxQueries + 1)) domain = some r' :=
        parseSpf_mono (le_max_left _ _) hr'
      rw [hr _ (lt_of_lt_of_le (Nat.lt_succ_self _) (le_max_right _ _))] at hmono
      rwa [← Option.some.inj hmono]
    rw [hfound]
    exact ⟨fun h => h.inUnion hwalk, hlisted sets hbelow w hwalk ip⟩

/-- Names without a colon read like no mark. -/
theorem listedUnmarked_of_no_colon (sets : SetOrder Str) {domain : Str}
    (h : ∀ d, ∀ x ∈ (termsOf zone d).a ++ (termsOf zone d).mx, ':' ∉ x) :
    ListedUnmarked sets zone domain := by
  rintro w hwalk ip ⟨d, hd, hlists⟩
  have hleave : .leave d ∈ w := hwalk.leave_mem_iff.mpr ((reaches_includedIn_iff sets).mpr hd)
  obtain ⟨pre, before, rfl⟩ := List.append_of_mem hleave
  refine ⟨d, before, List.suffix_append pre _, ?_⟩
  rcases hlists with hip | ⟨x, hx, hip⟩ | ⟨x, hx, hip⟩
  · exact .inl hip
  · refine .inr (.inl ⟨x, hx, fun hm => ?_, hip⟩)
    exact h d x (List.mem_append_left _ hx) (colon_mem_of_mem_marks hm)
  · refine .inr (.inr ⟨x, hx, fun hm => ?_, hip⟩)
    refine h d x (List.mem_append_right _ hx) ?_
    rcases hm with hm | ⟨y, -, -, -, rfl⟩
    · exact colon_mem_of_mem_marks hm
    · exact List.mem_append_left _ (by decide)

/-- Two records that include each other. -/
def mutualZone : Zone where
  a d := if d = "b.com".toList then some ["1.2.3.4".toList] else none
  mx d := if d = "a.com".toList then some [(10, "b.com.".toList)] else none
  txt d :=
    if d = "a.com".toList then some ["\"v=spf1 mx include:b.com\"".toList]
    else if d = "b.com".toList then some ["\"v=spf1 a ip4:5.6.0.0/16 include:a.com\"".toList]
    else none

omit [Unicode] in
theorem mutualZone_collectsUnion :
    letI := asciiUnicode
    CollectsUnion 20 mutualZone "a.com".toList := by
  let := asciiUnicode
  refine (@evaluation_collectsUnion_iff asciiUnicode 20 mutualZone _).mpr fun sets _ => ?_
  refine listedUnmarked_of_no_colon sets fun d => ?_
  by_cases ha : d = "a.com".toList
  · subst ha
    decide
  by_cases hb : d = "b.com".toList
  · subst hb
    decide
  · have hnone : mutualZone.txt d = none := by
      show (if d = "a.com".toList then _ else if d = "b.com".toList then _ else none) = none
      rw [if_neg ha, if_neg hb]
    rw [termsOf_eq_empty (by rw [hnone]; rfl)]
    simp

/-- The one name of the record reads like the mark of its domain. -/
def shadowedZone : Zone where
  a d := if d = "spf:a.com".toList then some ["1.2.3.4".toList] else none
  mx _ := none
  txt d := if d = "a.com".toList then some ["\"v=spf1 a:spf:a.com\"".toList] else none

omit [Unicode] in
theorem shadowedZone_not_collectsUnion :
    letI := asciiUnicode
    ((shadowedZone.txt "a.com".toList).bind spfRecord).isSome ∧
      ¬CollectsUnion 20 shadowedZone "a.com".toList := by
  let := asciiUnicode
  refine ⟨by decide, fun h => ?_⟩
  obtain ⟨r, hr, hunion⟩ := h .ofDedup
  have heq : evaluation .ofDedup 20 shadowedZone 21 "a.com".toList =
      some ([], ⟨["spf:a.com".toList, "spf:a.com".toList], [], 0, [.txt "a.com".toList]⟩) := by
    decide +kernel
  obtain rfl := Option.some.inj ((hr 21 (by decide)).symm.trans heq)
  have hip : InUnion shadowedZone "a.com".toList "1.2.3.4".toList :=
    ⟨"a.com".toList, .refl, .inr (.inl ⟨"spf:a.com".toList, by decide, by decide⟩)⟩
  exact List.not_mem_nil (((hunion (by decide)).1 _).mpr hip)

end IRedAPD.Dnsspf

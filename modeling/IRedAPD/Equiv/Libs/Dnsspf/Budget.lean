/-
  The DNS queries of an SPF evaluation.

  Every query is counted and issued only below the limit, and no `TXT` record is
  queried twice (`Advances`), through all functions that pass the count and the
  marks on.  A record is parsed only after a query for it, so the depth of the calls is
  bounded by what is left of the budget (`exists_parseSpf`), and a larger depth changes
  nothing (`parseSpf_mono`).
-/
import IRedAPD.Libs.Dnsspf

namespace IRedAPD.Dnsspf

open Py

variable [Unicode] {sets : SetOrder Str} {maxQueries : ℕ} {zone : Zone}

/-! ### Counting -/

/-- The names whose `TXT` records are queried. -/
def txtNames (queries : List Query) : List Str :=
  queries.filterMap fun
    | .txt domain => some domain
    | .a _ | .mx _ => none

/-- No `TXT` record has been queried twice, and the names are marked. -/
structure TxtOnce (st : State) : Prop where
  nodup : (txtNames st.queries).Nodup
  marked : ∀ d ∈ txtNames st.queries, spfMark d ∈ st.queriedDomains

/-- The queries issued between two states are counted, and counted up to the limit at most. -/
structure Advances (maxQueries : ℕ) (st st' : State) : Prop where
  le : st.numQueries ≤ st'.numQueries
  count : st'.queries.length + st.numQueries = st.queries.length + st'.numQueries
  le_max : st.numQueries ≤ maxQueries → st'.numQueries ≤ maxQueries
  marks : st.queriedDomains ⊆ st'.queriedDomains
  txtOnce : TxtOnce st → TxtOnce st'

namespace Advances

variable {st st' st'' : State}

omit [Unicode] in
theorem refl (st : State) : Advances maxQueries st st := ⟨le_refl _, rfl, id, List.Subset.refl _, id⟩

omit [Unicode] in
theorem trans (h : Advances maxQueries st st') (h' : Advances maxQueries st' st'') :
    Advances maxQueries st st'' where
  le := le_trans h.le h'.le
  count := by
    have h₁ := h.count
    have h₂ := h'.count
    omega
  le_max := h'.le_max ∘ h.le_max
  marks := List.Subset.trans h.marks h'.marks
  txtOnce := h'.txtOnce ∘ h.txtOnce

omit [Unicode] in
theorem mark (h : Advances maxQueries st st') (s : Str) : Advances maxQueries st (st'.mark s) where
  le := h.le
  count := h.count
  le_max := h.le_max
  marks := List.Subset.trans h.marks (List.subset_cons_self _ _)
  txtOnce := fun hst => ⟨(h.txtOnce hst).nodup, fun d hd =>
    List.mem_cons_of_mem _ ((h.txtOnce hst).marked d hd)⟩

omit [Unicode] in
theorem returns (h : Advances maxQueries st st') (ips : List Str) :
    Advances maxQueries st (st'.returns ips) :=
  ⟨h.le, h.count, h.le_max, h.marks, fun hst => ⟨(h.txtOnce hst).nodup, (h.txtOnce hst).marked⟩⟩

omit [Unicode] in
/-- A query below the limit for addresses. -/
theorem issue (hlt : st.numQueries < maxQueries) {q : Query} (hq : txtNames [q] = []) :
    Advances maxQueries st (st.issue q) where
  le := Nat.le_succ _
  count := by
    simp only [State.issue, List.length_append, List.length_singleton]
    omega
  le_max := fun _ => hlt
  marks := List.Subset.refl _
  txtOnce := by
    have hnames : txtNames (st.queries ++ [q]) = txtNames st.queries := by
      unfold txtNames at hq ⊢
      rw [List.filterMap_append, hq, List.append_nil]
    intro hst
    constructor
    · show (txtNames (st.queries ++ [q])).Nodup
      rw [hnames]
      exact hst.nodup
    · intro d hd
      rw [State.issue, hnames] at hd
      exact hst.marked d hd

omit [Unicode] in
/-- A query below the limit for the record of a domain that is not marked, and then is. -/
theorem issueTxt (hlt : st.numQueries < maxQueries) {domain : Str}
    (hnew : spfMark domain ∉ st.queriedDomains) :
    Advances maxQueries st ((st.issue (.txt domain)).mark (spfMark domain)) where
  le := Nat.le_succ _
  count := by
    simp only [State.issue, State.mark, List.length_append, List.length_singleton]
    omega
  le_max := fun _ => hlt
  marks := List.subset_cons_self _ _
  txtOnce := by
    have hnames : txtNames (st.queries ++ [.txt domain]) = txtNames st.queries ++ [domain] := by
      unfold txtNames
      rw [List.filterMap_append]
      rfl
    intro hst
    constructor
    · show (txtNames (st.queries ++ [.txt domain])).Nodup
      rw [hnames]
      refine List.nodup_append.mpr ⟨hst.nodup, List.nodup_singleton _, ?_⟩
      rintro d hd _ hdomain rfl
      rw [List.mem_singleton] at hdomain
      exact hnew (hdomain ▸ hst.marked d hd)
    · intro d hd
      rw [State.mark, State.issue, hnames, List.mem_append, List.mem_singleton] at hd
      rcases hd with hd | rfl
      · exact List.mem_cons_of_mem _ (hst.marked d hd)
      · exact List.mem_cons_self ..

end Advances

omit [Unicode] in
theorem advances_queryALoop (domains ips : List Str) (st : State) :
    Advances maxQueries st (queryALoop maxQueries zone domains ips st).2 := by
  induction domains generalizing ips st with
  | nil => exact .refl st
  | cons domain domains ih =>
    unfold queryALoop
    split_ifs with hmax
    · exact .refl st
    · have hissue : Advances maxQueries st (st.issue (.a domain)) := .issue (not_le.mp hmax) rfl
      cases zone.a domain with
      | none => exact hissue.trans (ih _ _)
      | some rs => exact ((hissue.returns rs).mark _).trans (ih _ _)

omit [Unicode] in
theorem advances_queryA (domains : List Str) (st : State) :
    Advances maxQueries st (queryA maxQueries zone domains st).2 := advances_queryALoop _ _ st

theorem advances_queryMxLoop (domains hostnames ips : List Str) (st : State) :
    Advances maxQueries st (queryMxLoop sets maxQueries zone domains hostnames ips st).2 := by
  induction domains generalizing hostnames ips st with
  | nil => exact .refl st
  | cons domain domains ih =>
    unfold queryMxLoop
    split_ifs with hmax
    · exact .refl st
    · have hissue : Advances maxQueries st (st.issue (.mx domain)) := .issue (not_le.mp hmax) rfl
      cases zone.mx domain with
      | none => exact hissue.trans (ih _ _ _)
      | some rs =>
        simp only
        split_ifs
        · exact (hissue.mark _).trans (ih _ _ _)
        · exact ((hissue.trans (advances_queryA _ _)).mark _).trans (ih _ _ _)

theorem advances_queryMx (domains : List Str) (st : State) :
    Advances maxQueries st (queryMx sets maxQueries zone domains st).2 :=
  advances_queryMxLoop _ _ _ st

omit [Unicode] in
/-- A record is the answer to a query below the limit. -/
theorem querySpf_cases (domain : Str) (st : State) :
    ((spfMark domain ∈ st.queriedDomains ∨ maxQueries ≤ st.numQueries) ∧
      querySpf maxQueries zone domain st = (none, st)) ∨
    (spfMark domain ∉ st.queriedDomains ∧ st.numQueries < maxQueries ∧
      querySpf maxQueries zone domain st =
        ((zone.txt domain).bind spfRecord, (st.issue (.txt domain)).mark (spfMark domain))) := by
  unfold querySpf
  by_cases hskip : (st.queriedDomains.contains (spfMark domain) ||
      decide (maxQueries ≤ st.numQueries)) = true
  · rw [if_pos hskip]
    rw [Bool.or_eq_true, List.contains_iff_mem, decide_eq_true_iff] at hskip
    exact .inl ⟨hskip, rfl⟩
  · rw [if_neg hskip]
    rw [Bool.or_eq_true, List.contains_iff_mem, decide_eq_true_iff, not_or, not_le] at hskip
    exact .inr ⟨hskip.1, hskip.2, rfl⟩

omit [Unicode] in
theorem advances_querySpf (domain : Str) (st : State) :
    Advances maxQueries st (querySpf maxQueries zone domain st).2 := by
  rcases @querySpf_cases maxQueries zone domain st with ⟨-, heq⟩ | ⟨hnew, hlt, heq⟩
  · rw [heq]
    exact .refl st
  · rw [heq]
    exact .issueTxt hlt hnew

/-- The query for the `a` terms of a record. -/
def queryTermsA (sets : SetOrder Str) (maxQueries : ℕ) (zone : Zone) (ts : Terms) (st : State) :
    List Str × State :=
  if ts.a.isEmpty then ([], st)
  else
    queryA maxQueries zone ((sets.order ts.a).filter fun d => !st.queriedDomains.contains (aMark d)) st

/-- The query for the `mx` terms of a record. -/
def queryTermsMx (sets : SetOrder Str) (maxQueries : ℕ) (zone : Zone) (ts : Terms) (st : State) :
    List Str × State :=
  if ts.mx.isEmpty then ([], st)
  else
    queryMx sets maxQueries zone
      ((sets.order ts.mx).filter fun d => !st.queriedDomains.contains (mxMark d)) st

theorem parseAddresses_eq (domain : Str) (ts : Terms) (ips : List Str) (st : State) :
    parseAddresses sets maxQueries zone domain ts ips st =
      let qa := queryTermsA sets maxQueries zone ts st
      let qm := queryTermsMx sets maxQueries zone ts qa.2
      (ips ++ qa.1 ++ qm.1, qm.2.mark (spfMark domain)) := rfl

omit [Unicode] in
theorem advances_queryTermsA (ts : Terms) (st : State) :
    Advances maxQueries st (queryTermsA sets maxQueries zone ts st).2 := by
  unfold queryTermsA
  split_ifs
  · exact .refl st
  · exact advances_queryA _ st

theorem advances_queryTermsMx (ts : Terms) (st : State) :
    Advances maxQueries st (queryTermsMx sets maxQueries zone ts st).2 := by
  unfold queryTermsMx
  split_ifs
  · exact .refl st
  · exact advances_queryMx _ st

theorem advances_parseAddresses (domain : Str) (ts : Terms) (ips : List Str) (st : State) :
    Advances maxQueries st (parseAddresses sets maxQueries zone domain ts ips st).2 := by
  rw [parseAddresses_eq]
  exact ((advances_queryTermsA ts st).trans (advances_queryTermsMx ts _)).mark _

section Included

variable {parse parse' : Str → Option Str → State → Option (List Str × State)}

omit [Unicode] in
theorem advances_includedLoop
    (hparse : ∀ d spf st r, parse d spf st = some r → Advances maxQueries st r.2)
    {domains ips : List Str} {st : State} {r : List Str × State}
    (h : includedLoop maxQueries zone parse domains ips st = some r) :
    Advances maxQueries st r.2 := by
  induction domains generalizing ips st with
  | nil =>
    rw [← Option.some.inj h]
    exact .refl st
  | cons domain domains ih =>
    unfold includedLoop at h
    simp only at h
    cases hp : parse domain (querySpf maxQueries zone domain st).1
        (querySpf maxQueries zone domain st).2 with
    | none =>
      rw [hp] at h
      cases h
    | some q =>
      rw [hp] at h
      have hfirst := (advances_querySpf domain st).trans (hparse _ _ _ q hp)
      exact ((hfirst.mark _).returns _).trans (ih h)

omit [Unicode] in
/-- A parser that goes further changes nothing where the other one ends. -/
theorem includedLoop_mono (hparse : ∀ d spf st r, parse d spf st = some r → parse' d spf st = some r)
    {domains ips : List Str} {st : State} {r : List Str × State}
    (h : includedLoop maxQueries zone parse domains ips st = some r) :
    includedLoop maxQueries zone parse' domains ips st = some r := by
  induction domains generalizing ips st with
  | nil => exact h
  | cons domain domains ih =>
    unfold includedLoop at h ⊢
    simp only at h ⊢
    cases hp : parse domain (querySpf maxQueries zone domain st).1
        (querySpf maxQueries zone domain st).2 with
    | none =>
      rw [hp] at h
      cases h
    | some q =>
      rw [hp] at h
      rw [hparse _ _ _ q hp]
      exact ih h

omit [Unicode] in
/-- The loop ends when the parser ends with what is left of the budget after another query. -/
theorem exists_includedLoop {depth : ℕ}
    (hnone : ∀ d st, ∃ r, parse d none st = some r)
    (hsome : ∀ d spf st, maxQueries - st.numQueries < depth → ∃ r, parse d spf st = some r)
    (hparse : ∀ d spf st r, parse d spf st = some r → Advances maxQueries st r.2)
    (domains ips : List Str) (st : State) (hst : maxQueries - st.numQueries ≤ depth) :
    ∃ r, includedLoop maxQueries zone parse domains ips st = some r := by
  induction domains generalizing ips st with
  | nil => exact ⟨_, rfl⟩
  | cons domain domains ih =>
    have hadvances : Advances maxQueries st (querySpf maxQueries zone domain st).2 :=
      advances_querySpf domain st
    have hfirst : ∃ q, parse domain (querySpf maxQueries zone domain st).1
        (querySpf maxQueries zone domain st).2 = some q := by
      rcases @querySpf_cases maxQueries zone domain st with ⟨-, heq⟩ | ⟨-, hlt, heq⟩
      · rw [heq]
        exact hnone domain st
      · rw [heq]
        refine hsome domain _ _ ?_
        show maxQueries - (st.numQueries + 1) < depth
        omega
    obtain ⟨q, hq⟩ := hfirst
    have hrest : maxQueries - q.2.numQueries ≤ depth := by
      have h₁ := hadvances.le
      have h₂ := (hparse _ _ _ q hq).le
      omega
    obtain ⟨r, hr⟩ := ih (ips ++ q.1) ((q.2.mark (spfMark domain)).returns q.1) hrest
    refine ⟨r, ?_⟩
    unfold includedLoop
    simp only [hq]
    exact hr

end Included

/-! ### `parse_spf` -/

/-- The included domains of a record. -/
def parseIncluded (sets : SetOrder Str) (maxQueries : ℕ) (zone : Zone)
    (parse : Str → Option Str → State → Option (List Str × State)) (ts : Terms) (st : State) :
    Option (List Str × State) :=
  if ts.included.isEmpty then some ([], st)
  else
    querySpfOfIncludedDomains maxQueries zone parse
      ((sets.order ts.included).filter fun d => !st.queriedDomains.contains (spfMark d)) st

/-- A record is parsed from its included domains on. -/
theorem parseSpf_succ (depth : ℕ) (domain spf : Str) (st : State) :
    parseSpf sets maxQueries zone (depth + 1) domain (some spf) st =
      (parseIncluded sets maxQueries zone (parseSpf sets maxQueries zone depth)
        (parseTags domain spf) st).map fun q =>
          parseAddresses sets maxQueries zone domain (parseTags domain spf)
            ((parseTags domain spf).ips ++ q.1) q.2 := rfl

theorem parseSpf_none (depth : ℕ) (domain : Str) (st : State) :
    parseSpf sets maxQueries zone depth domain none st = some ([], st) := by
  cases depth <;> rfl

theorem advances_parseSpf (depth : ℕ) (domain : Str) (spf : Option Str) (st : State)
    (r : List Str × State) (h : parseSpf sets maxQueries zone depth domain spf st = some r) :
    Advances maxQueries st r.2 := by
  induction depth generalizing domain spf st r with
  | zero =>
    cases spf with
    | none =>
      rw [← Option.some.inj h]
      exact .refl st
    | some spf => cases h
  | succ depth ih =>
    cases spf with
    | none =>
      rw [← Option.some.inj h]
      exact .refl st
    | some spf =>
      rw [parseSpf_succ] at h
      obtain ⟨q, hq, rfl⟩ := Option.map_eq_some_iff.mp h
      have hincluded : Advances maxQueries st q.2 := by
        unfold parseIncluded at hq
        split_ifs at hq
        · rw [← Option.some.inj hq]
          exact .refl st
        · exact advances_includedLoop ih hq
      exact hincluded.trans (advances_parseAddresses _ _ _ _)

/-- A larger depth changes nothing. -/
theorem parseSpf_mono {depth depth' : ℕ} (hle : depth ≤ depth') {domain : Str} {spf : Option Str}
    {st : State} {r : List Str × State}
    (h : parseSpf sets maxQueries zone depth domain spf st = some r) :
    parseSpf sets maxQueries zone depth' domain spf st = some r := by
  induction depth generalizing depth' domain spf st r with
  | zero =>
    cases spf with
    | none =>
      rw [parseSpf_none] at h ⊢
      exact h
    | some spf => cases h
  | succ depth ih =>
    obtain ⟨depth', rfl⟩ := Nat.exists_eq_add_of_le' (Nat.le_trans (Nat.succ_le_succ (Nat.zero_le _)) hle)
    cases spf with
    | none =>
      rw [parseSpf_none] at h ⊢
      exact h
    | some spf =>
      rw [parseSpf_succ] at h ⊢
      obtain ⟨q, hq, rfl⟩ := Option.map_eq_some_iff.mp h
      have hq' : parseIncluded sets maxQueries zone (parseSpf sets maxQueries zone depth')
          (parseTags domain spf) st = some q := by
        unfold parseIncluded at hq ⊢
        split_ifs at hq ⊢
        · exact hq
        · exact includedLoop_mono (fun _ _ _ _ hr => ih (Nat.le_of_succ_le_succ hle) hr) hq
      rw [hq', Option.map_some]

/-- **The calls are no deeper than what is left of the budget.** -/
theorem exists_parseSpf {depth : ℕ} (domain : Str) (spf : Option Str) {st : State}
    (hst : maxQueries - st.numQueries < depth) :
    ∃ r, parseSpf sets maxQueries zone depth domain spf st = some r := by
  induction depth generalizing domain spf st with
  | zero => exact absurd hst (Nat.not_lt_zero _)
  | succ depth ih =>
    cases spf with
    | none => exact ⟨_, parseSpf_none _ _ _⟩
    | some spf =>
      have hincluded : ∃ q, parseIncluded sets maxQueries zone (parseSpf sets maxQueries zone depth)
          (parseTags domain spf) st = some q := by
        unfold parseIncluded
        split_ifs
        · exact ⟨_, rfl⟩
        · exact exists_includedLoop (fun _ _ => ⟨_, parseSpf_none _ _ _⟩) (fun d spf _ h => ih d spf h)
            (advances_parseSpf depth) _ _ _ (Nat.le_of_lt_succ hst)
      obtain ⟨q, hq⟩ := hincluded
      rw [parseSpf_succ, hq]
      exact ⟨_, rfl⟩

/-! ### `is_allowed_server_in_spf` -/

/-- **An SPF evaluation ends within its budget**: the query for the record of the sender domain, and
`SPF_MAX_DNS_QUERIES` more at most. -/
theorem isAllowedServerInSpf_terminates (sets : SetOrder Str) (settings : Settings) (zone : Zone)
    (senderDomain ip : Str) :
    ∃ r, (∀ depth, settings.spfMaxDnsQueries < depth →
        isAllowedServerInSpf sets settings zone depth senderDomain ip = some r) ∧
      r.2.length ≤ settings.spfMaxDnsQueries + 1 := by
  unfold isAllowedServerInSpf
  by_cases hempty : senderDomain = [] ∨ ip = []
  · simp only [if_pos hempty]
    exact ⟨_, fun _ _ => rfl, Nat.zero_le _⟩
  simp only [if_neg hempty]
  have hfirst : Advances settings.spfMaxDnsQueries {}
      (querySpf settings.spfMaxDnsQueries zone senderDomain {}).2 := advances_querySpf _ _
  have hcases := @querySpf_cases settings.spfMaxDnsQueries zone senderDomain {}
  -- `parse_spf` counts from 0 again, so the first query comes on top of the budget
  rcases hspf : querySpf settings.spfMaxDnsQueries zone senderDomain {} with ⟨spf, st⟩
  have hcount : st.queries.length = st.numQueries := by
    have h := hfirst.count
    rw [hspf] at h
    simpa using h
  have hone : st.numQueries ≤ 1 := by
    rcases hcases with ⟨-, heq⟩ | ⟨-, -, heq⟩
    · rw [hspf] at heq
      rw [(Prod.mk.inj heq).2]
      exact Nat.zero_le 1
    · rw [hspf] at heq
      rw [(Prod.mk.inj heq).2]
      exact Nat.le_refl 1
  cases spf with
  | none =>
    refine ⟨_, fun _ _ => rfl, ?_⟩
    show st.queries.length ≤ settings.spfMaxDnsQueries + 1
    omega
  | some spf =>
    obtain ⟨q, hq⟩ : ∃ q, parseSpf sets settings.spfMaxDnsQueries zone
        (settings.spfMaxDnsQueries + 1) senderDomain (some spf)
        { st with returnedIps := [], numQueries := 0 } = some q :=
      exists_parseSpf senderDomain (some spf) (Nat.lt_succ_self _)
    refine ⟨(isListed ip q.1, q.2.queries), fun depth hdepth => ?_, ?_⟩
    · simp only [parseSpf_mono (Nat.succ_le_of_lt hdepth) hq]
      rfl
    · have hadvances := advances_parseSpf _ _ _ _ q hq
      have h₁ := hadvances.count
      have h₂ := hadvances.le_max (Nat.zero_le _)
      show q.2.queries.length ≤ settings.spfMaxDnsQueries + 1
      simp only at h₁
      omega

end IRedAPD.Dnsspf

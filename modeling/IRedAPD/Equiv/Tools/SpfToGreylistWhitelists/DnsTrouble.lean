/-
  What a run leaves of the rows of a domain whose DNS queries fail.

  A query that fails is an answer without addresses, so the domain gets an empty
  set in `domain_ips`, and its old rows are deleted with nothing to insert.  They
  stay when the loop never asks for the domain, since its SPF record has been
  asked for on account of another one, and when the run finds no address at all
  (`keepsRows_iff`).
-/
import IRedAPD.Equiv.Tools.SpfToGreylistWhitelists

namespace IRedAPD.SpfToGreylistWhitelists

open Py Dnsspf LibGl

variable [Unicode] {settings : Settings} {r : Run}

/-! ### The loop of queries -/

/-- The state when the loop has gone through the domains. -/
def queried (settings : Settings) (r : Run) : List Str → State → State
  | [], st => st
  | domain :: domains, st =>
    if st.queriedDomains.contains (spfMark domain) then queried settings r domains st
    else queried settings r domains (queryDomain settings r domain st).2

/-- The loop asks for a domain of the list, in a state as described: its record has not been asked
for before. -/
def AsksFor (settings : Settings) (r : Run) (p : Str → State → Prop) (ds : List Str) (st : State) :
    Prop :=
  ∃ before d after, ds = before ++ d :: after ∧
    spfMark d ∉ (queried settings r before st).queriedDomains ∧ p d (queried settings r before st)

/-- The domain is asked for. -/
def Asks (settings : Settings) (r : Run) (d : Str) : List Str → State → Prop :=
  AsksFor settings r fun e _ => e = d

/-- A domain is asked for that has an address. -/
def FindsAddress (settings : Settings) (r : Run) : List Str → State → Prop :=
  AsksFor settings r fun d st => (queryDomain settings r d st).1 ≠ []

theorem queried_cons (e : Str) (ds : List Str) (st : State) :
    queried settings r (e :: ds) st = queried settings r ds (queried settings r [e] st) := by
  simp only [queried]
  split_ifs
  · rfl
  · rfl

theorem asksFor_cons {p : Str → State → Prop} {e : Str} {ds : List Str} {st : State} :
    AsksFor settings r p (e :: ds) st ↔
      (spfMark e ∉ st.queriedDomains ∧ p e st) ∨
        AsksFor settings r p ds (queried settings r [e] st) := by
  constructor
  · rintro ⟨before, d, after, heq, hnew⟩
    cases before with
    | nil =>
      obtain ⟨rfl, -⟩ := List.cons.inj heq
      exact .inl hnew
    | cons e' before =>
      obtain ⟨rfl, hds⟩ := List.cons.inj heq
      rw [queried_cons] at hnew
      exact .inr ⟨before, d, after, hds, hnew⟩
  · rintro (hnew | ⟨before, d, after, hds, hnew⟩)
    · exact ⟨[], e, ds, rfl, hnew⟩
    · rw [← queried_cons] at hnew
      exact ⟨e :: before, d, after, by rw [hds]; rfl, hnew⟩

theorem not_asksFor_nil {p : Str → State → Prop} {st : State} : ¬AsksFor settings r p [] st := by
  rintro ⟨before, d, after, heq, -⟩
  exact absurd heq.symm (by simp)

theorem queryLoop_cons (e : Str) (ds : List Str) (domainIps : Dict Str (List Str)) (st : State) :
    queryLoop settings r (e :: ds) domainIps st =
      if st.queriedDomains.contains (spfMark e) then queryLoop settings r ds domainIps st
      else queryLoop settings r ds (domainIps.set e (r.sets.order (queryDomain settings r e st).1))
        (queryDomain settings r e st).2 := rfl

/-- The domains of the result are those that are asked for. -/
theorem mem_keys_queryLoop (ds : List Str) (domainIps : Dict Str (List Str)) (st : State) {d : Str} :
    d ∈ (queryLoop settings r ds domainIps st).map Prod.fst ↔
      d ∈ domainIps.map Prod.fst ∨ Asks settings r d ds st := by
  induction ds generalizing domainIps st with
  | nil =>
    show d ∈ domainIps.map Prod.fst ↔ _
    exact (or_iff_left not_asksFor_nil).symm
  | cons e ds ih =>
    unfold Asks
    rw [asksFor_cons]
    rw [queryLoop_cons]
    unfold queried
    by_cases hmark : st.queriedDomains.contains (spfMark e) = true
    · have hmem := List.contains_iff_mem.mp hmark
      rw [if_pos hmark, if_pos hmark, ih]
      exact or_congr_right (or_iff_right fun h => h.1 hmem).symm
    · have hmem : spfMark e ∉ st.queriedDomains := by rwa [← List.contains_iff_mem]
      rw [if_neg hmark, if_neg hmark, ih, Dict.mem_keys_set, eq_comm, or_comm (a := e = d), or_assoc]
      exact or_congr_right (or_congr_left (and_iff_right hmem).symm)

/-! ### What is asked for a domain -/

theorem queriedDomains_queryDomain (d : Str) (st : State) :
    st.queriedDomains ⊆ (queryDomain settings r d st).2.queriedDomains ∧
      (0 < settings.spfMaxDnsQueries → spfMark d ∈ (queryDomain settings r d st).2.queriedDomains) := by
  have hspf := (@advances_querySpf settings.spfMaxDnsQueries r.zone d { st with numQueries := 0 }).marks
  have hmark : 0 < settings.spfMaxDnsQueries → spfMark d ∈
      (querySpf settings.spfMaxDnsQueries r.zone d { st with numQueries := 0 }).2.queriedDomains := by
    intro hmax
    rcases @querySpf_cases settings.spfMaxDnsQueries r.zone d { st with numQueries := 0 } with
      ⟨hmarked | hle, heq⟩ | ⟨-, -, heq⟩
    · rw [heq]
      exact hmarked
    · exact absurd hmax (Nat.not_lt_of_le hle)
    · rw [heq]
      exact List.mem_cons_self ..
  unfold queryDomain
  revert hspf hmark
  rcases querySpf settings.spfMaxDnsQueries r.zone d { st with numQueries := 0 } with ⟨_ | spf, st'⟩
  · intro hspf hmark
    have hmx := (@advances_queryMx _ r.sets settings.spfMaxDnsQueries r.zone [d]
      { st' with numQueries := 0 }).marks
    exact ⟨List.Subset.trans hspf hmx, fun hmax => hmx (hmark hmax)⟩
  · intro hspf hmark
    obtain ⟨q, hq⟩ : ∃ q, parseSpf r.sets settings.spfMaxDnsQueries r.zone
        (settings.spfMaxDnsQueries + 1) d (some spf) { st' with numQueries := 0 } = some q :=
      exists_parseSpf d (some spf) (Nat.lt_succ_self _)
    have hmarks := (advances_parseSpf _ _ _ _ q hq).marks
    simp only [hq, Option.get_some]
    exact ⟨List.Subset.trans hspf hmarks, fun hmax => hmarks (hmark hmax)⟩

/-- Without queries there are no addresses. -/
theorem queryDomain_of_max_eq_zero (hmax : settings.spfMaxDnsQueries = 0) (d : Str) (st : State) :
    (queryDomain settings r d st).1 = [] := by
  have hspf : querySpf settings.spfMaxDnsQueries r.zone d { st with numQueries := 0 } =
      (none, { st with numQueries := 0 }) := by
    unfold querySpf
    rw [if_pos (by simp [hmax])]
  unfold queryDomain
  simp only [hspf]
  unfold queryMx
  cases ([d].filter fun d => !st.queriedDomains.contains d) with
  | nil => rfl
  | cons e ds =>
    unfold queryMxLoop
    rw [if_pos (by simp [hmax])]

/-- A domain whose queries fail has no address. -/
theorem queryDomain_of_fails {d : Str} (htxt : r.zone.txt d = none) (hmx : r.zone.mx d = none)
    (st : State) : (queryDomain settings r d st).1 = [] := by
  have hspf : (querySpf settings.spfMaxDnsQueries r.zone d { st with numQueries := 0 }).1 = none := by
    rcases @querySpf_cases settings.spfMaxDnsQueries r.zone d { st with numQueries := 0 } with
      ⟨-, heq⟩ | ⟨-, -, heq⟩
    · rw [heq]
    · rw [heq, htxt]
      rfl
  unfold queryDomain
  rcases hq : querySpf settings.spfMaxDnsQueries r.zone d { st with numQueries := 0 } with ⟨spf, st'⟩
  rw [hq] at hspf
  obtain rfl : spf = none := hspf
  simp only
  unfold queryMx
  by_cases hmarked : st'.queriedDomains.contains d = true
  · rw [List.filter_cons_of_neg (by simpa using hmarked)]
    rfl
  · rw [List.filter_cons_of_pos (by simpa using hmarked)]
    unfold queryMxLoop
    rw [hmx]
    split_ifs
    · rfl
    · rfl

/-- Its set of addresses is empty. -/
theorem eq_nil_of_mem_queryLoop {d : Str} (htxt : r.zone.txt d = none) (hmx : r.zone.mx d = none)
    (ds : List Str) {domainIps : Dict Str (List Str)} (hips : ∀ ips, (d, ips) ∈ domainIps → ips = [])
    (st : State) : ∀ ips, (d, ips) ∈ queryLoop settings r ds domainIps st → ips = [] := by
  induction ds generalizing domainIps st with
  | nil => exact hips
  | cons e ds ih =>
    rw [queryLoop_cons]
    by_cases hmark : st.queriedDomains.contains (spfMark e) = true
    · rw [if_pos hmark]
      exact ih hips st
    · rw [if_neg hmark]
      refine ih (fun ips hmem => ?_) _
      rcases Dict.mem_set hmem with hmem | ⟨hd, hips'⟩
      · exact hips ips hmem
      · obtain rfl : d = e := hd
        rw [show ips = _ from hips', queryDomain_of_fails htxt hmx, SetOrder.order_nil]

theorem eq_nil_of_max_eq_zero (hmax : settings.spfMaxDnsQueries = 0) (ds : List Str)
    {domainIps : Dict Str (List Str)} (hips : ∀ p ∈ domainIps, p.2 = []) (st : State) :
    ∀ p ∈ queryLoop settings r ds domainIps st, p.2 = [] := by
  induction ds generalizing domainIps st with
  | nil => exact hips
  | cons e ds ih =>
    rw [queryLoop_cons]
    by_cases hmark : st.queriedDomains.contains (spfMark e) = true
    · rw [if_pos hmark]
      exact ih hips st
    · rw [if_neg hmark]
      refine ih (fun p hmem => ?_) _
      rcases Dict.mem_set hmem with hmem | heq
      · exact hips p hmem
      · rw [heq.2, queryDomain_of_max_eq_zero hmax, SetOrder.order_nil]

/-- The result holds an address exactly when the loop finds one: no domain is asked for again. -/
theorem exists_address_queryLoop (hmax : 0 < settings.spfMaxDnsQueries) (ds : List Str)
    {domainIps : Dict Str (List Str)} {st : State}
    (hmarked : ∀ k ∈ domainIps.map Prod.fst, spfMark k ∈ st.queriedDomains) :
    (∃ p ∈ queryLoop settings r ds domainIps st, p.2 ≠ []) ↔
      (∃ p ∈ domainIps, p.2 ≠ []) ∨ FindsAddress settings r ds st := by
  induction ds generalizing domainIps st with
  | nil => exact (or_iff_left not_asksFor_nil).symm
  | cons e ds ih =>
    unfold FindsAddress
    rw [asksFor_cons]
    rw [queryLoop_cons]
    unfold queried
    by_cases hmark : st.queriedDomains.contains (spfMark e) = true
    · have hmem := List.contains_iff_mem.mp hmark
      rw [if_pos hmark, if_pos hmark, ih hmarked]
      exact or_congr_right (or_iff_right fun h => h.1 hmem).symm
    · have hmem : spfMark e ∉ st.queriedDomains := by rwa [← List.contains_iff_mem]
      obtain ⟨hsub, hnew⟩ := @queriedDomains_queryDomain _ settings r e st
      rw [if_neg hmark, if_neg hmark, ih, Dict.set_of_notMem (fun hkey => hmem (hmarked e hkey))]
      · simp only [List.mem_append, List.mem_singleton, or_and_right, exists_or, exists_eq_left, or_assoc]
        refine or_congr_right (or_congr_left ?_)
        rw [ne_eq, SetOrder.order_eq_nil, and_iff_right hmem]
      · intro k hk
        rcases Dict.mem_keys_set.mp hk with rfl | hk
        · exact hnew hmax
        · exact hsub (hmarked k hk)

theorem exists_address_domainIps (t : Tables) :
    (∃ p ∈ domainIps settings r t, p.2 ≠ []) ↔ FindsAddress settings r (domains r t) {} := by
  unfold domainIps
  rcases Nat.eq_zero_or_pos settings.spfMaxDnsQueries with hmax | hmax
  · constructor
    · rintro ⟨p, hp, hne⟩
      exact absurd (eq_nil_of_max_eq_zero hmax _ (by simp) _ p hp) hne
    · rintro ⟨_, d, _, -, -, hne⟩
      exact absurd (queryDomain_of_max_eq_zero hmax d _) hne
  · rw [exists_address_queryLoop hmax _ (by simp)]
    simp

/-! ### The import -/

omit [Unicode] in
theorem whitelistDomainSpf_submitDomains (ds : List Str) (t : Tables) :
    (ds.foldl submitDomain t).whitelistDomainSpf = t.whitelistDomainSpf := by
  induction ds generalizing t with
  | nil => rfl
  | cons domain ds ih =>
    rw [List.foldl_cons, ih]
    exact (submitDomain_whitelists t domain).1

omit [Unicode] in
/-- The import of an empty set deletes the rows of the domain. -/
theorem notMem_importDomains {d : Str} {ps : Dict Str (List Str)} (hps : (ps.map Prod.fst).Nodup)
    (hd : d ∈ ps.map Prod.fst) (hempty : ∀ ips, (d, ips) ∈ ps → ips = []) (t : Tables)
    {row : ℕ × WhitelistRow} (hrow : row.2.comment = autoUpdate d) :
    row ∉ (ps.foldl importDomain t).whitelistDomainSpf.rows := by
  obtain ⟨⟨d', ips⟩, hmem, rfl⟩ := List.mem_map.mp hd
  obtain rfl := hempty ips hmem
  obtain ⟨pre, post, rfl⟩ := List.append_of_mem hmem
  rw [List.map_append, List.map_cons] at hps
  have hpost := (List.nodup_cons.mp (List.nodup_append.mp hps).2.1).1
  rw [List.foldl_append, List.foldl_cons, mem_importDomains_of_notMem hpost _ hrow]
  intro hrow'
  obtain ⟨ip, hip, -⟩ := importDomain_self.mp ⟨row, hrow', hrow⟩
  cases hip

/-- **A row of the domain stays** exactly when the run finds no address or does not ask for the
domain. -/
theorem mem_main_iff {d : Str} {t : Tables} (hd : d ∈ domains r t) (htxt : r.zone.txt d = none)
    (hmx : r.zone.mx d = none) {row : ℕ × WhitelistRow} (hrow : row.2.comment = autoUpdate d) :
    row ∈ (main settings r t).whitelistDomainSpf.rows ↔ row ∈ t.whitelistDomainSpf.rows ∧
      (¬FindsAddress settings r (domains r t) {} ∨ ¬Asks settings r d (domains r t) {}) := by
  have hdomains : ¬(domains r t).isEmpty = true := by
    rw [List.isEmpty_iff]
    exact List.ne_nil_of_mem hd
  unfold main
  rw [if_neg hdomains]
  simp only
  by_cases hfinds : FindsAddress settings r (domains r t) {}
  · obtain ⟨p, hp, hne⟩ := (exists_address_domainIps t).mpr hfinds
    have hsome : ¬((domainIps settings r t).all fun p => p.2.isEmpty) = true := by
      intro hall
      exact hne (List.isEmpty_iff.mp (List.all_eq_true.mp hall p hp))
    have hsubmit : ∀ t',
        (if r.submitToSqlDb then (domains r t).foldl submitDomain t' else t').whitelistDomainSpf =
          t'.whitelistDomainSpf := by
      intro t'
      split_ifs
      · exact whitelistDomainSpf_submitDomains _ _
      · rfl
    rw [if_neg hsome, hsubmit]
    have hkeys : d ∈ (domainIps settings r t).map Prod.fst ↔ Asks settings r d (domains r t) {} := by
      unfold domainIps
      rw [mem_keys_queryLoop]
      exact or_iff_right List.not_mem_nil
    rw [← hkeys]
    by_cases hkey : d ∈ (domainIps settings r t).map Prod.fst
    · have hgone := notMem_importDomains (nodup_keys_domainIps t) hkey
        (eq_nil_of_mem_queryLoop htxt hmx _ (by simp) _) t hrow
      exact iff_of_false hgone fun h => h.2.elim (absurd hfinds) (absurd hkey)
    · rw [mem_importDomains_of_notMem hkey _ hrow]
      exact (and_iff_left (.inr hkey)).symm
  · have hnone : ((domainIps settings r t).all fun p => p.2.isEmpty) = true := by
      rw [List.all_eq_true]
      intro p hp
      by_contra hne
      exact hfinds ((exists_address_domainIps t).mp ⟨p, hp, fun hnil => hne (List.isEmpty_iff.mpr hnil)⟩)
    rw [if_pos hnone]
    exact (and_iff_left (.inl hfinds)).symm

/-- **The rows of a domain whose queries fail stay** exactly when there are none, the run finds no
address, or the loop does not ask for the domain. -/
theorem keepsRows_iff {d : Str} {t : Tables} (hd : d ∈ domains r t) (htxt : r.zone.txt d = none)
    (hmx : r.zone.mx d = none) :
    (∀ row ∈ t.whitelistDomainSpf.rows, row.2.comment = autoUpdate d →
        row ∈ (main settings r t).whitelistDomainSpf.rows) ↔
      ((∃ row ∈ t.whitelistDomainSpf.rows, row.2.comment = autoUpdate d) →
        ¬FindsAddress settings r (domains r t) {} ∨ ¬Asks settings r d (domains r t) {}) := by
  constructor
  · rintro hkeeps ⟨row, hmem, hrow⟩
    exact ((mem_main_iff hd htxt hmx hrow).mp (hkeeps row hmem hrow)).2
  · intro hcondition row hmem hrow
    exact (mem_main_iff hd htxt hmx hrow).mpr ⟨hmem, hcondition ⟨row, hmem, hrow⟩⟩

/-- An address imported for `y.com` by an earlier run. -/
def importedTables : Tables where
  whitelistDomainSpf := Sql.Table.empty.push ⟨{ account := "@.", sender := "5.6.7.8" }, autoUpdate "y.com"⟩
    (by
      intro row hrow
      cases hrow)

omit [Unicode] in
theorem keepsRows_alone :
    letI := asciiUnicode
    let r : Run := { args := ["y.com".toList], zone := singleZone }
    "y.com".toList ∈ domains r importedTables ∧ r.zone.txt "y.com" = none ∧ r.zone.mx "y.com" = none ∧
      ((∀ row ∈ importedTables.whitelistDomainSpf.rows, row.2.comment = autoUpdate "y.com" →
          row ∈ (main {} r importedTables).whitelistDomainSpf.rows) ↔
        ((∃ row ∈ importedTables.whitelistDomainSpf.rows, row.2.comment = autoUpdate "y.com") →
          ¬FindsAddress {} r (domains r importedTables) {} ∨
            ¬Asks {} r "y.com" (domains r importedTables) {})) := by
  let := asciiUnicode
  have hd : "y.com".toList ∈ domains { args := ["y.com".toList], zone := singleZone } importedTables := by
    decide
  have htxt : singleZone.txt "y.com" = none := by decide
  exact ⟨hd, htxt, rfl, @keepsRows_iff asciiUnicode {} _ _ _ hd htxt rfl⟩

omit [Unicode] in
/-- A domain with an address in the same run. -/
theorem failing_domain_wiped :
    letI := asciiUnicode
    let r : Run := { args := ["x.com".toList, "y.com".toList], zone := singleZone }
    "y.com".toList ∈ domains r importedTables ∧ r.zone.txt "y.com" = none ∧ r.zone.mx "y.com" = none ∧
      r.zone.a "y.com" = none ∧
      ¬∀ row ∈ importedTables.whitelistDomainSpf.rows, row.2.comment = autoUpdate "y.com" →
        row ∈ (main {} r importedTables).whitelistDomainSpf.rows := by
  let := asciiUnicode
  exact ⟨by decide, by decide, rfl, rfl, by decide +kernel⟩

end IRedAPD.SpfToGreylistWhitelists

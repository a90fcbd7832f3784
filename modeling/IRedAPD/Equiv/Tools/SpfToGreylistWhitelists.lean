/-
  What removing a whitelisted domain leaves of what the tool has imported.

  The tool writes to `greylisting_whitelist_domain_spf`, and the library deletes
  from `greylisting_whitelists`.  So the removal undoes the runs exactly when
  they had nothing to insert for the domain: a run leaves a row for it only
  where it imports an address that is not listed (`clean_main_iff`), and then
  the row stays (`undoes_iff`).
-/
import IRedAPD.Equiv.Libs.Greylisting
import IRedAPD.Tools.SpfToGreylistWhitelists

namespace IRedAPD.SpfToGreylistWhitelists

open Py Dnsspf LibGl

/-! ### The import of addresses -/

theorem autoUpdate_inj {d d' : Str} : autoUpdate d = autoUpdate d' ↔ d = d' := by
  unfold autoUpdate
  exact List.append_right_inj _

/-- What the import of an address stores. -/
theorem mem_importIp {comment : Str} {t : Tables} {ip : Str} {row : ℕ × WhitelistRow} :
    row ∈ (importIp comment t ip).whitelistDomainSpf.rows ↔
      row ∈ t.whitelistDomainSpf.rows ∨
        (t.whitelistDomainSpf.find? ("@.".toList, ip) = none ∧
          row = (t.whitelistDomainSpf.nextId, ⟨{ account := "@.", sender := ip }, comment⟩)) := by
  unfold importIp
  cases hinsert : t.whitelistDomainSpf.insert ⟨{ account := "@.", sender := ip }, comment⟩ with
  | none =>
    have hfound := Sql.Table.insert_eq_none_iff.mp hinsert
    constructor
    · exact .inl
    · rintro (hrow | ⟨hnone, -⟩)
      · exact hrow
      · exact absurd hnone hfound
  | some w =>
    have hnone : t.whitelistDomainSpf.find? ("@.".toList, ip) = none :=
      Sql.Table.find?_of_insert hinsert
    show row ∈ w.rows ↔ _
    rw [Sql.Table.mem_rows_insert hinsert]
    exact or_congr_right ⟨fun hrow => ⟨hnone, hrow⟩, And.right⟩

/-- The import of addresses leaves the rows with another comment. -/
theorem mem_importIps {comment : Str} (ips : List Str) (t : Tables) {row : ℕ × WhitelistRow}
    (hrow : row.2.comment ≠ comment) :
    row ∈ (ips.foldl (importIp comment) t).whitelistDomainSpf.rows ↔
      row ∈ t.whitelistDomainSpf.rows := by
  induction ips generalizing t with
  | nil => exact Iff.rfl
  | cons ip ips ih =>
    rw [List.foldl_cons, ih, mem_importIp]
    constructor
    · rintro (hmem | ⟨-, rfl⟩)
      · exact hmem
      · exact absurd rfl hrow
    · exact .inl

/-- There is a row with the comment when there was one, or when an address was new. -/
theorem exists_importIps (comment : Str) (ips : List Str) (t : Tables) :
    (∃ row ∈ (ips.foldl (importIp comment) t).whitelistDomainSpf.rows, row.2.comment = comment) ↔
      (∃ row ∈ t.whitelistDomainSpf.rows, row.2.comment = comment) ∨
        ∃ ip ∈ ips, t.whitelistDomainSpf.find? ("@.".toList, ip) = none := by
  induction ips generalizing t with
  | nil => simp
  | cons ip ips ih =>
    rw [List.foldl_cons, ih]
    by_cases hnew : t.whitelistDomainSpf.find? ("@.".toList, ip) = none
    · -- the address is inserted
      have hrow : ∃ row ∈ (importIp comment t ip).whitelistDomainSpf.rows,
          row.2.comment = comment := ⟨_, mem_importIp.mpr (.inr ⟨hnew, rfl⟩), rfl⟩
      exact iff_of_true (.inl hrow) (.inr ⟨ip, List.mem_cons_self .., hnew⟩)
    · have hsame : importIp comment t ip = t := by
        have hinsert : t.whitelistDomainSpf.insert ⟨{ account := "@.", sender := ip }, comment⟩ = none :=
          Sql.Table.insert_eq_none_iff.mpr hnew
        unfold importIp
        rw [hinsert]
      rw [hsame]
      refine or_congr_right ⟨?_, ?_⟩
      · rintro ⟨x, hx, hnone⟩
        exact ⟨x, List.mem_cons_of_mem _ hx, hnone⟩
      · rintro ⟨x, hx, hnone⟩
        rcases List.mem_cons.mp hx with rfl | hx
        · exact absurd hnone hnew
        · exact ⟨x, hx, hnone⟩

theorem whitelists_importIps (comment : Str) (ips : List Str) (t : Tables) :
    (ips.foldl (importIp comment) t).whitelists = t.whitelists := by
  induction ips generalizing t with
  | nil => rfl
  | cons ip ips ih =>
    rw [List.foldl_cons, ih]
    unfold importIp
    split <;> rfl

/-! ### The import of domains -/

/-- No row that was imported for the domain is left. -/
structure Clean (d : Str) (t : Tables) : Prop where
  domainSpf : ∀ row ∈ t.whitelistDomainSpf.rows, row.2.comment ≠ autoUpdate d
  whitelists : ∀ row ∈ t.whitelists.rows, row.2.comment ≠ autoUpdate d

/-- An address is listed for everybody, and not on account of the domain. -/
def Listed (d ip : Str) (t : Tables) : Prop :=
  ∃ row ∈ t.whitelistDomainSpf.rows, row.2.key = ("@.".toList, ip) ∧ row.2.comment ≠ autoUpdate d

theorem mem_importDomain_of_ne {d : Str} {p : Str × List Str} (hp : p.1 ≠ d) {t : Tables}
    {row : ℕ × WhitelistRow} (hrow : row.2.comment = autoUpdate d) :
    row ∈ (importDomain t p).whitelistDomainSpf.rows ↔ row ∈ t.whitelistDomainSpf.rows := by
  have hother : row.2.comment ≠ autoUpdate p.1 := by
    rw [hrow, ne_eq, autoUpdate_inj]
    exact hp.symm
  unfold importDomain
  rw [mem_importIps _ _ hother]
  show row ∈ (t.whitelistDomainSpf.delete _).rows ↔ _
  rw [Sql.Table.mem_rows_delete, decide_eq_false_iff_not]
  exact ⟨And.left, fun hmem => ⟨hmem, hother⟩⟩

/-- The import of the domain leaves no row of its own when all its addresses were listed. -/
theorem importDomain_self {d : Str} {ips : List Str} {t : Tables} :
    (∃ row ∈ (importDomain t (d, ips)).whitelistDomainSpf.rows, row.2.comment = autoUpdate d) ↔
      ∃ ip ∈ ips, ¬Listed d ip t := by
  unfold importDomain
  rw [exists_importIps]
  have hdeleted : ¬∃ row ∈ (deleteOld (autoUpdate d) t).whitelistDomainSpf.rows,
      row.2.comment = autoUpdate d := by
    rintro ⟨row, hrow, hcomment⟩
    exact of_decide_eq_false (Sql.Table.mem_rows_delete.mp hrow).2 hcomment
  have hlisted : ∀ ip, (deleteOld (autoUpdate d) t).whitelistDomainSpf.find? ("@.".toList, ip) = none ↔
      ¬Listed d ip t := by
    intro ip
    rw [Sql.Table.find?_eq_none_iff]
    constructor
    · rintro hnone ⟨row, hrow, hkey, hcomment⟩
      exact hnone row (Sql.Table.mem_rows_delete.mpr ⟨hrow, decide_eq_false hcomment⟩) hkey
    · intro hno row hrow hkey
      obtain ⟨hmem, hcomment⟩ := Sql.Table.mem_rows_delete.mp hrow
      exact hno ⟨row, hmem, hkey, of_decide_eq_false hcomment⟩
  constructor
  · rintro (hrow | ⟨ip, hip, hnone⟩)
    · exact absurd hrow hdeleted
    · exact ⟨ip, hip, (hlisted ip).mp hnone⟩
  · rintro ⟨ip, hip, hno⟩
    exact .inr ⟨ip, hip, (hlisted ip).mpr hno⟩

theorem mem_importDomains_of_notMem {d : Str} {ps : Dict Str (List Str)} (hd : d ∉ ps.map Prod.fst)
    (t : Tables) {row : ℕ × WhitelistRow} (hrow : row.2.comment = autoUpdate d) :
    row ∈ (ps.foldl importDomain t).whitelistDomainSpf.rows ↔ row ∈ t.whitelistDomainSpf.rows := by
  induction ps generalizing t with
  | nil => exact Iff.rfl
  | cons p ps ih =>
    rw [List.map_cons, List.mem_cons, not_or] at hd
    rw [List.foldl_cons, ih hd.2, mem_importDomain_of_ne (Ne.symm hd.1) hrow]

theorem whitelists_importDomains (ps : Dict Str (List Str)) (t : Tables) {row : ℕ × WhitelistRow}
    (hrow : row ∈ (ps.foldl importDomain t).whitelists.rows) : row ∈ t.whitelists.rows := by
  induction ps generalizing t with
  | nil => exact hrow
  | cons p ps ih =>
    have hmem := ih (importDomain t p) hrow
    unfold importDomain at hmem
    rw [whitelists_importIps] at hmem
    exact (Sql.Table.mem_rows_delete.mp hmem).1

/-- When the import comes to the domain, one of its addresses is not listed. -/
def ImportsNew (d : Str) (ps : Dict Str (List Str)) (t : Tables) : Prop :=
  ∃ pre ips post, ps = pre ++ (d, ips) :: post ∧ ∃ ip ∈ ips, ¬Listed d ip (pre.foldl importDomain t)

theorem importsNew_cons {d : Str} {p : Str × List Str} {ps : Dict Str (List Str)} {t : Tables} :
    ImportsNew d (p :: ps) t ↔
      (p.1 = d ∧ ∃ ip ∈ p.2, ¬Listed d ip t) ∨ ImportsNew d ps (importDomain t p) := by
  constructor
  · rintro ⟨pre, ips, post, heq, hnew⟩
    cases pre with
    | nil =>
      obtain ⟨rfl, -⟩ := List.cons.inj heq
      exact .inl ⟨rfl, hnew⟩
    | cons q pre =>
      rw [List.cons_append] at heq
      obtain ⟨rfl, rfl⟩ := List.cons.inj heq
      exact .inr ⟨pre, ips, post, rfl, hnew⟩
  · rintro (⟨rfl, hnew⟩ | ⟨pre, ips, post, rfl, hnew⟩)
    · exact ⟨[], p.2, ps, rfl, hnew⟩
    · exact ⟨p :: pre, ips, post, rfl, hnew⟩

theorem mem_keys_of_importsNew {d : Str} {ps : Dict Str (List Str)} {t : Tables}
    (h : ImportsNew d ps t) : d ∈ ps.map Prod.fst := by
  obtain ⟨pre, ips, post, rfl, -⟩ := h
  rw [List.map_append, List.map_cons]
  exact List.mem_append_right _ (List.mem_cons_self ..)

/-- **The import leaves a row for the domain exactly when it finds an address that is not listed.** -/
theorem clean_importDomains_iff {d : Str} {ps : Dict Str (List Str)} (hps : (ps.map Prod.fst).Nodup)
    {t : Tables} (ht : Clean d t) : Clean d (ps.foldl importDomain t) ↔ ¬ImportsNew d ps t := by
  induction ps generalizing t with
  | nil =>
    refine iff_of_true ht ?_
    rintro ⟨pre, ips, post, heq, -⟩
    cases pre <;> cases heq
  | cons p ps ih =>
    obtain ⟨hp, hps⟩ := List.nodup_cons.mp hps
    have hwhitelists : ∀ row ∈ (importDomain t p).whitelists.rows, row.2.comment ≠ autoUpdate d :=
      fun row hrow => ht.whitelists row (whitelists_importDomains [p] t hrow)
    rw [List.foldl_cons, importsNew_cons, not_or]
    by_cases hd : p.1 = d
    · -- its own import, and nothing for it later
      subst hd
      have hlater : ¬ImportsNew p.1 ps (importDomain t p) := fun h => hp (mem_keys_of_importsNew h)
      rw [and_iff_left hlater, and_iff_right rfl, ← importDomain_self]
      constructor
      · rintro hclean ⟨row, hrow, hcomment⟩
        exact hclean.domainSpf row ((mem_importDomains_of_notMem hp _ hcomment).mpr hrow) hcomment
      · intro hno
        refine ⟨fun row hrow hcomment => hno ⟨row, ?_, hcomment⟩, fun row hrow =>
          hwhitelists row (whitelists_importDomains ps _ hrow)⟩
        exact (mem_importDomains_of_notMem hp _ hcomment).mp hrow
    · have hclean : Clean d (importDomain t p) := by
        refine ⟨fun row hrow hcomment => ?_, hwhitelists⟩
        exact ht.domainSpf row ((mem_importDomain_of_ne hd hcomment).mp hrow) hcomment
      rw [and_iff_right fun h => hd h.1]
      exact ih hps hclean

/-! ### A run -/

section Run

variable [Unicode] {settings : Settings} {r : Run}

/-- No domain occurs twice. -/
theorem nodup_keys_queryLoop (ds : List Str) {domainIps : Dict Str (List Str)}
    (h : (domainIps.map Prod.fst).Nodup) (st : State) :
    ((queryLoop settings r ds domainIps st).map Prod.fst).Nodup := by
  induction ds generalizing domainIps st with
  | nil => exact h
  | cons domain ds ih =>
    unfold queryLoop
    split_ifs
    · exact ih h st
    · exact ih (Dict.nodup_keys_set h _ _) _

theorem nodup_keys_domainIps (t : Tables) : ((domainIps settings r t).map Prod.fst).Nodup :=
  @nodup_keys_queryLoop _ settings r _ [] List.nodup_nil _

/-- A run finds an address for the domain that is not listed. -/
def Imports (settings : Settings) (d : Str) (r : Run) (t : Tables) : Prop :=
  ImportsNew d (domainIps settings r t) t

omit [Unicode] in
theorem submitDomain_whitelists (t : Tables) (domain : Str) :
    (submitDomain t domain).whitelistDomainSpf = t.whitelistDomainSpf ∧
      (submitDomain t domain).whitelists = t.whitelists := by
  unfold submitDomain
  split <;> exact ⟨rfl, rfl⟩

omit [Unicode] in
theorem clean_submitDomains_iff {d : Str} (ds : List Str) (t : Tables) :
    Clean d (ds.foldl submitDomain t) ↔ Clean d t := by
  induction ds generalizing t with
  | nil => exact Iff.rfl
  | cons domain ds ih =>
    obtain ⟨hspf, hwhitelists⟩ := submitDomain_whitelists t domain
    rw [List.foldl_cons, ih]
    constructor
    · exact fun h => ⟨hspf ▸ h.domainSpf, hwhitelists ▸ h.whitelists⟩
    · exact fun h => ⟨hspf.symm ▸ h.domainSpf, hwhitelists.symm ▸ h.whitelists⟩

omit [Unicode] in
theorem whitelists_submitDomains (ds : List Str) (t : Tables) :
    (ds.foldl submitDomain t).whitelists = t.whitelists := by
  induction ds generalizing t with
  | nil => rfl
  | cons domain ds ih =>
    rw [List.foldl_cons, ih]
    exact (submitDomain_whitelists t domain).2

/-- A run stores nothing in `greylisting_whitelists`. -/
theorem whitelists_main (t : Tables) {row : ℕ × WhitelistRow}
    (hrow : row ∈ (main settings r t).whitelists.rows) : row ∈ t.whitelists.rows := by
  unfold main at hrow
  simp only at hrow
  split_ifs at hrow
  · exact hrow
  · exact hrow
  · rw [whitelists_submitDomains] at hrow
    exact whitelists_importDomains _ t hrow
  · exact whitelists_importDomains _ t hrow

/-- **A run leaves a row for the domain exactly when it imports an address for it.** -/
theorem clean_main_iff {d : Str} {t : Tables} (ht : Clean d t) :
    Clean d (main settings r t) ↔ ¬Imports settings d r t := by
  unfold main Imports
  by_cases hdomains : (domains r t).isEmpty = true
  · -- nothing is queried
    have hnil : domainIps settings r t = [] := by
      unfold domainIps
      rw [List.isEmpty_iff.mp hdomains]
      rfl
    rw [if_pos hdomains, hnil]
    exact iff_of_true ht fun h => by cases mem_keys_of_importsNew h
  · rw [if_neg hdomains]
    simp only
    by_cases hempty : ((domainIps settings r t).all fun p => p.2.isEmpty) = true
    · rw [if_pos hempty]
      refine iff_of_true ht ?_
      rintro ⟨pre, ips, post, heq, ip, hip, -⟩
      rw [heq, List.all_eq_true] at hempty
      have hnil := List.isEmpty_iff.mp (hempty (d, ips) (by simp))
      rw [show ips = [] from hnil] at hip
      cases hip
    · rw [if_neg hempty, ← clean_importDomains_iff (nodup_keys_domainIps t) ht]
      split_ifs
      · exact clean_submitDomains_iff _ _
      · exact Iff.rfl

/-! ### Runs -/

/-- Runs one after another. -/
def runAll (settings : Settings) (runs : List Run) (t : Tables) : Tables :=
  runs.foldl (fun t r => main settings r t) t

theorem whitelists_runAll (runs : List Run) (t : Tables) {row : ℕ × WhitelistRow}
    (hrow : row ∈ (runAll settings runs t).whitelists.rows) : row ∈ t.whitelists.rows := by
  induction runs generalizing t with
  | nil => exact hrow
  | cons r runs ih => exact whitelists_main t (ih (main settings r t) hrow)

/-- No run imports an address for the domain. -/
def Quiet (settings : Settings) (d : Str) (runs : List Run) (t : Tables) : Prop :=
  ∀ pre r post, runs = pre ++ r :: post → ¬Imports settings d r (runAll settings pre t)

theorem quiet_cons {d : Str} {runs : List Run} {t : Tables} :
    Quiet settings d (r :: runs) t ↔
      ¬Imports settings d r t ∧ Quiet settings d runs (main settings r t) := by
  constructor
  · intro h
    refine ⟨h [] r runs rfl, fun pre r' post heq => ?_⟩
    exact h (r :: pre) r' post (by rw [heq, List.cons_append])
  · rintro ⟨hr, hrest⟩ pre r' post heq
    cases pre with
    | nil =>
      obtain ⟨rfl, -⟩ := List.cons.inj heq
      exact hr
    | cons q pre =>
      rw [List.cons_append] at heq
      obtain ⟨rfl, rfl⟩ := List.cons.inj heq
      exact hrest pre r' post rfl

/-- **The domain stays without rows exactly when no run imports an address for it.** -/
theorem clean_runAll_iff {d : Str} {runs : List Run} {t : Tables} (ht : Clean d t) :
    (∀ b, b <+: runs → Clean d (runAll settings b t)) ↔ Quiet settings d runs t := by
  induction runs generalizing t with
  | nil =>
    refine iff_of_true (fun b hb => ?_) fun pre r post heq => ?_
    · rw [List.prefix_nil.mp hb]
      exact ht
    · cases pre <;> cases heq
  | cons r runs ih =>
    rw [quiet_cons]
    constructor
    · intro h
      have hclean : Clean d (main settings r t) := h [r] ⟨runs, rfl⟩
      refine ⟨(clean_main_iff ht).mp hclean, (ih hclean).mp fun b hb => ?_⟩
      exact h (r :: b) (List.cons_prefix_cons.mpr ⟨rfl, hb⟩)
    · rintro ⟨hr, hrest⟩ b hb
      have hclean : Clean d (main settings r t) := (clean_main_iff ht).mpr hr
      cases b with
      | nil => exact ht
      | cons r' b =>
        obtain ⟨rfl, htail⟩ := List.cons_prefix_cons.mp hb
        exact (ih hclean).mpr hrest b htail

/-! ### The library -/

/-- The prefix of the comment changes nothing about the text. -/
theorem isPlain_autoUpdate (d : Str) : Sql.isPlain (autoUpdate d) = Sql.isPlain d := by
  have hname : Sql.isNameChar 'E' = true := by
    unfold Sql.isNameChar
    rw [Unicode.isAlnum_ascii 'E' (by decide)]
    decide
  have hspace : Sql.isNameChar ' ' = false := by
    unfold Sql.isNameChar
    rw [Unicode.isAlnum_ascii ' ' (by decide)]
    decide
  have hquote : Sql.isNameChar '\'' = false := by
    unfold Sql.isNameChar
    rw [Unicode.isAlnum_ascii '\'' (by decide)]
    decide
  -- the colon follows a letter and precedes a blank
  have hbinds : Sql.bindsAfter '\'' (autoUpdate d) = Sql.bindsAfter '\'' d := by
    rw [show autoUpdate d = "AUTO-UPDATE".toList ++ ':' :: ' ' :: d from rfl,
      Sql.bindsAfter_append (by decide), show "AUTO-UPDATE".toList.getLastD '\'' = 'E' from rfl,
      Sql.bindsAfter_of_name hname, Sql.bindsAfter_cons_ne (by decide),
      Sql.bindsAfter_congr (b := '\'') hspace (by decide) (by decide) hquote (by decide) (by decide)]
  have hcontains : ∀ c : Char, "AUTO-UPDATE: ".toList.contains c = false →
      (autoUpdate d).contains c = d.contains c := by
    intro c hc
    unfold autoUpdate
    rw [List.contains_append, hc, Bool.false_or]
  unfold Sql.isPlain
  rw [hbinds, hcontains '\'' (by decide), hcontains '\\' (by decide), hcontains '%' (by decide)]

/-- `remove_whitelisted_domain` when its texts stand for themselves. -/
def removed (d : Str) (t : Tables) : Tables :=
  { t with
    whitelistDomains := t.whitelistDomains.delete fun r => r.2 = d
    whitelists := t.whitelists.delete fun r => r.2.comment = autoUpdate d }

theorem addWhitelistDomain_of_plain (engine : Engine) {d : Str} (hd : isDomain d = true)
    (hplain : Sql.isPlain d = true) (t : Tables) :
    (addWhitelistDomain engine d t).2 = submitDomain t d := by
  have hstatement : statements.IsPlain (.insertDomain d) := by
    intro x hx
    rw [List.mem_singleton.mp hx]
    exact hplain
  unfold addWhitelistDomain submitDomain
  rw [hd, if_neg (by simp)]
  cases hinsert : t.whitelistDomains.insert d with
  | some w =>
    have heffect : statements.effect (.insertDomain d) t = some { t with whitelistDomains := w } := by
      show (t.whitelistDomains.insert d).map _ = _
      rw [hinsert]
      rfl
    rw [execute_of_plain engine hstatement heffect]
    rfl
  | none =>
    have heffect : statements.effect (.insertDomain d) t = none := by
      show (t.whitelistDomains.insert d).map _ = _
      rw [hinsert]
      rfl
    obtain ⟨e, he, hdup⟩ := engine.exec_of_duplicate hstatement heffect
    have hexecute : execute engine (.insertDomain d) t = (.error e, t) := by
      unfold execute
      rw [he]
    rw [hexecute]
    have hpass : passDuplicate (.error e, t) = (.ok (), t) := if_pos hdup
    rw [hpass]

theorem removeWhitelistedDomain_of_plain (engine : Engine) {d : Str} (hd : isDomain d = true)
    (hplain : Sql.isPlain d = true) (t : Tables) :
    (removeWhitelistedDomain engine d t).2 = removed d t := by
  have hdomain : statements.IsPlain (.deleteDomain d) := by
    intro x hx
    rw [List.mem_singleton.mp hx]
    exact hplain
  have hcomment : statements.IsPlain (.deleteWhitelists d) := by
    intro x hx
    rw [List.mem_singleton.mp hx, isPlain_autoUpdate]
    exact hplain
  unfold removeWhitelistedDomain
  rw [hd, if_neg (by simp), execute_of_plain engine hdomain rfl]
  simp only
  rw [execute_of_plain engine hcomment rfl]
  rfl

/-! ### Undoing -/

/-- What the domain is left with: it is added, and after some runs removed; others follow. -/
def history (settings : Settings) (engine : Engine) (d : Str) (before later : List Run) (t : Tables) :
    Tables :=
  runAll settings later
    (removeWhitelistedDomain engine d (runAll settings before (addWhitelistDomain engine d t).2)).2

/-- The removal undoes the addition, whenever it comes, and the runs after it add nothing. -/
def Undoes (settings : Settings) (d : Str) (before later : List Run) (t : Tables) : Prop :=
  ∀ (engine : Engine) (b l : List Run), b <+: before → l <+: later →
    Clean d (history settings engine d b l t)

/-- A row for the domain is all there is in `greylisting_whitelists`. -/
def spoilt (d : Str) (t : Tables) : Tables :=
  { t with
    whitelists := Sql.Table.empty.push ⟨{ account := "@.", sender := "@." }, autoUpdate d⟩ (by
      intro row hrow
      cases hrow) }

/-- A database where every other statement stores a row for the domain. -/
def spoilingEngine (d : Str) : Engine :=
  Sql.Engine.withOther statements (fun t => .ok (spoilt d t)) "duplicate key" isDuplicate_duplicateKey

theorem not_clean_of_not_plain {d : Str} (hd : isDomain d = true) (hplain : ¬Sql.isPlain d = true)
    (t : Tables) : ¬Clean d (history settings (spoilingEngine d) d [] [] t) := by
  have hspoils : ∀ (i : Statement) (t : Tables), ¬statements.IsPlain i →
      execute (spoilingEngine d) i t = (.ok (), spoilt d t) := by
    intro i t hi
    have hexec : (spoilingEngine d).exec i t = .ok (spoilt d t) := if_neg hi
    unfold execute
    rw [hexec]
  have hdomain : ¬statements.IsPlain (.deleteDomain d) := fun h => hplain (h d (by simp [statements]))
  have hcomment : ¬statements.IsPlain (.deleteWhitelists d) := by
    intro h
    have hauto := h (autoUpdate d) (by simp [statements])
    rw [isPlain_autoUpdate] at hauto
    exact hplain hauto
  intro hclean
  unfold history runAll at hclean
  simp only [List.foldl_nil] at hclean
  set t₁ := (addWhitelistDomain (spoilingEngine d) d t).2
  have hremoved : (removeWhitelistedDomain (spoilingEngine d) d t₁).2 = spoilt d (spoilt d t₁) := by
    unfold removeWhitelistedDomain
    rw [hd, if_neg (by simp), hspoils _ _ hdomain]
    simp only
    rw [hspoils _ _ hcomment]
    rfl
  rw [hremoved] at hclean
  exact hclean.whitelists (1, _) (List.mem_singleton_self _) rfl

omit [Unicode] in
theorem clean_removed {d : Str} {t : Tables} (h : ∀ row ∈ t.whitelistDomainSpf.rows,
    row.2.comment ≠ autoUpdate d) : Clean d (removed d t) :=
  ⟨h, fun _ hrow => of_decide_eq_false (Sql.Table.mem_rows_delete.mp hrow).2⟩

/-- **Removing a whitelisted domain undoes adding it exactly when no run imports an address for it**
(and its name stands for itself in a statement). -/
theorem undoes_iff {d : Str} (hd : isDomain d = true) {before later : List Run} {t : Tables}
    (ht : Clean d t) :
    Undoes settings d before later t ↔
      Sql.isPlain d = true ∧ Quiet settings d before (submitDomain t d) ∧
        ∀ b, b <+: before →
          Quiet settings d later (removed d (runAll settings b (submitDomain t d))) := by
  have hadded : Clean d (submitDomain t d) := (clean_submitDomains_iff [d] t).mpr ht
  have hhistory : Sql.isPlain d = true → ∀ engine b l, history settings engine d b l t =
      runAll settings l (removed d (runAll settings b (submitDomain t d))) := by
    intro hplain engine b l
    unfold history
    rw [addWhitelistDomain_of_plain engine hd hplain, removeWhitelistedDomain_of_plain engine hd hplain]
  constructor
  · intro h
    have hplain : Sql.isPlain d = true := by
      by_contra hplain
      exact not_clean_of_not_plain hd hplain t
        (h (spoilingEngine d) [] [] List.nil_prefix List.nil_prefix)
    have hclean : ∀ b l, b <+: before → l <+: later →
        Clean d (runAll settings l (removed d (runAll settings b (submitDomain t d)))) := by
      intro b l hb hl
      rw [← hhistory hplain strictEngine]
      exact h strictEngine b l hb hl
    have hbefore : ∀ b, b <+: before → Clean d (runAll settings b (submitDomain t d)) := fun b hb =>
      ⟨(hclean b [] hb List.nil_prefix).domainSpf,
        fun row hrow => hadded.whitelists row (whitelists_runAll b _ hrow)⟩
    refine ⟨hplain, (clean_runAll_iff hadded).mp hbefore, fun b hb => ?_⟩
    exact (clean_runAll_iff (clean_removed (hbefore b hb).domainSpf)).mp fun l hl => hclean b l hb hl
  · rintro ⟨hplain, hquiet, hlater⟩ engine b l hb hl
    rw [hhistory hplain]
    have hclean := (clean_runAll_iff hadded).mpr hquiet b hb
    exact (clean_runAll_iff (clean_removed hclean.domainSpf)).mpr (hlater b hb) l hl

end Run

/-- A domain whose SPF record has one address. -/
def singleZone : Zone where
  a _ := none
  mx _ := none
  txt domain := if domain = "x.com".toList then some ["v=spf1 ip4:1.2.3.4"] else none

/-- The tables of a new database hold no row for a domain. -/
theorem clean_empty (d : Str) : Clean d {} where
  domainSpf row hrow := by cases hrow
  whitelists row hrow := by cases hrow

/-- A run that finds the address. -/
theorem undoes_single :
    letI := asciiUnicode
    Undoes {} "x.com" [{ zone := singleZone }] [{ zone := singleZone }] {} ↔
      Sql.isPlain "x.com".toList = true ∧ Quiet {} "x.com" [{ zone := singleZone }] (submitDomain {} "x.com") ∧
        ∀ b, b <+: [{ zone := singleZone }] → Quiet {} "x.com" [{ zone := singleZone }]
          (removed "x.com" (runAll {} b (submitDomain {} "x.com"))) := by
  let := asciiUnicode
  exact @undoes_iff asciiUnicode {} _ (by decide) _ _ {} (clean_empty _)

/-- Its row is left in `greylisting_whitelist_domain_spf`. -/
theorem single_not_undone :
    letI := asciiUnicode
    isDomain "x.com".toList = true ∧ Clean "x.com" {} ∧
      ¬Undoes {} "x.com" [{ zone := singleZone }] [] {} := by
  let := asciiUnicode
  refine ⟨by decide, clean_empty _, fun h => ?_⟩
  have hclean := (h strictEngine [{ zone := singleZone }] [] (List.prefix_refl _) List.nil_prefix).domainSpf
  refine hclean (1, ⟨{ account := "@.", sender := "1.2.3.4" }, autoUpdate "x.com"⟩) ?_ rfl
  decide

end IRedAPD.SpfToGreylistWhitelists

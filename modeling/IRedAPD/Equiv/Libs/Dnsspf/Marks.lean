/-
  The marks of an SPF evaluation.

  The records that include one another form a graph, which an evaluation walks
  through depth-first.  The marks that are set when the names of a record are
  tried are told from the walk alone (`marks`): a name that reads like one of
  them is not tried, and sets no mark either.
-/
import IRedAPD.DepthFirst
import IRedAPD.Equiv.Addresses
import IRedAPD.Libs.Dnsspf

namespace IRedAPD.Dnsspf

open Py
open DepthFirst (Step Walk)

variable [Unicode] {zone : Zone} {root : Str}

/-! ### What the reachable records list -/

/-- The terms of the record of a domain. -/
def termsOf (zone : Zone) (domain : Str) : Terms :=
  match (zone.txt domain).bind spfRecord with
  | none => {}
  | some spf => parseTags domain spf

omit [Unicode] in
theorem termsOf_eq {domain spf : Str} (h : (zone.txt domain).bind spfRecord = some spf) :
    termsOf zone domain = parseTags domain spf := by
  unfold termsOf
  rw [h]

omit [Unicode] in
theorem termsOf_eq_empty {domain : Str} (h : (zone.txt domain).bind spfRecord = none) :
    termsOf zone domain = {} := by
  unfold termsOf
  rw [h]

/-- The record of a domain includes another one. -/
def Includes (zone : Zone) (domain domain' : Str) : Prop := domain' ∈ (termsOf zone domain).included

/-- A domain is reached from another one by inclusions. -/
def Reaches (zone : Zone) : Str → Str → Prop := Relation.ReflTransGen (Includes zone)

/-- The `A` records of a name. -/
def aAddresses (zone : Zone) (name : Str) : List Str := (zone.a name).getD []

/-- The `MX` hosts of a name that are domains. -/
def mxHosts (zone : Zone) (name : Str) : List Str := mxHostnames ((zone.mx name).getD [])

/-- The `A` records of the `MX` hosts of a name. -/
def mxAddresses (zone : Zone) (name : Str) : List Str := (mxHosts zone name).flatMap (aAddresses zone)

/-- The record of a domain lists an address. -/
def Lists (zone : Zone) (domain ip : Str) : Prop :=
  ip ∈ (termsOf zone domain).ips ∨ (∃ x ∈ (termsOf zone domain).a, ip ∈ aAddresses zone x) ∨
    ∃ x ∈ (termsOf zone domain).mx, ip ∈ mxAddresses zone x

/-- A record that is reached lists the address. -/
def InUnion (zone : Zone) (root ip : Str) : Prop :=
  ∃ domain, Reaches zone root domain ∧ Lists zone domain ip

/-! ### The walk through the records -/

/-- The domains that a record includes, in the order in which they are gone through. -/
def includedIn (sets : SetOrder Str) (zone : Zone) (domain : Str) : List Str :=
  sets.order (termsOf zone domain).included

omit [Unicode] in
theorem reaches_includedIn_iff (sets : SetOrder Str) {domain : Str} :
    DepthFirst.Reaches (includedIn sets zone) root domain ↔ Reaches zone root domain := by
  have heq : (fun d d' => d' ∈ includedIn sets zone d) = Includes zone := by
    funext d d'
    exact propext sets.mem_order
  unfold DepthFirst.Reaches Reaches
  rw [heq]

/-- The marks after the queries for the `a` names of a record. -/
def marksAfterA (zone : Zone) (domain : Str) (marked : Set Str) : Set Str :=
  marked ∪ {m | ∃ x ∈ (termsOf zone domain).a, x ∉ marked ∧ (zone.a x).isSome ∧ m = aMark x}

omit [Unicode] in
/-- The queries for the `a` names do not mark an `mx` name. -/
theorem mxMark_mem_marksAfterA_iff {domain x : Str} {marked : Set Str} :
    mxMark x ∈ marksAfterA zone domain marked ↔ mxMark x ∈ marked := by
  refine ⟨?_, .inl⟩
  rintro (hm | ⟨y, -, -, -, heq⟩)
  · exact hm
  · cases heq

/-- The marks after the queries for its `mx` names. -/
def marksAfterMx (zone : Zone) (domain : Str) (marked : Set Str) : Set Str :=
  marked ∪ {m | ∃ x ∈ (termsOf zone domain).mx, x ∉ marked ∧ (zone.mx x).isSome ∧
    (m = mxMark x ∨ ∃ host ∈ mxHosts zone x, (zone.a host).isSome ∧ m = aMark host)}

/-- The marks that have been set in a walk through the records.  A record is marked when it is
entered, and its names are tried when it is left. -/
def marks (zone : Zone) : List (Step Str) → Set Str
  | [] => ∅
  | .enter domain :: w => insert (spfMark domain) (marks zone w)
  | .leave domain :: w => marksAfterMx zone domain (marksAfterA zone domain (marks zone w))

/-- The record of a domain lists an address by itself, or through a name that is not marked. -/
def ListsUnmarked (zone : Zone) (domain : Str) (marked : Set Str) (ip : Str) : Prop :=
  ip ∈ (termsOf zone domain).ips ∨
    (∃ x ∈ (termsOf zone domain).a, x ∉ marked ∧ ip ∈ aAddresses zone x) ∨
    -- the `a` names of the record have been tried by then
    ∃ x ∈ (termsOf zone domain).mx, x ∉ marksAfterA zone domain marked ∧ ip ∈ mxAddresses zone x

/-- A record of the walk lists the address, by itself or through a name that is not marked when it
is tried. -/
def ListedIn (zone : Zone) (w : List (Step Str)) (ip : Str) : Prop :=
  ∃ domain before, (.leave domain :: before) <:+ w ∧ ListsUnmarked zone domain (marks zone before) ip

theorem ListsUnmarked.lists {domain ip : Str} {marked : Set Str}
    (h : ListsUnmarked zone domain marked ip) : Lists zone domain ip :=
  h.imp_right <| Or.imp (fun ⟨x, hx, _, hip⟩ => ⟨x, hx, hip⟩) fun ⟨x, hx, _, hip⟩ => ⟨x, hx, hip⟩

@[simp] theorem listedIn_nil (ip : Str) : ¬ListedIn zone [] ip := by
  rintro ⟨domain, before, hsuffix, -⟩
  exact absurd (List.suffix_nil.mp hsuffix) (List.cons_ne_nil _ _)

@[simp] theorem listedIn_enter (domain : Str) (w : List (Step Str)) (ip : Str) :
    ListedIn zone (.enter domain :: w) ip ↔ ListedIn zone w ip := by
  simp [ListedIn, List.suffix_cons_iff]

@[simp] theorem listedIn_leave (domain : Str) (w : List (Step Str)) (ip : Str) :
    ListedIn zone (.leave domain :: w) ip ↔
      ListsUnmarked zone domain (marks zone w) ip ∨ ListedIn zone w ip := by
  simp only [ListedIn, List.suffix_cons_iff, List.cons.injEq, Step.leave.injEq]
  constructor
  · rintro ⟨d, before, ⟨rfl, rfl⟩ | hsuffix, hlists⟩
    · exact .inl hlists
    · exact .inr ⟨d, before, hsuffix, hlists⟩
  · rintro (hlists | ⟨d, before, hsuffix, hlists⟩)
    · exact ⟨domain, w, .inl ⟨rfl, rfl⟩, hlists⟩
    · exact ⟨d, before, .inr hsuffix, hlists⟩

/-- What a walk from the root lists is in the union. -/
theorem ListedIn.inUnion {sets : SetOrder Str} {w : List (Step Str)} {ip : Str}
    (hwalk : Walk (includedIn sets zone) [] [root] w) (h : ListedIn zone w ip) :
    InUnion zone root ip := by
  obtain ⟨domain, before, hsuffix, hlists⟩ := h
  have hleave : .leave domain ∈ w := hsuffix.subset List.mem_cons_self
  exact ⟨domain, (reaches_includedIn_iff sets).mp (hwalk.leave_mem_iff.mp hleave), hlists.lists⟩

/-! ### Where the marks come from -/

/-- A mark is set for a record that has been entered, or for a name that has been tried. -/
inductive MarkOf (zone : Zone) (w : List (Step Str)) : Str → Prop
  | spf {domain : Str} (henter : .enter domain ∈ w) : MarkOf zone w (spfMark domain)
  | a {domain x : Str} {before : List (Step Str)} (hsuffix : (.leave domain :: before) <:+ w)
      (hx : x ∈ (termsOf zone domain).a) (hnew : x ∉ marks zone before) (hsome : (zone.a x).isSome) :
      MarkOf zone w (aMark x)
  | mx {domain x : Str} {before : List (Step Str)} (hsuffix : (.leave domain :: before) <:+ w)
      (hx : x ∈ (termsOf zone domain).mx) (hnew : x ∉ marksAfterA zone domain (marks zone before))
      (hsome : (zone.mx x).isSome) : MarkOf zone w (mxMark x)
  | host {domain x host : Str} {before : List (Step Str)} (hsuffix : (.leave domain :: before) <:+ w)
      (hx : x ∈ (termsOf zone domain).mx) (hnew : x ∉ marksAfterA zone domain (marks zone before))
      (hsome : (zone.mx x).isSome) (hhost : host ∈ mxHosts zone x) (hanswer : (zone.a host).isSome) :
      MarkOf zone w (aMark host)

theorem MarkOf.mono {w w' : List (Step Str)} (hsuffix : w <:+ w') {m : Str} (h : MarkOf zone w m) :
    MarkOf zone w' m := by
  cases h with
  | spf henter => exact .spf (hsuffix.subset henter)
  | a h hx hnew hsome => exact .a (h.trans hsuffix) hx hnew hsome
  | mx h hx hnew hsome => exact .mx (h.trans hsuffix) hx hnew hsome
  | host h hx hnew hsome hhost hanswer => exact .host (h.trans hsuffix) hx hnew hsome hhost hanswer

theorem markOf_of_mem_marks {w : List (Step Str)} {m : Str} (h : m ∈ marks zone w) :
    MarkOf zone w m := by
  induction w with
  | nil => cases h
  | cons step w ih =>
    have hrest : m ∈ marks zone w → MarkOf zone (step :: w) m :=
      fun hm => (ih hm).mono (List.suffix_cons _ _)
    cases step with
    | enter domain =>
      rcases h with rfl | h
      · exact .spf List.mem_cons_self
      · exact hrest h
    | leave domain =>
      rcases h with (h | ⟨x, hx, hnew, hsome, rfl⟩) |
        ⟨x, hx, hnew, hsome, rfl | ⟨host, hhost, hanswer, rfl⟩⟩
      · exact hrest h
      · exact .a (List.suffix_refl _) hx hnew hsome
      · exact .mx (List.suffix_refl _) hx hnew hsome
      · exact .host (List.suffix_refl _) hx hnew hsome hhost hanswer

/-- The marks grow in a walk. -/
theorem marks_subset_of_suffix {w w' : List (Step Str)} (h : w <:+ w') :
    marks zone w ⊆ marks zone w' := by
  induction w' with
  | nil =>
    rw [List.suffix_nil.mp h]
  | cons step w' ih =>
    rcases List.suffix_cons_iff.mp h with rfl | hsuffix
    · exact Set.Subset.rfl
    · have hrest := ih hsuffix
      cases step with
      | enter domain => exact hrest.trans (Set.subset_insert _ _)
      | leave domain => exact (hrest.trans Set.subset_union_left).trans Set.subset_union_left

theorem spfMark_mem_marks_iff {w : List (Step Str)} {domain : Str} :
    spfMark domain ∈ marks zone w ↔ .enter domain ∈ w := by
  constructor
  · intro h
    generalize hm : spfMark domain = m at h
    cases markOf_of_mem_marks h with
    | spf henter =>
      obtain rfl := List.append_cancel_left hm
      exact henter
    | a => cases hm
    | mx => cases hm
    | host => cases hm
  · intro h
    obtain ⟨pre, post, rfl⟩ := List.append_of_mem h
    exact marks_subset_of_suffix (List.suffix_append pre _) (Set.mem_insert _ _)

/-- The addresses of an `a` name or of a host that is marked are listed. -/
theorem listedIn_of_aMark {w : List (Step Str)} {x ip : Str} (h : aMark x ∈ marks zone w)
    (hip : ip ∈ aAddresses zone x) : ListedIn zone w ip := by
  generalize hm : aMark x = m at h
  cases markOf_of_mem_marks h with
  | spf => cases hm
  | a hsuffix hx hnew =>
    obtain rfl := List.append_cancel_left hm
    exact ⟨_, _, hsuffix, .inr (.inl ⟨x, hx, hnew, hip⟩)⟩
  | mx => cases hm
  | host hsuffix hx hnew _ hhost =>
    obtain rfl := List.append_cancel_left hm
    exact ⟨_, _, hsuffix, .inr (.inr ⟨_, hx, hnew, List.mem_flatMap.mpr ⟨x, hhost, hip⟩⟩)⟩

/-- The addresses of an `mx` name that is marked are listed, and its hosts are marked. -/
theorem of_mxMark {w : List (Step Str)} {x : Str} (h : mxMark x ∈ marks zone w) :
    (∀ ip ∈ mxAddresses zone x, ListedIn zone w ip) ∧
      ∀ host ∈ mxHosts zone x, (zone.a host).isSome → aMark host ∈ marks zone w := by
  generalize hm : mxMark x = m at h
  cases markOf_of_mem_marks h with
  | spf => cases hm
  | a => cases hm
  | mx hsuffix hx hnew hsome =>
    obtain rfl := List.append_cancel_left hm
    refine ⟨fun ip hip => ⟨_, _, hsuffix, .inr (.inr ⟨x, hx, hnew, hip⟩)⟩, fun host hhost ha => ?_⟩
    refine marks_subset_of_suffix hsuffix (.inr ?_)
    exact ⟨x, hx, hnew, hsome, .inr ⟨host, hhost, ha, rfl⟩⟩
  | host => cases hm

theorem isDomain_aMark (s : Str) : isDomain (aMark s) = false :=
  not_isDomain_of_colon (p := "a".toList) (by decide) s

theorem isDomain_mxMark (s : Str) : isDomain (mxMark s) = false :=
  not_isDomain_of_colon (p := "mx".toList) (by decide) s

theorem isDomain_spfMark (s : Str) : isDomain (spfMark s) = false :=
  not_isDomain_of_colon (p := "spf".toList) (by decide) s

/-- No mark is a domain. -/
theorem not_isDomain_of_mem_marks {w : List (Step Str)} {m : Str} (h : m ∈ marks zone w) :
    isDomain m = false := by
  cases markOf_of_mem_marks h with
  | spf => exact isDomain_spfMark _
  | a => exact isDomain_aMark _
  | mx => exact isDomain_mxMark _
  | host => exact isDomain_aMark _

/-- Every mark has a colon. -/
theorem colon_mem_of_mem_marks {w : List (Step Str)} {m : Str} (h : m ∈ marks zone w) : ':' ∈ m := by
  cases markOf_of_mem_marks h with
  | spf => exact List.mem_append_left _ (by decide)
  | a => exact List.mem_append_left _ (by decide)
  | mx => exact List.mem_append_left _ (by decide)
  | host => exact List.mem_append_left _ (by decide)

end IRedAPD.Dnsspf

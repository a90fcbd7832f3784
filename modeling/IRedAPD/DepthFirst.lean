/-
  Depth-first walks through a graph, which is given by the successors of a vertex.

  A walk is the history of its steps, the latest first.  From a vertex, a walk
  enters and leaves exactly what the vertex reaches (`Walk.leave_mem_iff`),
  although it passes over what it has entered before.
-/
import Mathlib.Logic.Relation

namespace DepthFirst

/-- A vertex is entered before its successors, and left after them. -/
inductive Step (α : Type*) where
  | enter (a : α)
  | leave (a : α)

variable {α : Type*} {succs : α → List α}

/-- A walk through some vertices goes on from a history to a longer one. -/
inductive Walk (succs : α → List α) : List (Step α) → List α → List (Step α) → Prop
  | done {w} : Walk succs w [] w
  | skip {a as w w'} (hmem : .enter a ∈ w) (rest : Walk succs w as w') : Walk succs w (a :: as) w'
  | visit {a as w inner w'} (hnew : .enter a ∉ w)
      (below : Walk succs (.enter a :: w) (succs a) inner)
      (rest : Walk succs (.leave a :: inner) as w') : Walk succs w (a :: as) w'

/-- A vertex is reached from another one. -/
def Reaches (succs : α → List α) : α → α → Prop := Relation.ReflTransGen fun a b => b ∈ succs a

namespace Walk

variable {a root : α} {as : List α} {w w' w'' : List (Step α)}

theorem suffix (h : Walk succs w as w') : w <:+ w' := by
  induction h with
  | done => exact List.suffix_refl _
  | skip _ _ ih => exact ih
  | visit _ _ _ ihBelow ihRest =>
    exact ((List.suffix_cons _ _).trans ihBelow).trans ((List.suffix_cons _ _).trans ihRest)

/-- A walk has one end at most. -/
theorem det (h : Walk succs w as w') (h' : Walk succs w as w'') : w' = w'' := by
  induction h generalizing w'' with
  | done =>
    cases h'
    rfl
  | skip hmem _ ih =>
    cases h' with
    | skip _ rest => exact ih rest
    | visit hnew => exact absurd hmem hnew
  | visit hnew _ _ ihBelow ihRest =>
    cases h' with
    | skip hmem => exact absurd hmem hnew
    | visit _ below rest =>
      obtain rfl := ihBelow below
      exact ihRest rest

/-- What a walk goes through has been entered in the end. -/
theorem enter_mem (h : Walk succs w as w') : ∀ a ∈ as, .enter a ∈ w' := by
  induction h with
  | done => simp
  | skip hmem rest ih =>
    rw [List.forall_mem_cons]
    exact ⟨rest.suffix.subset hmem, ih⟩
  | visit _ below rest _ ihRest =>
    rw [List.forall_mem_cons]
    refine ⟨rest.suffix.subset (List.mem_cons_of_mem _ (below.suffix.subset ?_)), ihRest⟩
    exact List.mem_cons_self

/-- A vertex that a walk enters is left, and its successors have been entered. -/
theorem closed (h : Walk succs w as w') (hmem : .enter a ∈ w') :
    .enter a ∈ w ∨ .leave a ∈ w' ∧ ∀ b ∈ succs a, .enter b ∈ w' := by
  induction h with
  | done => exact .inl hmem
  | skip _ _ ih => exact ih hmem
  | @visit b as w inner w' _ below rest ihBelow ihRest =>
    have hsub : inner ⊆ w' := fun s hs => rest.suffix.subset (List.mem_cons_of_mem _ hs)
    have hleave : .leave b ∈ w' := rest.suffix.subset List.mem_cons_self
    rcases ihRest hmem with hmem | hclosed
    · have hmem : .enter a ∈ inner := by simpa using hmem
      rcases ihBelow hmem with hmem | ⟨hleft, hsuccs⟩
      · rcases List.mem_cons.mp hmem with heq | hmem
        -- the vertex of this step: its successors were walked through below
        · obtain rfl : a = b := Step.enter.inj heq
          exact .inr ⟨hleave, fun c hc => hsub (below.enter_mem c hc)⟩
        · exact .inl hmem
      · exact .inr ⟨hsub hleft, fun c hc => hsub (hsuccs c hc)⟩
    · exact .inr hclosed

/-- Only what is reached is entered. -/
theorem reaches (h : Walk succs w as w') (hmem : .enter a ∈ w') :
    .enter a ∈ w ∨ ∃ b ∈ as, Reaches succs b a := by
  induction h with
  | done => exact .inl hmem
  | skip _ _ ih =>
    exact (ih hmem).imp_right fun ⟨b, hb, hreach⟩ => ⟨b, List.mem_cons_of_mem _ hb, hreach⟩
  | @visit c as w inner w' _ _ _ ihBelow ihRest =>
    rcases ihRest hmem with hmem | ⟨b, hb, hreach⟩
    · have hmem : .enter a ∈ inner := by simpa using hmem
      rcases ihBelow hmem with hmem | ⟨b, hb, hreach⟩
      · rcases List.mem_cons.mp hmem with heq | hmem
        · obtain rfl : a = c := Step.enter.inj heq
          exact .inr ⟨a, List.mem_cons_self, .refl⟩
        · exact .inl hmem
      · exact .inr ⟨c, List.mem_cons_self, hreach.head hb⟩
    · exact .inr ⟨b, List.mem_cons_of_mem _ hb, hreach⟩

/-- Only what has been entered is left. -/
theorem enter_mem_of_leave (h : Walk succs w as w') (hmem : .leave a ∈ w') :
    .leave a ∈ w ∨ .enter a ∈ w' := by
  induction h with
  | done => exact .inl hmem
  | skip _ _ ih => exact ih hmem
  | @visit b as w inner w' _ below rest ihBelow ihRest =>
    have hsub : inner ⊆ w' := fun s hs => rest.suffix.subset (List.mem_cons_of_mem _ hs)
    rcases ihRest hmem with hmem | hmem
    · rcases List.mem_cons.mp hmem with heq | hmem
      · obtain rfl : a = b := Step.leave.inj heq
        exact .inr (hsub (below.suffix.subset List.mem_cons_self))
      · rcases ihBelow hmem with hmem | hmem
        · exact .inl (by simpa using hmem)
        · exact .inr (hsub hmem)
    · exact .inr hmem

/-- **A walk from a vertex leaves exactly what the vertex reaches.** -/
theorem leave_mem_iff (h : Walk succs [] [root] w) : .leave a ∈ w ↔ Reaches succs root a := by
  have hclosed : ∀ {b}, .enter b ∈ w → .leave b ∈ w ∧ ∀ c ∈ succs b, .enter c ∈ w :=
    fun hb => (h.closed hb).resolve_left List.not_mem_nil
  constructor
  · intro hmem
    have henter : .enter a ∈ w := (h.enter_mem_of_leave hmem).resolve_left List.not_mem_nil
    obtain ⟨b, hb, hreach⟩ := (h.reaches henter).resolve_left List.not_mem_nil
    rwa [List.mem_singleton.mp hb] at hreach
  · intro hreach
    refine (hclosed ?_).1
    induction hreach with
    | refl => exact h.enter_mem root List.mem_cons_self
    | tail _ hsucc ih => exact (hclosed ih).2 _ hsucc

/-- What has been entered before may be left out. -/
theorem of_filter {p : α → Bool} (hp : ∀ a ∈ as, p a = false → .enter a ∈ w)
    (h : Walk succs w (as.filter p) w') : Walk succs w as w' := by
  induction as generalizing w with
  | nil => exact h
  | cons a as ih =>
    cases hpa : p a with
    | false =>
      rw [List.filter_cons_of_neg (by simp [hpa])] at h
      exact .skip (hp a List.mem_cons_self hpa) (ih (fun b hb => hp b (List.mem_cons_of_mem _ hb)) h)
    | true =>
      rw [List.filter_cons_of_pos hpa] at h
      have hrest : ∀ {v}, w <:+ v → ∀ b ∈ as, p b = false → .enter b ∈ v :=
        fun hsuffix b hb hpb => hsuffix.subset (hp b (List.mem_cons_of_mem _ hb) hpb)
      cases h with
      | skip hmem rest => exact .skip hmem (ih (hrest (List.suffix_refl _)) rest)
      | visit hnew below rest =>
        refine .visit hnew below (ih (hrest ?_) rest)
        exact ((List.suffix_cons _ _).trans below.suffix).trans (List.suffix_cons _ _)

end Walk

end DepthFirst

/-
  A channel with a buffer, line by line.

  `handleLine` is what such a channel does with a whole line.  A line received
  in one piece is handled so (`receive_eq`), but `found_terminator` pops a
  single element from the buffer, and of a line received in several pieces it
  sees the last one only.  Up to the first exception, the lines a connection
  processes are therefore those of the stream exactly when each arrived in one
  piece, and then everything else is the same too (`connection_fragmentation`).
-/
import IRedAPD.Equiv.Asynchat
import IRedAPD.Libs.Channel

namespace IRedAPD

open Py Asynchat Framing

variable {σ ε : Type*} (h : LineHandler σ ε)

/-! ### What a run shows -/

/-- The lines `found_terminator` starts on. -/
def processed (events : List (LineEvent ε)) : List Bytes :=
  events.filterMap fun
    | .line l => some l
    | .effect _ => none

/-- Everything else that happens. -/
def effects (events : List (LineEvent ε)) : List ε :=
  events.filterMap fun
    | .line _ => none
    | .effect e => some e

@[simp] theorem processed_append (es es' : List (LineEvent ε)) :
    processed (es ++ es') = processed es ++ processed es' := List.filterMap_append ..

@[simp] theorem effects_append (es es' : List (LineEvent ε)) :
    effects (es ++ es') = effects es ++ effects es' := List.filterMap_append ..

@[simp] theorem processed_announce (l : Bytes) (o : Outcome σ ε) :
    processed (announce l o).events = [l] := by
  have hnone : (o.events.map LineEvent.effect).filterMap
      (fun | .line l => some l | .effect _ => none) = ([] : List Bytes) := by
    rw [List.filterMap_map, List.filterMap_eq_nil_iff]
    intro e _
    rfl
  simp [announce, processed, hnone]

@[simp] theorem effects_announce (l : Bytes) (o : Outcome σ ε) :
    effects (announce l o).events = o.events := by
  have hall : (o.events.map LineEvent.effect).filterMap
      (fun | .line _ => none | .effect e => some e) = o.events := by
    rw [List.filterMap_map]
    exact List.filterMap_some
  simp [announce, effects, hall]

/-! ### Whole lines -/

/-- A whole line. -/
def handleLine (x : σ) (l : Bytes) : Outcome σ (LineEvent ε) :=
  announce l (if l = [] then h.onBlank x else h.onLine x l)

/-- A line received in one piece: it is collected, unless it is empty, and ended. -/
def LineHandler.receive (c : Buffered σ) (l : Bytes) : Outcome (Buffered σ) (LineEvent ε) :=
  feedLine h.callbacks c (piece l)

theorem foldl_collect (c : Buffered σ) (pieces : List Bytes) :
    pieces.foldl h.callbacks.collectIncomingData c = ⟨c.buffer ++ pieces, c.fields⟩ := by
  induction pieces generalizing c with
  | nil => simp
  | cons p ps ih =>
    rw [List.foldl_cons, ih]
    simp [LineHandler.callbacks]

/-- **A line received in one piece is handled whole**, and leaves the buffer empty. -/
theorem receive_eq (x : σ) (l : Bytes) :
    h.receive ⟨[], x⟩ l = (handleLine h x l).mapState fun s => ⟨[], s⟩ := by
  by_cases hl : l = []
  · simp [LineHandler.receive, feedLine, piece, hl, LineHandler.callbacks, handleLine]
  · simp [LineHandler.receive, feedLine, piece, hl, LineHandler.callbacks, handleLine]

theorem run_receive (x : σ) (ls : List Bytes) :
    Outcome.run h.receive ⟨[], x⟩ ls =
      (Outcome.run (handleLine h) x ls).mapState fun s => ⟨[], s⟩ := by
  induction ls generalizing x with
  | nil => rfl
  | cons l ls ih =>
    simp only [Outcome.run_cons, receive_eq, Outcome.andThen, Outcome.mapState_raised,
      Outcome.mapState_state, Outcome.mapState_events, ih]
    split <;> rfl

/-! ### Exceptions, seen from the lines -/

/-- No line of a connection raises, `raises before line` saying when one does. -/
def NoneRaises (raises : List Bytes → Bytes → Prop) (lines : List Bytes) : Prop :=
  ∀ l₁ l l₂, lines = l₁ ++ l :: l₂ → ¬ raises l₁ l

theorem noneRaises_cons (raises : List Bytes → Bytes → Prop) (l : Bytes) (ls : List Bytes) :
    NoneRaises raises (l :: ls) ↔ ¬ raises [] l ∧ NoneRaises (fun before => raises (l :: before)) ls := by
  constructor
  · intro hn
    exact ⟨hn [] l ls rfl, fun l₁ l' l₂ hl => hn (l :: l₁) l' l₂ (by rw [hl]; rfl)⟩
  · rintro ⟨hl, hn⟩ l₁ l' l₂ heq
    cases l₁ with
    | nil =>
      obtain ⟨rfl, -⟩ := List.cons.inj heq
      exact hl
    | cons a l₁ =>
      obtain ⟨rfl, htail⟩ := List.cons.inj heq
      exact hn l₁ l' l₂ htail

theorem noneRaises_iff (raises : List Bytes → Bytes → Prop) (lines : List Bytes) :
    NoneRaises raises lines ↔ ∀ i (hi : i < lines.length), ¬ raises (lines.take i) lines[i] := by
  constructor
  · intro hn i hi
    exact hn _ _ (lines.drop (i + 1)) (by simp)
  · intro hn l₁ l l₂ hl
    have := hn l₁.length (by simp [hl])
    simpa [hl] using this

instance (raises : List Bytes → Bytes → Prop) [∀ before l, Decidable (raises before l)]
    (lines : List Bytes) : Decidable (NoneRaises raises lines) :=
  decidable_of_iff _ (noneRaises_iff raises lines).symm

/-- **When a run raises**: `raises` describes the steps, from states `R` ties to the lines before. -/
theorem run_raised_iff {raises : List Bytes → Bytes → Prop} {R : List Bytes → σ → Prop}
    (hraises : ∀ before x l, R before x → ((handleLine h x l).raised = true ↔ raises before l))
    (hstep : ∀ before x l, R before x → R (before ++ [l]) (handleLine h x l).state)
    (before : List Bytes) (x : σ) (hx : R before x) (lines : List Bytes) :
    (Outcome.run (handleLine h) x lines).raised = false ↔
      NoneRaises (fun b => raises (before ++ b)) lines := by
  induction lines generalizing before x with
  | nil => simp [Outcome.pure, NoneRaises]
  | cons l ls ih =>
    have hl := hraises before x l hx
    rw [Outcome.run_cons, Outcome.andThen, noneRaises_cons, List.append_nil, ← hl]
    cases hr : (handleLine h x l).raised with
    | true => simp [hr]
    | false =>
      simp only [Bool.false_eq_true, if_false, not_false_eq_true, true_and]
      rw [ih _ _ (hstep before x l hx)]
      simp

/-! ### Lines in pieces -/

/-- The pieces of a line end in the handling of the last one. -/
theorem feedLine_of_two {pieces : List Bytes} (hp : pieces ≠ []) (x : σ) :
    processed (feedLine h.callbacks ⟨[], x⟩ pieces).events = [pieces.getLast hp] := by
  rw [feedLine, foldl_collect]
  simp [LineHandler.callbacks, List.getLast?_eq_some_getLast hp]

/-- A line in at most one piece is handled whole. -/
theorem feedLine_of_length_le_one {pieces : List Bytes} (hne : [] ∉ pieces)
    (hlen : pieces.length ≤ 1) (x : σ) :
    feedLine h.callbacks ⟨[], x⟩ pieces =
      (handleLine h x pieces.flatten).mapState fun s => ⟨[], s⟩ := by
  rw [eq_piece_flatten hne hlen, flatten_piece]
  exact receive_eq h x _

/-- The last of several pieces is not the line. -/
theorem getLast_ne_flatten {pieces : List Bytes} (hp : pieces ≠ []) (hne : [] ∉ pieces)
    (hlen : 1 < pieces.length) : pieces.getLast hp ≠ pieces.flatten := by
  obtain ⟨init, last, hpieces⟩ := (List.eq_nil_or_concat pieces).resolve_left hp
  rw [List.concat_eq_append] at hpieces
  subst hpieces
  intro heq
  have hinit : init.flatten = [] := by
    have := congrArg List.length heq
    simp only [List.getLast_append_singleton, List.flatten_append, List.flatten_singleton,
      List.length_append] at this
    exact List.length_eq_zero_iff.mp (by omega)
  cases init with
  | nil => simp at hlen
  | cons p ps =>
    have hpnil : p = [] := by
      rw [List.flatten_cons, List.append_eq_nil_iff] at hinit
      exact hinit.1
    exact hne (by simp [hpnil])

/-- Every line up to and including the first that raises arrives in at most one piece. -/
def OnePiece (x : σ) (lines : List (List Bytes)) : Prop :=
  ∀ l₁ ps l₂, lines = l₁ ++ ps :: l₂ →
    (Outcome.run (handleLine h) x (l₁.map List.flatten)).raised = false → ps.length ≤ 1

theorem onePiece_cons (x : σ) (pieces : List Bytes) (lines : List (List Bytes)) :
    OnePiece h x (pieces :: lines) ↔ pieces.length ≤ 1 ∧
      ((handleLine h x pieces.flatten).raised = false →
        OnePiece h (handleLine h x pieces.flatten).state lines) := by
  constructor
  · intro hone
    refine ⟨hone [] pieces lines rfl rfl, fun hr l₁ ps l₂ hl hrun => ?_⟩
    refine hone (pieces :: l₁) ps l₂ (by rw [hl]; rfl) ?_
    simpa [Outcome.run_cons, Outcome.andThen, hr] using hrun
  · rintro ⟨hlen, hrest⟩ l₁ ps l₂ hl hrun
    cases l₁ with
    | nil =>
      obtain ⟨rfl, -⟩ := List.cons.inj hl
      exact hlen
    | cons qs l₁ =>
      obtain ⟨rfl, htail⟩ := List.cons.inj hl
      cases hr : (handleLine h x pieces.flatten).raised with
      | true => simp [Outcome.run_cons, Outcome.andThen, hr] at hrun
      | false =>
        refine hrest hr l₁ ps l₂ htail ?_
        simpa [Outcome.run_cons, Outcome.andThen, hr] using hrun

/-- Lines that arrive in one piece are handled whole. -/
theorem events_eq_of_onePiece {x : σ} {lines : List (List Bytes)} (hne : ∀ ps ∈ lines, [] ∉ ps)
    (hone : OnePiece h x lines) :
    (Outcome.run (feedLine h.callbacks) ⟨[], x⟩ lines).events =
      (Outcome.run (handleLine h) x (lines.map List.flatten)).events := by
  induction lines generalizing x with
  | nil => rfl
  | cons ps lines ih =>
    obtain ⟨hlen, hrest⟩ := (onePiece_cons h x ps lines).mp hone
    have hps : [] ∉ ps := hne ps (by simp)
    simp only [List.map_cons, Outcome.run_cons, feedLine_of_length_le_one h hps hlen,
      Outcome.andThen, Outcome.mapState_raised, Outcome.mapState_state, Outcome.mapState_events]
    cases hr : (handleLine h x ps.flatten).raised with
    | true => rfl
    | false =>
      simp only [Bool.false_eq_true, if_false]
      rw [ih (fun qs hqs => hne qs (by simp [hqs])) (hrest hr)]

/-- **A connection processes the lines of the stream exactly when each of them, up to the first
that raises, arrives in one piece.** -/
theorem processed_eq_iff {x : σ} {lines : List (List Bytes)} (hne : ∀ ps ∈ lines, [] ∉ ps) :
    processed (Outcome.run (feedLine h.callbacks) ⟨[], x⟩ lines).events =
        processed (Outcome.run (handleLine h) x (lines.map List.flatten)).events ↔
      OnePiece h x lines := by
  constructor
  · induction lines generalizing x with
    | nil => intro _ l₁ ps l₂ hl; simp at hl
    | cons ps lines ih =>
      have hps : [] ∉ ps := hne ps (by simp)
      intro heq
      rw [onePiece_cons]
      by_cases hlen : ps.length ≤ 1
      · refine ⟨hlen, fun hr => ih (fun qs hqs => hne qs (by simp [hqs])) ?_⟩
        simp only [List.map_cons, Outcome.run_cons, feedLine_of_length_le_one h hps hlen,
          Outcome.andThen, Outcome.mapState_raised, Outcome.mapState_state,
          Outcome.mapState_events, hr, Bool.false_eq_true, if_false, processed_append,
          List.append_cancel_left_eq] at heq
        exact heq
      · -- the first line processed is the last piece here and the whole line there
        exfalso
        have hp : ps ≠ [] := by
          rintro rfl
          simp at hlen
        -- the event that is seen first, whatever follows
        have hfirst : ∀ (o : Outcome (Buffered σ) (LineEvent ε)) f l,
            processed o.events = [l] → (processed (o.andThen f).events).head? = some l := by
          intro o f l ho
          unfold Outcome.andThen
          split <;> simp [ho]
        have hfirst' : ∀ (o : Outcome σ (LineEvent ε)) f l,
            processed o.events = [l] → (processed (o.andThen f).events).head? = some l := by
          intro o f l ho
          unfold Outcome.andThen
          split <;> simp [ho]
        have hl := hfirst _ (fun s => Outcome.run (feedLine h.callbacks) s lines) _
          (feedLine_of_two h hp x)
        have hr := hfirst' _ (fun s => Outcome.run (handleLine h) s (lines.map List.flatten)) _
          (processed_announce ps.flatten
            (if ps.flatten = [] then h.onBlank x else h.onLine x ps.flatten))
        rw [← Outcome.run_cons] at hl
        have hr' : (processed (Outcome.run (handleLine h) x
            ((ps :: lines).map List.flatten)).events).head? = some ps.flatten := hr
        rw [← heq, hl, Option.some.injEq] at hr'
        exact getLast_ne_flatten hp hps (by omega) hr'
  · intro hone
    rw [events_eq_of_onePiece h hne hone]

/-- The condition, on the lines alone. -/
def UncutLines (raises : List Bytes → Bytes → Prop) (lines : List (List Bytes)) : Prop :=
  ∀ l₁ ps l₂, lines = l₁ ++ ps :: l₂ → NoneRaises raises (l₁.map List.flatten) → ps.length ≤ 1

theorem onePiece_iff {raises : List Bytes → Bytes → Prop} {x : σ}
    (hrun : ∀ ls, (Outcome.run (handleLine h) x ls).raised = false ↔ NoneRaises raises ls)
    (lines : List (List Bytes)) : OnePiece h x lines ↔ UncutLines raises lines := by
  simp only [OnePiece, UncutLines, hrun]

/-! ### Connections -/

/-- What a new connection does that reads these chunks. -/
def connection (x : σ) (chunks : List Bytes) : List (LineEvent ε) :=
  (readAll h.callbacks (newChannel x) chunks).2

/-- A connection feeds the lines its chunks complete. -/
theorem connection_eq (x : σ) {chunks : List Bytes} (hne : [] ∉ chunks) :
    connection h x chunks =
      (Outcome.run (feedLine h.callbacks) ⟨[], x⟩ (cutLines 10 [] chunks).1).events :=
  readAll_events h.callbacks 10 chunks [] ⟨[], x⟩ hne

/-- A stream that arrives in one chunk is handled line by line. -/
theorem connection_whole (x : σ) (stream : Bytes) :
    connection h x [stream] =
      (Outcome.run (handleLine h) x ((cutChunk 10 [] stream).1.map List.flatten)).events := by
  by_cases hs : stream = []
  · subst hs
    rfl
  · have hlines : (cutLines 10 [] [stream]).1 = (cutChunk 10 [] stream).1 := by simp [cutLines]
    have hne := nil_not_mem_cutLines (d := 10) List.not_mem_nil [stream]
    rw [connection_eq h x (by simpa using Ne.symm hs)]
    rw [hlines] at hne ⊢
    refine events_eq_of_onePiece h hne fun l₁ ps l₂ hl _ => ?_
    have hmem : ps ∈ (cutChunk 10 [] stream).1 := by simp [hl]
    exact length_le_one_of_mem_cutChunk hmem

/-- **Chunks against one chunk**: the same lines are processed exactly when every line, up to the
first that raises, arrived in one piece; and then all events are the same. -/
theorem connection_fragmentation {raises : List Bytes → Bytes → Prop} {x : σ}
    (hrun : ∀ ls, (Outcome.run (handleLine h) x ls).raised = false ↔ NoneRaises raises ls)
    {chunks : List Bytes} (hne : [] ∉ chunks) :
    (processed (connection h x chunks) = processed (connection h x [chunks.flatten]) ↔
        UncutLines raises (cutLines 10 [] chunks).1) ∧
      (UncutLines raises (cutLines 10 [] chunks).1 →
        connection h x chunks = connection h x [chunks.flatten]) := by
  have hpieces := nil_not_mem_cutLines (d := 10) List.not_mem_nil chunks
  rw [connection_whole, ← map_flatten_cutLines, connection_eq h x hne, ← onePiece_iff h hrun]
  exact ⟨processed_eq_iff h hpieces, events_eq_of_onePiece h hpieces⟩

end IRedAPD

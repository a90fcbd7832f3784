/-
  Whatever the order in which the descriptors become ready, the process handles
  whole lines of its connections one at a time.

  `Serial` is that reading: the shared state and, for each connection, what its
  lines have left of it.  Every run of `loop` is a run of `Serial` over some order
  of lines in which the lines of each connection are those its own reads complete,
  in their order (`loop_refines`).
-/
import IRedAPD.Equiv.Asynchat
import IRedAPD.Equiv.Asyncore.SocketMap

namespace IRedAPD.Asyncore

open Py Asynchat Framing

/-! ### `handle_read` -/

section HandleRead

variable {σ ε : Type*} (cb : Callbacks σ ε)

/-- The fields of the channel after the loop, also when a callback has raised. -/
theorem readLoop_channel {d : UInt8} :
    ∀ (n : ℕ) (c : AsyncChat σ), c.terminator = .bytes [d] → c.acInBuffer.length ≤ n →
      (readLoop cb n c).state.channel = (feedParts cb c.channel (c.acInBuffer.splitOn d)).state := by
  intro n
  induction n with
  | zero =>
    intro c ht hn
    obtain ⟨buffer, term, connected, channel⟩ := c
    obtain rfl : buffer = [] := List.length_eq_zero_iff.mp (Nat.le_zero.mp hn)
    simp [readLoop, Outcome.pure, feedParts, piece]
  | succ n ih =>
    intro c ht hn
    by_cases hd : d ∈ c.acInBuffer
    · obtain ⟨l, s, hb, hl⟩ := List.eq_append_cons_of_mem hd
      have hlen : s.length ≤ n := by
        have := congrArg List.length hb
        simp only [List.length_append, List.length_cons] at this
        omega
      obtain ⟨l', ls, hs⟩ := List.exists_cons_of_ne_nil (List.splitOn_ne_nil d s)
      rw [readLoop_found cb hl s n c ht hb, hb, List.splitOn_append_cons_self_of_not_mem hl, hs]
      simp only [feedParts, Outcome.andThen, Outcome.mapState_raised]
      by_cases hr : (feedLine cb c.channel (piece l)).raised = true
      · simp [hr]
      · have hrest := ih { c with
          acInBuffer := s
          channel := (feedLine cb c.channel (piece l)).state } ht hlen
        simp only [hs] at hrest
        simp only [hr, Bool.false_eq_true, if_false]
        exact hrest
    · rw [readLoop_last cb n c ht hd, List.splitOn_eq_singleton hd]
      simp [feedParts, Outcome.pure]

/-- **One call of `handle_read`** feeds the lines the octets complete, the first of them continuing
the pieces that are waiting. -/
theorem handleRead_spec (d : UInt8) (connected : Bool) (pending : List Bytes) (s : σ) {data : Bytes}
    (hdata : data ≠ []) :
    let lines := cutChunk d pending data
    let o := Outcome.run (feedLine cb) s lines.1
    let r := handleRead cb ⟨[], .bytes [d], connected, pending.foldl cb.collectIncomingData s⟩ data
    r.events = o.events ∧ r.raised = o.raised ∧
      (o.raised = true → r.state.channel = o.state) ∧
      (o.raised = false → r.state =
        ⟨[], .bytes [d], connected, lines.2.foldl cb.collectIncomingData o.state⟩) := by
  intro lines o r
  set c : AsyncChat σ := ⟨data, .bytes [d], connected, pending.foldl cb.collectIncomingData s⟩
  have hr : r = readLoop cb data.length c := by
    simp [r, handleRead, hdata, c]
  obtain ⟨h₁, h₂, h₃⟩ := readLoop_spec cb (d := d) data.length c rfl le_rfl
  have h₄ := readLoop_channel cb (d := d) data.length c rfl le_rfl
  rw [← hr] at h₁ h₂ h₃ h₄
  simp only [c, feedParts_eq, ← cutChunk.eq_1, Outcome.andThen] at h₁ h₂ h₃ h₄
  cases ho : o.raised with
  | true =>
    have ho' : (Outcome.run (feedLine cb) s (cutChunk d pending data).1).raised = true := ho
    simp only [ho', if_true] at h₁ h₂ h₄
    exact ⟨h₁, h₂, fun _ => h₄, fun h => absurd h (by simp)⟩
  | false =>
    have ho' : (Outcome.run (feedLine cb) s (cutChunk d pending data).1).raised = false := ho
    simp only [ho', Bool.false_eq_true, if_false, Outcome.pure, List.append_nil] at h₁ h₂ h₃
    exact ⟨h₁, h₂, fun h => absurd h (by simp), fun _ => h₃ h₂⟩

end HandleRead

/-! ### One line at a time -/

variable {κ τ ω ε : Type*}

/-- A whole line of the connection number `id`, as the pieces it arrived in. -/
structure Line (κ : Type*) where
  id : ℕ
  policyChannel : κ
  pieces : List Bytes

/-- Lines of one connection. -/
def linesOf (i : ℕ) (k : κ) (lines : List (List Bytes)) : List (Line κ) :=
  lines.map fun ps => ⟨i, k, ps⟩

/-- The process when it handles whole lines.  For each connection it holds what the lines so far have
left of its fields, and whether one of them has raised. -/
structure Serial (τ ω : Type*) where
  world : ω
  channels : ℕ → Option (τ × Bool)

namespace Serial

variable (svc : Service κ τ ω ε)

/-- No line has been received. -/
def start (w : ω) : Serial τ ω := ⟨w, fun _ => none⟩

/-- A connection: before its first line, what `__init__` has made. -/
def channel (x : Serial τ ω) (k : κ) (i : ℕ) : τ × Bool := (x.channels i).getD (svc.init k, false)

/-- A line: the connection handles it, unless it has been closed by an exception. -/
def handle (x : Serial τ ω) (l : Line κ) : Serial τ ω × List (ℕ × ε) :=
  let (t, raised) := x.channel svc l.policyChannel l.id
  if raised then (x, [])
  else
    let o := feedLine (svc.callbacks l.policyChannel) (t, x.world) l.pieces
    (⟨o.state.2, Function.update x.channels l.id (some (o.state.1, o.raised))⟩,
      o.events.map fun e => (l.id, e))

/-- Lines, one after the other. -/
def run (x : Serial τ ω) : List (Line κ) → Serial τ ω × List (ℕ × ε)
  | [] => (x, [])
  | l :: lines =>
    let r := x.handle svc l
    let t := run r.1 lines
    (t.1, r.2 ++ t.2)

theorem run_append (x : Serial τ ω) (lines lines' : List (Line κ)) :
    x.run svc (lines ++ lines') =
      (((x.run svc lines).1.run svc lines').1,
        (x.run svc lines).2 ++ ((x.run svc lines).1.run svc lines').2) := by
  induction lines generalizing x with
  | nil => simp [run]
  | cons l lines ih => simp [run, ih]

/-- A connection that an exception has closed handles nothing more. -/
theorem run_of_raised {x : Serial τ ω} {k : κ} {i : ℕ} (h : (x.channel svc k i).2 = true)
    (lines : List (List Bytes)) : x.run svc (linesOf i k lines) = (x, []) := by
  induction lines with
  | nil => rfl
  | cons ps lines ih =>
    unfold linesOf at ih ⊢
    simp [run, handle, h, ih]

/-- Lines of one connection: it runs as it would alone, and the others stay as they are. -/
theorem run_connection (x : Serial τ ω) (k : κ) (i : ℕ) (lines : List (List Bytes))
    (h : (x.channel svc k i).2 = false) :
    let o := Outcome.run (feedLine (svc.callbacks k)) ((x.channel svc k i).1, x.world) lines
    let r := x.run svc (linesOf i k lines)
    r.2 = o.events.map (fun e => (i, e)) ∧ r.1.world = o.state.2 ∧
      r.1.channel svc k i = (o.state.1, o.raised) ∧
      ∀ j, j ≠ i → r.1.channels j = x.channels j := by
  induction lines generalizing x with
  | nil =>
    refine ⟨rfl, rfl, ?_, fun _ _ => rfl⟩
    exact Prod.ext rfl h
  | cons ps lines ih =>
    intro o r
    set o₁ := feedLine (svc.callbacks k) ((x.channel svc k i).1, x.world) ps with ho₁
    have hstep : x.handle svc ⟨i, k, ps⟩ =
        (⟨o₁.state.2, Function.update x.channels i (some (o₁.state.1, o₁.raised))⟩,
          o₁.events.map fun e => (i, e)) := by
      simp [handle, h, ho₁]
    have hchannel : (x.handle svc ⟨i, k, ps⟩).1.channel svc k i = (o₁.state.1, o₁.raised) := by
      rw [hstep]
      simp [channel]
    have hothers : ∀ j, j ≠ i → (x.handle svc ⟨i, k, ps⟩).1.channels j = x.channels j := by
      intro j hj
      rw [hstep]
      exact Function.update_of_ne hj _ _
    cases hr : o₁.raised with
    | true =>
      have hrest := run_of_raised svc (x := (x.handle svc ⟨i, k, ps⟩).1) (k := k) (i := i)
        (by rw [hchannel]; exact hr) lines
      have ho : o = o₁ := by simp only [o, Outcome.run_cons, Outcome.andThen, ← ho₁, hr, if_true]
      have hr' : r = x.handle svc ⟨i, k, ps⟩ := by
        unfold linesOf at hrest
        simp only [r, linesOf, List.map_cons, run, hrest, List.append_nil]
      rw [ho, hr']
      refine ⟨by rw [hstep], by rw [hstep], hchannel, hothers⟩
    | false =>
      obtain ⟨h₁, h₂, h₃, h₄⟩ := ih (x.handle svc ⟨i, k, ps⟩).1 (by rw [hchannel]; exact hr)
      have hworld : (x.handle svc ⟨i, k, ps⟩).1.world = o₁.state.2 := by rw [hstep]
      rw [hchannel, hworld] at h₁ h₂ h₃
      unfold linesOf at h₁ h₂ h₃ h₄
      simp only [o, r, linesOf, List.map_cons, run, Outcome.run_cons, Outcome.andThen, ← ho₁, hr,
        Bool.false_eq_true, if_false]
      refine ⟨?_, h₂, h₃, fun j hj => (h₄ j hj).trans (hothers j hj)⟩
      rw [h₁, hstep, List.map_append]

end Serial
variable (svc : Service κ τ ω ε)

/-! ### Connections -/
/-- Pieces go to the fields of the channel only. -/
theorem foldl_collect_callbacks (k : κ) (pieces : List Bytes) (t : τ) (w : ω) :
    pieces.foldl (svc.callbacks k).collectIncomingData (t, w) =
      (pieces.foldl (svc.collectIncomingData k) t, w) := by
  induction pieces generalizing t with
  | nil => rfl
  | cons p ps ih =>
    rw [List.foldl_cons, List.foldl_cons]
    exact ih _

/-- A connection of the process after some lines: it has read what makes up its lines, and holds the
pieces of the next one, unless it has been closed by an exception. -/
structure Tracks (x : Serial τ ω) (lines : List (Line κ)) (i : ℕ) (k : κ) (c : Connection τ) :
    Prop where
  lines_eq : lines.filter (·.id = i) = linesOf i k (cutLines 10 [] c.received).1
  open_of : (x.channel svc k i).2 = false → c.acInBuffer = [] ∧ c.terminator = .bytes [10] ∧
    c.channel = (cutLines 10 [] c.received).2.foldl (svc.collectIncomingData k) (x.channel svc k i).1
  closed_of : (x.channel svc k i).2 = true → c.fileno = none

theorem Tracks.sameInput {x : Serial τ ω} {lines : List (Line κ)} {i : ℕ} {k : κ}
    {c c' : Connection τ} (h : Tracks svc x lines i k c) (hc : SameInput c c') :
    Tracks svc x lines i k c' where
  lines_eq := by rw [hc.received, h.lines_eq]
  open_of hr := by
    rw [hc.acInBuffer, hc.terminator, hc.channel, hc.received]
    exact h.open_of hr
  closed_of hr := hc.fileno.elim (·.trans (h.closed_of hr)) id

theorem filter_linesOf_self (i : ℕ) (k : κ) (new : List (List Bytes)) :
    (linesOf i k new).filter (·.id = i) = linesOf i k new := by
  refine List.filter_eq_self.mpr fun l hl => ?_
  obtain ⟨ps, -, rfl⟩ := List.mem_map.mp hl
  exact decide_eq_true rfl

theorem filter_linesOf_other {i j : ℕ} (hj : j ≠ i) (k : κ) (new : List (List Bytes)) :
    (linesOf i k new).filter (·.id = j) = [] := by
  refine List.filter_eq_nil_iff.mpr fun l hl => ?_
  obtain ⟨ps, -, rfl⟩ := List.mem_map.mp hl
  simpa using Ne.symm hj

/-- Lines of another connection make no difference. -/
theorem Tracks.other {x x' : Serial τ ω} {lines : List (Line κ)} {i j : ℕ} {k' : κ}
    {c : Connection τ} (h : Tracks svc x lines j k' c) (hj : j ≠ i)
    (hothers : ∀ j, j ≠ i → x'.channels j = x.channels j) (k : κ) (new : List (List Bytes)) :
    Tracks svc x' (lines ++ linesOf i k new) j k' c := by
  have hchannel : x'.channel svc k' j = x.channel svc k' j := by
    rw [Serial.channel, Serial.channel, hothers j hj]
  refine ⟨?_, ?_, ?_⟩
  · rw [List.filter_append, filter_linesOf_other hj, List.append_nil, h.lines_eq]
  · rw [hchannel]
    exact h.open_of
  · rw [hchannel]
    exact h.closed_of

/-- **`handle_read`, with the lines it completes.** -/
theorem handleRead_lines {x : Serial τ ω} {lines : List (Line κ)} {i : ℕ} {k : κ}
    {c : Connection τ} (h : Tracks svc x lines i k c) (hopen : c.fileno ≠ none)
    (sends : List SendAnswer) (recv : Recv) :
    let t := svc.handleRead k ⟨c, x.world, [], sends⟩ recv
    ∃ new : List (List Bytes),
      let r := x.run svc (linesOf i k new)
      t.1.world = r.1.world ∧ t.1.events.map (fun e => (i, e)) = r.2 ∧
        (∀ j, j ≠ i → r.1.channels j = x.channels j) ∧
        ∀ c', SameInput t.1.connection c' → (t.2 = true → c'.fileno = none) →
          Tracks svc r.1 (lines ++ linesOf i k new) i k c' := by
  intro t
  have hraised : (x.channel svc k i).2 = false := by
    by_contra hr
    exact hopen (h.closed_of (by simpa using hr))
  obtain ⟨hbuffer, hterm, hchannel⟩ := h.open_of hraised
  -- a read that gives no octets completes no line
  have hnone : ∀ c₁, SameInput c c₁ →
      t = (⟨c₁, x.world, [], t.1.sends⟩, false) → ∃ new : List (List Bytes),
      let r := x.run svc (linesOf i k new)
      t.1.world = r.1.world ∧ t.1.events.map (fun e => (i, e)) = r.2 ∧
        (∀ j, j ≠ i → r.1.channels j = x.channels j) ∧
        ∀ c', SameInput t.1.connection c' → (t.2 = true → c'.fileno = none) →
          Tracks svc r.1 (lines ++ linesOf i k new) i k c' := by
    intro c₁ hc₁ ht
    refine ⟨[], ?_⟩
    rw [ht]
    refine ⟨rfl, rfl, fun _ _ => rfl, fun c' hc' _ => ?_⟩
    rw [linesOf, List.map_nil, List.append_nil]
    exact h.sameInput svc (hc₁.trans hc')
  cases recv with
  | wouldBlock => exact hnone c (SameInput.refl c) rfl
  | failed => exact hnone c.handleClose (SameInput.handleClose c) rfl
  | data data =>
    by_cases hdata : data = []
    · -- the end of the stream: the buffer is empty, and the loop is not entered
      refine hnone c.handleClose (SameInput.handleClose c) ?_
      obtain ⟨⟨buffer, term, connected, channel⟩, fileno, fifo, received, sent⟩ := c
      obtain rfl : buffer = [] := hbuffer
      subst hdata
      simp [t, Service.handleRead, Connection.handleClose, Asynchat.handleRead, readLoop,
        AsyncChat.handleClose, Outcome.pure, Service.pushEvents]
    · set pending := (cutLines 10 [] c.received).2 with hpending
      set cut := cutChunk 10 pending data with hcut
      obtain ⟨h₁, h₂, h₃, h₄⟩ := handleRead_spec (svc.callbacks k) 10 c.connected pending
        ((x.channel svc k i).1, x.world) hdata
      rw [foldl_collect_callbacks, ← hchannel, ← hcut] at h₁ h₂ h₃ h₄
      obtain ⟨hevents, hworld, hlast, hothers⟩ := Serial.run_connection svc x k i cut.1 hraised
      set o := Outcome.run (feedLine (svc.callbacks k)) ((x.channel svc k i).1, x.world) cut.1
      set r := Asynchat.handleRead (svc.callbacks k)
        ⟨[], .bytes [10], c.connected, (c.channel, x.world)⟩ data with hr
      have ht : t.1.world = r.state.channel.2 ∧ t.1.events = r.events ∧ t.2 = r.raised ∧
          SameInput { c with
            received := c.received ++ [data]
            acInBuffer := r.state.acInBuffer
            terminator := r.state.terminator
            channel := r.state.channel.1 } t.1.connection := by
        simp only [t, Service.handleRead, hdata, if_false, hbuffer, hterm, ← hr,
          List.nil_append, true_and]
        exact SameInput.pushEvents svc _ _ _
      obtain ⟨ht₁, ht₂, ht₃, ht₄⟩ := ht
      have hcut' : cutLines 10 [] (c.received ++ [data]) =
          ((cutLines 10 [] c.received).1 ++ cut.1, cut.2) := cutLines_concat ..
      refine ⟨cut.1, ?_, ?_, hothers, fun c' hc' hclosed => ?_⟩
      · rw [ht₁, hworld]
        cases ho : o.raised with
        | true => rw [h₃ ho]
        | false => rw [h₄ ho, foldl_collect_callbacks]
      · rw [ht₂, h₁, hevents]
      · have hc := ht₄.trans hc'
        refine ⟨?_, fun hopen' => ?_, fun hclosed' => ?_⟩
        · rw [List.filter_append, filter_linesOf_self, h.lines_eq, hc.received, hcut', linesOf,
            linesOf, linesOf, List.map_append]
        · rw [hlast] at hopen' ⊢
          rw [hc.acInBuffer, hc.terminator, hc.channel, hc.received, hcut', h₄ hopen',
            foldl_collect_callbacks]
          exact ⟨rfl, rfl, rfl⟩
        · rw [hlast] at hclosed'
          exact hclosed (ht₃.trans (h₂.trans hclosed'))

/-- **`readwrite` of a channel, with the lines it completes.** -/
theorem readwriteChat_lines {x : Serial τ ω} {lines : List (Line κ)} {i : ℕ} {k : κ}
    {c : Connection τ} (h : Tracks svc x lines i k c) (hopen : c.fileno ≠ none) (e : Event) :
    let t := svc.readwriteChat k ⟨c, x.world, [], e.sends⟩ e
    ∃ new : List (List Bytes),
      let r := x.run svc (linesOf i k new)
      t.world = r.1.world ∧ t.events.map (fun e => (i, e)) = r.2 ∧
        (∀ j, j ≠ i → r.1.channels j = x.channels j) ∧
        Tracks svc r.1 (lines ++ linesOf i k new) i k t.connection := by
  intro t
  by_cases hin : e.flags.pollIn = true
  · obtain ⟨new, hworld, hevents, hothers, htracks⟩ := handleRead_lines svc h hopen e.sends e.recv
    obtain ⟨h₁, h₂, h₃, h₄⟩ := readwriteChat_of_read svc (t := ⟨c, x.world, [], e.sends⟩) (e := e)
      (if_pos hin)
    exact ⟨new, h₁.trans hworld, by rw [h₂]; exact hevents, hothers, htracks _ h₃ h₄⟩
  · obtain ⟨h₁, h₂, h₃, -⟩ := readwriteChat_of_read svc (t := ⟨c, x.world, [], e.sends⟩) (e := e)
      (if_neg hin)
    refine ⟨[], h₁, by rw [h₂]; rfl, fun _ _ => rfl, ?_⟩
    rw [linesOf, List.map_nil, List.append_nil]
    exact h.sameInput svc h₃
/-! ### Runs -/

/-- A process that has come from handling lines one at a time. -/
structure Refines (w : ω) (s : Server κ τ ω) (trace : List (ℕ × ε)) (lines : List (Line κ)) :
    Prop where
  world_eq : ((Serial.start w).run svc lines).1.world = s.world
  trace_eq : ((Serial.start w).run svc lines).2 = trace
  connection : ∀ i k c, s.objects[i]? = some (.asyncChat k c) →
    Tracks svc ((Serial.start w).run svc lines).1 lines i k c
  owned : ∀ l ∈ lines, ∃ c, s.objects[l.id]? = some (.asyncChat l.policyChannel c)
  unborn : ∀ i, s.objects.length ≤ i → ((Serial.start w).run svc lines).1.channels i = none

namespace Refines

variable {svc} {w : ω} {s : Server κ τ ω} {trace : List (ℕ × ε)} {lines : List (Line κ)}

theorem filter_of_length_le (h : Refines svc w s trace lines) {i : ℕ} (hi : s.objects.length ≤ i) :
    lines.filter (·.id = i) = [] := by
  refine List.filter_eq_nil_iff.mpr fun l hl heq => ?_
  obtain ⟨c, hc⟩ := h.owned l hl
  obtain ⟨hlt, -⟩ := List.getElem?_eq_some_iff.mp hc
  obtain rfl : l.id = i := of_decide_eq_true heq
  omega

/-- A new connection has no line yet. -/
theorem handleAccepted (h : Refines svc w s trace lines) (k : κ) (fd : ℕ) (peer : Peer) :
    Refines svc w (s.handleAccepted svc k fd peer) trace lines := by
  have hadd : ∀ (connected : Bool) (m : Dict ℕ ℕ), Refines svc w { s with
      objects := s.objects ++ [.asyncChat k (svc.newConnection k fd connected)]
      socketMap := m } trace lines := by
    intro connected m
    refine ⟨h.world_eq, h.trace_eq, fun i k' c hi => ?_, fun l hl => ?_, fun i hlen => ?_⟩
    · rcases lt_or_ge i s.objects.length with hlt | hge
      · rw [List.getElem?_append_left hlt] at hi
        exact h.connection i k' c hi
      · rw [List.getElem?_append_right hge] at hi
        obtain ⟨hlt, hi⟩ := List.getElem?_eq_some_iff.mp hi
        obtain rfl : i = s.objects.length := by
          rw [List.length_singleton] at hlt
          omega
        have hlines := h.filter_of_length_le (le_refl s.objects.length)
        have hchannel := h.unborn _ (le_refl s.objects.length)
        simp only [Nat.sub_self, List.getElem_singleton, Dispatcher.asyncChat.injEq] at hi
        obtain ⟨rfl, rfl⟩ := hi
        have hch : ((Serial.start w).run svc lines).1.channel svc k s.objects.length =
            (svc.init k, false) := by rw [Serial.channel, hchannel]; rfl
        refine ⟨hlines, fun _ => ?_, fun hr => ?_⟩
        · rw [hch]
          exact ⟨rfl, rfl, rfl⟩
        · rw [hch] at hr
          cases hr
    · obtain ⟨c, hc⟩ := h.owned l hl
      obtain ⟨hlt, -⟩ := List.getElem?_eq_some_iff.mp hc
      exact ⟨c, by rw [List.getElem?_append_left hlt, hc]⟩
    · refine h.unborn i (le_trans ?_ hlen)
      simp
  cases peer with
  | connected => exact hadd true _
  | notConnected => exact hadd false _
  | broken => exact ⟨h.world_eq, h.trace_eq, h.connection, h.owned, h.unborn⟩

/-- A `DaemonSocket` handles no line. -/
theorem put_daemon (h : Refines svc w s trace lines) {i : ℕ} {k : κ} {fileno : Option ℕ}
    {accepting : Bool} (hi : s.objects[i]? = some (.daemonSocket k fileno accepting)) (fd : ℕ)
    (fileno' : Option ℕ) (accepting' : Bool) :
    Refines svc w (s.put i fd (.daemonSocket k fileno' accepting')) trace lines := by
  refine ⟨h.world_eq, h.trace_eq, fun j k' c hj => ?_, fun l hl => ?_, fun j hlen => ?_⟩
  · refine h.connection j k' c ?_
    rw [Server.put, List.getElem?_set] at hj
    split_ifs at hj
    · cases hj
    · exact hj
  · obtain ⟨c, hc⟩ := h.owned l hl
    have hne : i ≠ l.id := by
      intro heq
      rw [← heq, hi] at hc
      cases hc
    exact ⟨c, by rw [Server.put, List.getElem?_set_ne hne, hc]⟩
  · refine h.unborn j (le_trans ?_ hlen)
    simp [Server.put]

/-- A turn of a channel handles the lines it completes. -/
theorem readwriteChat (h : Refines svc w s trace lines) {i : ℕ} {k : κ} {c : Connection τ}
    (hi : s.objects[i]? = some (.asyncChat k c)) (e : Event) (hc : c.fileno = some e.fd) :
    let t := svc.readwriteChat k ⟨c, s.world, [], e.sends⟩ e
    ∃ new, Refines svc w ({ s with world := t.world }.put i e.fd (.asyncChat k t.connection))
      (trace ++ t.events.map fun x => (i, x)) (lines ++ linesOf i k new) := by
  intro t
  have htracks := h.connection i k c hi
  obtain ⟨new, hworld, hevents, hothers, htracks'⟩ :=
    readwriteChat_lines svc htracks (by rw [hc]; exact Option.some_ne_none _) e
  rw [h.world_eq] at hworld hevents htracks'
  refine ⟨new, ?_⟩
  have hrun := Serial.run_append svc (Serial.start w) lines (linesOf i k new)
  obtain ⟨hlt, -⟩ := List.getElem?_eq_some_iff.mp hi
  refine ⟨?_, ?_, fun j k' c' hj => ?_, fun l hl => ?_, fun j hlen => ?_⟩
  · rw [hrun]
    exact hworld.symm
  · rw [hrun, h.trace_eq]
    exact congrArg (trace ++ ·) hevents.symm
  · rw [hrun]
    rw [Server.put, List.getElem?_set] at hj
    split_ifs at hj with hij
    · obtain rfl := hij
      obtain ⟨rfl, rfl⟩ := Dispatcher.asyncChat.inj (Option.some.inj hj)
      exact htracks'
    · exact (h.connection j k' c' hj).other svc (Ne.symm hij) hothers k new
  · have howner : ∃ c', s.objects[l.id]? = some (.asyncChat l.policyChannel c') := by
      rcases List.mem_append.mp hl with hl | hl
      · exact h.owned l hl
      · obtain ⟨ps, -, rfl⟩ := List.mem_map.mp hl
        exact ⟨c, hi⟩
    obtain ⟨c', hc'⟩ := howner
    rw [Server.put, List.getElem?_set]
    by_cases hil : i = l.id
    · rw [← hil, hi] at hc'
      obtain ⟨hk, -⟩ := Dispatcher.asyncChat.inj (Option.some.inj hc')
      exact ⟨t.connection, by rw [if_pos hil, if_pos hlt, hk]⟩
    · exact ⟨c', by rw [if_neg hil, hc']⟩
  · rw [Server.put, List.length_set] at hlen
    rw [hrun, hothers j (Nat.ne_of_gt (lt_of_lt_of_le hlt hlen))]
    exact h.unborn j hlen

end Refines
/-! ### The process -/

/-- Everything a `readwrite` can do is handling some lines, or none. -/
theorem kept_refines (w : ω) :
    Kept svc fun s trace => ∃ lines, Refines svc w s trace lines where
  accepted s trace k fd peer := fun ⟨lines, h⟩ => ⟨lines, h.handleAccepted k fd peer⟩
  daemon s trace i k fd fileno accepting hi := fun ⟨lines, h⟩ =>
    ⟨lines, h.put_daemon hi fd fileno accepting⟩
  chat s trace i k c e hi hc := fun ⟨lines, h⟩ => by
    obtain ⟨new, hnew⟩ := h.readwriteChat hi e hc
    exact ⟨_, hnew⟩

theorem refines_start (w : ω) (listeners : List (κ × ℕ)) :
    Refines svc w (Server.start w listeners) [] [] where
  world_eq := rfl
  trace_eq := rfl
  connection i k c hi := by
    rw [Server.start, List.getElem?_map, Option.map_eq_some_iff] at hi
    obtain ⟨l, -, hl⟩ := hi
    cases hl
  owned l hl := by cases hl
  unborn i _ := rfl

theorem exists_refines (w : ω) (listeners : List (κ × ℕ)) (events : List Event) :
    let r := (Server.start w listeners).loop svc events
    ∃ lines : List (Line κ), Refines svc w r.1 r.2 lines :=
  (kept_refines svc w).loop (mapped_start w listeners) ⟨[], refines_start svc w listeners⟩ events

/-- **The process handles whole lines one at a time.** For every order of events there is an order of
lines, each a line of a connection of the process, such that the process does what those lines do
one after the other, and leaves the shared state as they leave it.  The lines of a connection are
those its own reads complete, and until one of them raises it holds what they have left. -/
theorem loop_refines (w : ω) (listeners : List (κ × ℕ)) (events : List Event) :
    let r := (Server.start w listeners).loop svc events
    ∃ lines : List (Line κ),
      let x := (Serial.start w).run svc lines
      x.2 = r.2 ∧ x.1.world = r.1.world ∧
      (∀ l ∈ lines, ∃ c, r.1.objects[l.id]? = some (.asyncChat l.policyChannel c)) ∧
      ∀ i k c, r.1.objects[i]? = some (.asyncChat k c) → Tracks svc x.1 lines i k c := by
  intro r
  obtain ⟨lines, h⟩ := exists_refines svc w listeners events
  exact ⟨lines, h.trace_eq, h.world_eq, h.owned, h.connection⟩

end IRedAPD.Asyncore

/-
  `handle_read` with a one-octet terminator, against the framing of its input.

  Whatever the subclass does, reading chunks is feeding it the lines they
  complete, each as the pieces it arrived in (`readAll_events`): the pieces go
  to `collect_incoming_data`, the end of the line to `found_terminator`, and an
  exception ends the connection.
-/
import IRedAPD.Asynchat
import IRedAPD.Framing

namespace IRedAPD.Asynchat

open Py Framing

variable {σ ε : Type*}

/-! ### `find` and `find_prefix_at_end` for one octet -/

/-- Searching one octet finds its first occurrence. -/
theorem find_append_cons {d : UInt8} {l : Bytes} (hl : d ∉ l) (s : Bytes) :
    find [d] (l ++ d :: s) = some l.length := by
  induction l with
  | nil => simp [find]
  | cons a l ih =>
    obtain ⟨had, hl'⟩ : d ≠ a ∧ d ∉ l := by simpa using hl
    simp [find, had, ih hl']

theorem find_of_not_mem {d : UInt8} {s : Bytes} (hs : d ∉ s) : find [d] s = none := by
  induction s with
  | nil => simp [find]
  | cons a s ih =>
    obtain ⟨had, hs'⟩ : d ≠ a ∧ d ∉ s := by simpa using hs
    simp [find, had, ih hs']

/-! ### The loop -/

/-- The pieces of a line and its end. -/
def feedLine (cb : Callbacks σ ε) (s : σ) (pieces : List Bytes) : Outcome σ ε :=
  cb.foundTerminator (pieces.foldl cb.collectIncomingData s)

/-- The parts of a chunk between terminators. -/
def feedParts (cb : Callbacks σ ε) (s : σ) : List Bytes → Outcome σ ε
  | [] => .pure s
  | [l] => .pure ((piece l).foldl cb.collectIncomingData s)
  | l :: l' :: ls => (feedLine cb s (piece l)).andThen fun s' => feedParts cb s' (l' :: ls)

/-- Feeding the parts is feeding the lines they complete and collecting what is left. -/
theorem feedParts_eq (cb : Callbacks σ ε) (s : σ) (pending parts : List Bytes) :
    feedParts cb (pending.foldl cb.collectIncomingData s) parts =
      (Outcome.run (feedLine cb) s (cutParts pending parts).1).andThen fun s' =>
        .pure ((cutParts pending parts).2.foldl cb.collectIncomingData s') := by
  induction parts generalizing s pending with
  | nil => simp [feedParts, cutParts]
  | cons l ls ih =>
    cases ls with
    | nil => simp [feedParts, cutParts]
    | cons l' ls =>
      have hrest : ∀ s', feedParts cb s' (l' :: ls) = _ := fun s' => by simpa using ih s' []
      simp only [feedParts, cutParts, Outcome.run_cons, Outcome.andThen_assoc, hrest, feedLine,
        List.foldl_append]

/-- A round that finds the terminator. -/
theorem readLoop_found (cb : Callbacks σ ε) {d : UInt8} {l : Bytes} (hl : d ∉ l) (s : Bytes)
    (n : ℕ) (c : AsyncChat σ) (ht : c.terminator = .bytes [d]) (hb : c.acInBuffer = l ++ d :: s) :
    readLoop cb (n + 1) c =
      ((feedLine cb c.channel (piece l)).mapState fun s' =>
        { c with acInBuffer := s, channel := s' }).andThen (readLoop cb n) := by
  have hne : l ++ d :: s ≠ [] := by simp
  have htake : (l ++ d :: s).take l.length = l := by simp
  have hdrop : (l ++ d :: s).drop (l.length + [d].length) = s := by
    rw [← List.drop_drop, List.drop_left]
    rfl
  simp only [readLoop, hb, hne, if_false, ht, find_append_cons hl, htake, hdrop]
  by_cases h : l = []
  · simp [h, AsyncChat.found, feedLine, piece, ht]
  · have hpos : 0 < l.length := List.length_pos_iff.mpr h
    simp [h, hpos, AsyncChat.found, AsyncChat.collect, feedLine, piece, ht]

/-- The last round: no terminator is left. -/
theorem readLoop_last (cb : Callbacks σ ε) {d : UInt8} (n : ℕ) (c : AsyncChat σ)
    (ht : c.terminator = .bytes [d]) (hb : d ∉ c.acInBuffer) :
    readLoop cb (n + 1) c = .pure { c with
      acInBuffer := []
      channel := (piece c.acInBuffer).foldl cb.collectIncomingData c.channel } := by
  by_cases h : c.acInBuffer = []
  · obtain ⟨buffer, term, connected, channel⟩ := c
    obtain rfl : buffer = [] := h
    simp [readLoop, piece]
  · simp [readLoop, h, ht, find_of_not_mem hb, findPrefixAtEnd, prefixAtEnd, piece,
      AsyncChat.collect]

/-- **The loop feeds the parts of the buffer.** -/
theorem readLoop_spec (cb : Callbacks σ ε) {d : UInt8} :
    ∀ (n : ℕ) (c : AsyncChat σ), c.terminator = .bytes [d] → c.acInBuffer.length ≤ n →
      (readLoop cb n c).events = (feedParts cb c.channel (c.acInBuffer.splitOn d)).events ∧
      (readLoop cb n c).raised = (feedParts cb c.channel (c.acInBuffer.splitOn d)).raised ∧
      ((readLoop cb n c).raised = false → (readLoop cb n c).state =
        { c with
          acInBuffer := []
          channel := (feedParts cb c.channel (c.acInBuffer.splitOn d)).state }) := by
  intro n
  induction n with
  | zero =>
    intro c ht hn
    obtain ⟨buffer, term, connected, channel⟩ := c
    obtain rfl : buffer = [] := List.length_eq_zero_iff.mp (Nat.le_zero.mp hn)
    simp [readLoop, Outcome.pure, feedParts, piece]
  | succ n ih =>
    intro c ht hn
    by_cases hd : d ∈ c.acInBuffer
    · obtain ⟨l, s, hb, hl⟩ := List.eq_append_cons_of_mem hd
      have hlen : s.length ≤ n := by
        have := congrArg List.length hb
        simp only [List.length_append, List.length_cons] at this
        omega
      obtain ⟨l', ls, hs⟩ := List.exists_cons_of_ne_nil (List.splitOn_ne_nil d s)
      rw [readLoop_found cb hl s n c ht hb, hb, List.splitOn_append_cons_self_of_not_mem hl, hs]
      simp only [feedParts, Outcome.andThen, Outcome.mapState_state, Outcome.mapState_events,
        Outcome.mapState_raised]
      by_cases hr : (feedLine cb c.channel (piece l)).raised = true
      · simp [hr]
      · -- the rest of the buffer, from the channel the line has left
        obtain ⟨h₁, h₂, h₃⟩ := ih { c with
          acInBuffer := s
          channel := (feedLine cb c.channel (piece l)).state } ht hlen
        simp only [hs] at h₁ h₂ h₃
        simp only [hr, Bool.false_eq_true, if_false]
        exact ⟨by rw [h₁], h₂, h₃⟩
    · rw [readLoop_last cb n c ht hd, List.splitOn_eq_singleton hd]
      simp [feedParts, Outcome.pure]

/-! ### Reads -/

/-- A connected channel between two reads, the pieces of an unfinished line already collected. -/
def AsyncChat.between (cb : Callbacks σ ε) (d : UInt8) (pending : List Bytes) (s : σ) :
    AsyncChat σ :=
  ⟨[], .bytes [d], true, pending.foldl cb.collectIncomingData s⟩

theorem readAll_of_not_connected (cb : Callbacks σ ε) {c : AsyncChat σ} (hc : c.connected = false)
    (chunks : List Bytes) : readAll cb c chunks = (c, []) := by
  induction chunks with
  | nil => rfl
  | cons data chunks ih => simp [readAll, read, hc, ih]

/-- One read: the lines it completes are fed, and an exception closes the channel. -/
theorem read_between (cb : Callbacks σ ε) (d : UInt8) (pending : List Bytes) (s : σ)
    {data : Bytes} (hdata : data ≠ []) :
    let o := Outcome.run (feedLine cb) s (cutChunk d pending data).1
    let r := read cb (.between cb d pending s) data
    r.2 = o.events ∧ (o.raised = true → r.1.connected = false) ∧
      (o.raised = false → r.1 = .between cb d (cutChunk d pending data).2 o.state) := by
  intro o r
  set loop := readLoop cb data.length
    ⟨data, .bytes [d], true, pending.foldl cb.collectIncomingData s⟩ with hloop
  have hr : r = (if loop.raised then loop.state.handleClose else loop.state, loop.events) := by
    simp [r, read, handleRead, AsyncChat.between, hdata, hloop]
  obtain ⟨h₁, h₂, h₃⟩ := readLoop_spec cb (d := d) data.length
    ⟨data, .bytes [d], true, pending.foldl cb.collectIncomingData s⟩ rfl le_rfl
  simp only [feedParts_eq, ← cutChunk.eq_1, ← hloop] at h₁ h₂ h₃
  cases ho : o.raised with
  | true =>
    simp only [Outcome.andThen, show (Outcome.run _ _ _).raised = true from ho, if_true] at h₁ h₂
    rw [h₂, if_pos rfl] at hr
    exact ⟨by rw [hr]; exact h₁, fun _ => by rw [hr]; rfl, by simp⟩
  | false =>
    simp only [Outcome.andThen, show (Outcome.run _ _ _).raised = false from ho,
      Bool.false_eq_true, if_false, Outcome.pure, List.append_nil] at h₁ h₂ h₃
    rw [h₂, if_neg (by simp)] at hr
    refine ⟨by rw [hr]; exact h₁, by simp, fun _ => ?_⟩
    rw [hr, h₃ h₂]
    rfl

/-- **Reading chunks is feeding the lines they complete**, each as the pieces it arrived in. -/
theorem readAll_events (cb : Callbacks σ ε) (d : UInt8) (chunks : List Bytes) :
    ∀ (pending : List Bytes) (s : σ), [] ∉ chunks →
      (readAll cb (.between cb d pending s) chunks).2 =
        (Outcome.run (feedLine cb) s (cutLines d pending chunks).1).events := by
  induction chunks with
  | nil => intro pending s _; rfl
  | cons data chunks ih =>
    intro pending s hne
    have hdata : data ≠ [] := fun h => hne (by simp [h])
    have hchunks : [] ∉ chunks := fun h => hne (by simp [h])
    obtain ⟨hevents, hraised, hstate⟩ := read_between cb d pending s hdata
    simp only [readAll, cutLines, Outcome.run_append, Outcome.andThen, hevents]
    cases ho : (Outcome.run (feedLine cb) s (cutChunk d pending data).1).raised with
    | true => simp [readAll_of_not_connected cb (hraised ho)]
    | false =>
      simp only [Bool.false_eq_true, if_false]
      rw [hstate ho, ih _ _ hchunks]

end IRedAPD.Asynchat

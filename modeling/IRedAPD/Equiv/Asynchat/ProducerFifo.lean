/-
  What becomes of the octets given to `push`.

  `initiateSend_cases` says all that one call of `initiate_send` can do.  From
  it: what the socket has taken and what is queued are always what was pushed,
  in order (`sent_append_payload`); the queue empties as long as the socket takes
  octets (`handleWrite_drains`); and `close_when_done` closes the channel after
  what was pushed before it and sends nothing of what is pushed after it
  (`closeWhenDone_sent`).
-/
import IRedAPD.Asynchat.ProducerFifo

namespace IRedAPD.Asynchat

open Py

/-! ### What a queue holds -/

/-- All octets of a queue. -/
def payload : List Entry → Bytes
  | [] => []
  | .data d :: fifo => d ++ payload fifo
  | .done :: fifo => payload fifo
  | .producer p :: fifo => p.data ++ payload fifo

/-- The octets in front of the first `None`. -/
def deliverable : List Entry → Bytes
  | [] => []
  | .data d :: fifo => d ++ deliverable fifo
  | .done :: _ => []
  | .producer p :: fifo => p.data ++ deliverable fifo

/-- A bound on the calls of `initiate_send` that empty a queue, or reach the first `None`.  A
producer that hands out an octet leaves one entry more. -/
def pendingCalls : List Entry → ℕ
  | [] => 0
  | .data d :: fifo => 2 * d.length + 1 + pendingCalls fifo
  | .done :: _ => 1
  | .producer p :: fifo => 2 * p.data.length + 1 + pendingCalls fifo

theorem payload_append (fifo fifo' : List Entry) :
    payload (fifo ++ fifo') = payload fifo ++ payload fifo' := by
  induction fifo with
  | nil => rfl
  | cons e fifo ih => cases e <;> simp [payload, ih]

theorem deliverable_concat_done {fifo : List Entry} (h : Entry.done ∉ fifo) :
    deliverable (fifo ++ [.done]) = payload fifo := by
  induction fifo with
  | nil => rfl
  | cons e fifo ih =>
    rw [List.mem_cons, not_or] at h
    rw [List.cons_append]
    cases e with
    | data d => rw [deliverable, payload, ih h.2]
    | done => exact absurd rfl h.1
    | producer p => rw [deliverable, payload, ih h.2]

/-- Behind a `None` nothing is delivered. -/
theorem deliverable_append {fifo : List Entry} (h : Entry.done ∈ fifo) (fifo' : List Entry) :
    deliverable (fifo ++ fifo') = deliverable fifo := by
  induction fifo with
  | nil => simp at h
  | cons e fifo ih =>
    rw [List.cons_append]
    cases e with
    | data d => rw [deliverable, deliverable, ih (by simpa using h)]
    | done => rfl
    | producer p => rw [deliverable, deliverable, ih (by simpa using h)]

theorem eq_nil_of_pendingCalls {fifo : List Entry} (h : pendingCalls fifo = 0) : fifo = [] := by
  cases fifo with
  | nil => rfl
  | cons e fifo => cases e <;> simp [pendingCalls] at h

/-! ### `push` -/

/-- Slices of one length, one after the other, are the text. -/
theorem flatten_map_slices (s : ℕ) (data : Bytes) (n : ℕ) (h : data.length ≤ n * s) :
    ((List.range n).map fun i => (data.drop (i * s)).take s).flatten = data := by
  induction n generalizing data with
  | zero =>
    have : data = [] := List.length_eq_zero_iff.mp (by omega)
    simp [this]
  | succ n ih =>
    have hrest : (data.drop s).length ≤ n * s := by
      rw [List.length_drop]
      have : (n + 1) * s = n * s + s := Nat.succ_mul n s
      omega
    have htail : ((List.range n).map fun i => (data.drop ((i + 1) * s)).take s) =
        (List.range n).map fun i => ((data.drop s).drop (i * s)).take s := by
      refine List.map_congr_left fun i _ => ?_
      rw [List.drop_drop, Nat.succ_mul, Nat.add_comm s]
    rw [List.range_succ_eq_map, List.map_cons, List.map_map, List.flatten_cons]
    simp only [Nat.zero_mul, List.drop_zero, Function.comp_def, Nat.succ_eq_add_one]
    rw [htail, ih _ hrest, List.take_append_drop]

theorem payload_map_data {ι : Type*} (f : ι → Bytes) (is : List ι) :
    payload (is.map fun i => .data (f i)) = (is.map f).flatten := by
  induction is with
  | nil => rfl
  | cons i is ih => simp [payload, ih]

/-- `push` queues what it is given, whole. -/
@[simp] theorem payload_pushEntries (data : Bytes) : payload (pushEntries data) = data := by
  unfold pushEntries
  simp only
  split_ifs
  · rw [payload_map_data]
    refine flatten_map_slices _ data _ ?_
    unfold acOutBufferSize
    omega
  · simp [payload]

theorem done_notMem_pushEntries (data : Bytes) : Entry.done ∉ pushEntries data := by
  unfold pushEntries
  simp only
  split_ifs <;> simp

/-! ### `initiate_send` -/

/-- An answer that breaks the connection. -/
def SendAnswer.Broken : SendAnswer → Prop
  | .accepted _ | .wouldBlock => False
  | .disconnected | .failed => True

/-- An answer that takes an octet if there is one. -/
def SendAnswer.Takes : SendAnswer → Prop
  | .accepted n => 0 < n
  | _ => False

/-- What a call of `initiate_send` does to a queue: it sends some of what stands first, or it closes
the channel, at a `None` or because the connection is broken. -/
structure Sends (answer : SendAnswer) (fifo : List Entry) (r : SendStep) : Prop where
  open_of : r.close = false
  payload_eq : r.octets ++ payload r.producerFifo = payload fifo
  deliverable_eq : r.octets ++ deliverable r.producerFifo = deliverable fifo
  done_iff : Entry.done ∈ r.producerFifo ↔ Entry.done ∈ fifo
  progress : answer.Takes → pendingCalls r.producerFifo ≤ pendingCalls fifo - 1

/-- What it does when it closes the channel. -/
structure Closes (answer : SendAnswer) (fifo : List Entry) (r : SendStep) : Prop where
  closed : r.close = true
  octets_eq : r.octets = []
  payload_eq : payload r.producerFifo = payload fifo
  done_of : Entry.done ∈ r.producerFifo → Entry.done ∈ fifo
  why : (Entry.done ∈ fifo ∧ deliverable fifo = []) ∨ answer.Broken

/-- A round that has something to send, at the head of a queue that holds the rest.  With an octet
go two of the calls that are bounded. -/
theorem sendFirst_cases (answer : SendAnswer) {first : Bytes} (hfirst : first ≠ [])
    (rest : List Entry) :
    let r := sendFirst answer first rest
    (Sends answer (.data first :: rest) r ∧
        (answer.Takes → pendingCalls r.producerFifo + 2 ≤ pendingCalls (.data first :: rest))) ∨
      Closes answer (.data first :: rest) r := by
  have hkept : ∀ octets tail : Bytes, octets ++ tail = first → octets ≠ [] →
      Sends answer (.data first :: rest) ⟨.data tail :: rest, octets, false⟩ ∧
        (answer.Takes →
          pendingCalls (.data tail :: rest) + 2 ≤ pendingCalls (.data first :: rest)) := by
    intro octets tail happ hne
    have hlen := congrArg List.length happ
    have hpos := List.length_pos_iff.mpr hne
    rw [List.length_append] at hlen
    have hcalls : pendingCalls (.data tail :: rest) + 2 ≤ pendingCalls (.data first :: rest) := by
      simp only [pendingCalls]
      omega
    refine ⟨⟨rfl, ?_, ?_, by simp, fun _ => ?_⟩, fun _ => hcalls⟩
    · simp [payload, ← happ]
    · simp [deliverable, ← happ]
    · exact Nat.le_sub_of_add_le (Nat.le_of_succ_le hcalls)
  have hstay : ¬ answer.Takes →
      Sends answer (.data first :: rest) ⟨.data first :: rest, [], false⟩ ∧
        (answer.Takes → pendingCalls (.data first :: rest) + 2 ≤
          pendingCalls (.data first :: rest)) := fun htakes =>
    ⟨⟨rfl, rfl, rfl, Iff.rfl, fun h => absurd h htakes⟩, fun h => absurd h htakes⟩
  unfold sendFirst
  simp only
  cases answer with
  | accepted n =>
    left
    simp only
    have hdata : 0 < (first.take acOutBufferSize).length := by
      rw [List.length_take]
      exact lt_min (by decide) (List.length_pos_iff.mpr hfirst)
    set k := min n (first.take acOutBufferSize).length with hk
    have hkle : k ≤ acOutBufferSize := by
      rw [hk, List.length_take]
      omega
    have htake : (first.take acOutBufferSize).take k = first.take k := by
      rw [List.take_take, min_eq_left hkle]
    split_ifs with h₀ h₁
    · have htk : (first.take k).length ≠ 0 := by
        rw [List.length_take]
        rw [List.length_take] at hk
        omega
      rw [htake]
      exact hkept _ _ (List.take_append_drop ..) fun h => htk (by rw [h]; rfl)
    · -- everything that was left of the entry is gone
      have hall : first.take k = first := by
        refine List.take_of_length_le ?_
        rw [List.length_take] at hk h₁
        omega
      have hlen := List.length_pos_iff.mpr hfirst
      rw [htake, hall]
      refine ⟨⟨rfl, rfl, rfl, by simp, fun _ => ?_⟩, fun _ => ?_⟩
      · simp only [pendingCalls]
        omega
      · simp only [pendingCalls]
        omega
    · refine hstay fun htakes => h₀ ?_
      have : 0 < n := htakes
      omega
  | wouldBlock => exact .inl (hstay id)
  | disconnected => exact .inr ⟨rfl, rfl, rfl, id, .inr trivial⟩
  | failed => exact .inr ⟨rfl, rfl, rfl, id, .inr trivial⟩

/-- What a producer hands out and what it keeps. -/
theorem more_append (p : SimpleProducer) : p.more.1 ++ p.more.2.data = p.data := by
  unfold SimpleProducer.more
  split_ifs
  · exact List.take_append_drop ..
  · exact List.append_nil _

/-- A producer that hands out nothing has nothing. -/
theorem data_eq_nil_of_more {p : SimpleProducer} (h : p.more.1 = []) : p.data = [] := by
  unfold SimpleProducer.more at h
  split_ifs at h with hlen
  · have hpos := p.bufferSize_pos
    have hnil := congrArg List.length h
    rw [List.length_take, List.length_nil] at hnil
    omega
  · exact h

/-- **What one call of `initiate_send` does.** -/
theorem initiateSend_cases (answer : SendAnswer) (fifo : List Entry) :
    Sends answer fifo (initiateSend answer fifo) ∨ Closes answer fifo (initiateSend answer fifo) := by
  induction fifo with
  | nil => exact .inl ⟨rfl, rfl, rfl, Iff.rfl, fun _ => le_rfl⟩
  | cons e rest ih =>
    cases e with
    | done =>
      have hhead := List.mem_cons_self (a := Entry.done) (l := rest)
      exact .inr ⟨rfl, rfl, rfl, fun _ => hhead, .inl ⟨hhead, rfl⟩⟩
    | data first =>
      unfold initiateSend
      by_cases hfirst : first = []
      · subst hfirst
        have hgone : Sends answer (.data [] :: rest) ⟨rest, [], false⟩ :=
          ⟨rfl, rfl, rfl, by simp, fun _ => by simp [pendingCalls]⟩
        rw [if_pos rfl]
        cases answer with
        | accepted n => exact .inl hgone
        | wouldBlock => exact .inl hgone
        | disconnected => exact .inr ⟨rfl, rfl, rfl, List.mem_cons_of_mem _, .inr trivial⟩
        | failed => exact .inr ⟨rfl, rfl, rfl, List.mem_cons_of_mem _, .inr trivial⟩
      · rw [if_neg hfirst]
        exact (sendFirst_cases answer hfirst rest).imp_left And.left
    | producer p =>
      have happ := more_append p
      unfold initiateSend
      simp only
      by_cases hmore : p.more.1 = []
      · -- an exhausted producer is deleted, and the loop goes on
        have hdata := data_eq_nil_of_more hmore
        rw [if_neg (not_not.mpr hmore)]
        rcases ih with h | h
        · refine .inl ⟨h.open_of, ?_, ?_, ?_, fun htakes => ?_⟩
          · simpa [payload, hdata] using h.payload_eq
          · simpa [deliverable, hdata] using h.deliverable_eq
          · simpa using h.done_iff
          · have := h.progress htakes
            simp only [pendingCalls]
            omega
        · refine .inr ⟨h.closed, h.octets_eq, ?_,
            fun hmem => List.mem_cons_of_mem _ (h.done_of hmem), ?_⟩
          · simpa [payload, hdata] using h.payload_eq
          · simpa [deliverable, hdata] using h.why
      · rw [if_pos hmore]
        have hlen := congrArg List.length happ
        rw [List.length_append] at hlen
        -- with `appendleft` the queue holds the same octets
        have hpayload : payload (.data p.more.1 :: .producer p.more.2 :: rest) =
            payload (.producer p :: rest) := by simp [payload, ← happ]
        have hdeliverable : deliverable (.data p.more.1 :: .producer p.more.2 :: rest) =
            deliverable (.producer p :: rest) := by simp [deliverable, ← happ]
        have hcalls : pendingCalls (.data p.more.1 :: .producer p.more.2 :: rest) =
            pendingCalls (.producer p :: rest) + 1 := by
          simp only [pendingCalls]
          omega
        rcases sendFirst_cases answer hmore (.producer p.more.2 :: rest) with ⟨h, hcalls'⟩ | h
        · refine .inl ⟨h.open_of, h.payload_eq.trans hpayload,
            h.deliverable_eq.trans hdeliverable, by simpa using h.done_iff, fun htakes => ?_⟩
          have := hcalls' htakes
          omega
        · refine .inr ⟨h.closed, h.octets_eq, h.payload_eq.trans hpayload,
            fun hmem => by simpa using h.done_of hmem, ?_⟩
          rw [← hdeliverable]
          simpa using h.why

/-! ### A channel -/

variable {σ : Type*}

namespace Connection

theorem initiateSend_of_not_connected {c : Connection σ} (h : c.connected = false)
    (answer : SendAnswer) : c.initiateSend answer = c := by
  simp [Connection.initiateSend, h]

/-- What a connected channel is after a call of `initiate_send`. -/
theorem initiateSend_connected {c : Connection σ} (h : c.connected = true) (answer : SendAnswer) :
    (∃ r, Sends answer c.producerFifo r ∧ c.initiateSend answer =
      { c with producerFifo := r.producerFifo, sent := c.sent ++ r.octets }) ∨
    (∃ r, Closes answer c.producerFifo r ∧ c.initiateSend answer =
      { c with producerFifo := r.producerFifo }.handleClose) := by
  have heq : c.initiateSend answer =
      let r := Asynchat.initiateSend answer c.producerFifo
      let c := { c with producerFifo := r.producerFifo, sent := c.sent ++ r.octets }
      if r.close then c.handleClose else c := by simp [Connection.initiateSend, h]
  rcases initiateSend_cases answer c.producerFifo with hr | hr
  · exact .inl ⟨_, hr, by simp [heq, hr.open_of]⟩
  · exact .inr ⟨_, hr, by simp [heq, hr.closed, hr.octets_eq]⟩

theorem initiateSend_payload (c : Connection σ) (answer : SendAnswer) :
    (c.initiateSend answer).sent ++ payload (c.initiateSend answer).producerFifo =
      c.sent ++ payload c.producerFifo := by
  cases h : c.connected with
  | false => rw [initiateSend_of_not_connected h]
  | true =>
    rcases initiateSend_connected h answer with ⟨r, hr, heq⟩ | ⟨r, hr, heq⟩
    · rw [heq, List.append_assoc]
      exact congrArg (c.sent ++ ·) hr.payload_eq
    · rw [heq]
      exact congrArg (c.sent ++ ·) hr.payload_eq

/-- A queue with a `None`: what stands before it is sent, and then the channel is closed. -/
theorem initiateSend_of_done {c : Connection σ} {total : Bytes}
    (hdone : Entry.done ∈ c.producerFifo) (htotal : c.sent ++ deliverable c.producerFifo = total)
    (answer : SendAnswer) :
    let c' := c.initiateSend answer
    (c'.connected = c.connected ∧ Entry.done ∈ c'.producerFifo ∧
        c'.sent ++ deliverable c'.producerFifo = total) ∨
      (c'.connected = false ∧ c'.sent <+: total ∧ (¬ answer.Broken → c'.sent = total)) := by
  intro c'
  cases h : c.connected with
  | false =>
    left
    simp only [c', initiateSend_of_not_connected h]
    exact ⟨h, hdone, htotal⟩
  | true =>
    rcases initiateSend_connected h answer with ⟨r, hr, heq⟩ | ⟨r, hr, heq⟩
    · left
      simp only [c', heq]
      refine ⟨h, hr.done_iff.mpr hdone, ?_⟩
      rw [List.append_assoc, hr.deliverable_eq, htotal]
    · right
      simp only [c', heq, handleClose]
      refine ⟨trivial, ⟨_, htotal⟩, fun hbroken => ?_⟩
      obtain ⟨-, hnil⟩ := hr.why.resolve_right hbroken
      rw [← htotal, hnil, List.append_nil]

end Connection

/-! ### Runs of calls -/

/-- The octets a call pushes. -/
def SendCall.pushed : SendCall → Bytes
  | .push data _ => data
  | .pushWithProducer p _ => p.data
  | .closeWhenDone | .handleWrite _ | .handleClose => []

/-- A call that ends the connection by itself. -/
def SendCall.Breaks : SendCall → Prop
  | .push _ answer | .pushWithProducer _ answer | .handleWrite answer => answer.Broken
  | .closeWhenDone => False
  | .handleClose => True

theorem call_payload (c : Connection σ) (call : SendCall) :
    (c.call call).sent ++ payload (c.call call).producerFifo =
      c.sent ++ payload c.producerFifo ++ call.pushed := by
  cases call with
  | push data answer =>
    simp only [Connection.call, Connection.push, Connection.initiateSend_payload, payload_append,
      payload_pushEntries, SendCall.pushed, List.append_assoc]
  | pushWithProducer p answer =>
    simp only [Connection.call, Connection.pushWithProducer, Connection.initiateSend_payload,
      payload_append, payload, SendCall.pushed, List.append_assoc, List.append_nil]
  | closeWhenDone =>
    simp [Connection.call, Connection.closeWhenDone, payload_append, payload, SendCall.pushed]
  | handleWrite answer =>
    simp [Connection.call, Connection.handleWrite, Connection.initiateSend_payload, SendCall.pushed]
  | handleClose => simp [Connection.call, Connection.handleClose, SendCall.pushed]

/-- **Nothing is lost, repeated or reordered.** However many octets each `send` takes, and also when
the channel is closed, what the socket has taken followed by what is queued is what was pushed. -/
theorem sent_append_payload (c : Connection σ) (calls : List SendCall) :
    let c' := calls.foldl Connection.call c
    c'.sent ++ payload c'.producerFifo =
      c.sent ++ payload c.producerFifo ++ calls.flatMap SendCall.pushed := by
  intro c'
  induction calls generalizing c with
  | nil => simp [c']
  | cons call calls ih =>
    rw [List.flatMap_cons, ← List.append_assoc, ← call_payload]
    exact ih (c.call call)

theorem foldl_handleWrite_of_not_connected {c : Connection σ} (h : c.connected = false)
    (answers : List SendAnswer) : answers.foldl Connection.handleWrite c = c := by
  induction answers with
  | nil => rfl
  | cons answer answers ih =>
    rw [List.foldl_cons, Connection.handleWrite, Connection.initiateSend_of_not_connected h, ih]

theorem not_broken_of_takes {answer : SendAnswer} (h : answer.Takes) : ¬ answer.Broken := by
  cases answer <;> simp [SendAnswer.Takes, SendAnswer.Broken] at *

/-- **The queue empties.** As long as each `send` takes an octet, so many writable events as the
queue asks for send what stands before the first `None`; the channel is then closed if there is
one, and has nothing left to send if there is none. -/
theorem handleWrite_drains (c : Connection σ) (answers : List SendAnswer)
    (hconnected : c.connected = true) (htakes : ∀ answer ∈ answers, answer.Takes)
    (hcalls : pendingCalls c.producerFifo ≤ answers.length) :
    let c' := answers.foldl Connection.handleWrite c
    c'.sent = c.sent ++ deliverable c.producerFifo ∧
      (Entry.done ∈ c.producerFifo → c'.connected = false) ∧
      (Entry.done ∉ c.producerFifo → c'.connected = true ∧ c'.producerFifo = []) := by
  intro c'
  induction answers generalizing c with
  | nil =>
    have hnil := eq_nil_of_pendingCalls (Nat.le_zero.mp hcalls)
    simp [c', hnil, hconnected, deliverable]
  | cons answer answers ih =>
    have htakes' : ∀ a ∈ answers, a.Takes := fun a ha => htakes a (List.mem_cons_of_mem _ ha)
    have hanswer : answer.Takes := htakes answer (List.mem_cons_self ..)
    rcases Connection.initiateSend_connected hconnected answer with ⟨r, hr, heq⟩ | ⟨r, hr, heq⟩
    · have hlen : pendingCalls r.producerFifo ≤ answers.length := by
        have := hr.progress hanswer
        rw [List.length_cons] at hcalls
        omega
      obtain ⟨hsent, hclosed, hopen⟩ := ih (c.initiateSend answer) (by rw [heq]; exact hconnected)
        htakes' (by rw [heq]; exact hlen)
      simp only [heq, hr.done_iff, List.append_assoc, hr.deliverable_eq] at hsent hclosed hopen
      simp only [c', List.foldl_cons, Connection.handleWrite, heq]
      exact ⟨hsent, hclosed, hopen⟩
    · -- the first `None`: nothing follows it on the socket
      obtain ⟨hdone, hnil⟩ := hr.why.resolve_right (not_broken_of_takes hanswer)
      have hrest : c' = c.initiateSend answer := by
        simp only [c', List.foldl_cons, Connection.handleWrite]
        exact foldl_handleWrite_of_not_connected (by rw [heq]; rfl) answers
      rw [hrest, heq, hnil, List.append_nil]
      exact ⟨rfl, fun _ => rfl, fun h => absurd hdone h⟩

/-- Three octets, a producer of five more and a `None` with an octet behind it. -/
def queued : List Entry :=
  [.data [65, 66, 67], .producer ⟨[68, 69, 70, 71, 72], 3, by decide⟩, .done, .data [73]]

/-- Two octets of it are taken at a time. -/
theorem handleWrite_drains_producer :
    let c : Connection Unit := ⟨⟨[], .bytes [10], true, ()⟩, some 4, queued, [], []⟩
    let c' := (List.replicate 19 (.accepted 2)).foldl Connection.handleWrite c
    c'.sent = [65, 66, 67, 68, 69, 70, 71, 72] ∧ c'.connected = false := by
  have htakes : ∀ answer ∈ List.replicate 19 (SendAnswer.accepted 2), answer.Takes := by
    intro answer hanswer
    rw [List.eq_of_mem_replicate hanswer]
    exact Nat.two_pos
  have hdone : Entry.done ∈ queued := List.mem_cons_of_mem _ (List.mem_cons_of_mem _ List.mem_cons_self)
  have hcalls : pendingCalls queued ≤ (List.replicate 19 (SendAnswer.accepted 2)).length := by decide
  obtain ⟨hsent, hclosed, -⟩ := handleWrite_drains
    (⟨⟨[], .bytes [10], true, ()⟩, some 4, queued, [], []⟩ : Connection Unit) _ rfl htakes hcalls
  have hdeliverable : deliverable queued = [65, 66, 67, 68, 69, 70, 71, 72] := by decide
  refine ⟨hsent.trans ?_, hclosed hdone⟩
  rw [List.nil_append, hdeliverable]

/-! ### `close_when_done` -/

/-- After `close_when_done`: `total` is still being sent, or the channel is closed. -/
def Closing (total : Bytes) (c : Connection σ) : Prop :=
  (Entry.done ∈ c.producerFifo ∧ c.sent ++ deliverable c.producerFifo = total) ∨
    (c.connected = false ∧ c.sent <+: total)

theorem Closing.initiateSend {total : Bytes} {c : Connection σ} (h : Closing total c)
    (answer : SendAnswer) : Closing total (c.initiateSend answer) := by
  rcases h with ⟨hdone, htotal⟩ | ⟨hclosed, hprefix⟩
  · rcases Connection.initiateSend_of_done hdone htotal answer with ⟨-, h⟩ | ⟨h₁, h₂, -⟩
    · exact .inl h
    · exact .inr ⟨h₁, h₂⟩
  · rw [Connection.initiateSend_of_not_connected hclosed]
    exact .inr ⟨hclosed, hprefix⟩

/-- What is pushed now stands behind the `None`. -/
theorem Closing.append {total : Bytes} {c : Connection σ} (h : Closing total c)
    (fifo : List Entry) : Closing total { c with producerFifo := c.producerFifo ++ fifo } := by
  refine h.imp_left fun ⟨hdone, htotal⟩ => ⟨List.mem_append_left _ hdone, ?_⟩
  rw [deliverable_append hdone]
  exact htotal

theorem Closing.call {total : Bytes} {c : Connection σ} (h : Closing total c) (call : SendCall) :
    Closing total (c.call call) := by
  cases call with
  | push data answer => exact (h.append _).initiateSend answer
  | pushWithProducer p answer => exact (h.append _).initiateSend answer
  | closeWhenDone => exact h.append _
  | handleWrite answer => exact h.initiateSend answer
  | handleClose =>
    refine .inr ⟨rfl, ?_⟩
    rcases h with ⟨-, htotal⟩ | ⟨-, hprefix⟩
    · exact ⟨_, htotal⟩
    · exact hprefix

/-- Unless a call breaks the connection, it is closed only when all of `total` has been sent. -/
theorem Closing.delivered {total : Bytes} {c : Connection σ} (h : Closing total c)
    (hdel : c.connected = false → c.sent = total) {answer : SendAnswer} (ha : ¬ answer.Broken) :
    (c.initiateSend answer).connected = false → (c.initiateSend answer).sent = total := by
  intro hclosed
  cases hc : c.connected with
  | false =>
    rw [Connection.initiateSend_of_not_connected hc]
    exact hdel hc
  | true =>
    rcases h with ⟨hdone, htotal⟩ | ⟨hclosed', -⟩
    · rcases Connection.initiateSend_of_done hdone htotal answer with ⟨h, -⟩ | ⟨-, -, h⟩
      · rw [h, hc] at hclosed
        cases hclosed
      · exact h ha
    · rw [hc] at hclosed'
      cases hclosed'

theorem Closing.delivered_call {total : Bytes} {c : Connection σ} (h : Closing total c)
    (hdel : c.connected = false → c.sent = total) {call : SendCall} (hcall : ¬ call.Breaks) :
    (c.call call).connected = false → (c.call call).sent = total := by
  cases call with
  | push data answer => exact (h.append _).delivered hdel hcall
  | pushWithProducer p answer => exact (h.append _).delivered hdel hcall
  | closeWhenDone => exact hdel
  | handleWrite answer => exact h.delivered hdel hcall
  | handleClose => exact absurd trivial hcall

theorem closing_calls {total : Bytes} {c : Connection σ} (h : Closing total c)
    (calls : List SendCall) : Closing total (calls.foldl Connection.call c) := by
  induction calls generalizing c with
  | nil => exact h
  | cons call calls ih => exact ih (h.call call)

theorem delivered_calls {total : Bytes} {c : Connection σ} (h : Closing total c)
    (hdel : c.connected = false → c.sent = total) {calls : List SendCall}
    (hcalls : ∀ call ∈ calls, ¬ call.Breaks) :
    (calls.foldl Connection.call c).connected = false →
      (calls.foldl Connection.call c).sent = total := by
  induction calls generalizing c with
  | nil => exact hdel
  | cons call calls ih =>
    have hcall : ¬ call.Breaks := hcalls call (List.mem_cons_self ..)
    exact ih (h.call call) (h.delivered_call hdel hcall) fun c' hc' =>
      hcalls c' (List.mem_cons_of_mem _ hc')

/-- Without a `None` in its queue a channel is closed only by what breaks the connection. -/
theorem initiateSend_of_notMem {c : Connection σ} (hdone : Entry.done ∉ c.producerFifo)
    (answer : SendAnswer) :
    Entry.done ∉ (c.initiateSend answer).producerFifo ∧
      (¬ answer.Broken → (c.initiateSend answer).connected = c.connected) := by
  cases hc : c.connected with
  | false =>
    rw [Connection.initiateSend_of_not_connected hc]
    exact ⟨hdone, fun _ => hc⟩
  | true =>
    rcases Connection.initiateSend_connected hc answer with ⟨r, hr, heq⟩ | ⟨r, hr, heq⟩
    · rw [heq]
      exact ⟨fun h => hdone (hr.done_iff.mp h), fun _ => hc⟩
    · rw [heq]
      exact ⟨fun h => hdone (hr.done_of h), fun hbroken =>
        absurd (hr.why.resolve_right hbroken).1 hdone⟩

/-- A call other than `close_when_done`. -/
def SendCall.KeepsOpen : SendCall → Prop
  | .closeWhenDone => False
  | _ => True

theorem call_of_notMem {c : Connection σ} (hdone : Entry.done ∉ c.producerFifo) {call : SendCall}
    (hcall : call.KeepsOpen) :
    Entry.done ∉ (c.call call).producerFifo ∧
      (¬ call.Breaks → (c.call call).connected = c.connected) := by
  have happend : ∀ fifo, Entry.done ∉ fifo → Entry.done ∉ c.producerFifo ++ fifo := by
    intro fifo hfifo hmem
    rcases List.mem_append.mp hmem with h | h
    · exact hdone h
    · exact hfifo h
  cases call with
  | push data answer =>
    exact initiateSend_of_notMem
      (c := { c with producerFifo := c.producerFifo ++ pushEntries data })
      (happend _ (done_notMem_pushEntries data)) answer
  | pushWithProducer p answer =>
    exact initiateSend_of_notMem (c := { c with producerFifo := c.producerFifo ++ [.producer p] })
      (happend _ (by simp)) answer
  | closeWhenDone => exact absurd hcall id
  | handleWrite answer => exact initiateSend_of_notMem hdone answer
  | handleClose => exact ⟨hdone, fun h => absurd trivial h⟩

theorem calls_of_notMem {c : Connection σ} (hdone : Entry.done ∉ c.producerFifo)
    {calls : List SendCall} (hcalls : ∀ call ∈ calls, call.KeepsOpen) :
    Entry.done ∉ (calls.foldl Connection.call c).producerFifo ∧
      ((∀ call ∈ calls, ¬ call.Breaks) →
        (calls.foldl Connection.call c).connected = c.connected) := by
  induction calls generalizing c with
  | nil => exact ⟨hdone, fun _ => rfl⟩
  | cons call calls ih =>
    obtain ⟨hdone', hsame⟩ := call_of_notMem hdone (hcalls call (List.mem_cons_self ..))
    obtain ⟨h₁, h₂⟩ := ih hdone' fun c' hc' => hcalls c' (List.mem_cons_of_mem _ hc')
    refine ⟨h₁, fun hbreaks => ?_⟩
    rw [List.foldl_cons, h₂ fun c' hc' => hbreaks c' (List.mem_cons_of_mem _ hc'),
      hsame (hbreaks call (List.mem_cons_self ..))]

/-- **`close_when_done`** closes the channel after what has been pushed before it: what is pushed
after it is never sent, and unless the connection breaks the channel is closed only when all that
was pushed before has been sent. -/
theorem closeWhenDone_sent (c : Connection σ) (before after : List SendCall)
    (hconnected : c.connected = true) (hdone : Entry.done ∉ c.producerFifo)
    (hbefore : ∀ call ∈ before, call.KeepsOpen) :
    let total := c.sent ++ payload c.producerFifo ++ before.flatMap SendCall.pushed
    let c' := (before ++ .closeWhenDone :: after).foldl Connection.call c
    c'.sent <+: total ∧
      ((∀ call ∈ before ++ after, ¬ call.Breaks) → c'.connected = false → c'.sent = total) := by
  intro total c'
  obtain ⟨hnone, hopen⟩ := calls_of_notMem hdone hbefore
  set c₁ := before.foldl Connection.call c with hc₁
  have hc' : c' = after.foldl Connection.call c₁.closeWhenDone := by
    simp only [c', List.foldl_append, List.foldl_cons, ← hc₁]
    rfl
  have hclosing : Closing total c₁.closeWhenDone := by
    refine .inl ⟨by simp [Connection.closeWhenDone], ?_⟩
    rw [Connection.closeWhenDone, deliverable_concat_done hnone]
    exact sent_append_payload c before
  rw [hc']
  constructor
  · rcases closing_calls hclosing after with ⟨-, htotal⟩ | ⟨-, hprefix⟩
    · exact ⟨_, htotal⟩
    · exact hprefix
  · intro hbreaks
    refine delivered_calls hclosing ?_ fun call hcall => hbreaks call (List.mem_append_right _ hcall)
    intro hclosed
    have hopen' := hopen fun call hcall => hbreaks call (List.mem_append_left _ hcall)
    rw [hconnected] at hopen'
    exact absurd (hclosed.symm.trans hopen') Bool.false_ne_true

/-- An octet before `close_when_done` and one after it. -/
theorem closeWhenDone_sent_octet :
    let c : Connection Unit := ⟨⟨[], .bytes [10], true, ()⟩, some 4, [], [], []⟩
    let before : List SendCall := [.push [65] .wouldBlock]
    let after : List SendCall :=
      [.push [66] (.accepted 1), .handleWrite (.accepted 1), .handleWrite (.accepted 1)]
    let total := c.sent ++ payload c.producerFifo ++ before.flatMap SendCall.pushed
    let c' := (before ++ .closeWhenDone :: after).foldl Connection.call c
    c'.sent <+: total ∧
      ((∀ call ∈ before ++ after, ¬ call.Breaks) → c'.connected = false → c'.sent = total) :=
  closeWhenDone_sent ⟨⟨[], .bytes [10], true, ()⟩, some 4, [], [], []⟩ [.push [65] .wouldBlock]
    [.push [66] (.accepted 1), .handleWrite (.accepted 1), .handleWrite (.accepted 1)] rfl
    (by simp) (by simp [SendCall.KeepsOpen])

end IRedAPD.Asynchat

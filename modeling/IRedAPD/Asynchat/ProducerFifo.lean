/-
  The sending half of `asynchat.async_chat`: `producer_fifo`, `push`,
  `initiate_send` and `close_when_done`, with `simple_producer`.

  What the socket answers to a `send` is given from outside, one answer for each
  call of `initiate_send`, which sends at most once.  `received` and `sent` are
  the two streams of the socket: what it has handed out, read by read, and the
  octets it has taken.
-/
import IRedAPD.Asynchat

namespace IRedAPD.Asynchat

open Py

/-- `ac_out_buffer_size` -/
def acOutBufferSize : ℕ := 65536

/-- `simple_producer`.  It hands out something as long as it has data. -/
structure SimpleProducer where
  data : Bytes
  bufferSize : ℕ
  bufferSize_pos : 0 < bufferSize

/-- `more` -/
def SimpleProducer.more (p : SimpleProducer) : Bytes × SimpleProducer :=
  if p.bufferSize < p.data.length then
    (p.data.take p.bufferSize, { p with data := p.data.drop p.bufferSize })
  else (p.data, { p with data := [] })

/-- An element of `producer_fifo`. -/
inductive Entry where
  | data (data : Bytes)
  /-- `None` -/
  | done
  | producer (p : SimpleProducer)

/-- What `socket.send` does. -/
inductive SendAnswer where
  /-- It takes so many octets, as far as there are any. -/
  | accepted (n : ℕ)
  /-- `EWOULDBLOCK` -/
  | wouldBlock
  /-- An error of `_DISCONNECTED`: `dispatcher.send` calls `handle_close`. -/
  | disconnected
  /-- Any other error: `initiate_send` calls `handle_error`. -/
  | failed
  deriving DecidableEq, Repr

/-- What a call of `initiate_send` leaves in the queue, the octets the socket took, and whether the
channel is closed. -/
structure SendStep where
  producerFifo : List Entry
  octets : Bytes
  close : Bool

/-- The end of a round of `initiate_send`: `first`, which is not empty, heads the queue. -/
def sendFirst (answer : SendAnswer) (first : Bytes) (rest : List Entry) : SendStep :=
  let data := first.take acOutBufferSize
  match answer with
  | .accepted n =>
    let numSent := min n data.length
    if numSent ≠ 0 then
      if numSent < data.length ∨ acOutBufferSize < first.length then
        ⟨.data (first.drop numSent) :: rest, data.take numSent, false⟩
      else ⟨rest, data.take numSent, false⟩
    else ⟨.data first :: rest, [], false⟩
  | .wouldBlock => ⟨.data first :: rest, [], false⟩
  | .disconnected | .failed => ⟨.data first :: rest, [], true⟩

/-- `initiate_send` of a connected channel. -/
def initiateSend (answer : SendAnswer) : List Entry → SendStep
  | [] => ⟨[], [], false⟩
  | .done :: rest => ⟨rest, [], true⟩
  | .data first :: rest =>
    if first = [] then
      -- the entry is deleted, and `send(b'')` tells only whether the socket still works
      match answer with
      | .accepted _ | .wouldBlock => ⟨rest, [], false⟩
      | .disconnected | .failed => ⟨rest, [], true⟩
    else sendFirst answer first rest
  | .producer p :: rest =>
    let (data, p') := p.more
    -- `appendleft(data)`, which the next round sends
    if data ≠ [] then sendFirst answer data (.producer p' :: rest)
    else initiateSend answer rest

/-- The entries of `push`: `data[i:i+sabs]` for `i` in `range(0, len(data), sabs)`. -/
def pushEntries (data : Bytes) : List Entry :=
  let sabs := acOutBufferSize
  if sabs < data.length then
    (List.range ((data.length + sabs - 1) / sabs)).map fun i =>
      .data ((data.drop (i * sabs)).take sabs)
  else [.data data]

/-- An `async_chat` with its socket. -/
structure Connection (σ : Type*) extends AsyncChat σ where
  /-- `_fileno` -/
  fileno : Option ℕ
  producerFifo : List Entry
  received : List Bytes
  sent : Bytes

namespace Connection

variable {σ : Type*}

/-- `handle_close`, which is `close`. -/
def handleClose (c : Connection σ) : Connection σ := { c with connected := false, fileno := none }

/-- `initiate_send` -/
def initiateSend (c : Connection σ) (answer : SendAnswer) : Connection σ :=
  if c.connected then
    let r := Asynchat.initiateSend answer c.producerFifo
    let c := { c with producerFifo := r.producerFifo, sent := c.sent ++ r.octets }
    if r.close then c.handleClose else c
  else c

/-- `push` -/
def push (c : Connection σ) (data : Bytes) (answer : SendAnswer) : Connection σ :=
  { c with producerFifo := c.producerFifo ++ pushEntries data }.initiateSend answer

/-- `push_with_producer` -/
def pushWithProducer (c : Connection σ) (p : SimpleProducer) (answer : SendAnswer) :
    Connection σ :=
  { c with producerFifo := c.producerFifo ++ [Entry.producer p] }.initiateSend answer

/-- `close_when_done` -/
def closeWhenDone (c : Connection σ) : Connection σ :=
  { c with producerFifo := c.producerFifo ++ [Entry.done] }

/-- `handle_write` -/
def handleWrite (c : Connection σ) (answer : SendAnswer) : Connection σ := c.initiateSend answer

end Connection

/-- A call of the sending half. -/
inductive SendCall where
  | push (data : Bytes) (answer : SendAnswer)
  | pushWithProducer (p : SimpleProducer) (answer : SendAnswer)
  | closeWhenDone
  | handleWrite (answer : SendAnswer)
  | handleClose

/-- The call on a channel. -/
def Connection.call {σ : Type*} (c : Connection σ) : SendCall → Connection σ
  | .push data answer => c.push data answer
  | .pushWithProducer p answer => c.pushWithProducer p answer
  | .closeWhenDone => c.closeWhenDone
  | .handleWrite answer => c.handleWrite answer
  | .handleClose => c.handleClose

end IRedAPD.Asynchat

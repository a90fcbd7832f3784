/-
  `asynchat.async_chat.handle_read` and the part of `asyncore` around it.

  A channel is the input buffer and terminator of `async_chat` with the fields
  of the subclass; `Callbacks` are the two methods a subclass overrides.  A
  callback that raises leaves `handle_read`, and `asyncore.read` answers with
  `handle_error`, which closes the channel: it is out of the socket map and
  reads nothing more.
-/
import IRedAPD.Py.Outcome
import IRedAPD.Py.Str

namespace IRedAPD.Asynchat

open Py

/-- `set_terminator`: `None`, an integer or a string of octets. -/
inductive Terminator where
  | unset
  | count (n : ℕ)
  | bytes (term : Bytes)
  deriving DecidableEq, Repr

/-- An `async_chat` whose subclass has the fields `σ`. -/
structure AsyncChat (σ : Type*) where
  acInBuffer : Bytes
  terminator : Terminator
  connected : Bool
  channel : σ

/-- The methods of the subclass. -/
structure Callbacks (σ ε : Type*) where
  collectIncomingData : σ → Bytes → σ
  foundTerminator : σ → Outcome σ ε

/-- `haystack.find(needle)`, `none` for `-1`. -/
def find (needle : Bytes) : Bytes → Option ℕ
  | [] => if needle = [] then some 0 else none
  | b :: hay => if needle.isPrefixOf (b :: hay) then some 0 else (find needle hay).map (· + 1)

/-- The loop of `find_prefix_at_end`. -/
def prefixAtEnd (haystack needle : Bytes) : ℕ → ℕ
  | 0 => 0
  | l + 1 => if (needle.take (l + 1)).isSuffixOf haystack then l + 1 else prefixAtEnd haystack needle l

/-- `find_prefix_at_end` -/
def findPrefixAtEnd (haystack needle : Bytes) : ℕ := prefixAtEnd haystack needle (needle.length - 1)

variable {σ ε : Type*}

/-- `self.collect_incoming_data(data)` -/
def AsyncChat.collect (cb : Callbacks σ ε) (c : AsyncChat σ) (data : Bytes) : AsyncChat σ :=
  { c with channel := cb.collectIncomingData c.channel data }

/-- `self.found_terminator()` -/
def AsyncChat.found (cb : Callbacks σ ε) (c : AsyncChat σ) : Outcome (AsyncChat σ) ε :=
  (cb.foundTerminator c.channel).mapState fun s => { c with channel := s }

/-- The `while self.ac_in_buffer` loop of `handle_read`.  Every round that goes on takes octets off
the buffer, so its length is enough fuel. -/
def readLoop (cb : Callbacks σ ε) : ℕ → AsyncChat σ → Outcome (AsyncChat σ) ε
  | 0, c => .pure c
  | n + 1, c =>
    let lb := c.acInBuffer.length
    if c.acInBuffer = [] then .pure c
    else
      match c.terminator with
      -- no terminator: everything is collected
      | .unset | .count 0 | .bytes [] => .pure { c.collect cb c.acInBuffer with acInBuffer := [] }
      | .count k =>
        if lb < k then
          .pure { c.collect cb c.acInBuffer with acInBuffer := [], terminator := .count (k - lb) }
        else
          let c := { c.collect cb (c.acInBuffer.take k) with
            acInBuffer := c.acInBuffer.drop k, terminator := .count 0 }
          (c.found cb).andThen (readLoop cb n)
      | .bytes term =>
        match find term c.acInBuffer with
        -- what stands before the terminator is collected, if anything does
        | some index =>
          let c' := if 0 < index then c.collect cb (c.acInBuffer.take index) else c
          let c' := { c' with acInBuffer := c.acInBuffer.drop (index + term.length) }
          (c'.found cb).andThen (readLoop cb n)
        | none =>
          -- the end of the buffer may begin a terminator, and stays in it
          let index := findPrefixAtEnd c.acInBuffer term
          if index ≠ 0 then
            if index ≠ lb then
              .pure { c.collect cb (c.acInBuffer.take (lb - index)) with
                acInBuffer := c.acInBuffer.drop (lb - index) }
            else .pure c
          else .pure { c.collect cb c.acInBuffer with acInBuffer := [] }

/-- `handle_close` -/
def AsyncChat.handleClose (c : AsyncChat σ) : AsyncChat σ := { c with connected := false }

/-- `async_chat.handle_read` with what `recv` returned; no octets mean the peer has closed. -/
def handleRead (cb : Callbacks σ ε) (c : AsyncChat σ) (data : Bytes) : Outcome (AsyncChat σ) ε :=
  let c := if data = [] then c.handleClose else c
  let c := { c with acInBuffer := c.acInBuffer ++ data }
  readLoop cb c.acInBuffer.length c

/-- `asyncore.read` -/
def read (cb : Callbacks σ ε) (c : AsyncChat σ) (data : Bytes) : AsyncChat σ × List ε :=
  if c.connected then
    let o := handleRead cb c data
    (if o.raised then o.state.handleClose else o.state, o.events)
  else (c, [])

/-- The reads of a connection, one after the other. -/
def readAll (cb : Callbacks σ ε) (c : AsyncChat σ) : List Bytes → AsyncChat σ × List ε
  | [] => (c, [])
  | data :: chunks =>
    let r := read cb c data
    let t := readAll cb r.1 chunks
    (t.1, r.2 ++ t.2)

end IRedAPD.Asynchat

/-
  The listening sockets of iRedAPD: `DaemonSocket.handle_accept` of
  `libs/channel.py`, which makes a `Policy` or an `SRS` of an accepted socket.

  `service` is the process `iredapd.py` starts: it listens for policy requests and,
  if SRS is set up, for the two tcp tables.  A `Policy` and an `SRS` differ in their
  `found_terminator` only; the session of an `SRS` stays empty.
-/
import IRedAPD.Asyncore
import IRedAPD.Libs.Channel

namespace IRedAPD

open Py Asyncore

variable [Unicode] {ω : Type*}

/-- `policy_channel` -/
inductive PolicyChannel where
  | policy
  | srsSender
  | srsRecipient
  deriving DecidableEq, Repr

/-- An `SRS` with the fields of a `Policy`. -/
def srsChannel (settings : Settings) (calls : SrsCalls ω) (rewrite : RewriteAddressType) :
    LineHandler (Policy ω) PolicyEvent :=
  let lift (p : Policy ω) (o : Outcome ω Str) : Outcome (Policy ω) PolicyEvent :=
    ⟨{ p with world := o.state }, o.events.map .push, o.raised⟩
  let h := srsHandler settings calls rewrite
  { onLine := fun p line => lift p (h.onLine p.world line)
    onBlank := fun p => lift p (h.onBlank p.world) }

/-- The class of `policy_channel`. -/
def channelHandler (settings : Settings) (handleData : Session → ω → Except Exn Str × ω)
    (calls : SrsCalls ω) : PolicyChannel → LineHandler (Policy ω) PolicyEvent
  | .policy => policyHandler settings handleData
  | .srsSender => srsChannel settings calls .sender
  | .srsRecipient => srsChannel settings calls .recipient

/-- The octets `async_chat.push` is given: `msg.encode()`. -/
def encoded : LineEvent PolicyEvent → Option Bytes
  | .effect (.push msg) => some (encode msg)
  | _ => none

/-- The classes of channels `handle_accept` chooses from. -/
def service (settings : Settings) (handleData : Session → ω → Except Exn Str × ω)
    (calls : SrsCalls ω) :
    Service PolicyChannel (Buffered Session) ω (LineEvent PolicyEvent) where
  init _ := ⟨[], []⟩
  collectIncomingData _ c data := { c with buffer := c.buffer ++ [data] }
  foundTerminator k x :=
    let h := channelHandler settings handleData calls k
    (h.callbacks.foundTerminator ⟨x.1.buffer, ⟨x.1.fields, x.2⟩⟩).mapState fun c =>
      (⟨c.buffer, c.fields.smtpSessionData⟩, c.fields.world)
  pushed := encoded

end IRedAPD

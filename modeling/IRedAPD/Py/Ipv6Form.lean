/-
  How IPv6 addresses are written.

  The text of an IPv6 address is eight hextets with colons between them.  A run
  of hextets may be left out where `::` stands, and an IPv4 address may stand in
  place of the last two (`Ipv6Form`).  The texts that may stand there are a
  parameter of the form: what `ipaddress` reads has the form with IPv4 addresses
  there (`form_of_ipv6FromString`), and a pattern may know other texts.  The
  characters of addresses and networks follow from the form.
-/
import IRedAPD.Py.IpText

namespace Py

/-- One to four hexadecimal digits. -/
def Hextet (s : Str) : Prop := 1 ≤ s.length ∧ s.length ≤ 4 ∧ ∀ c ∈ s, (hexDigit c).isSome

/-- The groups, each with a colon after it. -/
def groupsBefore (gs : List Str) : Str := gs.flatMap fun g => g ++ [':']

/-- The groups, each with a colon before it. -/
def groupsAfter (gs : List Str) : Str := gs.flatMap fun g => ':' :: g

/-- The groups on one side of `::`.  Where there are none the text begins or ends with `::`, as if
there were an empty one. -/
def padded (gs : List Str) : List Str := if gs = [] then [[]] else gs

/-- The texts of IPv6 addresses, `T` the texts that may stand in place of the last two hextets. -/
inductive Ipv6Form (T : Str → Prop) : Str → Prop where
  | full {hs : List Str} {h : Str} (hlen : hs.length = 7) (hhs : ∀ g ∈ hs, Hextet g) (hh : Hextet h) :
    Ipv6Form T (groupsBefore hs ++ h)
  | compressed {hs ls : List Str} (hlen : hs.length + ls.length ≤ 7) (hhs : ∀ g ∈ hs, Hextet g)
    (hls : ∀ g ∈ ls, Hextet g) : Ipv6Form T (groupsBefore (padded hs) ++ groupsAfter (padded ls))
  | mapped {hs : List Str} {t : Str} (hlen : hs.length = 6) (hhs : ∀ g ∈ hs, Hextet g) (ht : T t) :
    Ipv6Form T (groupsBefore hs ++ t)
  | compressedMapped {hs ls : List Str} {t : Str} (hlen : hs.length + ls.length ≤ 5)
    (hhs : ∀ g ∈ hs, Hextet g) (hls : ∀ g ∈ ls, Hextet g) (ht : T t) :
    Ipv6Form T (groupsBefore (padded hs) ++ (groupsAfter ls ++ ':' :: t))

/-! ### Hextets -/

theorem hextet_of_parseHextet {s : Str} (h : (parseHextet s).isSome) : Hextet s := by
  unfold parseHextet at h
  split_ifs at h with hlen
  · cases h
  obtain ⟨n, hn⟩ := Option.isSome_iff_exists.mp h
  refine ⟨?_, Nat.le_of_not_gt hlen, isSome_digit_of_digitsValue hn⟩
  exact List.length_pos_iff.mpr (exists_digits hn).1

theorem Hextet.ne_nil {s : Str} (h : Hextet s) : s ≠ [] := List.length_pos_iff.mp h.1

theorem Hextet.notMem {s : Str} (h : Hextet s) {c : Char} (hc : hexDigit c = none) : c ∉ s := by
  intro hmem
  have hsome := h.2.2 c hmem
  rw [hc] at hsome
  cases hsome

/-! ### Groups -/

@[simp] theorem groupsBefore_nil : groupsBefore [] = [] := rfl

@[simp] theorem groupsAfter_nil : groupsAfter [] = [] := rfl

theorem groupsBefore_cons (g : Str) (gs : List Str) :
    groupsBefore (g :: gs) = g ++ ':' :: groupsBefore gs := by
  unfold groupsBefore
  rw [List.flatMap_cons, List.append_assoc, List.singleton_append]

theorem groupsAfter_cons (g : Str) (gs : List Str) :
    groupsAfter (g :: gs) = ':' :: (g ++ groupsAfter gs) := by
  unfold groupsAfter
  rw [List.flatMap_cons, List.cons_append]

theorem groupsBefore_append (gs ks : List Str) :
    groupsBefore (gs ++ ks) = groupsBefore gs ++ groupsBefore ks := List.flatMap_append

/-- A colon goes from one end of the groups to the other. -/
theorem cons_groupsBefore (gs : List Str) : ':' :: groupsBefore gs = groupsAfter gs ++ [':'] := by
  induction gs with
  | nil => rfl
  | cons g gs ih =>
    rw [groupsBefore_cons, ih, groupsAfter_cons]
    simp

/-- Groups are joined around one of them. -/
theorem join_append_cons (xs : List Str) (y : Str) (zs : List Str) :
    join [':'] (xs ++ y :: zs) = groupsBefore xs ++ (y ++ groupsAfter zs) := by
  unfold join
  induction xs with
  | nil =>
    induction zs generalizing y with
    | nil => simp
    | cons z zs ih =>
      have hrest := ih z
      rw [List.nil_append, groupsBefore_nil, List.nil_append] at hrest
      rw [List.nil_append, groupsBefore_nil, List.nil_append, List.intercalate_cons_cons, hrest,
        groupsAfter_cons]
      simp
  | cons x xs ih =>
    obtain ⟨w, ws, hws⟩ := List.exists_cons_of_ne_nil
      (List.append_ne_nil_of_right_ne_nil xs (List.cons_ne_nil y zs))
    rw [hws] at ih
    rw [List.cons_append, hws, List.intercalate_cons_cons, ih, groupsBefore_cons]
    simp

theorem padded_of_ne_nil {gs : List Str} (h : gs ≠ []) : padded gs = gs := if_neg h

theorem padded_ne_nil (gs : List Str) : padded gs ≠ [] := by
  unfold padded
  split_ifs with h
  · exact List.cons_ne_nil _ _
  · exact h

/-! ### The parts of an address -/

/-- The parts that have a value: eight hextets, or fewer around an empty part. -/
inductive PartsForm : List Str → Prop where
  | full {parts : List Str} (hlen : parts.length = 8) (hparts : ∀ p ∈ parts, Hextet p) :
    PartsForm parts
  | compressed {hs ls : List Str} (hlen : hs.length + ls.length ≤ 7) (hhs : ∀ g ∈ hs, Hextet g)
    (hls : ∀ g ∈ ls, Hextet g) : PartsForm (padded hs ++ [] :: padded ls)

theorem hextet_of_hextetsValue {start n : ℕ} {parts : List Str}
    (h : hextetsValue start parts = some n) : ∀ p ∈ parts, Hextet p :=
  fun p hp => hextet_of_parseHextet (isSome_parseHextet_of_hextetsValue h p hp)

/-- The parts before the empty one: hextets, or an empty part where the text begins with `::`. -/
theorem exists_padded_take {parts : List Str} {i hi high : ℕ} (hpos : 1 ≤ i) (hlt : i < parts.length)
    (hhi : (if parts.head? = some [] then i - 1 else i) = hi)
    (hhead : ¬(parts.head? = some [] ∧ hi ≠ 0)) (h : hextetsValue 0 (parts.take hi) = some high) :
    ∃ hs, parts.take i = padded hs ∧ hs.length = hi ∧ ∀ g ∈ hs, Hextet g := by
  by_cases hnil : parts.head? = some []
  · rw [if_pos hnil] at hhi
    have hzero : hi = 0 := by
      by_contra hne
      exact hhead ⟨hnil, hne⟩
    obtain rfl : i = 1 := by omega
    obtain ⟨ps, rfl⟩ := List.head?_eq_some_iff.mp hnil
    exact ⟨[], rfl, hzero.symm, by simp⟩
  · rw [if_neg hnil] at hhi
    subst hhi
    have hlength : (parts.take i).length = i := by
      rw [List.length_take]
      omega
    refine ⟨parts.take i, (padded_of_ne_nil ?_).symm, hlength, hextet_of_hextetsValue h⟩
    apply List.length_pos_iff.mp
    rw [hlength]
    exact hpos

/-- The parts after it. -/
theorem exists_padded_drop {parts : List Str} {i lo start n : ℕ} (hlt : i + 1 < parts.length)
    (hlo : (if parts.getLast? = some [] then parts.length - i - 2 else parts.length - i - 1) = lo)
    (hlast : ¬(parts.getLast? = some [] ∧ lo ≠ 0))
    (h : hextetsValue start (parts.drop (parts.length - lo)) = some n) :
    ∃ ls, parts.drop (i + 1) = padded ls ∧ ls.length = lo ∧ ∀ g ∈ ls, Hextet g := by
  by_cases hnil : parts.getLast? = some []
  · rw [if_pos hnil] at hlo
    have hzero : lo = 0 := by
      by_contra hne
      exact hlast ⟨hnil, hne⟩
    obtain ⟨ps, rfl⟩ := List.getLast?_eq_some_iff.mp hnil
    have hlength : i + 1 = ps.length := by
      rw [List.length_append, List.length_singleton] at hlt hlo
      omega
    refine ⟨[], ?_, hzero.symm, by simp⟩
    rw [hlength, List.drop_left]
    rfl
  · rw [if_neg hnil] at hlo
    have hdrop : parts.length - lo = i + 1 := by omega
    rw [hdrop] at h
    have hlength : (parts.drop (i + 1)).length = lo := by
      rw [List.length_drop]
      omega
    refine ⟨parts.drop (i + 1), (padded_of_ne_nil ?_).symm, hlength, hextet_of_hextetsValue h⟩
    apply List.length_pos_iff.mp
    omega

/-- What is read as an address has parts of the form. -/
theorem exists_partsForm {s : Str} {n : ℕ} (h : ipv6FromString s = some n) :
    ∃ parts, ipv6Parts s = some parts ∧ PartsForm parts := by
  unfold ipv6FromString at h
  obtain ⟨parts, hparts, h⟩ := Option.bind_eq_some_iff.mp h
  refine ⟨parts, hparts, ?_⟩
  by_cases hnine : parts.length > 9
  · rw [if_pos hnine] at h
    cases h
  rw [if_neg hnine] at h
  split at h
  · by_cases height : parts.length ≠ 8
    · rw [if_pos height] at h
      cases h
    · rw [if_neg height] at h
      exact .full (not_not.mp height) (hextet_of_hextetsValue h)
  · next i hskip =>
    have hmem : i ∈ skipIndices parts := by
      rw [hskip]
      exact List.mem_singleton_self i
    obtain ⟨hpos, hlt, hnil⟩ := of_decide_eq_true (List.mem_filter.mp hmem).2
    simp only at h
    generalize hhi : (if parts.head? = some [] then i - 1 else i) = hi at h
    generalize hlo : (if parts.getLast? = some [] then parts.length - i - 2
      else parts.length - i - 1) = lo at h
    split_ifs at h with hhead hlast hlen
    obtain ⟨high, hhigh, hlow⟩ := Option.bind_eq_some_iff.mp h
    have hi' : i < parts.length := by omega
    obtain ⟨hs, hhs, hhslen, hhextets⟩ := exists_padded_take hpos hi' hhi hhead hhigh
    obtain ⟨ls, hls, hlslen, hlextets⟩ := exists_padded_drop hlt hlo hlast hlow
    have hcut : parts = padded hs ++ [] :: padded ls := by
      rw [List.getD_eq_getElem?_getD, List.getElem?_eq_getElem hi', Option.getD_some] at hnil
      rw [← hhs, ← hls]
      calc parts = parts.take i ++ parts.drop i := (List.take_append_drop i parts).symm
        _ = parts.take i ++ [] :: parts.drop (i + 1) := by rw [List.drop_eq_getElem_cons hi', hnil]
    rw [hcut]
    refine .compressed ?_ hhextets hlextets
    omega
  · cases h

/-! ### The form of an address -/

theorem hexStr_ne_nil (n : ℕ) : hexStr n ≠ [] := by
  unfold hexStr
  exact Nat.toDigits_ne_nil

/-- Parts that are all of the text. -/
theorem PartsForm.form {parts : List Str} (h : PartsForm parts) (T : Str → Prop) :
    Ipv6Form T (join [':'] parts) := by
  cases h with
  | full hlen hparts =>
    rcases List.eq_nil_or_concat parts with rfl | ⟨hs, g, rfl⟩
    · cases hlen
    · rw [List.concat_eq_append] at hlen hparts ⊢
      rw [List.length_append] at hlen
      rw [join_append_cons, groupsAfter_nil, List.append_nil]
      refine .full (Nat.succ.inj hlen) (fun p hp => hparts p (List.mem_append_left _ hp)) ?_
      exact hparts g (List.mem_append_right _ List.mem_cons_self)
  | @compressed hs ls hlen hhs hls =>
    rw [join_append_cons]
    exact .compressed hlen hhs hls

/-- Two parts that are not empty stand after an empty one. -/
theorem exists_append_pair {P K init : List Str} {a b : Str} (ha : a ≠ []) (hK : K ≠ [])
    (h : init ++ [a, b] = P ++ [] :: K) : ∃ ks, K = ks ++ [a, b] ∧ init = P ++ [] :: ks := by
  rcases List.eq_nil_or_concat K with rfl | ⟨K, x, rfl⟩
  · exact absurd rfl hK
  rw [List.concat_eq_append] at h ⊢
  have hlast : (init ++ [a]) ++ [b] = (P ++ [] :: K) ++ [x] := by simpa using h
  obtain ⟨hinit, hx⟩ := List.append_inj' hlast rfl
  rcases List.eq_nil_or_concat K with rfl | ⟨K, y, rfl⟩
  · obtain ⟨-, hnil⟩ := List.append_inj' hinit rfl
    exact absurd (List.cons.inj hnil).1 ha
  · rw [List.concat_eq_append] at hinit ⊢
    have hsecond : init ++ [a] = (P ++ [] :: K) ++ [y] := by simpa using hinit
    obtain ⟨hinit, hy⟩ := List.append_inj' hsecond rfl
    refine ⟨K, ?_, hinit⟩
    rw [← hx, ← hy, List.append_assoc, List.singleton_append]

/-- Parts with two in place of an IPv4 address. -/
theorem PartsForm.form_mapped {init : List Str} {a b t : Str} {T : Str → Prop} (ht : T t)
    (ha : a ≠ []) (h : PartsForm (init ++ [a, b])) :
    Ipv6Form T (join [':'] (init ++ [t])) := by
  rw [join_append_cons, groupsAfter_nil, List.append_nil]
  generalize hparts : init ++ [a, b] = parts at h
  cases h with
  | full hlen hhextets =>
    subst hparts
    rw [List.length_append] at hlen
    refine .mapped ?_ (fun p hp => hhextets p (List.mem_append_left _ hp)) ht
    exact Nat.add_right_cancel hlen
  | @compressed hs ls hlen hhs hls =>
    -- the two stand after `::`
    obtain ⟨ls, rfl, rfl⟩ : ∃ ks, ls = ks ++ [a, b] ∧ init = padded hs ++ [] :: ks := by
      obtain ⟨ks, hks, hinit⟩ := exists_append_pair ha (padded_ne_nil ls) hparts
      refine ⟨ks, ?_, hinit⟩
      by_cases hnil : ls = []
      · have hlength := congrArg List.length hks
        rw [hnil, List.length_append] at hlength
        have hone : 1 = ks.length + 2 := hlength
        omega
      · rw [← hks, padded_of_ne_nil hnil]
    rw [List.length_append] at hlen
    rw [groupsBefore_append, groupsBefore_cons, List.nil_append, List.append_assoc, List.cons_append,
      ← List.cons_append, cons_groupsBefore, List.append_assoc, List.singleton_append]
    refine .compressedMapped ?_ hhs (fun p hp => hls p (List.mem_append_left _ hp)) ht
    simp only [List.length_cons, List.length_nil] at hlen
    omega

/-- **What is read as an IPv6 address has the form of one**, with an IPv4 address in place of the last
two hextets. -/
theorem form_of_ipv6FromString {s : Str} {n : ℕ} (h : ipv6FromString s = some n) :
    Ipv6Form (fun t => (ipv4FromString t).isSome) s := by
  obtain ⟨parts, hparts, hform⟩ := exists_partsForm h
  have hjoin : join [':'] (s.splitOn ':') = s := List.intercalate_splitOn ..
  unfold ipv6Parts at hparts
  simp only at hparts
  split_ifs at hparts with hlen hdot
  · obtain ⟨m, hm, rfl⟩ := Option.map_eq_some_iff.mp hparts
    have hne : s.splitOn ':' ≠ [] := List.splitOn_ne_nil _ _
    rw [List.getLastD_eq_getLast?, List.getLast?_eq_getLast_of_ne_nil hne] at hm
    rw [← hjoin, ← List.dropLast_append_getLast hne]
    refine hform.form_mapped ?_ (hexStr_ne_nil _)
    exact Option.isSome_iff_exists.mpr ⟨m, hm⟩
  · obtain rfl := Option.some.inj hparts
    rw [← hjoin]
    exact hform.form _

/-! ### The groups of a form -/

theorem colon_notMem_of_hextet {g : Str} (h : Hextet g) : ':' ∉ g := h.notMem (by decide)

/-- The characters of groups. -/
theorem mem_groupsBefore {gs : List Str} (h : ∀ g ∈ gs, Hextet g) {c : Char}
    (hc : c ∈ groupsBefore gs) : (hexDigit c).isSome ∨ c = ':' := by
  obtain ⟨g, hg, hc⟩ := List.mem_flatMap.mp hc
  rcases List.mem_append.mp hc with hc | hc
  · exact .inl ((h g hg).2.2 c hc)
  · exact .inr (List.mem_singleton.mp hc)

theorem mem_groupsAfter {gs : List Str} (h : ∀ g ∈ gs, Hextet g) {c : Char}
    (hc : c ∈ groupsAfter gs) : (hexDigit c).isSome ∨ c = ':' := by
  obtain ⟨g, hg, hc⟩ := List.mem_flatMap.mp hc
  rcases List.mem_cons.mp hc with hc | hc
  · exact .inr hc
  · exact .inl ((h g hg).2.2 c hc)

/-- Where fewer groups stand than in the same text they are its first ones. -/
theorem exists_groups {gs ks : List Str} {u v : Str} (hgs : ∀ g ∈ gs, Hextet g)
    (hks : ∀ g ∈ ks, Hextet g) (hlen : gs.length ≤ ks.length)
    (h : groupsBefore gs ++ u = groupsBefore ks ++ v) :
    ∃ ls, ks = gs ++ ls ∧ u = groupsBefore ls ++ v := by
  induction gs generalizing ks with
  | nil => exact ⟨ks, rfl, h⟩
  | cons g gs ih =>
    cases ks with
    | nil => cases hlen
    | cons k ks =>
      rw [groupsBefore_cons, groupsBefore_cons, List.append_assoc, List.append_assoc,
        List.cons_append, List.cons_append] at h
      obtain ⟨rfl, hrest⟩ := append_cons_inj (colon_notMem_of_hextet (hgs g List.mem_cons_self))
        (colon_notMem_of_hextet (hks k List.mem_cons_self)) h
      obtain ⟨ls, rfl, hu⟩ := ih (fun x hx => hgs x (List.mem_cons_of_mem g hx))
        (fun x hx => hks x (List.mem_cons_of_mem _ hx)) (Nat.le_of_succ_le_succ hlen) hrest
      exact ⟨ls, rfl, hu⟩

/-- A form is groups and what follows them: nothing less than seven groups, the second colon of `::`,
or six groups and a tail. -/
theorem Ipv6Form.exists_groups {T : Str → Prop} {s : Str} (h : Ipv6Form T s) :
    ∃ gs u, s = groupsBefore gs ++ u ∧ (∀ g ∈ gs, Hextet g) ∧
      (gs.length = 7 ∨ (gs.length ≤ 7 ∧ ∃ v, u = ':' :: v) ∨ (gs.length = 6 ∧ T u)) := by
  have hpadded : ∀ {hs : List Str} {u : Str}, (∀ g ∈ hs, Hextet g) → hs.length ≤ 7 →
      (∃ v, u = ':' :: v) → ∃ gs v, groupsBefore (padded hs) ++ u = groupsBefore gs ++ ':' :: v ∧
        (∀ g ∈ gs, Hextet g) ∧ gs.length ≤ 7 := by
    rintro hs u hhs hlen ⟨v, rfl⟩
    by_cases hnil : hs = []
    · subst hnil
      exact ⟨[], ':' :: v, rfl, by simp, Nat.zero_le 7⟩
    · rw [padded_of_ne_nil hnil]
      exact ⟨hs, v, rfl, hhs, hlen⟩
  cases h with
  | @full hs h hlen hhs hh => exact ⟨hs, h, rfl, hhs, .inl hlen⟩
  | @compressed hs ls hlen hhs hls =>
    have hcolon : ∃ v, groupsAfter (padded ls) = ':' :: v := by
      obtain ⟨g, gs, hgs⟩ := List.exists_cons_of_ne_nil (padded_ne_nil ls)
      rw [hgs, groupsAfter_cons]
      exact ⟨_, rfl⟩
    obtain ⟨gs, v, heq, hextets, hle⟩ := hpadded hhs (by omega) hcolon
    exact ⟨gs, ':' :: v, heq, hextets, .inr (.inl ⟨hle, v, rfl⟩)⟩
  | @mapped hs t hlen hhs ht => exact ⟨hs, t, rfl, hhs, .inr (.inr ⟨hlen, ht⟩)⟩
  | @compressedMapped hs ls t hlen hhs hls ht =>
    have hcolon : ∃ v, groupsAfter ls ++ ':' :: t = ':' :: v := by
      cases ls with
      | nil => exact ⟨t, rfl⟩
      | cons g ls =>
        rw [groupsAfter_cons]
        exact ⟨_, rfl⟩
    obtain ⟨gs, v, heq, hextets, hle⟩ := hpadded hhs (by omega) hcolon
    exact ⟨gs, ':' :: v, heq, hextets, .inr (.inl ⟨hle, v, rfl⟩)⟩

theorem mem_groupsBefore_padded {gs : List Str} (h : ∀ g ∈ gs, Hextet g) {c : Char}
    (hc : c ∈ groupsBefore (padded gs)) : (hexDigit c).isSome ∨ c = ':' := by
  by_cases hnil : gs = []
  · subst hnil
    exact .inr (List.mem_singleton.mp hc)
  · rw [padded_of_ne_nil hnil] at hc
    exact mem_groupsBefore h hc

theorem mem_groupsAfter_padded {gs : List Str} (h : ∀ g ∈ gs, Hextet g) {c : Char}
    (hc : c ∈ groupsAfter (padded gs)) : (hexDigit c).isSome ∨ c = ':' := by
  by_cases hnil : gs = []
  · subst hnil
    exact .inr (List.mem_singleton.mp hc)
  · rw [padded_of_ne_nil hnil] at hc
    exact mem_groupsAfter h hc

/-- A form is written with hextets and colons alone, whatever may stand in place of the last two
hextets; or a tail stands there, and another one may. -/
theorem Ipv6Form.cases_tail {T : Str → Prop} {s : Str} (h : Ipv6Form T s) :
    ((∀ c ∈ s, (hexDigit c).isSome ∨ c = ':') ∧ ∀ T', Ipv6Form T' s) ∨
      ∃ pre t, s = pre ++ ':' :: t ∧ T t ∧ (∀ c ∈ pre, (hexDigit c).isSome ∨ c = ':') ∧
        ∀ T' : Str → Prop, T' t → Ipv6Form T' s := by
  cases h with
  | @full hs h hlen hhs hh =>
    refine .inl ⟨fun c hc => ?_, fun T' => .full hlen hhs hh⟩
    rcases List.mem_append.mp hc with hc | hc
    · exact mem_groupsBefore hhs hc
    · exact .inl (hh.2.2 c hc)
  | @compressed hs ls hlen hhs hls =>
    refine .inl ⟨fun c hc => ?_, fun T' => .compressed hlen hhs hls⟩
    rcases List.mem_append.mp hc with hc | hc
    · exact mem_groupsBefore_padded hhs hc
    · exact mem_groupsAfter_padded hls hc
  | @mapped hs t hlen hhs ht =>
    right
    rcases List.eq_nil_or_concat hs with rfl | ⟨gs, g, rfl⟩
    · cases hlen
    · rw [List.concat_eq_append] at hlen hhs ⊢
      refine ⟨groupsBefore gs ++ g, t, ?_, ht, fun c hc => ?_, fun T' => .mapped hlen hhs⟩
      · rw [groupsBefore_append, groupsBefore_cons]
        simp
      · rcases List.mem_append.mp hc with hc | hc
        · exact mem_groupsBefore (fun x hx => hhs x (List.mem_append_left _ hx)) hc
        · exact .inl ((hhs g (List.mem_append_right _ List.mem_cons_self)).2.2 c hc)
  | @compressedMapped hs ls t hlen hhs hls ht =>
    refine .inr ⟨groupsBefore (padded hs) ++ groupsAfter ls, t, (List.append_assoc ..).symm, ht,
      fun c hc => ?_, fun T' => .compressedMapped hlen hhs hls⟩
    rcases List.mem_append.mp hc with hc | hc
    · exact mem_groupsBefore_padded hhs hc
    · exact mem_groupsAfter hls hc

/-! ### The characters of an address -/

theorem isAddressChar_of_ipv6 {s : Str} {n : ℕ} (h : ipv6FromString s = some n) :
    ∀ c ∈ s, isAddressChar c = true := by
  have hgroups : ∀ {c : Char}, (hexDigit c).isSome ∨ c = ':' → isAddressChar c = true := by
    rintro c (hhex | rfl)
    · unfold isAddressChar
      rw [hhex]
      rfl
    · decide
  intro c hc
  rcases (form_of_ipv6FromString h).cases_tail with ⟨hchars, -⟩ | ⟨pre, t, rfl, ht, hchars, -⟩
  · exact hgroups (hchars c hc)
  · obtain ⟨m, hm⟩ := Option.isSome_iff_exists.mp ht
    rcases List.mem_append.mp hc with hc | hc
    · exact hgroups (hchars c hc)
    · rcases List.mem_cons.mp hc with rfl | hc
      · exact hgroups (.inr rfl)
      · exact isAddressChar_of_ipv4 hm c hc

/-- An address is written with its characters up to the scope id. -/
theorem isAddressChar_of_ipAddress {s : Str} {ip : IpAddress} (h : ipAddress s = some ip) :
    ∀ c ∈ splitFirst ['%'] s, isAddressChar c = true := by
  intro c hc
  unfold ipAddress at h
  split_ifs at h
  cases hv4 : ipv4FromString s with
  | some n => exact isAddressChar_of_ipv4 hv4 c (mem_of_mem_splitFirst hc)
  | none =>
    rw [hv4] at h
    obtain ⟨n, hn, -⟩ := Option.map_eq_some_iff.mp h
    obtain ⟨addr, haddr, hv6⟩ := Option.bind_eq_some_iff.mp hn
    refine isAddressChar_of_ipv6 hv6 c ?_
    unfold splitFirst at hc
    unfold splitScopeId at haddr
    cases hsplit : splitOnce ['%'] s with
    | none =>
      rw [hsplit] at hc haddr
      rwa [← Option.some.inj haddr]
    | some p =>
      rw [hsplit] at hc haddr
      simp only at haddr
      split_ifs at haddr
      rwa [← Option.some.inj haddr]

/-- The first character of an address is one of them. -/
theorem ipAddress_cons_eq_none {c : Char} (hhex : hexDigit c = none) (hc : c ∉ ":.%".toList) (s : Str) :
    ipAddress (c :: s) = none := by
  obtain ⟨hcolon, hdot, hpercent⟩ : c ≠ ':' ∧ c ≠ '.' ∧ c ≠ '%' := by simpa using hc
  have hnot : isAddressChar c = false := by simp [isAddressChar, hhex, hcolon, hdot]
  rw [Option.eq_none_iff_forall_ne_some]
  intro ip hip
  have hfirst : c ∈ splitFirst ['%'] (c :: s) := by
    by_cases hmem : '%' ∈ s
    · obtain ⟨a, b, rfl, ha⟩ := List.eq_append_cons_of_mem hmem
      rw [← List.cons_append, splitFirst_append (by simp [ha, Ne.symm hpercent])]
      exact List.mem_cons_self
    · rw [splitFirst_of_notMem (by simp [hmem, Ne.symm hpercent])]
      exact List.mem_cons_self
  rw [isAddressChar_of_ipAddress hip c hfirst] at hnot
  cases hnot

/-- So is a network, with a `/`. -/
theorem isAddressChar_of_ipNetwork {s : Str} {net : IpNetwork} (h : ipNetwork s = some net) :
    ∀ c ∈ splitFirst ['%'] s, isAddressChar c = true ∨ c = '/' := by
  intro c hc
  have hjoin : join ['/'] (s.splitOn '/') = s := List.intercalate_splitOn ..
  unfold ipNetwork at h
  split at h
  · next a hsplit =>
    obtain rfl : a = s := by
      rw [hsplit] at hjoin
      simpa [join] using hjoin
    cases ha : ipAddress a with
    | none =>
      rw [ha] at h
      cases h
    | some ip => exact .inl (isAddressChar_of_ipAddress ha c hc)
  · next a m hsplit =>
    obtain rfl : a ++ '/' :: m = s := by
      rw [hsplit] at hjoin
      simpa [join] using hjoin
    obtain ⟨ip, ha, hm⟩ : ∃ ip, ipAddress a = some ip ∧ ∀ c ∈ m, isAddressChar c = true := by
      split at h
      · next n ha =>
        obtain ⟨p, hp, -⟩ := Option.bind_eq_some_iff.mp h
        rcases Option.or_eq_some_iff.mp hp with hp | ⟨-, hp⟩
        · exact ⟨_, ha, isAddressChar_of_prefixFromString hp⟩
        · exact ⟨_, ha, isAddressChar_of_prefixFromIpString hp⟩
      · next n ha =>
        obtain ⟨p, hp, -⟩ := Option.bind_eq_some_iff.mp h
        exact ⟨_, ha, isAddressChar_of_prefixFromString hp⟩
      · cases h
    rcases mem_splitFirst_append hc with hc | hc
    · exact .inl (isAddressChar_of_ipAddress ha c hc)
    · rcases List.mem_cons.mp hc with rfl | hc
      · exact .inr rfl
      · exact .inl (hm c hc)
  · cases h

end Py

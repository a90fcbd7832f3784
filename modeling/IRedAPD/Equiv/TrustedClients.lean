/-
  Which entries of `MYNETWORKS` `is_trusted_client` finds.

  The texts without a `/` are compared with the text of the client and with the
  wildcard addresses that `wildcard_ipv4` makes of it.  Those have one run of `*`
  fields, or, unless all of them are wanted, one `*` in one of the last two fields;
  a range of another shape is never found, and neither is an address that is spelled
  otherwise (`trusts_iff`).
-/
import IRedAPD.Equiv.AddressFormats

namespace IRedAPD

open Py Py.Regex Regxes

/-! ### What an entry covers -/

/-- The scope id of an address. -/
def scopeId (s : Str) : Option Str := (splitOnce "%" s).map Prod.snd

/-- The two texts are the same address. -/
def SameAddress (e c : Str) : Prop :=
  (∃ ip, ipAddress e = some ip ∧ ipAddress c = some ip) ∧ scopeId e = scopeId c

/-- A range like `192.168.*.*` matches an IPv4 client field by field. -/
def RangeMatches (e c : Str) : Prop :=
  "*".toList ∈ e.splitOn '.' ∧ (∃ n, ipAddress c = some ⟨.v4, n⟩) ∧
    List.Forall₂ (fun field clientField => field = "*".toList ∨ field = clientField)
      (e.splitOn '.') (c.splitOn '.')

/-- The client lies in a network with a mask. -/
def SubnetContains (e c : Str) : Prop :=
  '/' ∈ e ∧ ∃ net ip, ipNetwork e = some net ∧ ipAddress c = some ip ∧ net.contains ip = true

/-- An entry of `MYNETWORKS` covers the client. -/
def EntryCovers (e c : Str) : Prop := SameAddress e c ∨ RangeMatches e c ∨ SubnetContains e c

/-- The client is the local host, or an entry covers it. -/
def Trusted (settings : Settings) (c : Str) : Prop :=
  c = "127.0.0.1".toList ∨ c = "::1".toList ∨ ∃ e ∈ settings.myNetworks, EntryCovers e c

/-! ### The shapes that are made -/

/-- `wildcard_ipv4` replaces the fields from `i` to `j`. -/
def Replaces (settings : Settings) (i j : ℕ) : Prop :=
  i ≤ j ∧ j < 4 ∧ (settings.enableAllWildcardIp = true ∨ (i = j ∧ 2 ≤ i))

/-- The fields from `i` to `j` of four are `*`, and no other. -/
def StarsFrom (i j : ℕ) (e : Str) : Prop :=
  ∀ k < 4, (e.splitOn '.')[k]? = some "*".toList ↔ i ≤ k ∧ k ≤ j

/-- A range has a shape that `wildcard_ipv4` makes. -/
def IsMade (settings : Settings) (e : Str) : Prop := ∃ i j, Replaces settings i j ∧ StarsFrom i j e

/-- An entry that covers the client and is not found: a range of another shape, or another spelling. -/
def EntryOverlooked (settings : Settings) (e c : Str) : Prop :=
  (SameAddress e c ∧ e ≠ c) ∨ (RangeMatches e c ∧ ¬IsMade settings e)

/-! ### The fields of a client -/

section Client

variable {c a b x d : Str}

/-- The fields of an IPv4 client. -/
structure ClientFields (c a b x d : Str) : Prop where
  splitOn : c.splitOn '.' = [a, b, x, d]
  octet : ∀ f ∈ [a, b, x, d], (parseOctet f).isSome

theorem exists_clientFields {n : ℕ} (h : ipAddress c = some ⟨.v4, n⟩) :
    ∃ a b x d, ClientFields c a b x d := by
  obtain ⟨a, b, x, d, _, _, _, _, hsplit, ha, hb, hx, hd, -⟩ :=
    exists_octets (ipv4FromString_of_ipAddress h)
  refine ⟨a, b, x, d, hsplit, ?_⟩
  simp [ha, hb, hx, hd]

/-- No field of a client is `*`. -/
theorem ClientFields.ne_star (h : ClientFields c a b x d) : ∀ f ∈ [a, b, x, d], f ≠ "*".toList := by
  rintro f hf rfl
  exact absurd (h.octet _ hf) (by decide)

theorem ClientFields.dot_notMem (h : ClientFields c a b x d) : ∀ f ∈ [a, b, x, d], '.' ∉ f := by
  intro f hf
  obtain ⟨n, hn⟩ := Option.isSome_iff_exists.mp (h.octet f hf)
  exact dot_notMem_octet hn

/-- The wildcard addresses of a client are its fields with a run of `*`. -/
theorem mem_wildcards_iff {settings : Settings} (h : ClientFields c a b x d) (hip : isIpv4 c = true)
    {e : Str} : e ∈ wildcardIpv4 settings c ↔
      ∃ i j, Replaces settings i j ∧ e = starFields [a, b, x, d] i j := by
  unfold Replaces
  by_cases hall : settings.enableAllWildcardIp = true
  · rw [mem_wildcardIpv4_all hall hip, h.splitOn]
    constructor
    · rintro ⟨i, j, hij, rfl⟩
      exact ⟨i, i + j, ⟨by omega, by omega, .inl hall⟩, rfl⟩
    · rintro ⟨i, j, ⟨hij, hj, -⟩, rfl⟩
      refine ⟨i, j - i, by omega, ?_⟩
      rw [Nat.add_sub_cancel' hij]
  · unfold wildcardIpv4
    simp only [hip, if_true, h.splitOn]
    rw [if_neg hall]
    have hlast : join ".".toList ([a, b, x, d].take 3) ++ ".*".toList = starFields [a, b, x, d] 3 3 := by
      simp [starFields, join, List.mapIdx_cons]
    have hthird : join ".".toList ([a, b, x, d].take 2) ++ ".*.".toList ++ [a, b, x, d].getD 3 [] =
        starFields [a, b, x, d] 2 2 := by
      simp [starFields, join, List.mapIdx_cons]
    rw [hlast, hthird]
    simp only [List.mem_cons, List.not_mem_nil, or_false]
    constructor
    · rintro (rfl | rfl)
      · exact ⟨3, 3, ⟨le_rfl, by decide, .inr ⟨rfl, by decide⟩⟩, rfl⟩
      · exact ⟨2, 2, ⟨le_rfl, by decide, .inr ⟨rfl, by decide⟩⟩, rfl⟩
    · rintro ⟨i, j, ⟨-, hj, hshape⟩, rfl⟩
      obtain ⟨rfl, hi⟩ := hshape.resolve_left hall
      obtain rfl | rfl : i = 3 ∨ i = 2 := by omega
      · exact .inl rfl
      · exact .inr rfl

/-- The fields of a wildcard address. -/
theorem splitOn_starFields (h : ClientFields c a b x d) (i j : ℕ) :
    (starFields [a, b, x, d] i j).splitOn '.' =
      [a, b, x, d].mapIdx fun k field => if i ≤ k ∧ k ≤ j then "*".toList else field := by
  unfold starFields
  refine List.splitOn_intercalate '.' ?_ (by simp)
  intro f hf
  obtain ⟨k, hk, rfl⟩ := List.mem_mapIdx.mp hf
  split_ifs
  · decide
  · exact h.dot_notMem _ (List.getElem_mem hk)

/-- A field that matches and is `*` within the run only. -/
theorem field_eq_ite {f clientField : Str} {p : Prop} [Decidable p]
    (hmatch : f = "*".toList ∨ f = clientField) (hstar : f = "*".toList ↔ p) :
    f = if p then "*".toList else clientField := by
  split_ifs with hp
  · exact hstar.mpr hp
  · exact hmatch.resolve_left fun h => hp (hstar.mp h)

/-- **A range is made of a client exactly when it matches and has one of the shapes.** -/
theorem mem_wildcards_iff_matches {settings : Settings} (h : ClientFields c a b x d) {n : ℕ}
    (hc : ipAddress c = some ⟨.v4, n⟩) {e : Str} :
    e ∈ wildcardIpv4 settings c ↔ RangeMatches e c ∧ IsMade settings e := by
  rw [mem_wildcards_iff h (isIpv4_of_ipAddress hc)]
  constructor
  · rintro ⟨i, j, hreplaces, rfl⟩
    have hne := h.ne_star
    simp only [List.mem_cons, List.not_mem_nil, or_false, forall_eq_or_imp, forall_eq] at hne
    have hsplit := splitOn_starFields h i j
    simp only [List.mapIdx_cons, List.mapIdx_nil] at hsplit
    have hstars : StarsFrom i j (starFields [a, b, x, d] i j) := by
      intro k hk
      rw [splitOn_starFields h, List.getElem?_mapIdx, List.getElem?_eq_getElem hk, Option.map_some,
        Option.some.injEq]
      split_ifs with hrange
      · exact iff_of_true rfl hrange
      · exact iff_of_false (h.ne_star _ (List.getElem_mem hk)) hrange
    refine ⟨⟨?_, ⟨n, hc⟩, ?_⟩, i, j, hreplaces, hstars⟩
    · have hfirst := (hstars i (lt_of_le_of_lt hreplaces.1 hreplaces.2.1)).mpr ⟨le_rfl, hreplaces.1⟩
      exact List.mem_of_getElem? hfirst
    · rw [hsplit, h.splitOn]
      have hfield : ∀ (p : Prop) [Decidable p] (f : Str),
          (if p then "*".toList else f) = "*".toList ∨ (if p then "*".toList else f) = f := by
        intro p _ f
        split_ifs
        · exact .inl rfl
        · exact .inr rfl
      exact .cons (hfield _ a) (.cons (hfield _ b) (.cons (hfield _ x) (.cons (hfield _ d) .nil)))
  · rintro ⟨⟨-, -, hmatch⟩, i, j, hreplaces, hstars⟩
    refine ⟨i, j, hreplaces, ?_⟩
    have hjoin : join ".".toList (e.splitOn '.') = e := List.intercalate_splitOn ..
    rw [h.splitOn] at hmatch
    -- a range that matches has four fields, each `*` or the field of the client
    obtain ⟨f₀, fs₀, h₀, hmatch₀, hsplit⟩ := List.forall₂_cons_right_iff.mp hmatch
    obtain ⟨f₁, fs₁, h₁, hmatch₁, rfl⟩ := List.forall₂_cons_right_iff.mp hmatch₀
    obtain ⟨f₂, fs₂, h₂, hmatch₂, rfl⟩ := List.forall₂_cons_right_iff.mp hmatch₁
    obtain ⟨f₃, fs₃, h₃, hmatch₃, rfl⟩ := List.forall₂_cons_right_iff.mp hmatch₂
    obtain rfl := List.forall₂_nil_right_iff.mp hmatch₃
    unfold StarsFrom at hstars
    rw [hsplit] at hstars
    have hf₀ := field_eq_ite h₀ (Option.some_inj.symm.trans (hstars 0 (by decide)))
    have hf₁ := field_eq_ite h₁ (Option.some_inj.symm.trans (hstars 1 (by decide)))
    have hf₂ := field_eq_ite h₂ (Option.some_inj.symm.trans (hstars 2 (by decide)))
    have hf₃ := field_eq_ite h₃ (Option.some_inj.symm.trans (hstars 3 (by decide)))
    rw [← hjoin, hsplit, hf₀, hf₁, hf₂, hf₃]
    rfl

end Client

/-! ### What the plugin finds -/

section Found

variable {settings : Settings} {c : Str} {ip : IpAddress}

/-- Only an IPv4 client has wildcard addresses. -/
theorem isIpv4_iff (hc : ipAddress c = some ip) : isIpv4 c = true ↔ ip.version = .v4 := by
  obtain ⟨v, n⟩ := ip
  cases v with
  | v4 => exact iff_of_true (isIpv4_of_ipAddress hc) rfl
  | v6 =>
    refine iff_of_false (fun h => ?_) (by simp)
    obtain ⟨rest, hrest, htail⟩ := List.any_eq_true.mp h
    obtain ⟨w, hw, rfl⟩ := (mem_rests _ _ _).mp hrest
    -- no class of the pattern has the colon
    have hcls : ∀ p : Char → Bool, p ':' = false → Only (· ≠ ':') (cls p) := by
      rintro p hp a ha rfl
      rw [hp] at ha
      cases ha
    have hoctet : Only (· ≠ ':') octet :=
      ⟨hcls _ (by decide), ⟨hcls _ (by decide), hcls _ (by decide)⟩,
        ⟨hcls _ (by decide), Only.pow (hcls _ (by decide)) 2⟩,
        ⟨hcls _ (by decide), hcls _ (by decide), hcls _ (by decide)⟩,
        hcls _ (by decide), hcls _ (by decide), hcls _ (by decide)⟩
    have honly : Only (· ≠ ':') regxIpv4 :=
      ⟨Only.pow (r := seq octet (char '.')) ⟨hoctet, hcls _ (by decide)⟩ 3, hoctet⟩
    rcases List.mem_append.mp (colon_mem_of_ipAddress hc) with hcolon | hcolon
    · exact honly.forall_mem hw ':' hcolon rfl
    · rw [Bool.or_eq_true, beq_iff_eq, beq_iff_eq] at htail
      rcases htail with rfl | rfl
      · cases hcolon
      · exact absurd hcolon (by decide)

/-- A range that matches is written with the digits of the client, `*` and `.`. -/
theorem RangeMatches.notMem {e : Str} (h : RangeMatches e c) {ch : Char} (hch : ch ∉ "*.".toList)
    (hdigit : ¬('0' ≤ ch ∧ ch ≤ '9')) : ch ∉ e := by
  obtain ⟨-, ⟨n, hn⟩, hmatch⟩ := h
  obtain ⟨a, b, x, d, hfields⟩ := exists_clientFields hn
  rw [hfields.splitOn] at hmatch
  have hfield : ∀ f ∈ e.splitOn '.', ch ∉ f := by
    intro f hf hmem
    obtain ⟨k, hk, rfl⟩ := List.getElem_of_mem hf
    rcases hmatch.get hk (hmatch.length_eq ▸ hk) with hstar | hclient
    · rw [List.get_eq_getElem] at hstar
      rw [hstar] at hmem
      exact hch (List.mem_append_left ['.'] hmem)
    · rw [List.get_eq_getElem, List.get_eq_getElem] at hclient
      rw [hclient] at hmem
      obtain ⟨m, hm⟩ := Option.isSome_iff_exists.mp (hfields.octet _ (List.getElem_mem _))
      exact hdigit (isDigit_of_parseOctet hm ch hmem)
  intro hmem
  rcases mem_splitOn_or_eq '.' hmem with rfl | ⟨f, hf, hmem⟩
  · exact hch (by decide)
  · exact hfield f hf hmem

/-- A range that matches is no address. -/
theorem RangeMatches.ipAddress_eq_none {e : Str} (h : RangeMatches e c) : ipAddress e = none := by
  cases he : ipAddress e with
  | none => rfl
  | some ip =>
    obtain ⟨v, n⟩ := ip
    cases v with
    | v4 =>
      obtain ⟨a, b, x, d, hfields⟩ := exists_clientFields he
      have hstar := h.1
      rw [hfields.splitOn] at hstar
      exact absurd rfl (hfields.ne_star _ hstar)
    | v6 => exact absurd (colon_mem_of_ipAddress he) (h.notMem (by decide) (by decide))

theorem mem_wildcardIpv4_iff_matches (hc : ipAddress c = some ip) {e : Str} :
    e ∈ wildcardIpv4 settings c ↔ RangeMatches e c ∧ IsMade settings e := by
  obtain ⟨v, n⟩ := ip
  cases v with
  | v4 =>
    obtain ⟨a, b, x, d, hfields⟩ := exists_clientFields hc
    exact mem_wildcards_iff_matches hfields hc
  | v6 =>
    have hv6 : ¬isIpv4 c = true := fun h => by cases (isIpv4_iff hc).mp h
    unfold wildcardIpv4
    rw [if_neg hv6]
    refine iff_of_false List.not_mem_nil ?_
    rintro ⟨⟨-, ⟨m, hm⟩, -⟩, -⟩
    rw [hc] at hm
    cases hm

/-- An entry that is found: the client itself, a range that is made of it, a network around it. -/
theorem found_iff (hc : ipAddress c = some ip) (e : Str) :
    (EntryCovers e c ∧ ¬EntryOverlooked settings e c) ↔
      e = c ∨ ('/' ∉ e ∧ e ∈ wildcardIpv4 settings c) ∨ SubnetContains e c := by
  rw [mem_wildcardIpv4_iff_matches hc]
  constructor
  · rintro ⟨hsame | hrange | hsubnet, hfound⟩
    · left
      by_contra hne
      exact hfound (.inl ⟨hsame, hne⟩)
    · refine .inr (.inl ⟨hrange.notMem (by decide) (by decide), hrange, ?_⟩)
      by_contra hmade
      exact hfound (.inr ⟨hrange, hmade⟩)
    · exact .inr (.inr hsubnet)
  · rintro (rfl | ⟨hslash, hrange, hmade⟩ | hsubnet)
    · refine ⟨.inl ⟨⟨ip, hc, hc⟩, rfl⟩, ?_⟩
      rintro (⟨-, hne⟩ | ⟨hrange, -⟩)
      · exact hne rfl
      · rw [hrange.ipAddress_eq_none] at hc
        cases hc
    · refine ⟨.inr (.inl hrange), ?_⟩
      rintro (⟨⟨⟨ip', hip', -⟩, -⟩, -⟩ | ⟨-, hno⟩)
      · rw [hrange.ipAddress_eq_none] at hip'
        cases hip'
      · exact hno hmade
    · refine ⟨.inr (.inr hsubnet), ?_⟩
      rintro (⟨⟨⟨ip', hip', -⟩, -⟩, -⟩ | ⟨hrange, -⟩)
      · exact slash_notMem_of_ipAddress hip' hsubnet.1
      · exact hrange.notMem (by decide) (by decide) hsubnet.1

/-- **The client is trusted exactly when it is the local host or an entry that covers it is not
overlooked.** -/
theorem isTrustedClient_iff (hc : ipAddress c = some ip) : ∃ b, isTrustedClient settings c = .ok b ∧
    (b = true ↔ c = "127.0.0.1".toList ∨ c = "::1".toList ∨
      ∃ e ∈ settings.myNetworks, EntryCovers e c ∧ ¬EntryOverlooked settings e c) := by
  have hips : ∀ e, e ∈ trustedIps settings ↔ e ∈ settings.myNetworks ∧ '/' ∉ e := by
    intro e
    unfold trustedIps
    rw [List.mem_filter, decide_eq_true_eq]
  simp only [found_iff hc]
  unfold isTrustedClient
  -- in the order of the source: the local host, the listed texts, the ranges, the networks
  by_cases hlocal : ["127.0.0.1".toList, "::1".toList].contains c = true
  · refine ⟨true, if_pos hlocal, iff_of_true rfl ?_⟩
    rw [List.contains_iff_mem, List.mem_cons, List.mem_singleton] at hlocal
    exact hlocal.imp_right .inl
  rw [if_neg hlocal]
  by_cases hlisted : (trustedIps settings).contains c = true
  · refine ⟨true, if_pos hlisted, iff_of_true rfl (.inr (.inr ⟨c, ?_, .inl rfl⟩))⟩
    exact ((hips c).mp (List.contains_iff_mem.mp hlisted)).1
  rw [if_neg hlisted]
  by_cases hrange : (wildcardIpv4 settings c).any (trustedIps settings).contains = true
  · refine ⟨true, if_pos hrange, iff_of_true rfl (.inr (.inr ?_))⟩
    obtain ⟨e, he, hmem⟩ := List.any_eq_true.mp hrange
    obtain ⟨hmem, hslash⟩ := (hips e).mp (List.contains_iff_mem.mp hmem)
    exact ⟨e, hmem, .inr (.inl ⟨hslash, he⟩)⟩
  rw [if_neg hrange, hc]
  refine ⟨_, rfl, ?_⟩
  rw [List.any_eq_true]
  constructor
  · rintro ⟨net, hnet, hcontains⟩
    obtain ⟨e, he, hnet⟩ := List.mem_filterMap.mp hnet
    obtain ⟨hmem, hslash⟩ := List.mem_filter.mp he
    exact .inr (.inr ⟨e, hmem, .inr (.inr ⟨of_decide_eq_true hslash, net, ip, hnet, hc, hcontains⟩)⟩)
  · rw [List.contains_iff_mem, List.mem_cons, List.mem_singleton, not_or] at hlocal
    -- what the earlier tests have not found is a network
    rintro (h | h | ⟨e, hmem, rfl | ⟨hslash, he⟩ | ⟨hslash, net, ip', hnet, hip', hcontains⟩⟩)
    · exact absurd h hlocal.1
    · exact absurd h hlocal.2
    · refine absurd (List.contains_iff_mem.mpr ((hips e).mpr ⟨hmem, ?_⟩)) hlisted
      exact slash_notMem_of_ipAddress hc
    · refine absurd (List.any_eq_true.mpr ⟨e, he, ?_⟩) hrange
      exact List.contains_iff_mem.mpr ((hips e).mpr ⟨hmem, hslash⟩)
    · rw [hc] at hip'
      obtain rfl := Option.some.inj hip'
      refine ⟨net, List.mem_filterMap.mpr ⟨e, List.mem_filter.mpr ⟨hmem, ?_⟩, hnet⟩, hcontains⟩
      exact decide_eq_true hslash

end Found

/-! ### What `MYNETWORKS` says -/

/-- **The documented entries are trusted** exactly when no entry that covers the client is overlooked, or
the client is the local host or covered by an entry that is not. -/
theorem trusts_iff {settings : Settings} {c : Str} (hc : (ipAddress c).isSome) :
    ∃ b, isTrustedClient settings c = .ok b ∧ ((b = true ↔ Trusted settings c) ↔
      ((∃ e ∈ settings.myNetworks, EntryOverlooked settings e c) →
        c = "127.0.0.1".toList ∨ c = "::1".toList ∨
          ∃ e ∈ settings.myNetworks, EntryCovers e c ∧ ¬EntryOverlooked settings e c)) := by
  obtain ⟨ip, hip⟩ := Option.isSome_iff_exists.mp hc
  obtain ⟨b, hb, hfound⟩ := @isTrustedClient_iff settings c ip hip
  refine ⟨b, hb, ?_⟩
  rw [hfound]
  constructor
  · rintro hiff ⟨e, he, hoverlooked⟩
    refine hiff.mpr (.inr (.inr ⟨e, he, ?_⟩))
    rcases hoverlooked with ⟨hsame, -⟩ | ⟨hrange, -⟩
    · exact .inl hsame
    · exact .inr (.inl hrange)
  · intro hcond
    unfold Trusted
    constructor
    · rintro (h | h | ⟨e, he, hcovers, -⟩)
      · exact .inl h
      · exact .inr (.inl h)
      · exact .inr (.inr ⟨e, he, hcovers⟩)
    · rintro (h | h | ⟨e, he, hcovers⟩)
      · exact .inl h
      · exact .inr (.inl h)
      · by_cases hoverlooked : EntryOverlooked settings e c
        · exact hcond ⟨e, he, hoverlooked⟩
        · exact .inr (.inr ⟨e, he, hcovers, hoverlooked⟩)

theorem trusts_client :
    (ipAddress "192.168.1.7".toList).isSome ∧
      ∃ b, isTrustedClient { myNetworks := ["192.168.1.*"] } "192.168.1.7" = .ok b ∧
        ((b = true ↔ Trusted { myNetworks := ["192.168.1.*"] } "192.168.1.7") ↔
          ((∃ e ∈ ["192.168.1.*".toList],
              EntryOverlooked { myNetworks := ["192.168.1.*"] } e "192.168.1.7") →
            "192.168.1.7".toList = "127.0.0.1".toList ∨ "192.168.1.7".toList = "::1".toList ∨
              ∃ e ∈ ["192.168.1.*".toList], EntryCovers e "192.168.1.7" ∧
                ¬EntryOverlooked { myNetworks := ["192.168.1.*"] } e "192.168.1.7")) := by
  have hc : (ipAddress "192.168.1.7".toList).isSome := by decide
  exact ⟨hc, trusts_iff hc⟩

/-- A client in a documented range with two `*` is not trusted. -/
theorem range_not_trusted :
    isTrustedClient { myNetworks := ["192.168.*.*"] } "192.168.1.7" = .ok false ∧
      Trusted { myNetworks := ["192.168.*.*"] } "192.168.1.7" := by
  refine ⟨by decide, .inr (.inr ⟨"192.168.*.*".toList, List.mem_singleton_self _, .inr (.inl ?_)⟩)⟩
  refine ⟨by decide, ⟨0xc0a80107, by decide⟩, ?_⟩
  decide

end IRedAPD

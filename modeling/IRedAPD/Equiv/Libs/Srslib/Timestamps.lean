/-
  The timestamps of `libs/srslib.py`.

  A timestamp is the day modulo 1024 (`dayTs_eq_iff`).  The timestamps an
  instance has kept are those of some day and of the days before it
  (`Srs.Kept`), and what it compares with are those of a day on which it has
  just read the clock (`Srs.validTs_spec`): whether that list was kept or made
  anew makes no difference.

  A time of zero counts as none, so the clock has to be past the days an address
  is valid.
-/
import IRedAPD.Equiv.Libs.Srslib.Patterns

namespace IRedAPD.Srslib

open Py

/-! ### One timestamp -/

theorem tsChar_eq_iff {m n : ℤ} : tsChar m = tsChar n ↔ m % 32 = n % 32 := by
  constructor
  · intro h
    have hnodup : tsAlphabet.Nodup := by decide
    have hlength : tsAlphabet.length = 32 := by decide
    have hm : (m % 32).toNat < tsAlphabet.length := by omega
    have hn : (n % 32).toNat < tsAlphabet.length := by omega
    unfold tsChar at h
    rw [List.getD_eq_getElem _ _ hm, List.getD_eq_getElem _ _ hn, hnodup.getElem_inj_iff] at h
    omega
  · intro h
    unfold tsChar
    rw [h]

/-- **A timestamp is a day modulo 1024.** -/
theorem dayTs_eq_iff {d e : ℤ} : dayTs d = dayTs e ↔ d % 1024 = e % 1024 := by
  unfold dayTs
  rw [List.cons.injEq, List.cons.injEq, tsChar_eq_iff, tsChar_eq_iff]
  constructor
  · rintro ⟨hhigh, hlow, -⟩
    omega
  · intro h
    refine ⟨?_, ?_, rfl⟩
    · omega
    · omega

theorem tsChar_mem (n : ℤ) : tsChar n ∈ tsAlphabet := by
  have hlength : tsAlphabet.length = 32 := by decide
  have hn : (n % 32).toNat < tsAlphabet.length := by omega
  unfold tsChar
  rw [List.getD_eq_getElem _ _ hn]
  exact List.getElem_mem hn

theorem mem_tsAlphabet_of_mem_dayTs {d : ℤ} {c : Char} (hc : c ∈ dayTs d) : c ∈ tsAlphabet := by
  unfold dayTs at hc
  simp only [List.mem_cons, List.not_mem_nil, or_false] at hc
  rcases hc with rfl | rfl
  · exact tsChar_mem _
  · exact tsChar_mem _

/-- In upper case a timestamp is itself, in whatever case it comes back. -/
theorem upper_of_sameLetters_dayTs [Unicode] {ts : Str} {d : ℤ} (h : SameLetters ts (dayTs d)) :
    Unicode.upper ts = dayTs d := by
  have halphabet : ∀ c ∈ tsAlphabet, c.toNat < 128 ∧ c.toUpper = c := by decide
  have hascii : ∀ c ∈ ts, c.toNat < 128 := by
    refine h.forall_mem (fun c e heq he => ?_)
      fun e he => (halphabet e (mem_tsAlphabet_of_mem_dayTs he)).1
    rcases eq_or_isAlpha heq with rfl | ⟨halpha, -⟩
    · exact he
    · exact toNat_lt_of_isAlpha halpha
  rw [Unicode.upper_ascii ts hascii, h.map_toUpper]
  conv_rhs => rw [← List.map_id (dayTs d)]
  exact List.map_congr_left fun c hc => (halphabet c (mem_tsAlphabet_of_mem_dayTs hc)).2

theorem dayOf_sub (t : ℚ) (i : ℕ) : dayOf (t - i * 86400) = dayOf t - i := by
  unfold dayOf
  rw [sub_div, mul_div_assoc, div_self (by norm_num), mul_one, Int.floor_sub_natCast]

theorem dayOf_mono {t u : ℚ} (h : t ≤ u) : dayOf t ≤ dayOf u := by
  unfold dayOf
  exact Int.floor_mono (div_le_div_of_nonneg_right h (by norm_num))

theorem dayOf_le {t u : ℚ} {i : ℕ} (h : u ≤ t + i * 86400) : dayOf u ≤ dayOf t + i := by
  have hsub := dayOf_sub u i
  have hmono : dayOf (u - i * 86400) ≤ dayOf t := dayOf_mono (by linarith only [h])
  omega

/-! ### The timestamps that are kept -/

variable (srs : Srs) (timeFn : ℕ → ℚ)

theorem generateTs_some {t : ℚ} (ht : t ≠ 0) (st : State) :
    generateTs timeFn (some t) st = (dayTs (dayOf t), st) := by
  unfold generateTs
  simp only [if_neg ht]

theorem generateTs_none (st : State) : generateTs timeFn none st =
    (dayTs (dayOf (timeFn st.readings)), { st with readings := st.readings + 1 }) := rfl

theorem generateTsList_eq {times : List ℚ} (h : ∀ t ∈ times, t ≠ 0) (st : State) :
    generateTsList timeFn times st = (times.map fun t => dayTs (dayOf t), st) := by
  induction times with
  | nil => rfl
  | cons t times ih =>
    rw [generateTsList]
    simp only [generateTs_some timeFn (h t List.mem_cons_self),
      ih fun u hu => h u (List.mem_cons_of_mem t hu), List.map_cons]

/-- The timestamps of a day and of the days before. -/
def Srs.cacheOf (day : ℤ) : List Str :=
  (List.range srs.validityDays).map fun i : ℕ => dayTs (day - i)

theorem Srs.mem_cacheOf {day d : ℤ} (hle : d ≤ day) (hlt : day < d + srs.validityDays) :
    dayTs d ∈ srs.cacheOf day := by
  refine List.mem_map.mpr ⟨(day - d).toNat, List.mem_range.mpr (by omega), ?_⟩
  rw [dayTs_eq_iff]
  omega

/-- Days with one timestamp have the same list. -/
theorem Srs.cacheOf_congr {d e : ℤ} (h : dayTs d = dayTs e) : srs.cacheOf d = srs.cacheOf e := by
  rw [dayTs_eq_iff] at h
  refine List.map_congr_left fun i _ => dayTs_eq_iff.mpr ?_
  omega

theorem Srs.head?_cacheOf (day : ℤ) : (srs.cacheOf day).head? = some (dayTs day) := by
  obtain ⟨n, hn⟩ := Nat.exists_eq_succ_of_ne_zero srs.validityDays_pos.ne'
  unfold Srs.cacheOf
  rw [hn, List.range_succ_eq_map, List.map_cons, List.head?_cons, Nat.cast_zero, sub_zero]

/-- What is kept is the list of some day. -/
def Srs.Kept (st : State) : Prop := ∀ cache, st.validTsCache = some cache → ∃ day, cache = srs.cacheOf day

theorem Srs.kept_initial : srs.Kept {} := by
  intro cache h
  cases h

section Late

variable {srs timeFn} (hlate : ∀ n, ((srs.validityDays : ℚ) - 1) * 86400 < timeFn n)

include hlate in
theorem Srs.renewCache_eq (st : State) : srs.renewCache timeFn st =
    (srs.cacheOf (dayOf (timeFn st.readings)),
      ⟨some (srs.cacheOf (dayOf (timeFn st.readings))), st.readings + 1⟩) := by
  have hne : ∀ t ∈ (List.range srs.validityDays).map fun i : ℕ => timeFn st.readings - i * 86400,
      t ≠ 0 := by
    intro t ht
    obtain ⟨i, hi, rfl⟩ := List.mem_map.mp ht
    have hi' : (i : ℚ) ≤ srs.validityDays - 1 := by
      have hcast : ((i + 1 : ℕ) : ℚ) ≤ srs.validityDays :=
        Nat.cast_le.mpr (List.mem_range.mp hi)
      push_cast at hcast
      linarith only [hcast]
    have hpos := hlate st.readings
    have hlt : (i : ℚ) * 86400 < timeFn st.readings := by linarith only [hi', hpos]
    exact (sub_pos.mpr hlt).ne'
  have hdays : (List.map (fun t => dayTs (dayOf t))
      ((List.range srs.validityDays).map fun i : ℕ => timeFn st.readings - i * 86400)) =
      srs.cacheOf (dayOf (timeFn st.readings)) := by
    unfold Srs.cacheOf
    rw [List.map_map]
    refine List.map_congr_left fun i _ => ?_
    show dayTs (dayOf (timeFn st.readings - i * 86400)) = _
    rw [dayOf_sub]
  unfold Srs.renewCache State.time
  simp only [generateTsList_eq timeFn hne, hdays]

include hlate in
/-- **The timestamps compared with are those of a day just read off the clock.** -/
theorem Srs.validTs_spec {st : State} (hkept : srs.Kept st) :
    srs.Kept (srs.validTs timeFn st).2 ∧
    ∃ n, st.readings ≤ n ∧ n < (srs.validTs timeFn st).2.readings ∧
      (srs.validTs timeFn st).1 = srs.cacheOf (dayOf (timeFn n)) := by
  have hrenew : ∀ st' : State, st.readings ≤ st'.readings → srs.Kept (srs.renewCache timeFn st').2 ∧
      ∃ n, st.readings ≤ n ∧ n < (srs.renewCache timeFn st').2.readings ∧
        (srs.renewCache timeFn st').1 = srs.cacheOf (dayOf (timeFn n)) := by
    intro st' hle
    rw [srs.renewCache_eq hlate]
    refine ⟨?_, st'.readings, hle, Nat.lt_succ_self _, rfl⟩
    rintro cache ⟨⟩
    exact ⟨_, rfl⟩
  unfold Srs.validTs
  cases hcache : st.validTsCache with
  | none => exact hrenew st le_rfl
  | some cache =>
    obtain ⟨day, rfl⟩ := hkept cache hcache
    simp only [generateTs_none, srs.head?_cacheOf]
    by_cases htoday : some (dayTs day) ≠ some (dayTs (dayOf (timeFn st.readings)))
    · simp only [if_pos htoday]
      exact hrenew _ (Nat.le_succ _)
    · simp only [if_neg htoday]
      refine ⟨?_, st.readings, le_rfl, Nat.lt_succ_self _, ?_⟩
      · rintro cache' hcache'
        rw [hcache] at hcache'
        obtain rfl := Option.some.inj hcache'
        exact ⟨day, rfl⟩
      · -- kept since a day with the same timestamp
        exact srs.cacheOf_congr (Option.some.inj (not_not.mp htoday))

variable [Unicode]

theorem Srs.checkTs_snd (ts addr : Str) (st : State) :
    (srs.checkTs timeFn ts addr st).2 = (srs.validTs timeFn st).2 := by
  unfold Srs.checkTs
  simp only
  split_ifs
  · rfl
  · rfl

include hlate in
/-- A timestamp is accepted as long as all clock readings of the check are within the days it is
valid. -/
theorem Srs.checkTs_eq_ok {st : State} (hkept : srs.Kept st) {ts addr : Str} {sentAt : ℚ}
    (hts : SameLetters ts (dayTs (dayOf sentAt)))
    (hwithin : ∀ n, st.readings ≤ n → n < (srs.checkTs timeFn ts addr st).2.readings →
      sentAt ≤ timeFn n ∧ timeFn n ≤ sentAt + ((srs.validityDays : ℚ) - 1) * 86400) :
    srs.checkTs timeFn ts addr st = (.ok (), (srs.validTs timeFn st).2) := by
  obtain ⟨-, n, hle, hlt, hcache⟩ := srs.validTs_spec hlate hkept
  rw [srs.checkTs_snd] at hwithin
  obtain ⟨hafter, hbefore⟩ := hwithin n hle hlt
  have hpos := srs.validityDays_pos
  have hdays : dayOf (timeFn n) ≤ dayOf sentAt + (srs.validityDays - 1 : ℕ) := by
    apply dayOf_le
    rwa [Nat.cast_sub hpos, Nat.cast_one]
  have hmem : (srs.cacheOf (dayOf (timeFn n))).contains (Unicode.upper ts) = true := by
    rw [upper_of_sameLetters_dayTs hts, List.contains_iff_mem]
    exact srs.mem_cacheOf (dayOf_mono hafter) (by omega)
  unfold Srs.checkTs
  simp only [hcache, hmem, if_true]

end Late

end IRedAPD.Srslib

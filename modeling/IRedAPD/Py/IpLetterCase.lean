/-
  The lower case of an address and of a network is one, too.

  Hexadecimal digits have the same value in both cases (`hexDigit_toLower`), and
  nothing else in an address is a letter but the scope id, which is not looked at.
-/
import IRedAPD.Py.IpAddress
import IRedAPD.Py.LetterCase

namespace Py

/-! ### Digits -/

theorem decDigit_toLower (c : Char) : decDigit c.toLower = decDigit c := by
  by_cases halpha : c.isAlpha = true
  · have hno : ∀ d : Char, d.isAlpha = true → decDigit d = none := by
      intro d hd
      refine if_neg fun hdigit => ?_
      have hlo := (toNat_of_isAlpha hd).1
      have hhi : d.toNat ≤ 57 := hdigit.2
      omega
    rw [hno c halpha, hno c.toLower (by rwa [Char.isAlpha_toLower_eq_isAlpha])]
  · rw [(toLower_eq_iff (Bool.eq_false_iff.mpr halpha)).mpr rfl]

theorem hexDigit_toLower (c : Char) : hexDigit c.toLower = hexDigit c := by
  by_cases hupper : c.isUpper = true
  · have hn : c.toNat = c.val.toNat := rfl
    have hc : 65 ≤ c.toNat ∧ c.toNat ≤ 90 := by
      unfold Char.isUpper at hupper
      simp only [ge_iff_le, decide_eq_true_eq, UInt32.le_iff_toNat_le] at hupper
      exact hupper
    obtain ⟨hlo, hhi⟩ := hc
    -- one of 26 letters
    have hletter : c = Char.ofNat c.toNat := (Char.ofNat_toNat c).symm
    rw [hletter]
    generalize c.toNat = n at hlo hhi
    interval_cases n <;> decide
  · rw [Char.toLower_eq_of_not_isUpper hupper]

theorem digitsValue_map {digit : Char → Option ℕ} {f : Char → Char} (hf : ∀ c, digit (f c) = digit c)
    (base : ℕ) (s : Str) : digitsValue digit base (s.map f) = digitsValue digit base s := by
  unfold digitsValue
  rw [List.isEmpty_map, List.foldl_map]
  simp only [hf]

/-! ### IPv4 -/

theorem parseOctet_map_toLower (s : Str) : parseOctet (s.map Char.toLower) = parseOctet s := by
  have hzero : s.map Char.toLower = ['0'] ↔ s = ['0'] := map_toLower_eq_iff (by decide)
  have hhead : (s.map Char.toLower).head? = some '0' ↔ s.head? = some '0' := by
    cases s with
    | nil => rfl
    | cons c s =>
      rw [List.map_cons, List.head?_cons, List.head?_cons, Option.some_inj, Option.some_inj]
      exact toLower_eq_iff (by decide)
  unfold parseOctet
  simp only [digitsValue_map decDigit_toLower, List.length_map, ne_eq, hzero, hhead]

theorem ipv4FromString_map_toLower (s : Str) :
    ipv4FromString (s.map Char.toLower) = ipv4FromString s := by
  unfold ipv4FromString
  rw [splitOn_map_toLower (by decide)]
  rcases s.splitOn '.' with _ | ⟨a, _ | ⟨b, _ | ⟨c, _ | ⟨d, _ | ⟨e, rest⟩⟩⟩⟩⟩
  · rfl
  · rfl
  · rfl
  · rfl
  · simp only [List.map_cons, List.map_nil, parseOctet_map_toLower]
  · rfl

/-! ### IPv6 -/

theorem parseHextet_map_toLower (s : Str) : parseHextet (s.map Char.toLower) = parseHextet s := by
  unfold parseHextet
  rw [List.length_map, digitsValue_map hexDigit_toLower]

theorem hextetsValue_map_toLower (start : ℕ) (parts : List Str) :
    hextetsValue start (parts.map (List.map Char.toLower)) = hextetsValue start parts := by
  unfold hextetsValue
  rw [List.foldl_map]
  simp only [parseHextet_map_toLower]

/-- `'%x'` writes lower case. -/
theorem map_toLower_hexStr (n : ℕ) : (hexStr n).map Char.toLower = hexStr n := by
  have hdigit : ∀ d < 16, (Nat.digitChar d).toLower = Nat.digitChar d := by decide
  unfold hexStr
  induction n using Nat.strongRecOn with
  | ind n ih =>
    rw [Nat.toDigits_eq_if (by decide)]
    split_ifs with hn
    · rw [List.map_singleton, hdigit n hn]
    · rw [List.map_append, List.map_singleton, hdigit _ (Nat.mod_lt n (by decide)),
        ih (n / 16) (Nat.div_lt_self (by omega) (by decide))]

theorem getLastD_map_toLower (parts : List Str) :
    (parts.map (List.map Char.toLower)).getLastD [] = (parts.getLastD []).map Char.toLower := by
  rw [List.getLastD_eq_getLast?, List.getLastD_eq_getLast?, List.getLast?_map]
  cases parts.getLast? with
  | none => rfl
  | some p => rfl

theorem ipv6Parts_map_toLower (s : Str) :
    ipv6Parts (s.map Char.toLower) = (ipv6Parts s).map (List.map (List.map Char.toLower)) := by
  have hcolon : ':'.isAlpha = false := rfl
  unfold ipv6Parts
  simp only [splitOn_map_toLower hcolon, List.length_map, getLastD_map_toLower,
    mem_map_toLower_iff (c := '.') (by decide), ipv4FromString_map_toLower]
  split_ifs
  · rfl
  · rw [Option.map_map]
    congr 1
    funext n
    rw [Function.comp_apply, List.map_append, List.map_cons, List.map_cons, List.map_nil,
      map_toLower_hexStr, map_toLower_hexStr, List.map_dropLast]
  · rfl

theorem skipIndices_map_toLower (parts : List Str) :
    skipIndices (parts.map (List.map Char.toLower)) = skipIndices parts := by
  unfold skipIndices
  rw [List.length_map]
  refine List.filter_congr fun i _ => ?_
  have hempty : (parts.map (List.map Char.toLower)).getD i [] = [] ↔ parts.getD i [] = [] := by
    rw [List.getD_eq_getElem?_getD, List.getD_eq_getElem?_getD, List.getElem?_map]
    cases parts[i]? with
    | none => exact Iff.rfl
    | some p => exact List.map_eq_nil_iff
  simp only [hempty]

theorem ipv6FromString_map_toLower (s : Str) :
    ipv6FromString (s.map Char.toLower) = ipv6FromString s := by
  have hsome : ∀ p : Option Str, p.map (List.map Char.toLower) = some [] ↔ p = some [] := by
    intro p
    cases p with
    | none => exact Iff.rfl
    | some p => simp
  unfold ipv6FromString
  rw [ipv6Parts_map_toLower]
  cases ipv6Parts s with
  | none => rfl
  | some parts =>
    simp only [Option.map_some, Option.bind_eq_bind, Option.bind_some, List.length_map,
      skipIndices_map_toLower, hextetsValue_map_toLower, List.head?_map, List.getLast?_map, hsome,
      ← List.map_take, ← List.map_drop]

/-! ### Addresses and networks -/

theorem splitScopeId_map_toLower (s : Str) :
    splitScopeId (s.map Char.toLower) = (splitScopeId s).map (List.map Char.toLower) := by
  unfold splitScopeId
  rw [splitOnce_map_toLower (by decide)]
  rcases splitOnce ['%'] s with _ | ⟨addr, scope⟩
  · rfl
  · simp only [Option.map_some, Prod.map_apply, List.map_eq_nil_iff,
      mem_map_toLower_iff (c := '%') (by decide)]
    split_ifs <;> rfl

/-- **The lower case of an address is the same address.** -/
theorem ipAddress_map_toLower (s : Str) : ipAddress (s.map Char.toLower) = ipAddress s := by
  unfold ipAddress
  simp only [mem_map_toLower_iff (c := '/') (by decide), ipv4FromString_map_toLower,
    splitScopeId_map_toLower, Option.bind_map]
  have hcomp : ipv6FromString ∘ List.map Char.toLower = ipv6FromString :=
    funext ipv6FromString_map_toLower
  rw [hcomp]

theorem prefixFromString_map_toLower (width : ℕ) (s : Str) :
    prefixFromString width (s.map Char.toLower) = prefixFromString width s := by
  unfold prefixFromString
  rw [digitsValue_map decDigit_toLower]

/-- **The lower case of a network is the same network.** -/
theorem ipNetwork_map_toLower (s : Str) : ipNetwork (s.map Char.toLower) = ipNetwork s := by
  unfold ipNetwork
  rw [splitOn_map_toLower (by decide)]
  rcases s.splitOn '/' with _ | ⟨a, _ | ⟨m, _ | ⟨x, rest⟩⟩⟩
  · rfl
  · simp only [List.map_cons, List.map_nil, ipAddress_map_toLower]
  · unfold prefixFromIpString
    simp only [List.map_cons, List.map_nil, ipAddress_map_toLower, prefixFromString_map_toLower,
      ipv4FromString_map_toLower]
  · rfl

end Py

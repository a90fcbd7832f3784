/-
  What the patterns for IP addresses know.

  The IPv4 patterns know the texts of `ipaddress` and no others
  (`mem_language_regxIpv4`, `mem_language_ipv4Prefix`).  The IPv6 pattern knows
  every way to leave hextets out, but only a few octets, written with `d` or from
  `250` on, where an IPv4 address stands in place of the last two hextets
  (`mem_language_ipv6Core`, `mem_language_octetD_iff`).
-/
import IRedAPD.Equiv.AddressFormats
import IRedAPD.Py.Ipv6Form
import Mathlib.Tactic.IntervalCases

namespace IRedAPD

open Py Py.Regex Regxes

/-! ### Characters -/

theorem mem_language_lit {v w : Str} : w ∈ language (lit v) ↔ w = v := by
  induction v generalizing w with
  | nil =>
    rw [lit, language, Language.mem_one]
  | cons c v ih =>
    rw [lit, mem_language_cls_seq]
    constructor
    · rintro ⟨d, u, hd, hu, rfl⟩
      rw [of_decide_eq_true hd, ih.mp hu]
    · rintro rfl
      exact ⟨c, v, decide_eq_true rfl, ih.mpr rfl, rfl⟩

/-- The ten digits. -/
def digits : List Char := "0123456789".toList

theorem mem_digits {c : Char} (hlo : '0' ≤ c) (hhi : c ≤ '9') : c ∈ digits := by
  have hzero : 48 ≤ c.toNat := hlo
  have hnine : c.toNat ≤ 57 := hhi
  rw [← Char.ofNat_toNat c]
  interval_cases c.toNat <;> decide

/-- A digit of a range. -/
theorem exists_digit {lo hi : Char} {w : Str} (hlo : '0' ≤ lo) (hhi : hi ≤ '9')
    (h : w ∈ language (digit lo hi)) : ∃ c ∈ digits, (lo ≤ c && c ≤ hi) = true ∧ w = [c] := by
  obtain ⟨c, hc, rfl⟩ := mem_language_cls.mp h
  obtain ⟨hloc, hchi⟩ : lo ≤ c ∧ c ≤ hi := by simpa using hc
  exact ⟨c, mem_digits (Char.le_trans hlo hloc) (Char.le_trans hchi hhi), hc, rfl⟩

/-! ### IPv4 -/

/-- The pattern knows octets only. -/
theorem exists_parseOctet {w : Str} (h : w ∈ language octet) : ∃ n, parseOctet w = some n := by
  have hone : ∀ a ∈ digits, (parseOctet [a]).isSome := by decide
  have htwo : ∀ a ∈ digits, ∀ b ∈ digits, ('1' ≤ a && a ≤ '9') = true →
      (parseOctet [a, b]).isSome := by decide +kernel
  have hhundred : ∀ b ∈ digits, ∀ c ∈ digits, (parseOctet ['1', b, c]).isSome := by decide +kernel
  have htwenty : ∀ b ∈ digits, ∀ c ∈ digits, ('0' ≤ b && b ≤ '4') = true →
      (parseOctet ['2', b, c]).isSome := by decide +kernel
  have hfifty : ∀ c ∈ digits, ('0' ≤ c && c ≤ '5') = true → (parseOctet ['2', '5', c]).isSome := by
    decide +kernel
  apply Option.isSome_iff_exists.mp
  unfold octet at h
  simp only [mem_language_alt] at h
  rcases h with h | h | h | h | h
  · obtain ⟨a, hda, -, rfl⟩ := exists_digit (by decide) (by decide) h
    exact hone a hda
  · obtain ⟨_, ha, _, hb, rfl⟩ := mem_language_seq.mp h
    obtain ⟨a, hda, hrange, rfl⟩ := exists_digit (by decide) (by decide) ha
    obtain ⟨b, hdb, -, rfl⟩ := exists_digit (by decide) (by decide) hb
    exact htwo a hda b hdb hrange
  · obtain ⟨_, hbc, rfl⟩ := mem_language_char_seq.mp h
    obtain ⟨_, hb, _, hcnil, rfl⟩ := mem_language_seq.mp hbc
    obtain ⟨_, hc, _, rfl, rfl⟩ := mem_language_seq.mp hcnil
    obtain ⟨b, hdb, -, rfl⟩ := exists_digit (by decide) (by decide) hb
    obtain ⟨c, hdc, -, rfl⟩ := exists_digit (by decide) (by decide) hc
    exact hhundred b hdb c hdc
  · obtain ⟨_, hbc, rfl⟩ := mem_language_char_seq.mp h
    obtain ⟨_, hb, _, hc, rfl⟩ := mem_language_seq.mp hbc
    obtain ⟨b, hdb, hrange, rfl⟩ := exists_digit (by decide) (by decide) hb
    obtain ⟨c, hdc, -, rfl⟩ := exists_digit (by decide) (by decide) hc
    exact htwenty b hdb c hdc hrange
  · obtain ⟨_, hbc, rfl⟩ := mem_language_char_seq.mp h
    obtain ⟨_, hc, rfl⟩ := mem_language_char_seq.mp hbc
    obtain ⟨c, hdc, hrange, rfl⟩ := exists_digit (by decide) (by decide) hc
    exact hfifty c hdc hrange

/-- Four octets with dots between them. -/
theorem ipv4FromString_of_octets {a b c d : Str} {x y z w : ℕ} (ha : parseOctet a = some x)
    (hb : parseOctet b = some y) (hc : parseOctet c = some z) (hd : parseOctet d = some w) :
    ipv4FromString (a ++ '.' :: (b ++ '.' :: (c ++ '.' :: d))) =
      some (((x * 256 + y) * 256 + z) * 256 + w) := by
  have hjoin : a ++ '.' :: (b ++ '.' :: (c ++ '.' :: d)) = ['.'].intercalate [a, b, c, d] := by
    simp
  have hsplit : (a ++ '.' :: (b ++ '.' :: (c ++ '.' :: d))).splitOn '.' = [a, b, c, d] := by
    rw [hjoin]
    apply List.splitOn_intercalate
    · intro p hp
      simp only [List.mem_cons, List.not_mem_nil, or_false] at hp
      rcases hp with rfl | rfl | rfl | rfl
      · exact dot_notMem_octet ha
      · exact dot_notMem_octet hb
      · exact dot_notMem_octet hc
      · exact dot_notMem_octet hd
    · exact List.cons_ne_nil _ _
  unfold ipv4FromString
  rw [hsplit]
  simp only [ha, hb, hc, hd]
  rfl

/-- **The IPv4 pattern knows IPv4 addresses and no other texts.** -/
theorem mem_language_regxIpv4 {w : Str} :
    w ∈ language regxIpv4 ↔ (ipv4FromString w).isSome := by
  unfold regxIpv4
  constructor
  · intro h
    obtain ⟨_, hthree, d, hd, rfl⟩ := mem_language_seq.mp h
    obtain ⟨_, ha, _, htwo, rfl⟩ := mem_language_seq.mp hthree
    obtain ⟨_, hb, _, hone, rfl⟩ := mem_language_seq.mp htwo
    obtain ⟨_, hc, _, rfl, rfl⟩ := mem_language_seq.mp hone
    obtain ⟨a, hla, rfl⟩ := mem_language_octet_dot.mp ha
    obtain ⟨b, hlb, rfl⟩ := mem_language_octet_dot.mp hb
    obtain ⟨c, hlc, rfl⟩ := mem_language_octet_dot.mp hc
    obtain ⟨x, hx⟩ := exists_parseOctet hla
    obtain ⟨y, hy⟩ := exists_parseOctet hlb
    obtain ⟨z, hz⟩ := exists_parseOctet hlc
    obtain ⟨w, hw⟩ := exists_parseOctet hd
    have hvalue := ipv4FromString_of_octets hx hy hz hw
    have htext : a ++ ['.'] ++ (b ++ ['.'] ++ (c ++ ['.'] ++ [])) ++ d =
        a ++ '.' :: (b ++ '.' :: (c ++ '.' :: d)) := by simp
    rw [htext, hvalue]
    rfl
  · intro h
    obtain ⟨n, hn⟩ := Option.isSome_iff_exists.mp h
    exact mem_language_of_ipv4 hn

/-- The end of `regx_ipv4_cidr`: `([0-9]|[1-2][0-9]|3[0-2])` -/
def ipv4Prefix : Regex Char :=
  alt (digit '0' '9') (alt (seq (digit '1' '2') (digit '0' '9')) (seq (char '3') (digit '0' '2')))

theorem regxIpv4Cidr_eq : regxIpv4Cidr = seq regxIpv4 (seq (char '/') ipv4Prefix) := rfl

/-- It knows the prefix lengths, each in one way. -/
theorem mem_language_ipv4Prefix {w : Str} : w ∈ language ipv4Prefix ↔ ∃ n < 33, w = natStr n := by
  have hone : ∀ a ∈ digits, ∃ n < 33, [a] = natStr n := by decide +kernel
  have htwo : ∀ a ∈ digits, ∀ b ∈ digits, ('1' ≤ a && a ≤ '2') = true →
      ∃ n < 33, [a, b] = natStr n := by decide +kernel
  have hthirty : ∀ b ∈ digits, ('0' ≤ b && b ≤ '2') = true → ∃ n < 33, ['3', b] = natStr n := by
    decide +kernel
  have htexts : ∀ n < 33, ReachesEnd ipv4Prefix (natStr n) := by decide +kernel
  constructor
  · intro h
    unfold ipv4Prefix at h
    simp only [mem_language_alt] at h
    rcases h with h | h | h
    · obtain ⟨a, hda, -, rfl⟩ := exists_digit (by decide) (by decide) h
      exact hone a hda
    · obtain ⟨_, ha, _, hb, rfl⟩ := mem_language_seq.mp h
      obtain ⟨a, hda, hrange, rfl⟩ := exists_digit (by decide) (by decide) ha
      obtain ⟨b, hdb, -, rfl⟩ := exists_digit (by decide) (by decide) hb
      exact htwo a hda b hdb hrange
    · obtain ⟨_, hb, rfl⟩ := mem_language_char_seq.mp h
      obtain ⟨b, hdb, hrange, rfl⟩ := exists_digit (by decide) (by decide) hb
      exact hthirty b hdb hrange
  · rintro ⟨n, hn, rfl⟩
    exact reachesEnd_iff.mp (htexts n hn)

/-! ### IPv6 -/

theorem isSome_hexDigit_iff {c : Char} : (hexDigit c).isSome = true ↔
    ('0' ≤ c ∧ c ≤ '9') ∨ ('A' ≤ c ∧ c ≤ 'F') ∨ ('a' ≤ c ∧ c ≤ 'f') := by
  unfold hexDigit
  split_ifs with hdigit hlower hupper
  · exact iff_of_true rfl (.inl hdigit)
  · exact iff_of_true rfl (.inr (.inr hlower))
  · exact iff_of_true rfl (.inr (.inl hupper))
  · refine iff_of_false Bool.false_ne_true ?_
    rintro (h | h | h)
    · exact hdigit h
    · exact hupper h
    · exact hlower h

/-- The pattern of a hextet. -/
theorem mem_language_hextet {w : Str} : w ∈ language hextet ↔ Hextet w := by
  have hclass : ∀ c : Char, (c.isDigit || ('A' ≤ c && c ≤ 'F') || ('a' ≤ c && c ≤ 'f')) = true ↔
      (hexDigit c).isSome = true := by
    intro c
    have hdigit : c.isDigit = true ↔ '0' ≤ c ∧ c ≤ '9' := by
      unfold Char.isDigit
      rw [Bool.and_eq_true, decide_eq_true_iff, decide_eq_true_iff]
      exact Iff.rfl
    rw [isSome_hexDigit_iff, Bool.or_eq_true, Bool.or_eq_true, hdigit, Bool.and_eq_true,
      Bool.and_eq_true, decide_eq_true_iff, decide_eq_true_iff, decide_eq_true_iff,
      decide_eq_true_iff, or_assoc]
  unfold hextet
  rw [mem_language_rep_cls (by decide)]
  simp only [hclass]
  exact Iff.rfl

/-- Texts that are made from others are made from a list of them. -/
theorem exists_map_eq {f : Str → Str} {P : Str → Prop} {ws : List Str}
    (h : ∀ w ∈ ws, ∃ g, P g ∧ w = f g) : ∃ gs : List Str, ws = gs.map f ∧ ∀ g ∈ gs, P g := by
  induction ws with
  | nil => exact ⟨[], rfl, by simp⟩
  | cons w ws ih =>
    obtain ⟨gs, rfl, hgs⟩ := ih fun v hv => h v (List.mem_cons_of_mem w hv)
    obtain ⟨g, hg, rfl⟩ := h w List.mem_cons_self
    exact ⟨g :: gs, rfl, by simpa using ⟨hg, hgs⟩⟩

theorem mem_language_hextetsBefore {n : ℕ} {w : Str} : w ∈ language (hextetsBefore n) ↔
    ∃ hs : List Str, hs.length = n ∧ (∀ g ∈ hs, Hextet g) ∧ w = groupsBefore hs := by
  have hgroup : ∀ v, v ∈ language (seq hextet (char ':')) ↔ ∃ g, Hextet g ∧ v = g ++ [':'] := by
    intro v
    rw [mem_language_seq]
    constructor
    · rintro ⟨g, hg, _, hcolon, rfl⟩
      rw [mem_language_char.mp hcolon]
      exact ⟨g, mem_language_hextet.mp hg, rfl⟩
    · rintro ⟨g, hg, rfl⟩
      exact ⟨g, mem_language_hextet.mpr hg, [':'], mem_language_char.mpr rfl, rfl⟩
  unfold hextetsBefore
  rw [mem_language_pow]
  constructor
  · rintro ⟨ws, hlen, hws, rfl⟩
    obtain ⟨hs, rfl, hhs⟩ := exists_map_eq fun v hv => (hgroup v).mp (hws v hv)
    rw [List.length_map] at hlen
    exact ⟨hs, hlen, hhs, rfl⟩
  · rintro ⟨hs, hlen, hhs, rfl⟩
    refine ⟨hs.map fun g => g ++ [':'], by rw [List.length_map, hlen], fun v hv => ?_, rfl⟩
    obtain ⟨g, hg, rfl⟩ := List.mem_map.mp hv
    exact (hgroup _).mpr ⟨g, hhs g hg, rfl⟩

theorem mem_language_hextetsAfter {m n : ℕ} (hmn : m ≤ n) {w : Str} :
    w ∈ language (hextetsAfter m n) ↔ ∃ ls : List Str, m ≤ ls.length ∧ ls.length ≤ n ∧
      (∀ g ∈ ls, Hextet g) ∧ w = groupsAfter ls := by
  have hgroup : ∀ v, v ∈ language (seq (char ':') hextet) ↔ ∃ g, Hextet g ∧ v = ':' :: g := by
    intro v
    rw [mem_language_char_seq]
    constructor
    · rintro ⟨g, hg, rfl⟩
      exact ⟨g, mem_language_hextet.mp hg, rfl⟩
    · rintro ⟨g, hg, rfl⟩
      exact ⟨g, mem_language_hextet.mpr hg, rfl⟩
  unfold hextetsAfter
  rw [mem_language_rep hmn]
  constructor
  · rintro ⟨ws, hm, hn, hws, rfl⟩
    obtain ⟨ls, rfl, hls⟩ := exists_map_eq fun v hv => (hgroup v).mp (hws v hv)
    rw [List.length_map] at hm hn
    exact ⟨ls, hm, hn, hls, rfl⟩
  · rintro ⟨ls, hm, hn, hls, rfl⟩
    refine ⟨ls.map fun g => ':' :: g, ?_, ?_, fun v hv => ?_, rfl⟩
    · rwa [List.length_map]
    · rwa [List.length_map]
    · obtain ⟨g, hg, rfl⟩ := List.mem_map.mp hv
      exact (hgroup _).mpr ⟨g, hls g hg, rfl⟩

/-- What may stand in the pattern in place of the last two hextets. -/
def Tail (t : Str) : Prop := t ∈ language dotted

/-- What follows the groups before `::`, from its second colon on. -/
theorem mem_language_ipv6Tail {m n : ℕ} (hm : 1 ≤ m) {w : Str} : w ∈ language (ipv6Tail m n) ↔
    (∃ ls : List Str, ls.length ≤ m ∧ (∀ g ∈ ls, Hextet g) ∧ w = groupsAfter (padded ls)) ∨
      ∃ (ls : List Str) (t : Str), ls.length ≤ n ∧ (∀ g ∈ ls, Hextet g) ∧ Tail t ∧
        w = groupsAfter ls ++ ':' :: t := by
  unfold ipv6Tail
  rw [mem_language_alt, mem_language_alt, mem_language_hextetsAfter hm, mem_language_char]
  constructor
  · rintro (⟨ls, hpos, hle, hls, rfl⟩ | h | rfl)
    · refine .inl ⟨ls, hle, hls, ?_⟩
      rw [padded_of_ne_nil (List.length_pos_iff.mp hpos)]
    · obtain ⟨_, hafter, _, htail, rfl⟩ := mem_language_seq.mp h
      obtain ⟨ls, -, hle, hls, rfl⟩ := (mem_language_hextetsAfter (Nat.zero_le n)).mp hafter
      obtain ⟨t, ht, rfl⟩ := mem_language_char_seq.mp htail
      exact .inr ⟨ls, t, hle, hls, ht, rfl⟩
    · exact .inl ⟨[], Nat.zero_le m, by simp, rfl⟩
  · rintro (⟨ls, hle, hls, rfl⟩ | ⟨ls, t, hle, hls, ht, rfl⟩)
    · by_cases hnil : ls = []
      · subst hnil
        exact .inr (.inr rfl)
      · rw [padded_of_ne_nil hnil]
        exact .inl ⟨ls, List.length_pos_iff.mpr hnil, hle, hls, rfl⟩
    · refine .inr (.inl (mem_language_seq.mpr ⟨groupsAfter ls, ?_, ':' :: t, ?_, rfl⟩))
      · exact (mem_language_hextetsAfter (Nat.zero_le n)).mpr ⟨ls, Nat.zero_le _, hle, hls, rfl⟩
      · exact mem_language_char_seq.mpr ⟨t, ht, rfl⟩

/-- `regx_ipv6` without what may stand around an address. -/
def ipv6Core : Regex Char :=
  alt (seq (hextetsBefore 7) (alt hextet (char ':')))
    (alt (seq (hextetsBefore 6) (alt (hextetsAfter 1 1) (alt dotted (char ':'))))
    (alt (seq (hextetsBefore 5) (ipv6Tail 2 0))
    (alt (seq (hextetsBefore 4) (ipv6Tail 3 1))
    (alt (seq (hextetsBefore 3) (ipv6Tail 4 2))
    (alt (seq (hextetsBefore 2) (ipv6Tail 5 3))
    (alt (seq (hextetsBefore 1) (ipv6Tail 6 4))
      (seq (char ':') (ipv6Tail 7 5))))))))

theorem regxIpv6_eq : regxIpv6 = seq (star (char 's')) (seq ipv6Core
    (seq (opt (seq (char '%') (seq anyChar (star anyChar)))) (star (char 's')))) := rfl

/-- One to five groups, and what follows them. -/
theorem form_of_groups {n : ℕ} (hpos : 1 ≤ n) (hle : n ≤ 5) {w : Str}
    (h : w ∈ language (seq (hextetsBefore n) (ipv6Tail (7 - n) (5 - n)))) : Ipv6Form Tail w := by
  obtain ⟨_, hbefore, v, hv, rfl⟩ := mem_language_seq.mp h
  obtain ⟨hs, rfl, hhs, rfl⟩ := mem_language_hextetsBefore.mp hbefore
  have hgroups : groupsBefore hs = groupsBefore (padded hs) := by
    rw [padded_of_ne_nil (List.length_pos_iff.mp hpos)]
  rw [hgroups]
  rcases (mem_language_ipv6Tail (by omega)).mp hv with ⟨ls, hls, hlextets, rfl⟩ |
    ⟨ls, t, hls, hlextets, ht, rfl⟩
  · exact .compressed (by omega) hhs hlextets
  · exact .compressedMapped (by omega) hhs hlextets ht

theorem mem_ipv6Core_of_groups {n : ℕ} (hpos : 1 ≤ n) (hle : n ≤ 5) {w : Str}
    (h : w ∈ language (seq (hextetsBefore n) (ipv6Tail (7 - n) (5 - n)))) :
    w ∈ language ipv6Core := by
  unfold ipv6Core
  simp only [mem_language_alt]
  interval_cases n
  · exact .inr (.inr (.inr (.inr (.inr (.inr (.inl h))))))
  · exact .inr (.inr (.inr (.inr (.inr (.inl h)))))
  · exact .inr (.inr (.inr (.inr (.inl h))))
  · exact .inr (.inr (.inr (.inl h)))
  · exact .inr (.inr (.inl h))

/-- The forms with `::`, by the groups before it. -/
theorem mem_ipv6Core_of_compressed {hs : List Str} {v : Str} (hhs : ∀ g ∈ hs, Hextet g)
    (hle : hs.length ≤ 5) (hv : v ∈ language (ipv6Tail (7 - hs.length) (5 - hs.length))) :
    groupsBefore (padded hs) ++ v ∈ language ipv6Core := by
  by_cases hnil : hs = []
  · subst hnil
    unfold ipv6Core
    simp only [mem_language_alt]
    exact .inr (.inr (.inr (.inr (.inr (.inr (.inr (mem_language_char_seq.mpr ⟨v, hv, rfl⟩)))))))
  · rw [padded_of_ne_nil hnil]
    refine mem_ipv6Core_of_groups (List.length_pos_iff.mpr hnil) hle (mem_language_seq.mpr ?_)
    exact ⟨_, mem_language_hextetsBefore.mpr ⟨hs, rfl, hhs, rfl⟩, v, hv, rfl⟩

/-- What the pattern knows has the form, -/
theorem form_of_mem_ipv6Core {w : Str} (h : w ∈ language ipv6Core) : Ipv6Form Tail w := by
  unfold ipv6Core at h
  simp only [mem_language_alt] at h
  rcases h with h | h | h | h | h | h | h | h
  · obtain ⟨_, hbefore, v, hv, rfl⟩ := mem_language_seq.mp h
    obtain ⟨hs, hlen, hhs, rfl⟩ := mem_language_hextetsBefore.mp hbefore
    rcases mem_language_alt.mp hv with hv | hv
    · exact .full hlen hhs (mem_language_hextet.mp hv)
    · have hne : hs ≠ [] := List.length_pos_iff.mp (by omega)
      rw [mem_language_char.mp hv, ← padded_of_ne_nil hne]
      exact @Ipv6Form.compressed Tail hs [] (by simpa using hlen.le) hhs (by simp)
  · obtain ⟨_, hbefore, v, hv, rfl⟩ := mem_language_seq.mp h
    obtain ⟨hs, hlen, hhs, rfl⟩ := mem_language_hextetsBefore.mp hbefore
    have hne : hs ≠ [] := List.length_pos_iff.mp (by omega)
    rw [mem_language_alt, mem_language_alt, mem_language_hextetsAfter le_rfl] at hv
    rcases hv with ⟨ls, hpos, hle, hls, rfl⟩ | hv | hv
    · rw [← padded_of_ne_nil hne, ← padded_of_ne_nil (List.length_pos_iff.mp hpos)]
      exact .compressed (by omega) hhs hls
    · exact .mapped hlen hhs hv
    · rw [mem_language_char.mp hv, ← padded_of_ne_nil hne]
      exact @Ipv6Form.compressed Tail hs [] (by simp [hlen]) hhs (by simp)
  · exact form_of_groups (by decide) (by decide) h
  · exact form_of_groups (by decide) (by decide) h
  · exact form_of_groups (by decide) (by decide) h
  · exact form_of_groups (by decide) (by decide) h
  · exact form_of_groups (by decide) (by decide) h
  · obtain ⟨v, hv, rfl⟩ := mem_language_char_seq.mp h
    rcases (mem_language_ipv6Tail (by decide)).mp hv with ⟨ls, hls, hlextets, rfl⟩ |
      ⟨ls, t, hls, hlextets, ht, rfl⟩
    · exact @Ipv6Form.compressed Tail [] ls (by simpa using hls) (by simp) hlextets
    · exact @Ipv6Form.compressedMapped Tail [] ls t (by simpa using hls) (by simp) hlextets ht

/-- and what has the form is known. -/
theorem mem_ipv6Core_of_form {w : Str} (h : Ipv6Form Tail w) : w ∈ language ipv6Core := by
  cases h with
  | @full hs h hlen hhs hh =>
    refine .inl (mem_language_seq.mpr ⟨groupsBefore hs, ?_, h, ?_, rfl⟩)
    · exact mem_language_hextetsBefore.mpr ⟨hs, hlen, hhs, rfl⟩
    · exact .inl (mem_language_hextet.mpr hh)
  | @compressed hs ls hlen hhs hls =>
    by_cases hle : hs.length ≤ 5
    · refine mem_ipv6Core_of_compressed hhs hle ((mem_language_ipv6Tail (by omega)).mpr ?_)
      exact .inl ⟨ls, by omega, hls, rfl⟩
    · have hne : hs ≠ [] := List.length_pos_iff.mp (by omega)
      rw [padded_of_ne_nil hne]
      by_cases hsix : hs.length = 6
      · refine .inr (.inl (mem_language_seq.mpr ⟨groupsBefore hs,
          mem_language_hextetsBefore.mpr ⟨hs, hsix, hhs, rfl⟩, groupsAfter (padded ls), ?_, rfl⟩))
        rw [mem_language_alt, mem_language_alt, mem_language_hextetsAfter le_rfl]
        by_cases hnil : ls = []
        · subst hnil
          exact .inr (.inr (mem_language_char.mpr rfl))
        · rw [padded_of_ne_nil hnil]
          exact .inl ⟨ls, List.length_pos_iff.mpr hnil, by omega, hls, rfl⟩
      · obtain rfl : ls = [] := List.length_eq_zero_iff.mp (by omega)
        refine .inl (mem_language_seq.mpr ⟨groupsBefore hs,
          mem_language_hextetsBefore.mpr ⟨hs, by omega, hhs, rfl⟩, [':'], ?_, rfl⟩)
        exact .inr (mem_language_char.mpr rfl)
  | @mapped hs t hlen hhs ht =>
    refine .inr (.inl (mem_language_seq.mpr ⟨groupsBefore hs,
      mem_language_hextetsBefore.mpr ⟨hs, hlen, hhs, rfl⟩, t, ?_, rfl⟩))
    exact .inr (.inl ht)
  | @compressedMapped hs ls t hlen hhs hls ht =>
    refine mem_ipv6Core_of_compressed hhs (by omega) ((mem_language_ipv6Tail (by omega)).mpr ?_)
    exact .inr ⟨ls, t, by omega, hls, ht, rfl⟩

/-- **The IPv6 pattern knows the texts of the form**, with other texts in place of IPv4 addresses. -/
theorem mem_language_ipv6Core {w : Str} : w ∈ language ipv6Core ↔ Ipv6Form Tail w :=
  ⟨form_of_mem_ipv6Core, mem_ipv6Core_of_form⟩

/-- A text `regx_ipv6` knows as a whole: an address of the form, with letters `s` around it and a zone
after it. -/
def PatternAddress (w : Str) : Prop :=
  ∃ pre core zone post, w = pre ++ (core ++ (zone ++ post)) ∧ (∀ c ∈ pre, c = 's') ∧
    Ipv6Form Tail core ∧ (zone = [] ∨ ∃ c z, zone = '%' :: c :: z) ∧ ∀ c ∈ post, c = 's'

theorem mem_language_regxIpv6 {w : Str} : w ∈ language regxIpv6 ↔ PatternAddress w := by
  have hletters : ∀ {v : Str}, v ∈ language (star (char 's')) ↔ ∀ c ∈ v, c = 's' := by
    intro v
    unfold char
    rw [mem_language_star_cls]
    simp only [beq_iff_eq]
  have hzone : ∀ {v : Str}, v ∈ language (opt (seq (char '%') (seq anyChar (star anyChar)))) ↔
      v = [] ∨ ∃ c z, v = '%' :: c :: z := by
    intro v
    unfold anyChar
    rw [mem_language_opt, mem_language_char_seq, or_comm]
    refine or_congr_right ⟨?_, ?_⟩
    · rintro ⟨u, hu, rfl⟩
      obtain ⟨c, z, -, -, rfl⟩ := mem_language_cls_seq.mp hu
      exact ⟨c, z, rfl⟩
    · rintro ⟨c, z, rfl⟩
      exact ⟨c :: z, mem_language_cls_seq.mpr ⟨c, z, rfl,
        mem_language_star_cls.mpr fun _ _ => rfl, rfl⟩, rfl⟩
  rw [regxIpv6_eq]
  constructor
  · intro h
    obtain ⟨pre, hpre, _, hcore, rfl⟩ := mem_language_seq.mp h
    obtain ⟨core, hform, _, hend, rfl⟩ := mem_language_seq.mp hcore
    obtain ⟨zone, hz, post, hpost, rfl⟩ := mem_language_seq.mp hend
    exact ⟨pre, core, zone, post, rfl, hletters.mp hpre, mem_language_ipv6Core.mp hform,
      hzone.mp hz, hletters.mp hpost⟩
  · rintro ⟨pre, core, zone, post, rfl, hpre, hform, hz, hpost⟩
    refine mem_language_seq.mpr ⟨pre, hletters.mpr hpre, _, mem_language_seq.mpr ⟨core,
      mem_language_ipv6Core.mpr hform, _, ?_, rfl⟩, rfl⟩
    exact mem_language_seq.mpr ⟨zone, hzone.mpr hz, post, hletters.mpr hpost, rfl⟩

/-- The end of `regx_ipv6_cidr`: `(d|dd|1[0-1]d|12[0-8])` -/
def ipv6Prefix : Regex Char :=
  alt (char 'd') (alt (lit "dd".toList) (alt (seq (char '1') (seq (digit '0' '1') (char 'd')))
    (seq (lit "12".toList) (digit '0' '8'))))

theorem regxIpv6Cidr_eq : regxIpv6Cidr = seq regxIpv6 (seq (char '/') ipv6Prefix) := rfl

/-- The texts the IPv6 pattern takes as prefix lengths. -/
def ipv6Prefixes : List Str :=
  ["d".toList, "dd".toList, "10d".toList, "11d".toList, "120".toList, "121".toList, "122".toList,
    "123".toList, "124".toList, "125".toList, "126".toList, "127".toList, "128".toList]

theorem mem_language_ipv6Prefix {w : Str} : w ∈ language ipv6Prefix ↔ w ∈ ipv6Prefixes := by
  have hten : ∀ c ∈ digits, ('0' ≤ c && c ≤ '1') = true → ['1', c, 'd'] ∈ ipv6Prefixes := by
    decide +kernel
  have htwelve : ∀ c ∈ digits, ('0' ≤ c && c ≤ '8') = true → ['1', '2', c] ∈ ipv6Prefixes := by
    decide +kernel
  have htexts : ∀ p ∈ ipv6Prefixes, ReachesEnd ipv6Prefix p := by decide +kernel
  constructor
  · intro h
    unfold ipv6Prefix at h
    simp only [mem_language_alt] at h
    rcases h with h | h | h | h
    · rw [mem_language_char.mp h]
      decide
    · rw [mem_language_lit.mp h]
      decide
    · obtain ⟨_, hcd, rfl⟩ := mem_language_char_seq.mp h
      obtain ⟨_, hc, _, hd, rfl⟩ := mem_language_seq.mp hcd
      obtain ⟨c, hdc, hrange, rfl⟩ := exists_digit (by decide) (by decide) hc
      rw [mem_language_char.mp hd]
      exact hten c hdc hrange
    · obtain ⟨_, hlit, _, hc, rfl⟩ := mem_language_seq.mp h
      obtain ⟨c, hdc, hrange, rfl⟩ := exists_digit (by decide) (by decide) hc
      rw [mem_language_lit.mp hlit]
      exact htwelve c hdc hrange
  · exact fun h => reachesEnd_iff.mp (htexts w h)

/-! ### In place of an IPv4 address -/

/-- The characters of the octets of a tail. -/
def isTailChar (c : Char) : Bool := ('0' ≤ c && c ≤ '9') || c == 'd'

theorem isTailChar_of_octetD {q : Str} (h : q ∈ language octetD) : ∀ c ∈ q, isTailChar c = true := by
  have honly : Only (fun c => isTailChar c = true) octetD := by
    have hrange : ∀ {lo hi : Char}, '0' ≤ lo → hi ≤ '9' →
        Only (fun c => isTailChar c = true) (digit lo hi) := by
      intro lo hi hlo hhi c hc
      obtain ⟨hloc, hchi⟩ : lo ≤ c ∧ c ≤ hi := by simpa using hc
      simp [isTailChar, Char.le_trans hlo hloc, Char.le_trans hchi hhi]
    have hchar : ∀ {c : Char}, isTailChar c = true → Only (fun c => isTailChar c = true) (char c) := by
      intro c hc d hd
      rwa [beq_iff_eq.mp hd]
    have hlit : ∀ {v : Str}, (∀ c ∈ v, isTailChar c = true) →
        Only (fun c => isTailChar c = true) (lit v) := by
      intro v hv
      induction v with
      | nil => trivial
      | cons c v ih =>
        refine ⟨fun d hd => ?_, ih fun d hd => hv d (List.mem_cons_of_mem c hd)⟩
        rw [of_decide_eq_true hd]
        exact hv c List.mem_cons_self
    refine ⟨⟨hlit (by decide), hrange (by decide) (by decide)⟩,
      ⟨hchar (by decide), hrange (by decide) (by decide), hchar (by decide)⟩, hlit (by decide),
      ⟨hrange (by decide) (by decide), trivial⟩, hchar (by decide)⟩
  exact honly.forall_mem h

/-- An octet of a tail is written with a `d` or with three digits. -/
theorem mem_or_length_of_octetD {q : Str} (h : q ∈ language octetD) : 'd' ∈ q ∨ q.length = 3 := by
  unfold octetD at h
  simp only [mem_language_alt] at h
  rcases h with h | h | h | h
  · obtain ⟨_, hlit, _, ⟨c, -, rfl⟩, rfl⟩ := mem_language_seq.mp h
    rw [mem_language_lit.mp hlit]
    exact .inr rfl
  · obtain ⟨_, hcd, rfl⟩ := mem_language_char_seq.mp h
    obtain ⟨_, -, _, hd, rfl⟩ := mem_language_seq.mp hcd
    rw [mem_language_char.mp hd]
    simp
  · rw [mem_language_lit.mp h]
    decide
  · obtain ⟨_, -, _, hd, rfl⟩ := mem_language_seq.mp h
    rw [mem_language_char.mp hd]
    simp

/-- The octets the tail knows by their digits. -/
theorem mem_language_octetD_iff {o : Str} {n : ℕ} (h : parseOctet o = some n) :
    o ∈ language octetD ↔ 250 ≤ n := by
  have htexts : ∀ n < 256, parseOctet (natStr n) = some n ∧
      (ReachesEnd octetD (natStr n) ↔ 250 ≤ n) := by decide +kernel
  obtain ⟨hparse, hmatch⟩ := htexts n (Nat.lt_succ_of_le (parseOctet_le h))
  rw [parseOctet_inj h hparse, ← reachesEnd_iff]
  exact hmatch

/-- Where an octet stands the tail has the same. -/
theorem eq_of_octetD_start {o q r u : Str} {n : ℕ} (ho : parseOctet o = some n)
    (hr : ∀ c, r.head? = some c → isTailChar c = false) (hq : q ∈ language octetD)
    (h : q ++ u = o ++ r) : q = o ∧ u = r := by
  rcases List.append_eq_append_iff.mp h with ⟨x, rfl, hu⟩ | ⟨x, rfl, hx⟩
  · -- the octet ends no later than its three digits
    have hlength : q.length = 3 := by
      rcases mem_or_length_of_octetD hq with hd | hlength
      · exact absurd (isDigit_of_parseOctet ho 'd' (List.mem_append_left x hd)) (by decide)
      · exact hlength
    have hthree : (q ++ x).length ≤ 3 := by
      unfold parseOctet at ho
      obtain ⟨m, -, ho⟩ := Option.bind_eq_some_iff.mp ho
      split_ifs at ho with hlong
      exact Nat.le_of_not_gt hlong
    rw [List.length_append] at hthree
    obtain rfl : x = [] := List.length_eq_zero_iff.mp (by omega)
    exact ⟨(List.append_nil q).symm, hu⟩
  · -- what follows the octet is none of its characters
    cases x with
    | nil => exact ⟨List.append_nil o, hx.symm⟩
    | cons c x =>
      have hc := hr c (by rw [hx]; rfl)
      rw [isTailChar_of_octetD hq c (List.mem_append_right o List.mem_cons_self)] at hc
      cases hc

/-- Four octets, and a character between two of them. -/
theorem tail_iff {t : Str} : Tail t ↔ ∃ q₁ c₁ q₂ c₂ q₃ c₃ q₄, q₁ ∈ language octetD ∧
    q₂ ∈ language octetD ∧ q₃ ∈ language octetD ∧ q₄ ∈ language octetD ∧
    t = q₁ ++ c₁ :: (q₂ ++ c₂ :: (q₃ ++ c₃ :: q₄)) := by
  have hnext : ∀ {r : Regex Char} {v : Str}, v ∈ language (seq (seq anyChar octetD) r) ↔
      ∃ c q u, q ∈ language octetD ∧ u ∈ language r ∧ v = c :: (q ++ u) := by
    intro r v
    unfold anyChar
    rw [mem_language_seq]
    constructor
    · rintro ⟨_, hcq, u, hu, rfl⟩
      obtain ⟨c, q, -, hq, rfl⟩ := mem_language_cls_seq.mp hcq
      exact ⟨c, q, u, hq, hu, rfl⟩
    · rintro ⟨c, q, u, hq, hu, rfl⟩
      exact ⟨c :: q, mem_language_cls_seq.mpr ⟨c, q, rfl, hq, rfl⟩, u, hu, rfl⟩
  unfold Tail dotted
  constructor
  · intro h
    obtain ⟨q₁, h₁, _, hthree, rfl⟩ := mem_language_seq.mp h
    obtain ⟨c₁, q₂, _, h₂, htwo, rfl⟩ := hnext.mp hthree
    obtain ⟨c₂, q₃, _, h₃, hone, rfl⟩ := hnext.mp htwo
    obtain ⟨c₃, q₄, _, h₄, rfl, rfl⟩ := hnext.mp hone
    rw [List.append_nil]
    exact ⟨q₁, c₁, q₂, c₂, q₃, c₃, q₄, h₁, h₂, h₃, h₄, rfl⟩
  · rintro ⟨q₁, c₁, q₂, c₂, q₃, c₃, q₄, h₁, h₂, h₃, h₄, rfl⟩
    refine mem_language_seq.mpr ⟨q₁, h₁, _, hnext.mpr ⟨c₁, q₂, _, h₂, ?_, rfl⟩, rfl⟩
    refine hnext.mpr ⟨c₂, q₃, _, h₃, hnext.mpr ⟨c₃, q₄, [], h₄, rfl, ?_⟩, rfl⟩
    rw [List.append_nil]

/-- Some octet of the address is below `250`. -/
def HasLowOctet (n : ℕ) : Prop := ∃ i < 4, n / 256 ^ i % 256 < 250

/-- **Where an IPv4 address stands the tail is that address, and none of its octets is low**,
whatever follows that is no character of an octet. -/
theorem eq_of_tail_start {t q r u : Str} {n : ℕ} (ht : ipv4FromString t = some n)
    (hr : ∀ c, r.head? = some c → isTailChar c = false) (hq : Tail q) (h : q ++ u = t ++ r) :
    q = t ∧ ¬HasLowOctet n := by
  obtain ⟨a, b, c, d, x, y, z, w, hsplit, ha, hb, hc, hd, rfl⟩ := exists_octets ht
  obtain ⟨q₁, c₁, q₂, c₂, q₃, c₃, q₄, h₁, h₂, h₃, h₄, rfl⟩ := tail_iff.mp hq
  have htext := eq_of_splitOn_four hsplit
  have hdot : ∀ {s : Str} {c : Char}, ('.' :: s).head? = some c → isTailChar c = false := by
    intro s c hc
    rw [← Option.some.inj hc]
    decide
  have hall : q₁ ++ c₁ :: (q₂ ++ c₂ :: (q₃ ++ c₃ :: (q₄ ++ u))) =
      a ++ '.' :: (b ++ '.' :: (c ++ '.' :: (d ++ r))) := by
    simpa [htext] using h
  obtain ⟨rfl, hcons₁⟩ := eq_of_octetD_start ha (fun _ => hdot) h₁ hall
  obtain ⟨rfl, hrest₁⟩ := List.cons.inj hcons₁
  obtain ⟨rfl, hcons₂⟩ := eq_of_octetD_start hb (fun _ => hdot) h₂ hrest₁
  obtain ⟨rfl, hrest₂⟩ := List.cons.inj hcons₂
  obtain ⟨rfl, hcons₃⟩ := eq_of_octetD_start hc (fun _ => hdot) h₃ hrest₂
  obtain ⟨rfl, hrest₃⟩ := List.cons.inj hcons₃
  obtain ⟨rfl, -⟩ := eq_of_octetD_start hd hr h₄ hrest₃
  refine ⟨htext.symm, ?_⟩
  rintro ⟨i, hi, hlow⟩
  have hx := (mem_language_octetD_iff ha).mp h₁
  have hy := (mem_language_octetD_iff hb).mp h₂
  have hz := (mem_language_octetD_iff hc).mp h₃
  have hw := (mem_language_octetD_iff hd).mp h₄
  have hx' := parseOctet_le ha
  have hy' := parseOctet_le hb
  have hz' := parseOctet_le hc
  have hw' := parseOctet_le hd
  interval_cases i <;> omega

/-- The tail knows the addresses none of whose octets is low. -/
theorem tail_of_not_hasLowOctet {t : Str} {n : ℕ} (ht : ipv4FromString t = some n)
    (h : ¬HasLowOctet n) : Tail t := by
  obtain ⟨a, b, c, d, x, y, z, w, hsplit, ha, hb, hc, hd, rfl⟩ := exists_octets ht
  have htext := eq_of_splitOn_four hsplit
  have hhigh : ∀ i < 4, 250 ≤ (((x * 256 + y) * 256 + z) * 256 + w) / 256 ^ i % 256 := by
    intro i hi
    by_contra hlow
    exact h ⟨i, hi, by omega⟩
  have hx' := parseOctet_le ha
  have hy' := parseOctet_le hb
  have hz' := parseOctet_le hc
  have hw' := parseOctet_le hd
  have h₀ := hhigh 0 (by decide)
  have h₁ := hhigh 1 (by decide)
  have h₂ := hhigh 2 (by decide)
  have h₃ := hhigh 3 (by decide)
  rw [htext]
  refine tail_iff.mpr ⟨a, '.', b, '.', c, '.', d, ?_, ?_, ?_, ?_, rfl⟩
  · exact (mem_language_octetD_iff ha).mpr (by omega)
  · exact (mem_language_octetD_iff hb).mpr (by omega)
  · exact (mem_language_octetD_iff hc).mpr (by omega)
  · exact (mem_language_octetD_iff hd).mpr (by omega)

end IRedAPD

/-
  Regular expressions with character classes, and the matching of `re.match`.

  `rests r s` is the list of what may be left of `s` after `r` has matched some
  beginning of it, so `re.match` succeeds when the list is not empty.  It is the
  computable side of `language r` (`mem_rests`): which of the possible matches a
  backtracking matcher would report does not matter to the callers, they only
  ask whether there is one.
-/
import Mathlib.Computability.Language

namespace Py

/-- A regular expression over an alphabet; `cls` is a character class. -/
inductive Regex (α : Type) where
  | eps
  | cls (p : α → Bool)
  | seq (r s : Regex α)
  | alt (r s : Regex α)
  | star (r : Regex α)

namespace Regex

variable {α : Type}

/-! ### Derived forms -/

/-- `r?` -/
def opt (r : Regex α) : Regex α := alt r eps

/-- The text itself. -/
def lit [DecidableEq α] : List α → Regex α
  | [] => eps
  | a :: w => seq (cls fun b => decide (b = a)) (lit w)

/-- `r{n}` -/
def pow (r : Regex α) : ℕ → Regex α
  | 0 => eps
  | n + 1 => seq r (pow r n)

/-- `r{0,n}` -/
def upTo (r : Regex α) : ℕ → Regex α
  | 0 => eps
  | n + 1 => opt (seq r (upTo r n))

/-- `r{m,n}` -/
def rep (r : Regex α) (m n : ℕ) : Regex α := seq (pow r m) (upTo r (n - m))

/-! ### Matching -/

/-- What may be left after repeating a match any number of times.  The fuel bounds the number of
rounds: a round that consumes nothing adds nothing. -/
def starRests (f : List α → List (List α)) : ℕ → List α → List (List α)
  | 0, s => [s]
  | n + 1, s => s :: ((f s).filter fun t => t.length < s.length).flatMap (starRests f n)

/-- What may be left of a text after a match at its beginning. -/
def rests : Regex α → List α → List (List α)
  | eps, s => [s]
  | cls _, [] => []
  | cls p, a :: s => if p a then [s] else []
  | seq r t, s => (rests r s).flatMap (rests t)
  | alt r t, s => rests r s ++ rests t s
  | star r, s => starRests (rests r) s.length s

/-- `re.match(r, s)`: some beginning of the text matches. -/
def reMatch (r : Regex α) (s : List α) : Bool := !(rests r s).isEmpty

/-- `re.match(r + '$', s)`: `$` also matches before a newline that ends the text. -/
def reMatchEnd (r : Regex Char) (s : List Char) : Bool :=
  (rests r s).any fun t => t == [] || t == ['\n']

/-! ### The language -/

/-- The texts a regular expression matches. -/
def language : Regex α → Language α
  | eps => 1
  | cls p => {w | ∃ a, p a = true ∧ w = [a]}
  | seq r s => language r * language s
  | alt r s => language r + language s
  | star r => KStar.kstar (language r)

/-- Repeating a match: what is left is a suffix reached through matches of `r` in a row. -/
theorem mem_starRests {f : List α → List (List α)} {l : Language α}
    (hf : ∀ s t, t ∈ f s ↔ ∃ w ∈ l, s = w ++ t) :
    ∀ (n : ℕ) (s t : List α), s.length ≤ n →
      (t ∈ starRests f n s ↔ ∃ w ∈ KStar.kstar l, s = w ++ t) := by
  intro n
  induction n with
  | zero =>
    intro s t hs
    have hnil : s = [] := List.length_eq_zero_iff.mp (Nat.le_zero.mp hs)
    subst hnil
    simp only [starRests, List.mem_singleton]
    constructor
    · rintro rfl
      exact ⟨[], Language.nil_mem_kstar l, rfl⟩
    · rintro ⟨w, -, hw⟩
      exact (List.append_eq_nil_iff.mp hw.symm).2
  -- a match that leaves everything would repeat for ever, so only shorter rests go on
  | succ n ih =>
    intro s t hs
    simp only [starRests, List.mem_cons, List.mem_flatMap, List.mem_filter, decide_eq_true_eq]
    constructor
    · rintro (rfl | ⟨u, ⟨hu, hlt⟩, ht⟩)
      · exact ⟨[], Language.nil_mem_kstar l, rfl⟩
      · obtain ⟨w, hw, rfl⟩ := (hf s u).mp hu
        obtain ⟨v, hv, rfl⟩ := (ih u t (by omega)).mp ht
        refine ⟨w ++ v, ?_, by simp⟩
        obtain ⟨L, rfl, hL⟩ := Language.mem_kstar.mp hv
        exact Language.mem_kstar.mpr ⟨w :: L, rfl, by simpa using ⟨hw, hL⟩⟩
    · rintro ⟨w, hw, rfl⟩
      obtain ⟨L, rfl, hL⟩ := Language.mem_kstar_iff_exists_nonempty.mp hw
      cases L with
      | nil => exact Or.inl rfl
      | cons v L =>
        obtain ⟨hv, hne⟩ := hL v (by simp)
        have hpos : 0 < v.length := List.length_pos_iff.mpr hne
        right
        refine ⟨L.flatten ++ t, ⟨(hf _ _).mpr ⟨v, hv, by simp⟩, ?_⟩, ?_⟩
        · simp only [List.flatten_cons, List.length_append]
          omega
        · refine (ih _ _ ?_).mpr ⟨L.flatten, ?_, rfl⟩
          · simp only [List.flatten_cons, List.length_append] at hs ⊢
            omega
          · exact Language.mem_kstar.mpr ⟨L, rfl, fun y hy => (hL y (by simp [hy])).1⟩

/-- **The matcher computes the language**: `t` may be left of `s` exactly when `s` is a match
followed by `t`. -/
theorem mem_rests (r : Regex α) : ∀ s t : List α, t ∈ rests r s ↔ ∃ w ∈ language r, s = w ++ t := by
  induction r with
  | eps =>
    intro s t
    simp only [rests, language, List.mem_singleton, Language.mem_one]
    constructor
    · rintro rfl
      exact ⟨[], rfl, rfl⟩
    · rintro ⟨w, rfl, hw⟩
      exact hw.symm
  | cls p =>
    intro s t
    constructor
    · intro h
      cases s with
      | nil => simp [rests] at h
      | cons a s =>
        by_cases hp : p a = true
        · obtain rfl : t = s := by simpa [rests, hp] using h
          exact ⟨[a], ⟨a, hp, rfl⟩, rfl⟩
        · simp [rests, hp] at h
    · rintro ⟨w, ⟨a, hp, rfl⟩, rfl⟩
      simp [rests, hp]
  | seq r u ihr ihu =>
    intro s t
    simp only [rests, language, List.mem_flatMap, Language.mem_mul]
    constructor
    · rintro ⟨v, hv, ht⟩
      obtain ⟨w₁, h₁, rfl⟩ := (ihr s v).mp hv
      obtain ⟨w₂, h₂, rfl⟩ := (ihu v t).mp ht
      exact ⟨w₁ ++ w₂, ⟨w₁, h₁, w₂, h₂, rfl⟩, by simp⟩
    · rintro ⟨w, ⟨w₁, h₁, w₂, h₂, rfl⟩, rfl⟩
      exact ⟨w₂ ++ t, (ihr _ _).mpr ⟨w₁, h₁, by simp⟩, (ihu _ _).mpr ⟨w₂, h₂, rfl⟩⟩
  | alt r u ihr ihu =>
    intro s t
    simp only [rests, language, List.mem_append, Language.mem_add, ihr, ihu]
    constructor
    · rintro (⟨w, hw, rfl⟩ | ⟨w, hw, rfl⟩)
      · exact ⟨w, Or.inl hw, rfl⟩
      · exact ⟨w, Or.inr hw, rfl⟩
    · rintro ⟨w, hw | hw, rfl⟩
      · exact Or.inl ⟨w, hw, rfl⟩
      · exact Or.inr ⟨w, hw, rfl⟩
  | star r ih =>
    intro s t
    exact mem_starRests ih s.length s t le_rfl

/-- `re.match` succeeds exactly when a beginning of the text is in the language. -/
theorem reMatch_iff (r : Regex α) (s : List α) :
    reMatch r s = true ↔ ∃ w ∈ language r, w <+: s := by
  rw [reMatch, Bool.not_eq_true', List.isEmpty_eq_false_iff_exists_mem]
  constructor
  · rintro ⟨t, ht⟩
    obtain ⟨w, hw, rfl⟩ := (mem_rests r s t).mp ht
    exact ⟨w, hw, t, rfl⟩
  · rintro ⟨w, hw, t, rfl⟩
    exact ⟨t, (mem_rests r _ t).mpr ⟨w, hw, rfl⟩⟩

/-- With `$` a line break may follow the match. -/
theorem reMatchEnd_iff (r : Regex Char) (s : List Char) : reMatchEnd r s = true ↔
    ∃ w br, w ∈ language r ∧ (br = [] ∨ br = ['\n']) ∧ s = w ++ br := by
  rw [reMatchEnd, List.any_eq_true]
  constructor
  · rintro ⟨br, hbr, hend⟩
    obtain ⟨w, hw, rfl⟩ := (mem_rests r s br).mp hbr
    rw [Bool.or_eq_true, beq_iff_eq, beq_iff_eq] at hend
    exact ⟨w, br, hw, hend, rfl⟩
  · rintro ⟨w, br, hw, hend, rfl⟩
    refine ⟨br, (mem_rests r _ br).mpr ⟨w, hw, rfl⟩, ?_⟩
    rwa [Bool.or_eq_true, beq_iff_eq, beq_iff_eq]

/-! ### What every match of a shape holds -/

/-- A match of a sequence is a match of each part. -/
theorem mem_language_seq {r s : Regex α} {w : List α} :
    w ∈ language (seq r s) ↔ ∃ u ∈ language r, ∃ v ∈ language s, u ++ v = w := by
  rw [language, Language.mem_mul]

theorem mem_language_alt {r s : Regex α} {w : List α} :
    w ∈ language (alt r s) ↔ w ∈ language r ∨ w ∈ language s := by
  rw [language, Language.mem_add]

theorem mem_language_opt {r : Regex α} {w : List α} :
    w ∈ language (opt r) ↔ w ∈ language r ∨ w = [] := by
  rw [opt, mem_language_alt, language, Language.mem_one]

/-- A match of `r{n}` is `n` matches in a row. -/
theorem mem_language_pow {r : Regex α} {n : ℕ} {w : List α} : w ∈ language (pow r n) ↔
    ∃ ws : List (List α), ws.length = n ∧ (∀ v ∈ ws, v ∈ language r) ∧ w = ws.flatten := by
  induction n generalizing w with
  | zero =>
    rw [pow, language, Language.mem_one]
    constructor
    · exact fun h => ⟨[], rfl, by simp, h⟩
    · rintro ⟨ws, hlen, -, rfl⟩
      rw [List.length_eq_zero_iff.mp hlen]
      rfl
  | succ n ih =>
    rw [pow, mem_language_seq]
    constructor
    · rintro ⟨u, hu, v, hv, rfl⟩
      obtain ⟨ws, hlen, hws, rfl⟩ := ih.mp hv
      refine ⟨u :: ws, by rw [List.length_cons, hlen], fun x hx => ?_, rfl⟩
      rcases List.mem_cons.mp hx with rfl | hx
      · exact hu
      · exact hws x hx
    · rintro ⟨ws, hlen, hws, rfl⟩
      cases ws with
      | nil => cases hlen
      | cons u ws =>
        refine ⟨u, hws u List.mem_cons_self, ws.flatten, ih.mpr ⟨ws, ?_, ?_, rfl⟩, rfl⟩
        · exact Nat.succ.inj hlen
        · exact fun x hx => hws x (List.mem_cons_of_mem u hx)

/-- A match of `r{0,n}` is at most `n` matches in a row. -/
theorem mem_language_upTo {r : Regex α} {n : ℕ} {w : List α} : w ∈ language (upTo r n) ↔
    ∃ ws : List (List α), ws.length ≤ n ∧ (∀ v ∈ ws, v ∈ language r) ∧ w = ws.flatten := by
  induction n generalizing w with
  | zero =>
    rw [upTo, language, Language.mem_one]
    constructor
    · exact fun h => ⟨[], le_rfl, by simp, h⟩
    · rintro ⟨ws, hlen, -, rfl⟩
      rw [List.length_eq_zero_iff.mp (Nat.le_zero.mp hlen)]
      rfl
  | succ n ih =>
    rw [upTo, mem_language_opt, mem_language_seq]
    constructor
    · rintro (⟨u, hu, v, hv, rfl⟩ | rfl)
      · obtain ⟨ws, hlen, hws, rfl⟩ := ih.mp hv
        refine ⟨u :: ws, Nat.succ_le_succ hlen, fun x hx => ?_, rfl⟩
        rcases List.mem_cons.mp hx with rfl | hx
        · exact hu
        · exact hws x hx
      · exact ⟨[], Nat.zero_le _, by simp, rfl⟩
    · rintro ⟨ws, hlen, hws, rfl⟩
      cases ws with
      | nil => exact .inr rfl
      | cons u ws =>
        refine .inl ⟨u, hws u List.mem_cons_self, ws.flatten, ih.mpr ⟨ws, ?_, ?_, rfl⟩, rfl⟩
        · exact Nat.le_of_succ_le_succ hlen
        · exact fun x hx => hws x (List.mem_cons_of_mem u hx)

/-- A match of `r{m,n}` is between `m` and `n` matches in a row. -/
theorem mem_language_rep {r : Regex α} {m n : ℕ} (hmn : m ≤ n) {w : List α} :
    w ∈ language (rep r m n) ↔ ∃ ws : List (List α), m ≤ ws.length ∧ ws.length ≤ n ∧
      (∀ v ∈ ws, v ∈ language r) ∧ w = ws.flatten := by
  rw [rep, mem_language_seq]
  constructor
  · rintro ⟨u, hu, v, hv, rfl⟩
    obtain ⟨us, hulen, hus, rfl⟩ := mem_language_pow.mp hu
    obtain ⟨vs, hvlen, hvs, rfl⟩ := mem_language_upTo.mp hv
    refine ⟨us ++ vs, ?_, ?_, fun x hx => ?_, List.flatten_append.symm⟩
    · rw [List.length_append]
      omega
    · rw [List.length_append]
      omega
    · rcases List.mem_append.mp hx with hx | hx
      · exact hus x hx
      · exact hvs x hx
  · rintro ⟨ws, hm, hn, hws, rfl⟩
    refine ⟨(ws.take m).flatten, mem_language_pow.mpr ⟨ws.take m, ?_, ?_, rfl⟩, (ws.drop m).flatten,
      mem_language_upTo.mpr ⟨ws.drop m, ?_, ?_, rfl⟩, ?_⟩
    · rw [List.length_take, Nat.min_eq_left hm]
    · exact fun x hx => hws x (List.mem_of_mem_take hx)
    · rw [List.length_drop]
      omega
    · exact fun x hx => hws x (List.mem_of_mem_drop hx)
    · rw [← List.flatten_append, List.take_append_drop]

/-- The characters every class of a regular expression is made of satisfy a property. -/
def Only (P : α → Prop) : Regex α → Prop
  | eps => True
  | cls p => ∀ a, p a = true → P a
  | seq r s => Only P r ∧ Only P s
  | alt r s => Only P r ∧ Only P s
  | star r => Only P r

/-- So do the characters of every match. -/
theorem Only.forall_mem {P : α → Prop} {r : Regex α} (h : Only P r) {w : List α}
    (hw : w ∈ language r) : ∀ a ∈ w, P a := by
  induction r generalizing w with
  | eps =>
    rw [language, Language.mem_one] at hw
    rw [hw]
    exact fun a ha => by cases ha
  | cls p =>
    obtain ⟨a, hp, rfl⟩ := hw
    intro b hb
    rw [List.mem_singleton.mp hb]
    exact h a hp
  | seq r s ihr ihs =>
    obtain ⟨u, hu, v, hv, rfl⟩ := mem_language_seq.mp hw
    intro a ha
    rcases List.mem_append.mp ha with ha | ha
    · exact ihr h.1 hu a ha
    · exact ihs h.2 hv a ha
  | alt r s ihr ihs =>
    rcases hw with hw | hw
    · exact ihr h.1 hw
    · exact ihs h.2 hw
  | star r ih =>
    obtain ⟨L, rfl, hL⟩ := Language.mem_kstar.mp hw
    intro a ha
    obtain ⟨v, hv, ha⟩ := List.mem_flatten.mp ha
    exact ih h (hL v hv) a ha

theorem Only.pow {P : α → Prop} {r : Regex α} (h : Only P r) (n : ℕ) : Only P (pow r n) := by
  induction n with
  | zero => trivial
  | succ n ih => exact ⟨h, ih⟩

theorem Only.upTo {P : α → Prop} {r : Regex α} (h : Only P r) (n : ℕ) : Only P (upTo r n) := by
  induction n with
  | zero => trivial
  | succ n ih => exact ⟨⟨h, ih⟩, trivial⟩

/-! ### Matches that reach the end -/

/-- A match of `r` reaches the end of the text: nothing of it is left. -/
def ReachesEnd (r : Regex α) (s : List α) : Prop := [] ∈ rests r s

instance [DecidableEq α] (r : Regex α) (s : List α) : Decidable (ReachesEnd r s) :=
  inferInstanceAs (Decidable ([] ∈ rests r s))

theorem reachesEnd_iff {r : Regex α} {s : List α} : ReachesEnd r s ↔ s ∈ language r := by
  rw [ReachesEnd, mem_rests]
  constructor
  · rintro ⟨w, hw, rfl⟩
    rwa [List.append_nil]
  · exact fun h => ⟨s, h, (List.append_nil s).symm⟩

theorem mem_language_cls {p : α → Bool} {w : List α} :
    w ∈ language (cls p) ↔ ∃ a, p a = true ∧ w = [a] := Iff.rfl

/-- One character of a class, and what follows it. -/
theorem mem_language_cls_seq {p : α → Bool} {r : Regex α} {w : List α} :
    w ∈ language (seq (cls p) r) ↔ ∃ a v, p a = true ∧ v ∈ language r ∧ w = a :: v := by
  rw [mem_language_seq]
  constructor
  · rintro ⟨u, ⟨a, ha, rfl⟩, v, hv, rfl⟩
    exact ⟨a, v, ha, hv, rfl⟩
  · rintro ⟨a, v, ha, hv, rfl⟩
    exact ⟨[a], ⟨a, ha, rfl⟩, v, hv, rfl⟩

/-- Any number of characters of a class. -/
theorem mem_language_star_cls {p : α → Bool} {w : List α} :
    w ∈ language (star (cls p)) ↔ ∀ a ∈ w, p a = true := by
  constructor
  · exact fun hw => Only.forall_mem (r := star (cls p)) (fun a ha => ha) hw
  · intro h
    refine Language.mem_kstar.mpr ⟨w.map fun a => [a], ?_, fun y hy => ?_⟩
    · induction w with
      | nil => rfl
      | cons a w ih =>
        rw [List.map_cons, List.flatten_cons, ← ih fun b hb => h b (List.mem_cons_of_mem a hb)]
        rfl
    · obtain ⟨a, ha, rfl⟩ := List.mem_map.mp hy
      exact ⟨a, h a ha, rfl⟩

theorem mem_language_pow_cls {p : α → Bool} {n : ℕ} {w : List α} :
    w ∈ language (pow (cls p) n) ↔ w.length = n ∧ ∀ a ∈ w, p a = true := by
  induction n generalizing w with
  | zero =>
    rw [pow, language, Language.mem_one, List.length_eq_zero_iff]
    constructor
    · rintro rfl
      exact ⟨rfl, fun a ha => by cases ha⟩
    · exact fun h => h.1
  | succ n ih =>
    rw [pow, mem_language_seq]
    constructor
    · rintro ⟨u, ⟨a, ha, rfl⟩, v, hv, rfl⟩
      obtain ⟨hlen, hall⟩ := ih.mp hv
      exact ⟨by simp [hlen], by simpa using ⟨ha, hall⟩⟩
    · rintro ⟨hlen, hall⟩
      cases w with
      | nil => cases hlen
      | cons a w =>
        refine ⟨[a], ⟨a, hall a List.mem_cons_self, rfl⟩, w, ih.mpr ⟨?_, ?_⟩, rfl⟩
        · exact Nat.succ.inj hlen
        · exact fun b hb => hall b (List.mem_cons_of_mem a hb)

theorem mem_language_upTo_cls {p : α → Bool} {n : ℕ} {w : List α} :
    w ∈ language (upTo (cls p) n) ↔ w.length ≤ n ∧ ∀ a ∈ w, p a = true := by
  induction n generalizing w with
  | zero =>
    rw [upTo, language, Language.mem_one, Nat.le_zero, List.length_eq_zero_iff]
    constructor
    · rintro rfl
      exact ⟨rfl, fun a ha => by cases ha⟩
    · exact fun h => h.1
  | succ n ih =>
    rw [upTo, opt, language, Language.mem_add, mem_language_seq, language, Language.mem_one]
    constructor
    · rintro (⟨u, ⟨a, ha, rfl⟩, v, hv, rfl⟩ | rfl)
      · obtain ⟨hlen, hall⟩ := ih.mp hv
        exact ⟨by simpa using hlen, by simpa using ⟨ha, hall⟩⟩
      · exact ⟨Nat.zero_le _, fun a ha => by cases ha⟩
    · rintro ⟨hlen, hall⟩
      cases w with
      | nil => exact .inr rfl
      | cons a w =>
        refine .inl ⟨[a], ⟨a, hall a List.mem_cons_self, rfl⟩, w, ih.mpr ⟨?_, ?_⟩, rfl⟩
        · exact Nat.le_of_succ_le_succ hlen
        · exact fun b hb => hall b (List.mem_cons_of_mem a hb)

/-- Between `m` and `n` characters of a class. -/
theorem mem_language_rep_cls {p : α → Bool} {m n : ℕ} (hmn : m ≤ n) {w : List α} :
    w ∈ language (rep (cls p) m n) ↔ m ≤ w.length ∧ w.length ≤ n ∧ ∀ a ∈ w, p a = true := by
  rw [rep, mem_language_seq]
  constructor
  · rintro ⟨u, hu, v, hv, rfl⟩
    obtain ⟨hlen, hall⟩ := mem_language_pow_cls.mp hu
    obtain ⟨hlen', hall'⟩ := mem_language_upTo_cls.mp hv
    rw [List.length_append]
    refine ⟨by omega, by omega, fun a ha => ?_⟩
    rcases List.mem_append.mp ha with ha | ha
    · exact hall a ha
    · exact hall' a ha
  · rintro ⟨hm, hn, hall⟩
    refine ⟨w.take m, mem_language_pow_cls.mpr ⟨?_, ?_⟩, w.drop m,
      mem_language_upTo_cls.mpr ⟨?_, ?_⟩, List.take_append_drop m w⟩
    · rw [List.length_take, Nat.min_eq_left hm]
    · exact fun a ha => hall a (List.mem_of_mem_take ha)
    · rw [List.length_drop]
      omega
    · exact fun a ha => hall a (List.mem_of_mem_drop ha)

/-! ### How a match may begin -/

/-- The empty text is a match. -/
def nullable : Regex α → Bool
  | eps => true
  | cls _ => false
  | seq r s => nullable r && nullable s
  | alt r s => nullable r || nullable s
  | star _ => true

/-- A match may begin with the character. -/
def canStart (a : α) : Regex α → Bool
  | eps => false
  | cls p => p a
  | seq r s => canStart a r || (nullable r && canStart a s)
  | alt r s => canStart a r || canStart a s
  | star r => canStart a r

theorem nullable_of_nil_mem {r : Regex α} (h : [] ∈ language r) : nullable r = true := by
  induction r with
  | eps => rfl
  | cls p =>
    obtain ⟨a, -, ha⟩ := h
    cases ha
  | seq r s ihr ihs =>
    obtain ⟨u, hu, v, hv, huv⟩ := mem_language_seq.mp h
    obtain ⟨rfl, rfl⟩ := List.append_eq_nil_iff.mp huv
    rw [nullable, ihr hu, ihs hv]
    rfl
  | alt r s ihr ihs =>
    rcases h with h | h
    · rw [nullable, ihr h, Bool.true_or]
    · rw [nullable, ihs h, Bool.or_true]
  | star r => rfl

theorem canStart_of_cons_mem {r : Regex α} {a : α} {w : List α} (h : a :: w ∈ language r) :
    canStart a r = true := by
  induction r generalizing w with
  | eps =>
    rw [language, Language.mem_one] at h
    cases h
  | cls p =>
    obtain ⟨b, hb, heq⟩ := h
    obtain ⟨rfl, -⟩ := List.cons.inj heq
    exact hb
  | seq r s ihr ihs =>
    obtain ⟨u, hu, v, hv, huv⟩ := mem_language_seq.mp h
    cases u with
    | nil =>
      obtain rfl : v = a :: w := huv
      rw [canStart, nullable_of_nil_mem hu, ihs hv, Bool.true_and, Bool.or_true]
    | cons b u =>
      obtain ⟨rfl, -⟩ := List.cons.inj huv
      rw [canStart, ihr hu, Bool.true_or]
  | alt r s ihr ihs =>
    rcases h with h | h
    · rw [canStart, ihr h, Bool.true_or]
    · rw [canStart, ihs h, Bool.or_true]
  | star r ih =>
    obtain ⟨L, hw, hL⟩ := Language.mem_kstar_iff_exists_nonempty.mp h
    cases L with
    | nil => cases hw
    | cons v L =>
      obtain ⟨hv, hne⟩ := hL v (List.mem_cons_self ..)
      obtain ⟨b, v, rfl⟩ := List.exists_cons_of_ne_nil hne
      obtain ⟨rfl, -⟩ := List.cons.inj hw
      exact ih hv

/-- What is left after a match that may neither be empty nor begin with the first character: there is
none. -/
theorem rests_eq_nil {r : Regex α} {a : α} (hempty : nullable r = false)
    (hstart : canStart a r = false) (s : List α) : rests r (a :: s) = [] := by
  refine List.eq_nil_iff_forall_not_mem.mpr fun t ht => ?_
  obtain ⟨w, hw, hs⟩ := (mem_rests r _ t).mp ht
  cases w with
  | nil =>
    rw [nullable_of_nil_mem hw] at hempty
    cases hempty
  | cons b w =>
    obtain ⟨rfl, -⟩ := List.cons.inj hs
    rw [canStart_of_cons_mem hw] at hstart
    cases hstart

theorem reMatch_eq_false {r : Regex α} {a : α} (hempty : nullable r = false)
    (hstart : canStart a r = false) (s : List α) : reMatch r (a :: s) = false := by
  rw [reMatch, rests_eq_nil hempty hstart]
  rfl

theorem reMatchEnd_eq_false {r : Regex Char} {a : Char} (hempty : nullable r = false)
    (hstart : canStart a r = false) (s : List Char) : reMatchEnd r (a :: s) = false := by
  rw [reMatchEnd, rests_eq_nil hempty hstart]
  rfl

/-! ### Regular expressions that differ in their classes only -/

/-- The same shape, with classes that agree on the characters of a property. -/
def Agree (P : α → Prop) : Regex α → Regex α → Prop
  | eps, eps => True
  | cls p, cls q => ∀ a, P a → p a = q a
  | seq r s, seq r' s' => Agree P r r' ∧ Agree P s s'
  | alt r s, alt r' s' => Agree P r r' ∧ Agree P s s'
  | star r, star r' => Agree P r r'
  | _, _ => False

theorem Agree.refl (P : α → Prop) (r : Regex α) : Agree P r r := by
  induction r with
  | eps => trivial
  | cls p => exact fun a _ => rfl
  | seq r s ihr ihs => exact ⟨ihr, ihs⟩
  | alt r s ihr ihs => exact ⟨ihr, ihs⟩
  | star r ih => exact ih

/-- What is left is a part of the text. -/
theorem mem_of_mem_rests {r : Regex α} {s t : List α} (ht : t ∈ rests r s) {a : α} (ha : a ∈ t) :
    a ∈ s := by
  obtain ⟨w, -, rfl⟩ := (mem_rests r s t).mp ht
  exact List.mem_append_right w ha

/-- Matches that agree on a text agree when they are repeated. -/
theorem starRests_congr {f g : List α → List (List α)} {P : α → Prop}
    (hfg : ∀ s, (∀ a ∈ s, P a) → f s = g s) (hf : ∀ s, ∀ t ∈ f s, ∀ a ∈ t, a ∈ s) :
    ∀ (n : ℕ) (s : List α), (∀ a ∈ s, P a) → starRests f n s = starRests g n s := by
  intro n
  induction n with
  | zero => exact fun s _ => rfl
  | succ n ih =>
    intro s hs
    unfold starRests
    rw [← hfg s hs]
    congr 1
    refine List.flatMap_congr fun t ht => ih t fun a ha => hs a ?_
    exact hf s t (List.mem_of_mem_filter ht) a ha

/-- **They match the same**, on a text of such characters. -/
theorem Agree.rests_eq {P : α → Prop} {r r' : Regex α} (h : Agree P r r') {s : List α}
    (hs : ∀ a ∈ s, P a) : rests r s = rests r' s := by
  induction r generalizing r' s with
  | eps =>
    cases r' with
    | eps => rfl
    | _ => exact h.elim
  | cls p =>
    cases r' with
    | cls q =>
      cases s with
      | nil => rfl
      | cons a s =>
        unfold rests
        rw [h a (hs a List.mem_cons_self)]
    | _ => exact h.elim
  | seq r t ihr iht =>
    cases r' with
    | seq r₁ t₁ =>
      unfold rests
      rw [← ihr h.1 hs]
      exact List.flatMap_congr fun u hu => iht h.2 fun a ha => hs a (mem_of_mem_rests hu ha)
    | _ => exact h.elim
  | alt r t ihr iht =>
    cases r' with
    | alt r₁ t₁ =>
      unfold rests
      rw [ihr h.1 hs, iht h.2 hs]
    | _ => exact h.elim
  | star r ih =>
    cases r' with
    | star r₁ =>
      unfold rests
      exact starRests_congr (fun s hs => ih h hs) (fun s t ht a ha => mem_of_mem_rests ht ha)
        s.length s hs
    | _ => exact h.elim

theorem Agree.reMatch_eq {P : α → Prop} {r r' : Regex α} (h : Agree P r r') {s : List α}
    (hs : ∀ a ∈ s, P a) : reMatch r s = reMatch r' s := by
  unfold reMatch
  rw [h.rests_eq hs]

/-! ### Characters that a regular expression does not tell apart -/

/-- Every class holds a character exactly when it holds its image. -/
def Blind (f : α → α) : Regex α → Prop
  | eps => True
  | cls p => ∀ a, p (f a) = p a
  | seq r s => Blind f r ∧ Blind f s
  | alt r s => Blind f r ∧ Blind f s
  | star r => Blind f r

theorem Blind.pow {f : α → α} {r : Regex α} (h : Blind f r) (n : ℕ) : Blind f (pow r n) := by
  induction n with
  | zero => trivial
  | succ n ih => exact ⟨h, ih⟩

theorem Blind.upTo {f : α → α} {r : Regex α} (h : Blind f r) (n : ℕ) : Blind f (upTo r n) := by
  induction n with
  | zero => trivial
  | succ n ih => exact ⟨⟨h, ih⟩, trivial⟩

theorem Blind.rep {f : α → α} {r : Regex α} (h : Blind f r) (m n : ℕ) : Blind f (rep r m n) :=
  ⟨h.pow m, h.upTo (n - m)⟩

theorem starRests_map {f : α → α} {g : List α → List (List α)}
    (hg : ∀ s, g (s.map f) = (g s).map (List.map f)) (n : ℕ) (s : List α) :
    starRests g n (s.map f) = (starRests g n s).map (List.map f) := by
  induction n generalizing s with
  | zero => rfl
  | succ n ih =>
    unfold starRests
    rw [hg, List.filter_map, List.flatMap_map, List.map_cons, List.map_flatMap]
    congr 1
    have hlength : ((fun t => decide (t.length < (s.map f).length)) ∘ List.map f) =
        fun t => decide (t.length < s.length) := by
      funext t
      simp
    rw [hlength]
    exact List.flatMap_congr fun t _ => ih t

/-- **The images leave what the characters leave.** -/
theorem Blind.rests_map {f : α → α} {r : Regex α} (h : Blind f r) (s : List α) :
    rests r (s.map f) = (rests r s).map (List.map f) := by
  induction r generalizing s with
  | eps => rfl
  | cls p =>
    cases s with
    | nil => rfl
    | cons a s =>
      rw [List.map_cons]
      unfold rests
      rw [h a]
      split_ifs <;> rfl
  | seq r t ihr iht =>
    unfold rests
    rw [ihr h.1, List.flatMap_map, List.map_flatMap]
    exact List.flatMap_congr fun u _ => iht h.2 u
  | alt r t ihr iht =>
    unfold rests
    rw [ihr h.1, iht h.2, List.map_append]
  | star r ih =>
    unfold rests
    rw [List.length_map]
    exact starRests_map (ih h) s.length s

theorem Blind.reMatch_map {f : α → α} {r : Regex α} (h : Blind f r) (s : List α) :
    reMatch r (s.map f) = reMatch r s := by
  unfold reMatch
  rw [h.rests_map, List.isEmpty_map]

end Regex

end Py

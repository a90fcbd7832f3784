/-
  An LDAP directory and what a search finds in it.

  An entry is found when its name is in the scope of the search and the filter
  holds of it.  How an asserted value is compared with a value of the entry is
  the matter of the attribute's matching rule, which ignores letter case for
  most attributes; all that is used is that a value matches itself.
-/
import IRedAPD.Libs.Ldaplib

namespace IRedAPD

open Py

variable {ω : Type*}

/-- An entry: its distinguished name and the values of its attributes. -/
structure DirectoryEntry where
  dn : Str
  ldif : Ldif

/-- A directory with its equality matching rules. -/
structure Directory where
  entries : List DirectoryEntry
  /-- the asserted value and the value of the entry -/
  eqMatch : Str → Str → Str → Bool
  eqMatch_self : ∀ attr v, eqMatch attr v v = true

namespace Directory

/-- The values of an attribute, whose name is compared without regard to case. -/
def valuesOf (ldif : Ldif) (attr : Str) : List Str :=
  ldif.flatMap fun p => if p.1.map Char.toLower = attr.map Char.toLower then p.2 else []

/-- `(attr=v)` -/
def holdsEq (dir : Directory) (ldif : Ldif) (attr v : Str) : Bool :=
  (valuesOf ldif attr).any (dir.eqMatch attr v)

mutual

/-- The filter holds of an entry. -/
def holds (dir : Directory) (ldif : Ldif) : LdapFilter → Bool
  | .eq attr v => dir.holdsEq ldif attr v
  | .and filters => dir.holdsAll ldif filters
  | .or filters => dir.holdsAny ldif filters

/-- Every filter holds. -/
def holdsAll (dir : Directory) (ldif : Ldif) : List LdapFilter → Bool
  | [] => true
  | f :: fs => dir.holds ldif f && dir.holdsAll ldif fs

/-- Some filter holds. -/
def holdsAny (dir : Directory) (ldif : Ldif) : List LdapFilter → Bool
  | [] => false
  | f :: fs => dir.holds ldif f || dir.holdsAny ldif fs

end

/-- The name is in the scope: one level below the base, or the base and whatever is below it. -/
def covers (base : Str) : LdapScope → Str → Bool
  | .oneLevel, dn => dn = dn.takeWhile (· ≠ ',') ++ ',' :: base
  | .subtree, dn => dn = base || endsWith dn (',' :: base)

/-- The entries a search finds. -/
def found (dir : Directory) (s : LdapSearch) : List DirectoryEntry :=
  dir.entries.filter fun e => covers s.base s.scope e.dn && dir.holds e.ldif s.filter

/-- The attributes asked for, with the values as they are sent. -/
def sent (attrs : List Str) (ldif : Ldif) : RawLdif :=
  (ldif.filter fun p => attrs.contains p.1).map fun p => (p.1, p.2.map encode)

/-- The answer to a search. -/
def search (dir : Directory) (s : LdapSearch) : List (Str × RawLdif) :=
  (dir.found s).map fun e => (e.dn, sent s.attrs e.ldif)

/-- The server answers every search from the directory. -/
def Serves (dir : Directory) (searchS : SearchS ω) : Prop := ∀ s w, searchS s w = .ok (dir.search s)

/-! ### Filters -/

theorem holdsAny_iff (dir : Directory) (ldif : Ldif) (fs : List LdapFilter) :
    dir.holdsAny ldif fs = true ↔ ∃ f ∈ fs, dir.holds ldif f = true := by
  induction fs with
  | nil => simp [holdsAny]
  | cons f fs ih => simp [holdsAny, ih]

/-- One of some values, in one of two attributes. -/
theorem holds_or_flatMap (dir : Directory) (ldif : Ldif) (a b : Str) (values : List Str) :
    dir.holds ldif (.or (values.flatMap fun v => [.eq a v, .eq b v])) = true ↔
      ∃ v ∈ values, dir.holdsEq ldif a v = true ∨ dir.holdsEq ldif b v = true := by
  rw [holds, holdsAny_iff]
  constructor
  · rintro ⟨f, hf, hholds⟩
    obtain ⟨v, hv, hmem⟩ := List.mem_flatMap.mp hf
    refine ⟨v, hv, ?_⟩
    simp only [List.mem_cons, List.not_mem_nil, or_false] at hmem
    rcases hmem with rfl | rfl
    · exact .inl hholds
    · exact .inr hholds
  · rintro ⟨v, hv, hholds | hholds⟩
    · exact ⟨.eq a v, List.mem_flatMap.mpr ⟨v, hv, by simp⟩, hholds⟩
    · exact ⟨.eq b v, List.mem_flatMap.mpr ⟨v, hv, by simp⟩, hholds⟩

/-- A value of the attribute matches. -/
theorem holdsEq_of_mem {dir : Directory} {ldif : Ldif} {attr v : Str} {values : List Str}
    (hattr : (attr, values) ∈ ldif) (hv : v ∈ values) : dir.holdsEq ldif attr v = true := by
  refine List.any_eq_true.mpr ⟨v, List.mem_flatMap.mpr ⟨_, hattr, ?_⟩, dir.eqMatch_self attr v⟩
  rw [if_pos rfl]
  exact hv

/-! ### What the plugins make of an answer -/

theorem bytes2str_encode (s : Str) : bytes2str (encode s) = .ok s := by
  unfold bytes2str
  rw [decode_encode]

theorem mapM_bytes2str (values : List Str) : (values.map encode).mapM bytes2str = .ok values := by
  induction values with
  | nil => rfl
  | cons v values ih =>
    rw [List.map_cons, List.mapM_cons, ih, bytes2str_encode]
    rfl

/-- The values are converted back. -/
theorem bytes2strLdif_sent (attrs : List Str) (ldif : Ldif) :
    bytes2strLdif (sent attrs ldif) = .ok (ldif.filter fun p => attrs.contains p.1) := by
  unfold sent bytes2strLdif
  generalize ldif.filter (fun p => attrs.contains p.1) = kept
  induction kept with
  | nil => rfl
  | cons p kept ih =>
    rw [List.map_cons, List.mapM_cons, ih, mapM_bytes2str]
    rfl

theorem getValues_filter (ldif : Ldif) {attrs : List Str} {attr : Str} (hattr : attr ∈ attrs) :
    getValues (ldif.filter fun p => attrs.contains p.1) attr = getValues ldif attr := by
  have hget : Dict.get? (ldif.filter fun p => attrs.contains p.1) attr = Dict.get? ldif attr := by
    induction ldif with
    | nil => rfl
    | cons p ldif ih =>
      rw [List.filter_cons]
      by_cases hp : p.1 = attr
      · have hkeep : attrs.contains p.1 = true := by
          rw [hp, List.contains_iff_mem]
          exact hattr
        rw [if_pos hkeep, Dict.get?, Dict.get?, if_pos hp, if_pos hp]
      · rw [Dict.get?, if_neg hp, ← ih]
        by_cases hkeep : attrs.contains p.1 = true
        · rw [if_pos hkeep, Dict.get?, if_neg hp]
        · rw [if_neg hkeep]
  unfold getValues
  rw [hget]

theorem collectValues_filter (ldif : Ldif) (attrs : List Str) :
    collectValues (ldif.filter fun p => attrs.contains p.1) attrs = collectValues ldif attrs :=
  List.flatMap_congr fun _ hattr => getValues_filter ldif hattr

/-- The values of the attributes of every entry that is sent. -/
theorem collectStr_sent (attrs : List Str) (entries : List DirectoryEntry) :
    collectStr attrs (entries.map fun e => (e.dn, sent attrs e.ldif)) =
      .ok (entries.flatMap fun e => collectValues e.ldif attrs) := by
  unfold collectStr
  have hmap : (entries.map fun e => (e.dn, sent attrs e.ldif)).mapM
      (fun entry => bytes2strLdif entry.2) =
        .ok (entries.map fun e => e.ldif.filter fun p => attrs.contains p.1) := by
    induction entries with
    | nil => rfl
    | cons e entries ih =>
      rw [List.map_cons, List.mapM_cons, ih, bytes2strLdif_sent]
      rfl
  rw [hmap]
  refine congrArg Except.ok ?_
  rw [List.flatMap_map]
  exact List.flatMap_congr fun e _ => collectValues_filter e.ldif attrs

/-- The values of the attributes of every entry found. -/
theorem collectStr_search (dir : Directory) (s : LdapSearch) :
    collectStr s.attrs (dir.search s) =
      .ok ((dir.found s).flatMap fun e => collectValues e.ldif s.attrs) :=
  collectStr_sent s.attrs (dir.found s)

/-! ### Scopes -/

/-- A name one level below the base. -/
theorem covers_oneLevel {rdn base : Str} (h : ',' ∉ rdn) :
    covers base .oneLevel (rdn ++ ',' :: base) = true := by
  have htake : (rdn ++ ',' :: base).takeWhile (· ≠ ',') = rdn := by
    have hrdn : ∀ c ∈ rdn, decide (c ≠ ',') = true := by
      intro c hc
      rw [decide_eq_true_eq]
      rintro rfl
      exact h hc
    rw [List.takeWhile_append_of_pos hrdn, List.takeWhile_cons_of_neg (by simp), List.append_nil]
  show decide (rdn ++ ',' :: base = (rdn ++ ',' :: base).takeWhile (· ≠ ',') ++ ',' :: base) = true
  rw [htake]
  exact decide_eq_true rfl

end Directory

end IRedAPD

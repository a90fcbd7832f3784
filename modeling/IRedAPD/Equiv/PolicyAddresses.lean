/-
  The policy addresses of a mail address.

  `get_policy_addresses_from_email` joins the last labels of the domain again, from
  each label on.  What it joins are the texts that follow a `.` of the domain, and the
  domain itself (`mem_labelTails_iff`), however many labels there are and whether
  they are empty or not.
-/
import IRedAPD.Equiv.Addresses
import IRedAPD.Plugins.Greylisting
import IRedAPD.Plugins.Throttle

namespace IRedAPD

open Py

/-! ### The end parts of a domain -/

/-- The labels from one of them on, joined again: the domain, and what follows a `.` of it. -/
theorem mem_labelTails_iff {domain d : Str} :
    d ∈ (domain.splitOn '.').tails.dropLast.map (join ".") ↔ domain = d ∨ '.' :: d <:+ domain := by
  have hjoin : ['.'].intercalate (domain.splitOn '.') = domain := List.intercalate_splitOn '.'
  have hmem := Framing.mem_map_intercalate_tails (t := d)
    (fun l hl => Framing.not_mem_of_mem_splitOn hl) (List.splitOn_ne_nil '.' domain)
  rw [hjoin] at hmem
  show d ∈ (domain.splitOn '.').tails.dropLast.map (['.'].intercalate ·) ↔ _
  rw [hmem]
  apply or_congr
  · exact eq_comm
  · exact exists_congr fun s => eq_comm

/-- Said of the domain with a `.` in front of it. -/
theorem mem_labelTails_iff_suffix {domain d : Str} :
    d ∈ (domain.splitOn '.').tails.dropLast.map (join ".") ↔ '.' :: d <:+ '.' :: domain := by
  rw [mem_labelTails_iff, List.suffix_cons_iff]
  apply or_congr_left
  constructor
  · rintro rfl
    rfl
  · exact fun h => (List.cons.inj h).2.symm

/-! ### What an account covers -/

/-- An account covers an address: `@.` every one, `@domain` those of the domain, `@.d` those of `d` and
its sub-domains, and an address itself. -/
def AccountCovers (account mail domain : Str) : Prop :=
  account = mail ∨ account = "@.".toList ∨ account = '@' :: domain ∨
    ∃ d, account = "@.".toList ++ d ∧ (domain = d ∨ '.' :: d <:+ domain)

variable [Unicode]

theorem mem_policyAddresses {user domain p : Str} (hmail : isEmail (user ++ '@' :: domain) = true)
    (huser : '@' ∉ user) : p ∈ getPolicyAddressesFromEmail (user ++ '@' :: domain) ↔
      AccountCovers p (user ++ '@' :: domain) domain := by
  have hlast : splitLast "@" (user ++ '@' :: domain) = domain := splitLast_append huser _
  have htails : (∃ labels ∈ (domain.splitOn '.').tails.dropLast, "@.".toList ++ join "." labels = p) ↔
      ∃ d, p = "@.".toList ++ d ∧ (domain = d ∨ '.' :: d <:+ domain) := by
    constructor
    · rintro ⟨labels, hlabels, rfl⟩
      exact ⟨_, rfl, mem_labelTails_iff.mp (List.mem_map_of_mem hlabels)⟩
    · rintro ⟨d, rfl, hd⟩
      obtain ⟨labels, hlabels, rfl⟩ := List.mem_map.mp (mem_labelTails_iff.mpr hd)
      exact ⟨labels, hlabels, rfl⟩
  unfold getPolicyAddressesFromEmail AccountCovers
  rw [hmail, Bool.not_true, if_neg Bool.false_ne_true, hlast, List.mem_append, List.mem_map, htails]
  simp only [List.mem_cons, List.not_mem_nil, or_false]
  -- the source lists `@.` last
  rw [or_assoc, or_assoc, or_left_comm (a := p = '@' :: domain)]

/-- An account covers the address under the target of its alias domain, if that gives one. -/
def TargetCovers (account user : Str) (target : Option Str) : Prop :=
  ∃ domain, target = some domain ∧ domain ≠ [] ∧ isEmail (user ++ '@' :: domain) = true ∧
    AccountCovers account (user ++ '@' :: domain) domain

/-- The policy addresses under the target are looked up together with those of the address; what is no
address adds `@.`, which covers all. -/
theorem covers_or_mem_iff {user domain p : Str} (huser : '@' ∉ user) (target : Option Str) :
    (AccountCovers p (user ++ '@' :: domain) domain ∨ p ∈ match target with
      | none => []
      | some target => if target = [] then [] else getPolicyAddressesFromEmail (user ++ '@' :: target)) ↔
      AccountCovers p (user ++ '@' :: domain) domain ∨ TargetCovers p user target := by
  unfold TargetCovers
  cases target with
  | none => simp only [List.not_mem_nil, reduceCtorEq, false_and, exists_false]
  | some d =>
    simp only [Option.some.injEq, exists_eq_left']
    split_ifs with hempty
    · exact or_congr_right (iff_of_false List.not_mem_nil fun h => h.1 hempty)
    rw [and_iff_right hempty]
    by_cases hmail : isEmail (user ++ '@' :: d) = true
    · rw [mem_policyAddresses hmail huser, and_iff_right hmail]
    · have hall : getPolicyAddressesFromEmail (user ++ '@' :: d) = ["@.".toList] := by
        unfold getPolicyAddressesFromEmail
        rw [if_pos (by simpa using hmail)]
      rw [hall, List.mem_singleton]
      constructor
      · rintro (hcovers | rfl)
        · exact .inl hcovers
        · exact .inl (.inr (.inl rfl))
      · rintro (hcovers | ⟨hmail', -⟩)
        · exact .inl hcovers
        · exact absurd hmail' hmail

/-- **The policy addresses of an address are the accounts that cover it**, so the lookups of greylisting
settings and of throttle settings find exactly the rows whose account does, or covers the address under
the target of an alias domain; throttle settings are looked up for the client, too. -/
theorem policyAddresses_cover {mail user domain : Str} (hmail : isEmail mail = true)
    (hsplit : splitOnce "@" mail = some (user, domain)) :
    (∀ p : Str, p ∈ getPolicyAddressesFromEmail mail ↔
      p = mail ∨ p = "@.".toList ∨ p = '@' :: domain ∨
        ∃ d, p = "@.".toList ++ d ∧ (domain = d ∨ endsWith domain ('.' :: d) = true)) ∧
    (∀ (rows : List Greylisting.Setting) (target : Option Str) (r : Greylisting.Setting),
      r ∈ Greylisting.greylistingRecords rows (Greylisting.policyRecipients mail target) ↔
        r ∈ rows ∧ (AccountCovers r.account mail domain ∨ TargetCovers r.account user target)) ∧
    ∀ (settings : Settings) (env : Throttle.Env) (args : Throttle.Args) (target : Option Str),
      args.user = mail → env.getAliasTargetDomain domain = .ok target →
      ∃ addrs, Throttle.possibleAddrs settings env args = .ok addrs ∧
        ∀ (rows : List Throttle.Setting) (kind : Str) (r : Throttle.Setting),
          r ∈ Throttle.throttleRecords rows kind addrs ↔ r ∈ rows ∧ r.kind = kind ∧
            (r.account = args.clientAddress ∨ r.account = "@ip".toList ∨
              r.account ∈ wildcardIpv4 settings args.clientAddress ∨
              AccountCovers r.account mail domain ∨ TargetCovers r.account user target) := by
  have huser : '@' ∉ user := by
    obtain ⟨u, v, rfl, hu⟩ := List.eq_append_cons_of_mem (at_mem_of_isEmail hmail)
    have hcut : splitOnce "@" (u ++ '@' :: v) = some (u, v) := splitOnce_append hu v
    obtain ⟨rfl, rfl⟩ := Prod.ext_iff.mp (Option.some.inj (hcut.symm.trans hsplit))
    exact hu
  obtain rfl : mail = user ++ '@' :: domain := by
    rw [eq_append_of_splitOnce hsplit]
    simp
  have hcover : ∀ p, p ∈ getPolicyAddressesFromEmail (user ++ '@' :: domain) ↔
      AccountCovers p (user ++ '@' :: domain) domain := fun p => mem_policyAddresses hmail huser
  refine ⟨fun p => ?_, fun rows target r => ?_, fun settings env args target hargs htarget => ?_⟩
  · rw [hcover, AccountCovers]
    simp only [endsWith_iff]
  · have hfirst : splitFirst "@" (user ++ '@' :: domain) = user := splitFirst_append huser domain
    rw [Greylisting.greylistingRecords, List.mem_insertionSort, List.mem_filter, List.contains_iff_mem]
    unfold Greylisting.policyRecipients
    rw [hfirst, List.mem_append, hcover]
    exact and_congr_right fun _ => covers_or_mem_iff huser target
  · have hne : args.user ≠ [] := by
      rw [hargs]
      exact List.append_ne_nil_of_right_ne_nil _ (List.cons_ne_nil _ _)
    unfold Throttle.possibleAddrs
    rw [if_neg hne, hargs, hsplit]
    simp only [htarget, bind, Except.bind, pure, Except.pure]
    refine ⟨_, rfl, fun rows kind r => ?_⟩
    rw [Throttle.throttleRecords, List.mem_insertionSort, List.mem_filter, Bool.and_eq_true, beq_iff_eq,
      List.contains_iff_mem]
    simp only [List.mem_append, hcover, List.mem_cons, List.not_mem_nil, or_false]
    refine and_congr_right fun _ => and_congr_right fun _ => ?_
    -- the source lists the wildcard addresses last
    rw [or_assoc, or_assoc, or_comm (a := _ ∨ _)]
    exact or_congr_right (or_congr_right (or_congr_right (covers_or_mem_iff huser target)))

/-- A call for an address whose domain is an alias domain. -/
def aliasCall : Throttle.Call where
  fst :=
    { now := 1
      now_pos := one_pos
      notifyTime := 1
      getAliasTargetDomain domain := .ok (if domain = "sub.a.com".toList then some "b.com".toList else none)
      sendmail _ := .ok true
      fails _ := false }
  snd := { user := "user@sub.a.com", clientAddress := "1.2.3.4", size := 1, recipientCount := 1 }

omit [Unicode] in
theorem policyAddresses_cover_subdomain :
    letI := asciiUnicode
    let mail := "user@sub.a.com".toList
    isEmail mail = true ∧ splitOnce "@" mail = some ("user".toList, "sub.a.com".toList) ∧
      (∀ p : Str, p ∈ getPolicyAddressesFromEmail mail ↔
        p = mail ∨ p = "@.".toList ∨ p = '@' :: "sub.a.com".toList ∨
          ∃ d, p = "@.".toList ++ d ∧
            ("sub.a.com".toList = d ∨ endsWith "sub.a.com".toList ('.' :: d) = true)) ∧
      (∀ (rows : List Greylisting.Setting) (target : Option Str) (r : Greylisting.Setting),
        r ∈ Greylisting.greylistingRecords rows (Greylisting.policyRecipients mail target) ↔
          r ∈ rows ∧ (AccountCovers r.account mail "sub.a.com" ∨ TargetCovers r.account "user" target)) ∧
      ∃ addrs, Throttle.possibleAddrs {} aliasCall.1 aliasCall.2 = .ok addrs ∧
        ∀ (rows : List Throttle.Setting) (kind : Str) (r : Throttle.Setting),
          r ∈ Throttle.throttleRecords rows kind addrs ↔ r ∈ rows ∧ r.kind = kind ∧
            (r.account = "1.2.3.4".toList ∨ r.account = "@ip".toList ∨
              r.account ∈ wildcardIpv4 {} "1.2.3.4" ∨
              AccountCovers r.account mail "sub.a.com" ∨ TargetCovers r.account "user" (some "b.com".toList)) := by
  let := asciiUnicode
  have hmail : letI := asciiUnicode; isEmail "user@sub.a.com".toList = true := by decide
  have hsplit : splitOnce "@" "user@sub.a.com".toList = some ("user".toList, "sub.a.com".toList) := by
    decide
  obtain ⟨hmem, hgreylisting, hthrottle⟩ := @policyAddresses_cover asciiUnicode _ _ _ hmail hsplit
  exact ⟨hmail, hsplit, hmem, hgreylisting, hthrottle {} aliasCall.1 aliasCall.2 _ rfl rfl⟩

end IRedAPD

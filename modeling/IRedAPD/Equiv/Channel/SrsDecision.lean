/-
  Which addresses the sender channel of SRS rewrites on a SQL backend.

  Every reply comes from one line and from the tables as they are then.  An address
  is rewritten unless its domain is one of the server's, or an entry of
  `srs_exclude_domains` names it or a domain it is below (`srs_rewritten_iff`); a
  query that fails finds nothing, but for the last one, which refuses.
-/
import IRedAPD.Equiv.Channel.SrsOnce
import IRedAPD.Equiv.PolicyAddresses
import IRedAPD.Libs.Sql

namespace IRedAPD.LibSql

open Py Srslib

/-! ### The domains above a domain -/

/-- The domain itself, or what follows a `.` of it. -/
def IsAbove (d domain : Str) : Prop := domain = d ∨ '.' :: d <:+ domain

/-- The end parts that have a label. -/
theorem mem_dropLast_tails_iff {labels parts : List Str} :
    labels ∈ parts.tails.dropLast ↔ ∃ k < parts.length, labels = parts.drop k := by
  induction parts with
  | nil => simp
  | cons part parts ih =>
    have hne : parts.tails ≠ [] := by
      cases parts with
      | nil => exact List.cons_ne_nil _ _
      | cons part parts => exact List.cons_ne_nil _ _
    rw [List.tails_cons, List.dropLast_cons_of_ne_nil hne, List.mem_cons, ih]
    constructor
    · rintro (rfl | ⟨k, hk, rfl⟩)
      · exact ⟨0, Nat.succ_pos _, rfl⟩
      · exact ⟨k + 1, Nat.succ_lt_succ hk, rfl⟩
    · rintro ⟨k, hk, rfl⟩
      cases k with
      | zero => exact .inl rfl
      | succ k => exact .inr ⟨k, Nat.lt_of_succ_lt_succ hk, rfl⟩

/-- `_splited_parts[-i:]` for every `i`: the whole list comes first, since `-0` is `0`. -/
theorem exists_range_iff {labels parts : List Str} :
    (∃ i < parts.length, labels = if i = 0 then parts else parts.drop (parts.length - i)) ↔
      labels ∈ parts.tails.dropLast := by
  rw [mem_dropLast_tails_iff]
  constructor
  · rintro ⟨i, hi, rfl⟩
    by_cases h : i = 0
    · exact ⟨0, by omega, by rw [if_pos h, List.drop_zero]⟩
    · exact ⟨parts.length - i, by omega, by rw [if_neg h]⟩
  · rintro ⟨k, hk, rfl⟩
    by_cases h : k = 0
    · exact ⟨0, by omega, by rw [if_pos rfl, h, List.drop_zero]⟩
    · refine ⟨parts.length - k, by omega, ?_⟩
      have hindex : parts.length - (parts.length - k) = k := by omega
      rw [if_neg (by omega), hindex]

/-- **The possible domains** are the domains above a domain, with and without a `.` in front. -/
theorem mem_possibleDomains_iff {domain p : Str} :
    p ∈ possibleDomains domain ↔ ∃ d, IsAbove d domain ∧ (p = d ∨ p = '.' :: d) := by
  have hparts : ∀ d, (∃ i < (domain.splitOn '.').length, d = join "."
      (if i = 0 then domain.splitOn '.' else (domain.splitOn '.').drop ((domain.splitOn '.').length - i))) ↔
        IsAbove d domain := by
    intro d
    rw [IsAbove, ← mem_labelTails_iff, List.mem_map]
    constructor
    · rintro ⟨i, hi, rfl⟩
      exact ⟨_, exists_range_iff.mp ⟨i, hi, rfl⟩, rfl⟩
    · rintro ⟨labels, hlabels, rfl⟩
      obtain ⟨i, hi, rfl⟩ := exists_range_iff.mpr hlabels
      exact ⟨i, hi, rfl⟩
  unfold possibleDomains
  simp only [List.mem_flatMap, List.mem_range, List.mem_cons, List.not_mem_nil, or_false]
  constructor
  · rintro ⟨i, hi, hp⟩
    exact ⟨_, (hparts _).mp ⟨i, hi, rfl⟩, hp⟩
  · rintro ⟨d, hd, hp⟩
    obtain ⟨i, hi, rfl⟩ := (hparts d).mpr hd
    exact ⟨i, hi, hp⟩

example : possibleDomains "a.b.com" = ["a.b.com", ".a.b.com", "com", ".com", "b.com", ".b.com"] := by
  decide

/-! ### What the queries answer -/

variable {ω : Type*} {collation : Collation} {t : Tables}

theorem hasRecord_selectDomain_iff {domain : Str} {includeBackupmx : Bool} :
    hasRecord (selectDomain collation t domain includeBackupmx) = true ↔
      t.fails .domain = false ∧ ∃ r ∈ t.domains, collation r.domain domain = true ∧ r.active = true ∧
        (includeBackupmx = true ∨ r.backupmx = false) := by
  unfold selectDomain
  cases t.fails .domain with
  | true => simp [hasRecord]
  | false =>
    simp only [hasRecord, Bool.false_eq_true, if_false, List.find?_isSome, Bool.and_eq_true, Bool.or_eq_true,
      Bool.not_eq_true', true_and, and_assoc]

theorem hasRecord_selectAliasDomain_iff {domain : Str} :
    hasRecord (selectAliasDomain collation t domain) = true ↔
      t.fails .aliasDomain = false ∧ ∃ r ∈ t.aliasDomains, collation r.aliasDomain domain = true ∧
        ∃ d ∈ t.domains, d.active = true ∧ collation d.domain r.targetDomain = true := by
  unfold selectAliasDomain
  cases t.fails .aliasDomain with
  | true => simp [hasRecord]
  | false =>
    simp only [hasRecord, Bool.false_eq_true, if_false, List.find?_isSome, Bool.and_eq_true,
      List.any_eq_true, true_and]
    exact exists_congr fun r => and_congr_right fun _ => and_comm

variable [Unicode]

/-! ### The decision -/

/-- The server takes mail for the domain: it is its host name, or a query finds a row of it. -/
def IsLocal (collation : Collation) (t : Tables) (hostname domain : Str)
    (includeAliasDomain includeBackupmx : Bool) : Prop :=
  isDomain domain = true ∧ (domain = hostname ∨
    (t.fails .domain = false ∧ ∃ r ∈ t.domains, collation r.domain domain = true ∧ r.active = true ∧
      (includeBackupmx = true ∨ r.backupmx = false)) ∨
    includeAliasDomain = true ∧ t.fails .aliasDomain = false ∧
      ∃ r ∈ t.aliasDomains, collation r.aliasDomain domain = true ∧
        ∃ d ∈ t.domains, d.active = true ∧ collation d.domain r.targetDomain = true)

theorem isLocalDomain_eq_true_iff {hostname domain : Str} {includeAliasDomain includeBackupmx : Bool} :
    isLocalDomain collation t hostname domain includeAliasDomain includeBackupmx = true ↔
      IsLocal collation t hostname domain includeAliasDomain includeBackupmx := by
  unfold isLocalDomain IsLocal
  rw [← hasRecord_selectDomain_iff, ← hasRecord_selectAliasDomain_iff]
  cases isDomain domain with
  | false => simp
  | true =>
    by_cases hhost : domain = hostname
    · simp [hhost]
    · simp only [Bool.not_true, Bool.false_eq_true, if_false, true_and, hhost, false_or]
      cases hasRecord (selectDomain collation t domain includeBackupmx) with
      | true => simp
      | false => simp

/-- An entry names the domain or one that it is below. -/
def IsExcluded (collation : Collation) (t : Tables) (domain : Str) : Prop :=
  ∃ r ∈ t.srsExcludeDomains, ∃ d, IsAbove d domain ∧
    (collation r d = true ∨ collation r ('.' :: d) = true)

omit [Unicode] in
theorem excludeDomains_eq_ok_false_iff {domain : Str} :
    excludeDomains collation t (possibleDomains domain) = .ok false ↔
      t.fails .srsExcludeDomains = false ∧ ¬IsExcluded collation t domain := by
  have hany : (t.srsExcludeDomains.any fun r => (possibleDomains domain).any fun d => collation r d) =
      true ↔ IsExcluded collation t domain := by
    simp only [List.any_eq_true, mem_possibleDomains_iff, IsExcluded]
    refine exists_congr fun r => and_congr_right fun _ => ?_
    constructor
    · rintro ⟨p, ⟨d, hd, rfl | rfl⟩, hp⟩
      · exact ⟨_, hd, .inl hp⟩
      · exact ⟨d, hd, .inr hp⟩
    · rintro ⟨d, hd, hp | hp⟩
      · exact ⟨d, ⟨d, hd, .inl rfl⟩, hp⟩
      · exact ⟨'.' :: d, ⟨d, hd, .inr rfl⟩, hp⟩
  unfold excludeDomains
  cases t.fails .srsExcludeDomains with
  | true => simp
  | false =>
    rw [if_neg Bool.false_ne_true, Except.ok.injEq, ← hany, Bool.not_eq_true]
    simp only [true_and]

/-- The sender channel rewrites the addresses of a domain. -/
structure Rewrites (srs : SrsService ω) (collation : Collation) (hostname : Str) (t : Tables)
    (domain : Str) : Prop where
  not_srsDomain : domain ≠ srs.settings.srsDomain
  not_fqdn : domain ≠ srs.fqdn
  not_local : ¬IsLocal collation t hostname domain true true
  asked : t.fails .srsExcludeDomains = false
  not_excluded : ¬IsExcluded collation t domain

variable {hmacSha1 : Bytes → Bytes → Vector UInt8 20} {srs : SrsService ω} {hostname : Str}
  {tables : ω → Tables}

/-- What `srs_forward` replies. -/
theorem srsForward_eq_success_iff {addr domain r : Str} (w : ω × State) :
    (srsForward srs.settings ((service srs collation hostname tables).calls hmacSha1) addr domain w).1 =
        TcpReplies.success ++ r ↔
      Rewrites srs collation hostname (tables w.1) domain ∧
        (srs.srslibInstance.forward hmacSha1 srs.timeFn addr srs.settings.srsDomain w.2).1 = .ok r := by
  set calls := (service srs collation hostname tables).calls hmacSha1 with hcalls
  set forwarded := srs.srslibInstance.forward hmacSha1 srs.timeFn addr srs.settings.srsDomain w.2
    with hforwarded
  have hcallsFqdn : calls.fqdn = srs.fqdn := rfl
  have hlocal : calls.isLocalDomain domain w =
      (.ok (isLocalDomain collation (tables w.1) hostname domain true true), w) := rfl
  have hexclude : calls.excludeDomains (possibleDomains domain) w =
      (excludeDomains collation (tables w.1) (possibleDomains domain), w) := rfl
  have hforward : calls.forward addr srs.settings.srsDomain w =
      (forwarded.1.mapError fun _ => .valueError, w.1, forwarded.2) := rfl
  unfold srsForward
  simp only [hlocal, hexclude, hcallsFqdn]
  -- a reply of any branch but the last is no success
  constructor
  · intro h
    split_ifs at h with hsrs hfqdn hislocal
    · exact absurd h (notExist_append_ne _ _)
    · exact absurd h (notExist_append_ne _ _)
    · exact absurd h (notExist_append_ne _ _)
    cases hexcluded : excludeDomains collation (tables w.1) (possibleDomains domain) with
    | error e =>
      rw [hexcluded] at h
      exact absurd h (notExist_ne _)
    | ok excluded =>
      rw [hexcluded] at h
      cases excluded with
      | true => exact absurd h (notExist_append_ne _ _)
      | false =>
        obtain ⟨hasked, hnot⟩ := excludeDomains_eq_ok_false_iff.mp hexcluded
        refine ⟨⟨hsrs, hfqdn, fun hl => hislocal (isLocalDomain_eq_true_iff.mpr hl), hasked, hnot⟩, ?_⟩
        simp only [hforward] at h
        cases hanswer : forwarded.1 with
        | error e =>
          rw [hanswer] at h
          exact absurd h (notExist_ne _)
        | ok newAddr =>
          rw [hanswer] at h
          have happend : TcpReplies.success ++ newAddr = TcpReplies.success ++ r := h
          rw [List.append_cancel_left happend]
  · rintro ⟨⟨hsrs, hfqdn, hnotlocal, hasked, hnot⟩, hr⟩
    rw [if_neg hsrs, if_neg hfqdn, if_neg fun hl => hnotlocal (isLocalDomain_eq_true_iff.mp hl),
      excludeDomains_eq_ok_false_iff.mpr ⟨hasked, hnot⟩]
    simp only [hforward, hr, Except.mapError]

/-- **The sender channel rewrites an address** exactly when its domain is none of the server's, by the
tables as they are when the line is read, and no entry of `srs_exclude_domains` names it or a domain it
is below; and what it replies then is the SRS address, for any line at all. -/
theorem srs_rewritten_iff (hmacSha1 : Bytes → Bytes → Vector UInt8 20) (srs : SrsService ω)
    (collation : Collation) (hostname : Str) (tables : ω → Tables) (w : ω × State) (line r : Str) :
    (srsReply srs.settings ((service srs collation hostname tables).calls hmacSha1) .sender line w).1 =
        TcpReplies.success ++ r ↔
      startsWith line "get " = true ∧ ∃ localPart domain,
        splitLast " " (strip line) = localPart ++ '@' :: domain ∧
          '@' ∉ localPart ∧ '@' ∉ domain ∧ isEmail (localPart ++ '@' :: domain) = true ∧
          Rewrites srs collation hostname (tables w.1) domain ∧
          r = rewrittenAddress hmacSha1 srs w.2 localPart domain := by
  rw [srsReply_eq_success_iff]
  refine and_congr_right fun _ => exists_congr fun localPart => exists_congr fun domain => ?_
  constructor
  · rintro ⟨haddr, hat, hemail, h⟩
    obtain ⟨hrewrites, hforward⟩ := (srsForward_eq_success_iff w).mp h
    obtain ⟨hdomain, hr⟩ := (forward_eq_ok_iff hat w.2).mp hforward
    exact ⟨haddr, hat, hdomain, hemail, hrewrites, hr⟩
  · rintro ⟨haddr, hat, hdomain, hemail, hrewrites, hr⟩
    exact ⟨haddr, hat, hemail, (srsForward_eq_success_iff w).mpr
      ⟨hrewrites, (forward_eq_ok_iff hat w.2).mpr ⟨hdomain, hr⟩⟩⟩

end IRedAPD.LibSql

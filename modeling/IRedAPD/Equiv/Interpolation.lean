/-
  Addresses and domains put between quotes as they are.

  The tests of `libs/utils.py` ask for a match at the beginning of a text, and
  take the scope id of an IPv6 address as it is.  A text of the documented form
  is one literal of every statement it is written into (`literals_sql`), and
  what the tests let through has that form as far as the match of the pattern
  reaches the end of it (`interpolates_iff`).
-/
import IRedAPD.Equiv.AddressFormats
import IRedAPD.Equiv.Sqlquote
import IRedAPD.Libs.Greylisting
import IRedAPD.Libs.Wblist
import IRedAPD.Sql.Statement

namespace IRedAPD

open Py Py.Regex Regxes

/-! ### Statements -/

/-- The statements that hold addresses or domains as they are: those of `create_user` and
`get_user_record`, and of `libs/greylisting.py`. -/
inductive Interpolation where
  | insertUser (account : Str) (priority : ℤ)
  | selectUser (account : Str)
  | userRecord (account : Str)
  | greylisting (i : LibGl.Statement)

/-- The text of a statement. -/
def Interpolation.sql : Interpolation → Str
  | .insertUser account priority => LibWblist.insertUserSql account priority
  | .selectUser account => LibWblist.selectUserSql account
  | .userRecord account => LibWblist.userRecordSql account
  | .greylisting i => i.sql

/-- The texts between the quotes. -/
def Interpolation.texts : Interpolation → List Str
  | .insertUser account _ => [account]
  | .selectUser account => [account]
  | .userRecord account => [account]
  | .greylisting i => LibGl.statements.texts i

/-- How a backend reads the literals of a statement. -/
def SqlBackend.quoting : SqlBackend → Sql.Quoting
  | .pgsql => Sql.pgQuoting
  | .mysql => Sql.mysqlQuoting

/-- The digits of a number are no quotes. -/
theorem unquoted_intStr (n : ℤ) : Sql.Unquoted (intStr n) := by
  have hdigits : ∀ n : ℕ, Sql.Unquoted (natStr n) := by
    intro n c hc
    have hdigit := Nat.isDigit_of_mem_toDigits (by decide) (by decide) hc
    constructor
    · rintro rfl
      exact absurd hdigit (by decide)
    · rintro rfl
      exact absurd hdigit (by decide)
  cases n with
  | ofNat n => exact hdigits n
  | negSucc n =>
    intro c hc
    rcases List.mem_cons.mp hc with rfl | hc
    · decide
    · exact hdigits _ c hc

/-- A number between fixed texts. -/
theorem unquoted_number {p p' : Str} (hp : Sql.Unquoted p) (n : ℤ) (hp' : Sql.Unquoted p') :
    Sql.Unquoted (p ++ (intStr n ++ p')) := hp.append ((unquoted_intStr n).append hp')

/-- **The literals of a statement are its texts**, as far as these hold neither single quotes nor
backslashes. -/
theorem literals_sql (backend : SqlBackend) {i : Interpolation}
    (h : ∀ x ∈ i.texts, Sql.Quotable x) : backend.quoting.literals i.sql = some i.texts := by
  refine Sql.Quoting.Reads.literals_eq ?_
  -- one case for each statement: fixed texts without quotes around quotable ones
  cases i with
  | insertUser account priority =>
    have haccount := h account List.mem_cons_self
    unfold Interpolation.sql LibWblist.insertUserSql
    simp only [List.append_assoc]
    exact .last (by decide) haccount (unquoted_number (by decide) _ (by decide))
  | selectUser account =>
    have haccount := h account List.mem_cons_self
    unfold Interpolation.sql LibWblist.selectUserSql
    simp only [List.append_assoc]
    exact .last (by decide) haccount (by decide)
  | userRecord account =>
    have haccount := h account List.mem_cons_self
    unfold Interpolation.sql LibWblist.userRecordSql
    simp only [List.append_assoc]
    exact .append (by decide) (.last (by decide) haccount (by decide))
  | greylisting i =>
    unfold Interpolation.sql LibGl.Statement.sql
    cases i with
    | deleteSetting account sender =>
      have haccount := h account List.mem_cons_self
      have hsender := h sender (List.mem_cons_of_mem _ List.mem_cons_self)
      simp only [List.append_assoc]
      exact .part (by decide) haccount (by decide) (by decide) (.last (by decide) hsender (by decide))
    | insertSetting r =>
      have haccount := h r.account List.mem_cons_self
      have hsender := h r.sender (List.mem_cons_of_mem _ List.mem_cons_self)
      simp only [List.append_assoc]
      exact .append (by decide) (.part (by decide) haccount (by decide) (by decide)
        (.append (by decide) (.append (unquoted_intStr _) (.last (by decide) hsender
          (unquoted_number (by decide) _ (unquoted_number (by decide) _ (by decide)))))))
    | insertWhitelist r =>
      have haccount := h r.account List.mem_cons_self
      have hsender := h r.sender (List.mem_cons_of_mem _ List.mem_cons_self)
      have hcomment := h r.comment (List.mem_cons_of_mem _ (List.mem_cons_of_mem _ List.mem_cons_self))
      simp only [List.append_assoc]
      exact .append (by decide) (.part (by decide) haccount (by decide) (by decide)
        (.part (by decide) hsender (by decide) (by decide) (.last (by decide) hcomment (by decide))))
    | insertDomain domain =>
      have hdomain := h domain List.mem_cons_self
      simp only [List.append_assoc]
      exact .last (by decide) hdomain (by decide)
    | deleteDomain domain =>
      exact .end_quoted (by decide) (h domain List.mem_cons_self)
    | deleteWhitelists domain =>
      exact .end_quoted (by decide) (h (LibGl.autoUpdate domain) List.mem_cons_self)

/-! ### Texts that end no literal -/

/-- No quote, backslash or line break. -/
def Harmless (s : Str) : Prop := ∀ c ∈ s, c ∉ ['\'', '"', '\\', '\n', '\r']

instance (s : Str) : Decidable (Harmless s) := inferInstanceAs (Decidable (∀ c ∈ s, _))

theorem Harmless.append {s t : Str} (hs : Harmless s) (ht : Harmless t) : Harmless (s ++ t) := by
  intro c hc
  rcases List.mem_append.mp hc with hc | hc
  · exact hs c hc
  · exact ht c hc

theorem Harmless.cons {c : Char} {s : Str} (hc : Harmless [c]) (hs : Harmless s) :
    Harmless (c :: s) := hc.append hs

theorem Harmless.quotable {s : Str} (h : Harmless s) : Sql.Quotable s := by
  intro c hc
  constructor
  · rintro rfl
    exact h _ hc (by decide)
  · rintro rfl
    exact h _ hc (by decide)

section Formats

variable [Unicode]

theorem Over.harmless {cs s : Str} (h : Over cs s) (hcs : Harmless cs) : Harmless s := by
  intro c hc hbreaks
  have hword : isWord c = false := by
    have hascii : ∀ d ∈ ['\'', '"', '\\', '\n', '\r'],
        d.toNat < 128 ∧ (d.isAlphanum || d == '_') = false := by decide
    exact isWord_of_ascii (hascii c hbreaks).1 (hascii c hbreaks).2
  rcases h c hc with h | h
  · rw [hword] at h
    cases h
  · exact hcs c h hbreaks

omit [Unicode] in
theorem Label.harmless {p : Char → Bool} {m n : ℕ} {s : Str} (h : Label p m n s)
    (hp : ∀ c ∈ ['\'', '"', '\\', '\n', '\r'], p c = false) : Harmless s := by
  intro c hc hbreaks
  have hchar := h.2.2 c hc
  rw [hp c hbreaks] at hchar
  cases hchar

theorem DomainName.harmless {p : Char → Bool} {s : Str} (h : DomainName p s)
    (hp : ∀ c ∈ ['\'', '"', '\\', '\n', '\r'], p c = false) : Harmless s := by
  obtain ⟨c, name, ltd, rfl, hc, hname, hltd⟩ := h
  exact .cons (hc.harmless (by decide))
    ((hname.harmless (by decide)).append (.cons (by decide) (hltd.harmless hp)))

theorem WildcardField.harmless {s : Str} (h : WildcardField s) : Harmless s := by
  refine Label.harmless h fun c hc => ?_
  have hascii : ∀ d ∈ ['\'', '"', '\\', '\n', '\r'],
      d.toNat < 128 ∧ (d.isDigit || d == '*') = false := by decide
  rw [Unicode.isDecimal_ascii c (hascii c hc).1]
  exact (hascii c hc).2

omit [Unicode] in
/-- An address is harmless when its scope id is. -/
theorem harmless_of_scopeId {s : Str}
    (hchars : ∀ c ∈ splitFirst ['%'] s, isAddressChar c = true ∨ c = '/')
    (hscope : ∀ addr scope, splitOnce ['%'] s = some (addr, scope) → Harmless scope) :
    Harmless s := by
  have haddr : Harmless (splitFirst ['%'] s) := by
    intro c hc hbreaks
    have hnot : ∀ d ∈ ['\'', '"', '\\', '\n', '\r'], isAddressChar d = false ∧ d ≠ '/' := by decide
    rcases hchars c hc with h | h
    · rw [(hnot c hbreaks).1] at h
      cases h
    · exact (hnot c hbreaks).2 h
  by_cases hmem : '%' ∈ s
  · obtain ⟨addr, scope, rfl, hnotMem⟩ := List.eq_append_cons_of_mem hmem
    rw [splitFirst_append hnotMem] at haddr
    exact haddr.append (.cons (by decide) (hscope addr scope (splitOnce_append hnotMem scope)))
  · rwa [splitFirst_of_notMem hmem] at haddr

/-! ### What is interpolated -/

/-- What a text passes for: an address of a type, or a domain. -/
inductive Format where
  | address (type : AddressType)
  | domainName

/-- `is_valid_amavisd_address` or `is_domain` lets the text through. -/
def Format.Accepts : Format → Str → Prop
  | .address type, s => isValidAmavisdAddress s = some type
  | .domainName, s => isDomain s = true

/-- The documented form. -/
def Format.Documented : Format → Str → Prop
  | .address type, s => type.Documented s
  | .domainName, s => DomainName isLetterIgnoreCase s

/-- The pattern that lets the text through matches to its end, not only a beginning of it; there is
no line break after a pattern for clients, and a scope id is harmless. -/
def Format.Exhausted : Format → Str → Prop
  | .address .catchall, _ | .address .catchallIp, _ => True
  | .address .subdomain, s => ReachesEnd cmpDomain (splitLast "@." s)
  | .address .topLevelDomain, s => ReachesEnd cmpTopLevelDomain (splitLast "@." s)
  | .address .domain, s => ReachesEnd cmpDomain (splitLast "@" s)
  | .address .email, s => ReachesEnd cmpEmail s
  | .address .wildcardAddr, s => ReachesEnd regxWildcardAddr s
  | .address .ip, s | .address .cidrNetwork, s =>
    ∀ addr scope, splitOnce ['%'] s = some (addr, scope) → Harmless scope
  | .address .wildcardIp, s => s.getLast? ≠ some '\n'
  | .domainName, s => ReachesEnd cmpDomain s

/-- A text has the documented form, it is harmless, and every statement with it, or with the comment
of it, holds it as one literal. -/
structure Interpolates (f : Format) (s : Str) : Prop where
  documented : f.Documented s
  harmless : Harmless s
  literal : ∀ backend : SqlBackend, ∀ i : Interpolation,
    (∀ x ∈ i.texts, x = s ∨ x = LibGl.autoUpdate s ∨ Sql.Quotable x) →
      backend.quoting.literals i.sql = some i.texts

/-- Documented forms are harmless, but for a scope id. -/
theorem harmless_of_exhausted {f : Format} {s : Str} (hdocumented : f.Documented s)
    (h : f.Exhausted s) : Harmless s := by
  have hletter : ∀ c ∈ ['\'', '"', '\\', '\n', '\r'], isLetterIgnoreCase c = false := by decide
  have hlabel : ∀ c ∈ ['\'', '"', '\\', '\n', '\r'], isLabelChar c = false := by decide
  cases f with
  | domainName => exact DomainName.harmless hdocumented hletter
  | address type =>
    cases type with
    | catchall =>
      obtain rfl : s = "@.".toList := hdocumented
      decide
    | subdomain =>
      obtain ⟨domain, rfl, hdomain⟩ := hdocumented
      exact .append (by decide) (hdomain.harmless hletter)
    | topLevelDomain =>
      obtain ⟨tld, rfl, htld⟩ := hdocumented
      exact .append (by decide) (htld.harmless hlabel)
    | catchallIp =>
      obtain rfl : s = "@ip".toList := hdocumented
      decide
    | domain =>
      obtain ⟨domain, rfl, hdomain⟩ := hdocumented
      exact .append (by decide) (hdomain.harmless hletter)
    | email =>
      obtain ⟨c, user, domain, rfl, hc, huser, hdomain⟩ := hdocumented
      exact .cons (hc.harmless (by decide)) ((huser.harmless (by decide)).append
        (.cons (by decide) (hdomain.harmless hlabel)))
    | wildcardAddr =>
      obtain ⟨c, user, rfl, hc, huser⟩ := hdocumented
      exact .cons (hc.harmless (by decide)) ((huser.harmless (by decide)).append (by decide))
    | ip =>
      obtain ⟨ip, hip⟩ := Option.isSome_iff_exists.mp hdocumented
      exact harmless_of_scopeId (fun c hc => .inl (isAddressChar_of_ipAddress hip c hc)) h
    | cidrNetwork =>
      obtain ⟨net, hnet⟩ := Option.isSome_iff_exists.mp hdocumented
      exact harmless_of_scopeId (isAddressChar_of_ipNetwork hnet) h
    | wildcardIp =>
      obtain ⟨f₁, f₂, f₃, f₄, rfl, h₁, h₂, h₃, h₄⟩ := hdocumented
      exact h₁.harmless.append (.cons (by decide) (h₂.harmless.append
        (.cons (by decide) (h₃.harmless.append (.cons (by decide) h₄.harmless)))))

theorem documented_of_exhausted {f : Format} {s : Str} (haccepts : f.Accepts s)
    (h : f.Exhausted s) : f.Documented s := by
  cases f with
  | domainName => exact reachesEnd_domain.mp h
  | address type =>
    have htested := tested_of_type haccepts
    cases type with
    | catchall => exact htested
    | subdomain =>
      obtain ⟨domain, rfl⟩ := htested
      have h : ReachesEnd cmpDomain (splitLast "@." ("@.".toList ++ domain)) := h
      rw [splitLast_self (by decide), reachesEnd_domain] at h
      exact ⟨domain, rfl, h⟩
    | topLevelDomain =>
      obtain ⟨domain, rfl⟩ := htested
      have h : ReachesEnd cmpTopLevelDomain (splitLast "@." ("@.".toList ++ domain)) := h
      rw [splitLast_self (by decide), reachesEnd_topLevelDomain] at h
      exact ⟨domain, rfl, h⟩
    | catchallIp => exact htested
    | domain =>
      obtain ⟨domain, rfl⟩ := htested
      have h : ReachesEnd cmpDomain (splitLast "@" ("@".toList ++ domain)) := h
      rw [splitLast_self (by decide), reachesEnd_domain] at h
      exact ⟨domain, rfl, h⟩
    | email => exact reachesEnd_email.mp h
    | wildcardAddr => exact reachesEnd_wildcardAddr.mp h
    | ip => exact htested
    | cidrNetwork => exact htested
    | wildcardIp => exact (wildcardClient_iff htested).mpr h

theorem exhausted_of_documented {f : Format} {s : Str} (haccepts : f.Accepts s)
    (hdocumented : f.Documented s) (hharmless : Harmless s) : f.Exhausted s := by
  have hscope : ∀ addr scope, splitOnce ['%'] s = some (addr, scope) → Harmless scope := by
    intro addr scope hsplit c hc
    refine hharmless c ?_
    rw [eq_append_of_splitOnce hsplit]
    exact List.mem_append_right _ hc
  cases f with
  | domainName => exact reachesEnd_domain.mpr hdocumented
  | address type =>
    cases type with
    | catchall => trivial
    | subdomain =>
      obtain ⟨domain, rfl, hdomain⟩ := hdocumented
      show ReachesEnd cmpDomain (splitLast "@." ("@.".toList ++ domain))
      rw [splitLast_self (by decide), reachesEnd_domain]
      exact hdomain
    | topLevelDomain =>
      obtain ⟨tld, rfl, htld⟩ := hdocumented
      show ReachesEnd cmpTopLevelDomain (splitLast "@." ("@.".toList ++ tld))
      rw [splitLast_self (by decide), reachesEnd_topLevelDomain]
      exact htld
    | catchallIp => trivial
    | domain =>
      obtain ⟨domain, rfl, hdomain⟩ := hdocumented
      show ReachesEnd cmpDomain (splitLast "@" ("@".toList ++ domain))
      rw [splitLast_self (by decide), reachesEnd_domain]
      exact hdomain
    | email => exact reachesEnd_email.mpr hdocumented
    | wildcardAddr => exact reachesEnd_wildcardAddr.mpr hdocumented
    | ip => exact hscope
    | cidrNetwork => exact hscope
    | wildcardIp => exact (wildcardClient_iff (tested_of_type haccepts)).mp hdocumented

/-- **What may be interpolated**: a text whose pattern matches to the end. -/
theorem interpolates_iff {f : Format} {s : Str} (h : f.Accepts s) :
    Interpolates f s ↔ f.Exhausted s := by
  constructor
  · exact fun hs => exhausted_of_documented h hs.documented hs.harmless
  · intro hs
    have hdocumented := documented_of_exhausted h hs
    have hharmless := harmless_of_exhausted hdocumented hs
    refine ⟨hdocumented, hharmless, fun backend i hi => literals_sql backend fun x hx => ?_⟩
    rcases hi x hx with rfl | rfl | hx
    · exact hharmless.quotable
    · exact Sql.Quotable.append (by decide) hharmless.quotable
    · exact hx

end Formats

/-- An address with a sub-folder, as the comment in `libs/regxes.py` has it. -/
theorem interpolates_email :
    letI := asciiUnicode
    Interpolates (.address .email) "john+lists/abc@domain.com" := by
  let := asciiUnicode
  have haccepts : Format.Accepts (.address .email) "john+lists/abc@domain.com" := by
    show isValidAmavisdAddress _ = _
    decide
  refine (interpolates_iff haccepts).mpr ?_
  show ReachesEnd cmpEmail _
  decide

/-- What follows the match of an address closes the literal, and the statement selects every user. -/
theorem address_closes_literal :
    letI := asciiUnicode
    isValidAmavisdAddress "a@b.io'or'1'='1" = some .email ∧
      (∀ backend : SqlBackend,
        backend.quoting.literals (LibWblist.userRecordSql "a@b.io'or'1'='1") =
          some ["a@b.io".toList, "1".toList, "1".toList]) ∧
      ¬ Interpolates (.address .email) "a@b.io'or'1'='1" := by
  let := asciiUnicode
  refine ⟨by decide, fun backend => ?_, fun h => ?_⟩
  · cases backend <;> decide +kernel
  · exact h.harmless '\'' (by decide) (by decide)

end IRedAPD

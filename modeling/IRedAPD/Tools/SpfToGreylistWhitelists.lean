/-
  `tools/spf_to_greylist_whitelists.py`

  The statements of the tool pass values apart from their text, and do what they
  say.  A run is complete: it raises no exception and is not interrupted.
-/
import IRedAPD.Equiv.Libs.Dnsspf.Budget
import IRedAPD.Libs.Greylisting

namespace IRedAPD.SpfToGreylistWhitelists

open Py Dnsspf LibGl

variable [Unicode]

/-- A run: its command line, what DNS answers while it runs, and the order of its sets. -/
structure Run where
  /-- `--submit` -/
  submitToSqlDb : Bool := false
  /-- the other arguments -/
  args : List Str := []
  zone : Zone
  sets : SetOrder Str := .ofDedup

section

variable (settings : Settings) (r : Run)

/-! ### Queries -/

/-- `domains` -/
def domains (t : Tables) : List Str :=
  let domains := if r.args.isEmpty then t.whitelistDomains.rows.map Prod.snd else r.args
  (domains.filter isDomain).map Unicode.lower

/-- The addresses of a domain.  Every call counts its queries from 0. -/
def queryDomain (domain : Str) (st : State) : List Str × State :=
  let (spf, st) := querySpf settings.spfMaxDnsQueries r.zone domain { st with numQueries := 0 }
  let st := { st with numQueries := 0 }
  match spf with
  | some spf =>
    (parseSpf r.sets settings.spfMaxDnsQueries r.zone (settings.spfMaxDnsQueries + 1) domain (some spf)
      st).get (Option.isSome_iff_exists.mpr (exists_parseSpf domain (some spf) (Nat.lt_succ_self _)))
  | none => queryMx r.sets settings.spfMaxDnsQueries r.zone [domain] st

/-- The loop of queries, with `domain_ips` so far. -/
def queryLoop : List Str → Dict Str (List Str) → State → Dict Str (List Str)
  | [], domainIps, _ => domainIps
  | domain :: domains, domainIps, st =>
    if st.queriedDomains.contains (spfMark domain) then queryLoop domains domainIps st
    else
      let (ips, st) := queryDomain settings r domain st
      queryLoop domains (domainIps.set domain (r.sets.order ips)) st

/-- `domain_ips` -/
def domainIps (t : Tables) : Dict Str (List Str) := queryLoop settings r (domains r t) [] {}

/-! ### Import -/

/-- An address is inserted unless there is a row with it, and its tracking data is removed. -/
def importIp (comment : Str) (t : Tables) (ip : Str) : Tables :=
  match t.whitelistDomainSpf.insert ⟨{ account := "@.", sender := ip }, comment⟩ with
  | none => t
  | some w =>
    { t with
      whitelistDomainSpf := w
      tracking := t.tracking.delete fun row => row.2.clientAddress = ip }

/-- The old rows of a domain are deleted. -/
def deleteOld (comment : Str) (t : Tables) : Tables :=
  { t with
    whitelistDomainSpf := t.whitelistDomainSpf.delete fun row => row.2.comment = comment
    whitelists := t.whitelists.delete fun row => row.2.comment = comment }

/-- The import of a domain. -/
def importDomain (t : Tables) (domain : Str × List Str) : Tables :=
  domain.2.foldl (importIp (autoUpdate domain.1)) (deleteOld (autoUpdate domain.1) t)

/-- A domain is stored; an error is only logged. -/
def submitDomain (t : Tables) (domain : Str) : Tables :=
  match t.whitelistDomains.insert domain with
  | none => t
  | some w => { t with whitelistDomains := w }

/-- The tool. -/
def main (t : Tables) : Tables :=
  if (domains r t).isEmpty then t
  else
    let domainIps := domainIps settings r t
    if domainIps.all fun p => p.2.isEmpty then t
    else
      let t' := domainIps.foldl importDomain t
      if r.submitToSqlDb then (domains r t).foldl submitDomain t' else t'

end

end IRedAPD.SpfToGreylistWhitelists

/-
  `libs/dnsspf.py`

  A name server is a `Zone`.  The functions return the addresses they find and
  pass on what Python threads through dictionaries of results (`State`), with
  the DNS queries in the order in which they are issued.  `parse_spf` and
  `query_spf_of_included_domains` call each other; the depth of the calls is
  bounded by a first argument, and the result is `none` when it does not
  suffice.
-/
import IRedAPD.Libs.Utils
import IRedAPD.Py.SetOrder

namespace IRedAPD.Dnsspf

open Py

variable [Unicode]

/-! ### DNS -/

/-- The records of a name by type, with their texts or, for `MX`, preference and exchange; `none`
when the query raises. -/
structure Zone where
  a : Str → Option (List Str)
  mx : Str → Option (List (ℕ × Str))
  txt : Str → Option (List Str)

/-- A DNS query. -/
inductive Query where
  | a (domain : Str)
  | mx (domain : Str)
  | txt (domain : Str)
  deriving DecidableEq

/-- What the functions pass on. -/
structure State where
  queriedDomains : List Str := []
  returnedIps : List Str := []
  numQueries : ℕ := 0
  /-- the queries issued so far -/
  queries : List Query := []
  deriving DecidableEq

/-- A query is issued. -/
def State.issue (q : Query) (st : State) : State :=
  { st with numQueries := st.numQueries + 1, queries := st.queries ++ [q] }

/-- `queried_domains.add(...)` -/
def State.mark (s : Str) (st : State) : State :=
  { st with queriedDomains := s :: st.queriedDomains }

/-- `returned_ips.update(...)` -/
def State.returns (ips : List Str) (st : State) : State :=
  { st with returnedIps := st.returnedIps ++ ips }

/-- `'a:' + domain` -/
def aMark (domain : Str) : Str := "a:".toList ++ domain

/-- `'mx:' + domain` -/
def mxMark (domain : Str) : Str := "mx:".toList ++ domain

/-- `'spf:' + domain` -/
def spfMark (domain : Str) : Str := "spf:".toList ++ domain

/-! ### Records -/

/-- `hostname` of an `MX` record. -/
def mxHostname (r : ℕ × Str) : Str :=
  rstripChar '.' ((splitWords (natStr r.1 ++ ' ' :: r.2)).getLastD [])

/-- The hosts of an answer that are added to `hostnames`. -/
def mxHostnames (rs : List (ℕ × Str)) : List Str := (rs.map mxHostname).filter isDomain

/-- The text of a `TXT` record without its quotes. -/
def unquote (r : Str) : Str :=
  removeAll "\" \"".toList 0 (stripChar '\'' (stripChar '"' r))

/-- The SPF record of an answer. -/
def spfRecord (rs : List Str) : Option Str := (rs.map unquote).find? fun r => startsWith r "v=spf1"

/-- What the loop over the tags of an SPF record collects. -/
structure Terms where
  ips : List Str := []
  a : List Str := []
  mx : List Str := []
  /-- `included_domains` -/
  included : List Str := []

/-- The tag starts with a mechanism, which `+` may precede. -/
def hasMechanism (tag mechanism : Str) : Bool :=
  startsWith tag mechanism || startsWith tag ('+' :: mechanism)

/-- The body of the loop over the tags. -/
def Terms.takeTag (domain : Str) (ts : Terms) (tag : Str) : Terms :=
  let v := splitLast ":" tag
  if hasMechanism tag "include:" then { ts with included := ts.included ++ [v] }
  else if startsWith tag "redirect=" then
    -- a redirect counts as an include
    { ts with included := ts.included ++ [splitLast "=" tag] }
  else if hasMechanism tag "ip4:" then
    if if v.contains '/' then (ipNetwork v).isSome else (ipAddress v).isSome then
      { ts with ips := ts.ips ++ [v] }
    else ts
  else if hasMechanism tag "ip6:" then
    if (ipAddress v).isSome || (ipNetwork v).isSome then { ts with ips := ts.ips ++ [v] } else ts
  else if hasMechanism tag "a:" then { ts with a := ts.a ++ [v] }
  else if hasMechanism tag "mx:" then { ts with mx := ts.mx ++ [v] }
  -- the name of a `ptr` is kept among the addresses, after an `@`
  else if startsWith tag "ptr:" then { ts with ips := ts.ips ++ ['@' :: v] }
  else if tag = "a".toList ∨ tag = "+a".toList then { ts with a := ts.a ++ [domain] }
  else if tag = "mx".toList ∨ tag = "+mx".toList then { ts with mx := ts.mx ++ [domain] }
  else if tag = "ptr".toList then { ts with ips := ts.ips ++ ['@' :: domain] }
  else ts

/-- The loop over the tags. -/
def parseTags (domain spf : Str) : Terms := (splitWords spf).foldl (Terms.takeTag domain) {}

/-! ### Queries -/

section Queries

variable (sets : SetOrder Str) (maxQueries : ℕ) (zone : Zone)

/-- The loop of `query_a`, with the addresses found so far. -/
def queryALoop : List Str → List Str → State → List Str × State
  | [], ips, st => (ips, st)
  | domain :: domains, ips, st =>
    if maxQueries ≤ st.numQueries then (ips, st)
    else
      match zone.a domain with
      | none => queryALoop domains ips (st.issue (.a domain))
      | some rs =>
        queryALoop domains (ips ++ rs)
          (((st.issue (.a domain)).returns rs).mark (aMark domain))

/-- `query_a` -/
def queryA (domains : List Str) (st : State) : List Str × State :=
  queryALoop maxQueries zone (domains.filter fun d => !st.queriedDomains.contains d) [] st

/-- The loop of `query_mx`, with `hostnames` and the addresses found so far. -/
def queryMxLoop : List Str → List Str → List Str → State → List Str × State
  | [], _, ips, st => (ips, st)
  | domain :: domains, hostnames, ips, st =>
    if maxQueries ≤ st.numQueries then (ips, st)
    else
      match zone.mx domain with
      | none => queryMxLoop domains hostnames ips (st.issue (.mx domain))
      | some rs =>
        let hostnames := hostnames ++ mxHostnames rs
        let (ipsA, st) :=
          if hostnames.isEmpty then ([], st.issue (.mx domain))
          else queryA maxQueries zone (sets.order hostnames) (st.issue (.mx domain))
        queryMxLoop domains hostnames (ips ++ ipsA) (st.mark (mxMark domain))

/-- `query_mx` -/
def queryMx (domains : List Str) (st : State) : List Str × State :=
  queryMxLoop sets maxQueries zone (domains.filter fun d => !st.queriedDomains.contains d) [] [] st

/-- `query_spf` -/
def querySpf (domain : Str) (st : State) : Option Str × State :=
  if st.queriedDomains.contains (spfMark domain) || decide (maxQueries ≤ st.numQueries) then (none, st)
  else ((zone.txt domain).bind spfRecord, (st.issue (.txt domain)).mark (spfMark domain))

/-- The loop of `query_spf_of_included_domains`, with the addresses found so far; the first argument
is `parse_spf`. -/
def includedLoop (parse : Str → Option Str → State → Option (List Str × State)) :
    List Str → List Str → State → Option (List Str × State)
  | [], ips, st => some (ips, st)
  | domain :: domains, ips, st =>
    let (spf, st) := querySpf maxQueries zone domain st
    match parse domain spf st with
    | none => none
    | some (ipsSpf, st) =>
      includedLoop parse domains (ips ++ ipsSpf) ((st.mark (spfMark domain)).returns ipsSpf)

/-- `query_spf_of_included_domains` -/
def querySpfOfIncludedDomains (parse : Str → Option Str → State → Option (List Str × State))
    (domains : List Str) (st : State) : Option (List Str × State) :=
  includedLoop maxQueries zone parse
    (domains.filter fun d => !st.queriedDomains.contains (spfMark d)) [] st

/-- `parse_spf` from `if a:` on. -/
def parseAddresses (domain : Str) (ts : Terms) (ips : List Str) (st : State) : List Str × State :=
  let (ipsA, st) :=
    if ts.a.isEmpty then ([], st)
    else
      queryA maxQueries zone
        ((sets.order ts.a).filter fun d => !st.queriedDomains.contains (aMark d)) st
  let (ipsMx, st) :=
    if ts.mx.isEmpty then ([], st)
    else
      queryMx sets maxQueries zone
        ((sets.order ts.mx).filter fun d => !st.queriedDomains.contains (mxMark d)) st
  (ips ++ ipsA ++ ipsMx, st.mark (spfMark domain))

/-- `parse_spf` -/
def parseSpf : ℕ → Str → Option Str → State → Option (List Str × State)
  | _, _, none, st => some ([], st)
  | 0, _, some _, _ => none
  | depth + 1, domain, some spf, st =>
    let ts := parseTags domain spf
    let included :=
      if ts.included.isEmpty then some ([], st)
      else
        querySpfOfIncludedDomains maxQueries zone (parseSpf depth)
          ((sets.order ts.included).filter fun d => !st.queriedDomains.contains (spfMark d)) st
    included.map fun (ipsIncluded, st) =>
      parseAddresses sets maxQueries zone domain ts (ts.ips ++ ipsIncluded) st

end Queries

/-! ### `is_allowed_server_in_spf` -/

/-- `_cidrs` -/
def cidrsOf (ip : Str) (version : IpVersion) (ips : List Str) : List Str :=
  match version with
  | .v4 => ips.filter fun i =>
    startsWith i (splitFirst "." ip ++ ".".toList) && (splitOnce ".0/" i).isSome
  | .v6 => ips.filter fun i => i.contains ':' && i.contains '/'

/-- The address is listed, or is in a network that is. -/
def isListed (ip : Str) (ips : List Str) : Except Exn Bool :=
  if ips.contains ip then .ok true
  else
    match ipAddress ip with
    | none => .error .valueError
    | some addr => .ok ((cidrsOf ip addr.version ips).any fun cidr =>
        (ipNetwork cidr).any fun net => net.contains addr)

/-- `is_allowed_server_in_spf`, with the queries it issues. -/
def isAllowedServerInSpf (sets : SetOrder Str) (settings : Settings) (zone : Zone) (depth : ℕ)
    (senderDomain ip : Str) : Option (Except Exn Bool × List Query) :=
  if senderDomain = [] ∨ ip = [] then some (.ok false, [])
  else
    match querySpf settings.spfMaxDnsQueries zone senderDomain {} with
    | (none, st) => some (.ok false, st.queries)
    | (some spf, st) =>
      -- `parse_spf` counts from 0 again
      (parseSpf sets settings.spfMaxDnsQueries zone depth senderDomain (some spf)
        { st with returnedIps := [], numQueries := 0 }).map fun (ips, st) =>
          (isListed ip ips, st.queries)

end IRedAPD.Dnsspf

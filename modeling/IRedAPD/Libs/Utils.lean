/-
  `libs/utils.py`: what an address is, the policy addresses of an address, and
  the tests of client addresses.
-/
import IRedAPD.Libs.Constants
import IRedAPD.Libs.Regxes
import IRedAPD.Libs.Settings
import IRedAPD.Py.IpAddress

namespace IRedAPD

open Py Py.Regex Regxes

variable [Unicode]

/-! ### Addresses -/

/-- `is_email` -/
def isEmail (s : Str) : Bool :=
  let s := strip s
  !(s.any fun c => "~!$%^*() ".toList.contains c) && reMatch cmpEmail s

/-- `is_tld_domain` -/
def isTldDomain (s : Str) : Bool := reMatch cmpTopLevelDomain s

/-- `is_domain` -/
def isDomain (s : Str) : Bool :=
  if (s.any fun c => "~!#$%^&*()+\\/ ".toList.contains c) || !s.contains '.' then false
  else reMatch cmpDomain s

/-- `is_wildcard_addr` -/
def isWildcardAddr (s : Str) : Bool := reMatch regxWildcardAddr s

/-- `is_ipv4` -/
def isIpv4 (s : Str) : Bool := reMatchEnd regxIpv4 s

/-- `is_ip`: an address or a network. -/
def isIp (s : Str) : Bool :=
  if '/' ∈ s then reMatchEnd regxIpv4Cidr s || reMatchEnd regxIpv6Cidr s
  else reMatchEnd regxIpv4 s || reMatch regxIpv6 s

/-- `is_wildcard_ipv4` -/
def isWildcardIpv4 (s : Str) : Bool := reMatchEnd regxWildcardIpv4 s

/-- `is_strict_ip` -/
def isStrictIp (s : Str) : Bool := (ipAddress s).isSome

/-- `is_cidr_network` -/
def isCidrNetwork (s : Str) : Bool := (ipNetwork s).isSome

/-- The types `is_valid_amavisd_address` tells apart. -/
inductive AddressType where
  | catchall
  | subdomain
  | topLevelDomain
  | catchallIp
  | domain
  | email
  | wildcardAddr
  | ip
  | cidrNetwork
  | wildcardIp
  deriving DecidableEq, Repr

/-- `is_valid_amavisd_address`, `none` for `False`. -/
def isValidAmavisdAddress (addr : Str) : Option AddressType :=
  if startsWith addr "@." then
    if addr = "@.".toList then some .catchall
    else
      let domain := splitLast "@." addr
      if isDomain domain then some .subdomain
      else if isTldDomain domain then some .topLevelDomain
      else none
  else if startsWith addr "@" then
    if addr = "@ip".toList then some .catchallIp
    else
      let domain := splitLast "@" addr
      if isDomain domain then some .domain else none
  else if isEmail addr then some .email
  else if isWildcardAddr addr then some .wildcardAddr
  else if isStrictIp addr then some .ip
  else if isCidrNetwork addr then some .cidrNetwork
  else if isWildcardIpv4 addr then some .wildcardIp
  else none

/-- The text `is_valid_amavisd_address` returns. -/
def AddressType.name : AddressType → Str
  | catchall => "catchall"
  | subdomain => "subdomain"
  | topLevelDomain => "top_level_domain"
  | catchallIp => "catchall_ip"
  | domain => "domain"
  | email => "email"
  | wildcardAddr => "wildcard_addr"
  | ip => "ip"
  | cidrNetwork => "cidr_network"
  | wildcardIp => "wildcard_ip"

/-- `MAILADDR_PRIORITIES` -/
def mailaddrPriorities : Dict Str ℤ :=
  [("email".toList, 10), ("ip".toList, 9), ("wildcard_ip".toList, 8), ("cidr_network".toList, 7),
    ("wildcard_addr".toList, 7), ("domain".toList, 5), ("subdomain".toList, 3),
    ("top_level_domain".toList, 2), ("catchall_ip".toList, 1), ("catchall".toList, 0)]

/-- `get_account_priority` -/
def getAccountPriority (account : Str) : ℤ :=
  match isValidAmavisdAddress account with
  | some t => (accountPriorities.get? t.name).getD 0
  -- `False` is no key
  | none => 0

/-- `get_policy_addresses_from_email` -/
def getPolicyAddressesFromEmail (mail : Str) : List Str :=
  if !isEmail mail then ["@."]
  else
    let domain := splitLast "@" mail
    let domainParts := domain.splitOn '.'
    [mail, '@' :: domain, "@."] ++
      domainParts.tails.dropLast.map fun sub => "@.".toList ++ join "." sub

/-- `strip_mail_ext_address` -/
def stripMailExtAddress (settings : Settings) (mail : Str) : Str :=
  if !isEmail mail then mail
  else
    let origUser := splitFirst "@" mail
    let domain := splitLast "@" mail
    match settings.recipientDelimiters.findSome? fun d => splitOnce d origUser with
    | some (user, _) => user ++ '@' :: domain
    | none => mail

/-! ### Client addresses -/

/-- The fields of an IPv4 address with those from `i` to `j` replaced by `*`. -/
def starFields (ip4 : List Str) (i j : ℕ) : Str :=
  join "." (ip4.mapIdx fun k field => if i ≤ k ∧ k ≤ j then "*" else field)

/-- `wildcard_ipv4` -/
def wildcardIpv4 (settings : Settings) (s : Str) : List Str :=
  if isIpv4 s then
    let ip4 := s.splitOn '.'
    if settings.enableAllWildcardIp then
      (List.range 4).flatMap fun i => (List.range (4 - i)).map fun j => starFields ip4 i (i + j)
    else
      -- 11.22.33.* and 11.22.*.44
      [join "." (ip4.take 3) ++ ".*".toList, join "." (ip4.take 2) ++ ".*.".toList ++ ip4.getD 3 []]
  else []

/-- `TRUSTED_IPS` -/
def trustedIps (settings : Settings) : List Str := settings.myNetworks.filter fun ip => '/' ∉ ip

/-- `TRUSTED_NETWORKS` -/
def trustedNetworks (settings : Settings) : List IpNetwork :=
  (settings.myNetworks.filter fun ip => '/' ∈ ip).filterMap ipNetwork

/-- `is_trusted_client` -/
def isTrustedClient (settings : Settings) (clientAddress : Str) : Except Exn Bool :=
  if ["127.0.0.1".toList, "::1".toList].contains clientAddress then .ok true
  else if (trustedIps settings).contains clientAddress then .ok true
  else if (wildcardIpv4 settings clientAddress).any (trustedIps settings).contains then .ok true
  else
    match ipAddress clientAddress with
    | none => .error .valueError
    | some ip => .ok ((trustedNetworks settings).any fun net => net.contains ip)

end IRedAPD

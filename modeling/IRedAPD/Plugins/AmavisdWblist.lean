/-
  `plugins/amavisd_wblist.py`

  The plugin only reads: both databases are read-only functions of the world.
-/
import IRedAPD.Libs.Amavisd
import IRedAPD.Libs.Modeler
import IRedAPD.Libs.Utils
import IRedAPD.Py.SetOrder
import IRedAPD.Sql.Like

namespace IRedAPD.AmavisdWblist

open Py

variable [Unicode] {ω : Type*}

/-- What the plugin calls. -/
structure Calls (ω : Type*) where
  engineAmavisd : Option (AmavisdConn ω)
  /-- `get_alias_target_domain(alias_domain=...)` -/
  getAliasTargetDomain : Str → ω → Except Exn (Option Str)
  /-- `is_local_domain(domain=..., include_alias_domain=False)` -/
  isLocalDomain : Str → ω → Except Exn Bool
  /-- the order of `_ip_networks` -/
  ipNetworks : SetOrder (ℕ × IpNetwork)

/-- `reject_action` -/
def rejectAction (settings : Settings) : Str :=
  if settings.wblistDiscardInsteadOfReject then SmtpActions.discard
  else SmtpActions.rejectBlacklisted

/-- The rows of `mailaddr` that `get_id_of_possible_cidr_network` selects: those whose text starts
like the address. -/
def possibleCidrs (mailaddr : List AmavisdAddress) (clientAddress : Str) : List AmavisdAddress :=
  let firstField := (clientAddress.splitOn '.').headD []
  orderByPriority (mailaddr.filter fun r => Sql.like (firstField ++ ".%%".toList) r.email)

/-- `get_id_of_possible_cidr_network` -/
def getIdOfPossibleCidrNetwork (calls : Calls ω) (conn : AmavisdConn ω) (clientAddress : Str)
    (w : ω) : List ℕ :=
  match ipAddress clientAddress with
  | some ⟨.v4, ip⟩ =>
    match conn.mailaddr w with
    | .error _ => []
    | .ok mailaddr =>
      let networks := (possibleCidrs mailaddr clientAddress).filterMap fun r =>
        (ipNetwork r.email).map fun net => (r.id, net)
      ((calls.ipNetworks.order networks).filter fun (_, net) => net.contains ⟨.v4, ip⟩).map Prod.fst
  | some ⟨.v6, _⟩ => []
  -- no address, or no valid one
  | none => []

/-- `get_id_of_external_addresses` -/
def getIdOfExternalAddresses (conn : AmavisdConn ω) (addresses : List Str) (w : ω) : List ℕ :=
  if addresses.isEmpty then []
  else
    match conn.mailaddr w with
    | .error _ => []
    | .ok mailaddr =>
      (orderByPriority (mailaddr.filter fun r => addresses.contains r.email)).map (·.id)

/-- `get_id_of_local_addresses` -/
def getIdOfLocalAddresses (conn : AmavisdConn ω) (addresses : List Str) (w : ω) : List ℕ :=
  match conn.users w with
  | .error _ => []
  | .ok users => (orderByPriority (users.filter fun r => addresses.contains r.email)).map (·.id)

/-- `SELECT rid, sid, wb FROM ... WHERE sid IN ... AND rid IN ...` -/
def selectWblist (rows : List Wblist) (senderIds recipientIds : List ℕ) : List Wblist :=
  rows.filter fun r => senderIds.contains r.sid && recipientIds.contains r.rid

/-- `apply_inbound_wblist` -/
def applyInboundWblist (settings : Settings) (conn : AmavisdConn ω) (senderIds recipientIds : List ℕ)
    (w : ω) : Except Exn Str := do
  if senderIds.isEmpty || recipientIds.isEmpty then
    return SmtpActions.defaultAction
  let wblists := selectWblist (← conn.wblist w) senderIds recipientIds
  if wblists.isEmpty then
    return SmtpActions.defaultAction
  let found := recipientIds.findSome? fun rid => senderIds.findSome? fun sid =>
    if wblists.contains ⟨rid, sid, "W"⟩ then some SmtpActions.whitelist
    else if wblists.contains ⟨rid, sid, "B"⟩ then some (rejectAction settings)
    else none
  return found.getD SmtpActions.defaultAction

/-- `' outbound_wblist=({}, {}, 'W')'` after the default action. -/
def outboundWhitelisted (rid sid : ℕ) : Str :=
  SmtpActions.defaultAction ++ " outbound_wblist=(".toList ++ natStr rid ++ ", ".toList ++
    natStr sid ++ ", 'W')".toList

/-- What `apply_outbound_wblist` finds for one sender and one recipient. -/
def outboundEntry (settings : Settings) (wblists : List Wblist) (sid rid : ℕ) : Option Str :=
  if wblists.contains ⟨rid, sid, "W"⟩ then some (outboundWhitelisted rid sid)
  else if wblists.contains ⟨rid, sid, "B"⟩ then some (rejectAction settings)
  else none

/-- `apply_outbound_wblist` -/
def applyOutboundWblist (settings : Settings) (conn : AmavisdConn ω) (senderIds recipientIds : List ℕ)
    (w : ω) : Except Exn Str := do
  if senderIds.isEmpty || recipientIds.isEmpty then
    return SmtpActions.defaultAction
  if settings.wblistBypassOutgoingEmail then
    return SmtpActions.defaultAction
  let wblists := selectWblist (← conn.outboundWblist w) senderIds recipientIds
  if wblists.isEmpty then
    return SmtpActions.defaultAction
  let found := senderIds.findSome? fun sid => recipientIds.findSome? (outboundEntry settings wblists sid)
  return found.getD SmtpActions.defaultAction

/-- `sender` and `sender_domain`: the authenticated user is the sender of an outgoing message. -/
def senderOf (kwargs : PluginKwargs) : Str × Str :=
  if kwargs.saslUsername ≠ [] then (kwargs.saslUsername, kwargs.saslUsernameDomain)
  else (kwargs.senderWithoutExt, kwargs.senderDomain)

/-- The policy addresses of an address under the target of its alias domain. -/
def aliasAddresses (target : Option Str) (mail : Str) : List Str :=
  match target with
  | none => []
  | some target =>
    if target = [] then []
    else getPolicyAddressesFromEmail (splitFirst "@" mail ++ '@' :: target)

/-- `valid_senders`, with the target of the alias domain of the sender. -/
def validSenders (settings : Settings) (kwargs : PluginKwargs) (target : Option Str) : List Str :=
  let sender := (senderOf kwargs).1
  let senderUsername := splitFirst "@" sender
  let wildcard : List Str :=
    if kwargs.saslUsername ≠ [] then []
    else if '+' ∈ senderUsername then [splitFirst "+" senderUsername ++ "@*".toList]
    else [senderUsername ++ "@*".toList]
  getPolicyAddressesFromEmail sender ++ wildcard ++ [kwargs.clientAddress] ++
    wildcardIpv4 settings kwargs.clientAddress ++ aliasAddresses target sender

/-- `valid_recipients`, with the target of the alias domain of the recipient. -/
def validRecipients (kwargs : PluginKwargs) (target : Option Str) : List Str :=
  getPolicyAddressesFromEmail kwargs.recipientWithoutExt ++
    aliasAddresses target kwargs.recipientWithoutExt

/-- The ids of the outbound check: the local addresses of the sender, the networks of the client,
and the addresses of the recipient. -/
def outboundIds (calls : Calls ω) (conn : AmavisdConn ω) (clientAddress : Str)
    (senders recipients : List Str) (w : ω) : List ℕ × List ℕ × List ℕ :=
  let localIds := getIdOfLocalAddresses conn senders w
  if localIds.isEmpty then ([], [], [])
  else
    (localIds, getIdOfPossibleCidrNetwork calls conn clientAddress w,
      getIdOfExternalAddresses conn recipients w)

/-- The outbound check of `restriction`. -/
def checkOutbound (settings : Settings) (calls : Calls ω) (conn : AmavisdConn ω) (clientAddress : Str)
    (senders recipients : List Str) (w : ω) : Except Exn Str :=
  let (localIds, cidrIds, externalIds) := outboundIds calls conn clientAddress senders recipients w
  applyOutboundWblist settings conn (localIds ++ cidrIds) externalIds w

/-- The inbound check of `restriction`.  An outbound check that has asked for the networks of the
client has left the same ones, and one that has not has left none. -/
def checkInbound (settings : Settings) (calls : Calls ω) (conn : AmavisdConn ω) (clientAddress : Str)
    (senders recipients : List Str) (w : ω) : Except Exn Str :=
  let localIds := getIdOfLocalAddresses conn recipients w
  let (cidrIds, externalIds) :=
    if localIds.isEmpty then ([], [])
    else (getIdOfPossibleCidrNetwork calls conn clientAddress w,
      getIdOfExternalAddresses conn senders w)
  applyInboundWblist settings conn (externalIds ++ cidrIds) localIds w

/-- `restriction` from `check_inbound` on. -/
def applyInbound (settings : Settings) (calls : Calls ω) (conn : AmavisdConn ω) (kwargs : PluginKwargs)
    (rcptTarget : Option Str) (senders recipients : List Str) (w : ω) : Except Exn Str := do
  let isInbound ←
    if kwargs.saslUsername = [] ∨ (senderOf kwargs).2 = kwargs.recipientDomain then pure true
    else
      let rcptDomainIsLocal ← calls.isLocalDomain kwargs.recipientDomain w
      pure (rcptTarget.any (· ≠ []) || rcptDomainIsLocal)
  if isInbound then
    let action ← checkInbound settings calls conn kwargs.clientAddress senders recipients w
    if startsWith action "DUNNO" = false then
      return action
  return SmtpActions.defaultAction

/-- `restriction` from the outbound check on. -/
def applyWblist (settings : Settings) (calls : Calls ω) (conn : AmavisdConn ω) (kwargs : PluginKwargs)
    (rcptTarget : Option Str) (senders recipients : List Str) (w : ω) : Except Exn Str := do
  if kwargs.saslUsername ≠ [] then
    let action ← checkOutbound settings calls conn kwargs.clientAddress senders recipients w
    if startsWith action "DUNNO" = false then
      return action
  applyInbound settings calls conn kwargs rcptTarget senders recipients w

/-- `restriction` -/
def restriction (settings : Settings) (calls : Calls ω) (kwargs : PluginKwargs) (w : ω) :
    Except Exn Str :=
  match calls.engineAmavisd with
  | none => .ok SmtpActions.defaultAction
  | some conn => do
    let (sender, senderDomain) := senderOf kwargs
    if sender = [] then
      return SmtpActions.defaultAction
    if sender = kwargs.recipientWithoutExt then
      return SmtpActions.defaultAction
    let senderTarget ← calls.getAliasTargetDomain senderDomain w
    let rcptTarget ← calls.getAliasTargetDomain kwargs.recipientDomain w
    applyWblist settings calls conn kwargs rcptTarget (validSenders settings kwargs senderTarget)
      (validRecipients kwargs rcptTarget) w

/-- The plugin, which sets `SMTP_PROTOCOL_STATE` to `['RCPT']`. -/
def plugin (settings : Settings) (calls : Calls ω) : Plugin ω where
  smtpProtocolState := some ["RCPT"]
  restriction kwargs w := ((restriction settings calls kwargs w).map some, w)

end IRedAPD.AmavisdWblist

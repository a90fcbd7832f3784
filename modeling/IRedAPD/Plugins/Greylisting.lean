/-
  `plugins/greylisting.py`

  The whitelists, the greylisting settings and what other modules answer are
  part of what a call finds (`Env`), as is the clock; `greylisting_tracking` is
  the state.  `restriction` is cut where the tracking table is first looked at:
  `bypass` are the steps before, `checkTracking` those after.
-/
import IRedAPD.Libs.Modeler
import IRedAPD.Libs.Utils
import IRedAPD.Sql.Table
import Mathlib.Data.List.Sort

namespace IRedAPD.Greylisting

open Py

variable [Unicode]

/-! ### Tables -/

/-- A row of `greylisting_whitelists` or `greylisting_whitelist_domain_spf`. -/
structure Whitelist where
  account : Str
  sender : Str
  deriving DecidableEq

/-- A row of `greylisting`. -/
structure Setting where
  account : Str
  priority : ℤ
  sender : Str
  senderPriority : ℤ
  active : ℤ
  deriving DecidableEq

/-- A row of `greylisting_tracking`, less its id. -/
structure Tracking where
  sender : Str
  senderDomain : Str
  recipient : Str
  rcptDomain : Str
  clientAddress : Str
  initTime : ℤ
  blockExpired : ℤ
  recordExpired : ℤ
  blockedCount : ℤ
  passed : Bool := false
  deriving DecidableEq

/-- A triplet: sender, recipient and client address. -/
abbrev Triplet := Str × Str × Str

/-- The unique index. -/
def Tracking.key (r : Tracking) : Triplet := (r.sender, r.recipient, r.clientAddress)

/-- `greylisting_tracking` -/
abbrev TrackingTable := Sql.Table Tracking.key

/-! ### The call -/

/-- The SQL statements of the plugin. -/
inductive Statement where
  | selectWhitelistDomainSpf
  | selectWhitelists
  | selectGreylisting
  | selectPassed
  | updatePassed
  | selectTracking
  | insertTracking
  | updateExpired
  | updateBlocked
  /-- `updateBlocked` once more -/
  | updateBlockedAgain
  | updateAccepted
  | deleteTracking
  deriving DecidableEq

/-- What a call finds: the clock, the tables it only reads, the answers of other modules, and which
statements fail. -/
structure Env where
  /-- `int(time.time())` -/
  now : ℤ
  whitelistDomainSpf : List Whitelist
  whitelists : List Whitelist
  greylisting : List Setting
  /-- `get_alias_target_domain(alias_domain=...)` -/
  getAliasTargetDomain : Str → Except Exn (Option Str)
  /-- `dnsspf.is_allowed_server_in_spf(sender_domain=..., ip=...)` -/
  isAllowedServerInSpf : Str → Str → Except Exn Bool
  /-- whether a statement fails, besides an insert of a triplet that exists -/
  fails : Statement → Bool

/-! ### Whitelists and settings -/

/-- `SELECT LOWER(sender) FROM ... WHERE account IN ...` -/
def whitelistsOf (rows : List Whitelist) (recipients : List Str) : List Str :=
  (rows.filter fun r => recipients.contains r.account).map fun r => Unicode.lower r.sender

/-- The client or one of the senders is listed. -/
def isListed (senders : List Str) (clientAddress : Str) (wls : List Str) : Bool :=
  wls.contains clientAddress || senders.any wls.contains

/-- The client is in the network, if it is one. -/
def inNetwork (ip : IpAddress) (cidr : Str) : Bool :=
  match ipNetwork cidr with
  | some net => net.contains ip
  | none => false

/-- `_cidrs` -/
def cidrs (clientAddress : Str) (ip : IpAddress) (whitelists : List Str) : List Str :=
  match ip.version with
  | .v4 => whitelists.filter fun cidr =>
    startsWith cidr (splitFirst "." clientAddress ++ ".".toList) && cidr.contains '/'
  | .v6 => whitelists.filter fun cidr =>
    startsWith cidr (splitFirst ":" clientAddress ++ ":".toList) && (splitOnce ":/" cidr).isSome

/-- `_is_whitelisted` -/
def isWhitelisted (env : Env) (senders recipients : List Str) (clientAddress : Str) (ip : IpAddress) :
    Except Exn Bool :=
  if env.fails .selectWhitelistDomainSpf then .error .operationalError
  else
    let ofDomainSpf := whitelistsOf env.whitelistDomainSpf recipients
    if isListed senders clientAddress ofDomainSpf then .ok true
    else if env.fails .selectWhitelists then .error .operationalError
    else
      let ofTable := whitelistsOf env.whitelists recipients
      if isListed senders clientAddress ofTable then .ok true
      else .ok ((cidrs clientAddress ip (ofDomainSpf ++ ofTable)).any (inNetwork ip))

/-- `SELECT ... FROM greylisting WHERE account IN ... ORDER BY priority DESC, sender_priority DESC` -/
def greylistingRecords (rows : List Setting) (recipients : List Str) : List Setting :=
  (rows.filter fun r => recipients.contains r.account).insertionSort fun a b =>
    b.priority < a.priority ∨ (b.priority = a.priority ∧ b.senderPriority ≤ a.senderPriority)

/-- `_matched` -/
def Setting.matchesSender (r : Setting) (senders : List Str) (clientAddress : Str) (ip : IpAddress) :
    Bool :=
  senders.contains r.sender ||
    (some r.senderPriority == accountPriorities.get? "cidr" && ip.version == .v4 &&
      r.sender.contains '/' && startsWith r.sender (splitFirst "." clientAddress ++ ".".toList) &&
      inNetwork ip r.sender)

/-- `_should_be_greylisted_by_setting` -/
def shouldBeGreylistedBySetting (env : Env) (recipients senders : List Str) (clientAddress : Str)
    (ip : IpAddress) : Except Exn Bool :=
  if env.fails .selectGreylisting then .error .operationalError
  else
    match (greylistingRecords env.greylisting recipients).find?
      (·.matchesSender senders clientAddress ip) with
    | some r => .ok (r.active == 1)
    | none => .ok false

/-! ### Tracking -/

/-- `_client_address_passed_in_tracking` -/
def clientAddressPassedInTracking (env : Env) (clientAddress : Str) (t : TrackingTable) :
    Except Exn Bool :=
  if env.fails .selectPassed then .error .operationalError
  else .ok (t.rows.any fun row => row.2.clientAddress = clientAddress ∧ row.2.passed = true)

/-- `block_expired` -/
def blockExpire (settings : Settings) (now : ℤ) : ℤ := now + settings.greylistingBlockExpire * 60

/-- `unauth_triplet_expire` -/
def unauthTripletExpire (settings : Settings) (now : ℤ) : ℤ :=
  now + settings.greylistingUnauthTripletExpire * 24 * 60 * 60

/-- `auth_triplet_expire` -/
def authTripletExpire (settings : Settings) (now : ℤ) : ℤ :=
  now + settings.greylistingAuthTripletExpire * 24 * 60 * 60

/-- The row of a triplet that is seen for the first time. -/
def newTracking (settings : Settings) (now : ℤ) (sender senderDomain recipient recipientDomain
    clientAddress : Str) : Tracking where
  sender := sender
  senderDomain := senderDomain
  recipient := recipient
  rcptDomain := recipientDomain
  clientAddress := clientAddress
  initTime := now
  blockExpired := blockExpire settings now
  recordExpired := unauthTripletExpire settings now
  blockedCount := 1

/-- An expired row is updated as first seen. -/
def Tracking.reset (settings : Settings) (now : ℤ) (r : Tracking) : Tracking :=
  { r with
    blockedCount := 1
    initTime := now
    blockExpired := blockExpire settings now
    recordExpired := unauthTripletExpire settings now }

/-- The client has retried too soon. -/
def Tracking.block (r : Tracking) : Tracking := { r with blockedCount := r.blockedCount + 1 }

/-- The client has passed. -/
def Tracking.accept (settings : Settings) (now : ℤ) (r : Tracking) : Tracking :=
  { r with recordExpired := authTripletExpire settings now, passed := true }

/-- A client that has passed is seen again. -/
def Tracking.refresh (settings : Settings) (now : ℤ) (r : Tracking) : Tracking :=
  { r with recordExpired := authTripletExpire settings now }

omit [Unicode] in
theorem Tracking.key_reset (settings : Settings) (now : ℤ) (r : Tracking) :
    (r.reset settings now).key = r.key := rfl

omit [Unicode] in
theorem Tracking.key_block (r : Tracking) : r.block.key = r.key := rfl

omit [Unicode] in
theorem Tracking.key_accept (settings : Settings) (now : ℤ) (r : Tracking) :
    (r.accept settings now).key = r.key := rfl

omit [Unicode] in
theorem Tracking.key_refresh (settings : Settings) (now : ℤ) (r : Tracking) :
    (r.refresh settings now).key = r.key := rfl

/-- `UPDATE greylisting_tracking SET ... WHERE sender=... AND recipient=... AND client_address=...` -/
def updateTriplet (t : TrackingTable) (k : Triplet) (f : Tracking → Tracking)
    (hf : ∀ r, (f r).key = r.key) : TrackingTable := t.update (fun row => row.2.key = k) f hf

/-- `UPDATE ... SET blocked_count=blocked_count + 1`, which is tried twice. -/
def updateBlocked (env : Env) (k : Triplet) (t : TrackingTable) : Except Exn Bool × TrackingTable :=
  if env.fails .updateBlocked && env.fails .updateBlockedAgain then (.error .operationalError, t)
  else (.ok true, updateTriplet t k Tracking.block Tracking.key_block)

/-- The client has passed the greylisting: failures are logged. -/
def acceptTriplet (settings : Settings) (env : Env) (k : Triplet) (clientAddress : Str)
    (t : TrackingTable) : TrackingTable :=
  let t := if env.fails .updateAccepted then t
    else updateTriplet t k (Tracking.accept settings env.now) (Tracking.key_accept settings env.now)
  if env.fails .deleteTracking then t
  else t.delete fun row => row.2.clientAddress = clientAddress ∧ row.2.passed = false

/-- `_should_be_greylisted_by_tracking` -/
def shouldBeGreylistedByTracking (settings : Settings) (env : Env) (sender senderDomain recipient
    recipientDomain clientAddress : Str) (t : TrackingTable) : Except Exn Bool × TrackingTable :=
  let k := (sender, recipient, clientAddress)
  match if env.fails .selectTracking then none else t.find? k with
  | none =>
    -- a failed insert is logged
    if env.fails .insertTracking then (.ok true, t)
    else
      let r := newTracking settings env.now sender senderDomain recipient recipientDomain clientAddress
      -- an `IntegrityError` is passed over
      (.ok true, (t.insert r).getD t)
  | some (_, r) =>
    if r.recordExpired < env.now then
      if env.fails .updateExpired then (.error .operationalError, t)
      else (.ok true,
        updateTriplet t k (Tracking.reset settings env.now) (Tracking.key_reset settings env.now))
    else if env.now < r.blockExpired then updateBlocked env k t
    else if authTripletExpire settings env.now < r.recordExpired then (.ok false, t)
    else (.ok false, acceptTriplet settings env k clientAddress t)

/-! ### `restriction` -/

/-- `action_greylisting` -/
def actionGreylisting (settings : Settings) : Str :=
  SmtpActions.greylisting ++ " ".toList ++ settings.greylistingMessage

/-- `policy_recipients` -/
def policyRecipients (recipient : Str) (target : Option Str) : List Str :=
  let ofTarget :=
    match target with
    | none => []
    | some target =>
      if target = [] then []
      else getPolicyAddressesFromEmail (splitFirst "@" recipient ++ '@' :: target)
  getPolicyAddressesFromEmail recipient ++ ofTarget

/-- `policy_senders`; adding a text to a list adds its characters. -/
def policySenders (sender clientAddress : Str) : List Str :=
  getPolicyAddressesFromEmail sender ++ [clientAddress] ++
    if isIpv4 clientAddress then (rsplitFirst '.' clientAddress ++ ".*".toList).map ([·]) else []

/-- `restriction` up to the SPF check: `true` when the message is not tracked. -/
def bypass (settings : Settings) (env : Env) (kwargs : PluginKwargs) : Except Exn Bool := do
  if kwargs.saslUsername ≠ [] then return true
  if ← isTrustedClient settings kwargs.clientAddress then return true
  let target ← env.getAliasTargetDomain kwargs.recipientDomain
  let recipients := policyRecipients kwargs.recipientWithoutExt target
  let senders := policySenders kwargs.senderWithoutExt kwargs.clientAddress
  match ipAddress kwargs.clientAddress with
  -- `ipaddress.ip_address(client_address)`
  | none => throw .valueError
  | some ip =>
    if ← isWhitelisted env senders recipients kwargs.clientAddress ip then return true
    if !(← shouldBeGreylistedBySetting env recipients senders kwargs.clientAddress ip) then return true
    if !settings.greylistingBypassSpf then return false
    if kwargs.senderDomain = settings.srsDomain then return false
    env.isAllowedServerInSpf kwargs.senderDomain kwargs.clientAddress

/-- `restriction` from the tracking of passed clients on. -/
def checkTracking (settings : Settings) (env : Env) (kwargs : PluginKwargs) (t : TrackingTable) :
    Except Exn Str × TrackingTable :=
  match clientAddressPassedInTracking env kwargs.clientAddress t with
  | .error e => (.error e, t)
  | .ok true =>
    if env.fails .updatePassed then (.error .operationalError, t)
    else
      (.ok SmtpActions.defaultAction,
        t.update (fun row => row.2.clientAddress = kwargs.clientAddress ∧ row.2.passed = true)
          (Tracking.refresh settings env.now) (Tracking.key_refresh settings env.now))
  | .ok false =>
    match shouldBeGreylistedByTracking settings env kwargs.senderWithoutExt kwargs.senderDomain
      kwargs.recipientWithoutExt kwargs.recipientDomain kwargs.clientAddress t with
    | (.error e, t) => (.error e, t)
    | (.ok true, t) =>
      if settings.greylistingTrainingMode then (.ok SmtpActions.defaultAction, t)
      else (.ok (actionGreylisting settings), t)
    | (.ok false, t) => (.ok SmtpActions.defaultAction, t)

/-- `restriction` -/
def restriction (settings : Settings) (env : Env) (kwargs : PluginKwargs) (t : TrackingTable) :
    Except Exn Str × TrackingTable :=
  match bypass settings env kwargs with
  | .error e => (.error e, t)
  | .ok true => (.ok SmtpActions.defaultAction, t)
  | .ok false => checkTracking settings env kwargs t

end IRedAPD.Greylisting

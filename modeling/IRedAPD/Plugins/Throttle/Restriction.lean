/-
  `restriction` of `plugins/throttle.py`

  A request is throttled for its sender and then for its recipient, by two calls
  of `apply_throttle` one after the other, each with what it finds.
-/
import IRedAPD.Plugins.Throttle

namespace IRedAPD.Throttle

open Py

variable [Unicode]

/-- `size` and `recipient_count`; an empty size is 0. -/
def sessionSizes (session : Session) : Except Exn (ℤ × ℤ) := do
  let size ← (session.get? "size").elim (.error .keyError) .ok
  let recipientCount ← (session.get? "recipient_count").elim (.error .keyError) parseInt
  let size ← if size = [] then pure 0 else parseInt size
  return (size, recipientCount)

/-- The arguments of the call for the sender: the SASL username or else the sender address. -/
def senderArgs (kwargs : PluginKwargs) (size recipientCount : ℤ) : Args where
  user := if kwargs.saslUsername = [] then kwargs.senderWithoutExt else kwargs.saslUsername
  clientAddress := kwargs.clientAddress
  size
  recipientCount
  isSenderThrottling := true
  -- email from localhost is outbound
  isExternalSender := kwargs.saslUsername = [] &&
    !(["127.0.0.1".toList, "::1".toList].contains kwargs.clientAddress)

/-- The arguments of the call for the recipient. -/
def recipientArgs (kwargs : PluginKwargs) (size recipientCount : ℤ) : Args where
  user := kwargs.recipientWithoutExt
  clientAddress := kwargs.clientAddress
  size
  recipientCount
  isSenderThrottling := false

/-- The two calls of a request, when the sender is not bypassed. -/
def throttleBoth (settings : Settings) (throttle : List Setting) (senderEnv recipientEnv : Env)
    (kwargs : PluginKwargs) (size recipientCount : ℤ) (t : TrackingTable) : Output × TrackingTable :=
  let (o, t) := applyThrottle settings throttle (senderEnv, senderArgs kwargs size recipientCount) t
  match o.action with
  | .error _ => (o, t)
  | .ok action =>
    if !startsWith action "DUNNO" then (o, t)
    -- both sender and recipient are local
    else if kwargs.saslUsername ≠ [] ∧ settings.throttleBypassLocalRecipient then
      ({ o with action := .ok SmtpActions.defaultAction }, t)
    else
      let (o', t) :=
        applyThrottle settings throttle (recipientEnv, recipientArgs kwargs size recipientCount) t
      let action :=
        o'.action.map fun action => if !startsWith action "DUNNO" then action else SmtpActions.defaultAction
      (⟨action, o.mails ++ o'.mails, o.failed ++ o'.failed⟩, t)

/-- `restriction` -/
def restriction (settings : Settings) (throttle : List Setting) (senderEnv recipientEnv : Env)
    (kwargs : PluginKwargs) (t : TrackingTable) : Output × TrackingTable :=
  let senderDomain :=
    if kwargs.saslUsernameDomain = [] then kwargs.senderDomain else kwargs.saslUsernameDomain
  match sessionSizes kwargs.smtpSessionData with
  | .error e => (⟨.error e, [], []⟩, t)
  | .ok (size, recipientCount) =>
    if senderDomain = kwargs.recipientDomain ∧ settings.throttleBypassSameDomain then
      (⟨.ok SmtpActions.defaultAction, [], []⟩, t)
    else if settings.throttleBypassMynetworks then
      match isTrustedClient settings kwargs.clientAddress with
      | .error e => (⟨.error e, [], []⟩, t)
      | .ok true => (⟨.ok SmtpActions.defaultAction, [], []⟩, t)
      | .ok false => throttleBoth settings throttle senderEnv recipientEnv kwargs size recipientCount t
    else throttleBoth settings throttle senderEnv recipientEnv kwargs size recipientCount t

end IRedAPD.Throttle

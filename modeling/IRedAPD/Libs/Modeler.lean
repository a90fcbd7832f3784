/-
  `Modeler.handle_data` of `libs/sql/modeler.py` and `libs/ldaplib/modeler.py`,
  and `apply_plugin` of `libs/utils.py`.

  What the plugins read and change outside the session (databases, DNS, the
  clock) is a state `ω` that every call passes on.
-/
import IRedAPD.Libs.Constants

namespace IRedAPD

open Py

variable [Unicode] {ω : Type*}

/-- `smtp_session_data` -/
abbrev Session := Dict Str Str

/-- An LDAP entry as `utils.bytes2str` leaves it. -/
abbrev Ldif := Dict Str (List Str)

/-- `plugin_kwargs`, less the connections.  The LDIF data is filled in by the LDAP modeler only. -/
structure PluginKwargs where
  smtpSessionData : Session
  sender : Str
  senderWithoutExt : Str
  recipient : Str
  recipientWithoutExt : Str
  clientAddress : Str
  senderDomain : Str
  recipientDomain : Str
  saslUsername : Str
  saslUsernameDomain : Str
  senderDn : Option Str := none
  senderLdif : Option Ldif := none
  recipientDn : Option Str := none
  recipientLdif : Option Ldif := none

/-- A plugin module: the constants `None` stands for when it does not define them, and its
`restriction`, whose result may be `None`. -/
structure Plugin (ω : Type*) where
  smtpProtocolState : Option (List Str)
  requireLocalSender : Bool := false
  requireLocalRecipient : Bool := false
  restriction : PluginKwargs → ω → Except Exn (Option Str) × ω

/-- `apply_plugin`: an exception leaves the default action. -/
def applyPlugin (plugin : Plugin ω) (kwargs : PluginKwargs) (w : ω) : Option Str × ω :=
  match plugin.restriction kwargs w with
  | (.ok action, w) => (action, w)
  | (.error _, w) => (some SmtpActions.defaultAction, w)

/-- The loop of `handle_data` over the plugins.  `prepare` is what a modeler does to the keyword
arguments before it applies a plugin. -/
def applyPlugins (prepare : Plugin ω → PluginKwargs → ω → PluginKwargs × ω) (protocolState : Str) :
    List (Plugin ω) → PluginKwargs → ω → Except Exn Str × ω
  | [], _, w => (.ok SmtpActions.defaultAction, w)
  | plugin :: plugins, kwargs, w =>
    if protocolState ∉ plugin.smtpProtocolState.getD ["RCPT"] then
      applyPlugins prepare protocolState plugins kwargs w
    else
      let (kwargs, w) := prepare plugin kwargs w
      match applyPlugin plugin kwargs w with
      -- `None.startswith`
      | (none, w) => (.error .attributeError, w)
      | (some action, w) =>
        if startsWith action "DUNNO" then applyPlugins prepare protocolState plugins kwargs w
        else (.ok action, w)

/-- `smtp_session_data.get(k, '')` -/
def Session.getOrEmpty (s : Session) (k : Str) : Str := (s.get? k).getD []

/-- The body both modelers share. -/
def handleData (prepare : Plugin ω → PluginKwargs → ω → PluginKwargs × ω) (plugins : List (Plugin ω))
    (s : Session) (w : ω) : Except Exn Str × ω :=
  if plugins.isEmpty then (.ok (SmtpActions.defaultAction ++ " No enabled plugins".toList), w)
  else
    match s.get? "protocol_state", s.get? "sender_without_ext", s.get? "recipient_without_ext" with
    | some protocolState, some senderWithoutExt, some recipientWithoutExt =>
      let kwargs : PluginKwargs :=
        { smtpSessionData := s
          sender := s.getOrEmpty "sender"
          senderWithoutExt
          recipient := s.getOrEmpty "recipient"
          recipientWithoutExt
          clientAddress := s.getOrEmpty "client_address"
          senderDomain := s.getOrEmpty "sender_domain"
          recipientDomain := s.getOrEmpty "recipient_domain"
          saslUsername := s.getOrEmpty "sasl_username"
          saslUsernameDomain := s.getOrEmpty "sasl_username_domain" }
      applyPlugins prepare (Unicode.upper protocolState) plugins kwargs w
    -- the three are read with `smtp_session_data[..]`, the others with `get`
    | _, _, _ => (.error .keyError, w)

/-- `Modeler.handle_data` of the SQL backends. -/
def sqlHandleData (plugins : List (Plugin ω)) (s : Session) (w : ω) : Except Exn Str × ω :=
  handleData (fun _ kwargs w => (kwargs, w)) plugins s w

/-- `get_account_ldif` of `libs/ldaplib/conn_utils.py` without a filter of its own. -/
abbrev GetAccountLdif (ω : Type*) := Str → ω → (Option Str × Option Ldif) × ω

/-- Before a plugin: the LDIF data of the sender and of the recipient if it requires them. -/
def ldapPrepare (senderLdif recipientLdif : GetAccountLdif ω) (plugin : Plugin ω)
    (kwargs : PluginKwargs) (w : ω) : PluginKwargs × ω :=
  let (kwargs, w) :=
    if plugin.requireLocalSender ∧ kwargs.senderDn = none then
      let (r, w) := senderLdif kwargs.saslUsername w
      ({ kwargs with senderDn := r.1, senderLdif := r.2 }, w)
    else (kwargs, w)
  if plugin.requireLocalRecipient ∧ kwargs.recipientDn = none then
    let (r, w) := recipientLdif kwargs.recipient w
    ({ kwargs with recipientDn := r.1, recipientLdif := r.2 }, w)
  else (kwargs, w)

/-- `Modeler.handle_data` of the LDAP backend, over the searches for the sender's and the
recipient's attributes. -/
def ldapHandleData (senderLdif recipientLdif : GetAccountLdif ω) (plugins : List (Plugin ω))
    (s : Session) (w : ω) : Except Exn Str × ω :=
  handleData (ldapPrepare senderLdif recipientLdif) plugins s w

end IRedAPD

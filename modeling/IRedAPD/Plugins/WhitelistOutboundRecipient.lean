/-
  `plugins/whitelist_outbound_recipient.py`

  The plugin always answers with the default action; what the library returns
  is only logged, and part of the result here.
-/
import IRedAPD.Libs.Greylisting

namespace IRedAPD.WhitelistOutboundRecipient

open Py LibGl

variable [Unicode]

/-- What a run leaves: its result, what the library returned, and the tables. -/
structure Run where
  result : Except Exn Str
  log : List (Except Str Unit)
  tables : Tables

/-- The run ends with the default action. -/
def done (t : Tables) : Run := ⟨.ok SmtpActions.defaultAction, [], t⟩

/-- `_wl_account` -/
def wlAccount (settings : Settings) (kwargs : PluginKwargs) : Str :=
  if settings.wlRcptLocalAccount = "user".toList then kwargs.saslUsername
  else if settings.wlRcptLocalAccount = "domain".toList then kwargs.saslUsernameDomain
  else "@."

/-- `_wl_sender` -/
def wlSender (settings : Settings) (kwargs : PluginKwargs) : Str :=
  if settings.wlRcptRcpt = "domain".toList then kwargs.recipientDomain else kwargs.recipient

/-- What the library returned is logged. -/
def Run.submit (run : Run) (f : Tables → Except Str Unit × Tables) : Run :=
  let (qr, t) := f run.tables
  { run with log := run.log ++ [qr], tables := t }

/-- `restriction` -/
def restriction (settings : Settings) (engine : Engine) (isLocalDomain : Str → Except Exn Bool)
    (kwargs : PluginKwargs) (t : Tables) : Run :=
  if !(settings.wlRcptForGreylisting || settings.wlRcptWithoutSpf) then done t
  else if kwargs.saslUsername = [] then done t
  else if !isEmail kwargs.recipient then done t
  else if kwargs.saslUsernameDomain = kwargs.recipientDomain then done t
  else
    match isLocalDomain kwargs.recipientDomain with
    | .error e => ⟨.error e, [], t⟩
    | .ok true => done t
    | .ok false =>
      let run := done t
      let run :=
        if settings.wlRcptWithoutSpf then
          run.submit (addWhitelistSender engine (wlAccount settings kwargs) (wlSender settings kwargs) [])
        else run
      if settings.wlRcptForGreylisting then
        if settings.wlRcptWhitelistDomainForGreylisting then
          run.submit (addWhitelistDomain engine kwargs.recipientDomain)
        else
          run.submit (addWhitelistSender engine kwargs.saslUsername kwargs.recipient "AUTO-WHITELISTED")
      else run

/-- The plugin, which sets `SMTP_PROTOCOL_STATE` to `['END-OF-MESSAGE']`. -/
def plugin (settings : Settings) (engine : Engine) (isLocalDomain : Str → Except Exn Bool) :
    Plugin Tables where
  smtpProtocolState := some ["END-OF-MESSAGE"]
  restriction kwargs t :=
    let run := restriction settings engine isLocalDomain kwargs t
    (run.result.map some, run.tables)

end IRedAPD.WhitelistOutboundRecipient

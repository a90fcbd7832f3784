/-
  `plugins/reject_null_sender.py` and `plugins/reject_to_hostname.py`, the two
  plugins that need neither a table nor a name server.
-/
import IRedAPD.Libs.Modeler
import IRedAPD.Libs.Utils

namespace IRedAPD

open Py

namespace RejectNullSender

/-- `SMTP_ACTIONS['reject_null_sender']` -/
def rejectNullSender : Str := "REJECT Policy rejection due to null sender"

/-- `restriction` -/
def restriction (kwargs : PluginKwargs) : Except Exn Str :=
  if kwargs.saslUsername ≠ [] ∧ kwargs.sender = [] then .ok rejectNullSender
  else .ok SmtpActions.defaultAction

end RejectNullSender

namespace RejectToHostname

/-- `restriction`; `server_hostname` is what `socket.gethostname()` has returned. -/
def restriction (settings : Settings) (serverHostname : Str) (kwargs : PluginKwargs) :
    Except Exn Str :=
  if kwargs.saslUsername ≠ [] then .ok SmtpActions.defaultAction
  else
    match isTrustedClient settings kwargs.clientAddress with
    | .error e => .error e
    | .ok true => .ok SmtpActions.defaultAction
    | .ok false =>
      if kwargs.recipientDomain = serverHostname then
        if !(startsWith kwargs.recipient "srs0=" || startsWith kwargs.recipient "srs1=") then
          .ok SmtpActions.rejectNotAuthorized
        else .ok SmtpActions.defaultAction
      else .ok SmtpActions.defaultAction

end RejectToHostname

end IRedAPD

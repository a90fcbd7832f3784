/-
  The constants of `libs/__init__.py`.
-/
import IRedAPD.Py.Dict
import IRedAPD.Py.Str

namespace IRedAPD

open Py

/-! ### `SMTP_ACTIONS` -/

namespace SmtpActions

/-- `SMTP_ACTIONS['default']` -/
def defaultAction : Str := "DUNNO"

/-- `SMTP_ACTIONS['whitelist']` -/
def whitelist : Str := "OK"

/-- `SMTP_ACTIONS['discard']` -/
def discard : Str := "DISCARD Policy discard"

/-- `SMTP_ACTIONS['reject']` -/
def reject : Str := "REJECT Policy rejection"

/-- `SMTP_ACTIONS['reject_not_authorized']` -/
def rejectNotAuthorized : Str := "REJECT Not authorized"

/-- `SMTP_ACTIONS['reject_forged_sender']` -/
def rejectForgedSender : Str := "REJECT SMTP AUTH is required for users under this sender domain"

/-- `SMTP_ACTIONS['reject_sender_login_mismatch']` -/
def rejectSenderLoginMismatch : Str := "REJECT Sender is not same as SMTP authenticate username"

/-- `SMTP_ACTIONS['reject_blacklisted']` -/
def rejectBlacklisted : Str := "REJECT Blacklisted"

/-- `SMTP_ACTIONS['reject_quota_exceeded']` -/
def rejectQuotaExceeded : Str := "REJECT Throttling quota exceeded"

/-- `SMTP_ACTIONS['reject_msg_size_exceeded']` -/
def rejectMsgSizeExceeded : Str := "REJECT Message size is too large"

/-- `SMTP_ACTIONS['reject_max_rcpts_exceeded']` -/
def rejectMaxRcptsExceeded : Str := "REJECT Too many recipients in single message"

/-- `SMTP_ACTIONS['greylisting']` -/
def greylisting : Str := "451 4.7.1"

end SmtpActions

/-! ### `TCP_REPLIES` -/

namespace TcpReplies

/-- `TCP_REPLIES['not_exist']` -/
def notExist : Str := "500 "

/-- `TCP_REPLIES['success']` -/
def success : Str := "200 "

end TcpReplies

/-! ### Mail list access policies -/

namespace MaillistPolicy

/-- `MAILLIST_POLICY_PUBLIC` -/
def publicPolicy : Str := "public"

/-- `MAILLIST_POLICY_DOMAIN` -/
def domain : Str := "domain"

/-- `MAILLIST_POLICY_SUBDOMAIN` -/
def subdomain : Str := "subdomain"

/-- `MAILLIST_POLICY_MEMBERSONLY` -/
def membersOnly : Str := "membersonly"

/-- `MAILLIST_POLICY_MODERATORS` -/
def moderators : Str := "moderatorsonly"

/-- `MAILLIST_POLICY_MEMBERSANDMODERATORSONLY` -/
def membersAndModeratorsOnly : Str := "membersandmoderatorsonly"

/-- The name of `moderatorsonly` in old releases. -/
def allowedOnly : Str := "allowedonly"

end MaillistPolicy

/-! ### Session attributes and priorities -/

/-- `SMTP_SESSION_ATTRIBUTES` -/
def smtpSessionAttributes : List Str :=
  ["request", "protocol_state", "protocol_name", "helo_name", "queue_id", "sender", "recipient",
    "recipient_count", "client_address", "client_name", "reverse_client_name", "instance",
    "sasl_method", "sasl_username", "sasl_sender", "size", "ccert_subject", "ccert_issuer",
    "ccert_fingerprint", "encryption_protocol", "encryption_cipher", "encryption_keysize",
    "etrn_domain", "stress", "ccert_pubkey_fingerprint", "client_port", "policy_context",
    "server_address", "server_port", "compatibility_level", "mail_version"]

/-- `ACCOUNT_PRIORITIES` -/
def accountPriorities : Dict Str ℤ :=
  [("email".toList, 100), ("wildcard_addr".toList, 90), ("ip".toList, 80),
    ("wildcard_ip".toList, 70), ("cidr".toList, 70), ("domain".toList, 60),
    ("subdomain".toList, 50), ("top_level_domain".toList, 40), ("catchall".toList, 0)]

end IRedAPD

/-
  The settings the modelled functions read, with the values of
  `libs/default_settings.py` and `settings.py.sample`.

  An empty recipient delimiter would make `str.split` raise; a `Settings` holds
  none (`recipientDelimiters_ne`).
-/
import IRedAPD.Py.Str

namespace IRedAPD

open Py

/-- `settings.py` over `libs/default_settings.py`. -/
structure Settings where
  myNetworks : List Str := []
  recipientDelimiters : List Str := ["+"]
  enableAllWildcardIp : Bool := false
  wblistBypassOutgoingEmail : Bool := false
  wblistDiscardInsteadOfReject : Bool := false
  checkForgedSender : Bool := true
  allowedForgedSenders : List Str := []
  checkSpfIfLoginMismatch : Bool := true
  allowedLoginMismatchSenders : List Str := []
  allowedLoginMismatchStrictly : Bool := true
  allowedLoginMismatchListMember : Bool := false
  greylistingMessage : Str := "Intentional policy rejection, please try again later"
  greylistingTrainingMode : Bool := false
  /-- in minutes -/
  greylistingBlockExpire : ℤ := 15
  /-- in days -/
  greylistingAuthTripletExpire : ℤ := 30
  /-- in days -/
  greylistingUnauthTripletExpire : ℤ := 1
  greylistingBypassSpf : Bool := true
  cleanupQuerySizeLimit : ℕ := 1000
  spfMaxDnsQueries : ℕ := 20
  wlRcptForGreylisting : Bool := true
  wlRcptWithoutSpf : Bool := false
  wlRcptLocalAccount : Str := "user"
  wlRcptRcpt : Str := "user"
  wlRcptWhitelistDomainForGreylisting : Bool := false
  throttleBypassMynetworks : Bool := false
  throttleBypassLocalRecipient : Bool := true
  throttleBypassSameDomain : Bool := true
  srsDomain : Str := ""
  mlmmjadminApiEndpoint : Str := "http://127.0.0.1:7790/api"
  mlmmjadminApiAuthToken : Str := ""
  recipientDelimiters_ne : [] ∉ recipientDelimiters := by decide

end IRedAPD

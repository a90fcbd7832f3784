/-
  The Sender Rewriting Scheme of `libs/srslib.py`.

  HMAC-SHA1 is any function to twenty octets, and the clock is the sequence of
  what `time.time()` returns.  Every channel has an instance of its own, whose
  state is the number of times it has read the clock and the timestamps it has
  kept.

  The patterns are compiled with `re.IGNORECASE | re.VERBOSE`.  Their fields are
  characters other than `=`, with `=` between them, so that a text has at most
  one match: they are written as parsers of what they capture.
-/
import IRedAPD.Libs.Channel
import Mathlib.Data.Rat.Floor

namespace IRedAPD.Srslib

open Py

variable [Unicode]

/-- The errors, with their texts. -/
inductive Error where
  | invalidAddress (msg : Str)
  | invalidHash (msg : Str)
  | invalidTimestamp (msg : Str)
  deriving DecidableEq, Repr

/-- `'...: "%s"' % addr` -/
def message (text : String) (addr : Str) : Str := text.toList ++ ": \"".toList ++ addr ++ ['"']

/-! ### Patterns -/

/-- `S` under `re.IGNORECASE`: the long s is another case of it. -/
def isS (c : Char) : Bool := c == 'S' || c == 's' || c.toNat == 0x17f

/-- `SRS0` or `SRS1`, and what follows. -/
def tag (digit : Char) : Str → Option Str
  | s₁ :: r :: s₂ :: d :: s =>
    if isS s₁ && (r == 'R' || r == 'r') && isS s₂ && d == digit then some s else none
  | _ => none

/-- `[-+=]` -/
def isSeparator (c : Char) : Bool := ['-', '+', '='].contains c

/-- `[-+=]`, and what follows. -/
def separator : Str → Option Str
  | [] => none
  | c :: s => if isSeparator c then some s else none

/-- `([^=]+)=`, and what follows. -/
def field (s : Str) : Option (Str × Str) := (splitOnce "=" s).filter fun p => p.1 ≠ []

/-- `(.+)`: up to the end of the line. -/
def someText (s : Str) : Option Str := some (s.takeWhile (· ≠ '\n')) |>.filter (· ≠ [])

/-- `([-+=].+)` -/
def separatorAndText : Str → Option Str
  | [] => none
  | c :: s => if isSeparator c then (someText s).map (c :: ·) else none

/-- `_SRS0_OPAQUE`: the part after the tag. -/
def srs0Opaque (s : Str) : Option Str := (tag '0' s).bind separatorAndText

/-- `_SRS0`: hash, timestamp, host and local part. -/
def srs0 (s : Str) : Option (Str × Str × Str × Str) := do
  let s ← tag '0' s
  let s ← separator s
  let (hash, s) ← field s
  let (ts, s) ← field s
  let (host, s) ← field s
  let localPart ← someText s
  return (hash, ts, host, localPart)

/-- `_SRS1`: hash, host of the first hop, and the part after the tag of the first hop. -/
def srs1 (s : Str) : Option (Str × Str × Str) := do
  let s ← tag '1' s
  let s ← separator s
  let (hash, s) ← field s
  let (host, s) ← field s
  let localPart ← separatorAndText s
  return (hash, host, localPart)

/-- `_split_addr` -/
def splitAddr (addr : Str) : Except Error (Str × Str) :=
  match addr.splitOn '@' with
  | [localPart, host] => .ok (localPart, host)
  | _ => .error (.invalidAddress (message "Invalid from_addr address" addr))

/-- `is_srs_address` -/
def isSrsAddress (addr : Str) (strict : Bool) : Bool :=
  (if strict then (srs0 addr).isSome else (srs0Opaque addr).isSome) || (srs1 addr).isSome

/-! ### Base64 -/

/-- The alphabet of `base64.b64encode`. -/
def b64Alphabet : Str :=
  "ABCDEFGHIJKLMNOPQRSTUVWXYZabcdefghijklmnopqrstuvwxyz0123456789+/"

/-- The character of six bits. -/
def b64Char (n : ℕ) : Char := b64Alphabet.getD (n % 64) 'A'

/-- `base64.b64encode` -/
def b64encode : Bytes → Str
  | [] => []
  | [a] => [b64Char (a.toNat / 4), b64Char (a.toNat * 16), '=', '=']
  | [a, b] =>
    [b64Char (a.toNat / 4), b64Char (a.toNat * 16 + b.toNat / 16), b64Char (b.toNat * 4), '=']
  | a :: b :: c :: bs =>
    b64Char (a.toNat / 4) :: b64Char (a.toNat * 16 + b.toNat / 16) ::
      b64Char (b.toNat * 4 + c.toNat / 64) :: b64Char c.toNat :: b64encode bs

/-! ### The instance -/

/-- `SRS` -/
structure Srs where
  secret : Bytes
  prevSecrets : List Bytes := []
  validityDays : ℕ := 21
  hashLength : ℕ := 4
  /-- `_valid_ts_cache[0]` exists -/
  validityDays_pos : 0 < validityDays := by decide

/-- What an instance keeps, and how often it has read the clock. -/
structure State where
  validTsCache : Option (List Str) := none
  readings : ℕ := 0
  deriving DecidableEq, Repr

section Calls

variable (hmacSha1 : Bytes → Bytes → Vector UInt8 20) (timeFn : ℕ → ℚ)

/-- `_time_fn` -/
def State.time (st : State) : ℚ × State :=
  (timeFn st.readings, { st with readings := st.readings + 1 })

/-! ### Timestamps -/

/-- `_TS_ALPHABET` -/
def tsAlphabet : Str := "ABCDEFGHIJKLMNOPQRSTUVWXYZ234567"

/-- The character of five bits. -/
def tsChar (n : ℤ) : Char := tsAlphabet.getD (n % 32).toNat 'A'

/-- The timestamp of a day since the epoch. -/
def dayTs (day : ℤ) : Str := [tsChar (day / 32), tsChar day]

/-- The day of a time. -/
def dayOf (t : ℚ) : ℤ := ⌊t / 86400⌋

/-- `generate_ts` -/
def generateTs (t : Option ℚ) (st : State) : Str × State :=
  let (t, st) :=
    match t with
    -- `t or self._time_fn()`
    | some t => if t = 0 then st.time timeFn else (t, st)
    | none => st.time timeFn
  (dayTs (dayOf t), st)

/-- `generate_ts` of one time after another. -/
def generateTsList : List ℚ → State → List Str × State
  | [], st => ([], st)
  | t :: times, st =>
    let (ts, st) := generateTs timeFn (some t) st
    let (rest, st) := generateTsList times st
    (ts :: rest, st)

/-- The timestamps of the days an address is valid, which are kept. -/
def Srs.renewCache (srs : Srs) (st : State) : List Str × State :=
  let (now, st) := st.time timeFn
  let times := (List.range srs.validityDays).map fun i : ℕ => now - i * 86400
  let (cache, st) := generateTsList timeFn times st
  (cache, { st with validTsCache := some cache })

/-- `_valid_ts_cache`, made anew unless it is of today. -/
def Srs.validTs (srs : Srs) (st : State) : List Str × State :=
  match st.validTsCache with
  | none => srs.renewCache timeFn st
  | some cache =>
    let (ts, st) := generateTs timeFn none st
    if cache.head? ≠ some ts then srs.renewCache timeFn st else (cache, st)

/-- `check_ts` -/
def Srs.checkTs (srs : Srs) (ts addr : Str) (st : State) : Except Error Unit × State :=
  let (cache, st) := srs.validTs timeFn st
  if cache.contains (Unicode.upper ts) then (.ok (), st)
  else (.error (.invalidTimestamp (message "Invalid timestamp in SRS address" addr)), st)

/-! ### Hashes -/

/-- `generate_hash` -/
def generateHash (s : Str) (secret : Bytes) (hashLength : ℕ) : Str :=
  (b64encode (hmacSha1 secret (encode (Unicode.lower s))).toList).take hashLength

/-- `check_hash` -/
def Srs.checkHash (srs : Srs) (h s addr : Str) : Except Error Unit :=
  if (srs.secret :: srs.prevSecrets).any fun secret =>
      Unicode.lower h = Unicode.lower (generateHash hmacSha1 s secret h.length) then .ok ()
  else .error (.invalidHash (message "Invalid hash in SRS address" addr))

/-! ### Addresses -/

/-- `generate_srs0_address` -/
def Srs.generateSrs0Address (srs : Srs) (origHost origLocalPart aliasHost : Str) (st : State) :
    Str × State :=
  let (ts, st) := generateTs timeFn none st
  let hash := generateHash hmacSha1 (ts ++ origHost ++ origLocalPart) srs.secret srs.hashLength
  ("SRS0=".toList ++ hash ++ '=' :: ts ++ '=' :: origHost ++ '=' :: origLocalPart ++
    '@' :: aliasHost, st)

/-- `generate_srs1_address` -/
def Srs.generateSrs1Address (srs : Srs) (firstHopHost firstHopLocalPart aliasHost : Str) : Str :=
  let hash := generateHash hmacSha1 (firstHopHost ++ firstHopLocalPart) srs.secret srs.hashLength
  "SRS1=".toList ++ hash ++ '=' :: firstHopHost ++ '=' :: firstHopLocalPart ++ '@' :: aliasHost

/-- `forward` -/
def Srs.forward (srs : Srs) (fromAddr aliasHost : Str) (st : State) : Except Error Str × State :=
  match splitAddr fromAddr with
  | .error e => (.error e, st)
  | .ok (fromLocalPart, fromHost) =>
    match srs1 fromLocalPart with
    -- the first hop stays, this host signs for it
    | some (_, firstHop, localPart) =>
      (.ok (srs.generateSrs1Address hmacSha1 firstHop localPart aliasHost), st)
    | none =>
      match srs0Opaque fromLocalPart with
      | some localPart =>
        (.ok (srs.generateSrs1Address hmacSha1 fromHost localPart aliasHost), st)
      | none =>
        let (addr, st) :=
          srs.generateSrs0Address hmacSha1 timeFn fromHost fromLocalPart aliasHost st
        (.ok addr, st)

/-- `reverse` -/
def Srs.reverse (srs : Srs) (srsAddr : Str) (st : State) : Except Error Str × State :=
  match splitAddr srsAddr with
  | .error e => (.error e, st)
  | .ok (fromLocalPart, _) =>
    match srs1 fromLocalPart with
    -- an SRS1 address has no time stamp to check
    | some (hash, firstHop, localPart) =>
      match srs.checkHash hmacSha1 hash (firstHop ++ localPart) srsAddr with
      | .error e => (.error e, st)
      | .ok () => (.ok ("SRS0".toList ++ localPart ++ '@' :: firstHop), st)
    | none =>
      match srs0 fromLocalPart with
      | some (hash, ts, host, localPart) =>
        match srs.checkHash hmacSha1 hash (ts ++ host ++ localPart) srsAddr with
        | .error e => (.error e, st)
        | .ok () =>
          match srs.checkTs timeFn ts srsAddr st with
          | (.error e, st) => (.error e, st)
          | (.ok (), st) => (.ok (localPart ++ '@' :: host), st)
      | none => (.error (.invalidAddress (message "Unrecognized SRS address" srsAddr)), st)

end Calls

end IRedAPD.Srslib

namespace IRedAPD

/-! ### The two services -/

open Py Srslib

variable [Unicode] {ω : Type*}

/-- A service for one of the two tables: its settings, of which `srs_secrets` is a list with a first
secret, its clock, and its queries. -/
structure SrsService (ω : Type*) where
  settings : Settings
  secret : Bytes
  prevSecrets : List Bytes
  timeFn : ℕ → ℚ
  fqdn : Str
  isLocalDomain : Str → ω → Except Exn Bool × ω
  excludeDomains : List Str → ω → Except Exn Bool × ω

namespace SrsService

variable (hmacSha1 : Bytes → Bytes → Vector UInt8 20) (service : SrsService ω)

/-- `srslib_instance` -/
def srslibInstance : Srs where
  secret := service.secret
  prevSecrets := service.prevSecrets

/-- What its channel calls.  All it does with an exception is to log it. -/
def calls : SrsCalls (ω × State) where
  fqdn := service.fqdn
  isLocalDomain domain w :=
    let (r, world) := service.isLocalDomain domain w.1
    (r, world, w.2)
  excludeDomains domains w :=
    let (r, world) := service.excludeDomains domains w.1
    (r, world, w.2)
  forward addr aliasHost w :=
    let (r, st) := service.srslibInstance.forward hmacSha1 service.timeFn addr aliasHost w.2
    (r.mapError fun _ => .valueError, w.1, st)
  reverse addr w :=
    let (r, st) := service.srslibInstance.reverse hmacSha1 service.timeFn addr w.2
    (r.mapError fun _ => .valueError, w.1, st)
  isSrsAddress addr := isSrsAddress addr true

/-- A channel of the service. -/
def handler (rewrite : RewriteAddressType) : LineHandler (ω × State) Str :=
  srsHandler service.settings (service.calls hmacSha1) rewrite

/-- What a channel does with `get addr`. -/
def get (rewrite : RewriteAddressType) (w : ω × State) (addr : Str) : Outcome (ω × State) Str :=
  (service.handler hmacSha1 rewrite).onLine w (encode ("get ".toList ++ addr))

end SrsService

end IRedAPD

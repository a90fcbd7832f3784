/-
  The regular expressions of `libs/regxes.py` that decide what an address is.

  The patterns of the module are compiled with `re.IGNORECASE | re.DOTALL`;
  `\w` and `\d` are the Unicode classes.  None of the address patterns is
  anchored at the end: `re.match` asks for a matching beginning.
-/
import IRedAPD.Py.Regex
import IRedAPD.Py.Str

namespace IRedAPD.Regxes

open Py Py.Regex

variable [Unicode]

/-! ### Character classes -/

/-- `\w` -/
def isWord (c : Char) : Bool := Unicode.isAlnum c || c == '_'

/-- `[a-zA-Z]` or `[a-z]` under `re.IGNORECASE`: besides the ASCII letters, the four characters
whose other case is one. -/
def isLetterIgnoreCase (c : Char) : Bool :=
  c.isAlpha || [0x130, 0x131, 0x17f, 0x212a].contains c.toNat

/-- A class written as `\w` and single characters. -/
def wordOr (cs : List Char) : Regex Char := cls fun c => isWord c || cs.contains c

/-- One character. -/
def char (c : Char) : Regex Char := cls fun d => d == c

/-! ### Addresses and domains -/

/-- `regx_email`: `[\w\-\#][\w\-\.\+\=\/\&\#]*@[\w\-][\w\-\.]*\.[a-zA-Z0-9\-]{2,15}` -/
def cmpEmail : Regex Char :=
  seq (wordOr ['-', '#']) (seq (star (wordOr ['-', '.', '+', '=', '/', '&', '#']))
    (seq (char '@') (seq (wordOr ['-']) (seq (star (wordOr ['-', '.'])) (seq (char '.')
      (rep (cls fun c => isLetterIgnoreCase c || c.isDigit || c == '-') 2 15))))))

/-- `regx_domain`: `[\w\-][\w\-\.]*\.[a-z]{2,15}` -/
def cmpDomain : Regex Char :=
  seq (wordOr ['-']) (seq (star (wordOr ['-', '.'])) (seq (char '.')
    (rep (cls isLetterIgnoreCase) 2 15)))

/-- `regx_top_level_domain`: `[a-z0-9\-]{2,25}` -/
def cmpTopLevelDomain : Regex Char :=
  rep (cls fun c => isLetterIgnoreCase c || c.isDigit || c == '-') 2 25

/-- `regx_wildcard_addr`: `[\w\-][\w\-\.\+\=]*@\*` -/
def regxWildcardAddr : Regex Char :=
  seq (wordOr ['-']) (seq (star (wordOr ['-', '.', '+', '='])) (seq (char '@') (char '*')))

/-! ### IPv4 -/

/-- A range of digits. -/
def digit (lo hi : Char) : Regex Char := cls fun c => lo ≤ c && c ≤ hi

/-- `([0-9]|[1-9][0-9]|1[0-9]{2}|2[0-4][0-9]|25[0-5])` -/
def octet : Regex Char :=
  alt (digit '0' '9') (alt (seq (digit '1' '9') (digit '0' '9'))
    (alt (seq (char '1') (pow (digit '0' '9') 2))
      (alt (seq (char '2') (seq (digit '0' '4') (digit '0' '9')))
        (seq (char '2') (seq (char '5') (digit '0' '5'))))))

/-- `regx_ipv4` without its final `$`: `^(octet\.){3}octet` -/
def regxIpv4 : Regex Char := seq (pow (seq octet (char '.')) 3) octet

/-- `regx_wildcard_ipv4` without its final `$`: `(?:[\d\*]{1,3})\.` three times, then
`(?:[\d\*]{1,3})` -/
def regxWildcardIpv4 : Regex Char :=
  let field := rep (cls fun c => Unicode.isDecimal c || c == '*') 1 3
  seq field (seq (char '.') (seq field (seq (char '.') (seq field (seq (char '.') field)))))

/-- `regx_ipv4_cidr` without its final `$`: `regx_ipv4` and `(\/([0-9]|[1-2][0-9]|3[0-2]))` -/
def regxIpv4Cidr : Regex Char :=
  seq regxIpv4 (seq (char '/') (alt (digit '0' '9')
    (alt (seq (digit '1' '2') (digit '0' '9')) (seq (char '3') (digit '0' '2')))))

/-! ### IPv6

The patterns are written `s` and `d` where `\s` and `\d` may be meant, and an unescaped `.`. -/

/-- `.` under `re.DOTALL` -/
def anyChar : Regex Char := cls fun _ => true

/-- `[0-9A-Fa-f]{1,4}` -/
def hextet : Regex Char :=
  rep (cls fun c => c.isDigit || ('A' ≤ c && c ≤ 'F') || ('a' ≤ c && c ≤ 'f')) 1 4

/-- `(25[0-5]|2[0-4]d|1dd|[1-9]?d)` -/
def octetD : Regex Char :=
  alt (seq (lit "25".toList) (digit '0' '5'))
    (alt (seq (char '2') (seq (digit '0' '4') (char 'd')))
      (alt (lit "1dd".toList) (seq (opt (digit '1' '9')) (char 'd'))))

/-- `(octetD(.octetD){3})` -/
def dotted : Regex Char := seq octetD (pow (seq anyChar octetD) 3)

/-- `(hextet:){n}` -/
def hextetsBefore (n : ℕ) : Regex Char := pow (seq hextet (char ':')) n

/-- `(:hextet){m,n}` -/
def hextetsAfter (m n : ℕ) : Regex Char := rep (seq (char ':') hextet) m n

/-- `((:hextet){1,m})|((:hextet){0,n}:dotted)|:` -/
def ipv6Tail (m n : ℕ) : Regex Char :=
  alt (hextetsAfter 1 m) (alt (seq (hextetsAfter 0 n) (seq (char ':') dotted)) (char ':'))

/-- `regx_ipv6` -/
def regxIpv6 : Regex Char :=
  seq (star (char 's')) (seq
    (alt (seq (hextetsBefore 7) (alt hextet (char ':')))
    (alt (seq (hextetsBefore 6) (alt (hextetsAfter 1 1) (alt dotted (char ':'))))
    (alt (seq (hextetsBefore 5) (ipv6Tail 2 0))
    (alt (seq (hextetsBefore 4) (ipv6Tail 3 1))
    (alt (seq (hextetsBefore 3) (ipv6Tail 4 2))
    (alt (seq (hextetsBefore 2) (ipv6Tail 5 3))
    (alt (seq (hextetsBefore 1) (ipv6Tail 6 4))
      (seq (char ':') (ipv6Tail 7 5)))))))))
    (seq (opt (seq (char '%') (seq anyChar (star anyChar)))) (star (char 's'))))

/-- `regx_ipv6_cidr` without its final `$`: `regx_ipv6` and `(\/(d|dd|1[0-1]d|12[0-8]))` -/
def regxIpv6Cidr : Regex Char :=
  seq regxIpv6 (seq (char '/') (alt (char 'd') (alt (lit "dd".toList)
    (alt (seq (char '1') (seq (digit '0' '1') (char 'd'))) (seq (lit "12".toList) (digit '0' '8'))))))

end IRedAPD.Regxes

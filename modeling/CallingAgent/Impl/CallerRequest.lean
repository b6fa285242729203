import CallingAgent.Framework.Pattern

/-!
# `services/api/src/main.py`: `_E164_RE`, `CallerRequest.validate_phone`

`re` on `str`, as in Python 3.12, whose character database is that of Unicode 15.0.
-/

namespace CallingAgent.Impl.CallerRequest

open CallingAgent.Framework

/-- `\s`: the characters that `str.isspace` accepts. -/
def isSpace (c : Char) : Bool :=
  (0x09 ≤ c.toNat && c.toNat ≤ 0x0D) || (0x1C ≤ c.toNat && c.toNat ≤ 0x20) || (0x2000 ≤ c.toNat && c.toNat ≤ 0x200A) ||
    [0x85, 0xA0, 0x1680, 0x2028, 0x2029, 0x202F, 0x205F, 0x3000].contains c.toNat

/-- The zeros of the scripts that have decimal digits, each followed by its digits
one to nine. -/
def zeros : List Nat :=
  [0x30, 0x660, 0x6F0, 0x7C0, 0x966, 0x9E6, 0xA66, 0xAE6, 0xB66, 0xBE6, 0xC66, 0xCE6, 0xD66, 0xDE6, 0xE50, 0xED0, 0xF20,
    0x1040, 0x1090, 0x17E0, 0x1810, 0x1946, 0x19D0, 0x1A80, 0x1A90, 0x1B50, 0x1BB0, 0x1C40, 0x1C50, 0xA620, 0xA8D0,
    0xA900, 0xA9D0, 0xA9F0, 0xAA50, 0xABF0, 0xFF10, 0x104A0, 0x10D30, 0x11066, 0x110F0, 0x11136, 0x111D0, 0x112F0,
    0x11450, 0x114D0, 0x11650, 0x116C0, 0x11730, 0x118E0, 0x11950, 0x11C50, 0x11D50, 0x11DA0, 0x11F50, 0x16A60, 0x16AC0,
    0x16B50, 0x1D7CE, 0x1D7D8, 0x1D7E2, 0x1D7EC, 0x1D7F6, 0x1E140, 0x1E2F0, 0x1E4F0, 0x1E950, 0x1FBF0]

/-- `\d`: the characters of the category `Nd`. -/
def isDecimal (c : Char) : Bool := zeros.any fun first => first ≤ c.toNat && c.toNat < first + 10

/-- `[\s\-\(\)]` -/
def isSeparator (c : Char) : Bool := isSpace c || c == '-' || c == '(' || c == ')'

/-- `^\+[1-9]\d{7,14}$` -/
def e164Re : Pattern Char :=
  .seq .start (.seq (.cls (· == '+')) (.seq (.cls fun c => '1' ≤ c && c ≤ '9') (.seq (.rep isDecimal 7 14) (.finish '\n'))))

/-- `re.sub(r"[\s\-\(\)]", "", v)` -/
def cleaned (v : String) : String := String.ofList (v.toList.filter fun c => !isSeparator c)

def validatePhone (v : String) : Except String String :=
  if e164Re.accepts (cleaned v).toList then .ok (cleaned v)
  else .error "phone_number must be E.164 format (e.g. +919876543210)"

end CallingAgent.Impl.CallerRequest

import AuditTrail.Address
import AuditTrail.Layout.Elements

/-! What a token's body is made of: a layout lists the kinds of its fields in wire order, and a
tuple of values fills it. -/

namespace AuditTrail

/-- The kinds of field. Words are big-endian; the others are

* `address`: the family code of an address, then the address;
* `text`: a 16-bit length, then that many bytes with a text that ends at its first zero;
* `texts`: a 32-bit count, then so many texts, each ended by a zero;
* `socketPath`: a text in a fixed width, filled up with zeros;
* `ids`: a 16-bit count, then so many 32-bit words;
* `data`: a 16-bit length, then so many bytes;
* `elements`: the code of a unit, an 8-bit count, then so many numbers of that unit. -/
inductive Field
  | word8
  | word16
  | word32
  | word64
  | ipv4
  | ipv6
  | address
  | text
  | texts
  | socketPath
  | ids
  | data
  | elements
  deriving DecidableEq

abbrev Field.Carrier : Field → Type
  | .word8 => UInt8
  | .word16 => UInt16
  | .word32 => UInt32
  | .word64 => UInt64
  | .ipv4 => IPv4
  | .ipv6 => IPv6
  | .address => Address
  | .text | .socketPath => String
  | .texts => List String
  | .ids => List UInt32
  | .data => List UInt8
  | .elements => Elements

abbrev Layout := List Field

abbrev Layout.Values : Layout → Type
  | [] => Unit
  | field :: layout => field.Carrier × Layout.Values layout

namespace Layout

/-- The longest text that a 16-bit length can announce together with its closing zero. -/
def maxText : Nat := 65534

def maxElements : Nat := 255

def maxIds : Nat := 65535

def maxData : Nat := 65535

def socketPathWidth : Nat := 104

end Layout

end AuditTrail

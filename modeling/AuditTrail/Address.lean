import AuditTrail.BigEndian
import AuditTrail.Text.Numeral

namespace AuditTrail

structure IPv4 where
  a : UInt8
  b : UInt8
  c : UInt8
  d : UInt8
  deriving DecidableEq

structure IPv6 where
  g0 : UInt16
  g1 : UInt16
  g2 : UInt16
  g3 : UInt16
  g4 : UInt16
  g5 : UInt16
  g6 : UInt16
  g7 : UInt16
  deriving DecidableEq

inductive Address
  | v4 (ip : IPv4)
  | v6 (ip : IPv6)
  deriving DecidableEq

namespace IPv4

def bytes (ip : IPv4) : List UInt8 := [ip.a, ip.b, ip.c, ip.d]

def text (ip : IPv4) : String :=
  ".".intercalate (ip.bytes.map fun b => Numeral.decimal b.toNat)

end IPv4

namespace IPv6

def groups (ip : IPv6) : List UInt16 :=
  [ip.g0, ip.g1, ip.g2, ip.g3, ip.g4, ip.g5, ip.g6, ip.g7]

def bytes (ip : IPv6) : List UInt8 :=
  ip.groups.flatMap BigEndian.bytes16

def mapped? (ip : IPv6) : Option IPv4 :=
  match ip.groups with
  | [0, 0, 0, 0, 0, 0xFFFF, high, low] =>
    some ⟨(high >>> 8).toUInt8, high.toUInt8, (low >>> 8).toUInt8, low.toUInt8⟩
  | _ => none

/-- Where the longest run of zero groups starts and how long it is; of equal runs the first. -/
def zeroRun (groups : List UInt16) : Nat × Nat :=
  (List.range groups.length).foldl
    (fun best i =>
      let length := ((groups.drop i).takeWhile (· == 0)).length
      if best.2 < length then (i, length) else best)
    (0, 0)

def groupsText (groups : List UInt16) : String :=
  ":".intercalate (groups.map fun g => Numeral.print 16 g.toNat)

/-- Groups in hexadecimal between colons. The first longest run of at least two zero groups is
written as `::`, and an IPv4 address inside keeps its dots. -/
def text (ip : IPv6) : String :=
  match ip.mapped? with
  | some inner => "::ffff:" ++ inner.text
  | none =>
    let (start, length) := zeroRun ip.groups
    if length < 2 then groupsText ip.groups
    else groupsText (ip.groups.take start) ++ "::" ++ groupsText (ip.groups.drop (start + length))

end IPv6

namespace Address

def bytes : Address → List UInt8
  | .v4 ip => ip.bytes
  | .v6 ip => ip.bytes

def text : Address → String
  | .v4 ip => ip.text
  | .v6 ip => ip.text

def width : Address → Nat
  | .v4 _ => 4
  | .v6 _ => 16

@[simp] theorem length_bytes (address : Address) : address.bytes.length = address.width := by
  cases address <;> rfl

def family (address : Address) : UInt32 :=
  match address with
  | .v4 _ => 4
  | .v6 _ => 16

def width? (family : UInt32) : Option Nat :=
  if family = 4 then some 4
  else if family = 16 then some 16
  else none

def ofBytes? : List UInt8 → Option Address
  | [a, b, c, d] => some (.v4 ⟨a, b, c, d⟩)
  | bytes =>
    match bytes.length, BigEndian.words16 bytes with
    | 16, [g0, g1, g2, g3, g4, g5, g6, g7] => some (.v6 ⟨g0, g1, g2, g3, g4, g5, g6, g7⟩)
    | _, _ => none

end Address

end AuditTrail

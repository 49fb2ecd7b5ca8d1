import AuditTrail.Layout.Basic
import AuditTrail.Text.Utf8

namespace AuditTrail

open BigEndian

inductive Field.Fault
  /-- The field needs more bytes than there are. -/
  | short (needed available : Nat)
  /-- None of the bytes left is the zero that ends a text. -/
  | unterminated (available : Nat)
  | addressFamily (code : UInt32)
  | elementUnit (code : UInt8)
  deriving DecidableEq

abbrev Reader (α : Type) :=
  List UInt8 → Except Field.Fault (α × List UInt8)

namespace Reader

def take (n : Nat) : Reader (List UInt8) := fun input =>
  let taken := input.take n
  if taken.length = n then .ok (taken, input.drop n) else .error (.short n input.length)

def word8 : Reader UInt8
  | a :: rest => .ok (a, rest)
  | [] => .error (.short 1 0)

def word16 : Reader UInt16
  | a :: b :: rest => .ok (BigEndian.word16 a b, rest)
  | input => .error (.short 2 input.length)

def word32 : Reader UInt32
  | a :: b :: c :: d :: rest => .ok (BigEndian.word32 a b c d, rest)
  | input => .error (.short 4 input.length)

def word64 : Reader UInt64
  | a :: b :: c :: d :: e :: f :: g :: h :: rest =>
    .ok (BigEndian.word64 (BigEndian.word32 a b c d) (BigEndian.word32 e f g h), rest)
  | input => .error (.short 8 input.length)

def ipv4 : Reader IPv4
  | a :: b :: c :: d :: rest => .ok (⟨a, b, c, d⟩, rest)
  | input => .error (.short 4 input.length)

def ipv6 : Reader IPv6
  | a :: b :: c :: d :: e :: f :: g :: h :: i :: j :: k :: l :: m :: n :: o :: p :: rest =>
    .ok (⟨BigEndian.word16 a b, BigEndian.word16 c d, BigEndian.word16 e f, BigEndian.word16 g h,
      BigEndian.word16 i j, BigEndian.word16 k l, BigEndian.word16 m n, BigEndian.word16 o p⟩,
      rest)
  | input => .error (.short 16 input.length)

def address : Reader Address := fun input => do
  let (family, rest) ← word32 input
  if family = 4 then
    let (ip, rest) ← ipv4 rest
    return (.v4 ip, rest)
  else if family = 16 then
    let (ip, rest) ← ipv6 rest
    return (.v6 ip, rest)
  else throw (.addressFamily family)

def textUpToZero (raw : List UInt8) : String :=
  Text.ofBytes (raw.takeWhile (· != 0))

def text : Reader String := fun input => do
  let (length, rest) ← word16 input
  let (raw, rest) ← take length.toNat rest
  return (textUpToZero raw, rest)

def terminated : Reader String := fun input =>
  match input.dropWhile (· != 0) with
  | [] => .error (.unterminated input.length)
  | _ :: rest => .ok (textUpToZero input, rest)

def terminatedTexts : Nat → Reader (List String)
  | 0, input => .ok ([], input)
  | n + 1, input => do
    let (s, rest) ← terminated input
    let (ss, rest) ← terminatedTexts n rest
    return (s :: ss, rest)

def texts : Reader (List String) := fun input => do
  let (count, rest) ← word32 input
  terminatedTexts count.toNat rest

def socketPath : Reader String := fun input => do
  let (raw, rest) ← take Layout.socketPathWidth input
  return (textUpToZero raw, rest)

def ids : Reader (List UInt32) := fun input => do
  let (count, rest) ← word16 input
  let (raw, rest) ← take (4 * count.toNat) rest
  return (words32 raw, rest)

def data : Reader (List UInt8) := fun input => do
  let (length, rest) ← word16 input
  take length.toNat rest

def elements : Reader Elements := fun input => do
  let (code, rest) ← word8 input
  match ElementUnit.ofCode? code with
  | none => throw (.elementUnit code)
  | some unit =>
    let (count, rest) ← word8 rest
    let (raw, rest) ← take (count.toNat * unit.width) rest
    return (.ofBytes raw unit, rest)

end Reader

def Field.read : (field : Field) → Reader field.Carrier
  | .word8 => Reader.word8
  | .word16 => Reader.word16
  | .word32 => Reader.word32
  | .word64 => Reader.word64
  | .ipv4 => Reader.ipv4
  | .ipv6 => Reader.ipv6
  | .address => Reader.address
  | .text => Reader.text
  | .texts => Reader.texts
  | .socketPath => Reader.socketPath
  | .ids => Reader.ids
  | .data => Reader.data
  | .elements => Reader.elements

def Layout.read : (layout : Layout) → Reader layout.Values
  | [], input => .ok ((), input)
  | field :: layout, input => do
    let (value, rest) ← field.read input
    let (values, rest) ← read layout rest
    return ((value, values), rest)

end AuditTrail

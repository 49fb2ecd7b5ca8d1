import AuditTrail.BigEndian

namespace AuditTrail

inductive ElementUnit
  | byte
  | short
  | long
  deriving DecidableEq

namespace ElementUnit

def code : ElementUnit → UInt8
  | byte => 0
  | short => 1
  | long => 2

def ofCode? (code : UInt8) : Option ElementUnit :=
  if code = 0 then some byte
  else if code = 1 then some short
  else if code = 2 then some long
  else none

def width : ElementUnit → Nat
  | byte => 1
  | short => 2
  | long => 4

def name : ElementUnit → String
  | byte => "byte"
  | short => "short"
  | long => "int"

@[simp] theorem ofCode?_code (unit : ElementUnit) : ofCode? unit.code = some unit := by
  cases unit <;> rfl

theorem code_of_ofCode? {code : UInt8} {unit : ElementUnit} (h : ofCode? code = some unit) :
    unit.code = code := by
  unfold ofCode? at h
  repeat' split at h
  all_goals cases h
  all_goals simp_all [ElementUnit.code]

end ElementUnit

inductive Elements
  | bytes (values : List UInt8)
  | shorts (values : List UInt16)
  | longs (values : List UInt32)
  deriving DecidableEq

namespace Elements

def unit : Elements → ElementUnit
  | bytes _ => .byte
  | shorts _ => .short
  | longs _ => .long

def length : Elements → Nat
  | bytes values => values.length
  | shorts values => values.length
  | longs values => values.length

def take (n : Nat) : Elements → Elements
  | bytes values => bytes (values.take n)
  | shorts values => shorts (values.take n)
  | longs values => longs (values.take n)

def widened : Elements → List UInt32
  | bytes values => values.map (·.toUInt32)
  | shorts values => values.map (·.toUInt32)
  | longs values => values

def toBytes : Elements → List UInt8
  | bytes values => values
  | shorts values => values.flatMap BigEndian.bytes16
  | longs values => values.flatMap BigEndian.bytes32

def ofBytes (raw : List UInt8) : ElementUnit → Elements
  | .byte => bytes raw
  | .short => shorts (BigEndian.words16 raw)
  | .long => longs (BigEndian.words32 raw)

@[simp] theorem ofBytes_toBytes (es : Elements) : ofBytes es.toBytes es.unit = es := by
  cases es <;> simp [toBytes, unit, ofBytes]

end Elements

end AuditTrail

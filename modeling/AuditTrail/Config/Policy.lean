import AuditTrail.Config.Error
import AuditTrail.Text.Fields

namespace AuditTrail

inductive Policy
  | count
  | halt
  | arguments
  | environment
  | sequence
  | windowData
  | user
  | group
  | trailer
  | path
  | subjectCount
  | publicObjects
  | zoneName
  | perZone
  deriving DecidableEq

namespace Policy

def all : List Policy :=
  [count, halt, arguments, environment, sequence, windowData, user, group, trailer, path,
    subjectCount, publicObjects, zoneName, perZone]

def bit : Policy → UInt32
  | count => 0x0001
  | halt => 0x0002
  | arguments => 0x0004
  | environment => 0x0008
  | sequence => 0x0010
  | windowData => 0x0020
  | user => 0x0040
  | group => 0x0080
  | trailer => 0x0100
  | path => 0x0200
  | subjectCount => 0x0400
  | publicObjects => 0x0800
  | zoneName => 0x1000
  | perZone => 0x2000

def name : Policy → String
  | count => "cnt"
  | halt => "ahlt"
  | arguments => "argv"
  | environment => "arge"
  | sequence => "seq"
  | windowData => "windata"
  | user => "user"
  | group => "group"
  | trailer => "trail"
  | path => "path"
  | subjectCount => "scnt"
  | publicObjects => "public"
  | zoneName => "zonename"
  | perZone => "perzone"

def ofName (name : String) : Except Config.EntryError Policy :=
  match all.find? (·.name == name) with
  | some p => .ok p
  | none => .error (.unknownPolicy name)

def bits (policies : List Policy) : UInt32 :=
  policies.foldl (fun w p => w ||| p.bit) 0

def readBits (text : String) : Except Config.EntryError UInt32 :=
  bits <$> (Text.items ',' text).mapM ofName

def ofBits (w : UInt32) : List Policy :=
  all.filter (w &&& ·.bit != 0)

def text (w : UInt32) : String :=
  ",".intercalate ((ofBits w).map name)

end Policy

end AuditTrail

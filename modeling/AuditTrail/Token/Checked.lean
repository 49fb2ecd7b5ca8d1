import AuditTrail.Error
import AuditTrail.Layout.Basic
import AuditTrail.Token.Codec

namespace AuditTrail.Token

inductive FieldError
  | textTooLong (field : String) (length : Nat)
  | zeroInText (field : String)
  | tooManyElements (count : Nat)
  | tooManyGroups (count : Nat)
  | tooMuchData (length : Nat)
  | socketPathTooLong (length : Nat)
  deriving DecidableEq

namespace FieldError

def message : FieldError → String
  | .textTooLong field length => s!"{field} holds at most {Layout.maxText} bytes, got {length}"
  | .zeroInText field => s!"{field} contains a NUL byte"
  | .tooManyElements count =>
    s!"arbitrary token holds at most {Layout.maxElements} values, got {count}"
  | .tooManyGroups count => s!"group token holds at most {Layout.maxIds} groups, got {count}"
  | .tooMuchData length => s!"opaque token holds at most {Layout.maxData} bytes, got {length}"
  | .socketPathTooLong length =>
    s!"socket path holds at most {Layout.socketPathWidth - 1} bytes, got {length}"

def toError (e : FieldError) : Error := ⟨.invalidFormat, e.message⟩

end FieldError

namespace Checked

def hasZero (s : String) : Bool :=
  s.toList.any (· == '\x00')

def text (field : String) (s : String) : Except FieldError String :=
  if Layout.maxText < s.utf8ByteSize then .error (.textTooLong field s.utf8ByteSize)
  else if hasZero s then .error (.zeroInText field)
  else .ok s

def texts (field : String) (ss : List String) : Except FieldError (List String) :=
  if ss.any hasZero then .error (.zeroInText field) else .ok ss

def trailer (size : UInt32) : Token := .trailer trailerMagic size

def arg32 (index : UInt8) (value : UInt32) (label : String) : Except FieldError Token :=
  (text "argument text" label).map (.arg32 index value)

def arg64 (index : UInt8) (value : UInt64) (label : String) : Except FieldError Token :=
  (text "argument text" label).map (.arg64 index value)

def arbitrary (format : PrintFormat) (values : Elements) : Except FieldError Token :=
  if Layout.maxElements < values.length then .error (.tooManyElements values.length)
  else .ok (.arbitrary format.normalized values)

def execArgs (args : List String) : Except FieldError Token :=
  (texts "exec argument" args).map .execArgs

def execEnv (settings : List String) : Except FieldError Token :=
  (texts "exec environment" settings).map .execEnv

def file (seconds milliseconds : UInt32) (name : String) : Except FieldError Token :=
  (text "file name" name).map (.file seconds milliseconds)

def groups (ids : List UInt32) : Except FieldError Token :=
  if Layout.maxIds < ids.length then .error (.tooManyGroups ids.length) else .ok (.groups ids)

/-- An address takes the short form if it can. -/
def inAddr : Address → Token
  | .v4 host => .inAddr host
  | .v6 host => .inAddrEx (.v6 host)

def ipc (object : IpcObject) (id : UInt32) : Token := .ipc object.normalized id

def opaqueBytes (data : List UInt8) : Except FieldError Token :=
  if Layout.maxData < data.length then .error (.tooMuchData data.length)
  else .ok (.opaqueBytes data)

def path (name : String) : Except FieldError Token :=
  (text "path" name).map .path

def process (who : Identity) : Address → Token
  | .v4 host => .process who host
  | .v6 host => .processEx who (.v6 host)

def subject (who : Identity) : Address → Token
  | .v4 host => .subject who host
  | .v6 host => .subjectEx who (.v6 host)

def localDomain : UInt16 := 1

def inetDomain : UInt16 := 2

def inet6Domain : UInt16 := 26

def socketInet (number : UInt16) : Address → Token
  | .v4 host => .socketInet inetDomain number host
  | .v6 host => .socketInet6 inet6Domain number host

def socketUnix (name : String) : Except FieldError Token :=
  if Layout.socketPathWidth ≤ name.utf8ByteSize then
    .error (.socketPathTooLong name.utf8ByteSize)
  else (text "socket path" name).map (.socketUnix localDomain)

def freeText (content : String) : Except FieldError Token :=
  (text "text" content).map .text

end Checked

end AuditTrail.Token

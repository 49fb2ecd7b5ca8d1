import AuditTrail.Error
import AuditTrail.Text.Quoted

namespace AuditTrail.Config

inductive EntryError
  | classFields (entry : String)
  | eventFields (entry : String)
  | notNumber (text : String)
  | eventNumber (text : String)
  | unknownClass (name : String)
  | unknownPolicy (name : String)
  | noKey (entry : String)
  | freeSpace (text : String)
  | trailSize (text : String)
  | trailSizeTooSmall (size least : Nat)
  | userFields (entry : String)
  | noUserName
  deriving DecidableEq

namespace EntryError

def kind : EntryError → Error.Kind
  | .unknownClass _ => .notFound
  | _ => .invalidFormat

def message : EntryError → String
  | .classFields entry =>
    s!"class entry needs 3 non-empty fields separated by ':', got {Text.quoted entry}"
  | .eventFields entry =>
    s!"event entry needs 4 non-empty fields separated by ':', got {Text.quoted entry}"
  | .notNumber text => s!"{Text.quoted text} is not a number"
  | .eventNumber text => s!"event number {text} out of range"
  | .unknownClass name => s!"unknown audit class {Text.quoted name}"
  | .unknownPolicy name => s!"unknown audit policy {Text.quoted name}"
  | .noKey entry => s!"expected key:value, got {Text.quoted entry}"
  | .freeSpace text => s!"minfree {Text.quoted text} is not a number"
  | .trailSize text => s!"filesz {Text.quoted text} is not a number"
  | .trailSizeTooSmall size least => s!"filesz {size} is below the minimum of {least}"
  | .userFields entry => s!"user entry needs name:always:never, got {Text.quoted entry}"
  | .noUserName => "user entry has an empty name"

def toError (e : EntryError) : Error := ⟨e.kind, e.message⟩

end EntryError

inductive File
  | classes
  | events
  | control
  | users
  deriving DecidableEq

def File.name : File → String
  | .classes => "audit_class"
  | .events => "audit_event"
  | .control => "audit_control"
  | .users => "audit_user"

structure FileError where
  file : File
  line : Nat
  cause : EntryError
  deriving DecidableEq

def FileError.toError (e : FileError) : Error :=
  ⟨e.cause.kind, s!"{e.file.name} line {e.line}: {e.cause.message}"⟩

end AuditTrail.Config

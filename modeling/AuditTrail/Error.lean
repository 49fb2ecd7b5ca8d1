/-! What callers are told about a failure: its kind and, most times, a message. Each part of the
library has causes of its own, which say precisely what went wrong; a cause becomes an `Error` by
its kind and message. -/

namespace AuditTrail

inductive Error.Kind
  | truncated
  | invalidFormat
  | resourceExhausted
  | invalidDescriptor
  | notFound
  | io
  | submission
  deriving DecidableEq

def Error.Kind.text : Error.Kind → String
  | .truncated => "truncated"
  | .invalidFormat => "invalid format"
  | .resourceExhausted => "resource exhausted"
  | .invalidDescriptor => "invalid descriptor"
  | .notFound => "not found"
  | .io => "I/O error"
  | .submission => "submission failed"

structure Error where
  kind : Error.Kind
  message : Option String := none
  deriving DecidableEq

def Error.text (e : Error) : String :=
  "bsm error (" ++ e.kind.text ++ ")" ++
    match e.message with
    | some message => ": " ++ message
    | none => ""

inductive IoError.Kind
  | unexpectedEof
  | interrupted
  | permissionDenied
  | brokenPipe
  | notFound
  | writeZero
  | other
  deriving DecidableEq

structure IoError where
  kind : IoError.Kind
  text : String
  deriving DecidableEq

/-- A stream that ends too early counts as truncated data, every other failure as a failed
transfer. -/
def IoError.toError (e : IoError) : Error where
  kind := if e.kind = .unexpectedEof then .truncated else .io
  message := some e.text

end AuditTrail

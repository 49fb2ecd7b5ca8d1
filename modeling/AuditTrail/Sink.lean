import AuditTrail.Output

namespace AuditTrail

inductive SinkError.Kind
  | rejected
  | io
  | full
  deriving DecidableEq

def SinkError.Kind.text : SinkError.Kind → String
  | .rejected => "record rejected"
  | .io => "I/O error"
  | .full => "sink full"

structure SinkError where
  kind : SinkError.Kind
  message : Option String := none
  deriving DecidableEq

namespace SinkError

def text (e : SinkError) : String :=
  "sink error (" ++ e.kind.text ++ ")" ++
    match e.message with
    | some message => ": " ++ message
    | none => ""

def toError (e : SinkError) : Error := ⟨.submission, e.text⟩

end SinkError

def IoError.toSinkError (e : IoError) : SinkError := ⟨.io, e.text⟩

abbrev Sink (σ : Type) := List UInt8 → σ → Except SinkError Unit × σ

def Sink.offer (sink : Sink σ) : Option (List UInt8) → σ → Except SinkError Unit × σ
  | none, state => (.ok (), state)
  | some data, state => sink data state

structure RecordList where
  records : List (List UInt8) := []
  capacity : Option Nat := none
  deriving DecidableEq

namespace RecordList

def full? (l : RecordList) : Option Nat := l.capacity.filter (· ≤ l.records.length)

def submit : Sink RecordList := fun data l =>
  match l.full? with
  | some capacity => (.error ⟨.full, s!"capacity of {capacity} records reached"⟩, l)
  | none => (.ok (), { l with records := l.records ++ [data] })

def trail (l : RecordList) : List UInt8 := l.records.flatten

end RecordList

def Output.submit : Sink Output := fun data out =>
  match out.write data with
  | (.error e, out) => (.error e.toSinkError, out)
  | (.ok (), out) => (out.flush.mapError (·.toSinkError), out)

def Sink.refuse (e : SinkError) : Sink Unit := fun _ _ => (.error e, ())

end AuditTrail

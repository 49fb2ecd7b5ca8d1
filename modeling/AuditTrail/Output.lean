import AuditTrail.Error

namespace AuditTrail

/-- How an output fails: what it reports when it is full, if it does not just take no more bytes,
and what it reports when it is flushed. After an error of kind `interrupted` a write is tried again,
so that is not how a full output fails. -/
structure Output.Failures where
  whenFull : Option IoError := none
  flushError : Option IoError := none
  settled : ∀ e ∈ whenFull, e.kind ≠ .interrupted := by
    first | exact fun e none => absurd none (Option.not_mem_none e) | grind
  deriving DecidableEq

structure Output extends Output.Failures where
  taken : List UInt8 := []
  limit : Option Nat := none
  deriving DecidableEq

def IoError.noneTaken : IoError := ⟨.writeZero, "failed to write whole buffer"⟩

namespace Output

def admitted (o : Output) (n : Nat) : Nat :=
  match o.limit with
  | none => n
  | some limit => min n (limit - o.taken.length)

def Failures.fullError (f : Failures) : IoError := f.whenFull.getD .noneTaken

/-- Writes all of some bytes. When the output fills up on the way, the bytes that fitted stay. -/
def write (o : Output) (data : List UInt8) : Except IoError Unit × Output :=
  let n := o.admitted data.length
  let result := if data.length ≤ n then .ok () else .error o.fullError
  (result, { o with taken := o.taken ++ data.take n })

def flush (o : Output) : Except IoError Unit :=
  match o.flushError with
  | none => .ok ()
  | some e => .error e

end Output

end AuditTrail

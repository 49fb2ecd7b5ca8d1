import AuditTrail.Proofs.Pool.Run
import AuditTrail.Proofs.Record.Image
import Mathlib.Data.Finmap

/-! The ledger: what a pool looks like from outside. It maps the descriptors of the open records to
their tokens, and knows neither slots nor generations. -/

namespace AuditTrail

abbrev Ledger := Finmap fun _ : Descriptor => List Token

def Pool.Call.descriptor? : Pool.Call → Option Descriptor
  | .openRecord => none
  | .write d _ | .length d | .close d _ _ _ => some d

namespace Ledger

open Pool (Call Answer)

def Submits (config : PoolConfig) (wanted : Bool) (tokens : List Token) : Prop :=
  wanted = true ∧ Token.totalLength tokens + 25 ≤ config.maxRecordSize

/-- What one call does to a ledger and the state of a sink: the answer, and the bytes that the sink
is handed, if any. Which descriptor a new record gets is left open, and so are the messages of the
errors that do not come from the sink. -/
inductive Step (config : PoolConfig) (sink : Sink σ) :
    Ledger × σ → Call → Answer → Option (List UInt8) → Ledger × σ → Prop
  | opened {m : Ledger} {s : σ} {d : Descriptor} (new : d ∉ m)
      (room : m.keys.card < config.maxRecords) :
      Step config sink (m, s) .openRecord (.opened d) none (m.insert d [], s)
  | allOpen {m : Ledger} {s : σ} {e : Error} (full : config.maxRecords ≤ m.keys.card)
      (kind : e.kind = .resourceExhausted) :
      Step config sink (m, s) .openRecord (.failed e) none (m, s)
  | unknown {m : Ledger} {s : σ} {call : Call} {d : Descriptor} {e : Error}
      (named : call.descriptor? = some d) (absent : d ∉ m) (kind : e.kind = .invalidDescriptor) :
      Step config sink (m, s) call (.failed e) none (m, s)
  | wrote {m : Ledger} {s : σ} {d : Descriptor} {tokens : List Token} {token : Token}
      (known : m.lookup d = some tokens) :
      Step config sink (m, s) (.write d token) .done none (m.insert d (tokens ++ [token]), s)
  | measured {m : Ledger} {s : σ} {d : Descriptor} {tokens : List Token}
      (known : m.lookup d = some tokens) :
      Step config sink (m, s) (.length d) (.length (Token.totalLength tokens)) none (m, s)
  | dropped {m : Ledger} {s : σ} {d : Descriptor} {tokens : List Token} {wanted : Bool}
      {event : UInt16} {stamp : Stamp} (known : m.lookup d = some tokens)
      (kept : ¬Submits config wanted tokens) :
      Step config sink (m, s) (.close d wanted event stamp) .done none (m.erase d, s)
  | accepted {m : Ledger} {s t : σ} {d : Descriptor} {tokens : List Token} {wanted : Bool}
      {event : UInt16} {stamp : Stamp} {size : UInt32} (known : m.lookup d = some tokens)
      (submits : Submits config wanted tokens)
      (announced : size.toNat = (Record.image event stamp size tokens).length)
      (taken : sink (Record.image event stamp size tokens) s = (.ok (), t)) :
      Step config sink (m, s) (.close d wanted event stamp) .done
        (some (Record.image event stamp size tokens)) (m.erase d, t)
  | refused {m : Ledger} {s t : σ} {d : Descriptor} {tokens : List Token} {wanted : Bool}
      {event : UInt16} {stamp : Stamp} {size : UInt32} {e : SinkError}
      (known : m.lookup d = some tokens) (submits : Submits config wanted tokens)
      (announced : size.toNat = (Record.image event stamp size tokens).length)
      (refusal : sink (Record.image event stamp size tokens) s = (.error e, t)) :
      Step config sink (m, s) (.close d wanted event stamp) (.failed ⟨.submission, e.text⟩)
        (some (Record.image event stamp size tokens)) (m.erase d, t)

inductive Run (config : PoolConfig) (sink : Sink σ) :
    Ledger × σ → List Call → List Answer → List (List UInt8) → Ledger × σ → Prop
  | nil {start : Ledger × σ} : Run config sink start [] [] [] start
  | cons {start next last : Ledger × σ} {call : Call} {answer : Answer}
      {handed : Option (List UInt8)} {calls : List Call} {answers : List Answer}
      {images : List (List UInt8)} (first : Step config sink start call answer handed next)
      (others : Run config sink next calls answers images last) :
      Run config sink start (call :: calls) (answer :: answers) (handed.toList ++ images) last

end Ledger

end AuditTrail

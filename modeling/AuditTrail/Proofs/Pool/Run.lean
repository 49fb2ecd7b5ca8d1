import AuditTrail.Pool

namespace AuditTrail

namespace Pool

inductive Call
  | openRecord
  | write (d : Descriptor) (token : Token)
  | length (d : Descriptor)
  | close (d : Descriptor) (wanted : Bool) (event : UInt16) (stamp : Stamp)
  deriving DecidableEq

inductive Answer
  | opened (d : Descriptor)
  | done
  | length (n : Nat)
  | failed (e : Error)
  deriving DecidableEq

def Answer.of (answer : α → Answer) : Except PoolError α → Answer
  | .ok a => answer a
  | .error e => .failed e.toError

@[simp] theorem Answer.of_ok (answer : α → Answer) (a : α) : of answer (.ok a) = answer a := rfl

@[simp] theorem Answer.of_error (answer : α → Answer) (e : PoolError) :
    of answer (.error e) = .failed e.toError := rfl

def step (sink : Sink σ) : Call → Pool × σ → Answer × (Pool × σ)
  | .openRecord, (p, state) =>
    let (result, p) := p.openRecord
    (.of .opened result, (p, state))
  | .write d token, (p, state) =>
    let (result, p) := p.write d token
    (.of (fun _ => .done) result, (p, state))
  | .length d, (p, state) => (.of .length (p.length d), (p, state))
  | .close d wanted event stamp, (p, state) =>
    let (result, after) := close sink d wanted event stamp (p, state)
    (.of (fun _ => .done) result, after)

def run (sink : Sink σ) : List Call → Pool × σ → List Answer × (Pool × σ)
  | [], start => ([], start)
  | call :: calls, start =>
    let (answer, next) := step sink call start
    let (answers, last) := run sink calls next
    (answer :: answers, last)

theorem run_cons (sink : Sink σ) (call : Call) (calls : List Call) (start : Pool × σ) :
    run sink (call :: calls) start =
      ((step sink call start).1 :: (run sink calls (step sink call start).2).1,
        (run sink calls (step sink call start).2).2) := rfl

end Pool

def Sink.logged (sink : Sink σ) : Sink (List (List UInt8) × σ) := fun data (log, state) =>
  let (result, state) := sink data state
  (result, (log ++ [data], state))

end AuditTrail

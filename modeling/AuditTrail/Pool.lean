import AuditTrail.Record.Image
import AuditTrail.Sink

/-! The pool of records that are being put together. Each open record has a slot; closed slots are
used again, and the generation in a descriptor tells the records of one slot apart. -/

namespace AuditTrail

structure PoolConfig where
  maxRecords : Nat := 20
  maxRecordSize : Nat := 32767
  carried : maxRecordSize ≤ Record.maxSize := by decide
  deriving DecidableEq

def PoolConfig.withRecordSize (config : PoolConfig) (size : Nat) : PoolConfig :=
  { config with maxRecordSize := min size Record.maxSize, carried := Nat.min_le_right .. }

structure Descriptor where
  index : UInt32
  generation : UInt32
  deriving DecidableEq

structure Slot where
  generation : UInt32 := 0
  isOpen : Bool := false
  tokens : List Token := []
  length : Nat := 0
  deriving DecidableEq

/-- The slots in use so far, and those of them that are free, the one freed last in front. -/
structure Pool where
  config : PoolConfig := {}
  slots : List Slot := []
  free : List Nat := []
  deriving DecidableEq

inductive PoolError
  | allOpen (limit : Nat)
  | noSlot (index : UInt32)
  | notOpen (index : UInt32)
  /-- The record was closed, and its slot holds a later one. -/
  | closedSince (index generation now : UInt32)
  | refused (error : SinkError)
  deriving DecidableEq

def PoolError.toError : PoolError → Error
  | .allOpen limit => ⟨.resourceExhausted, s!"all {limit} records are open"⟩
  | .noSlot index => ⟨.invalidDescriptor, s!"record {index} does not exist"⟩
  | .notOpen index => ⟨.invalidDescriptor, s!"record {index} is not open"⟩
  | .closedSince index generation now =>
    ⟨.invalidDescriptor, s!"record {index} was closed (generation {generation}, now {now})"⟩
  | .refused e => e.toError

namespace Pool

def slot (p : Pool) (index : Nat) : Slot := p.slots[index]?.getD {}

def setSlot (p : Pool) (index : Nat) (s : Slot) : Pool :=
  { p with slots := p.slots.set index s }

/-- How many records are open, those that are just being closed included. -/
def openRecords (p : Pool) : Nat := p.slots.length - p.free.length

def claim (p : Pool) : Except PoolError (Nat × Pool) :=
  match p.free with
  | index :: free => .ok (index, { p with free })
  | [] =>
    if p.slots.length < p.config.maxRecords then
      .ok (p.slots.length, { p with slots := p.slots ++ [{}] })
    else .error (.allOpen p.config.maxRecords)

def openRecord (p : Pool) : Except PoolError Descriptor × Pool :=
  match p.claim with
  | .error e => (.error e, p)
  | .ok (index, p) =>
    let generation := (p.slot index).generation + 1
    (.ok ⟨UInt32.ofNat index, generation⟩, p.setSlot index { generation, isOpen := true })

def find (p : Pool) (d : Descriptor) : Except PoolError Slot :=
  let s := p.slot d.index.toNat
  if p.config.maxRecords ≤ d.index.toNat then .error (.noSlot d.index)
  else if !s.isOpen then .error (.notOpen d.index)
  else if s.generation ≠ d.generation then
    .error (.closedSince d.index d.generation s.generation)
  else .ok s

def write (p : Pool) (d : Descriptor) (token : Token) : Except PoolError Unit × Pool :=
  match p.find d with
  | .error e => (.error e, p)
  | .ok s =>
    (.ok (), p.setSlot d.index.toNat
      { s with tokens := s.tokens ++ [token], length := s.length + token.encodedLength })

def length (p : Pool) (d : Descriptor) : Except PoolError Nat :=
  (p.find d).map (·.length)

def image? (config : PoolConfig) (event : UInt16) (stamp : Stamp) (s : Slot) :
    Option (List UInt8) :=
  let size := s.length + Token.headerSize + Token.trailerSize
  if size ≤ config.maxRecordSize ∧ size ≤ Record.maxSize then
    some (Record.image event stamp (UInt32.ofNat size) s.tokens)
  else none

def detach (p : Pool) (index : Nat) (s : Slot) : Pool :=
  p.setSlot index { generation := s.generation }

def release (p : Pool) (index : Nat) : Pool := { p with free := index :: p.free }

/-- Closes a record. If it is wanted and not too large, its bytes go to a sink, which sees the pool
while the record is neither open nor free; whatever the sink does, the slot is free afterwards. -/
def closeWith (sink : Sink (Pool × σ)) (d : Descriptor) (wanted : Bool) (event : UInt16)
    (stamp : Stamp) : Pool × σ → Except PoolError Unit × (Pool × σ)
  | (p, state) =>
    match p.find d with
    | .error e => (.error e, (p, state))
    | .ok s =>
      let image := if wanted then image? p.config event stamp s else none
      let (result, (p, state)) := sink.offer image (p.detach d.index.toNat s, state)
      (result.mapError .refused, (p.release d.index.toNat, state))

def aside (sink : Sink σ) : Sink (Pool × σ) := fun data (p, state) =>
  let (result, state) := sink data state
  (result, (p, state))

def close (sink : Sink σ) (d : Descriptor) (wanted : Bool) (event : UInt16) (stamp : Stamp) :
    Pool × σ → Except PoolError Unit × (Pool × σ) :=
  closeWith (aside sink) d wanted event stamp

end Pool

end AuditTrail

import AuditTrail.Error

/-! Byte streams that deliver their data in pieces and may fail on the way. Loops over reads end
because each read that delivers or fails uses up a byte or a fault. -/

namespace AuditTrail

structure Fault where
  position : Nat
  error : IoError
  deriving DecidableEq

/-- What a stream has yet to deliver, where it stands, how many bytes one read delivers at most,
and the failures to come, in their order. -/
structure Stream where
  rest : List UInt8
  position : Nat := 0
  chunk : Option Nat := none
  faults : List Fault := []
  deriving DecidableEq

namespace Stream

def size (s : Stream) : Nat := s.rest.length + s.faults.length

def deliver (s : Stream) (n : Nat) : List UInt8 × Stream :=
  let n := (s.chunk.map (min n)).getD n
  let piece := s.rest.take n
  (piece, { s with rest := s.rest.drop n, position := s.position + piece.length })

/-- One read of up to `n` bytes. It never goes past the next fault; at the fault it fails, once.
No bytes mean the end of the data. -/
def read (s : Stream) (n : Nat) : Except IoError (List UInt8) × Stream :=
  match s.faults with
  | [] =>
    let (piece, s) := s.deliver n
    (.ok piece, s)
  | fault :: faults =>
    if fault.position ≤ s.position then (.error fault.error, { s with faults })
    else
      let (piece, s) := s.deliver (min n (fault.position - s.position))
      (.ok piece, s)

theorem size_deliver (s : Stream) (n : Nat) :
    (s.deliver n).2.size + (s.deliver n).1.length = s.size := by
  simp only [deliver, size, List.length_take, List.length_drop]
  omega

theorem size_of_read_ok {s t : Stream} {n : Nat} {piece : List UInt8}
    (h : s.read n = (.ok piece, t)) : t.size + piece.length = s.size := by
  unfold read at h
  split at h
  · cases h
    exact size_deliver s n
  · split at h
    · cases h
    · cases h
      exact size_deliver s _

theorem size_of_read_error {s t : Stream} {n : Nat} {e : IoError}
    (h : s.read n = (.error e, t)) : t.size < s.size := by
  unfold read at h
  split at h
  · cases h
  · rename_i fault faults hfaults
    split at h
    · cases h
      simp [size, hfaults]
    · cases h

def byte? (s : Stream) : Except IoError (Option UInt8) × Stream :=
  match _h : s.read 1 with
  | (.ok [], t) => (.ok none, t)
  | (.ok (b :: _), t) => (.ok (some b), t)
  | (.error e, t) => if e.kind = .interrupted then t.byte? else (.error e, t)
termination_by s.size
decreasing_by exact size_of_read_error _h

theorem size_of_byte? {s t : Stream} {r : Except IoError (Option UInt8)}
    (h : s.byte? = (r, t)) (hr : r ≠ .ok none) : t.size < s.size := by
  fun_induction byte? s with
  | case1 s u hread => simp_all
  | case2 s b bs u hread =>
    cases h
    have := size_of_read_ok hread
    simp only [List.length_cons] at this
    omega
  | case3 s e u hread hkind ih => exact Nat.lt_trans (ih h) (size_of_read_error hread)
  | case4 s e u hread hkind =>
    cases h
    exact size_of_read_error hread

def seek (p : UInt8 → Bool) (s : Stream) : Except IoError (Option UInt8) × Stream :=
  match _h : s.byte? with
  | (.ok (some b), t) => if p b then (.ok (some b), t) else seek p t
  | (.ok none, t) => (.ok none, t)
  | (.error e, t) => (.error e, t)
termination_by s.size
decreasing_by exact size_of_byte? _h (by simp)

theorem size_of_seek {p : UInt8 → Bool} {s t : Stream} {r : Except IoError (Option UInt8)}
    (h : s.seek p = (r, t)) (hr : r ≠ .ok none) : t.size < s.size := by
  fun_induction seek p s with
  | case1 s b u hbyte hb =>
    cases h
    exact size_of_byte? hbyte (by simp)
  | case2 s b u hbyte hb ih => exact Nat.lt_trans (ih h) (size_of_byte? hbyte (by simp))
  | case3 s u hbyte => simp_all
  | case4 s e u hbyte =>
    cases h
    exact size_of_byte? hbyte (by simp)

/-- Reads until `n` bytes have come or the data ends. An interrupted read is tried again; any
other failure loses the bytes read before it. -/
def upTo (s : Stream) (n : Nat) : Except IoError (List UInt8) × Stream :=
  if n = 0 then (.ok [], s)
  else
    match _h : s.read n with
    | (.ok [], t) => (.ok [], t)
    | (.ok (b :: bs), t) =>
      match t.upTo (n - (b :: bs).length) with
      | (.ok more, u) => (.ok (b :: bs ++ more), u)
      | (.error e, u) => (.error e, u)
    | (.error e, t) => if e.kind = .interrupted then t.upTo n else (.error e, t)
termination_by s.size
decreasing_by
  · have := size_of_read_ok _h
    simp only [List.length_cons] at this
    omega
  · exact size_of_read_error _h

theorem size_upTo_le (s : Stream) (n : Nat) : (s.upTo n).2.size ≤ s.size := by
  fun_induction upTo s n with
  | case1 s => exact Nat.le_refl _
  | case2 s n hn u hread =>
    have := size_of_read_ok hread
    simp_all
  | case3 s n hn b bs u hread more v hmore ih =>
    have := size_of_read_ok hread
    rw [hmore] at ih
    simp only [List.length_cons] at ih this ⊢
    omega
  | case4 s n hn b bs u hread e v hmore ih =>
    have := size_of_read_ok hread
    rw [hmore] at ih
    simp only [List.length_cons] at ih this ⊢
    omega
  | case5 s n hn e u hread hkind ih =>
    exact Nat.le_trans ih (Nat.le_of_lt (size_of_read_error hread))
  | case6 s n hn e u hread hkind => exact Nat.le_of_lt (size_of_read_error hread)

end Stream

end AuditTrail

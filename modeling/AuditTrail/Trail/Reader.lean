import AuditTrail.Record.Basic
import AuditTrail.Record.Frame

namespace AuditTrail

inductive TrailError
  | frame (error : FrameError)
  | record (error : Record.DecodeError)
  deriving DecidableEq

namespace TrailError

def toError : TrailError → Error
  | .frame e => e.toError
  | .record e => e.toError

def ends (e : TrailError) : Bool := e.toError.kind = .io

end TrailError

structure TrailReader where
  stream : Stream
  done : Bool := false
  deriving DecidableEq

namespace TrailReader

/-- The next record, or why there is none where one began. After the last record, and after a
failed transfer, the reader is done and leaves the stream alone. -/
def next (r : TrailReader) : Option (Except TrailError Record) × TrailReader :=
  if r.done then (none, r)
  else
    match r.stream.readFrame with
    | (.ok none, stream) => (none, ⟨stream, true⟩)
    | (.ok (some frame), stream) => (some ((Record.decode frame).mapError .record), ⟨stream, false⟩)
    | (.error e, stream) =>
      let e := TrailError.frame e
      (some (.error e), ⟨stream, e.ends⟩)

theorem size_of_next {r s : TrailReader} {item : Except TrailError Record}
    (h : r.next = (some item, s)) : s.stream.size < r.stream.size := by
  unfold next at h
  split at h
  · cases h
  · split at h <;> rename_i hframe <;> cases h
    · exact Stream.size_of_readFrame hframe (by simp)
    · exact Stream.size_of_readFrame hframe (by simp)

def run (r : TrailReader) : List (Except TrailError Record) × TrailReader :=
  match _h : r.next with
  | (none, s) => ([], s)
  | (some item, s) =>
    let (items, last) := s.run
    (item :: items, last)
termination_by r.stream.size
decreasing_by exact size_of_next _h

end TrailReader

end AuditTrail

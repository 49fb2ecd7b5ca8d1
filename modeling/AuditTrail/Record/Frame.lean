import AuditTrail.Stream
import AuditTrail.Token.Kind

/-! Frames: the bytes of one record. A frame starts with a header tag and the four bytes of its
own length. -/

namespace AuditTrail

def Frame.startLength : Nat := 5

inductive FrameError
  | io (error : IoError)
  /-- The stream ended inside the length field. -/
  | tornLength
  /-- The announced length does not even cover the tag and the length field. -/
  | lengthTooSmall (announced : Nat)
  /-- The stream ended before the announced length. -/
  | torn (announced available : Nat)
  deriving DecidableEq

namespace FrameError

def toError : FrameError → Error
  | .io e => e.toError
  | .tornLength => ⟨.truncated, "stream ended inside the record length"⟩
  | .lengthTooSmall announced =>
    ⟨.invalidFormat, s!"record length {announced} is shorter than its own header fields"⟩
  | .torn announced available =>
    ⟨.truncated, s!"record announces {announced} bytes, stream ended after {available}"⟩

end FrameError

namespace Stream

def readFrameBody (tag : UInt8) (s : Stream) : Except FrameError (List UInt8) × Stream :=
  match s.upTo 4 with
  | (.error e, s) => (.error (if e.kind = .unexpectedEof then .tornLength else .io e), s)
  | (.ok [a, b, c, d], s) =>
    let announced := (BigEndian.word32 a b c d).toNat
    if announced < Frame.startLength then (.error (.lengthTooSmall announced), s)
    else
      match s.upTo (announced - Frame.startLength) with
      | (.error e, s) => (.error (.io e), s)
      | (.ok rest, s) =>
        let available := Frame.startLength + rest.length
        if available < announced then (.error (.torn announced available), s)
        else (.ok (tag :: a :: b :: c :: d :: rest), s)
  | (.ok _, s) => (.error .tornLength, s)

/-- The next frame on a stream. The bytes before it are passed over, up to the first byte that
is a header tag; if there is none, the stream holds no more frames. -/
def readFrame (s : Stream) : Except FrameError (Option (List UInt8)) × Stream :=
  match s.seek Tag.isHeader with
  | (.error e, s) => (.error (.io e), s)
  | (.ok none, s) => (.ok none, s)
  | (.ok (some tag), s) =>
    match s.readFrameBody tag with
    | (.error e, s) => (.error e, s)
    | (.ok frame, s) => (.ok (some frame), s)

theorem size_readFrameBody_le (tag : UInt8) (s : Stream) :
    (s.readFrameBody tag).2.size ≤ s.size := by
  have h := s.size_upTo_le 4
  unfold readFrameBody
  split <;> rename_i hread
  · rwa [hread] at h
  · rename_i a b c d t
    rw [hread] at h
    have h' := t.size_upTo_le ((BigEndian.word32 a b c d).toNat - Frame.startLength)
    dsimp only
    split
    · exact h
    · split <;> rename_i hrest
      · rw [hrest] at h'
        exact Nat.le_trans h' h
      · rw [hrest] at h'
        split <;> exact Nat.le_trans h' h
  · rwa [hread] at h

theorem size_of_readFrame {s t : Stream} {r : Except FrameError (Option (List UInt8))}
    (h : s.readFrame = (r, t)) (hr : r ≠ .ok none) : t.size < s.size := by
  unfold readFrame at h
  split at h <;> rename_i hseek
  · cases h
    exact size_of_seek hseek (by simp)
  · cases h
    contradiction
  · rename_i tag u
    have hbody := size_readFrameBody_le tag u
    have := size_of_seek hseek (by simp)
    split at h <;> rename_i hframe <;> rw [hframe] at hbody <;> cases h <;>
      exact Nat.lt_of_le_of_lt hbody this

def frames (s : Stream) : List (Except FrameError (Option (List UInt8)) × Stream) :=
  match _h : s.readFrame with
  | (.ok none, t) => [(.ok none, t)]
  | (.ok (some frame), t) => (.ok (some frame), t) :: t.frames
  | (.error e, t) => (.error e, t) :: t.frames
termination_by s.size
decreasing_by all_goals exact size_of_readFrame _h (by simp)

end Stream

end AuditTrail

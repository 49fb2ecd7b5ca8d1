import AuditTrail.Proofs.Trail.Framed
import AuditTrail.Trail.Dump

namespace AuditTrail

structure Stream.Alike (s t : Stream) : Prop where
  chunk : s.chunk ≠ some 0
  chunk' : t.chunk ≠ some 0
  ends : s.failure = none
  ends' : t.failure = none
  front : s.front = t.front
  position : s.position = t.position

namespace Stream

theorem Alike.readFrame {s t : Stream} (h : s.Alike t) :
    s.readFrame.1 = t.readFrame.1 ∧ s.readFrame.2.Alike t.readFrame.2 := by
  have scanned := (readFrame_scanned h.chunk (by simp [h.ends])).of_failure_none h.ends
  have scanned' := (readFrame_scanned h.chunk' (by simp [h.ends'])).of_failure_none h.ends'
  rw [← h.front] at scanned'
  obtain ⟨item, reaches⟩ := scanned
  obtain ⟨item', reaches'⟩ := scanned'
  refine ⟨item.trans item'.symm, ?_⟩
  exact {
    chunk := reaches.chunk ▸ h.chunk
    chunk' := reaches'.chunk ▸ h.chunk'
    ends := reaches.failure.trans h.ends
    ends' := reaches'.failure.trans h.ends'
    front := by rw [reaches.front, reaches'.front, h.front]
    position := by rw [reaches.position, reaches'.position, h.front, h.position] }

theorem alike_of_interrupted (data : List UInt8) {chunk : Option Nat} (hchunk : chunk ≠ some 0)
    {faults : List Fault} (h : ∀ fault ∈ faults, fault.error.kind = .interrupted) :
    Alike { rest := data, chunk, faults } { rest := data } := by
  have outlook := Outlook.of_interrupted data 0 h
  exact ⟨hchunk, nofun, congrArg (·.failure) outlook, rfl, congrArg (·.front) outlook, rfl⟩

/-- What the first reads give when frame after frame is read, also past the last frame, each with
the number of bytes used up by then. -/
def readings (s : Stream) : Nat → List (Except FrameError (Option (List UInt8)) × Nat)
  | 0 => []
  | n + 1 => (s.readFrame.1, s.readFrame.2.position) :: s.readFrame.2.readings n

theorem Alike.readings_eq {s t : Stream} (h : s.Alike t) (n : Nat) :
    s.readings n = t.readings n := by
  induction n generalizing s t with
  | zero => rfl
  | succ n ih =>
    obtain ⟨item, left⟩ := h.readFrame
    rw [readings, readings, item, left.position, ih left]

end Stream

namespace TrailReader

/-- The first items of a reader, also those after its end, each with the number of bytes used up by
then. -/
def readings (r : TrailReader) : Nat → List (Option (Except TrailError Record) × Nat)
  | 0 => []
  | n + 1 => (r.next.1, r.next.2.stream.position) :: r.next.2.readings n

structure Alike (r q : TrailReader) : Prop where
  stream : r.stream.Alike q.stream
  done : r.done = q.done

theorem Alike.next {r q : TrailReader} (h : r.Alike q) :
    r.next.1 = q.next.1 ∧ r.next.2.Alike q.next.2 := by
  obtain ⟨same, left⟩ := h.stream.readFrame
  have done := h.done
  rcases hr : r.stream.readFrame with ⟨item, s⟩
  rcases hq : q.stream.readFrame with ⟨item', t⟩
  rw [hr, hq] at same left
  obtain rfl : item = item' := same
  simp only [TrailReader.next, hr, hq, ← done]
  split
  · exact ⟨rfl, h⟩
  · cases item with
    | error e => exact ⟨rfl, left, rfl⟩
    | ok frame? => cases frame? <;> exact ⟨rfl, left, rfl⟩

theorem Alike.readings_eq {r q : TrailReader} (h : r.Alike q) (n : Nat) :
    r.readings n = q.readings n := by
  induction n generalizing r q with
  | zero => rfl
  | succ n ih =>
    obtain ⟨item, left⟩ := h.next
    rw [readings, readings, item, left.stream.position, ih left]

theorem Alike.run_eq {r q : TrailReader} (h : r.Alike q) : r.run.1 = q.run.1 := by
  fun_induction run r generalizing q with
  | case1 r s hnext =>
    obtain ⟨item, -⟩ := h.next
    rw [hnext] at item
    have ends : q.next = (none, q.next.2) := Prod.ext item.symm rfl
    rw [run_of_next_none ends]
  | case2 r item s hnext items last hrun ih =>
    obtain ⟨same, left⟩ := h.next
    rw [hnext] at same left
    have goesOn : q.next = (some item, q.next.2) := Prod.ext same.symm rfl
    rw [run_of_next_some goesOn, ← ih left, hrun]

/-- However a stream delivers its data, in pieces of whatever size and with any interruptions, it
reads like one that delivers all of it at once: the same frames, the same items of a reader, each
behind the same number of bytes, and the same text and summary when it is printed. -/
theorem delivery_irrelevant (data : List UInt8) (chunk : Option Nat) (hchunk : chunk ≠ some 0)
    (faults : List Fault) (hfaults : ∀ fault ∈ faults, fault.error.kind = .interrupted) :
    let s : Stream := { rest := data, chunk, faults }
    let whole : Stream := { rest := data }
    (∀ n, s.readings n = whole.readings n) ∧
      (∀ n, (mk s false).readings n = (mk whole false).readings n) ∧
      ∀ options db out, Trail.dump options db s out = Trail.dump options db whole out := by
  intro s whole
  have streams : s.Alike whole := Stream.alike_of_interrupted data hchunk hfaults
  have readers : Alike (mk s false) (mk whole false) := ⟨streams, rfl⟩
  refine ⟨streams.readings_eq, readers.readings_eq, fun options db out => ?_⟩
  rw [Trail.dump, Trail.dump, readers.run_eq]

theorem delivery_irrelevant_interrupted :
    let faults : List Fault := [0, 3, 7, 11, 11, 40].map (⟨·, .interrupted, "interrupted"⟩)
    let s : Stream :=
      { rest := [0x61, 0x14, 0, 0, 0, 7, 0x15, 0x14, 0x15, 0, 0], chunk := some 2, faults }
    (some 2 ≠ some 0) ∧ (∀ fault ∈ faults, fault.error.kind = .interrupted) ∧
      s.readings 3 = [(.ok (some [0x14, 0, 0, 0, 7, 0x15, 0x14]), 8), (.error .tornLength, 11),
        (.ok none, 11)] := by
  intro faults s
  have kinds : ∀ fault ∈ faults, fault.error.kind = .interrupted := by decide
  have irrelevant := (delivery_irrelevant s.rest (some 2) (by decide) faults kinds).1 3
  have whole : Stream.Faultless { rest := s.rest } := ⟨rfl, nofun⟩
  have frame : IsFrame [0x14, 0, 0, 0, 7, 0x15, 0x14] := by decide
  have torn : IsFrame [0x15, 0, 0, 0, 5] := by decide
  have passed : IsJunk [0x61] := by decide
  have first : Stream.readFrame { rest := s.rest } =
      (.ok (some [0x14, 0, 0, 0, 7, 0x15, 0x14]), Stream.advance { rest := s.rest } 8) :=
    whole.readFrame_of_frame passed frame (show _ = [0x61] ++ (_ ++ [0x15, 0, 0]) from rfl)
  have second := (whole.advance 8).readFrame_of_cut torn (by decide) (by decide)
    (show _ = [0x15, 0, 0, 0, 5].take 3 from rfl)
  have third := ((whole.advance 8).advance 3).readFrame_of_junk (by decide)
  refine ⟨by decide, kinds, irrelevant.trans ?_⟩
  simp only [Stream.readings, first, second, third]
  rfl

end TrailReader

end AuditTrail

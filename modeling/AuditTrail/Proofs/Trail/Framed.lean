import AuditTrail.Proofs.Record.Frame
import AuditTrail.Trail.Reader

namespace AuditTrail

structure Segment where
  junk : List UInt8
  frame : List UInt8
  isJunk : IsJunk junk := by decide
  isFrame : IsFrame frame := by decide

namespace Segment

def bytes (x : Segment) : List UInt8 := x.junk ++ x.frame

def withBody (x : Segment) (body : List UInt8) (h : body.length = x.frame.length - 5) :
    Segment where
  junk := x.junk
  frame := x.frame.take 5 ++ body
  isJunk := x.isJunk
  isFrame := x.isFrame.replace h

theorem exists_of_frames {frames : List (List UInt8)} (h : ∀ frame ∈ frames, IsFrame frame) :
    ∃ segments : List Segment, segments.map (·.frame) = frames ∧
      segments.flatMap bytes = frames.flatten := by
  induction frames with
  | nil => exact ⟨[], rfl, rfl⟩
  | cons frame frames ih =>
    rw [List.forall_mem_cons] at h
    obtain ⟨segments, rfl, whole⟩ := ih h.2
    refine ⟨{ junk := [], frame, isFrame := h.1 } :: segments, rfl, ?_⟩
    rw [List.flatMap_cons, whole, bytes]
    rfl

end Segment

namespace TrailReader

def itemOf (frame : List UInt8) : Except TrailError Record :=
  (Record.decode frame).mapError .record

theorem run_of_next_none {r s : TrailReader} (h : r.next = (none, s)) : r.run = ([], s) := by
  rw [run]
  split <;> simp_all

theorem run_of_next_some {r s : TrailReader} {item : Except TrailError Record}
    (h : r.next = (some item, s)) : r.run = (item :: s.run.1, s.run.2) := by
  rw [run]
  split <;> simp_all

theorem run_of_readFrame_none {s t : Stream} (h : s.readFrame = (.ok none, t)) :
    (mk s false).run = ([], ⟨t, true⟩) :=
  run_of_next_none (by simp [next, h])

theorem run_of_readFrame_some {s t : Stream} {frame : List UInt8}
    (h : s.readFrame = (.ok (some frame), t)) :
    (mk s false).run = (itemOf frame :: (mk t false).run.1, (mk t false).run.2) :=
  run_of_next_some (by simp [next, h, itemOf])

theorem run_of_readFrame_error {s t : Stream} {f : FrameError} (h : s.readFrame = (.error f, t)) :
    (mk s false).run = (.error (.frame f) :: (mk t (TrailError.frame f).ends).run.1,
      (mk t (TrailError.frame f).ends).run.2) :=
  run_of_next_some (by simp [next, h])

theorem run_of_done (s : Stream) : (mk s true).run = ([], ⟨s, true⟩) :=
  run_of_next_none rfl

theorem run_of_frame {s : Stream} (h : s.Faultless) {junk frame after : List UInt8}
    (hjunk : IsJunk junk) (hframe : IsFrame frame) (hrest : s.rest = junk ++ (frame ++ after)) :
    (mk s false).run =
      (itemOf frame :: (mk (s.advance (junk.length + frame.length)) false).run.1,
        (mk (s.advance (junk.length + frame.length)) false).run.2) :=
  run_of_readFrame_some (h.readFrame_of_frame hjunk hframe hrest)

theorem run_of_junk {s : Stream} (h : s.Faultless) (hjunk : IsJunk s.rest) :
    (mk s false).run = ([], ⟨s.advance s.rest.length, true⟩) :=
  run_of_readFrame_none (h.readFrame_of_junk hjunk)

theorem run_append {s : Stream} (h : s.Faultless) (segments : List Segment)
    {after : List UInt8} (hrest : s.rest = segments.flatMap Segment.bytes ++ after) :
    (mk s false).run =
      (segments.map (itemOf ·.frame) ++
          (mk (s.advance (segments.flatMap Segment.bytes).length) false).run.1,
        (mk (s.advance (segments.flatMap Segment.bytes).length) false).run.2) := by
  induction segments generalizing s with
  | nil => rfl
  | cons x segments ih =>
    have front : s.rest = x.junk ++ (x.frame ++ (segments.flatMap Segment.bytes ++ after)) := by
      rw [hrest, List.flatMap_cons, Segment.bytes]
      simp only [List.append_assoc]
    have behind : (s.advance (x.junk.length + x.frame.length)).rest =
        segments.flatMap Segment.bytes ++ after := by
      rw [Stream.rest_advance, front, ← List.append_assoc, ← List.length_append,
        List.drop_left]
    have total : x.junk.length + x.frame.length + (segments.flatMap Segment.bytes).length =
        ((x :: segments).flatMap Segment.bytes).length := by
      rw [List.flatMap_cons, Segment.bytes, List.length_append, List.length_append]
    rw [run_of_frame h x.isJunk x.isFrame front, ih (h.advance _) behind,
      Stream.advance_advance, total]
    rfl

theorem run_framed {s : Stream} (h : s.Faultless) (segments : List Segment)
    {last : List UInt8} (hlast : IsJunk last)
    (hrest : s.rest = segments.flatMap Segment.bytes ++ last) :
    (mk s false).run =
      (segments.map (itemOf ·.frame), ⟨s.advance s.rest.length, true⟩) := by
  have behind : (s.advance (segments.flatMap Segment.bytes).length).rest = last := by
    rw [Stream.rest_advance, hrest, List.drop_left]
  have total : (segments.flatMap Segment.bytes).length + last.length = s.rest.length := by
    rw [hrest, List.length_append]
  rw [run_append h segments hrest, run_of_junk (h.advance _) (behind ▸ hlast), behind,
    Stream.advance_advance, total, List.append_nil]

/-- Whatever pieces a stream without faults delivers them in, a reader gives one item for each
frame, in order and by this frame's bytes alone, and stops at the end of the stream. So other bytes
in the body of one frame change no other item. -/
theorem run_segments (segments : List Segment) (last : List UInt8) (hlast : IsJunk last)
    (s : Stream) (hs : s.Faultless) (hrest : s.rest = segments.flatMap Segment.bytes ++ last) :
    (mk s false).run =
        (segments.map fun x => (Record.decode x.frame).mapError .record,
          ⟨{ s with rest := [], position := s.position + s.rest.length }, true⟩) ∧
      ∀ before x after body, segments = before ++ x :: after →
        body.length = x.frame.length - 5 →
        ∀ t : Stream, t.Faultless →
          t.rest = before.flatMap Segment.bytes ++ (x.junk ++ x.frame.take 5 ++ body) ++
            after.flatMap Segment.bytes ++ last →
          (mk t false).run.1 = (mk s false).run.1.set before.length
            ((Record.decode (x.frame.take 5 ++ body)).mapError .record) := by
  have whole := run_framed hs segments hlast hrest
  refine ⟨?_, ?_⟩
  · rw [whole, Stream.advance, List.take_length, List.drop_length]
    rfl
  · rintro before x after body rfl hbody t ht htrest
    have damaged : t.rest =
        (before ++ x.withBody body hbody :: after).flatMap Segment.bytes ++ last := by
      rw [htrest, List.flatMap_append, List.flatMap_cons]
      simp only [Segment.bytes, Segment.withBody, List.append_assoc]
    rw [run_framed ht _ hlast damaged, whole, List.map_append, List.map_append, List.map_cons,
      List.map_cons]
    simp [Segment.withBody, itemOf]

theorem run_segments_nested :
    let segments : List Segment :=
      [⟨[0x61], [0x15, 0, 0, 0, 10, 0x14, 0, 0, 0, 5], by decide, by decide⟩,
        ⟨[], [0x14, 0, 0, 0, 5], by decide, by decide⟩]
    let s : Stream :=
      { rest := [0x61, 0x15, 0, 0, 0, 10, 0x14, 0, 0, 0, 5, 0x14, 0, 0, 0, 5, 0x7F]
        chunk := some 1 }
    IsJunk [0x7F] ∧ s.Faultless ∧ s.rest = segments.flatMap Segment.bytes ++ [0x7F] ∧
      (mk s false).run =
        ([itemOf [0x15, 0, 0, 0, 10, 0x14, 0, 0, 0, 5], itemOf [0x14, 0, 0, 0, 5]],
          ⟨{ rest := [], position := 17, chunk := some 1 }, true⟩) := by
  intro segments s
  have hs : s.Faultless := ⟨rfl, by decide⟩
  exact ⟨by decide, hs, rfl, (run_segments segments [0x7F] (by decide) s hs rfl).1⟩

end TrailReader

end AuditTrail

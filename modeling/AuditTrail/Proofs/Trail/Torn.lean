import AuditTrail.Proofs.Cut
import AuditTrail.Proofs.Trail.Framed

namespace AuditTrail

theorem Stream.advance_length {s : Stream} {n : Nat} (h : s.rest.length = n) :
    s.advance n = { s with rest := [], position := s.position + n } := by
  rw [advance_eq (Nat.le_of_eq h.symm), List.drop_of_length_le (Nat.le_of_eq h)]

namespace TrailReader

theorem run_of_nil {s : Stream} (h : s.Faultless) (hrest : s.rest = []) :
    (mk s false).run = ([], ⟨s, true⟩) := by
  have none : IsJunk [] := by decide
  rw [run_of_junk h (hrest ▸ none), hrest, List.length_nil, Stream.advance_zero]

theorem run_of_cut {s : Stream} (h : s.Faultless) {frame : List UInt8} (hframe : IsFrame frame)
    {n : Nat} (pos : n ≠ 0) (inside : n < frame.length) (hrest : s.rest = frame.take n) :
    (mk s false).run =
      ([.error (.frame (.ofCut frame.length n))], ⟨s.advance n, true⟩) := by
  have read := h.readFrame_of_cut hframe pos inside hrest
  have goesOn : (TrailError.frame (.ofCut frame.length n)).ends = false := by
    rw [TrailError.ends, TrailError.toError, FrameError.kind_ofCut]
    rfl
  have behind : (s.advance n).rest = [] := by
    rw [Stream.rest_advance, hrest, List.drop_take_self]
  rw [run_of_readFrame_error read, goesOn, run_of_nil (h.advance n) behind]

theorem run_frames_append {s : Stream} (h : s.Faultless) {frames : List (List UInt8)}
    (hframes : ∀ frame ∈ frames, IsFrame frame) {after : List UInt8}
    (hrest : s.rest = frames.flatten ++ after) :
    (mk s false).run =
      (frames.map itemOf ++ (mk (s.advance frames.flatten.length) false).run.1,
        (mk (s.advance frames.flatten.length) false).run.2) := by
  obtain ⟨segments, rfl, whole⟩ := Segment.exists_of_frames hframes
  rw [← whole] at hrest ⊢
  rw [run_append h segments hrest, List.map_map]
  rfl

theorem run_frames {s : Stream} (h : s.Faultless) {frames : List (List UInt8)}
    (hframes : ∀ frame ∈ frames, IsFrame frame) (hrest : s.rest = frames.flatten) :
    (mk s false).run = (frames.map itemOf, ⟨s.advance frames.flatten.length, true⟩) := by
  have behind : (s.advance frames.flatten.length).rest = [] := by
    rw [Stream.rest_advance, hrest, List.drop_length]
  rw [run_frames_append h hframes (hrest.trans (List.append_nil _).symm),
    run_of_nil (h.advance _) behind, List.append_nil]

theorem run_frames_cut {s : Stream} (h : s.Faultless) {frames : List (List UInt8)}
    (hframes : ∀ frame ∈ frames, IsFrame frame) {frame : List UInt8} (hframe : IsFrame frame)
    {k : Nat} (pos : k ≠ 0) (inside : k < frame.length)
    (hrest : s.rest = frames.flatten ++ frame.take k) :
    (mk s false).run =
      (frames.map itemOf ++ [.error (.frame (.ofCut frame.length k))],
        ⟨s.advance (frames.flatten.length + k), true⟩) := by
  have behind : (s.advance frames.flatten.length).rest = frame.take k := by
    rw [Stream.rest_advance, hrest, List.drop_left]
  rw [run_frames_append h hframes hrest, run_of_cut (h.advance _) hframe pos inside behind,
    Stream.advance_advance]

/-- Of frames cut off behind their first `n` bytes, a reader gives those that are whole, in order.
If and only if the cut falls strictly inside a frame one error follows, which says that the frame is
truncated; and then the reader is done, at the end of the stream. -/
theorem run_torn (frames : List (List UInt8)) (hframes : ∀ frame ∈ frames, IsFrame frame) (n : Nat)
    (hn : n ≤ frames.flatten.length) (s : Stream) (hs : s.Faultless)
    (hrest : s.rest = frames.flatten.take n) :
    ∃ (whole cut : List (List UInt8)) (torn : Option FrameError), frames = whole ++ cut ∧
      whole.flatten.length ≤ n ∧
      (∀ frame ∈ cut.head?, n < whole.flatten.length + frame.length) ∧
      (mk s false).run =
        (whole.map (fun frame => (Record.decode frame).mapError .record) ++
            torn.toList.map fun e => .error (.frame e),
          ⟨{ s with rest := [], position := s.position + n }, true⟩) ∧
      (torn.isSome ↔ CutsInside frames n) ∧ ∀ e ∈ torn, e.toError.kind = .truncated := by
  have ends : s.advance n = { s with rest := [], position := s.position + n } :=
    Stream.advance_length (by rw [hrest, List.length_take_of_le hn])
  rw [← ends]
  obtain ⟨whole, cut, rfl, rfl, taken⟩ | ⟨whole, frame, after, k, rfl, pos, inside, rfl, taken⟩ :=
    exists_take_flatten frames hn
  · rw [List.forall_mem_append] at hframes
    refine ⟨whole, cut, none, rfl, Nat.le_refl _, fun frame member => ?_, ?_, ?_, nofun⟩
    · exact Nat.lt_add_of_pos_right (hframes.2 frame (List.mem_of_mem_head? member)).length_pos
    · rw [run_frames hs hframes.1 (hrest.trans taken), Option.toList_none, List.map_nil,
        List.append_nil]
      rfl
    · exact ⟨nofun, fun cuts => absurd cuts (not_cutsInside whole cut)⟩
  · rw [List.forall_mem_append, List.forall_mem_cons] at hframes
    refine ⟨whole, frame :: after, some (.ofCut frame.length k), rfl, Nat.le_add_right _ _, ?_, ?_,
      ?_, ?_⟩
    · rintro _ ⟨⟩
      exact Nat.add_lt_add_left inside _
    · rw [run_frames_cut hs hframes.1 hframes.2.1 pos inside (hrest.trans taken)]
      rfl
    · exact ⟨fun _ => ⟨whole, frame, after, rfl, by omega, by omega⟩, fun _ => rfl⟩
    · rintro _ ⟨⟩
      exact FrameError.kind_ofCut ..

theorem run_torn_nested :
    let first : List UInt8 := [0x14, 0, 0, 0, 5]
    let second : List UInt8 := [0x15, 0, 0, 0, 12, 0x14, 0, 0, 0, 5, 0x15, 0x14]
    let s : Stream := { rest := [first, second].flatten.take 15, chunk := some 1 }
    (∀ frame ∈ [first, second], IsFrame frame) ∧ 15 ≤ [first, second].flatten.length ∧
      s.Faultless ∧
      ∃ e, (mk s false).run = ([(Record.decode first).mapError .record, .error (.frame e)],
          ⟨{ s with rest := [], position := 15 }, true⟩) ∧ e.toError.kind = .truncated := by
  intro first second s
  have frames : ∀ frame ∈ [first, second], IsFrame frame := by decide
  have hs : s.Faultless := ⟨rfl, by decide⟩
  obtain ⟨whole, cut, torn, parts, bound, past, hrun, inside, truncated⟩ :=
    run_torn [first, second] frames 15 (by decide) s hs rfl
  obtain ⟨e, rfl⟩ := Option.isSome_iff_exists.1
    (inside.2 ⟨[first], second, [], rfl, by decide, by decide⟩)
  refine ⟨frames, by decide, hs, e, ?_, truncated e rfl⟩
  -- Too few frames would leave the first to the cut, and too many would go past it.
  match whole, cut, parts with
  | [], _, rfl => exact absurd (past first rfl) (by decide)
  | [_], _, rfl => exact hrun
  | [_, _], _, rfl => exact absurd bound (by decide)

end TrailReader

end AuditTrail

import AuditTrail.Proofs.Trail.Print
import AuditTrail.Proofs.Trail.Torn

/-! Streams that fail before the end of their data. A reader gives the items that lie in front of
the failure, then the failure, and nothing after it; a frame that the failure falls into is not
made up from the bytes that came. -/

namespace AuditTrail

structure Stream.Breaks (e : IoError) (s t : Stream) : Prop where
  chunk : s.chunk ≠ some 0
  chunk' : t.chunk ≠ some 0
  fails : s.failure = some e
  ends : t.failure = none
  front : s.front = t.front

namespace Stream

variable {e : IoError} {s t : Stream}

theorem breaks_of_fault (data : List UInt8) {chunk : Option Nat} (hchunk : chunk ≠ some 0) {p : Nat}
    (hp : p ≤ data.length) (he : e.kind ≠ .interrupted) :
    Breaks e { rest := data, chunk, faults := [⟨p, e⟩] } { rest := data.take p } := by
  have outlook : Outlook.of data 0 [⟨p, e⟩] = ⟨data.take p, some e⟩ :=
    Outlook.of_fault data 0 [] hp he
  exact ⟨hchunk, nofun, congrArg (·.failure) outlook, rfl, congrArg (·.front) outlook⟩

/-- What a frame read off each of the two streams comes to: the same item, with the failure still
ahead, or the failure on one side and the end on the other, maybe inside a frame. -/
inductive Breaking (e : IoError) :
    (x y : Except FrameError (Option (List UInt8)) × Stream) → Prop
  | frame {frame : List UInt8} {u v : Stream} (ahead : Breaks e u v) :
      Breaking e (.ok (some frame), u) (.ok (some frame), v)
  | tooSmall {announced : Nat} {u v : Stream} (ahead : Breaks e u v) :
      Breaking e (.error (.lengthTooSmall announced), u) (.error (.lengthTooSmall announced), v)
  | between {u v : Stream} : Breaking e (.error (.io e), u) (.ok none, v)
  | inside {f : FrameError} {u v w : Stream} (kind : f.toError.kind = .truncated)
      (spent : v.readFrame = (.ok none, w)) : Breaking e (.error (.io e), u) (.error f, v)

theorem readFrame_of_front_nil (h : s.chunk ≠ some 0) (ends : s.failure = none)
    (empty : s.front = []) : s.readFrame = (.ok none, s.readFrame.2) := by
  have scanned := (readFrame_scanned h (by simp [ends])).of_failure_none ends
  rw [empty] at scanned
  exact Prod.ext scanned.1 rfl

theorem Breaks.readFrame (h : Breaks e s t) (he : e.kind ≠ .unexpectedEof) :
    Breaking e s.readFrame t.readFrame := by
  have whole := (readFrame_scanned h.chunk' (by simp [h.ends])).of_failure_none h.ends
  have scanned := readFrame_scanned h.chunk (by simpa [h.fails] using he)
  rw [h.front] at scanned
  generalize s.readFrame = x at *
  rcases hy : t.readFrame with ⟨item', v⟩
  rw [hy] at whole
  obtain ⟨same, reaches'⟩ := whole
  dsimp only at same reaches'
  subst same
  cases scanned with
  | @settled item n u here reaches =>
    have ahead : Breaks e u v := {
      chunk := reaches.chunk ▸ h.chunk
      chunk' := reaches'.chunk ▸ h.chunk'
      fails := reaches.failure.trans h.fails
      ends := reaches'.failure.trans h.ends
      front := by rw [reaches.front, reaches'.front, h.front, here]; rfl }
    rw [here]
    obtain ⟨frame, rfl⟩ | ⟨announced, rfl⟩ := Frame.scan_settled here
    · exact .frame ahead
    · exact .tooSmall ahead
  | ended _ ends => cases ends.symm.trans h.fails
  | @failed item e' u short fails =>
    cases fails.symm.trans h.fails
    rw [short] at reaches' ⊢
    obtain rfl | ⟨f, rfl, kind⟩ := Frame.scan_short short
    · exact .between
    · have empty : v.front = [] := reaches'.front.trans List.drop_length
      exact .inside kind (readFrame_of_front_nil (reaches'.chunk ▸ h.chunk')
        (reaches'.failure.trans h.ends) empty)

end Stream

theorem FrameError.goesOn_of_truncated {f : FrameError} (h : f.toError.kind = .truncated) :
    Trail.GoesOn (.error (.frame f)) := by
  rintro _ ⟨⟩
  simp [TrailError.ends, TrailError.toError, h]

theorem Record.DecodeError.goesOn (e : Record.DecodeError) :
    (TrailError.record e).ends = false := by
  cases e with
  | token e =>
    obtain ⟨offset, cause⟩ := e
    cases cause <;> rfl
  | noHeader => rfl

namespace TrailReader

/-- An item that whole bytes of the trail settle. -/
def Settled (item : Except TrailError Record) : Prop :=
  (∃ frame, item = itemOf frame) ∨ ∃ announced, item = .error (.frame (.lengthTooSmall announced))

theorem Settled.goesOn {item : Except TrailError Record} (h : Settled item) :
    Trail.GoesOn item := by
  rintro e rfl
  obtain ⟨frame, same⟩ | ⟨announced, same⟩ := h
  · rw [itemOf] at same
    cases hdecode : Record.decode frame with
    | ok record => rw [hdecode] at same; cases same
    | error e => rw [hdecode] at same; cases same; exact e.goesOn
  · cases same
    rfl

theorem Settled.not_truncated {f : FrameError} (h : Settled (.error (.frame f))) :
    f.toError.kind ≠ .truncated := by
  obtain ⟨frame, same⟩ | ⟨announced, same⟩ := h
  · rw [itemOf] at same
    cases hdecode : Record.decode frame <;> rw [hdecode] at same <;> cases same
  · cases same
    intro truncated
    cases truncated

theorem run_breaks {e : IoError} (he : e.kind ≠ .unexpectedEof) {s t : Stream}
    (h : Stream.Breaks e s t) :
    ∃ (earlier : List (Except TrailError Record)) (torn : Option FrameError) (last : Stream),
      (mk s false).run = (earlier ++ [.error (.frame (.io e))], ⟨last, true⟩) ∧
      (mk t false).run.1 = earlier ++ torn.toList.map (fun f => .error (.frame f)) ∧
      (∀ item ∈ earlier, Settled item) ∧ ∀ f ∈ torn, f.toError.kind = .truncated := by
  have ends : (TrailError.frame (.io e)).ends = true := by
    simp [TrailError.ends, TrailError.toError, FrameError.toError, IoError.toError, he]
  induction s using Stream.frames.induct generalizing t with
  | case1 s u hs =>
    cases hs ▸ h.readFrame he
  | case2 s frame u hs ih =>
    rcases ht : t.readFrame with ⟨item, v⟩
    cases ht ▸ hs ▸ h.readFrame he with
    | frame ahead =>
      obtain ⟨earlier, torn, last, run, whole, settled, kinds⟩ := ih ahead
      refine ⟨itemOf frame :: earlier, torn, last, ?_, ?_, ?_, kinds⟩
      · rw [run_of_readFrame_some hs, run, List.cons_append]
      · rw [run_of_readFrame_some ht, whole, List.cons_append]
      · exact List.forall_mem_cons.2 ⟨.inl ⟨frame, rfl⟩, settled⟩
  | case3 s f u hs ih =>
    rcases ht : t.readFrame with ⟨item, v⟩
    cases ht ▸ hs ▸ h.readFrame he with
    | @tooSmall announced _ _ ahead =>
      obtain ⟨earlier, torn, last, run, whole, settled, kinds⟩ := ih ahead
      have goesOn : (TrailError.frame (.lengthTooSmall announced)).ends = false := rfl
      refine ⟨.error (.frame (.lengthTooSmall announced)) :: earlier, torn, last, ?_, ?_, ?_, kinds⟩
      · rw [run_of_readFrame_error hs, goesOn, run, List.cons_append]
      · rw [run_of_readFrame_error ht, goesOn, whole, List.cons_append]
      · exact List.forall_mem_cons.2 ⟨.inr ⟨announced, rfl⟩, settled⟩
    | between =>
      refine ⟨[], none, u, ?_, ?_, List.forall_mem_nil _, by simp⟩
      · rw [run_of_readFrame_error hs, ends, run_of_done]
        rfl
      · rw [run_of_readFrame_none ht]
        rfl
    | @inside torn _ _ _ kind spent =>
      have goesOn := FrameError.goesOn_of_truncated kind _ rfl
      refine ⟨[], some torn, u, ?_, ?_, List.forall_mem_nil _, ?_⟩
      · rw [run_of_readFrame_error hs, ends, run_of_done]
        rfl
      · rw [run_of_readFrame_error ht, goesOn, run_of_readFrame_none spent]
        rfl
      · rintro _ ⟨⟩
        exact kind

/-- A transfer that fails after some bytes of a trail neither makes up nor hides a record. The
reader gives what it would give if the trail ended there, less the frame that would be torn then,
and after that the failure, once; and then it is done. When the trail is printed, the failure is
reported behind the text of the same items. -/
theorem run_failing (data : List UInt8) (chunk : Option Nat) (hchunk : chunk ≠ some 0) (p : Nat)
    (hp : p ≤ data.length) (e : IoError) (hinterrupted : e.kind ≠ .interrupted)
    (heof : e.kind ≠ .unexpectedEof) :
    let s : Stream := { rest := data, chunk, faults := [⟨p, e⟩] }
    let cut : Stream := { rest := data.take p }
    ∃ (earlier : List (Except TrailError Record)) (torn : Option FrameError) (last : TrailReader),
      (mk cut false).run.1 = earlier ++ torn.toList.map (fun f => .error (.frame f)) ∧
      (∀ f ∈ torn, f.toError.kind = .truncated) ∧
      (∀ f, .error (.frame f) ∈ earlier → f.toError.kind ≠ .truncated) ∧
      (∀ f, .error f ∈ earlier → f.toError.kind ≠ .io) ∧
      (mk s false).run = (earlier ++ [.error (.frame (.io e))], last) ∧
      (FrameError.io e).toError.kind = .io ∧ last.next = (none, last) ∧
      ∀ options db out,
        (out.Admits (Trail.printed options db (mk cut false).run.1).length →
          (Trail.dump options db cut out).2 =
            out.append (Trail.printed options db (mk cut false).run.1)) ∧
        (out.Admits (Trail.printed options db earlier).length →
          Trail.dump options db s out =
            (.error ⟨.other, (FrameError.io e).toError.text⟩,
              out.append (Trail.printed options db earlier))) := by
  intro s cut
  have breaks : s.Breaks e cut := Stream.breaks_of_fault data hchunk hp hinterrupted
  obtain ⟨earlier, torn, last, run, whole, settled, kinds⟩ := run_breaks heof breaks
  have io : (FrameError.io e).toError.kind = .io := if_neg heof
  refine ⟨earlier, torn, ⟨last, true⟩, whole, kinds, fun f member => ?_, fun f member => ?_, run,
    io, rfl, fun options db out => ⟨fun room => ?_, fun room => ?_⟩⟩
  · exact (settled _ member).not_truncated
  · exact of_decide_eq_false ((settled _ member).goesOn f rfl)
  · refine Trail.dump_of_goOn options db ?_ room
    rw [whole, List.forall_mem_append, List.forall_mem_map]
    refine ⟨fun item member => (settled item member).goesOn, fun f member => ?_⟩
    exact FrameError.goesOn_of_truncated (kinds f (Option.mem_toList.1 member))
  · have goOn : ∀ item ∈ earlier, Trail.GoesOn item := fun item member =>
      (settled item member).goesOn
    exact Trail.dump_of_ends options db run goOn (decide_eq_true io) room

theorem run_failing_inside :
    let first : List UInt8 := [0x14, 0, 0, 0, 5]
    let second : List UInt8 := [0x15, 0, 0, 0, 12, 0x14, 0, 0, 0, 5, 0x15, 0x14]
    let e : IoError := ⟨.permissionDenied, "permission denied"⟩
    let s : Stream := { rest := first ++ second, chunk := some 3, faults := [⟨15, e⟩] }
    some 3 ≠ some 0 ∧ 15 ≤ (first ++ second).length ∧ e.kind ≠ .interrupted ∧
      e.kind ≠ .unexpectedEof ∧
      ∃ last, (mk s false).run = ([itemOf first, .error (.frame (.io e))], last) ∧
        last.next = (none, last) := by
  intro first second e s
  refine ⟨by decide, by decide, by decide, by decide, ?_⟩
  obtain ⟨earlier, torn, last, whole, -, intact, -, run, -, done, -⟩ :=
    run_failing (first ++ second) (some 3) (by decide) 15 (by decide) e (by decide) (by decide)
  have frames : ∀ frame ∈ [first], IsFrame frame := by decide
  have frame : IsFrame second := by decide
  have cut := run_frames_cut (s := { rest := (first ++ second).take 15 }) (k := 10) ⟨rfl, nofun⟩
    frames frame (by decide) (by decide) rfl
  rw [cut] at whole
  refine ⟨last, ?_, done⟩
  cases torn with
  | none =>
    -- The torn frame is none of the earlier items.
    rw [Option.toList_none, List.map_nil, List.append_nil] at whole
    exact absurd (FrameError.kind_ofCut second.length 10) (intact _ (whole ▸ by simp))
  | some f =>
    obtain ⟨rfl, -⟩ := List.append_inj' whole rfl
    exact run

end TrailReader

end AuditTrail

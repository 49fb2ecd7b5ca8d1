import AuditTrail.Proofs.Text.Utf8
import AuditTrail.Proofs.Trail.Failing
import Mathlib.Data.List.Basic

namespace AuditTrail

theorem Stream.Faultless.goOn {s : Stream} (h : s.Faultless) :
    ∀ item ∈ (TrailReader.mk s false).run.1, Trail.GoesOn item := by
  induction s using Stream.frames.induct with
  | case1 s t hs =>
    rw [TrailReader.run_of_readFrame_none hs]
    exact List.forall_mem_nil _
  | case2 s frame t hs ih =>
    obtain ⟨-, rfl⟩ := Prod.mk.inj (h.readFrame_eq.symm.trans hs)
    rw [TrailReader.run_of_readFrame_some hs, List.forall_mem_cons]
    exact ⟨TrailReader.Settled.goesOn (.inl ⟨frame, rfl⟩), ih (h.advance _)⟩
  | case3 s f t hs ih =>
    obtain ⟨scanned, rfl⟩ := Prod.mk.inj (h.readFrame_eq.symm.trans hs)
    have goesOn : (TrailError.frame f).ends = false :=
      decide_eq_false (Frame.kind_ne_io_of_scan scanned)
    rw [TrailReader.run_of_readFrame_error hs, goesOn, List.forall_mem_cons]
    refine ⟨?_, ih (h.advance _)⟩
    rintro _ ⟨⟩
    exact goesOn

namespace Segment

theorem exists_append (front back : List Segment) {junk last : List UInt8} (hjunk : IsJunk junk)
    (hlast : IsJunk last) :
    ∃ (all : List Segment) (final : List UInt8), IsJunk final ∧
      all.map (·.frame) = front.map (·.frame) ++ back.map (·.frame) ∧
      all.flatMap bytes ++ final =
        (front.flatMap bytes ++ junk) ++ (back.flatMap bytes ++ last) := by
  cases back with
  | nil =>
    refine ⟨front, junk ++ last, hjunk.append hlast, ?_, ?_⟩
    · simp
    · simp
  | cons x back =>
    -- The junk behind the front lies before the first frame of the back.
    refine ⟨front ++ { x with junk := junk ++ x.junk, isJunk := hjunk.append x.isJunk } :: back,
      last, hlast, ?_, ?_⟩
    · simp
    · simp [bytes]

end Segment

namespace Trail

variable (options : RenderOptions) (db : Database)

def frameText (frame : List UInt8) : String :=
  match Record.decode frame with
  | .error _ => "Corrupted audit trail\n"
  | .ok record =>
    let lines := record.tokens.map (·.render options db)
    if options.oneLine then options.delimiter.intercalate lines ++ "\n"
    else String.join (lines.map (· ++ "\n"))

def framesText (frames : List (List UInt8)) : String :=
  String.join (frames.map (frameText options db))

def framesSummary (frames : List (List UInt8)) : TrailSummary where
  records := frames.countP fun frame => (Record.decode frame).isOk
  corrupt := frames.countP fun frame => !(Record.decode frame).isOk

theorem itemText_itemOf (frame : List UInt8) :
    itemText options db (TrailReader.itemOf frame) = frameText options db frame := by
  rw [TrailReader.itemOf, frameText]
  cases Record.decode frame <;> rfl

theorem isOk_itemOf (frame : List UInt8) :
    (TrailReader.itemOf frame).isOk = (Record.decode frame).isOk := by
  rw [TrailReader.itemOf]
  cases Record.decode frame <;> rfl

theorem printed_itemOf (frames : List (List UInt8)) :
    printed options db (frames.map TrailReader.itemOf) =
      Text.bytes (framesText options db frames) := by
  rw [printed_eq, framesText, List.map_map]
  simp only [Function.comp_def, itemText_itemOf]

theorem ofItems_itemOf (frames : List (List UInt8)) :
    TrailSummary.ofItems (frames.map TrailReader.itemOf) = framesSummary frames := by
  simp only [TrailSummary.ofItems, framesSummary, List.countP_map, Function.comp_def, isOk_itemOf]

theorem framesText_append (front back : List (List UInt8)) :
    framesText options db (front ++ back) =
      framesText options db front ++ framesText options db back := by
  rw [framesText, List.map_append, String.join_append]
  rfl

theorem framesSummary_append (front back : List (List UInt8)) :
    framesSummary (front ++ back) = framesSummary front + framesSummary back := by
  simp only [framesSummary, List.countP_append]
  rfl

section

variable {out : Output} (unlimited : out.limit = none) (flushes : out.flushError = none)
include unlimited flushes

theorem dump_framed {s : Stream} (hs : s.Faultless) (segments : List Segment) {last : List UInt8}
    (hlast : IsJunk last) (hrest : s.rest = segments.flatMap Segment.bytes ++ last) :
    dump options db s out =
      (.ok (framesSummary (segments.map (·.frame))),
        out.append (Text.bytes (framesText options db (segments.map (·.frame))))) := by
  have items : (TrailReader.mk s false).run.1 =
      (segments.map (·.frame)).map TrailReader.itemOf := by
    rw [TrailReader.run_framed hs segments hlast hrest, List.map_map]
    rfl
  rw [dump_eq options db hs.goOn unlimited flushes, items, ofItems_itemOf, printed_itemOf]

end

/-- A trail of frames with junk between them is printed frame by frame: each that decodes as the
lines of its tokens, each that does not as one line, and the summary counts the two kinds. So two
such trails, one behind the other, are printed as the one text behind the other, and their
summaries add up. -/
theorem dump_segments (options : RenderOptions) (db : Database) (segments : List Segment)
    (last : List UInt8) (hlast : IsJunk last) (s : Stream) (hs : s.Faultless)
    (hrest : s.rest = segments.flatMap Segment.bytes ++ last) (out : Output)
    (unlimited : out.limit = none) (flushes : out.flushError = none) :
    dump options db s out =
        (.ok (framesSummary (segments.map (·.frame))),
          out.append (Text.bytes (framesText options db (segments.map (·.frame))))) ∧
      ∀ (more : List Segment) (final : List UInt8), IsJunk final →
        ∀ t u : Stream, t.Faultless → u.Faultless →
          t.rest = more.flatMap Segment.bytes ++ final → u.rest = s.rest ++ t.rest →
          ∃ front back text text',
            dump options db s out = (.ok front, out.append (Text.bytes text)) ∧
            dump options db t out = (.ok back, out.append (Text.bytes text')) ∧
            dump options db u out =
              (.ok (front + back), out.append (Text.bytes (text ++ text'))) := by
  have first := dump_framed options db unlimited flushes hs segments hlast hrest
  refine ⟨first, fun more final hfinal t u ht hu htrest hurest => ?_⟩
  have second := dump_framed options db unlimited flushes ht more hfinal htrest
  obtain ⟨all, junk, hjunk, frames, whole⟩ := Segment.exists_append segments more hlast hfinal
  have both := dump_framed options db unlimited flushes hu all hjunk
    (by rw [whole, hurest, hrest, htrest])
  rw [frames, framesSummary_append, framesText_append] at both
  exact ⟨_, _, _, _, first, second, both⟩

theorem dump_segments_corrupted :
    let record : List UInt8 :=
      [0x14, 0, 0, 0, 25, 11, 0, 1, 0, 0, 0, 0, 0, 0, 0, 0, 0, 0, 0x13, 0xB1, 5, 0, 0, 0, 25]
    let segments : List Segment :=
      [⟨[0x61], record, by decide, by decide⟩, ⟨[0x62], [0x15, 0, 0, 0, 5], by decide, by decide⟩]
    let s : Stream := { rest := segments.flatMap Segment.bytes ++ [0x7F], chunk := some 3 }
    let options : RenderOptions := { raw := true, delimiter := ";", oneLine := true }
    IsJunk [0x7F] ∧ s.Faultless ∧ s.rest = segments.flatMap Segment.bytes ++ [0x7F] ∧
      dump options {} s {} = (.ok { records := 1, corrupt := 1 },
        { taken := Text.bytes "20;25;11;1;0;0;0;19;25\nCorrupted audit trail\n" }) := by
  intro record segments s options
  have hs : s.Faultless := ⟨rfl, by decide⟩
  have dumped := (dump_segments options {} segments [0x7F] (by decide) s hs rfl {} rfl rfl).1
  refine ⟨by decide, hs, rfl, ?_⟩
  rw [dumped]
  decide +kernel

end Trail

end AuditTrail

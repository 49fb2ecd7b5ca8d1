import AuditTrail.Proofs.Pool.Records
import AuditTrail.Proofs.Pool.Run
import AuditTrail.Proofs.Sink

namespace AuditTrail

namespace Pool

/-- The record that a call hands to a sink, if it is a close that does. -/
def handed? (p : Pool) : Call → Option (List UInt8)
  | .close d wanted event stamp =>
    match p.find d with
    | .error _ => none
    | .ok s => if wanted then image? p.config event stamp s else none
  | _ => none

/-- The records handed to a sink by the calls that are answered with success. -/
def accepted (sink : Sink σ) : List Call → Pool × σ → List (List UInt8)
  | [], _ => []
  | call :: calls, (p, s) =>
    let (answer, (q, (handed, t))) := step sink.logged call (p, ([], s))
    (if answer = .done then handed else []) ++ accepted sink calls (q, t)

section

variable (sink : Sink σ) (p : Pool) (s : σ)

theorem step_close (d : Descriptor) (wanted : Bool) (event : UInt16) (stamp : Stamp) :
    step sink (.close d wanted event stamp) (p, s) =
      match p.find d with
      | .error e => (.failed e.toError, (p, s))
      | .ok slot =>
        let result := sink.offer (p.handed? (.close d wanted event stamp)) s
        (.of (fun _ => .done) (result.1.mapError .refused),
          ((p.detach d.index.toNat slot).release d.index.toNat, result.2)) := by
  rw [step, close, closeWith, handed?]
  cases p.find d with
  | error e => rfl
  | ok slot => simp only [offer_aside]

theorem offer_logged (image : Option (List UInt8)) (log : List (List UInt8)) :
    sink.logged.offer image (log, s) =
      ((sink.offer image s).1, (log ++ image.toList, (sink.offer image s).2)) := by
  cases image with
  | none => simp [Sink.offer]
  | some image => rfl

theorem step_logged (call : Call) (log : List (List UInt8)) :
    step sink.logged call (p, (log, s)) =
      ((step sink call (p, s)).1, ((step sink call (p, s)).2.1,
        (log ++ (p.handed? call).toList, (step sink call (p, s)).2.2))) := by
  cases call with
  | openRecord | write | length => simp [step, handed?]
  | close d wanted event stamp =>
    rw [step_close, step_close, offer_logged]
    cases hfind : p.find d with
    | error e => simp [handed?, hfind]
    | ok slot => rfl

theorem step_state (call : Call) :
    (step sink call (p, s)).2.2 = (sink.offer (p.handed? call) s).2 := by
  cases call with
  | openRecord | write | length => rfl
  | close d wanted event stamp =>
    rw [step_close]
    cases hfind : p.find d with
    | error e => simp [handed?, hfind, Sink.offer]
    | ok slot => rfl

theorem step_done_iff {call : Call} {image : List UInt8} (h : p.handed? call = some image) :
    (step sink call (p, s)).1 = .done ↔ (sink image s).1 = .ok () := by
  cases call with
  | openRecord | write | length => cases h
  | close d wanted event stamp =>
    rw [step_close]
    cases hfind : p.find d with
    | error e => simp [handed?, hfind] at h
    | ok slot =>
      simp only [h, Sink.offer]
      cases (sink image s).1 with
      | ok => exact iff_of_true rfl rfl
      | error e => exact iff_of_false nofun nofun

end

def Reckoned (p : Pool) : Prop :=
  ∀ i, (p.slot i).length = Token.totalLength (p.slot i).tokens

namespace Reckoned

variable {p : Pool} (h : p.Reckoned)
include h

theorem of_slots {q : Pool} (same : ∀ i, q.slot i = p.slot i) : q.Reckoned := by
  intro i
  rw [same, h i]

theorem setSlot (i : Nat) {s : Slot} (hs : s.length = Token.totalLength s.tokens) :
    (p.setSlot i s).Reckoned := by
  intro j
  by_cases hi : i < p.slots.length
  · rw [slot_setSlot hi]
    split
    · exact hs
    · exact h j
  · have same : p.setSlot i s = p := by
      rw [Pool.setSlot, List.set_eq_of_length_le (Nat.le_of_not_lt hi)]
    rw [same]
    exact h j

theorem find {d : Descriptor} {s : Slot} (found : p.find d = .ok s) :
    s.length = Token.totalLength s.tokens := by
  obtain ⟨rfl, -⟩ := find_eq_ok found
  exact h _

theorem isFrame {call : Call} {image : List UInt8} (handed : p.handed? call = some image) :
    IsFrame image := by
  cases call with
  | openRecord | write | length => cases handed
  | close d wanted event stamp =>
    cases hfind : p.find d with
    | error e => simp [handed?, hfind] at handed
    | ok s =>
      simp only [handed?, hfind, image?, h.find hfind] at handed
      obtain ⟨-, handed⟩ := Option.ite_none_right_eq_some.1 handed
      obtain ⟨⟨-, small⟩, same⟩ := Option.ite_none_right_eq_some.1 handed
      have frame : IsFrame (Record.Draft.bytes ⟨event, stamp, s.tokens⟩) :=
        Record.Draft.isFrame_bytes small
      exact Option.some.inj same ▸ frame

theorem claim {i : Nat} {q : Pool} (claimed : p.claim = .ok (i, q)) : q.Reckoned :=
  h.of_slots (slot_of_claim claimed)

theorem openRecord : p.openRecord.2.Reckoned := by
  unfold Pool.openRecord
  split
  · exact h
  · next claimed => exact (h.claim claimed).setSlot _ rfl

theorem write (d : Descriptor) (token : Token) : (p.write d token).2.Reckoned := by
  unfold Pool.write
  split
  · exact h
  · next found =>
    refine h.setSlot _ ?_
    rw [Token.totalLength_append, h.find found]
    rfl

theorem step (sink : Sink σ) (call : Call) (s : σ) :
    (step sink call (p, s)).2.1.Reckoned := by
  cases call with
  | openRecord => exact h.openRecord
  | write d token => exact h.write d token
  | length d => exact h
  | close d wanted event stamp =>
    rw [step_close]
    split
    · exact h
    · exact (h.setSlot _ rfl).of_slots fun _ => rfl

end Reckoned

theorem reckoned_new (config : PoolConfig) : Reckoned { config } := fun _ => rfl

theorem accepted_cons (sink : Sink σ) (call : Call) (calls : List Call) (p : Pool) (s : σ) :
    accepted sink (call :: calls) (p, s) =
      (if (step sink call (p, s)).1 = .done then (p.handed? call).toList else []) ++
        accepted sink calls (step sink call (p, s)).2 := by
  rw [accepted, step_logged]
  rfl

theorem run_handed (sink : Sink σ) {p : Pool} (h : p.Reckoned) (s : σ) (calls : List Call) :
    ∃ images, (∀ image ∈ images, IsFrame image) ∧
      (run sink calls (p, s)).2.2 = sink.after images s ∧
      accepted sink calls (p, s) = sink.accepted images s := by
  induction calls generalizing p s with
  | nil => exact ⟨[], nofun, rfl, rfl⟩
  | cons call calls ih =>
    obtain ⟨images, frames, last, kept⟩ := ih (h.step sink call s) (step sink call (p, s)).2.2
    have state := step_state sink p s call
    cases handed : p.handed? call with
    | none =>
      rw [handed] at state
      refine ⟨images, frames, ?_, ?_⟩
      · rw [run_cons]
        exact last.trans (congrArg _ state)
      · rw [accepted_cons, handed]
        simp only [Option.toList_none, ite_self, List.nil_append]
        exact kept.trans (congrArg _ state)
    | some image =>
      rw [handed] at state
      refine ⟨image :: images, List.forall_mem_cons.2 ⟨h.isFrame handed, frames⟩, ?_, ?_⟩
      · rw [run_cons]
        exact last.trans (congrArg _ state)
      · have done := step_done_iff sink p s handed
        rw [accepted_cons, handed]
        by_cases ok : (sink image s).1 = .ok ()
        · rw [if_pos (done.2 ok), Sink.accepted_cons_of_ok ok]
          exact congrArg (image :: ·) (kept.trans (congrArg _ state))
        · rw [if_neg (mt done.1 ok), Sink.accepted_cons_of_not_ok ok]
          exact kept.trans (congrArg _ state)

theorem frames_of_limited (limit : Nat) {failures : Output.Failures}
    (flushes : failures.flushError = none) {images : List (List UInt8)}
    (frames : ∀ image ∈ images, IsFrame image) :
    ∃ torn : Option FrameError, (∀ e ∈ torn, e.toError.kind = .truncated) ∧
      ∀ s : Stream, s.Faultless → s.rest = images.flatten.take limit →
        s.frames.map (·.1) =
          (Sink.accepted Output.submit images (Output.bounded limit failures [])).map
              (fun image => .ok (some image)) ++
            torn.toList.map .error ++ [.ok none] := by
  have nonempty : ∀ image ∈ images, image ≠ [] := by
    rintro image member rfl
    exact frames [] member
  have room : ([] : List UInt8).length ≤ limit := Nat.zero_le limit
  obtain ⟨part, parts, torn⟩ := Output.exists_accepted limit failures flushes nonempty room
  have kept : ∀ image ∈ Sink.accepted Output.submit images (Output.bounded limit failures []),
      IsFrame image := fun image member => frames image (Sink.mem_of_mem_accepted member)
  rw [List.nil_append, List.nil_append] at parts
  rcases torn with rfl | ⟨image, member, k, pos, inside, rfl⟩
  · refine ⟨none, nofun, fun s hs hrest => ?_⟩
    rw [parts, List.append_nil] at hrest
    simpa using hs.frames_flatten kept hrest
  · refine ⟨some (.ofCut image.length k), ?_, fun s hs hrest => ?_⟩
    · rintro _ ⟨⟩
      exact FrameError.kind_ofCut ..
    · rw [parts] at hrest
      simpa using hs.frames_cut kept (frames image member) pos inside hrest

/-- An output of limited length holds the first bytes of all that was submitted to it, and accepts
a record if it got that far; so what is read back from the output of a pool is the records whose
close succeeded, and at most one that is torn. -/
theorem run_limited (limit : Nat) (failures : Output.Failures) :
    (∀ records : List (List UInt8), (∀ data ∈ records, data ≠ []) → ∀ k < records.length,
      ∃ result out,
        (Sink.run Output.submit records { failures with limit := some limit })[k]? =
            some (result, out) ∧
          out.taken = (records.take (k + 1)).flatten.take limit ∧
          (result = .ok () ↔ (records.take (k + 1)).flatten.length ≤ limit ∧
            failures.flushError = none) ∧
          ∀ e, result = .error e → e.kind = .io) ∧
    ∀ (config : PoolConfig) (calls : List Call),
      let start : Pool × Output :=
        ({ config }, { failures with limit := some limit, flushError := none })
      ∃ torn : Option FrameError, (∀ e ∈ torn, e.toError.kind = .truncated) ∧
        ∀ s : Stream, s.Faultless → s.rest = (run Output.submit calls start).2.2.taken →
          s.frames.map (·.1) =
            (accepted Output.submit calls start).map (fun image => .ok (some image)) ++
              torn.toList.map .error ++ [.ok none] := by
  refine ⟨fun records nonempty k hk => Output.run_bounded limit failures nonempty hk, ?_⟩
  intro config calls start
  obtain ⟨images, frames, last, kept⟩ :=
    run_handed Output.submit (reckoned_new config) start.2 calls
  have taken : start.2 = Output.bounded limit { failures with flushError := none } [] := by
    simp [start, Output.bounded]
  rw [last, kept, taken, Output.after_bounded]
  exact frames_of_limited limit rfl frames

theorem run_limited_torn :
    let images : List (List UInt8) :=
      [Record.image 7 {} 33 [.port 25, .sequence 9], Record.image 8 {} 28 [.port 26]]
    let calls : List Call :=
      [.openRecord, .openRecord, .write ⟨1, 1⟩ (.port 25), .write ⟨0, 1⟩ (.port 26),
        .write ⟨1, 1⟩ (.sequence 9), .close ⟨1, 1⟩ true 7 {}, .close ⟨0, 1⟩ true 8 {}, .openRecord,
        .close ⟨0, 2⟩ true 9 {}]
    let start : Pool × Output := ({}, { limit := some 40 })
    (∀ data ∈ images, data ≠ []) ∧ 1 < images.length ∧
      (∃ e out, (Sink.run Output.submit images { limit := some 40 })[1]? = some (.error e, out) ∧
        out.taken = images.flatten.take 40 ∧ e.kind = .io) ∧
      (run Output.submit calls start).2.2.taken = images.flatten.take 40 ∧
      ∃ torn : Option FrameError, (∀ e ∈ torn, e.toError.kind = .truncated) ∧
        ∀ s : Stream, s.Faultless → s.rest = images.flatten.take 40 →
          s.frames.map (·.1) =
            [.ok (some (Record.image 7 {} 33 [.port 25, .sequence 9]))] ++
              torn.toList.map .error ++ [.ok none] := by
  intro images calls start
  have full : ∀ data ∈ images, data ≠ [] := by decide +kernel
  have later : 1 < images.length := by decide
  have beyond : ¬((images.take 2).flatten.length ≤ 40 ∧ (none : Option IoError) = none) := by
    decide +kernel
  have given : (run Output.submit calls start).2.2.taken = images.flatten.take 40 := by
    decide +kernel
  refine ⟨full, later, ?_, given, ?_⟩
  · obtain ⟨result, out, here, taken, ok, kind⟩ := (run_limited 40 {}).1 images full 1 later
    cases result with
    | ok => exact absurd (ok.1 rfl) beyond
    | error e => exact ⟨e, out, here, taken, kind e rfl⟩
  · have kept : accepted Output.submit calls start =
        [Record.image 7 {} 33 [.port 25, .sequence 9]] := by decide +kernel
    obtain ⟨torn, kind, back⟩ := (run_limited 40 {}).2 {} calls
    rw [given, kept] at back
    exact ⟨torn, kind, back⟩

end Pool

end AuditTrail

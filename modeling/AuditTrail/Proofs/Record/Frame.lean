import AuditTrail.Proofs.Record.Scan

namespace AuditTrail

/-- A header tag, the number of all bytes in four bytes, and any bytes after that. -/
def IsFrame : List UInt8 → Prop
  | tag :: a :: b :: c :: d :: body =>
    (tag = 0x14 ∨ tag = 0x15) ∧ (BigEndian.word32 a b c d).toNat = 5 + body.length
  | _ => False

/-- Bytes of which none begins a frame. -/
def IsJunk (bytes : List UInt8) : Prop := 0x14 ∉ bytes ∧ 0x15 ∉ bytes

instance : (bytes : List UInt8) → Decidable (IsFrame bytes)
  | _ :: _ :: _ :: _ :: _ :: _ => inferInstanceAs (Decidable (_ ∧ _))
  | [] | [_] | [_, _] | [_, _, _] | [_, _, _, _] => inferInstanceAs (Decidable False)

instance (bytes : List UInt8) : Decidable (IsJunk bytes) := inferInstanceAs (Decidable (_ ∧ _))

theorem Tag.isHeader_iff (tag : UInt8) : Tag.isHeader tag = true ↔ tag = 0x14 ∨ tag = 0x15 := by
  simp [Tag.isHeader, Kind.tag]

theorem IsJunk.isHeader {bytes : List UInt8} (h : IsJunk bytes) :
    ∀ b ∈ bytes, Tag.isHeader b = false := by
  intro b hb
  rw [← Bool.not_eq_true, Tag.isHeader_iff]
  rintro (rfl | rfl)
  · exact h.1 hb
  · exact h.2 hb

theorem IsJunk.append {front back : List UInt8} (hfront : IsJunk front) (hback : IsJunk back) :
    IsJunk (front ++ back) := by
  simp only [IsJunk, List.mem_append, not_or]
  exact ⟨⟨hfront.1, hback.1⟩, hfront.2, hback.2⟩

theorem IsFrame.exists_eq {frame : List UInt8} (h : IsFrame frame) :
    ∃ tag a b c d body, frame = tag :: a :: b :: c :: d :: body ∧ Tag.isHeader tag = true ∧
      (BigEndian.word32 a b c d).toNat = 5 + body.length := by
  match frame, h with
  | tag :: a :: b :: c :: d :: body, h =>
    exact ⟨tag, a, b, c, d, body, rfl, (Tag.isHeader_iff tag).2 h.1, h.2⟩

theorem IsFrame.length_pos {frame : List UInt8} (h : IsFrame frame) : 0 < frame.length := by
  obtain ⟨tag, a, b, c, d, body, rfl, -, -⟩ := h.exists_eq
  exact Nat.succ_pos _

theorem IsFrame.replace {frame body : List UInt8} (h : IsFrame frame)
    (hbody : body.length = frame.length - 5) : IsFrame (frame.take 5 ++ body) := by
  match frame, h with
  | tag :: a :: b :: c :: d :: old, h =>
    have same : body.length = old.length := hbody
    exact ⟨h.1, h.2.trans (congrArg (5 + ·) same.symm)⟩

def FrameError.ofCut (announced available : Nat) : FrameError :=
  if available < Frame.startLength then .tornLength else .torn announced available

theorem FrameError.kind_ofCut (announced available : Nat) :
    (ofCut announced available).toError.kind = .truncated := by
  rw [ofCut]
  split <;> rfl

namespace Frame

theorem scan_of_mem {passed : List UInt8} (hpassed : ∀ b ∈ passed, Tag.isHeader b = false)
    {tag : UInt8} (htag : Tag.isHeader tag = true) (after : List UInt8) :
    scan (passed ++ tag :: after) = (scanBody tag after).behind (passed.length + 1) := by
  have nowhere : passed.find? Tag.isHeader = none := by simpa using hpassed
  have index : passed.findIdx Tag.isHeader = passed.length := by simpa using hpassed
  have behind : (passed ++ tag :: after).drop (passed.length + 1) = after := by
    rw [← List.drop_drop, List.drop_left]
    rfl
  have first : (passed ++ tag :: after).findIdx Tag.isHeader = passed.length := by
    simp [htag, index, List.findIdx_append, List.findIdx_cons]
  have found : (passed ++ tag :: after).find? Tag.isHeader = some tag := by simp [nowhere, htag]
  rw [scan, found, first]
  simp only [behind]

theorem scan_of_not_mem {bytes : List UInt8} (h : ∀ b ∈ bytes, Tag.isHeader b = false) :
    scan bytes = .short (.ok none) := by
  have nowhere : bytes.find? Tag.isHeader = none := by simpa using h
  rw [scan, nowhere]

section

variable {a b c d : UInt8} {body : List UInt8}
  (size : (BigEndian.word32 a b c d).toNat = 5 + body.length) (tag : UInt8)
include size

theorem scanBody_of_frame (after : List UInt8) :
    scanBody tag (a :: b :: c :: d :: (body ++ after)) =
      .settled (.ok (tag :: a :: b :: c :: d :: body)) (4 + body.length) := by
  have covers : ¬5 + body.length < startLength := Nat.not_lt.2 (Nat.le_add_right ..)
  have behind : 5 + body.length - startLength = body.length := Nat.add_sub_cancel_left ..
  simp [scanBody, size, covers, behind]

theorem scanBody_of_cut {k : Nat} (inside : k < body.length + 4) :
    scanBody tag ((a :: b :: c :: d :: body).take k) =
      .short (.error (.ofCut (body.length + 5) (k + 1))) := by
  match k with
  | 0 | 1 | 2 | 3 => rfl
  | j + 4 =>
    have available : ¬j + 4 + 1 < startLength := Nat.not_lt.2 (Nat.le_add_left 5 j)
    have covers : ¬5 + body.length < startLength := Nat.not_lt.2 (Nat.le_add_right ..)
    have behind : 5 + body.length - startLength = body.length := Nat.add_sub_cancel_left ..
    have taken : (body.take j).length = j := List.length_take_of_le (by omega)
    have part : ¬body.length ≤ j := by omega
    simp only [List.take_succ_cons, scanBody, size, covers, behind, taken, part, if_false,
      FrameError.ofCut, available]
    rw [startLength, Nat.add_comm 5, Nat.add_comm 5]

end

end Frame

namespace Stream

theorem Faultless.readFrame_of_frame {s : Stream} (h : s.Faultless)
    {junk frame after : List UInt8} (hjunk : IsJunk junk) (hframe : IsFrame frame)
    (hrest : s.rest = junk ++ (frame ++ after)) :
    s.readFrame = (.ok (some frame), s.advance (junk.length + frame.length)) := by
  obtain ⟨tag, a, b, c, d, body, rfl, htag, size⟩ := hframe.exists_eq
  have found := Frame.scan_of_mem hjunk.isHeader htag (a :: b :: c :: d :: (body ++ after))
  rw [Frame.scanBody_of_frame size] at found
  have total : junk.length + 1 + (4 + body.length) =
      junk.length + (tag :: a :: b :: c :: d :: body).length := by
    simp only [List.length_cons]
    omega
  rw [h.readFrame_eq, hrest]
  simp only [List.cons_append, found, Frame.Scan.behind, Frame.Scan.item, Frame.Scan.used, total]
  rfl

theorem Faultless.readFrame_of_cut {s : Stream} (h : s.Faultless) {frame : List UInt8}
    (hframe : IsFrame frame) {n : Nat} (pos : n ≠ 0) (inside : n < frame.length)
    (hrest : s.rest = frame.take n) :
    s.readFrame = (.error (.ofCut frame.length n), s.advance n) := by
  obtain ⟨tag, a, b, c, d, body, rfl, htag, size⟩ := hframe.exists_eq
  obtain ⟨k, rfl⟩ := Nat.exists_eq_succ_of_ne_zero pos
  have found := Frame.scan_of_mem (List.forall_mem_nil _) htag ((a :: b :: c :: d :: body).take k)
  rw [Frame.scanBody_of_cut size tag (Nat.lt_of_succ_lt_succ inside), List.nil_append] at found
  have count : s.rest.length = k + 1 := by
    rw [hrest]
    exact List.length_take_of_le (Nat.le_of_lt inside)
  rw [h.readFrame_eq, count, hrest, List.take_succ_cons, found]
  rfl

theorem Faultless.readFrame_of_junk {s : Stream} (h : s.Faultless) (hjunk : IsJunk s.rest) :
    s.readFrame = (.ok none, s.advance s.rest.length) := by
  rw [h.readFrame_eq, Frame.scan_of_not_mem hjunk.isHeader]
  rfl

theorem frames_of_none {s t : Stream} (h : s.readFrame = (.ok none, t)) :
    s.frames = [(.ok none, t)] := by
  rw [frames]
  split <;> simp_all

theorem frames_of_some {s t : Stream} {frame : List UInt8}
    (h : s.readFrame = (.ok (some frame), t)) :
    s.frames = (.ok (some frame), t) :: t.frames := by
  rw [frames]
  split <;> simp_all

theorem frames_of_error {s t : Stream} {e : FrameError} (h : s.readFrame = (.error e, t)) :
    s.frames = (.error e, t) :: t.frames := by
  rw [frames]
  split <;> simp_all

theorem Faultless.frames_append {s : Stream} (h : s.Faultless) {frames : List (List UInt8)}
    (hframes : ∀ frame ∈ frames, IsFrame frame) {after : List UInt8}
    (hrest : s.rest = frames.flatten ++ after) :
    s.frames.map (·.1) = frames.map (fun frame => .ok (some frame)) ++
      (s.advance frames.flatten.length).frames.map (·.1) := by
  have empty : IsJunk [] := by decide
  induction frames generalizing s with
  | nil => rfl
  | cons frame frames ih =>
    rw [List.forall_mem_cons] at hframes
    rw [List.flatten_cons, List.append_assoc] at hrest
    have behind : (s.advance frame.length).rest = frames.flatten ++ after := by
      rw [rest_advance, hrest, List.drop_left]
    have first := h.readFrame_of_frame empty hframes.1 hrest
    rw [List.length_nil, Nat.zero_add] at first
    rw [frames_of_some first, List.map_cons, List.map_cons, List.cons_append,
      ih (h.advance _) hframes.2 behind, advance_advance, List.flatten_cons, List.length_append]

theorem Faultless.frames_nil {s : Stream} (h : s.Faultless) (hrest : s.rest = []) :
    s.frames.map (·.1) = [.ok none] := by
  have empty : IsJunk [] := by decide
  rw [frames_of_none (h.readFrame_of_junk (hrest ▸ empty))]
  rfl

theorem Faultless.frames_flatten {s : Stream} (h : s.Faultless) {frames : List (List UInt8)}
    (hframes : ∀ frame ∈ frames, IsFrame frame) (hrest : s.rest = frames.flatten) :
    s.frames.map (·.1) = frames.map (fun frame => .ok (some frame)) ++ [.ok none] := by
  have behind : (s.advance frames.flatten.length).rest = [] := by
    rw [rest_advance, hrest, List.drop_length]
  rw [h.frames_append hframes (hrest.trans (List.append_nil _).symm),
    (h.advance _).frames_nil behind]

theorem Faultless.frames_cut {s : Stream} (h : s.Faultless) {frames : List (List UInt8)}
    (hframes : ∀ frame ∈ frames, IsFrame frame) {frame : List UInt8} (hframe : IsFrame frame)
    {k : Nat} (pos : k ≠ 0) (inside : k < frame.length)
    (hrest : s.rest = frames.flatten ++ frame.take k) :
    s.frames.map (·.1) = frames.map (fun frame => .ok (some frame)) ++
      [.error (.ofCut frame.length k), .ok none] := by
  have behind : (s.advance frames.flatten.length).rest = frame.take k := by
    rw [rest_advance, hrest, List.drop_left]
  have torn := (h.advance _).readFrame_of_cut hframe pos inside behind
  have ends : ((s.advance frames.flatten.length).advance k).rest = [] := by
    rw [rest_advance, behind, List.drop_take_self]
  rw [h.frames_append hframes hrest, frames_of_error torn, List.map_cons,
    ((h.advance _).advance k).frames_nil ends]

end Stream

end AuditTrail

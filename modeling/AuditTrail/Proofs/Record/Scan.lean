import AuditTrail.Proofs.Stream.Faultless
import AuditTrail.Record.Frame

/-! The first frame in some bytes, found without a stream. What comes of reading a frame depends on
the outlook of the stream alone; the bytes that settle it are all that it uses up. -/

namespace AuditTrail

namespace Frame

/-- What bytes say about the frame that begins in them: the item that it is, settled by the bytes
up to a length, or the item that it is if no more bytes come. -/
inductive Scan (α : Type)
  | settled (item : Except FrameError α) (used : Nat)
  | short (item : Except FrameError α)

namespace Scan

def item : Scan α → Except FrameError α
  | .settled item _ | .short item => item

def used (length : Nat) : Scan α → Nat
  | .settled _ n => n
  | .short _ => length

def behind (passed : Nat) : Scan α → Scan (Option α)
  | .settled item n => .settled (item.map some) (passed + n)
  | .short item => .short (item.map some)

theorem behind_eq_settled {scan : Scan α} {passed n : Nat} {item : Except FrameError (Option α)}
    (h : scan.behind passed = .settled item n) :
    ∃ inner m, scan = .settled inner m ∧ item = inner.map some := by
  cases scan <;> cases h
  exact ⟨_, _, rfl, rfl⟩

theorem behind_eq_short {scan : Scan α} {passed : Nat} {item : Except FrameError (Option α)}
    (h : scan.behind passed = .short item) :
    ∃ inner, scan = .short inner ∧ item = inner.map some := by
  cases scan <;> cases h
  exact ⟨_, rfl, rfl⟩

end Scan

def scanBody (tag : UInt8) : List UInt8 → Scan (List UInt8)
  | a :: b :: c :: d :: rest =>
    let announced := (BigEndian.word32 a b c d).toNat
    let n := announced - startLength
    if announced < startLength then .settled (.error (.lengthTooSmall announced)) 4
    else if n ≤ rest.length then .settled (.ok (tag :: a :: b :: c :: d :: rest.take n)) (4 + n)
    else .short (.error (.torn announced (startLength + rest.length)))
  | _ => .short (.error .tornLength)

def scan (data : List UInt8) : Scan (Option (List UInt8)) :=
  match data.find? Tag.isHeader with
  | none => .short (.ok none)
  | some tag =>
    let n := data.findIdx Tag.isHeader + 1
    (scanBody tag (data.drop n)).behind n

theorem scanBody_settled {tag : UInt8} {data : List UInt8} {item : Except FrameError (List UInt8)}
    {n : Nat} (h : scanBody tag data = .settled item n) :
    (∃ frame, item = .ok frame) ∨ ∃ announced, item = .error (.lengthTooSmall announced) := by
  unfold scanBody at h
  grind

theorem scanBody_short {tag : UInt8} {data : List UInt8} {item : Except FrameError (List UInt8)}
    (h : scanBody tag data = .short item) : ∃ e, item = .error e ∧ e.toError.kind = .truncated := by
  unfold scanBody at h
  grind [FrameError.toError]

theorem scan_settled {data : List UInt8} {item : Except FrameError (Option (List UInt8))} {n : Nat}
    (h : scan data = .settled item n) :
    (∃ frame, item = .ok (some frame)) ∨
      ∃ announced, item = .error (.lengthTooSmall announced) := by
  rw [scan] at h
  split at h
  · cases h
  · obtain ⟨inner, m, hbody, rfl⟩ := Scan.behind_eq_settled h
    obtain ⟨frame, rfl⟩ | ⟨announced, rfl⟩ := scanBody_settled hbody
    · exact .inl ⟨frame, rfl⟩
    · exact .inr ⟨announced, rfl⟩

theorem scan_short {data : List UInt8} {item : Except FrameError (Option (List UInt8))}
    (h : scan data = .short item) :
    item = .ok none ∨ ∃ e, item = .error e ∧ e.toError.kind = .truncated := by
  rw [scan] at h
  split at h
  · cases h
    exact .inl rfl
  · obtain ⟨inner, hbody, rfl⟩ := Scan.behind_eq_short h
    obtain ⟨e, rfl, kind⟩ := scanBody_short hbody
    exact .inr ⟨e, rfl, kind⟩

theorem kind_ne_io_of_scan {data : List UInt8} {e : FrameError}
    (h : (scan data).item = .error e) : e.toError.kind ≠ .io := by
  cases hscan : scan data with
  | settled item n =>
    obtain rfl : item = .error e := by rwa [hscan] at h
    obtain ⟨_, ⟨⟩⟩ | ⟨announced, ⟨⟩⟩ := scan_settled hscan
    nofun
  | short item =>
    obtain rfl : item = .error e := by rwa [hscan] at h
    obtain ⟨⟨⟩⟩ | ⟨_, ⟨⟩, kind⟩ := scan_short hscan
    rw [kind]
    nofun

end Frame

namespace Stream

/-- All that can come of reading a frame, by what the bytes in front say. -/
inductive Scanned (s : Stream) (scan : Frame.Scan α) : Except FrameError α × Stream → Prop
  | settled {item : Except FrameError α} {n : Nat} {t : Stream}
      (here : scan = .settled item n) (reaches : s.Reaches n t) : Scanned s scan (item, t)
  | ended {item : Except FrameError α} {t : Stream} (short : scan = .short item)
      (ends : s.failure = none) (reaches : s.Reaches s.front.length t) : Scanned s scan (item, t)
  | failed {item : Except FrameError α} {e : IoError} {t : Stream} (short : scan = .short item)
      (fails : s.failure = some e) : Scanned s scan (.error (.io e), t)

theorem Scanned.of_failure_none {s : Stream} {scan : Frame.Scan α}
    {x : Except FrameError α × Stream} (h : s.Scanned scan x) (ends : s.failure = none) :
    x.1 = scan.item ∧ s.Reaches (scan.used s.front.length) x.2 := by
  cases h with
  | settled here reaches =>
    subst here
    exact ⟨rfl, reaches⟩
  | ended short _ reaches =>
    subst short
    exact ⟨rfl, reaches⟩
  | failed _ fails => cases ends.symm.trans fails

theorem Reaches.scanned {s t u : Stream} {m : Nat} (h : s.Reaches m t) (hm : m ≤ s.front.length)
    {scan : Frame.Scan α} {item : Except FrameError α} (later : t.Scanned scan (item, u)) :
    s.Scanned (scan.behind m) (item.map some, u) := by
  cases later with
  | settled here further =>
    subst here
    exact .settled rfl (h.trans further)
  | ended short ends further =>
    subst short
    exact .ended rfl (h.failure ▸ ends) (h.finish hm further)
  | failed short fails =>
    subst short
    exact .failed rfl (h.failure ▸ fails)

section

variable {s : Stream} (h : s.chunk ≠ some 0) (hf : ∀ e ∈ s.failure, e.kind ≠ .unexpectedEof)
include h hf

theorem readFrameBody_scanned (tag : UInt8) :
    s.Scanned (Frame.scanBody tag s.front) (s.readFrameBody tag) := by
  rw [readFrameBody]
  rcases hread : s.upTo 4 with ⟨result, t⟩
  cases hread ▸ upTo_gives h 4 with
  | found here reaches =>
    obtain ⟨enough, ⟨⟩⟩ := Option.ite_none_right_eq_some.1 here
    match hfront : s.front, enough with
    | a :: b :: c :: d :: rest, _ =>
      have behind : t.front = rest := by
        rw [reaches.front, hfront]
        rfl
      dsimp only [List.take, Frame.scanBody]
      generalize (BigEndian.word32 a b c d).toNat = announced
      split
      · exact .settled rfl reaches
      · rename_i covers
        rcases hrest : t.upTo (announced - Frame.startLength) with ⟨result, u⟩
        cases hrest ▸ upTo_gives (reaches.chunk ▸ h) (announced - Frame.startLength) with
        | found here further =>
          obtain ⟨whole, ⟨⟩⟩ := Option.ite_none_right_eq_some.1 here
          rw [behind] at whole ⊢
          have all : ¬Frame.startLength + (rest.take (announced - Frame.startLength)).length <
              announced := by
            rw [List.length_take_of_le whole]
            omega
          simp only [all, if_false, whole, if_true]
          exact .settled rfl (reaches.trans further)
        | ended absent ends further =>
          have part : ¬announced - Frame.startLength ≤ rest.length := by simpa [behind] using absent
          have less : Frame.startLength + rest.length < announced := by omega
          simp only [behind, less, if_true, part, if_false]
          exact .ended rfl (reaches.failure ▸ ends) (reaches.finish enough further)
        | failed absent fails =>
          have part : ¬announced - Frame.startLength ≤ rest.length := by simpa [behind] using absent
          simp only [part, if_false]
          exact .failed rfl (reaches.failure ▸ fails)
  | ended absent ends reaches =>
    have short : s.front.length < 4 := by simpa using absent
    match hfront : s.front, short with
    | [], _ | [_], _ | [_, _], _ | [_, _, _], _ => exact .ended rfl ends reaches
  | failed absent fails =>
    have short : s.front.length < 4 := by simpa using absent
    simp only [hf _ fails, if_false]
    match s.front, short with
    | [], _ | [_], _ | [_, _], _ | [_, _, _], _ => exact .failed rfl fails

theorem readFrame_scanned : s.Scanned (Frame.scan s.front) s.readFrame := by
  rw [readFrame]
  rcases hseek : s.seek Tag.isHeader with ⟨result, t⟩
  cases hseek ▸ seek_gives h Tag.isHeader with
  | found here reaches =>
    obtain ⟨tag, first, ⟨⟩⟩ := Option.map_eq_some_iff.1 here
    have within : s.front.findIdx Tag.isHeader + 1 ≤ s.front.length :=
      List.findIdx_lt_length.2 ⟨tag, List.mem_of_find?_eq_some first, List.find?_some first⟩
    have body := readFrameBody_scanned (reaches.chunk ▸ h) (reaches.failure ▸ hf) tag
    rw [reaches.front] at body
    dsimp only
    rw [Frame.scan, first]
    rcases hframe : t.readFrameBody tag with ⟨item, u⟩
    rw [hframe] at body
    have wrapped := reaches.scanned within body
    cases item <;> exact wrapped
  | ended absent ends reaches =>
    have nowhere : Frame.scan s.front = .short (.ok none) := by
      rw [Frame.scan, Option.map_eq_none_iff.1 absent]
    exact .ended nowhere ends reaches
  | failed absent fails =>
    have nowhere : Frame.scan s.front = .short (.ok none) := by
      rw [Frame.scan, Option.map_eq_none_iff.1 absent]
    exact .failed nowhere fails

end

theorem Faultless.readFrame_eq {s : Stream} (h : s.Faultless) :
    s.readFrame =
      ((Frame.scan s.rest).item, s.advance ((Frame.scan s.rest).used s.rest.length)) := by
  have scanned := readFrame_scanned h.chunk (by simp [h.failure_eq])
  obtain ⟨item, reaches⟩ := scanned.of_failure_none h.failure_eq
  rw [h.front_eq] at item reaches
  exact Prod.ext item (h.eq_advance reaches)

end Stream

end AuditTrail

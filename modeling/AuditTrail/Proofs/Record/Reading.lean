import AuditTrail.Proofs.Layout.Follow
import AuditTrail.Proofs.Record.Walk

namespace AuditTrail

open BigEndian

theorem BigEndian.number_eq_word32 (a b c d : UInt8) :
    number [a, b, c, d] = (word32 a b c d).toNat := by
  rw [← number_bytes32, bytes32_word32]

theorem Layout.fst_of_read {field : Field} {layout : Layout} {input rest : List UInt8}
    {values : Values (field :: layout)} (h : read (field :: layout) input = .ok (values, rest)) :
    ∃ behind, field.read input = .ok (values.1, behind) := by
  rw [read_cons] at h
  obtain ⟨value, behind, first, h⟩ := Reader.andThen_eq_ok.1 h
  obtain ⟨others, last, -, ⟨⟩⟩ := Reader.andThen_eq_ok.1 h
  exact ⟨behind, first⟩

theorem isJunk_iff {bytes : List UInt8} : IsJunk bytes ↔ ∀ b ∈ bytes, ¬(b = 0x14 ∨ b = 0x15) := by
  constructor
  · rintro h b member (rfl | rfl)
    · exact h.1 member
    · exact h.2 member
  · exact fun h => ⟨fun member => h _ member (.inl rfl), fun member => h _ member (.inr rfl)⟩

theorem isJunk_of_findIdx? {data : List UInt8}
    (h : data.findIdx? (fun b => b = 0x14 ∨ b = 0x15) = none) : IsJunk data :=
  isJunk_iff.2 fun b member => of_decide_eq_false (List.findIdx?_eq_none_iff.1 h b member)

theorem exists_junk_of_findIdx? {data : List UInt8} {start : Nat}
    (h : data.findIdx? (fun b => b = 0x14 ∨ b = 0x15) = some start) :
    ∃ junk tag after, data = junk ++ tag :: after ∧ junk.length = start ∧ IsJunk junk ∧
      Tag.isHeader tag = true := by
  obtain ⟨inside, here, before⟩ := List.findIdx?_eq_some_iff_getElem.1 h
  have parts : data = data.take start ++ data[start] :: data.drop (start + 1) := by
    rw [List.getElem_cons_drop, List.take_append_drop]
  refine ⟨data.take start, data[start], data.drop (start + 1), parts,
    List.length_take_of_le (Nat.le_of_lt inside), isJunk_iff.2 fun b member => ?_,
    (Tag.isHeader_iff _).2 (of_decide_eq_true here)⟩
  obtain ⟨i, hi, rfl⟩ := List.getElem_of_mem member
  have earlier : i < start := Nat.lt_of_lt_of_le hi (List.length_take_le ..)
  rw [List.getElem_take]
  simpa using before i earlier

namespace Frame

theorem scanBody_eq (tag : UInt8) (after : List UInt8) :
    scanBody tag after =
      let announced := number (after.take 4)
      if after.length < 4 then .short (.error .tornLength)
      else if announced < startLength then .settled (.error (.lengthTooSmall announced)) 4
      else if after.length + 1 < announced then
        .short (.error (.torn announced (after.length + 1)))
      else .settled (.ok ((tag :: after).take announced)) (announced - 1) := by
  match after with
  | [] | [_] | [_, _] | [_, _, _] => rfl
  | a :: b :: c :: d :: body =>
    have enough : ¬(a :: b :: c :: d :: body).length < 4 := by simp
    have same : number ((a :: b :: c :: d :: body).take 4) = (word32 a b c d).toNat :=
      number_eq_word32 a b c d
    have count : (a :: b :: c :: d :: body).length + 1 = startLength + body.length :=
      Nat.add_comm body.length 5
    simp only [scanBody, if_neg enough, same, count]
    generalize (word32 a b c d).toNat = announced
    by_cases small : announced < startLength
    · rw [if_pos small, if_pos small]
    · obtain ⟨n, rfl⟩ := Nat.exists_eq_add_of_le' (Nat.not_lt.1 small)
      rw [if_neg small, if_neg small, Nat.add_sub_cancel]
      by_cases whole : n ≤ body.length
      · rw [if_pos whole, if_neg (by omega), Nat.add_comm 4]
        rfl
      · rw [if_neg whole, if_pos (by omega)]

end Frame

theorem isFrame_take {tag : UInt8} {after : List UInt8} (htag : Tag.isHeader tag = true)
    (announces : 4 ≤ after.length) (covers : 5 ≤ number (after.take 4))
    (whole : number (after.take 4) ≤ after.length + 1) :
    IsFrame ((tag :: after).take (number (after.take 4))) := by
  match after, announces with
  | a :: b :: c :: d :: body, _ =>
    have same : number ((a :: b :: c :: d :: body).take 4) = (word32 a b c d).toNat :=
      number_eq_word32 a b c d
    rw [same] at covers whole ⊢
    obtain ⟨n, size⟩ := Nat.exists_eq_add_of_le' covers
    have room : n ≤ body.length := by
      simp only [List.length_cons] at whole
      omega
    rw [size]
    refine ⟨(Tag.isHeader_iff tag).1 htag, ?_⟩
    rw [size, List.length_take_of_le room, Nat.add_comm]

namespace Stream

section

variable {s : Stream} (h : s.Faultless) {junk after : List UInt8} {tag : UInt8}
  (hjunk : IsJunk junk) (htag : Tag.isHeader tag = true) (hrest : s.rest = junk ++ tag :: after)
  {item : Except FrameError (List UInt8)}
include h hjunk htag hrest

theorem Faultless.readFrame_of_settled {n : Nat}
    (scanned : Frame.scanBody tag after = .settled item n) :
    s.readFrame = (item.map some, s.advance (junk.length + 1 + n)) := by
  rw [h.readFrame_eq, hrest, Frame.scan_of_mem hjunk.isHeader htag, scanned]
  rfl

theorem Faultless.readFrame_of_short (scanned : Frame.scanBody tag after = .short item) :
    s.readFrame = (item.map some, s.advance s.rest.length) := by
  rw [h.readFrame_eq, hrest, Frame.scan_of_mem hjunk.isHeader htag, scanned]
  rfl

end

end Stream

theorem Token.exists_header_of_decode {tag a b c d : UInt8} {body : List UInt8} {token : Token}
    {used : Nat} (htag : Tag.isHeader tag = true)
    (h : decode (tag :: a :: b :: c :: d :: body) = .ok (token, used)) :
    ∃ header, Record.header? [token] = some header ∧ header.size = word32 a b c d := by
  rcases (Tag.isHeader_iff tag).1 htag with rfl | rfl
  · have known : Kind.ofTag? 0x14 = some .header := rfl
    obtain ⟨taken, left, values, parts, takes, rfl, -⟩ := exists_takes known h
    obtain ⟨behind, first⟩ := Layout.fst_of_read (parts ▸ takes.whole left)
    exact ⟨_, rfl, (Prod.mk.inj (Except.ok.inj first)).1.symm⟩
  · have known : Kind.ofTag? 0x15 = some .headerEx := rfl
    obtain ⟨taken, left, values, parts, takes, rfl, -⟩ := exists_takes known h
    obtain ⟨behind, first⟩ := Layout.fst_of_read (parts ▸ takes.whole left)
    exact ⟨_, rfl, (Prod.mk.inj (Except.ok.inj first)).1.symm⟩

namespace Record

theorem head_of_decode {data : List UInt8} {r : Record} (h : decode data = .ok r) :
    r.size = data.length ∧
      ∃ token used, Token.decode data = .ok (token, used) ∧ header? [token] = r.header := by
  obtain ⟨placed, last, cut, bound, fails⟩ := Consecutive.exists_of_le data.length.zero_le
  have items : (TokenCursor.mk data 0 false).items =
      (placed.map (·.2)).map .ok ++ (TokenCursor.standing data last).items := cut.items_eq
  rcases Nat.lt_or_eq_of_le bound with inside | whole
  · obtain ⟨cause, decoded⟩ := fails inside
    rw [TokenCursor.items_of_next_some (TokenCursor.next_standing_error inside decoded)] at items
    cases h.symm.trans (decode_of_items_error items)
  · have ends := TokenCursor.next_standing_end (Nat.le_of_eq whole.symm)
    rw [TokenCursor.items_of_next_none ends, List.append_nil] at items
    rw [decode_of_items items] at h
    cases cut with
    | nil => cases h
    | @cons _ used _ token _ decoded =>
      split at h <;> cases h
      exact ⟨rfl, token, used, decoded, by cases token <;> rfl⟩

theorem wellFormed_iff {r : Record} {header : Header} (first : r.header = some header)
    (announced : header.size.toNat = r.size) :
    r.wellFormed = true ↔
      ∃ size, r.tokens.getLast? = some (.trailer Token.trailerMagic size) ∧
        size.toNat = r.size := by
  rw [wellFormed, first]
  split
  · next same last =>
    cases same
    simp only [Bool.and_eq_true, decide_eq_true_eq]
    constructor
    · rintro ⟨⟨rfl, fits⟩, -⟩
      exact ⟨_, last, fits⟩
    · rintro ⟨size, last', fits⟩
      cases last.symm.trans last'
      exact ⟨⟨rfl, fits⟩, announced⟩
  · next other =>
    constructor
    · intro formed
      cases formed
    · rintro ⟨size, last, -⟩
      exact absurd last (other header _ size rfl)

/-- The header of a record that is decoded from a frame announces the frame's length, so only the
last token can keep the record from being well formed. -/
theorem header_of_frame {frame : List UInt8} (hframe : IsFrame frame) {r : Record}
    (h : decode frame = .ok r) :
    ∃ header, r.header = some header ∧ header.size.toNat = frame.length ∧
      (r.wellFormed = true ↔
        ∃ size, r.tokens.getLast? = some (.trailer Token.trailerMagic size) ∧
          size.toNat = frame.length) := by
  obtain ⟨tag, a, b, c, d, body, rfl, htag, size⟩ := hframe.exists_eq
  obtain ⟨length, token, used, decoded, first⟩ := head_of_decode h
  obtain ⟨header, isHeader, announced⟩ := Token.exists_header_of_decode htag decoded
  have fits : header.size.toNat = (tag :: a :: b :: c :: d :: body).length := by
    rw [announced, size, Nat.add_comm]
    rfl
  have found : r.header = some header := first.symm.trans isHeader
  refine ⟨header, found, fits, ?_⟩
  rw [← length] at fits ⊢
  exact wellFormed_iff found fits

end Record

/-- What comes of reading a frame, by the bytes that the stream has yet to deliver. The stream is
then behind the frame, or behind the length field of one that announces too little; else nothing is
left of it. What can keep a record that is decoded from the frame from being well formed is the last
token alone. -/
theorem Stream.readFrame_exact (s : Stream) (h : s.Faultless) :
    let data := s.rest
    let behind : Nat → Stream := fun n =>
      { s with rest := data.drop n, position := s.position + n }
    match data.findIdx? (fun b => b = 0x14 ∨ b = 0x15) with
    | none => s.readFrame = (.ok none, behind data.length)
    | some start =>
      let length := number ((data.drop (start + 1)).take 4)
      if data.length < start + 5 then
        ∃ e, s.readFrame = (.error e, behind data.length) ∧ e.toError.kind = .truncated
      else if length < 5 then
        ∃ e, s.readFrame = (.error e, behind (start + 5)) ∧ e.toError.kind = .invalidFormat
      else if data.length < start + length then
        ∃ e, s.readFrame = (.error e, behind data.length) ∧ e.toError.kind = .truncated
      else
        let frame := (data.drop start).take length
        s.readFrame = (.ok (some frame), behind (start + length)) ∧
          ∀ r, Record.decode frame = .ok r →
            ∃ header, r.header = some header ∧ header.size.toNat = frame.length ∧
              (r.wellFormed = true ↔
                ∃ size, r.tokens.getLast? = some (.trailer Token.trailerMagic size) ∧
                  size.toNat = frame.length) := by
  intro data behind
  have reach (n : Nat) (within : n ≤ data.length) : s.advance n = behind n := advance_eq within
  have ends : s.advance data.length = behind data.length := reach _ (Nat.le_refl _)
  split
  · next nowhere => rw [h.readFrame_of_junk (isJunk_of_findIdx? nowhere), ends]
  · next start found =>
    obtain ⟨junk, tag, after, hrest, rfl, hjunk, htag⟩ := exists_junk_of_findIdx? found
    have total : data.length = junk.length + 1 + after.length := by
      rw [hrest, List.length_append, List.length_cons]
      omega
    have here : data.drop junk.length = tag :: after := by rw [hrest, List.drop_left]
    have next : data.drop (junk.length + 1) = after := by rw [← List.drop_drop, here]; rfl
    have scanned := Frame.scanBody_eq tag after
    rw [next, here]
    intro length
    -- The bytes are looked at in the same order as a frame is scanned.
    by_cases short : after.length < 4
    · rw [if_pos (by omega), ← ends]
      rw [if_pos short] at scanned
      exact ⟨_, h.readFrame_of_short hjunk htag hrest scanned, rfl⟩
    rw [if_neg (by omega)]
    rw [if_neg short] at scanned
    by_cases small : length < 5
    · rw [if_pos small, ← reach _ (by omega)]
      rw [if_pos (show length < Frame.startLength from small)] at scanned
      exact ⟨_, h.readFrame_of_settled hjunk htag hrest scanned, rfl⟩
    rw [if_neg small]
    rw [if_neg (show ¬length < Frame.startLength from small)] at scanned
    by_cases torn : after.length + 1 < length
    · rw [if_pos (by omega), ← ends]
      rw [if_pos torn] at scanned
      exact ⟨_, h.readFrame_of_short hjunk htag hrest scanned, rfl⟩
    rw [if_neg (by omega), ← reach _ (by omega)]
    rw [if_neg torn] at scanned
    have isFrame : IsFrame ((tag :: after).take length) :=
      isFrame_take htag (Nat.not_lt.1 short) (Nat.not_lt.1 small) (Nat.not_lt.1 torn)
    have used : junk.length + 1 + (length - 1) = junk.length + length := by omega
    have read := h.readFrame_of_settled hjunk htag hrest scanned
    exact ⟨read.trans (by rw [used]; rfl), fun r => Record.header_of_frame isFrame⟩

theorem Stream.readFrame_exact_announced :
    let tokens : List Token := [.header { size := 25, event := 7 }, .trailer 0xB105 24]
    let frame := tokens.flatMap Token.encode
    let s : Stream := { rest := [0xFF, 0x13] ++ frame ++ [0x14, 0], chunk := some 1 }
    s.Faultless ∧
      s.readFrame = (.ok (some frame), { rest := [0x14, 0], position := 27, chunk := some 1 }) ∧
      Record.decode frame = .ok ⟨tokens, 25⟩ ∧ Record.wellFormed ⟨tokens, 25⟩ = false := by
  intro tokens frame s
  have hs : s.Faultless := ⟨rfl, by decide⟩
  have canonical : ∀ token ∈ tokens, token.Canonical := by decide
  have decoded : Record.decode frame = .ok ⟨tokens, 25⟩ :=
    Record.decode_of_items (TokenCursor.items_flatMap_encode canonical 0)
  have found : s.rest.findIdx? (fun b => b = 0x14 ∨ b = 0x15) = some 2 := by decide
  have announces : number ((s.rest.drop 3).take 4) = 25 := by decide
  have total : s.rest.length = 29 := by decide
  have exact := readFrame_exact s hs
  simp only [found, announces, total] at exact
  rw [if_neg (by decide), if_neg (by decide), if_neg (by decide)] at exact
  obtain ⟨read, sized⟩ := exact
  obtain ⟨header, first, announced, formed⟩ := sized _ decoded
  refine ⟨hs, read, decoded, Bool.eq_false_iff.2 fun formed' => ?_⟩
  obtain ⟨size, ⟨⟩, wrong⟩ := formed.1 formed'
  cases wrong

end AuditTrail

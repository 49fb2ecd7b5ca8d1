import AuditTrail.Proofs.Layout.Sound
import AuditTrail.Proofs.Text.Clip

/-! Values written back after they were read. Fields without a text give the bytes that were read;
a text does so if and only if it stands on the wire as texts are written. -/

namespace AuditTrail

open BigEndian

/-- A text as it stands on the wire: the bytes that a length in front of it announces, those in
front of the zero that ends it, or those of a fixed width. -/
inductive WireText
  | counted (raw : List UInt8)
  | ended (raw : List UInt8)
  | padded (raw : List UInt8)

namespace WireText

def Canonical : WireText → Prop
  | counted raw => ∃ content, raw = content ++ [0] ∧ 0 ∉ content ∧ Text.IsUtf8 content
  | ended raw => Text.IsUtf8 raw
  | padded raw => ∃ content zeros, raw = content ++ 0 :: List.replicate zeros 0 ∧
      0 ∉ content ∧ Text.IsUtf8 content

/-- The bytes of a text that was too long for its place, which ends inside a replacement
character. -/
def Clipped : WireText → Prop
  | counted raw => ∃ content, raw = content ++ [0] ∧ 0 ∉ content ∧
      Text.EndsInReplacement content ∧ content.length = Layout.maxText
  | ended _ => False
  | padded raw => ∃ content, raw = content ++ [0] ∧ 0 ∉ content ∧
      Text.EndsInReplacement content ∧ content.length = Layout.socketPathWidth - 1

end WireText

def splitZeros : Nat → List UInt8 → List (List UInt8)
  | 0, _ => []
  | n + 1, input =>
    input.takeWhile (· != 0) :: splitZeros n (input.dropWhile (· != 0)).tail

def Field.holdsText : Field → Bool
  | .text | .texts | .socketPath => true
  | _ => false

def Field.wireTexts : Field → List UInt8 → List WireText
  | .text, a :: b :: rest => [.counted (rest.take (BigEndian.word16 a b).toNat)]
  | .texts, a :: b :: c :: d :: rest =>
    (splitZeros (BigEndian.word32 a b c d).toNat rest).map .ended
  | .socketPath, input => [.padded (input.take Layout.socketPathWidth)]
  | _, _ => []

def Layout.wireTexts : Layout → List UInt8 → List WireText
  | [], _ => []
  | field :: layout, input =>
    match field.read input with
    | .ok (_, rest) => field.wireTexts input ++ wireTexts layout rest
    | .error _ => []

theorem splitZeros_flatMap {raws : List (List UInt8)} (h : ∀ raw ∈ raws, 0 ∉ raw)
    (rest : List UInt8) :
    splitZeros raws.length (raws.flatMap (· ++ [0]) ++ rest) = raws := by
  induction raws with
  | nil => rfl
  | cons raw raws ih =>
    rw [List.forall_mem_cons] at h
    simp only [List.flatMap_cons, List.append_assoc, List.cons_append, List.nil_append,
      List.length_cons, splitZeros, Reader.takeWhile_append_zero, Reader.takeWhile_eq_self h.1,
      Reader.dropWhile_append_zero h.1, List.tail_cons, ih h.2]

theorem append_zero_inj {a b x y : List UInt8} (ha : 0 ∉ a) (hb : 0 ∉ b) :
    a ++ 0 :: x = b ++ 0 :: y ↔ a = b ∧ x = y := by
  constructor
  · intro same
    have front := congrArg (List.takeWhile (· != 0)) same
    have back := congrArg (List.dropWhile (· != 0)) same
    simp only [Reader.takeWhile_append_zero, Reader.takeWhile_eq_self ha,
      Reader.takeWhile_eq_self hb] at front
    rw [Reader.dropWhile_append_zero ha, Reader.dropWhile_append_zero hb] at back
    exact ⟨front, (List.cons.inj back).2⟩
  · rintro ⟨rfl, rfl⟩
    rfl

namespace Reader

theorem take_textUpToZero_eq_iff (raw tail : List UInt8) (n : Nat) :
    (Text.bytes (textUpToZero raw)).take n ++ 0 :: tail = raw ↔
      ∃ content, raw = content ++ 0 :: tail ∧ 0 ∉ content ∧
        (Text.IsUtf8 content ∧ content.length ≤ n ∨
          Text.EndsInReplacement content ∧ content.length = n) := by
  constructor
  · intro same
    have absent : 0 ∉ (Text.bytes (textUpToZero raw)).take n := fun member =>
      Text.zero_not_mem_ofBytes (zero_not_mem_takeWhile raw)
        ((Text.zero_mem_bytes _).1 (List.mem_of_mem_take member))
    refine ⟨_, same.symm, absent, ?_⟩
    rw [← Text.take_bytes_ofBytes_eq_iff, ← textUpToZero_append absent tail, same]
  · rintro ⟨content, rfl, absent, written⟩
    rw [textUpToZero_append absent, (Text.take_bytes_ofBytes_eq_iff content n).2 written]

end Reader

namespace WireText

theorem counted_written_iff {raw : List UInt8} (short : raw.length < 65536) :
    (Text.bytes (Reader.textUpToZero raw)).take Layout.maxText ++ [0] = raw ↔
      (counted raw).Canonical ∨ (counted raw).Clipped := by
  rw [Reader.take_textUpToZero_eq_iff]
  constructor
  · rintro ⟨content, parts, absent, ⟨valid, -⟩ | ⟨ends, full⟩⟩
    · exact .inl ⟨content, parts, absent, valid⟩
    · exact .inr ⟨content, parts, absent, ends, full⟩
  · rintro (⟨content, rfl, absent, valid⟩ | ⟨content, parts, absent, ends, full⟩)
    · rw [List.length_append, List.length_singleton] at short
      exact ⟨content, rfl, absent, .inl ⟨valid, Nat.le_of_lt_succ (Nat.lt_of_succ_lt_succ short)⟩⟩
    · exact ⟨content, parts, absent, .inr ⟨ends, full⟩⟩

theorem padded_written_iff {raw : List UInt8} (width : raw.length = Layout.socketPathWidth) :
    (Text.bytes (Reader.textUpToZero raw)).take (Layout.socketPathWidth - 1) ++
        List.replicate (Layout.socketPathWidth -
          ((Text.bytes (Reader.textUpToZero raw)).take (Layout.socketPathWidth - 1)).length) 0 =
        raw ↔
      (padded raw).Canonical ∨ (padded raw).Clipped := by
  rw [Layout.socketPathWidth] at width ⊢
  constructor
  · obtain ⟨zeros, hzeros⟩ : ∃ zeros,
        104 - ((Text.bytes (Reader.textUpToZero raw)).take (104 - 1)).length = zeros + 1 :=
      ⟨103 - ((Text.bytes (Reader.textUpToZero raw)).take (104 - 1)).length, by
        rw [List.length_take]
        omega⟩
    rw [hzeros, List.replicate_succ, Reader.take_textUpToZero_eq_iff]
    rintro ⟨content, rfl, absent, ⟨valid, -⟩ | ⟨ends, full⟩⟩
    · exact .inl ⟨content, zeros, rfl, absent, valid⟩
    · rw [List.length_append, List.length_cons, List.length_replicate] at width
      obtain rfl : zeros = 0 := by omega
      exact .inr ⟨content, rfl, absent, ends, full⟩
  · rintro (⟨content, zeros, rfl, absent, valid⟩ | ⟨content, rfl, absent, ends, full⟩)
    · rw [List.length_append, List.length_cons, List.length_replicate] at width
      have rest : 104 - content.length = zeros + 1 := by omega
      rw [Reader.textUpToZero_append absent, (Text.take_bytes_ofBytes_eq_iff content _).2
        (.inl ⟨valid, by omega⟩), rest, List.replicate_succ]
    · rw [Reader.textUpToZero_append absent, (Text.take_bytes_ofBytes_eq_iff content (104 - 1)).2
        (.inr ⟨ends, full⟩), full]
      rfl

theorem ended_written_iff {raws : List (List UInt8)} (h : ∀ raw ∈ raws, 0 ∉ raw)
    (rest more : List UInt8) :
    ((raws.map Text.ofBytes).flatMap fun s => Text.bytes s ++ [0]) ++ more =
        raws.flatMap (· ++ [0]) ++ rest ↔
      (∀ raw ∈ raws, Text.IsUtf8 raw) ∧ more = rest := by
  induction raws with
  | nil => exact ⟨fun same => ⟨nofun, same⟩, And.right⟩
  | cons raw raws ih =>
    rw [List.forall_mem_cons] at h
    have absent : 0 ∉ Text.bytes (Text.ofBytes raw) := fun member =>
      Text.zero_not_mem_ofBytes h.1 ((Text.zero_mem_bytes _).1 member)
    simp only [List.map_cons, List.flatMap_cons, List.append_assoc, List.cons_append,
      List.nil_append, append_zero_inj absent h.1, Text.bytes_ofBytes_eq_iff, ih h.2,
      List.forall_mem_cons, and_assoc]

end WireText

theorem bytes16_inj {v w : UInt16} (h : bytes16 v = bytes16 w) : v = w := by
  have read := Reader.word16_append v []
  rw [h, Reader.word16_append] at read
  cases read
  rfl

theorem Field.wireTexts_text {raw : List UInt8} (short : raw.length < 65536) (rest : List UInt8) :
    Field.wireTexts .text (bytes16 (UInt16.ofNat raw.length) ++ (raw ++ rest)) =
      [.counted raw] := by
  have count : (UInt16.ofNat raw.length).toNat = raw.length := UInt16.toNat_ofNat_of_lt' short
  simp only [bytes16, List.cons_append, List.nil_append, wireTexts, word16_bytes16, count,
    List.take_left]

theorem Field.wireTexts_texts {raws : List (List UInt8)} (short : raws.length < 4294967296)
    (h : ∀ raw ∈ raws, 0 ∉ raw) (rest : List UInt8) :
    Field.wireTexts .texts
        (bytes32 (UInt32.ofNat raws.length) ++ (raws.flatMap (· ++ [0]) ++ rest)) =
      raws.map .ended := by
  have count : (UInt32.ofNat raws.length).toNat = raws.length := UInt32.toNat_ofNat_of_lt' short
  simp only [bytes32, List.cons_append, List.nil_append, wireTexts, word32_bytes32, count,
    splitZeros_flatMap h]

theorem Field.wireTexts_socketPath {raw : List UInt8} (width : raw.length = Layout.socketPathWidth)
    (rest : List UInt8) : Field.wireTexts .socketPath (raw ++ rest) = [.padded raw] := by
  rw [wireTexts, ← width, List.take_left]

namespace Field

variable {input rest : List UInt8}

theorem read_sound {field : Field} {value : field.Carrier} (plain : field.holdsText = false)
    (h : field.read input = .ok (value, rest)) : input = field.write value ++ rest := by
  cases field with
  | word8 => exact Reader.word8_sound h
  | word16 => exact Reader.word16_sound h
  | word32 => exact Reader.word32_sound h
  | word64 => exact Reader.word64_sound h
  | ipv4 => exact Reader.ipv4_sound h
  | ipv6 => exact Reader.ipv6_sound h
  | address => exact Reader.address_sound h
  | text | texts | socketPath => cases plain
  | ids => exact Reader.ids_sound h
  | data => exact Reader.data_sound h
  | elements => exact Reader.elements_sound h

theorem wireTexts_plain {field : Field} (plain : field.holdsText = false) :
    field.wireTexts input = [] := by
  cases field <;> first | rfl | cases plain

theorem text_write_eq_iff {s : String} (h : Field.read .text input = .ok (s, rest))
    (more : List UInt8) :
    Field.write .text s ++ more = input ↔
      (∀ text ∈ Field.wireTexts .text input, text.Canonical ∨ text.Clipped) ∧ more = rest := by
  obtain ⟨raw, short, rfl, rfl⟩ := Reader.text_sound h
  rw [wireTexts_text short, List.forall_mem_singleton, ← WireText.counted_written_iff short, write]
  generalize hkept : (Text.bytes (Reader.textUpToZero raw)).take Layout.maxText = kept
  have fits : kept.length ≤ Layout.maxText := hkept ▸ List.length_take_le ..
  constructor
  · intro same
    simp only [List.append_assoc] at same
    obtain ⟨count, same⟩ := List.append_inj same rfl
    have size := congrArg UInt16.toNat (bytes16_inj count)
    rw [UInt16.toNat_ofNat_of_lt' short, UInt16.toNat_ofNat_of_lt' (Nat.lt_succ_of_le
      (Nat.succ_le_succ fits))] at size
    rw [← List.append_assoc] at same
    exact List.append_inj same (by rw [List.length_append, ← size]; rfl)
  · rintro ⟨rfl, rfl⟩
    simp only [List.append_assoc, List.length_append, List.length_singleton]

theorem texts_write_eq_iff {ss : List String} (h : Field.read .texts input = .ok (ss, rest))
    (more : List UInt8) :
    Field.write .texts ss ++ more = input ↔
      (∀ text ∈ Field.wireTexts .texts input, text.Canonical ∨ text.Clipped) ∧ more = rest := by
  obtain ⟨raws, short, absent, rfl, rfl⟩ := Reader.texts_sound h
  have written (raw : List UInt8) :
      (WireText.ended raw).Canonical ∨ (WireText.ended raw).Clipped ↔ Text.IsUtf8 raw :=
    iff_of_eq (or_false _)
  rw [wireTexts_texts short absent, List.forall_mem_map, write, List.length_map, List.append_assoc,
    List.append_cancel_left_eq, WireText.ended_written_iff absent]
  simp only [written]

theorem socketPath_write_eq_iff {s : String} (h : Field.read .socketPath input = .ok (s, rest))
    (more : List UInt8) :
    Field.write .socketPath s ++ more = input ↔
      (∀ text ∈ Field.wireTexts .socketPath input, text.Canonical ∨ text.Clipped) ∧
        more = rest := by
  obtain ⟨raw, width, rfl, rfl⟩ := Reader.socketPath_sound h
  have size := length_write .socketPath (Reader.textUpToZero raw)
  rw [wireTexts_socketPath width, List.forall_mem_singleton, ← WireText.padded_written_iff width]
  constructor
  · intro same
    exact List.append_inj same (size.trans width.symm)
  · rintro ⟨same, rfl⟩
    exact congrArg (· ++ more) same

/-- What is written for the value of a field, and any bytes behind it, are the bytes that the value
was read from if the texts among these have their written form and the bytes behind are the same. -/
theorem write_append_eq_iff {field : Field} {value : field.Carrier}
    (h : field.read input = .ok (value, rest)) (more : List UInt8) :
    field.write value ++ more = input ↔
      (∀ text ∈ field.wireTexts input, text.Canonical ∨ text.Clipped) ∧ more = rest := by
  cases hplain : field.holdsText with
  | false =>
    rw [read_sound hplain h, wireTexts_plain hplain, List.append_cancel_left_eq]
    exact ⟨fun same => ⟨nofun, same⟩, And.right⟩
  | true =>
    cases field with
    | text => exact text_write_eq_iff h more
    | texts => exact texts_write_eq_iff h more
    | socketPath => exact socketPath_write_eq_iff h more
    | _ => cases hplain

end Field

theorem Layout.write_append_eq_iff {layout : Layout} {input rest : List UInt8}
    {values : layout.Values} (h : layout.read input = .ok (values, rest)) (more : List UInt8) :
    layout.write values ++ more = input ↔
      (∀ text ∈ layout.wireTexts input, text.Canonical ∨ text.Clipped) ∧ more = rest := by
  induction layout generalizing input with
  | nil =>
    cases h
    exact ⟨fun same => ⟨nofun, same⟩, And.right⟩
  | cons field layout ih =>
    obtain ⟨⟨value, behind⟩, hvalue, h⟩ := bind_eq_ok.1 h
    obtain ⟨⟨values, behind⟩, hvalues, h⟩ := bind_eq_ok.1 h
    cases h
    simp only [write, wireTexts, hvalue, List.append_assoc, List.forall_mem_append, and_assoc,
      Field.write_append_eq_iff hvalue, ih hvalues]

end AuditTrail

import AuditTrail.Layout.Read
import AuditTrail.Proofs.Layout.Size
import AuditTrail.Proofs.Text.Utf8

namespace AuditTrail

open BigEndian

/-- What a field carries unchanged: texts without a zero, and nothing longer than the length in
front of it can announce. -/
def Field.Canonical : (field : Field) → field.Carrier → Prop
  | .text, s => '\x00' ∉ s.toList ∧ s.utf8ByteSize ≤ Layout.maxText
  | .texts, ss => ss.length < 4294967296 ∧ ∀ s ∈ ss, '\x00' ∉ s.toList
  | .socketPath, s => '\x00' ∉ s.toList ∧ s.utf8ByteSize < Layout.socketPathWidth
  | .ids, ws => ws.length ≤ Layout.maxIds
  | .data, bs => bs.length ≤ Layout.maxData
  | .elements, es => es.length ≤ Layout.maxElements
  | .word8, _ | .word16, _ | .word32, _ | .word64, _ | .ipv4, _ | .ipv6, _ | .address, _ => True

def Layout.Canonical : (layout : Layout) → layout.Values → Prop
  | [], _ => True
  | field :: layout, (value, values) => field.Canonical value ∧ Layout.Canonical layout values

instance : (field : Field) → (value : field.Carrier) → Decidable (field.Canonical value)
  | .text, s => inferInstanceAs (Decidable ('\x00' ∉ s.toList ∧ s.utf8ByteSize ≤ Layout.maxText))
  | .texts, ss =>
    inferInstanceAs (Decidable (ss.length < 4294967296 ∧ ∀ s ∈ ss, '\x00' ∉ s.toList))
  | .socketPath, s =>
    inferInstanceAs (Decidable ('\x00' ∉ s.toList ∧ s.utf8ByteSize < Layout.socketPathWidth))
  | .ids, ws => inferInstanceAs (Decidable (ws.length ≤ Layout.maxIds))
  | .data, bs => inferInstanceAs (Decidable (bs.length ≤ Layout.maxData))
  | .elements, es => inferInstanceAs (Decidable (es.length ≤ Layout.maxElements))
  | .word8, _ | .word16, _ | .word32, _ | .word64, _ | .ipv4, _ | .ipv6, _ | .address, _ =>
    inferInstanceAs (Decidable True)

instance Layout.decidableCanonical :
    (layout : Layout) → (values : layout.Values) → Decidable (Layout.Canonical layout values)
  | [], _ => inferInstanceAs (Decidable True)
  | field :: layout, (value, values) =>
    have := decidableCanonical layout values
    inferInstanceAs (Decidable (field.Canonical value ∧ Layout.Canonical layout values))

namespace Reader

@[simp] theorem ok_bind (a : α) (f : α → Except Field.Fault β) : (Except.ok a >>= f) = f a := rfl

theorem take_append (xs rest : List UInt8) : take xs.length (xs ++ rest) = .ok (xs, rest) := by
  simp [take]

theorem take_append_of_length {n : Nat} {xs : List UInt8} (h : xs.length = n)
    (rest : List UInt8) : take n (xs ++ rest) = .ok (xs, rest) := by
  rw [← h, take_append]

@[simp] theorem word16_append (w : UInt16) (rest : List UInt8) :
    word16 (bytes16 w ++ rest) = .ok (w, rest) := by
  simp [word16, bytes16]

@[simp] theorem word32_append (w : UInt32) (rest : List UInt8) :
    word32 (bytes32 w ++ rest) = .ok (w, rest) := by
  simp [word32, bytes32]

@[simp] theorem word64_append (w : UInt64) (rest : List UInt8) :
    word64 (bytes64 w ++ rest) = .ok (w, rest) := by
  simp only [bytes64, bytes32, List.cons_append, List.nil_append, word64, word32_bytes32,
    word64_halves]

@[simp] theorem ipv4_append (ip : IPv4) (rest : List UInt8) :
    ipv4 (ip.bytes ++ rest) = .ok (ip, rest) := rfl

@[simp] theorem ipv6_append (ip : IPv6) (rest : List UInt8) :
    ipv6 (ip.bytes ++ rest) = .ok (ip, rest) := by
  simp [ipv6, IPv6.bytes, IPv6.groups, bytes16]

theorem address_append (host : Address) (rest : List UInt8) :
    address (bytes32 host.family ++ host.bytes ++ rest) = .ok (host, rest) := by
  rw [List.append_assoc, address, word32_append]
  cases host with
  | v4 ip => simp [Address.family, Address.bytes, pure, Except.pure]
  | v6 ip => simp [Address.family, Address.bytes, pure, Except.pure]

theorem dropWhile_append_zero {raw : List UInt8} (h : 0 ∉ raw) (rest : List UInt8) :
    (raw ++ 0 :: rest).dropWhile (· != 0) = 0 :: rest := by
  rw [List.dropWhile_append_of_pos]
  · simp
  · intro b hb
    exact bne_iff_ne.2 fun hzero => h (hzero ▸ hb)

theorem takeWhile_append_zero (raw rest : List UInt8) :
    (raw ++ 0 :: rest).takeWhile (· != 0) = raw.takeWhile (· != 0) := by
  induction raw with
  | nil => rfl
  | cons b raw ih => simp only [List.cons_append, List.takeWhile_cons, ih]

theorem takeWhile_eq_self {raw : List UInt8} (h : 0 ∉ raw) : raw.takeWhile (· != 0) = raw := by
  have others : ∀ b ∈ raw, (b != 0) = true := fun b hb => bne_iff_ne.2 fun zero => h (zero ▸ hb)
  rw [← List.append_nil raw, List.takeWhile_append_of_pos others]
  rfl

theorem textUpToZero_append_zero (raw rest : List UInt8) :
    textUpToZero (raw ++ 0 :: rest) = textUpToZero raw := by
  rw [textUpToZero, takeWhile_append_zero, textUpToZero]

theorem textUpToZero_append {raw : List UInt8} (h : 0 ∉ raw) (rest : List UInt8) :
    textUpToZero (raw ++ 0 :: rest) = Text.ofBytes raw := by
  rw [textUpToZero_append_zero, textUpToZero, takeWhile_eq_self h]

theorem textUpToZero_bytes {s : String} (h : '\x00' ∉ s.toList) :
    textUpToZero (Text.bytes s) = s := by
  rw [← Text.zero_mem_bytes] at h
  rw [textUpToZero, takeWhile_eq_self h, Text.ofBytes_bytes]

theorem terminated_append_zero {raw : List UInt8} (h : 0 ∉ raw) (rest : List UInt8) :
    terminated (raw ++ 0 :: rest) = .ok (Text.ofBytes raw, rest) := by
  simp only [terminated, dropWhile_append_zero h, textUpToZero_append h]

theorem terminated_append {s : String} (h : '\x00' ∉ s.toList) (rest : List UInt8) :
    terminated (Text.bytes s ++ 0 :: rest) = .ok (s, rest) := by
  rw [← Text.zero_mem_bytes] at h
  rw [terminated_append_zero h, Text.ofBytes_bytes]

theorem terminatedTexts_append {ss : List String} (h : ∀ s ∈ ss, '\x00' ∉ s.toList)
    (rest : List UInt8) :
    terminatedTexts ss.length ((ss.flatMap fun s => Text.bytes s ++ [0]) ++ rest) =
      .ok (ss, rest) := by
  induction ss with
  | nil => rfl
  | cons s ss ih =>
    have first := terminated_append (h s List.mem_cons_self)
    have others := ih fun t ht => h t (List.mem_cons_of_mem s ht)
    simp only [List.flatMap_cons, List.append_assoc, List.cons_append, List.nil_append,
      List.length_cons, terminatedTexts, first, ok_bind, others]
    rfl

theorem text_write (s : String) (rest : List UInt8) :
    text (Field.write .text s ++ rest) =
      .ok (textUpToZero ((Text.bytes s).take Layout.maxText), rest) := by
  have count : (UInt16.ofNat (((Text.bytes s).take Layout.maxText).length + 1)).toNat =
      ((Text.bytes s).take Layout.maxText ++ [0]).length := by
    have kept : ((Text.bytes s).take Layout.maxText).length ≤ 65534 := List.length_take_le ..
    rw [UInt16.toNat_ofNat', List.length_append, List.length_singleton]
    omega
  simp only [Field.write, List.append_assoc, text, word16_append, ok_bind, count]
  rw [← List.append_assoc, take_append, ok_bind, textUpToZero_append_zero]
  rfl

theorem text_append {s : String} (h : '\x00' ∉ s.toList) (fits : s.utf8ByteSize ≤ Layout.maxText)
    (rest : List UInt8) : text (Field.write .text s ++ rest) = .ok (s, rest) := by
  have whole : (Text.bytes s).take Layout.maxText = Text.bytes s :=
    List.take_of_length_le (by rwa [Text.length_bytes])
  rw [text_write, whole, textUpToZero_bytes h]

theorem texts_append {ss : List String} (h : ∀ s ∈ ss, '\x00' ∉ s.toList)
    (fits : ss.length < 4294967296) (rest : List UInt8) :
    texts (Field.write .texts ss ++ rest) = .ok (ss, rest) := by
  have count : (UInt32.ofNat ss.length).toNat = ss.length := by
    rw [UInt32.toNat_ofNat']
    omega
  simp only [Field.write, List.append_assoc, texts, word32_append, ok_bind, count,
    terminatedTexts_append h]

theorem socketPath_write (s : String) (rest : List UInt8) :
    socketPath (Field.write .socketPath s ++ rest) =
      .ok (textUpToZero ((Text.bytes s).take (Layout.socketPathWidth - 1)), rest) := by
  have width : (Field.write .socketPath s).length = Layout.socketPathWidth :=
    Field.length_write .socketPath s
  obtain ⟨zeros, hzeros⟩ : ∃ zeros, Layout.socketPathWidth -
      ((Text.bytes s).take (Layout.socketPathWidth - 1)).length = zeros + 1 :=
    Nat.exists_eq_add_one.2 (Nat.sub_pos_of_lt
      (Nat.lt_of_le_of_lt (List.length_take_le ..) (by decide)))
  rw [socketPath, take_append_of_length width, ok_bind]
  simp only [Field.write, hzeros, List.replicate_succ, textUpToZero_append_zero]
  rfl

theorem socketPath_append {s : String} (h : '\x00' ∉ s.toList)
    (fits : s.utf8ByteSize < Layout.socketPathWidth) (rest : List UInt8) :
    socketPath (Field.write .socketPath s ++ rest) = .ok (s, rest) := by
  have whole : (Text.bytes s).take (Layout.socketPathWidth - 1) = Text.bytes s :=
    List.take_of_length_le (by rw [Text.length_bytes]; omega)
  rw [socketPath_write, whole, textUpToZero_bytes h]

theorem ids_append {ws : List UInt32} (fits : ws.length ≤ Layout.maxIds) (rest : List UInt8) :
    ids (Field.write .ids ws ++ rest) = .ok (ws, rest) := by
  have whole : ws.take Layout.maxIds = ws := List.take_of_length_le fits
  have count : (ws.flatMap bytes32).length = 4 * (UInt16.ofNat ws.length).toNat := by
    rw [Layout.maxIds] at fits
    rw [length_flatMap_bytes32, UInt16.toNat_ofNat']
    omega
  simp only [Field.write, whole, List.append_assoc, ids, word16_append, ok_bind,
    take_append_of_length count, words32_flatMap_bytes32]
  rfl

theorem data_append {bs : List UInt8} (fits : bs.length ≤ Layout.maxData) (rest : List UInt8) :
    data (Field.write .data bs ++ rest) = .ok (bs, rest) := by
  have whole : bs.take Layout.maxData = bs := List.take_of_length_le fits
  have count : bs.length = (UInt16.ofNat bs.length).toNat := by
    rw [Layout.maxData] at fits
    rw [UInt16.toNat_ofNat']
    omega
  simp only [Field.write, whole, List.append_assoc, data, word16_append, ok_bind,
    take_append_of_length count]

theorem elements_append {es : Elements} (fits : es.length ≤ Layout.maxElements)
    (rest : List UInt8) : elements (Field.write .elements es ++ rest) = .ok (es, rest) := by
  have whole : es.take Layout.maxElements = es := Elements.take_of_length_le fits
  have exact : (UInt8.ofNat es.length).toNat = es.length := by
    rw [Layout.maxElements] at fits
    rw [UInt8.toNat_ofNat']
    omega
  have count : es.toBytes.length = (UInt8.ofNat es.length).toNat * es.unit.width := by
    rw [Elements.length_toBytes, exact]
  simp only [Field.write, whole, List.cons_append, elements, word8, ok_bind,
    ElementUnit.ofCode?_code, take_append_of_length count, Elements.ofBytes_toBytes]
  rfl

end Reader

theorem Field.read_write (field : Field) (value : field.Carrier) (h : field.Canonical value)
    (rest : List UInt8) : field.read (field.write value ++ rest) = .ok (value, rest) := by
  cases field with
  | word8 => rfl
  | word16 => exact Reader.word16_append value rest
  | word32 => exact Reader.word32_append value rest
  | word64 => exact Reader.word64_append value rest
  | ipv4 => exact Reader.ipv4_append value rest
  | ipv6 => exact Reader.ipv6_append value rest
  | address => exact Reader.address_append value rest
  | text => exact Reader.text_append h.1 h.2 rest
  | texts => exact Reader.texts_append h.2 h.1 rest
  | socketPath => exact Reader.socketPath_append h.1 h.2 rest
  | ids => exact Reader.ids_append h rest
  | data => exact Reader.data_append h rest
  | elements => exact Reader.elements_append h rest

theorem Layout.read_write (layout : Layout) (values : layout.Values)
    (h : Layout.Canonical layout values) (rest : List UInt8) :
    layout.read (layout.write values ++ rest) = .ok (values, rest) := by
  induction layout with
  | nil => rfl
  | cons field layout ih =>
    obtain ⟨value, values⟩ := values
    obtain ⟨first, others⟩ := h
    simp only [write, List.append_assoc, read, Field.read_write field value first,
      Reader.ok_bind, ih values others]
    rfl

end AuditTrail

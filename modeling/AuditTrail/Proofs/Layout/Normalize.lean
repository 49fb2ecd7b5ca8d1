import AuditTrail.Proofs.Layout.Wire

namespace AuditTrail

open BigEndian

/-- What the wire carries of a value. A text ends in front of its first zero and is clipped to its
place; a zero in a list of texts parts one of them, and of the parts there are no more than texts
were announced; what is too long is cut. -/
def Field.carried : (field : Field) → field.Carrier → field.Carrier
  | .text, s => Text.clip Layout.maxText (Text.beforeZero s)
  | .texts, ss =>
    (splitZeros (UInt32.ofNat ss.length).toNat (ss.flatMap fun s => Text.bytes s ++ [0])).map
      Text.ofBytes
  | .socketPath, s => Text.clip (Layout.socketPathWidth - 1) (Text.beforeZero s)
  | .ids, ws => ws.take Layout.maxIds
  | .data, bs => bs.take Layout.maxData
  | .elements, es => es.take Layout.maxElements
  | .word8, w => w
  | .word16, w => w
  | .word32, w => w
  | .word64, w => w
  | .ipv4, ip => ip
  | .ipv6, ip => ip
  | .address, host => host

def Layout.carried : (layout : Layout) → layout.Values → layout.Values
  | [], () => ()
  | field :: layout, (value, values) => (field.carried value, carried layout values)

theorem length_splitZeros (n : Nat) (input : List UInt8) : (splitZeros n input).length = n := by
  induction n generalizing input with
  | zero => rfl
  | succ n ih => rw [splitZeros, List.length_cons, ih]

theorem zero_not_mem_splitZeros {n : Nat} {input raw : List UInt8}
    (h : raw ∈ splitZeros n input) : 0 ∉ raw := by
  induction n generalizing input with
  | zero => exact absurd h List.not_mem_nil
  | succ n ih =>
    rw [splitZeros, List.mem_cons] at h
    rcases h with rfl | h
    · exact Reader.zero_not_mem_takeWhile input
    · exact ih h

theorem length_le_count_ended (ss : List String) :
    ss.length ≤ (ss.flatMap fun s => Text.bytes s ++ [0]).count 0 := by
  induction ss with
  | nil => exact Nat.le_refl 0
  | cons s ss ih =>
    rw [List.flatMap_cons, List.count_append, List.count_append, List.length_cons,
      List.count_singleton_self]
    omega

namespace Reader

theorem terminatedTexts_splitZeros {n : Nat} {input : List UInt8} (h : n ≤ input.count 0) :
    ∃ rest, terminatedTexts n input = .ok ((splitZeros n input).map Text.ofBytes, rest) := by
  induction n generalizing input with
  | zero => exact ⟨input, rfl⟩
  | succ n ih =>
    have member : 0 ∈ input := List.count_pos_iff.1 (Nat.lt_of_lt_of_le (Nat.succ_pos n) h)
    obtain ⟨raw, behind, rfl, absent⟩ := List.eq_append_cons_of_mem member
    rw [List.count_append, List.count_eq_zero.2 absent, List.count_cons_self] at h
    obtain ⟨rest, others⟩ := @ih behind (by omega)
    refine ⟨rest, ?_⟩
    simp only [terminatedTexts, terminated_append_zero absent, ok_bind, others, splitZeros,
      takeWhile_append_zero, takeWhile_eq_self absent, dropWhile_append_zero absent,
      List.tail_cons, List.map_cons]
    rfl

theorem textUpToZero_take (n : Nat) (s : String) :
    textUpToZero ((Text.bytes s).take n) = Text.clip n (Text.beforeZero s) := by
  rw [textUpToZero, ← List.take_takeWhile, ← Text.bytes_beforeZero, Text.clip]

end Reader

namespace Field

theorem canonical_carried_texts (ss : List String) :
    Field.Canonical .texts (Field.carried .texts ss) := by
  constructor
  · rw [carried, List.length_map, length_splitZeros]
    exact UInt32.toNat_lt _
  · intro s member
    obtain ⟨raw, hraw, rfl⟩ := List.mem_map.1 member
    exact Text.zero_not_mem_ofBytes (zero_not_mem_splitZeros hraw)

theorem canonical_carried {field : Field} (plain : field.holdsText = false)
    (value : field.Carrier) : field.Canonical (field.carried value) := by
  cases field with
  | text | texts | socketPath => cases plain
  | ids | data => exact List.length_take_le ..
  | elements => exact Nat.le_trans (Nat.le_of_eq (Elements.length_take ..)) (Nat.min_le_left ..)
  | _ => trivial

theorem write_carried {field : Field} (plain : field.holdsText = false) (value : field.Carrier) :
    field.write (field.carried value) = field.write value := by
  cases field with
  | text | texts | socketPath => cases plain
  | ids | data => simp only [write, carried, List.take_take, Nat.min_self]
  | elements =>
    have short : (value.take Layout.maxElements).length ≤ Layout.maxElements :=
      @canonical_carried .elements rfl value
    simp only [write, carried, Elements.take_of_length_le short, Elements.unit_take]
  | _ => rfl

theorem read_write_eq {field : Field} (single : field ≠ .texts) (value : field.Carrier)
    (rest : List UInt8) :
    field.read (field.write value ++ rest) = .ok (field.carried value, rest) := by
  cases hplain : field.holdsText with
  | false => rw [← write_carried hplain, read_write _ _ (canonical_carried hplain value)]
  | true =>
    cases field with
    | text => rw [read, Reader.text_write, Reader.textUpToZero_take, carried]
    | texts => exact absurd rfl single
    | socketPath => rw [read, Reader.socketPath_write, Reader.textUpToZero_take, carried]
    | _ => cases hplain

theorem read_write_texts (ss : List String) :
    ∃ surplus, Field.read .texts (Field.write .texts ss) =
      .ok (Field.carried .texts ss, surplus) := by
  have count : (UInt32.ofNat ss.length).toNat ≤
      (ss.flatMap fun s => Text.bytes s ++ [0]).count 0 := by
    have ended := length_le_count_ended ss
    rw [UInt32.toNat_ofNat']
    omega
  obtain ⟨surplus, parts⟩ := Reader.terminatedTexts_splitZeros count
  refine ⟨surplus, ?_⟩
  simp only [read, Reader.texts, write, Reader.word32_append, Reader.ok_bind, parts, carried]

theorem read_write_carried (field : Field) (value : field.Carrier) (rest : List UInt8) :
    field.read (field.write (field.carried value) ++ rest) = .ok (field.carried value, rest) := by
  cases hplain : field.holdsText with
  | false => rw [read_write _ _ (canonical_carried hplain value)]
  | true =>
    cases field with
    | texts => rw [read_write _ _ (canonical_carried_texts value)]
    | text | socketPath =>
      -- A clipped text can be longer than its place again, but it is clipped to itself.
      rw [read_write_eq (by decide), carried, carried, Text.beforeZero_eq
        (Text.zero_not_mem_clip (Text.zero_not_mem_beforeZero value) _), Text.clip_clip]
    | _ => cases hplain

end Field

namespace Layout

/-- Only a list of texts can leave bytes of its own unread, and it stands last: a zero inside a
text parts it, and then there are more parts than texts were announced. -/
theorem read_write_surplus {layout : Layout} (last : .texts ∉ layout.dropLast)
    (values : layout.Values) :
    ∃ surplus, layout.read (layout.write values) = .ok (layout.carried values, surplus) ∧
      (.texts ∉ layout → surplus = []) := by
  induction layout with
  | nil => exact ⟨[], rfl, fun _ => rfl⟩
  | cons field layout ih =>
    obtain ⟨value, values⟩ := values
    by_cases list : field = .texts
    · subst list
      cases layout with
      | nil =>
        obtain ⟨surplus, first⟩ := Field.read_write_texts value
        refine ⟨surplus, ?_, fun absent => absurd List.mem_cons_self absent⟩
        simp only [write, List.append_nil, read, first, Reader.ok_bind]
        rfl
      | cons other layout => exact absurd List.mem_cons_self last
    · have others : .texts ∉ layout.dropLast := by
        cases layout with
        | nil => exact List.not_mem_nil
        | cons other layout => exact fun member => last (List.mem_cons_of_mem _ member)
      obtain ⟨surplus, hread, none⟩ := ih others values
      refine ⟨surplus, ?_, fun absent => none fun member =>
        absent (List.mem_cons_of_mem _ member)⟩
      simp only [write, read, Field.read_write_eq list, Reader.ok_bind, hread]
      rfl

theorem read_write_carried (layout : Layout) (values : layout.Values) (rest : List UInt8) :
    layout.read (layout.write (layout.carried values) ++ rest) =
      .ok (layout.carried values, rest) := by
  induction layout with
  | nil => rfl
  | cons field layout ih =>
    obtain ⟨value, values⟩ := values
    simp only [carried, write, List.append_assoc, read, Field.read_write_carried,
      Reader.ok_bind, ih values]
    rfl

end Layout

end AuditTrail

import AuditTrail.Proofs.Except
import AuditTrail.Proofs.Layout.RoundTrip

namespace AuditTrail

open BigEndian

namespace Elements

theorem toBytes_ofBytes {raw : List UInt8} {n : Nat} {unit : ElementUnit}
    (h : raw.length = n * unit.width) : (ofBytes raw unit).toBytes = raw := by
  cases unit with
  | byte => rfl
  | short => exact (flatMap_bytes16_words16 h).1
  | long => exact (flatMap_bytes32_words32 h).1

theorem length_ofBytes {raw : List UInt8} {n : Nat} {unit : ElementUnit}
    (h : raw.length = n * unit.width) : (ofBytes raw unit).length = n := by
  cases unit with
  | byte => exact h.trans (Nat.mul_one n)
  | short => exact (flatMap_bytes16_words16 h).2
  | long => exact (flatMap_bytes32_words32 h).2

@[simp] theorem unit_ofBytes (raw : List UInt8) (unit : ElementUnit) :
    (ofBytes raw unit).unit = unit := by
  cases unit <;> rfl

end Elements

namespace Reader

variable {input rest : List UInt8}

theorem take_sound {n : Nat} {raw : List UInt8} (h : take n input = .ok (raw, rest)) :
    input = raw ++ rest ∧ raw.length = n := by
  simp only [take] at h
  split at h <;> cases h
  exact ⟨(List.take_append_drop n input).symm, ‹_›⟩

theorem word8_sound {w : UInt8} (h : word8 input = .ok (w, rest)) : input = w :: rest := by
  unfold word8 at h
  split at h <;> cases h
  rfl

theorem word16_sound {w : UInt16} (h : word16 input = .ok (w, rest)) :
    input = bytes16 w ++ rest := by
  unfold word16 at h
  split at h <;> cases h
  rw [bytes16_word16]
  rfl

theorem word32_sound {w : UInt32} (h : word32 input = .ok (w, rest)) :
    input = bytes32 w ++ rest := by
  unfold word32 at h
  split at h <;> cases h
  rw [bytes32_word32]
  rfl

theorem word64_sound {w : UInt64} (h : word64 input = .ok (w, rest)) :
    input = bytes64 w ++ rest := by
  unfold word64 at h
  split at h <;> cases h
  rw [bytes64_word64, bytes32_word32, bytes32_word32]
  rfl

theorem ipv4_sound {ip : IPv4} (h : ipv4 input = .ok (ip, rest)) : input = ip.bytes ++ rest := by
  unfold ipv4 at h
  split at h <;> cases h
  rfl

theorem ipv6_sound {ip : IPv6} (h : ipv6 input = .ok (ip, rest)) : input = ip.bytes ++ rest := by
  unfold ipv6 at h
  split at h <;> cases h
  simp only [IPv6.bytes, IPv6.groups, List.flatMap_cons, bytes16_word16, List.flatMap_nil]
  rfl

theorem address_sound {host : Address} (h : address input = .ok (host, rest)) :
    input = bytes32 host.family ++ host.bytes ++ rest := by
  obtain ⟨⟨family, behind⟩, hfamily, hhost⟩ := bind_eq_ok.1 h
  rw [word32_sound hfamily]
  dsimp only at hhost
  split at hhost
  · obtain ⟨⟨ip, behind⟩, hip, hhost⟩ := bind_eq_ok.1 hhost
    cases hhost
    rw [ipv4_sound hip, ‹family = 4›, List.append_assoc]
    rfl
  · split at hhost
    · obtain ⟨⟨ip, behind⟩, hip, hhost⟩ := bind_eq_ok.1 hhost
      cases hhost
      rw [ipv6_sound hip, ‹family = 16›, List.append_assoc]
      rfl
    · cases hhost

theorem text_sound {s : String} (h : text input = .ok (s, rest)) :
    ∃ raw : List UInt8, raw.length < 65536 ∧
      input = bytes16 (UInt16.ofNat raw.length) ++ (raw ++ rest) ∧ s = textUpToZero raw := by
  obtain ⟨⟨length, behind⟩, hlength, h⟩ := bind_eq_ok.1 h
  obtain ⟨⟨raw, behind⟩, hraw, h⟩ := bind_eq_ok.1 h
  cases h
  obtain ⟨rfl, count⟩ := take_sound hraw
  refine ⟨raw, count ▸ length.toNat_lt, ?_, rfl⟩
  rw [word16_sound hlength, count, UInt16.ofNat_toNat]

theorem zero_not_mem_takeWhile (bs : List UInt8) : 0 ∉ bs.takeWhile (· != 0) := by
  intro member
  have passed := List.all_eq_true.1 List.all_takeWhile 0 member
  simp at passed

theorem dropWhile_eq_cons {zero : UInt8} (h : input.dropWhile (· != 0) = zero :: rest) :
    input = input.takeWhile (· != 0) ++ 0 :: rest := by
  have first := List.head?_dropWhile_not (· != 0) input
  rw [h] at first
  have ends : zero = 0 := by simpa using first
  rw [← ends, ← h, ends, List.takeWhile_append_dropWhile]

theorem terminated_sound {s : String} (h : terminated input = .ok (s, rest)) :
    ∃ raw : List UInt8, 0 ∉ raw ∧ input = raw ++ 0 :: rest ∧ s = Text.ofBytes raw := by
  unfold terminated at h
  split at h
  · cases h
  · next found =>
    cases h
    exact ⟨_, zero_not_mem_takeWhile input, dropWhile_eq_cons found, rfl⟩

theorem terminatedTexts_sound {n : Nat} {ss : List String}
    (h : terminatedTexts n input = .ok (ss, rest)) :
    ∃ raws : List (List UInt8), raws.length = n ∧ (∀ raw ∈ raws, 0 ∉ raw) ∧
      input = raws.flatMap (· ++ [0]) ++ rest ∧ ss = raws.map Text.ofBytes := by
  induction n generalizing input ss with
  | zero =>
    cases h
    exact ⟨[], rfl, nofun, rfl, rfl⟩
  | succ n ih =>
    obtain ⟨⟨s, behind⟩, hfirst, h⟩ := bind_eq_ok.1 h
    obtain ⟨⟨others, behind⟩, hothers, h⟩ := bind_eq_ok.1 h
    cases h
    obtain ⟨raw, hraw, rfl, rfl⟩ := terminated_sound hfirst
    obtain ⟨raws, rfl, hraws, rfl, rfl⟩ := ih hothers
    refine ⟨raw :: raws, rfl, List.forall_mem_cons.2 ⟨hraw, hraws⟩, ?_, rfl⟩
    rw [List.flatMap_cons, List.append_assoc, List.append_assoc]
    rfl

theorem texts_sound {ss : List String} (h : texts input = .ok (ss, rest)) :
    ∃ raws : List (List UInt8), raws.length < 4294967296 ∧ (∀ raw ∈ raws, 0 ∉ raw) ∧
      input = bytes32 (UInt32.ofNat raws.length) ++ (raws.flatMap (· ++ [0]) ++ rest) ∧
      ss = raws.map Text.ofBytes := by
  obtain ⟨⟨count, behind⟩, hcount, h⟩ := bind_eq_ok.1 h
  obtain ⟨raws, length, hraws, rfl, rfl⟩ := terminatedTexts_sound h
  refine ⟨raws, length ▸ count.toNat_lt, hraws, ?_, rfl⟩
  rw [word32_sound hcount, length, UInt32.ofNat_toNat]

theorem socketPath_sound {s : String} (h : socketPath input = .ok (s, rest)) :
    ∃ raw : List UInt8, raw.length = Layout.socketPathWidth ∧ input = raw ++ rest ∧
      s = textUpToZero raw := by
  obtain ⟨⟨raw, behind⟩, hraw, h⟩ := bind_eq_ok.1 h
  cases h
  exact ⟨raw, (take_sound hraw).2, (take_sound hraw).1, rfl⟩

theorem ids_sound {ws : List UInt32} (h : ids input = .ok (ws, rest)) :
    input = Field.write .ids ws ++ rest := by
  obtain ⟨⟨count, behind⟩, hcount, h⟩ := bind_eq_ok.1 h
  obtain ⟨⟨raw, behind⟩, hraw, h⟩ := bind_eq_ok.1 h
  cases h
  obtain ⟨rfl, length⟩ := take_sound hraw
  obtain ⟨back, number⟩ := flatMap_bytes32_words32 (length.trans (Nat.mul_comm ..))
  have whole : (words32 raw).take Layout.maxIds = words32 raw :=
    List.take_of_length_le (number ▸ Nat.le_of_lt_succ count.toNat_lt)
  rw [word16_sound hcount]
  simp only [Field.write, whole, number, back, UInt16.ofNat_toNat, List.append_assoc]

theorem data_sound {bs : List UInt8} (h : data input = .ok (bs, rest)) :
    input = Field.write .data bs ++ rest := by
  obtain ⟨⟨count, behind⟩, hcount, h⟩ := bind_eq_ok.1 h
  obtain ⟨rfl, length⟩ := take_sound h
  have whole : bs.take Layout.maxData = bs :=
    List.take_of_length_le (length ▸ Nat.le_of_lt_succ count.toNat_lt)
  rw [word16_sound hcount]
  simp only [Field.write, whole, length, UInt16.ofNat_toNat, List.append_assoc]

theorem elements_sound {es : Elements} (h : elements input = .ok (es, rest)) :
    input = Field.write .elements es ++ rest := by
  obtain ⟨⟨code, behind⟩, hcode, h⟩ := bind_eq_ok.1 h
  dsimp only at h
  split at h
  · cases h
  · next unit hunit =>
    obtain ⟨⟨count, behind⟩, hcount, h⟩ := bind_eq_ok.1 h
    obtain ⟨⟨raw, behind⟩, hraw, h⟩ := bind_eq_ok.1 h
    cases h
    obtain ⟨rfl, length⟩ := take_sound hraw
    have number := Elements.length_ofBytes length
    have whole : (Elements.ofBytes raw unit).take Layout.maxElements = Elements.ofBytes raw unit :=
      Elements.take_of_length_le (number ▸ Nat.le_of_lt_succ count.toNat_lt)
    rw [word8_sound hcode, word8_sound hcount]
    simp only [Field.write, whole, number, Elements.toBytes_ofBytes length, Elements.unit_ofBytes,
      ElementUnit.code_of_ofCode? hunit, UInt8.ofNat_toNat, List.cons_append]

end Reader

end AuditTrail

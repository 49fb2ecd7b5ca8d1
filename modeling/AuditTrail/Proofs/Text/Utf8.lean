import AuditTrail.Text.Utf8

namespace AuditTrail.Text

theorem bytes_eq_flatMap (s : String) : bytes s = s.toList.flatMap String.utf8EncodeChar := by
  rw [bytes, ← String.utf8Encode_toList, List.utf8Encode]
  simp

theorem bytes_append (s t : String) : bytes (s ++ t) = bytes s ++ bytes t := by
  simp [bytes_eq_flatMap]

theorem bytes_join (ss : List String) : bytes (String.join ss) = ss.flatMap bytes := by
  induction ss with
  | nil => rfl
  | cons s ss ih => rw [String.join_cons, bytes_append, ih, List.flatMap_cons]

namespace Decoding

theorem lead_one {b : UInt8} (text : String) (high : b.toNat ≤ 0x7F) :
    lead text b = ⟨text.push (Char.ofNat b.toNat), none⟩ := by
  simp only [lead, UInt8.lt_iff_toNat_lt, UInt8.reduceToNat]
  rw [if_pos (by omega)]

theorem lead_two {b : UInt8} (text : String) (low : 0xC2 ≤ b.toNat) (high : b.toNat ≤ 0xDF) :
    lead text b = ⟨text, some ⟨0, 0x80, 0xBF, b.toNat - 0xC0⟩⟩ := by
  simp only [lead, UInt8.lt_iff_toNat_lt, UInt8.reduceToNat]
  rw [if_neg (by omega), if_neg (by omega), if_pos (by omega)]

theorem lead_three {b : UInt8} (text : String) (low : 0xE0 ≤ b.toNat) (high : b.toNat ≤ 0xEF) :
    lead text b = ⟨text, some ⟨1, if b.toNat = 0xE0 then 0xA0 else 0x80,
      if b.toNat = 0xED then 0x9F else 0xBF, b.toNat - 0xE0⟩⟩ := by
  simp only [lead, UInt8.lt_iff_toNat_lt, ← UInt8.toNat_inj, UInt8.reduceToNat]
  rw [if_neg (by omega), if_neg (by omega), if_neg (by omega), if_pos (by omega)]

theorem lead_four {b : UInt8} (text : String) (low : 0xF0 ≤ b.toNat) (high : b.toNat ≤ 0xF4) :
    lead text b = ⟨text, some ⟨2, if b.toNat = 0xF0 then 0x90 else 0x80,
      if b.toNat = 0xF4 then 0x8F else 0xBF, b.toNat - 0xF0⟩⟩ := by
  simp only [lead, UInt8.lt_iff_toNat_lt, ← UInt8.toNat_inj, UInt8.reduceToNat]
  rw [if_neg (by omega), if_neg (by omega), if_neg (by omega), if_neg (by omega),
    if_pos (by omega)]

theorem toNat_ofNat_of_lt {n : Nat} (h : n < 256) : (UInt8.ofNat n).toNat = n := by
  rw [UInt8.toNat_ofNat']
  omega

theorem toNat_tail (n : Nat) : (UInt8.ofNat (n % 0x40 + 0x80)).toNat = n % 0x40 + 0x80 :=
  toNat_ofNat_of_lt (by omega)

theorem step_last {low high : UInt8} (text : String) (bits n : Nat)
    (hlow : low.toNat ≤ n % 0x40 + 0x80) (hhigh : n % 0x40 + 0x80 ≤ high.toNat) :
    step ⟨text, some ⟨0, low, high, bits⟩⟩ (UInt8.ofNat (n % 0x40 + 0x80)) =
      ⟨text.push (Char.ofNat (bits * 64 + n % 0x40)), none⟩ := by
  simp only [step, UInt8.le_iff_toNat_le, toNat_tail]
  rw [if_pos ⟨hlow, hhigh⟩, Nat.add_sub_cancel]

theorem step_more {low high : UInt8} (text : String) (more bits n : Nat)
    (hlow : low.toNat ≤ n % 0x40 + 0x80) (hhigh : n % 0x40 + 0x80 ≤ high.toNat) :
    step ⟨text, some ⟨more + 1, low, high, bits⟩⟩ (UInt8.ofNat (n % 0x40 + 0x80)) =
      ⟨text, some ⟨more, 0x80, 0xBF, bits * 64 + n % 0x40⟩⟩ := by
  simp only [step, UInt8.le_iff_toNat_le, toNat_tail]
  rw [if_pos ⟨hlow, hhigh⟩, Nat.add_sub_cancel]

theorem tail_range (n : Nat) :
    (0x80 : UInt8).toNat ≤ n % 0x40 + 0x80 ∧ n % 0x40 + 0x80 ≤ (0xBF : UInt8).toNat := by
  simp only [UInt8.reduceToNat]
  omega

/-- The second byte of a three-byte character: no overlong form after E0, no surrogate after ED. -/
theorem step_lead_three (text : String) {v : Nat} (long : 0x7FF < v) (short : v ≤ 0xFFFF)
    (valid : v < 0xD800 ∨ 0xDFFF < v) :
    step (lead text (UInt8.ofNat (v / 4096 % 0x10 + 0xE0))) (UInt8.ofNat (v / 64 % 0x40 + 0x80)) =
      ⟨text, some ⟨0, 0x80, 0xBF, v / 4096 % 0x10 * 64 + v / 64 % 0x40⟩⟩ := by
  have b0 : (UInt8.ofNat (v / 4096 % 0x10 + 0xE0)).toNat = v / 4096 % 0x10 + 0xE0 :=
    toNat_ofNat_of_lt (by omega)
  rw [lead_three _ (by omega) (by omega), b0, Nat.add_sub_cancel, step_more]
  · split <;> simp only [UInt8.reduceToNat] <;> omega
  · split <;> simp only [UInt8.reduceToNat] <;> omega

/-- The second byte of a four-byte character: no overlong form after F0, nothing too large after
F4. -/
theorem step_lead_four (text : String) {v : Nat} (long : 0xFFFF < v) (valid : v < 0x110000) :
    step (lead text (UInt8.ofNat (v / 262144 % 0x08 + 0xF0)))
        (UInt8.ofNat (v / 4096 % 0x40 + 0x80)) =
      ⟨text, some ⟨1, 0x80, 0xBF, v / 262144 % 0x08 * 64 + v / 4096 % 0x40⟩⟩ := by
  have b0 : (UInt8.ofNat (v / 262144 % 0x08 + 0xF0)).toNat = v / 262144 % 0x08 + 0xF0 :=
    toNat_ofNat_of_lt (by omega)
  rw [lead_four _ (by omega) (by omega), b0, Nat.add_sub_cancel, step_more]
  · split <;> simp only [UInt8.reduceToNat] <;> omega
  · split <;> simp only [UInt8.reduceToNat] <;> omega

theorem foldl_step_utf8EncodeChar (text : String) (c : Char) :
    (String.utf8EncodeChar c).foldl step ⟨text, none⟩ = ⟨text.push c, none⟩ := by
  have valid : c.val.toNat < 0xD800 ∨ 0xDFFF < c.val.toNat ∧ c.val.toNat < 0x110000 := c.valid
  have back : Char.ofNat c.val.toNat = c := Char.ofNat_toNat c
  have start (b : UInt8) : step ⟨text, none⟩ b = lead text b := rfl
  fun_cases String.utf8EncodeChar c with
  | case1 v h =>
    have b0 : (UInt8.ofNat v).toNat = v := toNat_ofNat_of_lt (by omega)
    simp only [List.foldl_cons, List.foldl_nil]
    rw [start, lead_one _ (by omega), b0, back]
  | case2 v h1 h2 =>
    have b0 : (UInt8.ofNat (v / 64 % 0x20 + 0xC0)).toNat = v / 64 % 0x20 + 0xC0 :=
      toNat_ofNat_of_lt (by omega)
    have bits : v / 64 % 0x20 * 64 + v % 0x40 = v := by omega
    obtain ⟨l1, h1⟩ := tail_range v
    simp only [List.foldl_cons, List.foldl_nil]
    rw [start, lead_two _ (by omega) (by omega), b0, Nat.add_sub_cancel, step_last _ _ _ l1 h1,
      bits, back]
  | case3 v h1 h2 h3 =>
    have bits : (v / 4096 % 0x10 * 64 + v / 64 % 0x40) * 64 + v % 0x40 = v := by omega
    obtain ⟨l2, h2⟩ := tail_range v
    simp only [List.foldl_cons, List.foldl_nil]
    rw [start, step_lead_three _ (by omega) h3 (by omega), step_last _ _ _ l2 h2, bits, back]
  | case4 v h1 h2 h3 =>
    have bits : ((v / 262144 % 0x08 * 64 + v / 4096 % 0x40) * 64 + v / 64 % 0x40) * 64 +
        v % 0x40 = v := by omega
    obtain ⟨l2, h2⟩ := tail_range (v / 64)
    obtain ⟨l3, h3⟩ := tail_range v
    simp only [List.foldl_cons, List.foldl_nil]
    rw [start, step_lead_four _ (by omega) (by omega), step_more _ _ _ _ l2 h2,
      step_last _ _ _ l3 h3, bits, back]

theorem foldl_step_flatMap (text : String) (cs : List Char) :
    (cs.flatMap String.utf8EncodeChar).foldl step ⟨text, none⟩ =
      ⟨text ++ String.ofList cs, none⟩ := by
  induction cs generalizing text with
  | nil => simp
  | cons c cs ih =>
    rw [List.flatMap_cons, List.foldl_append, foldl_step_utf8EncodeChar, ih, String.ofList_cons,
      ← String.append_singleton, String.append_assoc]

end Decoding

@[simp] theorem ofBytes_bytes (s : String) : ofBytes (bytes s) = s := by
  rw [ofBytes, bytes_eq_flatMap, Decoding.foldl_step_flatMap]
  simp [Decoding.finish]

theorem ofNat_eq_ofNat_iff {m n : Nat} (hm : m < 256) (hn : n < 256) :
    UInt8.ofNat m = UInt8.ofNat n ↔ m = n := by
  rw [← UInt8.toNat_inj, Decoding.toNat_ofNat_of_lt hm, Decoding.toNat_ofNat_of_lt hn]

theorem ofNat_mem_utf8EncodeChar {n : Nat} (one : n ≤ 0x7F) (c : Char) :
    UInt8.ofNat n ∈ String.utf8EncodeChar c ↔ n = c.val.toNat := by
  fun_cases String.utf8EncodeChar c with
  | case1 v h => rw [List.mem_singleton, ofNat_eq_ofNat_iff (by omega) (by omega)]
  | case2 v h1 h2 =>
    simp only [List.mem_cons, List.not_mem_nil, or_false]
    rw [ofNat_eq_ofNat_iff (by omega) (by omega), ofNat_eq_ofNat_iff (by omega) (by omega)]
    omega
  | case3 v h1 h2 h3 =>
    simp only [List.mem_cons, List.not_mem_nil, or_false]
    rw [ofNat_eq_ofNat_iff (by omega) (by omega), ofNat_eq_ofNat_iff (by omega) (by omega),
      ofNat_eq_ofNat_iff (by omega) (by omega)]
    omega
  | case4 v h1 h2 h3 =>
    simp only [List.mem_cons, List.not_mem_nil, or_false]
    rw [ofNat_eq_ofNat_iff (by omega) (by omega), ofNat_eq_ofNat_iff (by omega) (by omega),
      ofNat_eq_ofNat_iff (by omega) (by omega), ofNat_eq_ofNat_iff (by omega) (by omega)]
    omega

theorem ofNat_mem_bytes (c : Char) (one : c.toNat ≤ 0x7F) (s : String) :
    UInt8.ofNat c.toNat ∈ bytes s ↔ c ∈ s.toList := by
  rw [bytes_eq_flatMap, List.mem_flatMap]
  constructor
  · rintro ⟨d, hd, here⟩
    have same : c.val.toNat = d.val.toNat := (ofNat_mem_utf8EncodeChar one d).1 here
    rwa [Char.ext (UInt32.toNat_inj.1 same)]
  · intro h
    exact ⟨c, h, (ofNat_mem_utf8EncodeChar one c).2 rfl⟩

theorem zero_mem_utf8EncodeChar (c : Char) : 0 ∈ String.utf8EncodeChar c ↔ c = '\x00' := by
  rw [← Char.val_inj, ← UInt32.toNat_inj]
  exact (ofNat_mem_utf8EncodeChar (Nat.zero_le _) c).trans eq_comm

theorem zero_mem_bytes (s : String) : 0 ∈ bytes s ↔ '\x00' ∈ s.toList :=
  ofNat_mem_bytes '\x00' (by decide) s

theorem newline_mem_bytes (s : String) : 10 ∈ bytes s ↔ '\n' ∈ s.toList :=
  ofNat_mem_bytes '\n' (by decide) s

end AuditTrail.Text

import AuditTrail.Proofs.Cut
import AuditTrail.Proofs.Text.Lossy

/-! Texts cut between two of their bytes. A cut inside a character makes a replacement character of
what is left of it; that takes more bytes than were left, but the same cut makes it again. -/

namespace AuditTrail.Text

open String (utf8EncodeChar)

theorem Decoding.foldl_step_take (text : String) (c : Char) {n : Nat} (pos : n ≠ 0)
    (inside : n < (utf8EncodeChar c).length) :
    ∃ begun, ((utf8EncodeChar c).take n).foldl step ⟨text, none⟩ = ⟨text, some begun⟩ := by
  have valid : c.val.toNat < 0xD800 ∨ 0xDFFF < c.val.toNat ∧ c.val.toNat < 0x110000 := c.valid
  have start (b : UInt8) : step ⟨text, none⟩ b = lead text b := rfl
  revert inside
  fun_cases utf8EncodeChar c with
  | case1 v h =>
    intro inside
    exact absurd (Nat.lt_one_iff.1 inside) pos
  | case2 v h1 h2 =>
    intro inside
    have b0 : (UInt8.ofNat (v / 64 % 0x20 + 0xC0)).toNat = v / 64 % 0x20 + 0xC0 :=
      toNat_ofNat_of_lt (by omega)
    obtain rfl : n = 1 := by simp at inside; omega
    simp only [List.take, List.foldl_cons, List.foldl_nil]
    rw [start, lead_two _ (by omega) (by omega)]
    exact ⟨_, rfl⟩
  | case3 v h1 h2 h3 =>
    intro inside
    have b0 : (UInt8.ofNat (v / 4096 % 0x10 + 0xE0)).toNat = v / 4096 % 0x10 + 0xE0 :=
      toNat_ofNat_of_lt (by omega)
    obtain rfl | rfl : n = 1 ∨ n = 2 := by simp at inside; omega
    all_goals simp only [List.take, List.foldl_cons, List.foldl_nil]
    · rw [start, lead_three _ (by omega) (by omega)]
      exact ⟨_, rfl⟩
    · rw [start, step_lead_three _ (by omega) h3 (by omega)]
      exact ⟨_, rfl⟩
  | case4 v h1 h2 h3 =>
    intro inside
    have b0 : (UInt8.ofNat (v / 262144 % 0x08 + 0xF0)).toNat = v / 262144 % 0x08 + 0xF0 :=
      toNat_ofNat_of_lt (by omega)
    obtain ⟨l2, h2⟩ := tail_range (v / 64)
    obtain rfl | rfl | rfl : n = 1 ∨ n = 2 ∨ n = 3 := by simp at inside; omega
    all_goals simp only [List.take, List.foldl_cons, List.foldl_nil]
    · rw [start, lead_four _ (by omega) (by omega)]
      exact ⟨_, rfl⟩
    · rw [start, step_lead_four _ (by omega) (by omega)]
      exact ⟨_, rfl⟩
    · rw [start, step_lead_four _ (by omega) (by omega), step_more _ _ _ _ l2 h2]
      exact ⟨_, rfl⟩

theorem utf8EncodeChar_replacement : utf8EncodeChar replacement = [0xEF, 0xBF, 0xBD] := by decide

theorem ofBytes_flatMap_take (cs : List Char) (c : Char) {n : Nat} (pos : n ≠ 0)
    (inside : n < (utf8EncodeChar c).length) :
    ofBytes (cs.flatMap utf8EncodeChar ++ (utf8EncodeChar c).take n) =
      String.ofList (cs ++ [replacement]) := by
  obtain ⟨begun, read⟩ := Decoding.foldl_step_take ("" ++ String.ofList cs) c pos inside
  rw [ofBytes, List.foldl_append, Decoding.foldl_step_flatMap, read, Decoding.finish,
    String.empty_append, String.ofList_append]
  rfl

/-- Characters, and then one or two of the three bytes of a replacement character. -/
def EndsInReplacement (bs : List UInt8) : Prop :=
  ∃ whole, IsUtf8 whole ∧ (bs = whole ++ [0xEF] ∨ bs = whole ++ [0xEF, 0xBF])

theorem endsInReplacement_iff (bs : List UInt8) :
    EndsInReplacement bs ↔ ∃ (whole : List Char) (k : Nat), k ≠ 0 ∧ k < 3 ∧
      bs = whole.flatMap utf8EncodeChar ++ (utf8EncodeChar replacement).take k := by
  rw [utf8EncodeChar_replacement]
  constructor
  · rintro ⟨_, ⟨cs, rfl⟩, rfl | rfl⟩
    · exact ⟨cs, 1, by decide, by decide, rfl⟩
    · exact ⟨cs, 2, by decide, by decide, rfl⟩
  · rintro ⟨cs, k, pos, small, rfl⟩
    obtain rfl | rfl : k = 1 ∨ k = 2 := by omega
    · exact ⟨_, ⟨cs, rfl⟩, .inl rfl⟩
    · exact ⟨_, ⟨cs, rfl⟩, .inr rfl⟩

theorem bytes_replaced (cs : List Char) :
    bytes (String.ofList (cs ++ [replacement])) =
      cs.flatMap utf8EncodeChar ++ utf8EncodeChar replacement := by
  rw [bytes_ofList, List.flatMap_append, List.flatMap_singleton]

theorem EndsInReplacement.not_isUtf8 {bs : List UInt8} (h : EndsInReplacement bs) :
    ¬IsUtf8 bs := by
  obtain ⟨front, k, pos, small, rfl⟩ := (endsInReplacement_iff bs).1 h
  have inside : k < (utf8EncodeChar replacement).length := by rwa [utf8EncodeChar_replacement]
  rw [← bytes_ofBytes_eq_iff, ofBytes_flatMap_take front _ pos inside, bytes_replaced]
  intro same
  have size := congrArg List.length (List.append_cancel_left same)
  rw [List.length_take_of_le (Nat.le_of_lt inside)] at size
  exact Nat.ne_of_lt inside size.symm

/-- Bytes are those of their own text, as far as it is kept, if they are a text that is kept whole;
or if they fill what is kept and end inside a replacement character, which is replaced by itself
and cut off where it was before. -/
theorem take_bytes_ofBytes_eq_iff (bs : List UInt8) (n : Nat) :
    (bytes (ofBytes bs)).take n = bs ↔
      IsUtf8 bs ∧ bs.length ≤ n ∨ EndsInReplacement bs ∧ bs.length = n := by
  constructor
  · intro same
    have bound : bs.length ≤ n := same ▸ List.length_take_le n _
    rcases Nat.lt_or_ge n (bytes (ofBytes bs)).length with short | whole
    · have size : bs.length = n := by
        rw [← same, List.length_take_of_le (Nat.le_of_lt short)]
      have parts := bytes_eq_flatMap (ofBytes bs)
      rw [parts] at same short
      obtain ⟨front, c, -, k, -, inside, hn, taken⟩ := exists_take_flatMap _ _ short
      have eq : bs = front.flatMap utf8EncodeChar ++ (utf8EncodeChar c).take k :=
        same.symm.trans taken
      by_cases none : k = 0
      · rw [none, List.take_zero, List.append_nil] at eq
        exact .inl ⟨⟨front, eq⟩, bound⟩
      · have replaced := bytes_replaced front
        rw [← ofBytes_flatMap_take front c none inside, ← eq, parts] at replaced
        rw [replaced, hn] at same short
        rw [List.length_append, utf8EncodeChar_replacement] at short
        rw [List.take_length_add_append] at same
        exact .inr ⟨(endsInReplacement_iff bs).2
          ⟨front, k, none, Nat.lt_of_add_lt_add_left short, same.symm⟩, size⟩
    · rw [List.take_of_length_le whole] at same
      exact .inl ⟨(bytes_ofBytes_eq_iff bs).1 same, bound⟩
  · rintro (⟨valid, fits⟩ | ⟨ends, rfl⟩)
    · rw [(bytes_ofBytes_eq_iff bs).2 valid, List.take_of_length_le fits]
    · obtain ⟨front, k, pos, small, rfl⟩ := (endsInReplacement_iff bs).1 ends
      have inside : k < (utf8EncodeChar replacement).length := by
        rwa [utf8EncodeChar_replacement]
      rw [ofBytes_flatMap_take front _ pos inside, bytes_replaced, List.length_append,
        List.take_length_add_append, List.length_take_of_le (Nat.le_of_lt inside)]

def clip (n : Nat) (s : String) : String := ofBytes ((bytes s).take n)

theorem clip_replaced (cs : List Char) {k : Nat} (pos : k ≠ 0) :
    clip ((cs.flatMap utf8EncodeChar).length + k) (String.ofList (cs ++ [replacement])) =
      String.ofList (cs ++ [replacement]) := by
  rw [clip, bytes_replaced, List.take_length_add_append]
  by_cases inside : k < (utf8EncodeChar replacement).length
  · exact ofBytes_flatMap_take cs replacement pos inside
  · rw [List.take_of_length_le (Nat.not_lt.1 inside), ← bytes_replaced, ofBytes_bytes]

theorem clip_clip (n : Nat) (s : String) : clip n (clip n s) = clip n s := by
  rcases Nat.lt_or_ge n (bytes s).length with short | whole
  · rw [bytes_eq_flatMap] at short
    obtain ⟨front, c, -, k, -, inside, hn, taken⟩ := exists_take_flatMap _ _ short
    have once : clip n s = ofBytes (front.flatMap utf8EncodeChar ++ (utf8EncodeChar c).take k) := by
      rw [clip, bytes_eq_flatMap, taken]
    by_cases none : k = 0
    · subst none
      rw [List.take_zero, List.append_nil, ofBytes_flatMap] at once
      rw [once, clip, bytes_ofList, hn, Nat.add_zero, List.take_length, ofBytes_flatMap]
    · rw [once, ofBytes_flatMap_take front c none inside, hn]
      exact clip_replaced front none
  · have once : clip n s = s := by rw [clip, List.take_of_length_le whole, ofBytes_bytes]
    rw [once, once]

def beforeZero (s : String) : String := String.ofList (s.toList.takeWhile (· != '\x00'))

theorem bytes_beforeZero (s : String) : bytes (beforeZero s) = (bytes s).takeWhile (· != 0) := by
  rw [beforeZero, bytes_ofList, bytes_eq_flatMap]
  induction s.toList with
  | nil => rfl
  | cons c cs ih =>
    by_cases hc : c = '\x00'
    · subst hc
      rfl
    · have absent : ∀ b ∈ utf8EncodeChar c, (b != 0) = true := by
        intro b hb
        exact bne_iff_ne.2 fun zero => hc ((zero_mem_utf8EncodeChar c).1 (zero ▸ hb))
      have other : (c != '\x00') = true := bne_iff_ne.2 hc
      rw [List.takeWhile_cons, if_pos other, List.flatMap_cons, ih, List.flatMap_cons,
        List.takeWhile_append_of_pos absent]

theorem zero_not_mem_beforeZero (s : String) : '\x00' ∉ (beforeZero s).toList := by
  intro member
  rw [beforeZero, String.toList_ofList] at member
  have passed := List.all_eq_true.1 List.all_takeWhile _ member
  simp at passed

theorem beforeZero_eq {s : String} (h : '\x00' ∉ s.toList) : beforeZero s = s := by
  have others : ∀ c ∈ s.toList, (c != '\x00') = true := by
    intro c hc
    exact bne_iff_ne.2 fun zero => h (zero ▸ hc)
  rw [beforeZero, ← List.append_nil s.toList, List.takeWhile_append_of_pos others]
  simp

theorem zero_not_mem_clip {s : String} (h : '\x00' ∉ s.toList) (n : Nat) :
    '\x00' ∉ (clip n s).toList := by
  rw [← zero_mem_bytes] at h
  exact zero_not_mem_ofBytes fun member => h (List.mem_of_mem_take member)

end AuditTrail.Text

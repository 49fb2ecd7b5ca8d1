namespace AuditTrail.BigEndian

def bytes16 (w : UInt16) : List UInt8 :=
  [(w >>> 8).toUInt8, w.toUInt8]

def bytes32 (w : UInt32) : List UInt8 :=
  [(w >>> 24).toUInt8, (w >>> 16).toUInt8, (w >>> 8).toUInt8, w.toUInt8]

def bytes64 (w : UInt64) : List UInt8 :=
  bytes32 (w >>> 32).toUInt32 ++ bytes32 w.toUInt32

def word16 (a b : UInt8) : UInt16 :=
  a.toUInt16 * 256 + b.toUInt16

def word32 (a b c d : UInt8) : UInt32 :=
  ((a.toUInt32 * 256 + b.toUInt32) * 256 + c.toUInt32) * 256 + d.toUInt32

def word64 (high low : UInt32) : UInt64 :=
  high.toUInt64 * 4294967296 + low.toUInt64

def words16 : List UInt8 → List UInt16
  | a :: b :: rest => word16 a b :: words16 rest
  | _ => []

def words32 : List UInt8 → List UInt32
  | a :: b :: c :: d :: rest => word32 a b c d :: words32 rest
  | _ => []

@[simp] theorem length_bytes16 (w : UInt16) : (bytes16 w).length = 2 := rfl

@[simp] theorem length_bytes32 (w : UInt32) : (bytes32 w).length = 4 := rfl

theorem toNat_word16 (a b : UInt8) : (word16 a b).toNat = a.toNat * 256 + b.toNat := by
  have ha := a.toNat_lt
  have hb := b.toNat_lt
  simp [word16, UInt16.toNat_add, UInt16.toNat_mul]
  omega

theorem toNat_word32 (a b c d : UInt8) :
    (word32 a b c d).toNat =
      ((a.toNat * 256 + b.toNat) * 256 + c.toNat) * 256 + d.toNat := by
  have ha := a.toNat_lt
  have hb := b.toNat_lt
  have hc := c.toNat_lt
  have hd := d.toNat_lt
  simp [word32, UInt32.toNat_add, UInt32.toNat_mul]
  omega

theorem toNat_word64 (high low : UInt32) :
    (word64 high low).toNat = high.toNat * 4294967296 + low.toNat := by
  have hh := high.toNat_lt
  have hl := low.toNat_lt
  simp [word64, UInt64.toNat_add, UInt64.toNat_mul]
  omega

@[simp] theorem word16_bytes16 (w : UInt16) :
    word16 (w >>> 8).toUInt8 w.toUInt8 = w := by
  apply UInt16.toNat_inj.1
  have hw := w.toNat_lt
  rw [toNat_word16]
  simp [Nat.shiftRight_eq_div_pow]
  omega

@[simp] theorem word32_bytes32 (w : UInt32) :
    word32 (w >>> 24).toUInt8 (w >>> 16).toUInt8 (w >>> 8).toUInt8 w.toUInt8 = w := by
  apply UInt32.toNat_inj.1
  have hw := w.toNat_lt
  rw [toNat_word32]
  simp [Nat.shiftRight_eq_div_pow]
  omega

@[simp] theorem word64_halves (w : UInt64) : word64 (w >>> 32).toUInt32 w.toUInt32 = w := by
  apply UInt64.toNat_inj.1
  have hw := w.toNat_lt
  rw [toNat_word64]
  simp [Nat.shiftRight_eq_div_pow]
  omega

@[simp] theorem bytes16_word16 (a b : UInt8) : bytes16 (word16 a b) = [a, b] := by
  have ha := a.toNat_lt
  have hb := b.toNat_lt
  simp only [bytes16, List.cons.injEq, and_true, ← UInt8.toNat_inj]
  simp [Nat.shiftRight_eq_div_pow, toNat_word16]
  omega

@[simp] theorem bytes32_word32 (a b c d : UInt8) : bytes32 (word32 a b c d) = [a, b, c, d] := by
  have ha := a.toNat_lt
  have hb := b.toNat_lt
  have hc := c.toNat_lt
  have hd := d.toNat_lt
  simp only [bytes32, List.cons.injEq, and_true, ← UInt8.toNat_inj]
  simp [Nat.shiftRight_eq_div_pow, toNat_word32]
  omega

@[simp] theorem bytes64_word64 (high low : UInt32) :
    bytes64 (word64 high low) = bytes32 high ++ bytes32 low := by
  have hh := high.toNat_lt
  have hl := low.toNat_lt
  have front : (word64 high low >>> 32).toUInt32 = high := by
    apply UInt32.toNat_inj.1
    simp [Nat.shiftRight_eq_div_pow, toNat_word64]
    omega
  have back : (word64 high low).toUInt32 = low := by
    apply UInt32.toNat_inj.1
    simp [toNat_word64]
  rw [bytes64, front, back]

@[simp] theorem words16_flatMap_bytes16 (ws : List UInt16) : words16 (ws.flatMap bytes16) = ws := by
  induction ws with
  | nil => rfl
  | cons w ws ih => simp [bytes16, words16, ih]

@[simp] theorem words32_flatMap_bytes32 (ws : List UInt32) : words32 (ws.flatMap bytes32) = ws := by
  induction ws with
  | nil => rfl
  | cons w ws ih => simp [bytes32, words32, ih]

theorem flatMap_bytes16_words16 {bs : List UInt8} {n : Nat} (h : bs.length = n * 2) :
    (words16 bs).flatMap bytes16 = bs ∧ (words16 bs).length = n := by
  induction n generalizing bs with
  | zero =>
    obtain rfl := List.eq_nil_of_length_eq_zero h
    exact ⟨rfl, rfl⟩
  | succ n ih =>
    match bs, h with
    | a :: b :: rest, h =>
      obtain ⟨whole, count⟩ := @ih rest (by simpa [Nat.add_mul] using h)
      simp [words16, whole, count]
    | [], h | [_], h =>
      simp only [List.length_cons, List.length_nil] at h
      omega

theorem flatMap_bytes32_words32 {bs : List UInt8} {n : Nat} (h : bs.length = n * 4) :
    (words32 bs).flatMap bytes32 = bs ∧ (words32 bs).length = n := by
  induction n generalizing bs with
  | zero =>
    obtain rfl := List.eq_nil_of_length_eq_zero h
    exact ⟨rfl, rfl⟩
  | succ n ih =>
    match bs, h with
    | a :: b :: c :: d :: rest, h =>
      obtain ⟨whole, count⟩ := @ih rest (by simpa [Nat.add_mul] using h)
      simp [words32, whole, count]
    | [], h | [_], h | [_, _], h | [_, _, _], h =>
      simp only [List.length_cons, List.length_nil] at h
      omega

end AuditTrail.BigEndian

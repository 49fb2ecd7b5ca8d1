import AuditTrail.Proofs.Text.Utf8
import Mathlib.Algebra.Group.Nat.Defs

/-! Texts read from any bytes. Reading never makes a zero of other bytes, and gives back the bytes
that were read exactly if they are those of some characters. -/

namespace AuditTrail.Text

def IsUtf8 (bs : List UInt8) : Prop :=
  ∃ cs : List Char, bs = cs.flatMap String.utf8EncodeChar

theorem isUtf8_bytes (s : String) : IsUtf8 (bytes s) := ⟨s.toList, bytes_eq_flatMap s⟩

theorem bytes_ofList (cs : List Char) :
    bytes (String.ofList cs) = cs.flatMap String.utf8EncodeChar := by
  rw [bytes_eq_flatMap, String.toList_ofList]

theorem ofBytes_flatMap (cs : List Char) :
    ofBytes (cs.flatMap String.utf8EncodeChar) = String.ofList cs := by
  rw [← bytes_ofList, ofBytes_bytes]

theorem bytes_ofBytes_eq_iff (bs : List UInt8) : bytes (ofBytes bs) = bs ↔ IsUtf8 bs := by
  constructor
  · intro same
    rw [← same]
    exact isUtf8_bytes _
  · rintro ⟨cs, rfl⟩
    rw [ofBytes_flatMap, bytes_ofList]

def Begun.least (c : Begun) : Nat :=
  (c.bits * 64 + (c.low.toNat - 0x80)) * 64 ^ c.more

def Begun.bound (c : Begun) : Nat :=
  (c.bits * 64 + (c.high.toNat - 0x80) + 1) * 64 ^ c.more

/-- However a character begun goes on, it is one, and not the zero character. -/
structure Begun.Sound (c : Begun) : Prop where
  least_pos : 0 < c.least
  codes : c.bound ≤ 0xD800 ∨ 0xE000 ≤ c.least ∧ c.bound ≤ 0x110000

theorem ofNat_ne_zero {n : Nat} (pos : 0 < n) (code : n < 0xD800 ∨ 0xE000 ≤ n ∧ n < 0x110000) :
    Char.ofNat n ≠ '\x00' := by
  intro zero
  have valid : n.isValidChar := by
    rw [Nat.isValidChar]
    omega
  have toNat : (Char.ofNat n).toNat = n := by
    rw [Char.ofNat, dif_pos valid]
    rfl
  rw [zero] at toNat
  exact Nat.ne_of_lt pos toNat

namespace Begun

variable {c : Begun} {b : UInt8}

theorem least_le (low : c.low.toNat ≤ b.toNat) :
    c.least ≤ (c.bits * 64 + (b.toNat - 0x80)) * 64 ^ c.more := by
  apply Nat.mul_le_mul_right
  omega

theorem le_bound (high : b.toNat ≤ c.high.toNat) :
    (c.bits * 64 + (b.toNat - 0x80) + 1) * 64 ^ c.more ≤ c.bound := by
  apply Nat.mul_le_mul_right
  omega

theorem least_more (more bits : Nat) : least ⟨more, 0x80, 0xBF, bits⟩ = bits * 64 ^ (more + 1) := by
  rw [Nat.pow_succ', ← Nat.mul_assoc]
  simp only [least, UInt8.reduceToNat, Nat.sub_self, Nat.add_zero]

theorem bound_more (more bits : Nat) :
    bound ⟨more, 0x80, 0xBF, bits⟩ = (bits + 1) * 64 ^ (more + 1) := by
  rw [Nat.pow_succ', ← Nat.mul_assoc, Nat.add_mul bits]
  simp only [bound, UInt8.reduceToNat, Nat.reduceSub, Nat.add_assoc, Nat.reduceAdd, Nat.one_mul]

theorem Sound.last (h : c.Sound) (none : c.more = 0) (low : c.low.toNat ≤ b.toNat)
    (high : b.toNat ≤ c.high.toNat) :
    Char.ofNat (c.bits * 64 + (b.toNat - 0x80)) ≠ '\x00' := by
  have lower := least_le low
  have upper := le_bound high
  rw [none, Nat.pow_zero, Nat.mul_one] at lower upper
  have pos := h.least_pos
  have codes := h.codes
  exact ofNat_ne_zero (by omega) (by omega)

theorem Sound.tail (h : c.Sound) {more : Nat} (some : c.more = more + 1)
    (low : c.low.toNat ≤ b.toNat) (high : b.toNat ≤ c.high.toNat) :
    Sound ⟨more, 0x80, 0xBF, c.bits * 64 + (b.toNat - 0x80)⟩ := by
  have lower := least_le low
  have upper := le_bound high
  rw [some] at lower upper
  refine ⟨?_, ?_⟩
  · rw [least_more]
    exact Nat.lt_of_lt_of_le h.least_pos lower
  · rw [least_more, bound_more]
    exact h.codes.imp (Nat.le_trans upper) fun between =>
      ⟨Nat.le_trans between.1 lower, Nat.le_trans upper between.2⟩

end Begun

namespace Decoding

structure ZeroFree (d : Decoding) : Prop where
  text : '\x00' ∉ d.text.toList
  begun : ∀ c ∈ d.begun, c.Sound

theorem not_mem_push {text : String} (h : '\x00' ∉ text.toList) {c : Char} (hc : c ≠ '\x00') :
    '\x00' ∉ (text.push c).toList := by
  rw [String.toList_push, List.mem_append, List.mem_singleton]
  exact fun member => member.elim h hc.symm

theorem not_mem_replaced {text : String} (h : '\x00' ∉ text.toList) :
    '\x00' ∉ (text.push replacement).toList := not_mem_push h (by decide)

theorem zeroFree_push {text : String} (h : '\x00' ∉ text.toList) {c : Char} (hc : c ≠ '\x00') :
    ZeroFree ⟨text.push c, none⟩ := ⟨not_mem_push h hc, nofun⟩

theorem zeroFree_begun {text : String} (h : '\x00' ∉ text.toList) {c : Begun} (hc : c.Sound) :
    ZeroFree ⟨text, some c⟩ := ⟨h, by rintro _ ⟨⟩; exact hc⟩

theorem zeroFree_lead {text : String} (h : '\x00' ∉ text.toList) {b : UInt8} (hb : b ≠ 0) :
    (lead text b).ZeroFree := by
  have pos : 0 < b.toNat := by
    rw [Nat.pos_iff_ne_zero]
    exact fun zero => hb (UInt8.toNat_inj.1 zero)
  simp only [lead, UInt8.lt_iff_toNat_lt, ← UInt8.toNat_inj, UInt8.reduceToNat]
  split
  · exact zeroFree_push h (ofNat_ne_zero pos (by omega))
  split
  · exact zeroFree_push h (by decide)
  split
  · exact zeroFree_begun h ⟨by simp [Begun.least]; omega, by simp [Begun.bound]; omega⟩
  split
  · refine zeroFree_begun h ⟨?_, ?_⟩ <;>
      simp only [Begun.least, Begun.bound] <;> repeat' split
    all_goals simp <;> omega
  split
  · refine zeroFree_begun h ⟨?_, ?_⟩ <;>
      simp only [Begun.least, Begun.bound] <;> repeat' split
    all_goals simp <;> omega
  · exact zeroFree_push h (by decide)

theorem ZeroFree.step {d : Decoding} (h : d.ZeroFree) {b : UInt8} (hb : b ≠ 0) :
    (d.step b).ZeroFree := by
  obtain ⟨text, begun⟩ := d
  cases begun with
  | none => exact zeroFree_lead h.text hb
  | some c =>
    have sound : c.Sound := h.begun c rfl
    simp only [Decoding.step, UInt8.le_iff_toNat_le]
    split
    · rename_i range
      split <;> rename_i more
      · exact zeroFree_push h.text (sound.last more range.1 range.2)
      · exact zeroFree_begun h.text (sound.tail more range.1 range.2)
    · exact zeroFree_lead (not_mem_replaced h.text) hb

theorem ZeroFree.foldl {d : Decoding} (h : d.ZeroFree) {bs : List UInt8} (hbs : 0 ∉ bs) :
    (bs.foldl Decoding.step d).ZeroFree := by
  induction bs generalizing d with
  | nil => exact h
  | cons b bs ih =>
    rw [List.mem_cons, not_or] at hbs
    exact ih (h.step (Ne.symm hbs.1)) hbs.2

end Decoding

theorem zero_not_mem_ofBytes {bs : List UInt8} (h : 0 ∉ bs) : '\x00' ∉ (ofBytes bs).toList := by
  have start : Decoding.ZeroFree ⟨"", none⟩ := ⟨List.not_mem_nil, nofun⟩
  have read := start.foldl h
  rw [ofBytes, Decoding.finish]
  split
  · exact read.text
  · exact Decoding.not_mem_replaced read.text

end AuditTrail.Text

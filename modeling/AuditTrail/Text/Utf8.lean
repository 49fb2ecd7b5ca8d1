/-! UTF-8: the bytes of a text, and the text that any byte string stands for. Decoding never
fails; every maximal sequence that is no character, or only the start of one, becomes one
replacement character. -/

namespace AuditTrail.Text

def bytes (s : String) : List UInt8 :=
  s.toByteArray.data.toList

@[simp] theorem length_bytes (s : String) : (bytes s).length = s.utf8ByteSize := by
  rw [bytes, Array.length_toList]
  rfl

def replacement : Char := '\uFFFD'

/-- A character begun: how many bytes it needs after the next one, the range the next one has to
lie in, and the bits read so far. -/
structure Begun where
  more : Nat
  low : UInt8
  high : UInt8
  bits : Nat

structure Decoding where
  text : String
  begun : Option Begun

def Decoding.lead (text : String) (b : UInt8) : Decoding :=
  if b < 0x80 then ⟨text.push (Char.ofNat b.toNat), none⟩
  else if b < 0xC2 then ⟨text.push replacement, none⟩
  else if b < 0xE0 then ⟨text, some ⟨0, 0x80, 0xBF, b.toNat - 0xC0⟩⟩
  else if b < 0xF0 then
    -- three bytes: no overlong forms after E0, no surrogates after ED
    ⟨text, some ⟨1, if b = 0xE0 then 0xA0 else 0x80, if b = 0xED then 0x9F else 0xBF,
      b.toNat - 0xE0⟩⟩
  else if b < 0xF5 then
    -- four bytes: no overlong forms after F0, nothing past U+10FFFF after F4
    ⟨text, some ⟨2, if b = 0xF0 then 0x90 else 0x80, if b = 0xF4 then 0x8F else 0xBF,
      b.toNat - 0xF0⟩⟩
  else ⟨text.push replacement, none⟩

/-- Reads one byte. A byte that does not go on with the character begun ends it, is not part of
it, and is read afresh. -/
def Decoding.step (d : Decoding) (b : UInt8) : Decoding :=
  match d.begun with
  | none => lead d.text b
  | some c =>
    if c.low ≤ b ∧ b ≤ c.high then
      let bits := c.bits * 64 + (b.toNat - 0x80)
      match c.more with
      | 0 => ⟨d.text.push (Char.ofNat bits), none⟩
      | more + 1 => ⟨d.text, some ⟨more, 0x80, 0xBF, bits⟩⟩
    else lead (d.text.push replacement) b

def Decoding.finish (d : Decoding) : String :=
  match d.begun with
  | none => d.text
  | some _ => d.text.push replacement

def ofBytes (bs : List UInt8) : String :=
  (bs.foldl Decoding.step ⟨"", none⟩).finish

end AuditTrail.Text

import AuditTrail.Proofs.Layout.RoundTrip
import AuditTrail.Token.Codec

namespace AuditTrail

/-- The tokens that have a wire form of their own: codes that have a name go by it, and every
field carries its value unchanged. -/
def Body.Canonical : Body → Prop
  | .known kind values => Layout.Canonical kind.layout values
  | .unknown _ _ => False

instance : (body : Body) → Decidable body.Canonical
  | .known kind values => inferInstanceAs (Decidable (Layout.Canonical kind.layout values))
  | .unknown _ _ => inferInstanceAs (Decidable False)

namespace Token

def Canonical (token : Token) : Prop := token.normalized = token ∧ token.body.Canonical

instance (token : Token) : Decidable token.Canonical :=
  inferInstanceAs (Decidable (_ ∧ _))

theorem length_encode (token : Token) : token.encode.length = token.encodedLength := by
  rw [encode, encodedLength]
  cases token.body with
  | known kind values =>
    rw [Body.encode, List.length_cons, Layout.length_write, Nat.add_comm]
    rfl
  | unknown tag data => exact Nat.add_comm _ _

theorem decode_append {token : Token} (h : token.Canonical) (tail : List UInt8) :
    decode (token.encode ++ tail) = .ok (token, token.encodedLength) := by
  obtain ⟨named, carried⟩ := h
  have whole : token.body.token = token := by rw [token_body, named]
  rw [encode, encodedLength]
  cases body : token.body with
  | unknown tag data =>
    rw [body] at carried
    exact carried.elim
  | known kind values =>
    rw [body] at carried whole
    have left : (kind.layout.write values ++ tail).length - tail.length =
        kind.layout.size values := by
      rw [List.length_append, Layout.length_write, Nat.add_sub_cancel]
    simp only [Body.encode, List.cons_append, decode, Kind.ofTag?_tag,
      Layout.read_write _ _ carried, left, whole, Body.encodedLength]

/-- The codec loses nothing: a canonical token is read back from its encoding, of which the length
is the one reckoned, and nothing behind it is touched. -/
theorem decode_encode_of_canonical (token : Token) (h : token.Canonical) :
    token.encode.length = token.encodedLength ∧
      ∀ tail, decode (token.encode ++ tail) = .ok (token, token.encodedLength) :=
  ⟨length_encode token, decode_append h⟩

theorem decode_encode_of_canonical_execArgs :
    (execArgs ["/bin/ls", "", "naïve", "\uFFFD𝄞"]).Canonical ∧
      decode ((execArgs ["/bin/ls", "", "naïve", "\uFFFD𝄞"]).encode ++ [0x14, 0]) =
        .ok (execArgs ["/bin/ls", "", "naïve", "\uFFFD𝄞"], 5 + 8 + 1 + 7 + 8) :=
  ⟨by decide, (decode_encode_of_canonical _ (by decide)).2 _⟩

end Token

end AuditTrail

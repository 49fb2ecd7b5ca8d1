import AuditTrail.Proofs.Layout.Normalize
import AuditTrail.Proofs.Token.Local
import AuditTrail.Proofs.Token.RoundTrip

namespace AuditTrail

theorem Kind.texts_not_mem_dropLast (kind : Kind) : .texts ∉ kind.layout.dropLast := by
  cases kind <;> decide

def Body.carried : Body → Body
  | .known kind values => .known kind (kind.layout.carried values)
  | .unknown tag data => .unknown tag data

namespace Token

def carried (token : Token) : Token := token.body.carried.token

theorem texts_not_mem_layout {token : Token} {kind : Kind} {values : kind.layout.Values}
    (known : token.body = .known kind values) (noArgs : ∀ args, token ≠ .execArgs args)
    (noSettings : ∀ settings, token ≠ .execEnv settings) : .texts ∉ kind.layout := by
  cases token with
  | execArgs args => exact absurd rfl (noArgs args)
  | execEnv settings => exact absurd rfl (noSettings settings)
  | unknown => cases known
  | _ =>
    cases known
    decide

theorem exists_known {token : Token} (h : ∀ tag data, token ≠ .unknown tag data) :
    ∃ kind values, token.body = .known kind values := by
  cases token with
  | unknown tag data => exact absurd rfl (h tag data)
  | _ => exact ⟨_, _, rfl⟩

section Known

variable {token : Token} {kind : Kind} {values : kind.layout.Values}
  (known : token.body = .known kind values)
include known

theorem encode_known : token.encode = kind.tag :: kind.layout.write values := by
  rw [encode, known, Body.encode]

theorem carried_known :
    token.carried = (Body.known kind (kind.layout.carried values)).token := by
  rw [carried, known, Body.carried]

theorem decode_encode_known :
    ∃ used, decode token.encode = .ok (token.carried, used) ∧ used ≤ token.encodedLength ∧
      (.texts ∉ kind.layout → used = token.encodedLength) := by
  obtain ⟨surplus, hread, whole⟩ :=
    Layout.read_write_surplus kind.texts_not_mem_dropLast values
  have size : token.encodedLength = 1 + (kind.layout.write values).length := by
    rw [← length_encode, encode_known known, List.length_cons, Nat.add_comm]
  refine ⟨1 + ((kind.layout.write values).length - surplus.length), ?_, ?_, ?_⟩
  · rw [encode_known known, carried_known known]
    exact decode_of_read kind.ofTag?_tag hread
  · omega
  · intro single
    rw [whole single, List.length_nil, Nat.sub_zero, size]

theorem decode_encode_carried_known :
    decode token.carried.encode = .ok (token.carried, token.carried.encodedLength) := by
  have again : token.carried.body = .known kind (kind.layout.carried values) := by
    rw [carried_known known, Body.body_token]
  have hread := kind.layout.read_write_carried values []
  rw [List.append_nil] at hread
  rw [← length_encode, encode_known again, decode_of_read kind.ofTag?_tag hread,
    carried_known known, List.length_cons, List.length_nil, Nat.sub_zero, Nat.add_comm]

end Known

/-- One pass over the wire normalizes a token, whatever its texts, lists and codes: it is encoded
to as many bytes as were reckoned, of which only exec texts with zeros in them leave any unread, and
what is decoded from them is decoded from its own encoding again. -/
theorem decode_encode_normalizes (token : Token) (h : ∀ tag data, token ≠ .unknown tag data) :
    token.encode.length = token.encodedLength ∧
      (∃ used, decode token.encode = .ok (token.carried, used) ∧ used ≤ token.encodedLength ∧
        ((∀ args, token ≠ .execArgs args) → (∀ settings, token ≠ .execEnv settings) →
          used = token.encodedLength)) ∧
      decode token.carried.encode = .ok (token.carried, token.carried.encodedLength) := by
  obtain ⟨kind, values, known⟩ := exists_known h
  obtain ⟨used, hdecode, bound, exact⟩ := decode_encode_known known
  exact ⟨length_encode token,
    ⟨used, hdecode, bound, fun noArgs noSettings =>
      exact (texts_not_mem_layout known noArgs noSettings)⟩,
    decode_encode_carried_known known⟩

theorem decode_encode_normalizes_socketUnix :
    let token := socketUnix 1 (String.ofList (List.replicate 102 'a' ++ ['é']))
    let replaced := socketUnix 1 (String.ofList (List.replicate 102 'a' ++ ['\uFFFD']))
    (∀ tag data, token ≠ .unknown tag data) ∧ decode token.encode = .ok (replaced, 107) ∧
      decode replaced.encode = .ok (replaced, 107) := by
  intro token replaced
  have known : ∀ tag data, token ≠ .unknown tag data := nofun
  obtain ⟨-, ⟨used, first, -, whole⟩, second⟩ := decode_encode_normalizes token known
  rw [whole nofun nofun] at first
  have carried : token.carried = replaced := by decide +kernel
  rw [carried] at first second
  exact ⟨known, first, second⟩

end Token

end AuditTrail

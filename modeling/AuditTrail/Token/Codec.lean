import AuditTrail.Error
import AuditTrail.Layout.Read
import AuditTrail.Layout.Write
import AuditTrail.Token.Body

namespace AuditTrail

namespace Body

def encode : Body → List UInt8
  | .known kind values => kind.tag :: kind.layout.write values
  | .unknown tag data => tag :: data

def encodedLength : Body → Nat
  | .known kind values => 1 + kind.layout.size values
  | .unknown _ data => 1 + data.length

end Body

namespace Token

def encode (token : Token) : List UInt8 := token.body.encode

def encodedLength (token : Token) : Nat := token.body.encodedLength

def trailerMagic : UInt16 := 0xB105

def headerSize : Nat := 18

def trailerSize : Nat := 7

inductive DecodeError
  | emptyBuffer
  /-- The tag is unknown and nothing but a trailer fits behind it. -/
  | noRoom (tag : UInt8)
  /-- A field of a token of the kind needs more bytes than there are. -/
  | short (kind : Kind) (needed offset available : Nat)
  /-- A text of a token of the kind is not ended by a zero. -/
  | unterminated (kind : Kind) (offset : Nat)
  | addressFamily (code : UInt32)
  | elementUnit (code : UInt8)
  deriving DecidableEq

namespace DecodeError

def kind : DecodeError → Error.Kind
  | .emptyBuffer | .noRoom _ | .short .. | .unterminated .. => .truncated
  | .addressFamily _ | .elementUnit _ => .invalidFormat

def message : DecodeError → String
  | .emptyBuffer => "empty token buffer"
  | .noRoom tag => s!"unknown token 0x{Numeral.hexByte tag} leaves no room before the trailer"
  | .short kind needed offset available =>
    s!"{kind.name} token needs {needed} bytes at offset {offset}, {available} available"
  | .unterminated kind offset => s!"{kind.name} token string at offset {offset} has no terminator"
  | .addressFamily code => s!"unknown address type {code}"
  | .elementUnit code => s!"unknown arbitrary basic unit {code}"

def toError (e : DecodeError) : Error := ⟨e.kind, e.message⟩

def ofFault (kind : Kind) (length : Nat) : Field.Fault → DecodeError
  | .short needed available => .short kind needed (length - available) available
  | .unterminated available => .unterminated kind (length - available)
  | .addressFamily code => .addressFamily code
  | .elementUnit code => .elementUnit code

end DecodeError

/-- The token at the front of a buffer, and how many bytes it takes. A token with an unknown tag
has no length of its own: it is taken to span all but a trailer at the end of the buffer. -/
def decode : List UInt8 → Except DecodeError (Token × Nat)
  | [] => .error .emptyBuffer
  | tag :: rest =>
    match Kind.ofTag? tag with
    | some kind =>
      match kind.layout.read rest with
      | .ok (values, left) => .ok ((Body.known kind values).token, 1 + (rest.length - left.length))
      | .error fault => .error (.ofFault kind (1 + rest.length) fault)
    | none =>
      let span := rest.length - trailerSize
      if span = 0 then .error (.noRoom tag) else .ok (.unknown tag (rest.take span), 1 + span)

theorem one_le_of_decode {input : List UInt8} {token : Token} {used : Nat}
    (h : decode input = .ok (token, used)) : 1 ≤ used := by
  unfold decode at h
  split at h
  · cases h
  · split at h
    · split at h <;> cases h
      exact Nat.le_add_right 1 _
    · dsimp only at h
      split at h <;> cases h
      exact Nat.le_add_right 1 _

end Token

end AuditTrail

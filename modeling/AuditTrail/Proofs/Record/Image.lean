import AuditTrail.Proofs.Except
import AuditTrail.Proofs.Record.Frame
import AuditTrail.Proofs.Token.RoundTrip
import AuditTrail.Record.Basic
import AuditTrail.Record.Image

namespace AuditTrail

namespace Token

def totalLength : List Token → Nat
  | [] => 0
  | token :: tokens => token.encodedLength + totalLength tokens

theorem totalLength_append (front back : List Token) :
    totalLength (front ++ back) = totalLength front + totalLength back := by
  induction front with
  | nil => exact (Nat.zero_add _).symm
  | cons token front ih =>
    rw [List.cons_append, totalLength, totalLength, ih, Nat.add_assoc]

theorem length_flatMap_encode (tokens : List Token) :
    (tokens.flatMap encode).length = totalLength tokens := by
  induction tokens with
  | nil => rfl
  | cons token tokens ih =>
    rw [List.flatMap_cons, List.length_append, length_encode, ih, totalLength]

@[simp] theorem encodedLength_header (h : Header) : (header h).encodedLength = headerSize := rfl

@[simp] theorem encodedLength_trailer (magic : UInt16) (size : UInt32) :
    (trailer magic size).encodedLength = trailerSize := rfl

theorem canonical_header (h : Header) : (header h).Canonical := ⟨rfl, by trivial⟩

theorem canonical_trailer (magic : UInt16) (size : UInt32) : (trailer magic size).Canonical :=
  ⟨rfl, by trivial⟩

theorem Canonical.encode_ne_nil {token : Token} (h : token.Canonical) : token.encode ≠ [] := by
  intro empty
  have decoded := decode_append h []
  rw [empty] at decoded
  cases decoded

end Token

namespace TokenCursor

theorem items_of_next_none {c : TokenCursor} (h : c.next = none) : c.items = [] := by
  rw [items, walk]
  split <;> simp_all

theorem items_of_next_some {c d : TokenCursor} {item : Except TokenError Token}
    (h : c.next = some (item, d)) : c.items = item :: d.items := by
  rw [items, walk]
  split <;> simp_all [items]

theorem next_append {token : Token} (h : token.Canonical) (rest : List UInt8) (offset : Nat) :
    next ⟨token.encode ++ rest, offset, false⟩ =
      some (.ok token, ⟨rest, offset + token.encodedLength, false⟩) := by
  have behind : (token.encode ++ rest).drop token.encodedLength = rest := by
    rw [← Token.length_encode, List.drop_left]
  have more : (token.encode ++ rest).isEmpty = false := by
    simp [h.encode_ne_nil]
  simp [next, more, Token.decode_append h, behind]

theorem items_append {tokens : List Token} (h : ∀ token ∈ tokens, token.Canonical)
    (rest : List UInt8) (offset : Nat) :
    items ⟨tokens.flatMap Token.encode ++ rest, offset, false⟩ =
      tokens.map .ok ++ items ⟨rest, offset + Token.totalLength tokens, false⟩ := by
  induction tokens generalizing offset with
  | nil => rfl
  | cons token tokens ih =>
    rw [List.forall_mem_cons] at h
    rw [List.flatMap_cons, List.append_assoc, items_of_next_some (next_append h.1 _ offset),
      ih h.2, Nat.add_assoc]
    rfl

theorem items_flatMap_encode {tokens : List Token} (h : ∀ token ∈ tokens, token.Canonical)
    (offset : Nat) : items ⟨tokens.flatMap Token.encode, offset, false⟩ = tokens.map .ok := by
  have whole := items_append h [] offset
  have ends : next ⟨[], offset + Token.totalLength tokens, false⟩ = none := rfl
  rwa [List.append_nil, items_of_next_none ends, List.append_nil] at whole

end TokenCursor

namespace Record

section

variable (event : UInt16) (stamp : Stamp) (size : UInt32) (tokens : List Token)

theorem image_eq :
    image event stamp size tokens =
      (Token.header { size, event, seconds := stamp.seconds, milliseconds := stamp.milliseconds
        }).encode ++ (tokens.flatMap Token.encode ++
          (Token.trailer Token.trailerMagic size).encode) := by
  simp [image, framed]

theorem length_image :
    (image event stamp size tokens).length =
      Token.totalLength tokens + Token.headerSize + Token.trailerSize := by
  rw [image, Token.length_flatMap_encode, framed, Token.totalLength, Token.totalLength_append,
    Token.encodedLength_header, ← Nat.add_assoc, Nat.add_comm Token.headerSize]
  rfl

theorem decode_image_front :
    Token.decode (image event stamp size tokens) =
      .ok (.header { size, event, seconds := stamp.seconds, milliseconds := stamp.milliseconds },
        Token.headerSize) := by
  rw [image_eq, Token.decode_append (Token.canonical_header _), Token.encodedLength_header]

theorem decode_image_back :
    Token.decode ((image event stamp size tokens).drop
        ((image event stamp size tokens).length - Token.trailerSize)) =
      .ok (.trailer Token.trailerMagic size, Token.trailerSize) := by
  have trailer := Token.decode_append (Token.canonical_trailer Token.trailerMagic size) []
  have length := Token.length_encode (.trailer Token.trailerMagic size)
  rw [Token.encodedLength_trailer] at trailer length
  rw [image_eq, ← List.append_assoc, List.length_append, length, Nat.add_sub_cancel,
    List.drop_left, ← trailer, List.append_nil]

theorem isFrame_image (hsize : size.toNat = (image event stamp size tokens).length) :
    IsFrame (image event stamp size tokens) := by
  obtain ⟨body, heq⟩ : ∃ body, image event stamp size tokens =
      0x14 :: (BigEndian.bytes32 size ++ body) := ⟨_, rfl⟩
  have length : size.toNat = 5 + body.length := by
    rw [hsize, heq, List.length_cons, List.length_append, BigEndian.length_bytes32]
    omega
  rw [heq]
  exact ⟨.inl rfl, (congrArg _ (BigEndian.word32_bytes32 size)).trans length⟩

variable {tokens}

theorem canonical_framed (h : ∀ token ∈ tokens, token.Canonical) :
    ∀ token ∈ framed event stamp size tokens, token.Canonical := by
  intro token member
  rw [framed, List.mem_cons, List.mem_append, List.mem_singleton] at member
  rcases member with rfl | inside | rfl
  · exact Token.canonical_header _
  · exact h token inside
  · exact Token.canonical_trailer _ _

theorem decode_image (h : ∀ token ∈ tokens, token.Canonical) :
    decode (image event stamp size tokens) =
      .ok ⟨framed event stamp size tokens, (image event stamp size tokens).length⟩ := by
  rw [decode, image, TokenCursor.items_flatMap_encode (canonical_framed event stamp size h),
    mapM_id_ok]
  rfl

theorem wellFormed_framed {n : Nat} (hsize : size.toNat = n) :
    wellFormed ⟨framed event stamp size tokens, n⟩ = true := by
  have last : (framed event stamp size tokens).getLast? =
      some (.trailer Token.trailerMagic size) := by
    rw [framed, ← List.cons_append, List.getLast?_concat]
  rw [wellFormed, last]
  simp [header, header?, framed, hsize]

end

structure Draft where
  event : UInt16
  stamp : Stamp
  tokens : List Token

namespace Draft

def size (draft : Draft) : Nat :=
  Token.totalLength draft.tokens + Token.headerSize + Token.trailerSize

def bytes (draft : Draft) : List UInt8 :=
  image draft.event draft.stamp (UInt32.ofNat draft.size) draft.tokens

theorem length_bytes (draft : Draft) : draft.bytes.length = draft.size := length_image ..

theorem toNat_ofNat_size {draft : Draft} (h : draft.size ≤ maxSize) :
    (UInt32.ofNat draft.size).toNat = draft.bytes.length := by
  rw [length_bytes]
  exact UInt32.toNat_ofNat_of_lt' (Nat.lt_succ_of_le h)

theorem isFrame_bytes {draft : Draft} (h : draft.size ≤ maxSize) : IsFrame draft.bytes :=
  isFrame_image _ _ _ _ (toNat_ofNat_size h)

end Draft

end Record

end AuditTrail

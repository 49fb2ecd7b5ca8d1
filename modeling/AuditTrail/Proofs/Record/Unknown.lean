import AuditTrail.Proofs.Record.Walk

namespace AuditTrail

namespace Token

theorem length_of_decode_unknown {input payload : List UInt8} {tag : UInt8} {used : Nat}
    (h : decode input = .ok (.unknown tag payload, used)) :
    1 < used ∧ input.length = used + trailerSize := by
  cases input with
  | nil => cases h
  | cons first rest =>
    cases known : Kind.ofTag? first with
    | some kind =>
      obtain ⟨taken, left, values, rfl, -, same, -⟩ := exists_takes known h
      have bodies := congrArg body same
      rw [Body.body_token] at bodies
      cases bodies
    | none =>
      rw [decode_of_unknown known] at h
      split at h <;> cases h
      rw [List.length_cons]
      omega

theorem decode_unknown_append {tag : UInt8} (unknown : Kind.ofTag? tag = none)
    {payload behind : List UInt8} (filled : payload ≠ []) (room : behind.length = trailerSize) :
    decode ((Token.unknown tag payload).encode ++ behind) =
      .ok (.unknown tag payload, (Token.unknown tag payload).encodedLength) := by
  have span : (payload ++ behind).length - trailerSize = payload.length := by
    rw [List.length_append, room, Nat.add_sub_cancel]
  show decode (tag :: (payload ++ behind)) = _
  rw [decode_of_unknown unknown, span, List.take_left, if_neg (mt List.length_eq_zero_iff.1 filled)]
  rfl

def ofHeader (h : Header) (host : Option Address) : Token := host.elim (.header h) (.headerEx h)

theorem canonical_ofHeader (h : Header) (host : Option Address) : (ofHeader h host).Canonical := by
  cases host <;> exact ⟨rfl, by repeat' constructor⟩

end Token

namespace TokenCursor

theorem after_add (c : TokenCursor) (m n : Nat) : c.after (m + n) = (c.after m).after n := by
  induction m generalizing c with
  | zero => rw [Nat.zero_add, after]
  | succ m ih => rw [Nat.succ_add, after, ih, after]

theorem rest_of_next {c d : TokenCursor} {item : Except TokenError Token}
    (h : c.next = some (item, d)) : d.rest <:+ c.rest := by
  unfold next at h
  split at h
  · cases h
  · split at h <;> cases h
    · exact List.drop_suffix ..
    · exact List.suffix_refl _

theorem rest_after (c : TokenCursor) (n : Nat) : (c.after n).rest <:+ c.rest := by
  induction n generalizing c with
  | zero => exact List.suffix_refl _
  | succ n ih =>
    cases h : c.next with
    | none => exact (after_of_next_none h (n + 1)).symm ▸ List.suffix_refl _
    | some step =>
      rw [after_of_next_some h]
      exact (ih step.2).trans (rest_of_next h)

theorem length_of_next_unknown {c d : TokenCursor} {tag : UInt8} {payload : List UInt8}
    (h : c.next = some (.ok (.unknown tag payload), d)) :
    d.rest.length = Token.trailerSize ∧ Token.trailerSize + 1 < c.rest.length := by
  unfold next at h
  split at h
  · cases h
  · split at h
    · next decoded =>
      cases h
      have := Token.length_of_decode_unknown decoded
      rw [List.length_drop]
      omega
    · cases h

theorem next_after_unknown {c d : TokenCursor} {tag : UInt8} {payload : List UInt8} {m n : Nat}
    (h : (c.after m).next = some (.ok (.unknown tag payload), d)) (later : m < n) (tag' : UInt8)
    (payload' : List UInt8) (d' : TokenCursor) :
    (c.after n).next ≠ some (.ok (.unknown tag' payload'), d') := by
  intro other
  obtain ⟨k, rfl⟩ := Nat.exists_eq_add_of_lt later
  have behind : c.after (m + k + 1) = d.after k := by
    rw [Nat.add_assoc, after_add, after_of_next_some h]
  rw [behind] at other
  have small := (rest_after d k).length_le
  have left := (length_of_next_unknown h).1
  have room := (length_of_next_unknown other).2
  omega

theorem next_unknown_append {tag : UInt8} (unknown : Kind.ofTag? tag = none)
    {payload behind : List UInt8} (filled : payload ≠ []) (room : behind.length = Token.trailerSize)
    (offset : Nat) :
    next ⟨(Token.unknown tag payload).encode ++ behind, offset, false⟩ =
      some (.ok (.unknown tag payload),
        ⟨behind, offset + (Token.unknown tag payload).encodedLength, false⟩) := by
  have taken : ((Token.unknown tag payload).encode ++ behind).drop
      (Token.unknown tag payload).encodedLength = behind := by
    rw [← Token.length_encode, List.drop_left]
  have more : ((Token.unknown tag payload).encode ++ behind).isEmpty = false := rfl
  simp [next, more, Token.decode_unknown_append unknown filled room, taken]

end TokenCursor

namespace Record

/-- The tokens of a record with an unknown token in front of its trailer. -/
def withUnknown (h : Header) (host : Option Address) (body : List Token) (tag : UInt8)
    (payload : List UInt8) (magic : UInt16) (size : UInt32) : List Token :=
  Token.ofHeader h host :: body ++ [.unknown tag payload, .trailer magic size]

variable {h : Header} {host : Option Address} {body : List Token} {tag : UInt8}
  {payload : List UInt8} {magic : UInt16} {size : UInt32}

theorem items_withUnknown (canonical : ∀ token ∈ body, token.Canonical)
    (unknown : Kind.ofTag? tag = none) (filled : payload ≠ []) :
    (TokenCursor.mk ((withUnknown h host body tag payload magic size).flatMap Token.encode)
      0 false).items = (withUnknown h host body tag payload magic size).map .ok := by
  have front : ∀ token ∈ Token.ofHeader h host :: body, token.Canonical :=
    List.forall_mem_cons.2 ⟨Token.canonical_ofHeader h host, canonical⟩
  have back : ∀ token ∈ [Token.trailer magic size], token.Canonical :=
    List.forall_mem_singleton.2 (Token.canonical_trailer magic size)
  rw [withUnknown, List.flatMap_append, TokenCursor.items_append front, List.flatMap_cons,
    TokenCursor.items_of_next_some (TokenCursor.next_unknown_append unknown filled rfl _),
    TokenCursor.items_flatMap_encode back, List.map_append]
  rfl

theorem decode_withUnknown (canonical : ∀ token ∈ body, token.Canonical)
    (unknown : Kind.ofTag? tag = none) (filled : payload ≠ []) :
    decode ((withUnknown h host body tag payload magic size).flatMap Token.encode) =
      .ok ⟨withUnknown h host body tag payload magic size,
        ((withUnknown h host body tag payload magic size).flatMap Token.encode).length⟩ := by
  rw [decode_of_items (items_withUnknown canonical unknown filled)]
  cases host <;> rfl

theorem wellFormed_withUnknown {n : Nat} :
    wellFormed ⟨withUnknown h host body tag payload magic size, n⟩ = true ↔
      magic = Token.trailerMagic ∧ h.size.toNat = n ∧ size.toNat = n := by
  have last : (withUnknown h host body tag payload magic size).getLast? =
      some (.trailer magic size) := by
    rw [withUnknown, List.getLast?_append]
    rfl
  have first : header ⟨withUnknown h host body tag payload magic size, n⟩ = some h := by
    cases host <;> rfl
  rw [wellFormed, first, last]
  simp [and_assoc, and_comm]

/-- An unknown token never hides the trailer. Of the tokens found in any bytes one at most is
unknown, and behind it are just the bytes of a trailer. So a record is decoded to the tokens that it
was encoded from, an unknown one in front of the trailer included, and it is well formed if the
trailer is a proper one and both it and the header announce the size. -/
theorem decode_unknown_trailer :
    (∀ data m tag payload d,
      (TokenCursor.after ⟨data, 0, false⟩ m).next = some (.ok (.unknown tag payload), d) →
        d.rest <:+ data ∧ d.rest.length = 7 ∧
          ∀ n, n ≠ m → ∀ tag' payload' d',
            (TokenCursor.after ⟨data, 0, false⟩ n).next ≠
              some (.ok (.unknown tag' payload'), d')) ∧
      ∀ (h : Header) (host : Option Address) (body : List Token) (tag : UInt8)
        (payload : List UInt8) (magic : UInt16) (size : UInt32),
        (∀ token ∈ body, token.Canonical) → Kind.ofTag? tag = none → payload ≠ [] →
          let tokens := withUnknown h host body tag payload magic size
          let data := tokens.flatMap Token.encode
          decode data = .ok ⟨tokens, data.length⟩ ∧
            (wellFormed ⟨tokens, data.length⟩ = true ↔
              magic = Token.trailerMagic ∧ h.size.toNat = data.length ∧
                size.toNat = data.length) := by
  refine ⟨fun data m tag payload d found => ?_, ?_⟩
  · refine ⟨?_, (TokenCursor.length_of_next_unknown found).1, fun n other => ?_⟩
    · exact (TokenCursor.rest_of_next found).trans (TokenCursor.rest_after _ m)
    · rcases Nat.lt_or_gt_of_ne other with earlier | later
      · intro tag' payload' d' again
        exact TokenCursor.next_after_unknown again earlier tag payload d found
      · exact TokenCursor.next_after_unknown found later
  · intro h host body tag payload magic size canonical unknown filled
    exact ⟨decode_withUnknown canonical unknown filled, wellFormed_withUnknown⟩

theorem decode_unknown_trailer_lookalike :
    let tokens : List Token :=
      [.headerEx { size := 42, event := 7 } (.v4 ⟨127, 0, 0, 1⟩), .text "é",
        .unknown 0xEE [0x13, 0xB1], .trailer 0xB105 42]
    let data := tokens.flatMap Token.encode
    (∀ token ∈ [Token.text "é"], token.Canonical) ∧ Kind.ofTag? 0xEE = none ∧
      [(0x13 : UInt8), 0xB1] ≠ [] ∧ decode data = .ok ⟨tokens, 42⟩ ∧
      wellFormed ⟨tokens, 42⟩ = true ∧
      ∃ d, (TokenCursor.after ⟨data, 0, false⟩ 2).next =
          some (.ok (.unknown 0xEE [0x13, 0xB1]), d) ∧ d.rest.length = 7 := by
  intro tokens data
  have canonical : ∀ token ∈ [Token.text "é"], token.Canonical := by decide
  have length : data.length = 42 := by decide
  obtain ⟨decoded, formed⟩ := decode_unknown_trailer.2 { size := 42, event := 7 }
    (some (.v4 ⟨127, 0, 0, 1⟩)) [.text "é"] 0xEE [0x13, 0xB1] 0xB105 42 canonical rfl nofun
  have found : (TokenCursor.after ⟨data, 0, false⟩ 2).next =
      some (.ok (.unknown 0xEE [0x13, 0xB1]), ⟨[0x13, 0xB1, 5, 0, 0, 0, 42], 35, false⟩) := by
    rfl
  refine ⟨canonical, rfl, nofun, length ▸ decoded,
    formed.2 ⟨rfl, length.symm, length.symm⟩, _, found, ?_⟩
  exact (decode_unknown_trailer.1 data 2 0xEE [0x13, 0xB1] _ found).2.1

end Record

end AuditTrail

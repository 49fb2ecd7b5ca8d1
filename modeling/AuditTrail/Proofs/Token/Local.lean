import AuditTrail.Proofs.Layout.Local
import AuditTrail.Token.Codec

namespace AuditTrail

theorem Token.DecodeError.kind_ofFault (kind : Kind) (length : Nat) (fault : Field.Fault) :
    (ofFault kind length fault).kind = if fault.missing then .truncated else .invalidFormat := by
  cases fault <;> rfl

theorem Token.DecodeError.ofFault_eq {fault : Field.Fault} (h : fault.missing = false)
    (kind : Kind) (m n : Nat) : ofFault kind m fault = ofFault kind n fault := by
  cases fault with
  | short | unterminated => cases h
  | addressFamily | elementUnit => rfl

namespace Token

variable {tag : UInt8} {kind : Kind}

theorem decode_of_read {rest left : List UInt8} {values : kind.layout.Values}
    (known : Kind.ofTag? tag = some kind) (h : kind.layout.read rest = .ok (values, left)) :
    decode (tag :: rest) =
      .ok ((Body.known kind values).token, 1 + (rest.length - left.length)) := by
  simp only [decode, known, h]

theorem decode_of_fault {rest : List UInt8} {fault : Field.Fault}
    (known : Kind.ofTag? tag = some kind) (h : kind.layout.read rest = .error fault) :
    decode (tag :: rest) = .error (.ofFault kind (1 + rest.length) fault) := by
  simp only [decode, known, h]

theorem decode_takes {taken : List UInt8} {values : kind.layout.Values}
    (known : Kind.ofTag? tag = some kind) (h : Reader.Takes kind.layout.read taken values)
    (more : List UInt8) :
    decode (tag :: (taken ++ more)) = .ok ((Body.known kind values).token, 1 + taken.length) := by
  rw [decode_of_read known (h.whole more), List.length_append, Nat.add_sub_cancel]

theorem exists_takes {rest : List UInt8} {token : Token} {used : Nat}
    (known : Kind.ofTag? tag = some kind) (h : decode (tag :: rest) = .ok (token, used)) :
    ∃ taken left values, rest = taken ++ left ∧ Reader.Takes kind.layout.read taken values ∧
      token = (Body.known kind values).token ∧ used = 1 + taken.length := by
  cases hread : kind.layout.read rest with
  | error fault =>
    rw [decode_of_fault known hread] at h
    cases h
  | ok read =>
    obtain ⟨values, left⟩ := read
    obtain ⟨taken, rfl, takes⟩ := kind.layout.local_read.ok hread
    rw [decode_takes known takes] at h
    cases h
    exact ⟨taken, left, values, rfl, takes, rfl, rfl⟩

theorem decode_take_of_takes {taken : List UInt8} {values : kind.layout.Values}
    (known : Kind.ofTag? tag = some kind) (h : Reader.Takes kind.layout.read taken values) {k : Nat}
    (short : k < 1 + taken.length) :
    ∃ e, decode ((tag :: taken).take k) = .error e ∧ e.kind = .truncated := by
  cases k with
  | zero => exact ⟨_, rfl, rfl⟩
  | succ k =>
    obtain ⟨fault, hfault, missing⟩ := h.part k (by omega)
    refine ⟨_, decode_of_fault known hfault, ?_⟩
    rw [DecodeError.kind_ofFault, if_pos missing]

theorem decode_append_of_invalid {rest : List UInt8} {e : DecodeError}
    (known : Kind.ofTag? tag = some kind) (h : decode (tag :: rest) = .error e)
    (invalid : e.kind = .invalidFormat) (more : List UInt8) :
    decode (tag :: (rest ++ more)) = .error e := by
  cases hread : kind.layout.read rest with
  | ok read =>
    rw [decode_of_read known hread] at h
    cases h
  | error fault =>
    rw [decode_of_fault known hread] at h
    cases h
    rw [DecodeError.kind_ofFault] at invalid
    have lasting : fault.missing = false :=
      Bool.eq_false_iff.2 fun missing => by simp [missing] at invalid
    rw [decode_of_fault known (kind.layout.local_read.error hread lasting more),
      DecodeError.ofFault_eq lasting]

theorem decode_of_unknown (unknown : Kind.ofTag? tag = none) (rest : List UInt8) :
    decode (tag :: rest) =
      if rest.length - trailerSize = 0 then .error (.noRoom tag)
      else .ok (.unknown tag (rest.take (rest.length - trailerSize)),
        1 + (rest.length - trailerSize)) := by
  simp only [decode, unknown]

theorem used_le_of_decode {input : List UInt8} {token : Token} {used : Nat}
    (h : decode input = .ok (token, used)) : used ≤ input.length := by
  cases input with
  | nil => cases h
  | cons tag rest =>
    cases known : Kind.ofTag? tag with
    | some kind =>
      obtain ⟨taken, left, values, rfl, -, -, rfl⟩ := exists_takes known h
      rw [List.length_cons, List.length_append]
      omega
    | none =>
      rw [decode_of_unknown known] at h
      split at h <;> cases h
      rw [List.length_cons]
      omega

/-- A token of a known kind is decoded from the bytes it takes, whatever follows them; of fewer
bytes it is only said that there are too few. What is no token for another reason is none for the
same reason whatever follows. -/
theorem decode_prefix_free {tag : UInt8} (known : (Kind.ofTag? tag).isSome) (rest : List UInt8) :
    (∀ token used, decode (tag :: rest) = .ok (token, used) →
      used ≤ (tag :: rest).length ∧
        (∀ more, decode ((tag :: rest).take used ++ more) = .ok (token, used)) ∧
        ∀ k < used, ∃ e, decode ((tag :: rest).take k) = .error e ∧ e.kind = .truncated) ∧
      ∀ e, decode (tag :: rest) = .error e → e.kind = .invalidFormat →
        ∀ more, decode (tag :: rest ++ more) = .error e := by
  obtain ⟨kind, known⟩ := Option.isSome_iff_exists.1 known
  refine ⟨fun token used h => ?_, fun e h invalid => decode_append_of_invalid known h invalid⟩
  obtain ⟨taken, left, values, rfl, takes, rfl, rfl⟩ := exists_takes known h
  have front : (tag :: (taken ++ left)).take (1 + taken.length) = tag :: taken := by
    rw [Nat.add_comm, List.take_succ_cons, List.take_left]
  refine ⟨?_, fun more => ?_, fun k short => ?_⟩
  · rw [List.length_cons, List.length_append]
    omega
  · rw [front]
    exact decode_takes known takes more
  · have inside : (tag :: (taken ++ left)).take k = (tag :: taken).take k := by
      rw [← front, List.take_take, Nat.min_eq_left (Nat.le_of_lt short)]
    rw [inside]
    exact decode_take_of_takes known takes short

theorem decode_prefix_free_execArgs :
    (Kind.ofTag? 0x3C).isSome ∧
      decode [0x3C, 0, 0, 0, 2, 0x61, 0, 0, 0xFF] = .ok (execArgs ["a", ""], 8) ∧
      decode [0x3C, 0, 0, 0, 2, 0x61, 0, 0, 0x3C, 0] = .ok (execArgs ["a", ""], 8) ∧
      (∃ e, decode [0x3C, 0, 0, 0, 2, 0x61, 0] = .error e ∧ e.kind = .truncated) ∧
      (Kind.ofTag? 0x21).isSome ∧ decode [0x21, 0, 3] = .error (.elementUnit 3) ∧
      decode [0x21, 0, 3, 0, 0] = .error (.elementUnit 3) := by
  have decoded : decode [0x3C, 0, 0, 0, 2, 0x61, 0, 0, 0xFF] = .ok (execArgs ["a", ""], 8) := by
    rfl
  obtain ⟨-, whole, part⟩ := (decode_prefix_free (by decide) _).1 _ _ decoded
  exact ⟨by decide, decoded, whole [0x3C, 0], part 7 (by decide), by decide, rfl,
    (decode_prefix_free (by decide) [0, 3]).2 _ rfl rfl [0, 0]⟩

end Token

end AuditTrail

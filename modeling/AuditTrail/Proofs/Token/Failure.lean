import AuditTrail.Proofs.Layout.Follow
import AuditTrail.Proofs.Token.Local

namespace AuditTrail

theorem Kind.address_mem_layout {kind : Kind} :
    .address ∈ kind.layout ↔ kind ∈ [.headerEx, .inAddrEx, .processEx, .subjectEx, .socketEx] := by
  cases kind <;> decide

theorem Kind.elements_mem_layout {kind : Kind} : .elements ∈ kind.layout ↔ kind = .arbitrary := by
  cases kind <;> decide

theorem Token.DecodeError.kind_eq (e : DecodeError) :
    e.kind = .truncated ∨ e.kind = .invalidFormat := by
  cases e with
  | emptyBuffer | noRoom | short | unterminated => exact .inl rfl
  | addressFamily | elementUnit => exact .inr rfl

namespace Token

def Fails (input : List UInt8) (why : Error.Kind) : Prop :=
  ∃ e, decode input = .error e ∧ e.kind = why

section

variable {tag : UInt8} {kind : Kind} {rest : List UInt8}

theorem fails_iff (known : Kind.ofTag? tag = some kind) (missing : Bool) :
    Fails (tag :: rest) (if missing then .truncated else .invalidFormat) ↔
      ∃ part left, kind.layout.form.Awaits rest part left ∧ part.Refuses missing left := by
  rw [← Layout.exists_fault_iff]
  constructor
  · rintro ⟨e, failed, why⟩
    cases hread : kind.layout.read rest with
    | ok result =>
      rw [decode_of_read known hread] at failed
      cases failed
    | error fault =>
      rw [decode_of_fault known hread] at failed
      cases failed
      rw [DecodeError.kind_ofFault] at why
      refine ⟨fault, rfl, ?_⟩
      cases hmissing : fault.missing <;> cases missing
      · rfl
      · simp [hmissing] at why
      · simp [hmissing] at why
      · rfl
  · rintro ⟨fault, hread, rfl⟩
    exact ⟨_, decode_of_fault known hread, DecodeError.kind_ofFault ..⟩

theorem fails_truncated_iff (known : Kind.ofTag? tag = some kind) :
    Fails (tag :: rest) .truncated ↔
      ∃ part left, kind.layout.form.Awaits rest part left ∧ part.Short left :=
  fails_iff known true

theorem fails_invalidFormat_iff (known : Kind.ofTag? tag = some kind) :
    Fails (tag :: rest) .invalidFormat ↔
      kind ∈ [.headerEx, .inAddrEx, .processEx, .subjectEx, .socketEx] ∧
          (∃ left, kind.layout.form.Awaits rest .family left ∧ Part.family.Foreign left) ∨
        kind = .arbitrary ∧
          ∃ left, kind.layout.form.Awaits rest .unit left ∧ Part.unit.Foreign left := by
  rw [← Kind.address_mem_layout, ← Kind.elements_mem_layout, ← Layout.exists_foreign_iff]
  exact fails_iff known false

theorem exists_decode_iff (known : Kind.ofTag? tag = some kind) :
    (∃ result, decode (tag :: rest) = .ok result) ↔
      ∃ left, kind.layout.form.Leads rest .nil left := by
  rw [← Layout.exists_read_iff]
  cases hread : kind.layout.read rest with
  | ok result => simp [decode_of_read known hread]
  | error fault => simp [decode_of_fault known hread]

theorem decode_of_unknown_short (unknown : Kind.ofTag? tag = none)
    (short : (tag :: rest).length ≤ 8) : Fails (tag :: rest) .truncated := by
  have none : rest.length - trailerSize = 0 := Nat.sub_eq_zero_of_le (Nat.le_of_succ_le_succ short)
  exact ⟨.noRoom tag, by rw [decode_of_unknown unknown, if_pos none], rfl⟩

theorem exists_decode_of_unknown (unknown : Kind.ofTag? tag = none)
    (room : 8 < (tag :: rest).length) : ∃ result, decode (tag :: rest) = .ok result := by
  have some : rest.length - trailerSize ≠ 0 :=
    Nat.sub_ne_zero_of_lt (Nat.lt_of_succ_lt_succ room)
  exact ⟨_, by rw [decode_of_unknown unknown, if_neg some]⟩

end

/-- Nothing but too few bytes, and codes that are not known, make a decoding fail. The bytes are too
few if the first part of the token's form that cannot be accepted is not there as a whole. If it is
there, it is the family of an address or the unit of some elements. -/
theorem decode_classifies (input : List UInt8) :
    (∀ e, decode input = .error e → e.kind = .truncated ∨ e.kind = .invalidFormat) ∧
      match input with
      | [] => Fails input .truncated
      | tag :: rest =>
        match Kind.ofTag? tag with
        | none =>
          if input.length ≤ 8 then Fails input .truncated else ∃ result, decode input = .ok result
        | some kind =>
          (Fails input .invalidFormat ↔
            kind ∈ [.headerEx, .inAddrEx, .processEx, .subjectEx, .socketEx] ∧
                (∃ left, kind.layout.form.Awaits rest .family left ∧ Part.family.Foreign left) ∨
              kind = .arbitrary ∧
                ∃ left, kind.layout.form.Awaits rest .unit left ∧ Part.unit.Foreign left) ∧
          (Fails input .truncated ↔
            ∃ part left, kind.layout.form.Awaits rest part left ∧ part.Short left) ∧
          ((∃ result, decode input = .ok result) ↔
            ∃ left, kind.layout.form.Leads rest .nil left) := by
  refine ⟨fun e _ => e.kind_eq, ?_⟩
  cases input with
  | nil => exact ⟨_, rfl, rfl⟩
  | cons tag rest =>
    dsimp only
    split
    · next unknown =>
      split
      · next short => exact decode_of_unknown_short unknown short
      · next room => exact exists_decode_of_unknown unknown (Nat.lt_of_not_le room)
    · next kind known =>
      exact ⟨fails_invalidFormat_iff known, fails_truncated_iff known, exists_decode_iff known⟩

example : decode [0x7F, 0, 2, 0, 80, 0, 0, 0, 4, 127, 0, 0, 1, 0, 81, 0, 0, 0, 7] =
    .error (.addressFamily 7) := rfl

example : decode [0x3C, 0xFF, 0xFF, 0xFF, 0xFF, 0x61, 0] = .error (.unterminated .execArgs 7) :=
  rfl

end Token

end AuditTrail

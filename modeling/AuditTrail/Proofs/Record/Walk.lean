import AuditTrail.Proofs.Record.Image
import AuditTrail.Proofs.Token.Local
import Mathlib.Data.List.Basic

namespace AuditTrail

/-- Tokens that stand one behind the other in some bytes, each with the offset where it stands: the
first at one offset, and at another offset what is behind the last. -/
inductive Consecutive (data : List UInt8) : Nat → List (Nat × Token) → Nat → Prop
  | nil {start : Nat} : Consecutive data start [] start
  | cons {start used last : Nat} {token : Token} {placed : List (Nat × Token)}
      (decoded : Token.decode (data.drop start) = .ok (token, used)) (some : 1 ≤ used)
      (within : used ≤ data.length - start) (others : Consecutive data (start + used) placed last) :
      Consecutive data start ((start, token) :: placed) last

namespace TokenCursor

def after (c : TokenCursor) : Nat → TokenCursor
  | 0 => c
  | n + 1 => ((c.next.map (·.2)).getD c).after n

def standing (data : List UInt8) (offset : Nat) : TokenCursor := ⟨data.drop offset, offset, false⟩

theorem after_of_next_none {c : TokenCursor} (h : c.next = none) (n : Nat) : c.after n = c := by
  induction n with
  | zero => rfl
  | succ n ih => rwa [after, h]

theorem after_of_next_some {c d : TokenCursor} {item : Except TokenError Token}
    (h : c.next = some (item, d)) (n : Nat) : c.after (n + 1) = d.after n := by
  rw [after, h]
  rfl

theorem next_after (c : TokenCursor) (n : Nat) : (c.after n).next.map (·.1) = c.items[n]? := by
  induction n generalizing c with
  | zero =>
    cases h : c.next with
    | none => rw [items_of_next_none h, after, h]; rfl
    | some step => rw [items_of_next_some h, after, h]; rfl
  | succ n ih =>
    cases h : c.next with
    | none => rw [items_of_next_none h, after_of_next_none h, h]; rfl
    | some step => rw [items_of_next_some h, after_of_next_some h, ih, List.getElem?_cons_succ]

section

variable {data : List UInt8} {start : Nat}

theorem next_standing_end (h : data.length ≤ start) : (standing data start).next = none := by
  simp [next, standing, h]

theorem next_standing_ok (inside : start < data.length) {token : Token} {used : Nat}
    (h : Token.decode (data.drop start) = .ok (token, used)) :
    (standing data start).next = some (.ok token, standing data (start + used)) := by
  simp [next, standing, inside, h]

theorem next_standing_error (inside : start < data.length) {cause : Token.DecodeError}
    (h : Token.decode (data.drop start) = .error cause) :
    (standing data start).next =
      some (.error ⟨start, cause⟩, { standing data start with failed := true }) := by
  simp [next, standing, inside, h]

theorem next_failed (c : TokenCursor) : next { c with failed := true } = none := rfl

end

end TokenCursor

namespace Consecutive

open TokenCursor

variable {data : List UInt8} {start last : Nat} {placed : List (Nat × Token)}

theorem items_eq (h : Consecutive data start placed last) :
    (standing data start).items =
      (placed.map (·.2)).map .ok ++ (standing data last).items := by
  induction h with
  | nil => rfl
  | cons decoded some within others ih =>
    rw [items_of_next_some (next_standing_ok (by omega) decoded), ih]
    rfl

theorem offset_after (h : Consecutive data start placed last)
    (stays : ∀ n, ((standing data last).after n).offset = last) (n : Nat) :
    ((standing data start).after n).offset = (placed[n]?.map (·.1)).getD last := by
  induction h generalizing n with
  | nil => exact stays n
  | cons decoded some within others ih =>
    cases n with
    | zero => rfl
    | succ n =>
      rw [after_of_next_some (next_standing_ok (by omega) decoded), List.getElem?_cons_succ]
      exact ih stays n

theorem exists_of_le (within : start ≤ data.length) :
    ∃ placed last, Consecutive data start placed last ∧ last ≤ data.length ∧
      (last < data.length → ∃ cause, Token.decode (data.drop last) = .error cause) := by
  -- By induction on the bytes that are left, of which each token takes some.
  induction left : data.length - start using Nat.strongRecOn generalizing start with
  | ind n ih =>
    cases decoded : Token.decode (data.drop start) with
    | error cause => exact ⟨[], start, .nil, within, fun _ => ⟨cause, decoded⟩⟩
    | ok result =>
      obtain ⟨token, used⟩ := result
      have some := Token.one_le_of_decode decoded
      have fits := Token.used_le_of_decode decoded
      rw [List.length_drop] at fits
      obtain ⟨placed, last, others, ends⟩ :=
        ih (data.length - (start + used)) (by omega) (by omega) rfl
      exact ⟨_, last, .cons decoded some fits others, ends⟩

end Consecutive

theorem Record.decode_of_items {data : List UInt8} {tokens : List Token}
    (h : (TokenCursor.mk data 0 false).items = tokens.map .ok) :
    decode data =
      match header? tokens with
      | some _ => .ok ⟨tokens, data.length⟩
      | none => .error .noHeader := by
  cases first : header? tokens with
  | none => simp only [decode, h, mapM_id_ok, first]
  | some header => simp only [decode, h, mapM_id_ok, first]

theorem Record.decode_of_items_error {data : List UInt8} {tokens : List Token} {e : TokenError}
    {others : List (Except TokenError Token)}
    (h : (TokenCursor.mk data 0 false).items = tokens.map .ok ++ .error e :: others) :
    decode data = .error (.token e) := by
  rw [decode, h, mapM_id_error]

/-- What a walk through some bytes gives: tokens that stand one behind the other from the first byte
on and take a byte each at least; then, if they do not take all bytes, one error, which says where
they end and why no token stands there; then nothing any more. A record is decoded from the bytes if
no error comes and the first token is a header. -/
theorem TokenCursor.next_consecutive (data : List UInt8) :
    ∃ (placed : List (Nat × Token)) (last : Nat) (fault : Option Token.DecodeError),
      let tokens := placed.map (·.2)
      let errorOf : Token.DecodeError → Error := fun cause =>
        ⟨cause.kind, s!"at record offset {last}: {cause.message}"⟩
      Consecutive data 0 placed last ∧ (fault = none → last = data.length) ∧
        (∀ cause ∈ fault, last < data.length ∧ Token.decode (data.drop last) = .error cause) ∧
        (∀ n, ((after ⟨data, 0, false⟩ n).next.map (·.1.mapError TokenError.toError)) =
            (tokens.map .ok ++ fault.toList.map fun cause => .error (errorOf cause))[n]? ∧
          (after ⟨data, 0, false⟩ n).offset = (placed[n]?.map (·.1)).getD last) ∧
        (Record.decode data).mapError Record.DecodeError.toError =
          match fault, tokens.head? with
          | some cause, _ => .error (errorOf cause)
          | none, some (.header _) | none, some (.headerEx _ _) => .ok ⟨tokens, data.length⟩
          | none, _ => .error ⟨.invalidFormat, "record does not start with a header"⟩ := by
  obtain ⟨placed, last, cut, bound, fails⟩ := Consecutive.exists_of_le data.length.zero_le
  have answers (n : Nat) : (after ⟨data, 0, false⟩ n).next.map (·.1.mapError TokenError.toError) =
      ((mk data 0 false).items.map (·.mapError TokenError.toError))[n]? := by
    rw [List.getElem?_map, ← next_after, Option.map_map]
    rfl
  have items : (mk data 0 false).items = (placed.map (·.2)).map .ok ++ (standing data last).items :=
    cut.items_eq
  rcases Nat.lt_or_eq_of_le bound with inside | rfl
  · obtain ⟨cause, decoded⟩ := fails inside
    have next := next_standing_error inside decoded
    have stays (n : Nat) : ((standing data last).after n).offset = last := by
      cases n with
      | zero => rfl
      | succ n =>
        rw [after_of_next_some next, after_of_next_none (next_failed _)]
        rfl
    rw [items_of_next_some next, items_of_next_none (next_failed _)] at items
    refine ⟨placed, last, some cause, cut, nofun, ?_, fun n => ⟨?_, cut.offset_after stays n⟩, ?_⟩
    · rintro _ ⟨⟩
      exact ⟨inside, decoded⟩
    · rw [answers, items]
      rw [List.map_append, List.map_map]
      rfl
    · rw [Record.decode_of_items_error items]
      rfl
  · have next := next_standing_end (Nat.le_refl data.length)
    have stays (n : Nat) : ((standing data data.length).after n).offset = data.length := by
      rw [after_of_next_none next]
      rfl
    rw [items_of_next_none next, List.append_nil] at items
    refine ⟨placed, data.length, none, cut, fun _ => rfl, nofun,
      fun n => ⟨?_, cut.offset_after stays n⟩, ?_⟩
    · rw [answers, items, List.map_map]
      simp
      rfl
    · rw [Record.decode_of_items items]
      cases placed.map (·.2) with
      | nil => rfl
      | cons token tokens => cases token <;> rfl

end AuditTrail

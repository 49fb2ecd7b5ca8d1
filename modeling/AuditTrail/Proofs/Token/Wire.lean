import AuditTrail.Proofs.Layout.Wire
import AuditTrail.Proofs.Token.Local
import Mathlib.Data.List.Basic

namespace AuditTrail

theorem Layout.wireTexts_plain {layout : Layout} (plain : layout.any Field.holdsText = false)
    (input : List UInt8) : layout.wireTexts input = [] := by
  induction layout generalizing input with
  | nil => rfl
  | cons field layout ih =>
    rw [List.any_cons, Bool.or_eq_false_iff] at plain
    rw [wireTexts, Field.wireTexts_plain plain.1]
    split
    · exact ih plain.2 _
    · rfl

namespace Token

def holdsText (token : Token) : Bool :=
  match token.body with
  | .known kind _ => kind.layout.any Field.holdsText
  | .unknown _ _ => false

def wireTexts : List UInt8 → List WireText
  | [] => []
  | tag :: rest =>
    match Kind.ofTag? tag with
    | some kind => kind.layout.wireTexts rest
    | none => []

theorem wireTexts_plain {input : List UInt8} {token : Token} {used : Nat}
    (h : decode input = .ok (token, used)) (plain : token.holdsText = false) :
    wireTexts input = [] := by
  cases input with
  | nil => rfl
  | cons tag rest =>
    rw [wireTexts]
    split
    · next kind known =>
      obtain ⟨taken, left, values, rfl, -, rfl, -⟩ := exists_takes known h
      rw [holdsText, Body.body_token] at plain
      exact Layout.wireTexts_plain plain _
    · rfl

theorem encode_of_unknown {tag : UInt8} {rest : List UInt8} {token : Token} {used : Nat}
    (unknown : Kind.ofTag? tag = none) (h : decode (tag :: rest) = .ok (token, used)) :
    token.encode = (tag :: rest).take used := by
  simp only [decode, unknown] at h
  split at h <;> cases h
  rw [Nat.add_comm, List.take_succ_cons]
  rfl

theorem encode_of_known {kind : Kind} {tag : UInt8} {rest : List UInt8} {token : Token} {used : Nat}
    (known : Kind.ofTag? tag = some kind) (h : decode (tag :: rest) = .ok (token, used)) :
    token.encode = (tag :: rest).take used ↔
      ∀ text ∈ kind.layout.wireTexts rest, text.Canonical ∨ text.Clipped := by
  obtain ⟨taken, left, values, rfl, takes, rfl, rfl⟩ := exists_takes known h
  have written := Layout.write_append_eq_iff (takes.whole left) left
  rw [List.append_cancel_right_eq] at written
  rw [encode, Body.body_token, Body.encode, Kind.tag_of_ofTag? known, Nat.add_comm,
    List.take_succ_cons, List.take_left, List.cons.injEq, written]
  exact ⟨fun same => same.2.1, fun texts => ⟨rfl, texts, rfl⟩⟩

/-- A decoded token without texts is encoded to the bytes it was decoded from. One with texts is so
if and only if each of them stands there as it is written, or was clipped inside a replacement
character, which is clipped there again. -/
theorem encode_eq_take_iff {input : List UInt8} {token : Token} {used : Nat}
    (h : decode input = .ok (token, used)) :
    (token.holdsText = false → token.encode = input.take used) ∧
      (token.encode = input.take used ↔
        ∀ text ∈ wireTexts input, text.Canonical ∨ text.Clipped) := by
  have exact : token.encode = input.take used ↔
      ∀ text ∈ wireTexts input, text.Canonical ∨ text.Clipped := by
    cases input with
    | nil => cases h
    | cons tag rest =>
      rw [wireTexts]
      split
      · next kind known => exact encode_of_known known h
      · next unknown => exact ⟨fun _ => nofun, fun _ => encode_of_unknown unknown h⟩
  refine ⟨fun plain => exact.2 ?_, exact⟩
  rw [wireTexts_plain h plain]
  nofun

theorem encode_eq_take_iff_execEnv :
    decode [0x3D, 0, 0, 0, 2, 0xC0, 0, 0x62, 0, 0x13] = .ok (execEnv ["\uFFFD", "b"], 9) ∧
      ((execEnv ["\uFFFD", "b"]).encode = [0x3D, 0, 0, 0, 2, 0xC0, 0, 0x62, 0] ↔
        ∀ text ∈ [WireText.ended [0xC0], .ended [0x62]], text.Canonical ∨ text.Clipped) :=
  have decoded : decode [0x3D, 0, 0, 0, 2, 0xC0, 0, 0x62, 0, 0x13] =
      .ok (execEnv ["\uFFFD", "b"], 9) := rfl
  ⟨decoded, (encode_eq_take_iff decoded).2⟩

/-- A path that fills its place and ends with the first byte of a replacement character is no UTF-8,
and yet it is encoded to the bytes it was decoded from. -/
theorem encode_decode_clipped :
    let content := List.replicate 102 0x61 ++ [0xEF]
    let input := 0x82 :: 0 :: 1 :: (content ++ [0])
    let token := socketUnix 1 (String.ofList (List.replicate 102 'a' ++ ['\uFFFD']))
    decode input = .ok (token, 107) ∧ token.encode = input.take 107 ∧
      wireTexts input = [.padded (content ++ [0])] ∧
      ¬∀ text ∈ wireTexts input, text.Canonical := by
  intro content input token
  have decoded : decode input = .ok (token, 107) := by decide +kernel
  have texts : wireTexts input = [.padded (content ++ [0])] := rfl
  have absent : 0 ∉ content := by decide
  have ends : Text.EndsInReplacement content :=
    ⟨_, ⟨List.replicate 102 'a', by decide⟩, .inl rfl⟩
  refine ⟨decoded, (encode_of_known rfl decoded).2 ?_, texts, ?_⟩
  · intro text member
    obtain rfl := List.mem_singleton.1 member
    exact .inr ⟨content, rfl, absent, ends, rfl⟩
  · rw [texts, List.forall_mem_singleton]
    rintro ⟨other, zeros, parts, absent', valid⟩
    obtain ⟨rfl, -⟩ := (append_zero_inj absent absent').1 parts
    exact ends.not_isUtf8 valid

end Token

end AuditTrail

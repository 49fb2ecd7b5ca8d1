import AuditTrail.Text.Numeral
import Mathlib.Data.List.Forall2
import Mathlib.Data.Nat.Digits.Defs
import Mathlib.Tactic.Ring

namespace AuditTrail.Numeral

structure IsDigit (base : Nat) (c : Char) (value : Nat) : Prop where
  lt_base : value < base
  written : c = Nat.digitChar value ∨ c = (Nat.digitChar value).toUpper

def Digits (base : Nat) (cs : List Char) (n : Nat) : Prop :=
  cs ≠ [] ∧ ∃ values, List.Forall₂ (IsDigit base) cs values ∧
    n = Nat.ofDigits base values.reverse

inductive Unsigned (base : Nat) : List Char → Nat → Prop
  | plain {cs : List Char} {n : Nat} (digits : Digits base cs n) : Unsigned base cs n
  | plus {cs : List Char} {n : Nat} (digits : Digits base cs n) : Unsigned base ('+' :: cs) n

theorem ofNat_eq_digitChar {k : Nat} (h : k < 10) : Char.ofNat (48 + k) = Nat.digitChar k := by
  have table : ∀ k < 10, Char.ofNat (48 + k) = Nat.digitChar k := by decide
  exact table k h

theorem ofNat_eq_digitChar_letter {k : Nat} (h : k < 6) :
    Char.ofNat (97 + k) = Nat.digitChar (k + 10) ∧
      Char.ofNat (65 + k) = (Nat.digitChar (k + 10)).toUpper := by
  have table : ∀ k < 6, Char.ofNat (97 + k) = Nat.digitChar (k + 10) ∧
      Char.ofNat (65 + k) = (Nat.digitChar (k + 10)).toUpper := by decide
  exact table k h

theorem digit?_digitChar {base value : Nat} (few : base ≤ 16) (h : value < base) :
    digit? base (Nat.digitChar value) = some value ∧
      digit? base (Nat.digitChar value).toUpper = some value := by
  have table : ∀ base ≤ 16, ∀ value < base, digit? base (Nat.digitChar value) = some value ∧
      digit? base (Nat.digitChar value).toUpper = some value := by decide
  exact table base few value h

theorem exists_of_range {c low high : Char} (h : low ≤ c ∧ c ≤ high) :
    ∃ k ≤ high.toNat - low.toNat, c = Char.ofNat (low.toNat + k) ∧ c.toNat - low.toNat = k := by
  have above : low.toNat ≤ c.toNat := h.1
  have below : c.toNat ≤ high.toNat := h.2
  refine ⟨c.toNat - low.toNat, by omega, ?_, rfl⟩
  rw [Nat.add_sub_cancel' above, Char.ofNat_toNat]

theorem isDigit_of_digit? {base : Nat} {c : Char} {value : Nat}
    (h : digit? base c = some value) : IsDigit base c value := by
  obtain ⟨read, small⟩ := Option.filter_eq_some_iff.1 h
  refine ⟨of_decide_eq_true small, ?_⟩
  split_ifs at read with figure lower upper
  · obtain ⟨k, hk, rfl, value⟩ := exists_of_range figure
    cases read
    rw [value]
    exact .inl (ofNat_eq_digitChar (Nat.lt_succ_of_le hk))
  · obtain ⟨k, hk, rfl, value⟩ := exists_of_range lower
    cases read
    rw [value]
    exact .inl (ofNat_eq_digitChar_letter (Nat.lt_succ_of_le hk)).1
  · obtain ⟨k, hk, rfl, value⟩ := exists_of_range upper
    cases read
    rw [value]
    exact .inr (ofNat_eq_digitChar_letter (Nat.lt_succ_of_le hk)).2

theorem shifted_eq (base m value : Nat) (values : List Nat) :
    base ^ values.length * (base * m + value) + Nat.ofDigits base values.reverse =
      base ^ (value :: values).length * m + Nat.ofDigits base (value :: values).reverse := by
  rw [List.reverse_cons, Nat.ofDigits_append, Nat.ofDigits_singleton, List.length_reverse,
    List.length_cons]
  ring

section

variable {base : Nat} (few : base ≤ 16)
include few

theorem digit?_eq_some_iff {c : Char} {value : Nat} :
    digit? base c = some value ↔ IsDigit base c value := by
  refine ⟨isDigit_of_digit?, ?_⟩
  rintro ⟨small, rfl | rfl⟩
  · exact (digit?_digitChar few small).1
  · exact (digit?_digitChar few small).2

theorem foldlM_digit?_eq_some_iff {cs : List Char} {m n : Nat} :
    cs.foldlM (fun n c => (digit? base c).map (base * n + ·)) m = some n ↔
      ∃ values, List.Forall₂ (IsDigit base) cs values ∧
        n = base ^ values.length * m + Nat.ofDigits base values.reverse := by
  induction cs generalizing m with
  | nil => simp [eq_comm]
  | cons c cs ih =>
    simp only [List.foldlM_cons, Option.bind_eq_bind, Option.bind_eq_some_iff,
      Option.map_eq_some_iff, digit?_eq_some_iff few, ih, List.forall₂_cons_left_iff]
    constructor
    · rintro ⟨_, ⟨value, first, rfl⟩, values, others, rfl⟩
      exact ⟨value :: values, ⟨value, values, first, others, rfl⟩, shifted_eq ..⟩
    · rintro ⟨_, ⟨value, values, first, others, rfl⟩, rfl⟩
      exact ⟨_, ⟨value, first, rfl⟩, values, others, (shifted_eq ..).symm⟩

theorem digits?_eq_some_iff {cs : List Char} {n : Nat} :
    digits? base cs = some n ↔ Digits base cs n := by
  cases cs with
  | nil => exact iff_of_false nofun fun digits => digits.1 rfl
  | cons c cs =>
    rw [digits?, foldlM_digit?_eq_some_iff few, Digits, and_iff_right (List.cons_ne_nil _ _)]
    · simp only [Nat.mul_zero, Nat.zero_add]
    · exact List.cons_ne_nil _ _

theorem not_digits_plus {cs : List Char} {n : Nat} : ¬Digits base ('+' :: cs) n := by
  rintro ⟨-, values, written, -⟩
  obtain ⟨value, _, first, -, -⟩ := List.forall₂_cons_left_iff.1 written
  cases (digit?_eq_some_iff few).2 first

theorem unsigned?_eq_some_iff {limit n : Nat} {s : String} :
    unsigned? base limit s = some n ↔ Unsigned base s.toList n ∧ n < limit := by
  rw [unsigned?, Option.filter_eq_some_iff, decide_eq_true_iff, digits?_eq_some_iff few]
  refine and_congr_left fun _ => ?_
  split
  · next cs chars =>
    rw [chars]
    refine ⟨.plus, fun written => ?_⟩
    cases written with
    | plain digits => exact absurd digits (not_digits_plus few)
    | plus digits => exact digits
  · next noPlus =>
    refine ⟨.plain, fun written => ?_⟩
    generalize s.toList = cs at noPlus written
    cases written with
    | plain digits => exact digits
    | plus => exact absurd rfl (noPlus _)

end

end AuditTrail.Numeral

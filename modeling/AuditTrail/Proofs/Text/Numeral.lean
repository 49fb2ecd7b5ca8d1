import AuditTrail.Text.Numeral
import Mathlib.Data.List.Basic

namespace AuditTrail.Numeral

def NoDigit (c : Char) : Prop := ∀ digit, Nat.digitChar digit ≠ c

theorem noDigit_iff {c : Char} : NoDigit c ↔ ∀ digit < 17, Nat.digitChar digit ≠ c := by
  refine ⟨fun h digit _ => h digit, fun h digit => ?_⟩
  by_cases small : digit < 17
  · exact h digit small
  · have beyond : Nat.digitChar digit = Nat.digitChar 16 := by
      simp (disch := omega) only [Nat.digitChar, if_neg]
    exact beyond ▸ h 16 (by decide)

instance (c : Char) : Decidable (NoDigit c) := decidable_of_iff' _ noDigit_iff

theorem digitChar_inj {m n : Nat} (hm : m < 16) (hn : n < 16)
    (h : Nat.digitChar m = Nat.digitChar n) : m = n := by
  have table : ∀ m < 16, ∀ n < 16, Nat.digitChar m = Nat.digitChar n → m = n := by decide
  exact table m hm n hn h

section

variable {base : Nat} (few : 1 < base)
include few

theorem exists_digit_of_mem_toDigits {n : Nat} {c : Char} (h : c ∈ Nat.toDigits base n) :
    ∃ digit, c = Nat.digitChar digit := by
  induction n using Nat.strongRecOn with
  | ind n ih =>
    rw [Nat.toDigits_eq_if few] at h
    split at h
    · exact ⟨n, List.mem_singleton.1 h⟩
    · next more =>
      rcases List.mem_append.1 h with front | last
      · exact ih (n / base) (Nat.div_lt_self (by omega) few) front
      · exact ⟨n % base, List.mem_singleton.1 last⟩

theorem not_mem_print {c : Char} (h : NoDigit c) (n : Nat) : c ∉ (print base n).toList := by
  rw [print, String.toList_ofList]
  intro member
  obtain ⟨digit, rfl⟩ := exists_digit_of_mem_toDigits few member
  exact h digit rfl

theorem toDigits_inj (small : base ≤ 16) {m n : Nat}
    (h : Nat.toDigits base m = Nat.toDigits base n) : m = n := by
  induction m using Nat.strongRecOn generalizing n with
  | ind m ih =>
    rw [Nat.toDigits_eq_if few, Nat.toDigits_eq_if few (n := n)] at h
    have last (k : Nat) : k % base < 16 :=
      Nat.lt_of_lt_of_le (Nat.mod_lt k (Nat.zero_lt_of_lt few)) small
    have long (k : Nat) (c d : Char) : Nat.toDigits base k ++ [c] ≠ [d] := by
      simp [List.append_eq_singleton_iff, Nat.toDigits_ne_nil]
    split at h <;> split at h
    · exact digitChar_inj (by omega) (by omega) (List.singleton_inj.1 h)
    · exact absurd h.symm (long _ _ _)
    · exact absurd h (long _ _ _)
    · obtain ⟨front, digit⟩ := List.append_inj' h rfl
      have quotients := ih (m / base) (Nat.div_lt_self (by omega) few) front
      have remainders := digitChar_inj (last m) (last n) (List.singleton_inj.1 digit)
      rw [← Nat.div_add_mod m base, ← Nat.div_add_mod n base, quotients, remainders]

end

@[simp] theorem print_inj {base m n : Nat} (few : 1 < base) (small : base ≤ 16) :
    print base m = print base n ↔ m = n := by
  refine ⟨fun h => toDigits_inj few small ?_, congrArg _⟩
  rw [← String.toList_inj] at h
  simpa [print] using h

theorem print_ne_empty (base n : Nat) : print base n ≠ "" := by
  simp [print, ← String.toList_inj, Nat.toDigits_ne_nil]

theorem decimal_ne_of_letter {s : String} (letter : s.toList.all Char.isDigit = false) (n : Nat) :
    decimal n ≠ s := by
  rintro rfl
  simp only [print, String.toList_ofList, List.all_eq_false] at letter
  obtain ⟨c, member, none⟩ := letter
  exact none (Nat.isDigit_of_mem_toDigits (by decide) (by decide) member)

theorem not_mem_signed32 {c : Char} (h : NoDigit c) (other : c ≠ '-') (w : UInt32) :
    c ∉ (signed32 w).toList := by
  have digits := not_mem_print (by decide : 1 < 10) h
  rw [signed32]
  split
  · exact digits _
  · simp [other, digits]

theorem minus_ne_print (m n : Nat) : "-" ++ print 10 m ≠ print 10 n := by
  intro same
  have plain := not_mem_print (by decide : 1 < 10) (by decide : NoDigit '-') n
  rw [← same, String.toList_append] at plain
  exact plain List.mem_cons_self

@[simp] theorem signed32_inj {v w : UInt32} : signed32 v = signed32 w ↔ v = w := by
  refine ⟨fun h => ?_, congrArg _⟩
  rw [← UInt32.toNat_inj]
  unfold signed32 at h
  split at h <;> split at h
  · simpa using h
  · exact absurd h.symm (minus_ne_print _ _)
  · exact absurd h (minus_ne_print _ _)
  · have rest : 4294967296 - v.toNat = 4294967296 - w.toNat := by simpa using h
    have := v.toNat_lt
    have := w.toNat_lt
    omega

theorem not_mem_marked {c : Char} (h : NoDigit c) (other : c ≠ 'x') (n : Nat) :
    c ∉ (marked n).toList := by
  have zero : '0' ≠ c := h 0
  rw [marked]
  split
  · simp [zero.symm]
  · simp [zero.symm, other, not_mem_print (by decide : 1 < 16) h]

theorem mark_ne_zero (s : String) : "0x" ++ s ≠ "0" := by
  simp [← String.toList_inj]

@[simp] theorem marked_inj {m n : Nat} : marked m = marked n ↔ m = n := by
  refine ⟨fun h => ?_, congrArg _⟩
  unfold marked at h
  split at h <;> split at h
  · next left right => rw [left, right]
  · exact absurd h.symm (mark_ne_zero _)
  · exact absurd h (mark_ne_zero _)
  · simpa using h

theorem not_mem_hexByte {c : Char} (h : NoDigit c) (b : UInt8) : c ∉ (hexByte b).toList := by
  simp [hexByte, Ne.symm (h _)]

theorem length_hexByte (b : UInt8) : (hexByte b).toList.length = 2 := by
  simp [hexByte]

theorem hexByte_inj {a b : UInt8} (h : hexByte a = hexByte b) : a = b := by
  have digits : Nat.digitChar (a.toNat / 16) = Nat.digitChar (b.toNat / 16) ∧
      Nat.digitChar (a.toNat % 16) = Nat.digitChar (b.toNat % 16) := by
    simpa [hexByte, ← String.toList_inj] using h
  have := a.toNat_lt
  have := b.toNat_lt
  have high := digitChar_inj (by omega) (by omega) digits.1
  have low := digitChar_inj (by omega) (by omega) digits.2
  rw [← UInt8.toNat_inj]
  omega

theorem join_hexByte_inj {as bs : List UInt8}
    (h : String.join (as.map hexByte) = String.join (bs.map hexByte)) : as = bs := by
  have more (b : UInt8) (rest : List UInt8) : String.join ((b :: rest).map hexByte) ≠ "" := by
    simp [hexByte]
  induction as generalizing bs with
  | nil =>
    cases bs with
    | nil => rfl
    | cons b bs => exact absurd h.symm (more b bs)
  | cons a as ih =>
    cases bs with
    | nil => exact absurd h (more a as)
    | cons b bs =>
      rw [List.map_cons, List.map_cons, String.join_cons, String.join_cons, ← String.toList_inj,
        String.toList_append, String.toList_append] at h
      have width := (length_hexByte a).trans (length_hexByte b).symm
      obtain ⟨first, rest⟩ := List.append_inj h width
      rw [hexByte_inj (String.toList_inj.1 first), ih (String.toList_inj.1 rest)]

end AuditTrail.Numeral

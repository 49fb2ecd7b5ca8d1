namespace AuditTrail

variable {α β : Type}

/-- A cut that leaves something out falls behind some parts, and behind the first elements of the
part after them. -/
theorem exists_take_flatMap (f : α → List β) (xs : List α) {n : Nat}
    (short : n < (xs.flatMap f).length) :
    ∃ whole x after k, xs = whole ++ x :: after ∧ k < (f x).length ∧
      n = (whole.flatMap f).length + k ∧
      (xs.flatMap f).take n = whole.flatMap f ++ (f x).take k := by
  induction xs generalizing n with
  | nil => exact absurd short (Nat.not_lt_zero n)
  | cons x xs ih =>
    rw [List.flatMap_cons] at short ⊢
    rw [List.length_append] at short
    by_cases inside : n < (f x).length
    · refine ⟨[], x, xs, n, rfl, inside, (Nat.zero_add n).symm, ?_⟩
      rw [List.take_append_of_le_length (Nat.le_of_lt inside)]
      rfl
    · obtain ⟨whole, y, after, k, rfl, hk, hn, taken⟩ := @ih (n - (f x).length) (by omega)
      refine ⟨x :: whole, y, after, k, rfl, hk, ?_, ?_⟩
      · rw [List.flatMap_cons, List.length_append]
        omega
      · rw [List.take_append, taken, List.take_of_length_le (by omega), List.flatMap_cons,
          List.append_assoc]

theorem exists_take_flatten (parts : List (List β)) {n : Nat} (h : n ≤ parts.flatten.length) :
    (∃ whole cut, parts = whole ++ cut ∧ n = whole.flatten.length ∧
      parts.flatten.take n = whole.flatten) ∨
    ∃ whole part after k, parts = whole ++ part :: after ∧ k ≠ 0 ∧ k < part.length ∧
      n = whole.flatten.length + k ∧ parts.flatten.take n = whole.flatten ++ part.take k := by
  rcases Nat.lt_or_eq_of_le h with short | rfl
  · obtain ⟨whole, part, after, k, parted, inside, hn, taken⟩ :=
      exists_take_flatMap id parts (by rwa [List.flatMap_id])
    simp only [List.flatMap_id, id] at hn taken
    by_cases none : k = 0
    · subst none
      rw [List.take_zero, List.append_nil] at taken
      exact .inl ⟨whole, part :: after, parted, hn, taken⟩
    · exact .inr ⟨whole, part, after, k, parted, none, inside, hn, taken⟩
  · exact .inl ⟨parts, [], (List.append_nil _).symm, rfl, List.take_length⟩

def CutsInside (parts : List (List β)) (n : Nat) : Prop :=
  ∃ before part after, parts = before ++ part :: after ∧ before.flatten.length < n ∧
    n < before.flatten.length + part.length

theorem not_cutsInside (whole cut : List (List β)) :
    ¬CutsInside (whole ++ cut) whole.flatten.length := by
  rintro ⟨before, part, after, same, behind, inside⟩
  obtain ⟨more, rfl, -⟩ | ⟨more, rfl, parts⟩ := List.append_eq_append_iff.1 same
  · rw [List.flatten_append, List.length_append] at behind
    omega
  · cases more with
    | nil => simp at behind
    | cons first more =>
      obtain ⟨rfl, -⟩ := List.cons.inj parts
      rw [List.flatten_append, List.flatten_cons, List.length_append, List.length_append] at inside
      omega

end AuditTrail

import AuditTrail.Proofs.Text.Separated

namespace AuditTrail.Text

theorem mem_intercalate {delimiter : String} {fields : List String} {c : Char}
    (h : c ∈ (delimiter.intercalate fields).toList) :
    c ∈ delimiter.toList ∨ ∃ field ∈ fields, c ∈ field.toList := by
  induction fields with
  | nil => simp at h
  | cons field fields ih =>
    cases fields with
    | nil => exact .inr ⟨field, List.mem_cons_self, by simpa using h⟩
    | cons next fields =>
      rw [String.intercalate_cons_cons, String.toList_append, String.toList_append,
        List.mem_append, List.mem_append] at h
      rcases h with (here | between) | later
      · exact .inr ⟨field, List.mem_cons_self, here⟩
      · exact .inl between
      · exact (ih later).imp_right fun ⟨other, member, inside⟩ =>
          ⟨other, List.mem_cons_of_mem _ member, inside⟩

theorem intercalate_cons (delimiter field : String) (fields : List String) :
    delimiter.intercalate (field :: fields) =
      field ++ String.join (fields.map (delimiter ++ ·)) := by
  induction fields generalizing field with
  | nil => simp
  | cons next fields ih =>
    rw [String.intercalate_cons_cons, ih next, List.map_cons, String.join_cons,
      String.append_assoc, String.append_assoc]

theorem append_cons_inj_of_not_mem {α : Type} {a : α} {x y r r' : List α} (hx : a ∉ x) (hy : a ∉ y)
    (h : x ++ a :: r = y ++ a :: r') : x = y ∧ r = r' := by
  rcases List.append_eq_append_iff.1 h with ⟨between, rfl, goesOn⟩ | ⟨between, rfl, goesOn⟩
  all_goals cases between <;> simp_all

section

variable {sep : Char}

theorem toList_intercalate_cons_cons (x y : String) (ys : List String) :
    ((String.singleton sep).intercalate (x :: y :: ys)).toList =
      x.toList ++ sep :: ((String.singleton sep).intercalate (y :: ys)).toList := by
  rw [String.intercalate_cons_cons, String.toList_append, String.toList_append,
    String.toList_singleton, List.append_assoc, List.singleton_append]

theorem cons_of_intercalate {x y : String} {xs ys : List String} (hx : sep ∉ x.toList)
    (hy : sep ∉ y.toList) (h : (String.singleton sep).intercalate (x :: xs) =
      (String.singleton sep).intercalate (y :: ys)) :
    x = y ∧ (String.singleton sep).intercalate xs = (String.singleton sep).intercalate ys ∧
      (xs = [] ↔ ys = []) := by
  cases xs with
  | nil =>
    cases ys with
    | nil => exact ⟨by simpa using h, rfl, Iff.rfl⟩
    | cons y' ys =>
      rw [← String.toList_inj, toList_intercalate_cons_cons, String.intercalate_singleton] at h
      exact absurd (by simp [h]) hx
  | cons x' xs =>
    cases ys with
    | nil =>
      rw [← String.toList_inj, toList_intercalate_cons_cons, String.intercalate_singleton] at h
      exact absurd (by simp [← h]) hy
    | cons y' ys =>
      rw [← String.toList_inj, toList_intercalate_cons_cons, toList_intercalate_cons_cons] at h
      obtain ⟨first, others⟩ := append_cons_inj_of_not_mem hx hy h
      exact ⟨String.toList_inj.1 first, String.toList_inj.1 others, by simp⟩

theorem intercalate_inj {xs ys : List String} (hx : xs ≠ []) (hy : ys ≠ [])
    (apart : ∀ x ∈ xs, sep ∉ x.toList) (apart' : ∀ y ∈ ys, sep ∉ y.toList)
    (h : (String.singleton sep).intercalate xs = (String.singleton sep).intercalate ys) :
    xs = ys := by
  rw [← split_intercalate hx apart, h, split_intercalate hy apart']

theorem intercalate_inj_of_length {xs ys : List String} (count : xs.length = ys.length)
    (apart : ∀ x ∈ xs.dropLast, sep ∉ x.toList) (apart' : ∀ y ∈ ys.dropLast, sep ∉ y.toList)
    (h : (String.singleton sep).intercalate xs = (String.singleton sep).intercalate ys) :
    xs = ys := by
  induction xs generalizing ys with
  | nil => exact (List.length_eq_zero_iff.1 count.symm).symm
  | cons x xs ih =>
    cases ys with
    | nil => cases count
    | cons y ys =>
      cases xs with
      | nil =>
        cases List.length_eq_zero_iff.1 (Nat.succ.inj count).symm
        simpa using h
      | cons x' xs =>
        cases ys with
        | nil => cases Nat.succ.inj count
        | cons y' ys =>
          rw [List.dropLast_cons_cons, List.forall_mem_cons] at apart apart'
          obtain ⟨rfl, others, -⟩ := cons_of_intercalate apart.1 apart'.1 h
          rw [ih (Nat.succ.inj count) apart.2 apart'.2 others]

end

theorem append_cons_inj_of_ne {α : Type} {a b : α} (other : a ≠ b) {x y r r' s s' : List α}
    (ha : x ++ a :: r = y ++ a :: r') (hb : x ++ b :: s = y ++ b :: s') :
    x = y ∧ r = r' ∧ s = s' := by
  rcases List.append_eq_append_iff.1 ha with ⟨between, rfl, goesOn⟩ | ⟨between, rfl, goesOn⟩
  all_goals
    cases between with
    | nil => simp_all
    | cons c between =>
      rw [List.append_assoc, List.append_cancel_left_eq] at hb
      simp_all

/-- Fields are told from what they make up with two different delimiters. -/
theorem eq_of_intercalate {a b : Char} (other : a ≠ b) {xs ys : List String} (hx : xs ≠ [])
    (hy : ys ≠ [])
    (ha : (String.singleton a).intercalate xs = (String.singleton a).intercalate ys)
    (hb : (String.singleton b).intercalate xs = (String.singleton b).intercalate ys) : xs = ys := by
  induction xs generalizing ys with
  | nil => exact absurd rfl hx
  | cons x xs ih =>
    cases ys with
    | nil => exact absurd rfl hy
    | cons y ys =>
      rw [← String.toList_inj] at ha hb
      cases xs with
      | nil =>
        cases ys with
        | nil => simpa [String.toList_inj] using ha
        | cons y' ys =>
          rw [toList_intercalate_cons_cons, String.intercalate_singleton] at ha hb
          simp [ha, other] at hb
      | cons x' xs =>
        cases ys with
        | nil =>
          rw [toList_intercalate_cons_cons, String.intercalate_singleton] at ha hb
          simp [← ha, other.symm] at hb
        | cons y' ys =>
          rw [toList_intercalate_cons_cons, toList_intercalate_cons_cons] at ha hb
          obtain ⟨first, ha, hb⟩ := append_cons_inj_of_ne other ha hb
          rw [String.toList_inj.1 first,
            ih (by simp) (by simp) (String.toList_inj.1 ha) (String.toList_inj.1 hb)]

end AuditTrail.Text

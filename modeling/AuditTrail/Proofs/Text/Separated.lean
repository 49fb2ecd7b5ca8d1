import AuditTrail.Text.Fields
import Mathlib.Data.List.TakeWhile

namespace AuditTrail.Text

theorem splitChars_eq (sep : Char) (cs : List Char) : splitChars sep cs = cs.splitOn sep := by
  induction cs with
  | nil => rfl
  | cons c cs ih =>
    rw [splitChars, List.splitOn_cons_eq_if_modifyHead, ← ih]
    by_cases here : c = sep
    · simp [here]
    · rcases h : splitChars sep cs with _ | ⟨part, parts⟩
      · exact absurd h (splitChars_ne_nil sep cs)
      · simp [here]

theorem not_mem_splitChars {sep : Char} {cs : List Char} :
    ∀ part ∈ splitChars sep cs, sep ∉ part := by
  induction cs with
  | nil => simp [splitChars]
  | cons c cs ih =>
    rw [splitChars]
    split
    · simpa using ih
    · rename_i other
      split
      · simpa using Ne.symm other
      · rename_i part parts h
        rw [h, List.forall_mem_cons] at ih
        refine List.forall_mem_cons.2 ⟨?_, ih.2⟩
        rw [List.mem_cons, not_or]
        exact ⟨Ne.symm other, ih.1⟩

variable {sep : Char}

theorem not_mem_split {s : String} : ∀ part ∈ split sep s, sep ∉ part.toList := by
  simpa [split] using not_mem_splitChars

theorem split_ne_nil (s : String) : split sep s ≠ [] := by
  simpa [split] using splitChars_ne_nil sep s.toList

theorem toList_intercalate (parts : List String) :
    ((String.singleton sep).intercalate parts).toList =
      [sep].intercalate (parts.map String.toList) := by
  rw [String.toList_intercalate, String.toList_singleton]

theorem intercalate_split (s : String) : (String.singleton sep).intercalate (split sep s) = s := by
  have chars : (split sep s).map String.toList = s.toList.splitOn sep := by
    simp [split, splitChars_eq, Function.comp_def]
  rw [← String.toList_inj, toList_intercalate, chars, List.intercalate_splitOn]

theorem split_intercalate {parts : List String} (some : parts ≠ [])
    (apart : ∀ part ∈ parts, sep ∉ part.toList) :
    split sep ((String.singleton sep).intercalate parts) = parts := by
  rw [split, toList_intercalate, splitChars_eq,
    List.splitOn_intercalate sep (by simpa using apart) (by simpa using some)]
  simp [Function.comp_def]

theorem dropWhile_eq_self_iff_head? {p : α → Bool} {as : List α} :
    as.dropWhile p = as ↔ ∀ a ∈ as.head?, p a = false := by
  rw [List.dropWhile_eq_self_iff]
  cases as <;> simp

theorem trim_eq_self_iff {s : String} :
    trim s = s ↔ (∀ c ∈ s.toList.head?, isBlank c = false) ∧
      ∀ c ∈ s.toList.getLast?, isBlank c = false := by
  rw [← List.head?_reverse, ← dropWhile_eq_self_iff_head?, ← dropWhile_eq_self_iff_head?,
    ← String.toList_inj, trim, String.toList_ofList, List.reverse_eq_iff]
  constructor
  · intro same
    have front := List.dropWhile_suffix (l := s.toList) isBlank
    have back := List.dropWhile_suffix (l := (s.toList.dropWhile isBlank).reverse) isBlank
    have long := back.length_le
    rw [same, List.length_reverse, List.length_reverse] at long
    have all := front.eq_of_length (Nat.le_antisymm front.length_le long)
    rw [all] at same
    exact ⟨all, same⟩
  · rintro ⟨front, back⟩
    rw [front, back]

theorem trim_append {front s : String} (solid : ∀ c ∈ front.toList, isBlank c = false)
    (some : s ≠ "") (trimmed : trim s = s) : trim (front ++ s) = front ++ s := by
  obtain ⟨first, last⟩ := trim_eq_self_iff.1 trimmed
  rw [trim_eq_self_iff, String.toList_append, List.head?_append, List.getLast?_append]
  simp only [Option.mem_def, Option.or_eq_some_iff] at first last ⊢
  constructor
  · rintro c (here | ⟨-, behind⟩)
    · exact solid c (List.mem_of_mem_head? here)
    · exact first c behind
  · rintro c (here | ⟨none, -⟩)
    · exact last c here
    · exact absurd (String.toList_eq_nil_iff.1 (List.getLast?_eq_none_iff.1 none)) some

theorem items_intercalate {parts : List String} (apart : ∀ part ∈ parts, sep ∉ part.toList)
    (trimmed : ∀ part ∈ parts, trim part = part) (some : ∀ part ∈ parts, part ≠ "") :
    items sep ((String.singleton sep).intercalate parts) = parts := by
  cases parts with
  | nil => rfl
  | cons part parts =>
    rw [items, fields, split_intercalate (by simp) apart, List.map_congr_left trimmed,
      List.map_id']
    simpa using some

theorem after?_eq_some_iff {c : Char} {s t : String} :
    after? c s = some t ↔ s = String.singleton c ++ t := by
  rw [← String.toList_inj, String.toList_append, String.toList_singleton, after?]
  cases s.toList with
  | nil => simp
  | cons d ds => simp [← String.toList_inj]

theorem after?_eq_none_iff {c : Char} {s : String} :
    after? c s = none ↔ s.toList.head? ≠ some c := by
  rw [after?]
  cases s.toList <;> simp

end AuditTrail.Text

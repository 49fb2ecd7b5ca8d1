import AuditTrail.Proofs.Text.Separated
import Mathlib.Data.List.Forall2

namespace AuditTrail.Text

def lineChars : List Char → List (List Char)
  | [] => []
  | '\n' :: cs => [] :: lineChars cs
  | '\r' :: '\n' :: cs => [] :: lineChars cs
  | c :: cs =>
    match lineChars cs with
    | [] => [[c]]
    | line :: lines => (c :: line) :: lines

def lines (s : String) : List String := (lineChars s.toList).map String.ofList

theorem not_mem_lineChars {cs : List Char} : ∀ line ∈ lineChars cs, '\n' ∉ line := by
  fun_induction lineChars cs with
  | case1 => exact List.forall_mem_nil _
  | case2 cs ih => exact List.forall_mem_cons.2 ⟨List.not_mem_nil, ih⟩
  | case3 cs ih => exact List.forall_mem_cons.2 ⟨List.not_mem_nil, ih⟩
  | case4 c cs feed _ last ih => simpa using Ne.symm feed
  | case5 c cs feed _ line lines some ih =>
    rw [some, List.forall_mem_cons] at ih
    refine List.forall_mem_cons.2 ⟨?_, ih.2⟩
    rw [List.mem_cons, not_or]
    exact ⟨Ne.symm feed, ih.1⟩

theorem not_mem_lines {s : String} : ∀ line ∈ lines s, '\n' ∉ line.toList := by
  simpa [lines] using not_mem_lineChars

theorem lineChars_append {line : List Char} (whole : '\n' ∉ line)
    (bare : line.getLast? ≠ some '\r') (cs : List Char) :
    lineChars (line ++ '\n' :: cs) = line :: lineChars cs := by
  induction line with
  | nil => rfl
  | cons c line ih =>
    rw [List.mem_cons, not_or] at whole
    have others : lineChars (line ++ '\n' :: cs) = line :: lineChars cs := by
      refine ih whole.2 fun last => bare ?_
      rw [List.getLast?_cons, last]
      rfl
    rw [List.cons_append, lineChars, others]
    · exact fun feed => whole.1 feed.symm
    · rintro behind rfl
      cases line with
      | nil => exact absurd rfl bare
      | cons d line =>
        rintro ⟨⟩
        exact absurd List.mem_cons_self whole.2

theorem lines_append {line : String} (whole : '\n' ∉ line.toList)
    (bare : line.toList.getLast? ≠ some '\r') (s : String) :
    lines (line ++ "\n" ++ s) = line :: lines s := by
  have chars : (line ++ "\n" ++ s).toList = line.toList ++ '\n' :: s.toList := by simp
  rw [lines, chars, lineChars_append whole bare, List.map_cons, String.ofList_toList, lines]

theorem trim_append_blank {c : Char} (blank : isBlank c = true) (cs : List Char) :
    trim (String.ofList (cs ++ [c])) = trim (String.ofList cs) := by
  rw [trim, trim, String.toList_ofList, String.toList_ofList, List.dropWhile_append]
  cases h : cs.dropWhile isBlank with
  | nil => simp [blank]
  | cons d ds => simp [blank]

def Ends (part line : List Char) : Prop := part = line ∨ part = line ++ ['\r']

theorem Ends.cons {part line : List Char} (h : Ends part line) (c : Char) :
    Ends (c :: part) (c :: line) := by
  rcases h with rfl | rfl
  · exact .inl rfl
  · exact .inr rfl

theorem Ends.trim_eq {part line : List Char} (h : Ends part line) :
    trim (String.ofList part) = trim (String.ofList line) := by
  rcases h with rfl | rfl
  · rfl
  · exact trim_append_blank rfl line

theorem splitChars_ends (cs : List Char) : ∃ tail, (tail = [] ∨ tail = [[]]) ∧
    List.Forall₂ Ends (splitChars '\n' cs) (lineChars cs ++ tail) := by
  fun_induction lineChars cs with
  | case1 => exact ⟨[[]], .inr rfl, .cons (.inl rfl) .nil⟩
  | case2 cs ih =>
    obtain ⟨tail, short, ends⟩ := ih
    exact ⟨tail, short, .cons (.inl rfl) ends⟩
  | case3 cs ih =>
    obtain ⟨tail, short, ends⟩ := ih
    exact ⟨tail, short, .cons (.inr rfl) ends⟩
  | case4 c cs feed _ last ih =>
    obtain ⟨tail, rfl | rfl, ends⟩ := ih <;> rw [last] at ends
    · exact absurd (List.forall₂_nil_right_iff.1 ends) (splitChars_ne_nil _ cs)
    · obtain ⟨part, _, here, ends, parts⟩ := List.forall₂_cons_right_iff.1 ends
      rw [List.forall₂_nil_right_iff.1 ends] at parts
      refine ⟨[], .inl rfl, ?_⟩
      rw [splitChars, if_neg feed, parts]
      exact .cons (here.cons c) .nil
  | case5 c cs feed _ line lines some ih =>
    obtain ⟨tail, short, ends⟩ := ih
    rw [some] at ends
    obtain ⟨part, others, here, ends, parts⟩ := List.forall₂_cons_right_iff.1 ends
    refine ⟨tail, short, ?_⟩
    rw [splitChars, if_neg feed, parts]
    exact .cons (here.cons c) ends

/-- Trimmed, the parts between line feeds are the lines, but for a blank part that may come last. -/
theorem fields_eq_lines (s : String) : ∃ tail, (tail = [] ∨ tail = [""]) ∧
    fields '\n' s = (lines s).map trim ++ tail := by
  obtain ⟨tail, short, ends⟩ := splitChars_ends s.toList
  have same : (splitChars '\n' s.toList).map (trim ∘ String.ofList) =
      (lineChars s.toList ++ tail).map (trim ∘ String.ofList) := by
    rw [← List.forall₂_eq_eq_eq, List.forall₂_map_left_iff, List.forall₂_map_right_iff]
    exact ends.imp fun part line h => h.trim_eq
  refine ⟨tail.map (trim ∘ String.ofList), ?_, ?_⟩
  · rcases short with rfl | rfl
    · exact .inl rfl
    · exact .inr rfl
  · rw [fields, split, lines, List.map_map, List.map_map, same, List.map_append]

end AuditTrail.Text

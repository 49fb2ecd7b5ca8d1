import AuditTrail.Proofs.Text.Separated
import Mathlib.Data.List.DropRight

namespace AuditTrail.Text

theorem toList_trim (s : String) :
    (trim s).toList = (s.toList.dropWhile isBlank).rdropWhile isBlank := String.toList_ofList

theorem mem_of_mem_trim {c : Char} {s : String} (h : c ∈ (trim s).toList) : c ∈ s.toList := by
  rw [toList_trim] at h
  exact (List.dropWhile_suffix _).subset ((List.rdropWhile_prefix _ _).subset h)

theorem head?_rdropWhile {c : Char} (solid : isBlank c = false) (cs : List Char) :
    ((c :: cs).rdropWhile isBlank).head? = some c := by
  obtain ⟨after, parts⟩ := List.rdropWhile_prefix isBlank (c :: cs)
  cases left : (c :: cs).rdropWhile isBlank with
  | nil =>
    have blank := List.rdropWhile_eq_nil_iff.1 left c List.mem_cons_self
    cases solid.symm.trans blank
  | cons d ds =>
    rw [left] at parts
    cases parts
    rfl

theorem head?_trim {s : String} (h : ∀ c ∈ s.toList.head?, isBlank c = false) :
    (trim s).toList.head? = s.toList.head? := by
  rw [toList_trim, dropWhile_eq_self_iff_head?.2 h]
  cases chars : s.toList with
  | nil => rfl
  | cons c cs =>
    rw [chars] at h
    exact head?_rdropWhile (h c rfl) cs

theorem trim_trim (s : String) : trim (trim s) = trim s := by
  have front : (trim s).toList.dropWhile isBlank = (trim s).toList := by
    rw [dropWhile_eq_self_iff_head?, toList_trim]
    intro c first
    cases left : s.toList.dropWhile isBlank with
    | nil => simp [left] at first
    | cons d ds =>
      have solid := List.head?_dropWhile_not isBlank s.toList
      rw [left] at first solid
      rw [head?_rdropWhile (by simpa using solid)] at first
      cases first
      simpa using solid
  rw [← String.toList_inj, toList_trim, front, toList_trim, List.rdropWhile_idempotent]

theorem trim_eq_empty_iff {s : String} : trim s = "" ↔ ∀ c ∈ s.toList, isBlank c = true := by
  rw [← String.toList_eq_nil_iff, toList_trim, List.rdropWhile_eq_nil_iff]
  constructor
  · intro blank
    rw [← List.dropWhile_eq_nil_iff]
    cases left : s.toList.dropWhile isBlank with
    | nil => rfl
    | cons c cs =>
      have solid := List.head?_dropWhile_not isBlank s.toList
      rw [left] at solid blank
      simp [blank c List.mem_cons_self] at solid
  · exact fun blank c member => blank c ((List.dropWhile_suffix _).subset member)

theorem trim_ne_empty_iff {s : String} : trim s ≠ "" ↔ ∃ c ∈ s.toList, isBlank c = false := by
  simp [trim_eq_empty_iff]

theorem mem_items {sep : Char} {s item : String} :
    item ∈ items sep s ↔ item ≠ "" ∧ ∃ part ∈ split sep s, trim part = item := by
  rw [items, fields, List.mem_filter, List.mem_map, bne_iff_ne, and_comm]

theorem trim_joined {c : Char} (solid : isBlank c = false) {front s : String}
    (hfront : trim front = front) (hs : trim s = s) :
    trim (front ++ String.singleton c ++ s) = front ++ String.singleton c ++ s := by
  rw [trim_eq_self_iff] at hfront hs ⊢
  rw [String.toList_append, String.toList_append, String.toList_singleton]
  constructor
  · intro d first
    rw [List.append_assoc, List.head?_append] at first
    rcases Option.or_eq_some_iff.1 first with first | ⟨-, first⟩
    · exact hfront.1 d first
    · cases first
      exact solid
  · intro d last
    rw [List.getLast?_append] at last
    rcases Option.or_eq_some_iff.1 last with last | ⟨-, last⟩
    · exact hs.2 d last
    · rw [List.getLast?_append] at last
      cases last
      exact solid

theorem cut?_eq_some_iff {sep : Char} {s front back : String} :
    cut? sep s = some (front, back) ↔
      s = front ++ String.singleton sep ++ back ∧ sep ∉ front.toList := by
  rw [← String.toList_inj, String.toList_append, String.toList_append, String.toList_singleton,
    List.append_assoc, List.singleton_append, cut?]
  constructor
  · intro found
    cases behind : s.toList.dropWhile (· != sep) with
    | nil => simp [behind] at found
    | cons c after =>
      have parts := List.takeWhile_append_dropWhile (p := (· != sep)) (l := s.toList)
      have first := List.head?_dropWhile_not (· != sep) s.toList
      rw [behind] at parts first
      simp only [behind, Option.some.injEq, Prod.mk.injEq] at found
      obtain ⟨rfl, rfl⟩ := found
      rw [String.toList_ofList, String.toList_ofList]
      refine ⟨?_, fun member => ?_⟩
      · have here : c = sep := by simpa using first
        subst here
        exact parts.symm
      · simpa using List.mem_takeWhile_imp member
  · rintro ⟨parts, apart⟩
    have solid : ∀ c ∈ front.toList, (c != sep) = true := by
      intro c member
      exact bne_iff_ne.2 fun same => apart (same ▸ member)
    rw [parts]
    simp [List.dropWhile_append_of_pos solid, List.takeWhile_append_of_pos solid]

end AuditTrail.Text

import AuditTrail.Proofs.Config.Flags
import AuditTrail.Proofs.Text.Separated
import Mathlib.Data.List.Forall2

/-! Flag lists as they are written: which flag an entry stands for, and which entries there are for
a flag. The flags of a list are read one by one, and the last one that is about a class bit and an
outcome decides on both. -/

namespace AuditTrail

def Selection.sign : Selection → String
  | .success => "+"
  | .failure => "-"
  | .both => ""

namespace Flag

def marks (flag : Flag) : String :=
  (if flag.removes then "^" else "") ++ flag.selection.sign

/-- An entry of a list spells a flag: `^` if the class is taken out, then the sign of the outcome,
then the name of the class. A mark that could stand in front was not left out. -/
structure Spells (entry : String) (flag : Flag) : Prop where
  text : entry = flag.marks ++ flag.name
  noCaret : flag.removes = false → entry.toList.head? ≠ some '^'
  noSign : flag.selection = .both →
    flag.name.toList.head? ≠ some '+' ∧ flag.name.toList.head? ≠ some '-'

theorem signed_eq (s : String) :
    s = (signed s).1.sign ++ (signed s).2 ∧ ((signed s).1 = .both →
      (signed s).2.toList.head? ≠ some '+' ∧ (signed s).2.toList.head? ≠ some '-') := by
  cases plus : Text.after? '+' s with
  | some name =>
    rw [signed, plus]
    exact ⟨Text.after?_eq_some_iff.1 plus, nofun⟩
  | none =>
    cases minus : Text.after? '-' s with
    | some name =>
      rw [signed, plus, minus]
      exact ⟨Text.after?_eq_some_iff.1 minus, nofun⟩
    | none =>
      rw [signed, plus, minus]
      exact ⟨String.empty_append.symm, fun _ =>
        ⟨Text.after?_eq_none_iff.1 plus, Text.after?_eq_none_iff.1 minus⟩⟩

theorem signed_sign {selection : Selection} {name : String} (noSign : selection = .both →
    name.toList.head? ≠ some '+' ∧ name.toList.head? ≠ some '-') :
    signed (selection.sign ++ name) = (selection, name) := by
  cases selection with
  | success =>
    have plus : Text.after? '+' ("+" ++ name) = some name := Text.after?_eq_some_iff.2 rfl
    rw [signed, Selection.sign, plus]
  | failure =>
    have plus : Text.after? '+' ("-" ++ name) = none := Text.after?_eq_none_iff.2 (by simp)
    have minus : Text.after? '-' ("-" ++ name) = some name := Text.after?_eq_some_iff.2 rfl
    rw [signed, Selection.sign, plus, minus]
  | both =>
    obtain ⟨plus, minus⟩ := noSign rfl
    rw [Selection.sign, String.empty_append, signed, Text.after?_eq_none_iff.2 plus,
      Text.after?_eq_none_iff.2 minus]

theorem spells_ofText (entry : String) : Spells entry (ofText entry) := by
  cases caret : Text.after? '^' entry with
  | none =>
    obtain ⟨text, noSign⟩ := signed_eq entry
    rw [ofText, caret]
    exact ⟨by simpa [marks] using text, fun _ => Text.after?_eq_none_iff.1 caret, noSign⟩
  | some rest =>
    obtain ⟨text, noSign⟩ := signed_eq rest
    rw [ofText, caret]
    refine ⟨?_, nofun, noSign⟩
    rw [Text.after?_eq_some_iff.1 caret, marks, if_pos rfl, String.append_assoc, ← text]
    rfl

theorem Spells.ofText_eq {entry : String} {flag : Flag} (h : Spells entry flag) :
    ofText entry = flag := by
  obtain ⟨removes, selection, name⟩ := flag
  obtain ⟨text, noCaret, noSign⟩ := h
  have parts := signed_sign noSign
  cases removes with
  | true =>
    have caret : Text.after? '^' entry = some (selection.sign ++ name) := by
      rw [Text.after?_eq_some_iff, text, marks, if_pos rfl, String.append_assoc]
      rfl
    rw [ofText, caret]
    simp only [parts]
  | false =>
    have same : entry = selection.sign ++ name := by simpa [marks] using text
    rw [ofText, Text.after?_eq_none_iff.2 (noCaret rfl), same]
    simp only [parts]

theorem spells_iff {entry : String} {flag : Flag} : Spells entry flag ↔ ofText entry = flag :=
  ⟨Spells.ofText_eq, fun same => same ▸ spells_ofText entry⟩

def markChars : List Char := ['^', '+', '-']

/-- A name that an entry can hold: it is not cut or trimmed, and does not begin with what would be
taken for a mark. -/
structure PlainName (name : String) : Prop where
  nonempty : name ≠ ""
  trimmed : Text.trim name = name
  noComma : ',' ∉ name.toList
  noMark : name.toList.head? ∉ markChars.map some

instance (name : String) : Decidable (PlainName name) :=
  decidable_of_iff (name ≠ "" ∧ Text.trim name = name ∧ ',' ∉ name.toList ∧
      name.toList.head? ∉ markChars.map some)
    ⟨fun ⟨nonempty, trimmed, noComma, noMark⟩ => ⟨nonempty, trimmed, noComma, noMark⟩,
      fun ⟨nonempty, trimmed, noComma, noMark⟩ => ⟨nonempty, trimmed, noComma, noMark⟩⟩

def entry (flag : Flag) : String := flag.marks ++ flag.name

theorem mem_markChars {flag : Flag} : ∀ c ∈ flag.marks.toList, c ∈ markChars := by
  obtain ⟨removes, selection, name⟩ := flag
  cases removes <;> cases selection <;> simp [marks, Selection.sign, markChars]

theorem isBlank_mark {c : Char} (h : c ∈ markChars) : Text.isBlank c = false := by
  simp only [markChars, List.mem_cons, List.not_mem_nil, or_false] at h
  obtain rfl | rfl | rfl := h <;> rfl

theorem comma_not_mem_markChars : ',' ∉ markChars := by decide

namespace PlainName

variable {flag : Flag} (h : PlainName flag.name)
include h

theorem head?_ne {mark : Char} (isMark : mark ∈ markChars) :
    flag.name.toList.head? ≠ some mark :=
  fun same => h.noMark (same ▸ List.mem_map_of_mem isMark)

theorem spells : Spells flag.entry flag := by
  refine ⟨rfl, fun kept => ?_, fun _ => ⟨h.head?_ne (by decide), h.head?_ne (by decide)⟩⟩
  have caret : flag.name.toList.head? ≠ some '^' := h.head?_ne (by decide)
  cases selected : flag.selection <;> simp [entry, marks, kept, selected, Selection.sign, caret]

theorem trim_entry : Text.trim flag.entry = flag.entry :=
  Text.trim_append (fun c member => isBlank_mark (mem_markChars c member)) h.nonempty h.trimmed

theorem comma_not_mem_entry : ',' ∉ flag.entry.toList := by
  rw [entry, String.toList_append, List.mem_append]
  rintro (mark | inside)
  · exact comma_not_mem_markChars (mem_markChars _ mark)
  · exact h.noComma inside

theorem entry_ne_empty : flag.entry ≠ "" := by
  rw [entry, Ne, String.append_eq_empty_iff]
  exact fun empty => h.nonempty empty.2

end PlainName

theorem list_intercalate {flags : List Flag} (plain : ∀ flag ∈ flags, PlainName flag.name) :
    list (",".intercalate (flags.map entry)) = flags := by
  have items : Text.items ',' (",".intercalate (flags.map entry)) = flags.map entry := by
    refine Text.items_intercalate ?_ ?_ ?_ <;> rw [List.forall_mem_map]
    · exact fun flag member => (plain flag member).comma_not_mem_entry
    · exact fun flag member => (plain flag member).trim_entry
    · exact fun flag member => (plain flag member).entry_ne_empty
  have read : ∀ flag ∈ flags, (ofText ∘ entry) flag = flag := fun flag member =>
    spells_iff.1 (plain flag member).spells
  rw [list, items, List.map_map, List.map_congr_left read, List.map_id']

variable {classes : List EventClass}

theorem last?_eq_some_iff {flags : List Flag} {flag : Flag} {o : Outcome} {k : Nat} :
    last? classes flags o k = some flag ↔ ∃ front after, flags = front ++ flag :: after ∧
      flag.mentions classes o k = true ∧ ∀ later ∈ after, later.mentions classes o k = false := by
  rw [last?, List.getLast?_eq_some_iff]
  constructor
  · rintro ⟨_, mentioned⟩
    obtain ⟨front, back, rfl, -, last⟩ := List.filter_eq_append_iff.1 mentioned
    obtain ⟨between, after, rfl, -, mentions, silent⟩ := List.filter_eq_cons_iff.1 last
    refine ⟨front ++ between, after, ?_, mentions, ?_⟩
    · simp
    · simpa [List.filter_eq_nil_iff] using silent
  · rintro ⟨front, after, rfl, mentions, silent⟩
    refine ⟨front.filter (Flag.mentions classes o k), ?_⟩
    simpa [List.filter_append, mentions, List.filter_eq_nil_iff] using silent

end Flag

/-- A flag list is cut at its commas, and of the parts those that are not blank are its entries,
without the blanks around them. If one of them names no class, the list is refused for the first
that does so. Otherwise a class bit is audited for an outcome if an entry is about both, and the
last entry that is does not take it out. -/
theorem Mask.ofFlags_last_mention (classes : List EventClass) (text : String) :
    ∃ (parts : List String) (flags : List Flag),
      text = ",".intercalate parts ∧ parts ≠ [] ∧ (∀ part ∈ parts, ',' ∉ part.toList) ∧
      List.Forall₂ Flag.Spells ((parts.map Text.trim).filter (· != "")) flags ∧
      ((∃ flag ∈ flags, ¬flag.Known classes) →
        ∃ front flag after e, flags = front ++ flag :: after ∧
          (∀ earlier ∈ front, earlier.Known classes) ∧ ¬flag.Known classes ∧
          ofFlags classes text = .error e ∧
          e.toError = ⟨.notFound, "unknown audit class " ++ Text.quoted flag.name⟩) ∧
      ((∀ flag ∈ flags, flag.Known classes) →
        ∃ m, ofFlags classes text = .ok m ∧ ∀ o k, (m.on o).toBitVec.getLsbD k = true ↔
          ∃ front flag after, flags = front ++ flag :: after ∧
            flag.mentions classes o k = true ∧
            (∀ later ∈ after, later.mentions classes o k = false) ∧ flag.removes = false) := by
  refine ⟨Text.split ',' text, Flag.list text, (Text.intercalate_split text).symm,
    Text.split_ne_nil text, Text.not_mem_split, ?_, fun unknown => ?_, fun known => ?_⟩
  · rw [Flag.list, Text.items, Text.fields, List.forall₂_map_right_iff, List.forall₂_same]
    exact fun entry _ => Flag.spells_iff.2 rfl
  · obtain ⟨front, flag, after, parts, known, absent, refused⟩ := ofFlags_of_not_known unknown
    exact ⟨front, flag, after, _, parts, known, absent, refused, rfl⟩
  · obtain ⟨m, read, audited⟩ := ofFlags_of_known known
    refine ⟨m, read, fun o k => ?_⟩
    rw [← audits, audited, Flag.Audited]
    constructor
    · rintro ⟨flag, last, puts⟩
      obtain ⟨front, after, parts, mentions, silent⟩ := Flag.last?_eq_some_iff.1 last
      exact ⟨front, flag, after, parts, mentions, silent, puts⟩
    · rintro ⟨front, flag, after, parts, mentions, silent, puts⟩
      exact ⟨flag, Flag.last?_eq_some_iff.2 ⟨front, after, parts, mentions, silent⟩, puts⟩

end AuditTrail

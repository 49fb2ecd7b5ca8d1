import AuditTrail.Config.Entries
import AuditTrail.Proofs.Except
import AuditTrail.Proofs.Text.Lines
import AuditTrail.Proofs.Text.Trimmed

namespace AuditTrail.Config

def Carries (line : String) : Prop :=
  Text.trim line ≠ "" ∧ (Text.trim line).toList.head? ≠ some '#'

instance (line : String) : Decidable (Carries line) := inferInstanceAs (Decidable (_ ∧ _))

theorem carriesEntry_trim (line : String) :
    carriesEntry (Text.trim line) = decide (Carries line) := by
  rw [carriesEntry, Bool.eq_iff_iff, decide_eq_true_iff, Bool.and_eq_true, bne_iff_ne,
    Option.isNone_iff_eq_none, Text.after?_eq_none_iff, Carries]

def entryLines (text : String) : List String :=
  ((Text.lines text).filter (Carries ·)).map Text.trim

def numbered (n : Nat) (lines : List String) : List (Nat × String) :=
  ((lines.zipIdx n).filter (carriesEntry ·.1)).map fun (line, n) => (n, line)

theorem numbered_cons (n : Nat) (line : String) (lines : List String) :
    numbered n (line :: lines) =
      if carriesEntry line then (n, line) :: numbered (n + 1) lines
      else numbered (n + 1) lines := by
  rw [numbered, List.zipIdx_cons, List.filter_cons]
  split <;> rfl

theorem numbered_append_blank (n : Nat) (lines : List String) :
    numbered n (lines ++ [""]) = numbered n lines := by
  rw [numbered, List.zipIdx_append, List.filter_append, numbered]
  exact congrArg _ (List.append_nil _)

theorem entries_eq (text : String) :
    entries text = numbered 1 ((Text.lines text).map Text.trim) := by
  obtain ⟨tail, rfl | rfl, same⟩ := Text.fields_eq_lines text
  · rw [entries, same, List.append_nil, numbered]
  · rw [← numbered_append_blank, ← same, entries, numbered]

theorem map_snd_numbered (n : Nat) (lines : List String) :
    (numbered n (lines.map Text.trim)).map (·.2) = (lines.filter (Carries ·)).map Text.trim := by
  induction lines generalizing n with
  | nil => rfl
  | cons line lines ih =>
    rw [List.map_cons, numbered_cons, carriesEntry_trim, List.filter_cons]
    split
    · rw [List.map_cons, List.map_cons, ih]
    · exact ih (n + 1)

theorem map_snd_entries (text : String) : (entries text).map (·.2) = entryLines text := by
  rw [entries_eq, map_snd_numbered, entryLines]

structure IsEntry (entry : String) : Prop where
  carries : Carries entry
  trimmed : Text.trim entry = entry
  whole : '\n' ∉ entry.toList

theorem isEntry_of_mem {text : String} : ∀ entry ∈ entryLines text, IsEntry entry := by
  intro entry member
  obtain ⟨line, among, rfl⟩ := List.mem_map.1 member
  obtain ⟨among, carries⟩ := List.mem_filter.1 among
  refine ⟨?_, Text.trim_trim line, fun feed => ?_⟩
  · rw [Carries, Text.trim_trim]
    exact of_decide_eq_true carries
  · exact Text.not_mem_lines line among (Text.mem_of_mem_trim feed)

theorem IsEntry.bare {entry : String} (h : IsEntry entry) : entry.toList.getLast? ≠ some '\r' := by
  intro last
  cases (Text.trim_eq_self_iff.1 h.trimmed).2 '\r' last

theorem entryLines_join {entries : List String} (h : ∀ entry ∈ entries, IsEntry entry) :
    entryLines (String.join (entries.map (· ++ "\n"))) = entries := by
  induction entries with
  | nil => rfl
  | cons entry entries ih =>
    rw [List.forall_mem_cons] at h
    rw [List.map_cons, String.join_cons, entryLines, Text.lines_append h.1.whole h.1.bare,
      List.filter_cons, if_pos (decide_eq_true h.1.carries), List.map_cons, h.1.trimmed]
    exact congrArg _ (ih h.2)

variable {file : File} {read : String → Except EntryError α}

theorem readEntries_eq_ok_iff {text : String} {as : List α} :
    readEntries file read text = .ok as ↔ (entryLines text).map read = as.map .ok := by
  constructor
  · intro h
    rw [← map_snd_entries, List.map_map]
    exact map_of_mapM_ok (fun entry a => mapError_eq_ok.1) h
  · intro h
    rw [← map_snd_entries, List.map_map] at h
    rw [readEntries, mapM_eq_ok_iff]
    exact map_of_mapM_ok (fun entry a => mapError_eq_ok.2) (mapM_eq_ok_iff.2 h)

def readLine (file : File) (read : String → Except EntryError α) :
    Nat × String → Except FileError α :=
  fun (n, entry) => (read entry).mapError (⟨file, n, ·⟩)

def Refuses (read : String → Except EntryError α) (line : String) (cause : EntryError) : Prop :=
  Carries line ∧ read (Text.trim line) = .error cause

/-- The first of some lines that is refused has this many others before it. -/
def FirstRefused (read : String → Except EntryError α) (lines : List String) (k : Nat)
    (cause : EntryError) : Prop :=
  ∃ before line after, lines = before ++ line :: after ∧ before.length = k ∧
    Refuses read line cause ∧ ∀ earlier ∈ before, ∀ other, ¬Refuses read earlier other

theorem firstRefused_cons {line : String} {lines : List String} {k : Nat} {cause : EntryError} :
    FirstRefused read (line :: lines) k cause ↔ k = 0 ∧ Refuses read line cause ∨
      (∀ other, ¬Refuses read line other) ∧ ∃ j, k = j + 1 ∧ FirstRefused read lines j cause := by
  constructor
  · rintro ⟨before, refused, after, parts, rfl, refuses, accepted⟩
    cases before with
    | nil =>
      cases parts
      exact .inl ⟨rfl, refuses⟩
    | cons first before =>
      cases parts
      rw [List.forall_mem_cons] at accepted
      exact .inr ⟨accepted.1, before.length, rfl, before, refused, after, rfl, rfl, refuses,
        accepted.2⟩
  · rintro (⟨rfl, refuses⟩ | ⟨first, _, rfl, before, refused, after, rfl, rfl, refuses, accepted⟩)
    · exact ⟨[], line, lines, rfl, rfl, refuses, List.forall_mem_nil _⟩
    · exact ⟨line :: before, refused, after, rfl, rfl, refuses,
        List.forall_mem_cons.2 ⟨first, accepted⟩⟩

theorem exists_firstRefused_iff {lines : List String} :
    (∃ k cause, FirstRefused read lines k cause) ↔
      ∃ line ∈ lines, ∃ cause, Refuses read line cause := by
  constructor
  · rintro ⟨k, cause, before, line, after, rfl, -, refuses, -⟩
    exact ⟨line, by simp, cause, refuses⟩
  · induction lines with
    | nil => simp
    | cons line lines ih =>
      intro some
      by_cases first : ∃ cause, Refuses read line cause
      · obtain ⟨cause, refuses⟩ := first
        exact ⟨0, cause, firstRefused_cons.2 (.inl ⟨rfl, refuses⟩)⟩
      · have accepted := not_exists.1 first
        obtain ⟨_, _ | ⟨_, member⟩, refused⟩ := some
        · exact absurd refused first
        · obtain ⟨k, cause, later⟩ := ih ⟨_, member, refused⟩
          exact ⟨k + 1, cause, firstRefused_cons.2 (.inr ⟨accepted, k, rfl, later⟩)⟩

theorem firstRefused_cons_of_accepted {line : String} {lines : List String}
    (accepted : ∀ other, ¬Refuses read line other) {k : Nat} {cause : EntryError} :
    FirstRefused read (line :: lines) k cause ↔
      ∃ j, k = j + 1 ∧ FirstRefused read lines j cause := by
  rw [firstRefused_cons, or_iff_right fun h => accepted cause h.2, and_iff_right accepted]

theorem readLines_cons_of_refuses {line : String} {cause : EntryError}
    (refuses : Refuses read line cause) (n : Nat) (lines : List String) :
    (numbered n ((line :: lines).map Text.trim)).mapM (readLine file read) =
      .error ⟨file, n, cause⟩ := by
  rw [List.map_cons, numbered_cons, carriesEntry_trim, if_pos (decide_eq_true refuses.1),
    List.mapM_cons, readLine, refuses.2]
  rfl

theorem readLines_cons_of_accepted {line : String} (accepted : ∀ other, ¬Refuses read line other)
    (n : Nat) (lines : List String) {e : FileError} :
    (numbered n ((line :: lines).map Text.trim)).mapM (readLine file read) = .error e ↔
      (numbered (n + 1) (lines.map Text.trim)).mapM (readLine file read) = .error e := by
  rw [List.map_cons, numbered_cons, carriesEntry_trim]
  by_cases carries : Carries line
  · rw [if_pos (decide_eq_true carries), List.mapM_cons]
    cases told : read (Text.trim line) with
    | ok a =>
      rw [readLine, told]
      cases (numbered (n + 1) (lines.map Text.trim)).mapM (readLine file read) with
      | ok others => exact iff_of_false nofun nofun
      | error e => exact Iff.rfl
    | error cause => exact absurd ⟨carries, told⟩ (accepted cause)
  · rw [if_neg (by simpa using carries)]

theorem readLines_eq_error_iff (n : Nat) (lines : List String) {e : FileError} :
    (numbered n (lines.map Text.trim)).mapM (readLine file read) = .error e ↔
      ∃ k cause, FirstRefused read lines k cause ∧ e = ⟨file, n + k, cause⟩ := by
  induction lines generalizing n with
  | nil =>
    refine iff_of_false nofun ?_
    rintro ⟨k, cause, ⟨before, line, after, parts, -⟩, -⟩
    simp at parts
  | cons line lines ih =>
    by_cases first : ∃ cause, Refuses read line cause
    · obtain ⟨cause, refuses⟩ := first
      rw [readLines_cons_of_refuses refuses, Except.error.injEq]
      constructor
      · rintro rfl
        exact ⟨0, cause, firstRefused_cons.2 (.inl ⟨rfl, refuses⟩), rfl⟩
      · rintro ⟨k, other, refused, rfl⟩
        rcases firstRefused_cons.1 refused with ⟨rfl, here⟩ | ⟨accepted, -⟩
        · cases refuses.2.symm.trans here.2
          rfl
        · exact absurd refuses (accepted cause)
    · have accepted := not_exists.1 first
      rw [readLines_cons_of_accepted accepted, ih]
      simp only [firstRefused_cons_of_accepted accepted]
      constructor
      · rintro ⟨k, cause, later, rfl⟩
        exact ⟨k + 1, cause, ⟨k, rfl, later⟩, by rw [Nat.add_right_comm, Nat.add_assoc]⟩
      · rintro ⟨_, cause, ⟨k, rfl, later⟩, rfl⟩
        exact ⟨k, cause, later, by rw [Nat.add_right_comm, Nat.add_assoc]⟩

theorem readEntries_eq_error_iff {text : String} {e : FileError} :
    readEntries file read text = .error e ↔
      ∃ k cause, FirstRefused read (Text.lines text) k cause ∧ e = ⟨file, 1 + k, cause⟩ := by
  rw [readEntries, entries_eq]
  exact readLines_eq_error_iff 1 (Text.lines text)

end AuditTrail.Config

import AuditTrail.Config.Users
import AuditTrail.Proofs.Database.Tables

namespace AuditTrail

namespace Config

/-- A file is accepted if no line of it is refused, or else the first refused line is told by its
number and with what is wrong with it. -/
structure TellsFirst (name : String) (read : String → Except EntryError α) (text : String)
    (told : Except FileError β) : Prop where
  accepted_iff : (∃ b, told = .ok b) ↔ ∀ line ∈ Text.lines text, ∀ cause, ¬Refuses read line cause
  error_iff : ∀ e, told.mapError FileError.toError = .error e ↔
    ∃ k cause, FirstRefused read (Text.lines text) k cause ∧
      e = ⟨cause.kind, s!"{name} line {k + 1}: {cause.message}"⟩

variable {file : File} {read : String → Except EntryError α} {text : String}

theorem exists_readEntries_eq_error_iff :
    (∃ e, readEntries file read text = .error e) ↔
      ∃ line ∈ Text.lines text, ∃ cause, Refuses read line cause := by
  simp only [readEntries_eq_error_iff, ← exists_firstRefused_iff]
  constructor
  · rintro ⟨e, k, cause, refused, -⟩
    exact ⟨k, cause, refused⟩
  · rintro ⟨k, cause, refused⟩
    exact ⟨_, k, cause, refused, rfl⟩

theorem tellsFirst_readEntries (file : File) (f : List α → β) :
    TellsFirst file.name read text ((readEntries file read text).map f) where
  accepted_iff := by
    rw [exists_map_eq_ok_iff, exists_readEntries_eq_error_iff]
    push Not
    rfl
  error_iff e := by
    simp only [mapError_eq_error, map_eq_error, readEntries_eq_error_iff]
    constructor
    · rintro ⟨_, ⟨k, cause, refused, rfl⟩, rfl⟩
      exact ⟨k, cause, refused, by rw [Nat.add_comm]; rfl⟩
    · rintro ⟨k, cause, refused, rfl⟩
      exact ⟨_, ⟨k, cause, refused, rfl⟩, by rw [Nat.add_comm]; rfl⟩

end Config

open Config

/-- Every configuration file tells of its first refused line. The tables of the database are two
files: one with a refused class tells of that, whatever the events are; with every class accepted,
the events are read for these classes and it is they that are told of. -/
theorem Config.tellsFirst :
    (∀ text, TellsFirst "audit_control" ControlEntry.read text (Control.read text)) ∧
      (∀ classes text,
        TellsFirst "audit_user" (UserEntry.read classes) text (UserEntry.readAll classes text)) ∧
      ∀ classes events, let told := Database.ofTables classes events
        ((∃ line ∈ Text.lines classes, ∃ cause, Refuses EventClass.read line cause) ∧
            TellsFirst "audit_class" EventClass.read classes told) ∨
          ∃ cs : List EventClass, (entryLines classes).map EventClass.read = cs.map .ok ∧
            TellsFirst "audit_event" (Event.read (cs.foldl Database.addClass {}).classes) events
              told := by
  refine ⟨fun text => tellsFirst_readEntries .control _, fun classes text => ?_,
    fun classes events => ?_⟩
  · rw [← id_map (UserEntry.readAll classes text)]
    exact tellsFirst_readEntries .users id
  · cases told : readEntries .classes EventClass.read classes with
    | ok cs =>
      refine .inr ⟨cs, readEntries_eq_ok_iff.1 told, ?_⟩
      rw [Database.ofTables_of_classes_ok told]
      exact tellsFirst_readEntries .events _
    | error e =>
      refine .inl ⟨exists_readEntries_eq_error_iff.1 ⟨e, told⟩, ?_⟩
      rw [Database.ofTables_of_classes_error told]
      exact tellsFirst_readEntries .classes _

end AuditTrail

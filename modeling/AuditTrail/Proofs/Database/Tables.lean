import AuditTrail.Database.Tables
import AuditTrail.Proofs.Config.Entries
import AuditTrail.Proofs.Database.Latest
import AuditTrail.Proofs.Database.Numbers

namespace AuditTrail.Database

open Config

variable {classes : String}

theorem ofTables_of_classes_error {e : FileError}
    (refused : readEntries .classes EventClass.read classes = .error e) (events : String) :
    ofTables classes events =
      (readEntries .classes EventClass.read classes).map (·.foldl addClass {}) := by
  rw [ofTables, refused]
  rfl

theorem ofTables_of_classes_ok {cs : List EventClass}
    (accepted : readEntries .classes EventClass.read classes = .ok cs) (events : String) :
    ofTables classes events =
      (readEntries .events (Event.read (cs.foldl addClass {}).classes) events).map
        (·.foldl addEvent (cs.foldl addClass {})) := by
  rw [ofTables, accepted]
  exact (map_eq_pure_bind (m := Except FileError) _ _).symm

theorem edited_classes (cs : List EventClass) :
    edited (cs.map .addClass) = cs.foldl addClass {} := List.foldl_map

theorem edited_events (cs : List EventClass) (es : List Event) :
    edited (cs.map .addClass ++ es.map .addEvent) =
      es.foldl addEvent (cs.foldl addClass {}) := by
  rw [← edited_classes, edited, List.foldl_append, List.foldl_map]
  rfl

theorem ofTables_eq_ok_iff {events : String} {db : Database} :
    ofTables classes events = .ok db ↔ ∃ (cs : List EventClass) (es : List Event),
      (entryLines classes).map EventClass.read = cs.map .ok ∧
      (entryLines events).map (Event.read (edited (cs.map .addClass)).classes) = es.map .ok ∧
      db = edited (cs.map .addClass ++ es.map .addEvent) := by
  simp only [ofTables, bind_eq_ok, readEntries_eq_ok_iff, edited_classes, edited_events]
  constructor
  · rintro ⟨cs, hclasses, es, hevents, ⟨⟩⟩
    exact ⟨cs, es, hclasses, hevents, rfl⟩
  · rintro ⟨cs, es, hclasses, hevents, rfl⟩
    exact ⟨cs, hclasses, es, hevents, rfl⟩

/-- However a database is edited, it has what was put last under each key and was not erased since.
Tables are read as edits: all classes, then all events, for the classes that there are in the end;
and each entry is read field by field. -/
theorem reflects_edits :
    (∀ edits, (edited edits).Reflects edits) ∧
      (∀ classes events db, ofTables classes events = .ok db ↔
        ∃ (cs : List EventClass) (es : List Event),
          (entryLines classes).map EventClass.read = cs.map .ok ∧
          (entryLines events).map (Event.read (edited (cs.map .addClass)).classes) = es.map .ok ∧
          db = edited (cs.map .addClass ++ es.map .addEvent)) ∧
      (∀ entry c, EventClass.read entry = .ok c ↔ ∃ mask,
        Text.fields ':' entry = [mask, c.name, c.description] ∧
          "" ∉ [mask, c.name, c.description] ∧ Numeral.Denotes mask.toList c.mask.toNat) ∧
      ∀ classes entry event, Event.read classes entry = .ok event ↔ ∃ number flags,
        Text.fields ':' entry = [number, event.name, event.description, flags] ∧
          "" ∉ [number, event.name, event.description, flags] ∧
          Numeral.Denotes number.toList event.number.toNat ∧
          Event.Belongs classes flags event.mask :=
  ⟨reflects_edited, fun _ _ _ => ofTables_eq_ok_iff, fun _ _ => EventClass.read_eq_ok_iff,
    fun _ _ _ => Event.read_eq_ok_iff⟩

end AuditTrail.Database

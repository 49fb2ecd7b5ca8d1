import AuditTrail.Config.Entries
import AuditTrail.Config.Flags
import AuditTrail.Text.Numeral

namespace AuditTrail

open Config

def Config.readNumber (s : String) : Except EntryError UInt32 :=
  let number? :=
    match s.toList with
    | '0' :: 'x' :: digits | '0' :: 'X' :: digits =>
      Numeral.unsigned? 16 4294967296 (String.ofList digits)
    | _ => Numeral.unsigned? 10 4294967296 s
  match number? with
  | some n => .ok (UInt32.ofNat n)
  | none => .error (.notNumber s)

def EventClass.read (entry : String) : Except EntryError EventClass :=
  match Text.fields ':' entry with
  | [mask, name, description] =>
    if mask = "" ∨ name = "" ∨ description = "" then .error (.classFields entry)
    else do return { mask := ← readNumber mask, name, description }
  | _ => .error (.classFields entry)

def Config.readEventNumber (s : String) : Except EntryError UInt16 := do
  let n ← readNumber s
  if n.toNat < 65536 then return n.toUInt16 else throw (.eventNumber s)

/-- Reads an event: its number, its name, its description and the flag list of its classes, of
which the successes count. With a list that names an unknown class, it belongs to none. -/
def Event.read (classes : List EventClass) (entry : String) : Except EntryError Event :=
  match Text.fields ':' entry with
  | [number, name, description, flags] =>
    if number = "" ∨ name = "" ∨ description = "" ∨ flags = "" then .error (.eventFields entry)
    else do
      let number ← readEventNumber number
      let mask :=
        match Mask.ofFlags classes flags with
        | .ok m => m.success
        | .error _ => 0
      return { number, name, description, mask }
  | _ => .error (.eventFields entry)

def Database.ofTables (classes events : String) : Except FileError Database := do
  let db := (← readEntries .classes EventClass.read classes).foldl addClass {}
  return (← readEntries .events (Event.read db.classes) events).foldl addEvent db

end AuditTrail

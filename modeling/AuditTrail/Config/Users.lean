import AuditTrail.Config.Control

namespace AuditTrail

open Config

structure UserEntry where
  name : String
  always : Mask
  never : Mask
  deriving DecidableEq

namespace UserEntry

def read (classes : List EventClass) (entry : String) : Except EntryError UserEntry :=
  match Text.fields ':' entry with
  | [name, always, never] =>
    if name = "" then .error .noUserName
    else do
      return { name, always := ← Mask.ofFlags classes always,
               never := ← Mask.ofFlags classes never }
  | _ => .error (.userFields entry)

def readAll (classes : List EventClass) (text : String) : Except FileError (List UserEntry) :=
  readEntries .users (read classes) text

end UserEntry

/-- The mask of a user: the one for everybody with what is always audited for the user, and
without what is never. -/
def userMask (classes : List EventClass) (control : Control) (user : Option UserEntry) :
    Except EntryError Mask := do
  let system ← control.systemMask classes
  match user with
  | some u => return (system.union u.always).diff u.never
  | none => return system

end AuditTrail

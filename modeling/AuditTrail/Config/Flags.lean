import AuditTrail.Config.Error
import AuditTrail.Database.Basic
import AuditTrail.Mask
import AuditTrail.Text.Fields

/-! Flag lists: masks written as names of classes between commas. `+` and `-` before a name stand
for one outcome, success and failure; `^` before that takes the class out again. -/

namespace AuditTrail

structure Flag where
  removes : Bool
  selection : Selection
  name : String
  deriving DecidableEq

namespace Flag

def signed (s : String) : Selection × String :=
  match Text.after? '+' s, Text.after? '-' s with
  | some name, _ => (.success, name)
  | none, some name => (.failure, name)
  | none, none => (.both, s)

def ofText (s : String) : Flag :=
  let (removes, rest) :=
    match Text.after? '^' s with
    | some rest => (true, rest)
    | none => (false, s)
  let (selection, name) := signed rest
  { removes, selection, name }

def list (text : String) : List Flag :=
  (Text.items ',' text).map ofText

def apply (classes : List EventClass) (m : Mask) (flag : Flag) :
    Except Config.EntryError Mask :=
  match classes.find? (·.name == flag.name) with
  | none => .error (.unknownClass flag.name)
  | some c =>
    .ok (if flag.removes then m.remove c.mask flag.selection else m.add c.mask flag.selection)

end Flag

namespace Mask

def ofFlags (classes : List EventClass) (text : String) : Except Config.EntryError Mask :=
  (Flag.list text).foldlM (Flag.apply classes) {}

/-- How a mask selects all bits of a class, if it does so for an outcome. -/
def sign? (m : Mask) (bits : UInt32) : Option String :=
  match bits &&& m.success == bits, bits &&& m.failure == bits with
  | true, true => some ""
  | true, false => some "+"
  | false, true => some "-"
  | false, false => none

def flags (classes : List EventClass) (verbose : Bool) (m : Mask) : String :=
  let parts := (classes.filter (·.mask != 0)).filterMap fun c =>
    (m.sign? c.mask).map (· ++ if verbose then c.description else c.name)
  ",".intercalate parts

end Mask

end AuditTrail

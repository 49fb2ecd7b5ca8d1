import AuditTrail.Config.Entries
import AuditTrail.Config.Flags
import AuditTrail.Config.Policy
import AuditTrail.Text.Numeral

namespace AuditTrail

open Config

inductive Setting
  | directory (path : String)
  | flags (text : String)
  | unattributedFlags (text : String)
  | freeSpace (percent : UInt32)
  | trailSize (size : UInt64)
  | policy (bits : UInt32)
  | host (name : String)
  deriving DecidableEq

namespace Setting

def leastTrailSize : Nat := 524288

def readFreeSpace (value : String) : Except EntryError UInt32 :=
  match Numeral.unsigned? 10 4294967296 value with
  | some n => .ok (UInt32.ofNat n)
  | none => .error (.freeSpace value)

def readTrailSize (value : String) : Except EntryError UInt64 :=
  match Numeral.unsigned? 10 18446744073709551616 value with
  | some n =>
    if 0 < n ∧ n < leastTrailSize then .error (.trailSizeTooSmall n leastTrailSize)
    else .ok (UInt64.ofNat n)
  | none => .error (.trailSize value)

def read (key value : String) : Except EntryError (Option Setting) :=
  match key with
  | "dir" => .ok (some (.directory value))
  | "flags" => .ok (some (.flags value))
  | "naflags" => .ok (some (.unattributedFlags value))
  | "minfree" => (readFreeSpace value).map (some <| .freeSpace ·)
  | "filesz" => (readTrailSize value).map (some <| .trailSize ·)
  | "policy" => (Policy.readBits value).map (some <| .policy ·)
  | "host" => .ok (some (.host value))
  | _ => .ok none

end Setting

structure ControlEntry where
  key : String
  value : String
  setting : Option Setting
  deriving DecidableEq

def ControlEntry.read (entry : String) : Except EntryError ControlEntry :=
  match Text.cut? ':' entry with
  | none => .error (.noKey entry)
  | some (key, value) => do
    let key := Text.trim key
    let value := Text.trim value
    return { key, value, setting := ← Setting.read key value }

structure Control where
  entries : List (String × String) := []
  directories : List String := []
  flags : Option String := none
  unattributedFlags : Option String := none
  freeSpace : Option UInt32 := none
  trailSize : Option UInt64 := none
  policy : Option UInt32 := none
  host : Option String := none
  deriving DecidableEq

namespace Control

/-- Directories add up; of every other setting the last one counts. -/
def set (c : Control) : Setting → Control
  | .directory path => { c with directories := c.directories ++ [path] }
  | .flags text => { c with flags := text }
  | .unattributedFlags text => { c with unattributedFlags := text }
  | .freeSpace percent => { c with freeSpace := percent }
  | .trailSize size => { c with trailSize := size }
  | .policy bits => { c with policy := bits }
  | .host name => { c with host := name }

def add (c : Control) (entry : ControlEntry) : Control :=
  let c := { c with entries := c.entries ++ [(entry.key, entry.value)] }
  match entry.setting with
  | some setting => c.set setting
  | none => c

def read (text : String) : Except FileError Control :=
  (readEntries .control ControlEntry.read text).map (·.foldl add {})

def get? (c : Control) (key : String) : Option String :=
  c.entries.reverse.lookup key

def maskOf (classes : List EventClass) (flags : Option String) : Except EntryError Mask :=
  match flags with
  | some text => Mask.ofFlags classes text
  | none => .ok {}

def systemMask (c : Control) (classes : List EventClass) : Except EntryError Mask :=
  maskOf classes c.flags

def unattributedMask (c : Control) (classes : List EventClass) : Except EntryError Mask :=
  maskOf classes c.unattributedFlags

end Control

end AuditTrail

import AuditTrail.Config.Error
import AuditTrail.Text.Fields

namespace AuditTrail.Config

def carriesEntry (line : String) : Bool :=
  line != "" && (Text.after? '#' line).isNone

/-- The entries of a text without the blanks around them, each with the number of its line. Every
line counts, from one. -/
def entries (text : String) : List (Nat × String) :=
  (((Text.fields '\n' text).zipIdx 1).filter (carriesEntry ·.1)).map fun (line, n) => (n, line)

def readEntries (file : File) (read : String → Except EntryError α) (text : String) :
    Except FileError (List α) :=
  (entries text).mapM fun (n, entry) => (read entry).mapError (⟨file, n, ·⟩)

end AuditTrail.Config

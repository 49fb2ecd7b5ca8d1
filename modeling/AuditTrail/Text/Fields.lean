import AuditTrail.Text.Blank
import AuditTrail.Text.Split

namespace AuditTrail.Text

def fields (sep : Char) (s : String) : List String :=
  (split sep s).map trim

def items (sep : Char) (s : String) : List String :=
  (fields sep s).filter (· != "")

end AuditTrail.Text

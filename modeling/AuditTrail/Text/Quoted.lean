import AuditTrail.Text.Numeral
import AuditTrail.Text.Unprintable

namespace AuditTrail.Text

/-- How a character stands inside quotation marks: the marks themselves, the backslash and four
controls have escapes of their own, what does not print is named by its number. -/
def escaped (c : Char) : String :=
  match c with
  | '"' => "\\\""
  | '\\' => "\\\\"
  | '\t' => "\\t"
  | '\r' => "\\r"
  | '\n' => "\\n"
  | '\x00' => "\\0"
  | _ =>
    if isUnprintable c then "\\u\x7b" ++ Numeral.print 16 c.toNat ++ "\x7d"
    else String.singleton c

def quoted (s : String) : String :=
  "\"" ++ String.join (s.toList.map escaped) ++ "\""

end AuditTrail.Text

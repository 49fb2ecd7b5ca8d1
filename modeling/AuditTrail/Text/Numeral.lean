namespace AuditTrail.Numeral

def print (base n : Nat) : String :=
  String.ofList (Nat.toDigits base n)

abbrev decimal (n : Nat) : String := print 10 n

def hexByte (b : UInt8) : String :=
  String.ofList [Nat.digitChar (b.toNat / 16), Nat.digitChar (b.toNat % 16)]

def signed32 (w : UInt32) : String :=
  if w.toNat < 2147483648 then decimal w.toNat else "-" ++ decimal (4294967296 - w.toNat)

def padded (fill : Char) (width n : Nat) : String :=
  let digits := Nat.toDigits 10 n
  String.ofList (List.replicate (width - digits.length) fill ++ digits)

def marked (n : Nat) : String :=
  if n = 0 then "0" else "0x" ++ print 16 n

def digit? (base : Nat) (c : Char) : Option Nat :=
  let value :=
    if '0' ≤ c ∧ c ≤ '9' then some (c.toNat - '0'.toNat)
    else if 'a' ≤ c ∧ c ≤ 'f' then some (c.toNat - 'a'.toNat + 10)
    else if 'A' ≤ c ∧ c ≤ 'F' then some (c.toNat - 'A'.toNat + 10)
    else none
  value.filter (· < base)

def digits? (base : Nat) : List Char → Option Nat
  | [] => none
  | cs => cs.foldlM (fun n c => (digit? base c).map (base * n + ·)) 0

/-- Reads an unsigned number below a limit: an optional `+`, then one or more digits. -/
def unsigned? (base limit : Nat) (s : String) : Option Nat :=
  let digits :=
    match s.toList with
    | '+' :: cs => cs
    | cs => cs
  (digits? base digits).filter (· < limit)

end AuditTrail.Numeral

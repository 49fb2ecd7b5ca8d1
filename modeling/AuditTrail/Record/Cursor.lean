import AuditTrail.Token.Codec

namespace AuditTrail

structure TokenError where
  offset : Nat
  cause : Token.DecodeError
  deriving DecidableEq

def TokenError.toError (e : TokenError) : Error :=
  ⟨e.cause.kind, s!"at record offset {e.offset}: {e.cause.message}"⟩

structure TokenCursor where
  rest : List UInt8
  offset : Nat := 0
  failed : Bool := false
  deriving DecidableEq

namespace TokenCursor

/-- The next token and the cursor behind it. A token that fails is reported once and ends the
walk where it starts. -/
def next (c : TokenCursor) : Option (Except TokenError Token × TokenCursor) :=
  if c.failed || c.rest.isEmpty then none
  else
    match Token.decode c.rest with
    | .ok (token, used) => some (.ok token, ⟨c.rest.drop used, c.offset + used, false⟩)
    | .error cause => some (.error ⟨c.offset, cause⟩, { c with failed := true })

def size (c : TokenCursor) : Nat := c.rest.length + if c.failed then 0 else 1

theorem size_of_next {c d : TokenCursor} {item : Except TokenError Token}
    (h : c.next = some (item, d)) : d.size < c.size := by
  unfold next at h
  split at h
  · cases h
  · rename_i hc
    simp only [Bool.or_eq_true, not_or, Bool.not_eq_true, List.isEmpty_eq_false_iff] at hc
    split at h
    · rename_i used hdecode
      cases h
      have := Token.one_le_of_decode hdecode
      have := List.length_pos_iff.2 hc.2
      simp only [size, hc.1, List.length_drop]
      omega
    · cases h
      simp [size, hc.1]

def walk (c : TokenCursor) : List (Except TokenError Token × TokenCursor) :=
  match _h : c.next with
  | none => []
  | some (item, d) => (item, d) :: d.walk
termination_by c.size
decreasing_by exact size_of_next _h

def items (c : TokenCursor) : List (Except TokenError Token) := c.walk.map (·.1)

def finish (c : TokenCursor) : TokenCursor := (c.walk.getLast?.map (·.2)).getD c

end TokenCursor

end AuditTrail

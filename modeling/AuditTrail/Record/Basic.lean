import AuditTrail.Record.Cursor

namespace AuditTrail

structure Record where
  tokens : List Token
  size : Nat
  deriving DecidableEq

namespace Record

inductive DecodeError
  | token (error : TokenError)
  /-- The first token is no header, or there is none. -/
  | noHeader
  deriving DecidableEq

def DecodeError.toError : DecodeError → Error
  | .token e => e.toError
  | .noHeader => ⟨.invalidFormat, "record does not start with a header"⟩

def header? : List Token → Option Header
  | .header h :: _ => some h
  | .headerEx h _ :: _ => some h
  | _ => none

/-- Decodes every token of a record. The first that fails is reported, before a missing header. -/
def decode (data : List UInt8) : Except DecodeError Record :=
  match (TokenCursor.mk data 0 false).items.mapM id with
  | .error e => .error (.token e)
  | .ok tokens =>
    match header? tokens with
    | some _ => .ok ⟨tokens, data.length⟩
    | none => .error .noHeader

def header (r : Record) : Option Header := header? r.tokens

def event (r : Record) : Option UInt16 := r.header.map (·.event)

/-- A record is well formed if a trailer ends it and both header and trailer announce its size. -/
def wellFormed (r : Record) : Bool :=
  match r.header, r.tokens.getLast? with
  | some h, some (.trailer magic size) =>
    magic = Token.trailerMagic && size.toNat = r.size && h.size.toNat = r.size
  | _, _ => false

end Record

end AuditTrail

import AuditTrail.Token.Codec

namespace AuditTrail

structure Stamp where
  seconds : UInt32 := 0
  milliseconds : UInt32 := 0
  deriving DecidableEq

namespace Record

def maxSize : Nat := 4294967295

def framed (event : UInt16) (stamp : Stamp) (size : UInt32) (tokens : List Token) : List Token :=
  .header { size, event, seconds := stamp.seconds, milliseconds := stamp.milliseconds } ::
    (tokens ++ [.trailer Token.trailerMagic size])

def image (event : UInt16) (stamp : Stamp) (size : UInt32) (tokens : List Token) : List UInt8 :=
  (framed event stamp size tokens).flatMap Token.encode

end Record

end AuditTrail

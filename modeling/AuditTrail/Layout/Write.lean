import AuditTrail.Layout.Basic
import AuditTrail.Text.Utf8

namespace AuditTrail

open BigEndian

def Field.write : (field : Field) → field.Carrier → List UInt8
  | .word8, w => [w]
  | .word16, w => bytes16 w
  | .word32, w => bytes32 w
  | .word64, w => bytes64 w
  | .ipv4, ip => ip.bytes
  | .ipv6, ip => ip.bytes
  | .address, host => bytes32 host.family ++ host.bytes
  | .text, s =>
    let kept := (Text.bytes s).take Layout.maxText
    bytes16 (UInt16.ofNat (kept.length + 1)) ++ kept ++ [0]
  | .texts, ss => bytes32 (UInt32.ofNat ss.length) ++ ss.flatMap fun s => Text.bytes s ++ [0]
  | .socketPath, s =>
    let kept := (Text.bytes s).take (Layout.socketPathWidth - 1)
    kept ++ List.replicate (Layout.socketPathWidth - kept.length) 0
  | .ids, ws =>
    let kept := ws.take Layout.maxIds
    bytes16 (UInt16.ofNat kept.length) ++ kept.flatMap bytes32
  | .data, bs =>
    let kept := bs.take Layout.maxData
    bytes16 (UInt16.ofNat kept.length) ++ kept
  | .elements, es =>
    let kept := es.take Layout.maxElements
    es.unit.code :: UInt8.ofNat kept.length :: kept.toBytes

def Field.size : (field : Field) → field.Carrier → Nat
  | .word8, _ => 1
  | .word16, _ => 2
  | .word32, _ => 4
  | .word64, _ => 8
  | .ipv4, _ => 4
  | .ipv6, _ => 16
  | .address, host => 4 + host.width
  | .text, s => 2 + min s.utf8ByteSize Layout.maxText + 1
  | .texts, ss => 4 + ss.foldr (fun s n => s.utf8ByteSize + 1 + n) 0
  | .socketPath, _ => Layout.socketPathWidth
  | .ids, ws => 2 + 4 * min ws.length Layout.maxIds
  | .data, bs => 2 + min bs.length Layout.maxData
  | .elements, es => 2 + min es.length Layout.maxElements * es.unit.width

namespace Layout

def write : (layout : Layout) → layout.Values → List UInt8
  | [], _ => []
  | field :: layout, (value, values) => field.write value ++ write layout values

def size : (layout : Layout) → layout.Values → Nat
  | [], _ => 0
  | field :: layout, (value, values) => field.size value + size layout values

end Layout

end AuditTrail

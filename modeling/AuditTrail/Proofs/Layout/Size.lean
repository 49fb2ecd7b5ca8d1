import AuditTrail.Layout.Write

namespace AuditTrail

open BigEndian

theorem length_flatMap_bytes16 (ws : List UInt16) :
    (ws.flatMap bytes16).length = ws.length * 2 := by
  induction ws with
  | nil => rfl
  | cons w ws ih =>
    rw [List.flatMap_cons, List.length_append, ih, length_bytes16, List.length_cons]
    omega

theorem length_flatMap_bytes32 (ws : List UInt32) :
    (ws.flatMap bytes32).length = ws.length * 4 := by
  induction ws with
  | nil => rfl
  | cons w ws ih =>
    rw [List.flatMap_cons, List.length_append, ih, length_bytes32, List.length_cons]
    omega

namespace Elements

theorem length_toBytes (es : Elements) : es.toBytes.length = es.length * es.unit.width := by
  cases es with
  | bytes values => exact (Nat.mul_one _).symm
  | shorts values => exact length_flatMap_bytes16 values
  | longs values => exact length_flatMap_bytes32 values

theorem length_take (n : Nat) (es : Elements) : (es.take n).length = min n es.length := by
  cases es <;> exact List.length_take

@[simp] theorem unit_take (n : Nat) (es : Elements) : (es.take n).unit = es.unit := by
  cases es <;> rfl

theorem take_of_length_le {n : Nat} {es : Elements} (h : es.length ≤ n) : es.take n = es := by
  cases es <;> simp only [take, List.take_of_length_le h]

end Elements

theorem length_flatMap_ended (ss : List String) :
    (ss.flatMap fun s => Text.bytes s ++ [0]).length =
      ss.foldr (fun s n => s.utf8ByteSize + 1 + n) 0 := by
  induction ss with
  | nil => rfl
  | cons s ss ih =>
    rw [List.flatMap_cons, List.length_append, ih, List.length_append, Text.length_bytes]
    rfl

theorem Field.length_write (field : Field) (value : field.Carrier) :
    (field.write value).length = field.size value := by
  cases field with
  | word8 | word16 | word32 | word64 | ipv4 | ipv6 => rfl
  | address =>
    rw [write, List.length_append, length_bytes32, Address.length_bytes]
    rfl
  | text =>
    simp only [write, size, List.length_append, length_bytes16, List.length_take,
      Text.length_bytes, List.length_singleton, Nat.min_comm]
  | texts =>
    rw [write, List.length_append, length_bytes32, length_flatMap_ended]
    rfl
  | socketPath =>
    simp only [write, size, List.length_append, List.length_replicate, List.length_take]
    omega
  | ids =>
    simp only [write, size, List.length_append, length_bytes16, length_flatMap_bytes32,
      List.length_take]
    omega
  | data =>
    simp only [write, size, List.length_append, length_bytes16, List.length_take, Nat.min_comm]
  | elements =>
    simp only [write, size, List.length_cons, Elements.length_toBytes, Elements.length_take,
      Elements.unit_take, Nat.min_comm]
    omega

theorem Layout.length_write (layout : Layout) (values : layout.Values) :
    (layout.write values).length = layout.size values := by
  induction layout with
  | nil => rfl
  | cons field layout ih =>
    rw [write, List.length_append, Field.length_write, ih]
    rfl

end AuditTrail

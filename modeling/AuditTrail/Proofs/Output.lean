import AuditTrail.Output

namespace AuditTrail.Output

def Admits (o : Output) (n : Nat) : Prop := n ≤ o.admitted n

def append (o : Output) (data : List UInt8) : Output := { o with taken := o.taken ++ data }

theorem admits_of_unlimited {o : Output} (h : o.limit = none) (n : Nat) : o.Admits n := by
  simp [Admits, admitted, h]

@[simp] theorem append_append (o : Output) (front back : List UInt8) :
    (o.append front).append back = o.append (front ++ back) := by
  simp [append]

theorem write_of_admits {o : Output} {data : List UInt8} (h : o.Admits data.length) :
    o.write data = (.ok (), o.append data) := by
  have all : data.take (o.admitted data.length) = data := List.take_of_length_le h
  have room : data.length ≤ o.admitted data.length := h
  simp [write, append, room, all]

theorem write_of_not_admits {o : Output} {data : List UInt8} (h : ¬o.Admits data.length) :
    o.write data = (.error o.fullError, o.append (data.take (o.admitted data.length))) := by
  have short : ¬data.length ≤ o.admitted data.length := h
  simp [write, append, short]

@[simp] theorem write_nil (o : Output) : o.write [] = (.ok (), o) := by
  simp [write]

theorem write_of_unlimited {o : Output} (h : o.limit = none) (data : List UInt8) :
    o.write data = (.ok (), o.append data) :=
  write_of_admits (admits_of_unlimited h _)

theorem write_of_limit {o : Output} {limit : Nat} (h : o.limit = some limit) (data : List UInt8) :
    o.write data =
      (if data.length ≤ limit - o.taken.length then .ok () else .error o.fullError,
        o.append (data.take (limit - o.taken.length))) := by
  simp only [write, admitted, h, append, Nat.le_min, Nat.le_refl, and_true,
    Nat.min_comm data.length, ← List.take_eq_take_min]

theorem write_append (o : Output) (front back : List UInt8) :
    o.write (front ++ back) =
      match o.write front with
      | (.ok (), o) => o.write back
      | (.error e, o) => (.error e, o) := by
  cases hlimit : o.limit with
  | none =>
    have unlimited : (o.append front).limit = none := hlimit
    rw [write_of_unlimited hlimit, write_of_unlimited hlimit]
    dsimp only
    rw [write_of_unlimited unlimited, append_append]
  | some limit =>
    have limited : (o.append front).limit = some limit := hlimit
    have room : limit - (o.append front).taken.length = limit - o.taken.length - front.length := by
      rw [append, List.length_append, Nat.sub_sub]
    rw [write_of_limit hlimit, write_of_limit hlimit, List.take_append, List.length_append]
    by_cases fits : front.length ≤ limit - o.taken.length
    · rw [if_pos fits, List.take_of_length_le fits]
      dsimp only
      rw [write_of_limit limited, room, append_append]
      simp only [Nat.le_sub_iff_add_le' fits]
      rfl
    · have behind : limit - o.taken.length - front.length = 0 := by omega
      have beyond : ¬front.length + back.length ≤ limit - o.taken.length := by omega
      rw [if_neg fits, if_neg beyond, behind, List.take_zero, List.append_nil]

end AuditTrail.Output

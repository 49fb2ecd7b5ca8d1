import AuditTrail.Proofs.Stream.Spent
import AuditTrail.Proofs.Trail.Failing

namespace AuditTrail

def Stream.Stands (data : List UInt8) (s : Stream) : Prop :=
  ∃ front, data = front ++ s.rest ∧ s.position = front.length

theorem Stream.Stands.spend {data used : List UInt8} {s t : Stream} (h : s.Stands data)
    (spends : s.Spends used t) : t.Stands data := by
  obtain ⟨front, rfl, position⟩ := h
  refine ⟨front ++ used, ?_, ?_⟩
  · rw [spends.rest, List.append_assoc]
  · rw [spends.position, position, List.length_append]

theorem Stream.Stands.extract {data passed frame : List UInt8} {s t : Stream} (h : s.Stands data)
    (spends : s.Spends (passed ++ frame) t) :
    ∃ start, s.position ≤ start ∧ start + frame.length = t.position ∧
      t.position ≤ data.length ∧ data.extract start t.position = frame := by
  obtain ⟨front, rfl, position⟩ := h
  have stop : t.position = (front ++ passed).length + frame.length := by
    rw [spends.position, position]
    simp only [List.length_append, Nat.add_assoc]
  have parts : front ++ s.rest = (front ++ passed) ++ (frame ++ t.rest) := by
    rw [spends.rest]
    simp only [List.append_assoc]
  refine ⟨(front ++ passed).length, ?_, stop.symm, ?_, ?_⟩
  · rw [position, List.length_append]
    exact Nat.le_add_right ..
  · rw [parts, stop]
    simp only [List.length_append]
    omega
  · rw [parts, stop, List.extract_eq_take_drop, List.drop_left, Nat.add_sub_cancel_left,
      List.take_left]

namespace TrailReader

def after (r : TrailReader) : Nat → TrailReader
  | 0 => r
  | n + 1 => r.next.2.after n

theorem after_add (r : TrailReader) (m n : Nat) : r.after (m + n) = (r.after m).after n := by
  induction m generalizing r with
  | zero => rw [Nat.zero_add, after]
  | succ m ih => rw [Nat.succ_add, after, ih, after]

theorem after_succ (r : TrailReader) (n : Nat) : r.after (n + 1) = (r.after n).next.2 :=
  r.after_add n 1

theorem next_of_done {r : TrailReader} (h : r.done = true) : r.next = (none, r) := if_pos h

theorem after_of_done {r : TrailReader} (h : r.done = true) (n : Nat) : r.after n = r := by
  induction n with
  | zero => rfl
  | succ n ih => rw [after, next_of_done h, ih]

theorem done_of_next_none {r : TrailReader} (h : r.next.1 = none) : r.next.2.done = true := by
  revert h
  unfold next
  split
  · exact fun _ => ‹_›
  · split
    · exact fun _ => rfl
    · exact nofun
    · exact nofun

theorem done_of_next_ends {r : TrailReader} {e : TrailError} (h : r.next.1 = some (.error e))
    (ends : e.ends = true) : r.next.2.done = true := by
  revert h
  unfold next
  split
  · exact nofun
  · split
    · exact nofun
    · rename_i frame _ _
      intro h
      cases decoded : Record.decode frame <;> rw [decoded] at h <;> cases h
      -- What a whole record cannot be decoded for is no failed transfer.
      exact absurd ends (by simp [Record.DecodeError.goesOn])
    · rintro ⟨⟩
      exact ends

theorem next_after (r : TrailReader) (n : Nat) : (r.after n).next.1 = r.run.1[n]? := by
  induction n generalizing r with
  | zero =>
    rcases h : r.next with ⟨item?, s⟩
    cases item? with
    | none => rw [run_of_next_none h, after, h]; rfl
    | some item => rw [run_of_next_some h, after, h]; rfl
  | succ n ih =>
    rcases h : r.next with ⟨item?, s⟩
    cases item? with
    | none =>
      have done : s.done = true := by
        have := done_of_next_none (congrArg Prod.fst h)
        rwa [h] at this
      rw [run_of_next_none h, after, h, after_of_done done, next_of_done done]
      rfl
    | some item => rw [run_of_next_some h, after, h, ih, List.getElem?_cons_succ]

theorem next_after_of_lt {r : TrailReader} {n : Nat} (h : n < r.run.1.length) :
    (r.after n).next = (some r.run.1[n], r.after (n + 1)) := by
  have item := r.next_after n
  rw [List.getElem?_eq_getElem h] at item
  exact Prod.ext item (r.after_succ n).symm

theorem after_of_done_of_lt {r : TrailReader} {k n : Nat} (done : (r.after (k + 1)).done = true)
    (later : k < n) : r.after n = r.after (k + 1) := by
  obtain ⟨m, rfl⟩ := Nat.exists_eq_add_of_le (Nat.succ_le_of_lt later)
  rw [after_add, after_of_done done]

theorem length_run_le (r : TrailReader) : r.run.1.length ≤ r.stream.size := by
  fun_induction run r with
  | case1 r s h => exact Nat.zero_le _
  | case2 r item s h items last hrun ih =>
    rw [hrun] at ih
    exact Nat.lt_of_le_of_lt ih (size_of_next h)

theorem next_spends (r : TrailReader) :
    ∃ used, r.stream.Spends used r.next.2.stream ∧
      ∀ record, r.next.1 = some (.ok record) →
        ∃ passed frame, used = passed ++ frame ∧ Record.decode frame = .ok record := by
  obtain ⟨used, spends, found⟩ := r.stream.readFrame_spends
  unfold next
  split
  · exact ⟨[], .refl _, nofun⟩
  · split <;> rename_i hframe <;> rw [hframe] at spends found
    · exact ⟨used, spends, nofun⟩
    · rename_i frame _
      obtain ⟨passed, rfl⟩ := found frame rfl
      refine ⟨_, spends, fun record item => ⟨passed, frame, rfl, ?_⟩⟩
      cases decoded : Record.decode frame <;> rw [decoded] at item <;> cases item
      rfl
    · exact ⟨used, spends, nofun⟩

/-- The records that a reader gives are decoded from slices of the data that follow each other. -/
theorem exists_slices {data : List UInt8} (r : TrailReader) (stands : r.stream.Stands data) :
    ∃ slices : List (Nat × Nat),
      (slices.map fun slice => Record.decode (data.extract slice.1 slice.2)) =
          (r.run.1.filterMap (·.toOption)).map .ok ∧
        (∀ slice ∈ slices,
          r.stream.position ≤ slice.1 ∧ slice.1 ≤ slice.2 ∧ slice.2 ≤ data.length) ∧
        slices.Pairwise fun earlier later => earlier.2 ≤ later.1 := by
  fun_induction run r with
  | case1 r s h => exact ⟨[], rfl, nofun, .nil⟩
  | case2 r item s h items last hrun ih =>
    rw [hrun] at ih
    obtain ⟨used, spends, decoded⟩ := r.next_spends
    rw [h] at spends decoded
    obtain ⟨slices, given, within, apart⟩ := ih (stands.spend spends)
    have onward : r.stream.position ≤ s.stream.position :=
      spends.position ▸ Nat.le_add_right ..
    have later : ∀ slice ∈ slices,
        r.stream.position ≤ slice.1 ∧ slice.1 ≤ slice.2 ∧ slice.2 ≤ data.length :=
      fun slice member => (within slice member).imp_left (Nat.le_trans onward)
    cases item with
    | error e => exact ⟨slices, given, later, apart⟩
    | ok record =>
      obtain ⟨passed, frame, rfl, whole⟩ := decoded record rfl
      obtain ⟨start, behind, total, inside, slice⟩ := stands.extract spends
      refine ⟨(start, s.stream.position) :: slices, ?_, List.forall_mem_cons.2 ⟨?_, later⟩,
        List.pairwise_cons.2 ⟨fun slice member => (within slice member).1, apart⟩⟩
      · rw [List.map_cons, slice, whole, given]
        rfl
      · exact ⟨behind, total ▸ Nat.le_add_right .., inside⟩

/-- A reader ends, whatever the data and the faults of its stream are. It gives no more items than
there are bytes and faults, each of which uses up at least one of them. Behind its last item, and
behind a failed transfer, it gives nothing and leaves the stream alone. The records that it gives
were decoded from slices of the data, in their order, of which no two have a byte in common. -/
theorem run_exhausts (data : List UInt8) (chunk : Option Nat) (faults : List Fault) :
    let reader : TrailReader := ⟨{ rest := data, chunk, faults }, false⟩
    let items := reader.run.1
    let left := fun k => (reader.after k).stream
    items.length ≤ data.length + faults.length ∧
      (∀ k, (reader.after k).next.1 = items[k]?) ∧
      (∀ k, (left (k + 1)).rest <:+ (left k).rest ∧ (left (k + 1)).faults <:+ (left k).faults) ∧
      (∀ k < items.length, (left (k + 1)).rest.length + (left (k + 1)).faults.length <
        (left k).rest.length + (left k).faults.length) ∧
      (∀ k > items.length, reader.after k = reader.after (items.length + 1)) ∧
      (∀ k e, items[k]? = some (.error e) → e.toError.kind = .io →
        ∀ n > k, items[n]? = none ∧ reader.after n = reader.after (k + 1)) ∧
      ∃ slices : List (Nat × Nat),
        (slices.map fun slice => Record.decode (data.extract slice.1 slice.2)) =
            (items.filterMap (·.toOption)).map .ok ∧
          (∀ slice ∈ slices, slice.1 ≤ slice.2 ∧ slice.2 ≤ data.length) ∧
          slices.Pairwise fun earlier later => earlier.2 ≤ later.1 := by
  intro reader items left
  refine ⟨reader.length_run_le, reader.next_after, fun k => ?_, fun k inside => ?_,
    fun k later => ?_, fun k e failed io n later => ?_, ?_⟩
  · obtain ⟨used, spends, -⟩ := (reader.after k).next_spends
    rw [← after_succ] at spends
    exact ⟨spends.rest ▸ List.suffix_append .., spends.faults⟩
  · exact size_of_next (next_after_of_lt inside)
  · have last : (reader.after items.length).next.1 = none := by
      rw [next_after, List.getElem?_eq_none (Nat.le_refl _)]
    exact after_of_done_of_lt (after_succ .. ▸ done_of_next_none last) later
  · have done : (reader.after (k + 1)).done = true :=
      after_succ .. ▸ done_of_next_ends ((reader.next_after k).trans failed) (decide_eq_true io)
    have same := after_of_done_of_lt done later
    refine ⟨?_, same⟩
    rw [← next_after, same, next_of_done done]
  · have stands : reader.stream.Stands data := ⟨[], rfl, rfl⟩
    obtain ⟨slices, decoded, within, apart⟩ := reader.exists_slices stands
    exact ⟨slices, decoded, fun slice member => (within slice member).2, apart⟩

end TrailReader

end AuditTrail

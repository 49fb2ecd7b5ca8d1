import AuditTrail.Proofs.Output
import AuditTrail.Sink

namespace AuditTrail

namespace Sink

variable (sink : Sink σ)

def run : List (List UInt8) → σ → List (Except SinkError Unit × σ)
  | [], _ => []
  | data :: records, s => sink data s :: run records (sink data s).2

def after : List (List UInt8) → σ → σ
  | [], s => s
  | data :: records, s => after records (sink data s).2

def accepted : List (List UInt8) → σ → List (List UInt8)
  | [], _ => []
  | data :: records, s =>
    match sink data s with
    | (.ok (), t) => data :: accepted records t
    | (.error _, t) => accepted records t

theorem getElem?_run {records : List (List UInt8)} {k : Nat} {data : List UInt8}
    (h : records[k]? = some data) (s : σ) :
    (sink.run records s)[k]? = some (sink data (sink.after (records.take k) s)) := by
  induction records generalizing k s with
  | nil => cases h
  | cons first records ih =>
    cases k with
    | zero => cases h; rfl
    | succ k => exact ih h _

variable {sink}

theorem accepted_cons_of_ok {data : List UInt8} {s : σ} (h : (sink data s).1 = .ok ())
    (records : List (List UInt8)) :
    sink.accepted (data :: records) s = data :: sink.accepted records (sink data s).2 := by
  rw [accepted]
  split <;> simp_all

theorem accepted_cons_of_not_ok {data : List UInt8} {s : σ} (h : (sink data s).1 ≠ .ok ())
    (records : List (List UInt8)) :
    sink.accepted (data :: records) s = sink.accepted records (sink data s).2 := by
  rw [accepted]
  split <;> simp_all

theorem mem_of_mem_accepted {records : List (List UInt8)} {s : σ} {data : List UInt8}
    (h : data ∈ sink.accepted records s) : data ∈ records := by
  induction records generalizing s with
  | nil => cases h
  | cons first records ih =>
    by_cases ok : (sink first s).1 = .ok ()
    · rw [accepted_cons_of_ok ok] at h
      exact (List.mem_cons.1 h).elim (· ▸ List.mem_cons_self)
        fun later => List.mem_cons_of_mem _ (ih later)
    · rw [accepted_cons_of_not_ok ok] at h
      exact List.mem_cons_of_mem _ (ih h)

end Sink

namespace RecordList

def bounded (capacity : Nat) (submitted : List (List UInt8)) : RecordList :=
  { records := submitted.take capacity, capacity }

variable (capacity : Nat) (submitted : List (List UInt8)) (data : List UInt8)

theorem full?_bounded : (bounded capacity submitted).full? =
    if capacity ≤ submitted.length then some capacity else none := by
  have taken : capacity ≤ min capacity submitted.length ↔ capacity ≤ submitted.length := by omega
  simp only [full?, bounded, List.length_take, Option.filter_some, taken, decide_eq_true_eq]

theorem submit_bounded : (submit data (bounded capacity submitted)).2 =
    bounded capacity (submitted ++ [data]) := by
  rw [submit, full?_bounded]
  by_cases full : capacity ≤ submitted.length
  · rw [if_pos full, bounded, bounded, List.take_append_of_le_length full]
  · have room : (submitted ++ [data]).length ≤ capacity := by
      rw [List.length_append, List.length_singleton]
      exact Nat.lt_of_not_le full
    rw [if_neg full, bounded, bounded, List.take_of_length_le room,
      List.take_of_length_le (Nat.le_of_not_le full)]

theorem submit_bounded_ok_iff : (submit data (bounded capacity submitted)).1 = .ok () ↔
    submitted.length < capacity := by
  rw [submit, full?_bounded]
  by_cases full : capacity ≤ submitted.length
  · rw [if_pos full]
    exact iff_of_false nofun (Nat.not_lt.2 full)
  · rw [if_neg full]
    exact iff_of_true rfl (Nat.lt_of_not_le full)

end RecordList

namespace Output

theorem kind_of_submit {data : List UInt8} {o : Output} {e : SinkError}
    (h : (submit data o).1 = .error e) : e.kind = .io := by
  unfold submit at h
  split at h
  · cases h
    rfl
  · unfold flush at h
    split at h <;> cases h
    rfl

section

variable (limit : Nat) (failures : Failures)

def bounded (given : List UInt8) : Output :=
  { failures with taken := given.take limit, limit }

theorem write_bounded (given data : List UInt8) :
    ((bounded limit failures given).write data).2 = bounded limit failures (given ++ data) := by
  have room : limit - min limit given.length = limit - given.length := by omega
  simp only [write, bounded, admitted, List.take_append, List.length_take, ← room,
    ← List.take_eq_take_min, Nat.min_comm data.length]

theorem admits_bounded (given : List UInt8) {n : Nat} (pos : n ≠ 0) :
    (bounded limit failures given).Admits n ↔ given.length + n ≤ limit := by
  simp only [Admits, admitted, bounded, List.length_take]
  omega

theorem submit_bounded (given data : List UInt8) :
    (submit data (bounded limit failures given)).2 = bounded limit failures (given ++ data) := by
  rw [← write_bounded, submit]
  split <;> simp [*]

theorem submit_bounded_iff (given : List UInt8) {data : List UInt8} (nonempty : data ≠ []) :
    (submit data (bounded limit failures given)).1 = .ok () ↔
      given.length + data.length ≤ limit ∧ failures.flushError = none := by
  have pos : data.length ≠ 0 := mt List.length_eq_zero_iff.1 nonempty
  rw [← admits_bounded limit failures given pos, submit]
  by_cases room : (bounded limit failures given).Admits data.length
  · rw [write_of_admits room]
    obtain ⟨whenFull, flushError, settled⟩ := failures
    cases flushError with
    | none => exact iff_of_true rfl ⟨room, rfl⟩
    | some e => exact iff_of_false nofun nofun
  · rw [write_of_not_admits room]
    simp [room]

theorem after_bounded (records : List (List UInt8)) (given : List UInt8) :
    Sink.after submit records (bounded limit failures given) =
      bounded limit failures (given ++ records.flatten) := by
  induction records generalizing given with
  | nil => simp [Sink.after]
  | cons data records ih =>
    rw [Sink.after, submit_bounded, ih, List.flatten_cons, List.append_assoc]

theorem run_bounded {records : List (List UInt8)} (nonempty : ∀ data ∈ records, data ≠ []) {k : Nat}
    (hk : k < records.length) :
    ∃ result out,
      (Sink.run submit records { failures with limit })[k]? =
          some (result, out) ∧
        out.taken = (records.take (k + 1)).flatten.take limit ∧
        (result = .ok () ↔
          (records.take (k + 1)).flatten.length ≤ limit ∧ failures.flushError = none) ∧
        ∀ e, result = .error e → e.kind = .io := by
  have before := after_bounded limit failures (records.take k) []
  have total : (records.take (k + 1)).flatten = (records.take k).flatten ++ records[k] := by
    rw [List.take_succ_eq_append_getElem hk, List.flatten_append, List.flatten_singleton]
  have here := Sink.getElem?_run submit (List.getElem?_eq_getElem hk)
    (bounded limit failures [])
  rw [before, List.nil_append] at here
  generalize hnow : submit records[k] (bounded limit failures (records.take k).flatten)
    = now at here
  refine ⟨now.1, now.2, by simpa [bounded] using here, ?_, ?_, ?_⟩
  · rw [← hnow, submit_bounded, total]
    rfl
  · rw [← hnow, submit_bounded_iff _ _ _ (nonempty _ (List.getElem_mem hk)), total,
      List.length_append]
  · rw [← hnow]
    exact fun e => kind_of_submit

theorem accepted_of_full {records : List (List UInt8)} (nonempty : ∀ data ∈ records, data ≠ [])
    {given : List UInt8} (full : limit ≤ given.length) :
    Sink.accepted submit records (bounded limit failures given) = [] := by
  induction records generalizing given with
  | nil => rfl
  | cons data records ih =>
    rw [List.forall_mem_cons] at nonempty
    have refused : (submit data (bounded limit failures given)).1 ≠ .ok () := by
      have := List.length_pos_iff.2 nonempty.1
      rw [Ne, submit_bounded_iff limit failures given nonempty.1]
      omega
    rw [Sink.accepted_cons_of_not_ok refused, submit_bounded, ih nonempty.2]
    rw [List.length_append]
    omega

/-- What the output holds is the records that it accepted, and maybe the first bytes of the one it
refused first. -/
theorem exists_accepted (flushes : failures.flushError = none) {records : List (List UInt8)}
    (nonempty : ∀ data ∈ records, data ≠ []) {given : List UInt8} (room : given.length ≤ limit) :
    ∃ part,
      (given ++ records.flatten).take limit = given ++
        (Sink.accepted submit records (bounded limit failures given)).flatten ++ part ∧
      (part = [] ∨ ∃ data ∈ records, ∃ k, k ≠ 0 ∧ k < data.length ∧ part = data.take k) := by
  induction records generalizing given with
  | nil => exact ⟨[], by simp [Sink.accepted, List.take_of_length_le room], .inl rfl⟩
  | cons data records ih =>
    rw [List.forall_mem_cons] at nonempty
    have taken := submit_bounded_iff limit failures given nonempty.1
    by_cases fits : given.length + data.length ≤ limit
    · have total : (given ++ data).length ≤ limit := by rwa [List.length_append]
      obtain ⟨part, parts, torn⟩ := ih nonempty.2 total
      rw [Sink.accepted_cons_of_ok (taken.2 ⟨fits, flushes⟩), submit_bounded]
      refine ⟨part, by simpa using parts, torn.imp_right ?_⟩
      rintro ⟨record, member, cut⟩
      exact ⟨record, List.mem_cons_of_mem _ member, cut⟩
    · have full : limit ≤ (given ++ data).length := by
        rw [List.length_append]
        omega
      rw [Sink.accepted_cons_of_not_ok (fun ok => fits (taken.1 ok).1), submit_bounded,
        accepted_of_full _ _ nonempty.2 full]
      refine ⟨data.take (limit - given.length), ?_, ?_⟩
      · rw [List.flatten_cons, ← List.append_assoc, List.take_append_of_le_length full,
          List.take_append, List.take_of_length_le room]
        simp
      · by_cases none : limit - given.length = 0
        · exact .inl (by rw [none, List.take_zero])
        · exact .inr ⟨data, List.mem_cons_self, _, none, by omega, rfl⟩

end

end Output

end AuditTrail

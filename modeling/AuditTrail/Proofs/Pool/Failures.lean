import AuditTrail.Proofs.Pool.Stale

namespace AuditTrail.Pool

/-- A pool in which one open record was closed: its slot is empty and free, and its descriptor is
dead. The other slots, and the records in them, are as before. -/
structure Released (p : Pool) (d : Descriptor) (q : Pool) : Prop where
  known : p.record? d ≠ none
  config : q.config = p.config
  length_slots : q.slots.length = p.slots.length
  free : q.free = d.index.toNat :: p.free
  slot_eq : ∀ i, q.slot i = if i = d.index.toNat then { generation := d.generation } else p.slot i
  record?_eq : ∀ e, q.record? e = if e = d then none else p.record? e
  dead : q.Dead d

theorem index_lt_of_isOpen {p : Pool} {i : Nat} (h : (p.slot i).isOpen = true) :
    i < p.slots.length := by
  refine Nat.lt_of_not_le fun beyond => ?_
  rw [slot_of_length_le beyond] at h
  cases h

theorem released_of_find {p : Pool} {d : Descriptor} {s : Slot} (found : p.find d = .ok s) :
    p.Released d ((p.detach d.index.toNat s).release d.index.toNat) := by
  have known := record?_ne_none_of_find found
  obtain ⟨rfl, opened, same⟩ := find_eq_ok found
  have within := index_lt_of_isOpen opened
  have records (e : Descriptor) :
      ((p.detach d.index.toNat (p.slot d.index.toNat)).release d.index.toNat).record? e =
        if e = d then none else p.record? e := by
    have others : ∀ g, g ≠ d.generation → (p.slot d.index.toNat).record? g = none :=
      fun g other => Slot.record?_other (same ▸ Ne.symm other)
    have closed := record?_setSlot rfl within others (s := { generation := _ }) same e
    rwa [Slot.record?_closed rfl] at closed
  refine ⟨known, rfl, length_setSlot .., rfl, fun i => ?_, records, dead_of_record? ?_⟩
  · rw [← same]
    exact slot_setSlot within _ i
  · rw [records, if_pos rfl]

theorem kind_of_claim_error {p : Pool} {e : PoolError} (h : p.claim = .error e) :
    e.toError.kind = .resourceExhausted := by
  obtain ⟨-, -, rfl⟩ := claim_eq_error h
  rfl

theorem wanted_of_handed? {p : Pool} {d : Descriptor} {wanted : Bool} {event : UInt16}
    {stamp : Stamp} {image : List UInt8}
    (h : p.handed? (.close d wanted event stamp) = some image) : wanted = true := by
  cases found : p.find d with
  | error e => simp [handed?, found] at h
  | ok s =>
    simp only [handed?, found] at h
    exact (Option.ite_none_right_eq_some.1 h).1

inductive Failed (sink : Sink σ) (p : Pool) (s : σ) : Call → Error → Pool × σ → Prop
  | unchanged {call : Call} {e : Error}
      (kind : e.kind = .resourceExhausted ∨ e.kind = .invalidDescriptor)
      (silent : p.handed? call = none) : Failed sink p s call e (p, s)
  | refused {d : Descriptor} {event : UInt16} {stamp : Stamp} {slot : Slot} {image : List UInt8}
      {e : SinkError} {t : σ} (found : p.find d = .ok slot)
      (handed : p.handed? (.close d true event stamp) = some image)
      (refusal : sink image s = (.error e, t)) :
      Failed sink p s (.close d true event stamp) e.toError
        ((p.detach d.index.toNat slot).release d.index.toNat, t)

section

variable {sink : Sink σ} {p : Pool} {s : σ} {call : Call} {e : Error} {after : Pool × σ}

theorem failed_of_step (h : step sink call (p, s) = (.failed e, after)) :
    Failed sink p s call e after := by
  cases call with
  | openRecord =>
    simp only [step, openRecord] at h
    split at h
    · next claimed =>
      cases h
      exact .unchanged (.inl (kind_of_claim_error claimed)) rfl
    · cases h
  | write d token =>
    simp only [step, write] at h
    split at h
    · next found =>
      cases h
      exact .unchanged (.inr (kind_of_find_error found)) rfl
    · cases h
  | length d =>
    simp only [step, length] at h
    cases found : p.find d with
    | error e =>
      rw [found] at h
      cases h
      exact .unchanged (.inr (kind_of_find_error found)) rfl
    | ok slot =>
      rw [found] at h
      cases h
  | close d wanted event stamp =>
    rw [step_close] at h
    cases found : p.find d with
    | error e =>
      rw [found] at h
      cases h
      exact .unchanged (.inr (kind_of_find_error found)) (by rw [handed?, found])
    | ok slot =>
      rw [found] at h
      cases handed : p.handed? (.close d wanted event stamp) with
      | none =>
        rw [handed] at h
        cases h
      | some image =>
        rcases sunk : sink image s with ⟨result, t⟩
        simp only [handed, Sink.offer, sunk] at h
        cases result with
        | ok => cases h
        | error e =>
          cases h
          cases wanted_of_handed? handed
          exact .refused found handed sunk

theorem exists_refusal_iff : (∃ e, (step sink call (p, s)).1 = .failed e ∧ e.kind = .submission) ↔
    ∃ image, p.handed? call = some image ∧ (sink image s).1 ≠ .ok () := by
  constructor
  · rintro ⟨e, answer, kind⟩
    rcases stepped : step sink call (p, s) with ⟨_, after⟩
    rw [stepped] at answer
    subst answer
    cases failed_of_step stepped with
    | unchanged other => simp [kind] at other
    | refused found handed refusal => exact ⟨_, handed, by simp [refusal]⟩
  · rintro ⟨image, handed, refusal⟩
    cases call with
    | openRecord | write | length => cases handed
    | close d wanted event stamp =>
      rw [step_close]
      cases found : p.find d with
      | error e => simp [handed?, found] at handed
      | ok slot =>
        simp only [handed, Sink.offer]
        cases sunk : (sink image s).1 with
        | ok => exact absurd sunk refusal
        | error e => exact ⟨_, rfl, rfl⟩

end

def Refuses (answers : List Answer) : Prop :=
  ∃ e, .failed e ∈ answers ∧ e.kind = .submission

theorem refuses_cons {answer : Answer} {answers : List Answer} : Refuses (answer :: answers) ↔
    (∃ e, answer = .failed e ∧ e.kind = .submission) ∨ Refuses answers := by
  simp only [Refuses, List.mem_cons, or_and_right, exists_or, eq_comm]

section

variable (capacity : Nat)

theorem step_bounded (call : Call) (p : Pool) (log : List (List UInt8)) :
    ∃ answer q, ∃ image : Option (List UInt8),
      step (Sink.logged RecordList.submit) call (p, (log, .bounded capacity log)) =
        (answer, (q, (log ++ image.toList, .bounded capacity (log ++ image.toList)))) ∧
      ((∃ e, answer = .failed e ∧ e.kind = .submission) ↔
        image.isSome = true ∧ capacity ≤ log.length) := by
  let list := RecordList.bounded capacity log
  refine ⟨(step RecordList.submit call (p, list)).1, (step RecordList.submit call (p, list)).2.1,
    p.handed? call, ?_, ?_⟩
  · rw [step_logged, step_state]
    cases p.handed? call with
    | none => simp [Sink.offer, list]
    | some image => rw [Sink.offer, RecordList.submit_bounded, Option.toList_some]
  · simp only [exists_refusal_iff, list, ne_eq, RecordList.submit_bounded_ok_iff, Nat.not_lt,
      exists_and_right, Option.isSome_iff_exists]

theorem run_bounded (calls : List Call) (p : Pool) (log : List (List UInt8)) :
    ∃ answers q images,
      run (Sink.logged RecordList.submit) calls (p, (log, .bounded capacity log)) =
        (answers, (q, (log ++ images, .bounded capacity (log ++ images)))) ∧
      (Refuses answers ↔ images ≠ [] ∧ capacity < (log ++ images).length) := by
  induction calls generalizing p log with
  | nil => exact ⟨[], p, [], by simp [run], by simp [Refuses]⟩
  | cons call calls ih =>
    obtain ⟨answer, q, image, stepped, refused⟩ := step_bounded capacity call p log
    obtain ⟨answers, r, images, ran, refuses⟩ := ih q (log ++ image.toList)
    refine ⟨answer :: answers, r, image.toList ++ images, ?_, ?_⟩
    · rw [run_cons, stepped, ran, List.append_assoc]
    · rw [refuses_cons, refused, refuses]
      cases image with
      | none => simp
      | some image =>
        -- The list was full when this record came, or a later one finds it so.
        cases images with
        | nil =>
          simp only [Option.isSome_some, true_and, ne_eq, not_true_eq_false, false_and, or_false,
            Option.toList_some, List.append_nil, reduceCtorEq, not_false_eq_true,
            List.length_append, List.length_singleton]
          omega
        | cons next images =>
          simp only [Option.isSome_some, true_and, ne_eq, reduceCtorEq, not_false_eq_true,
            Option.toList_some, List.append_assoc, List.cons_append, List.nil_append,
            List.length_append, List.length_cons, or_iff_right_iff_imp]
          omega

end

/-- A call that fails for want of room or for its descriptor changes neither the pool nor the sink.
A close that fails because the sink refuses the record leaves the pool that it leaves if the record
is not wanted, in which that record is gone and no other is touched. Of the records submitted to a
list of limited capacity the list holds those that came first, and calls are refused exactly if
there were more. -/
theorem failed_calls_atomic :
    (∀ (σ : Type) (sink : Sink σ) (p : Pool) (s : σ) (call : Call) (e : Error) (after : Pool × σ),
      step sink call (p, s) = (.failed e, after) →
        (e.kind = .resourceExhausted ∨ e.kind = .invalidDescriptor) ∧ after = (p, s) ∨
        e.kind = .submission ∧ ∃ d event stamp image refusal,
          call = .close d true event stamp ∧ p.handed? call = some image ∧
          sink image s = (.error refusal, after.2) ∧ e = refusal.toError ∧
          p.Released d after.1 ∧ ∀ event' stamp',
            step sink (.close d false event' stamp') (p, s) = (.done, (after.1, s))) ∧
    ∀ (config : PoolConfig) (capacity : Nat) (calls : List Call),
      ∃ answers p images list,
        run (Sink.logged RecordList.submit) calls
            ({ config }, ([], { capacity := some capacity })) =
          (answers, (p, (images, list))) ∧
          list.records = images.take capacity ∧ (Refuses answers ↔ capacity < images.length) := by
  refine ⟨fun σ sink p s call e after failed => ?_, fun config capacity calls => ?_⟩
  · cases failed_of_step failed with
    | unchanged kind => exact .inl ⟨kind, rfl⟩
    | @refused d event stamp slot image refusal t found handed sunk =>
      refine .inr ⟨rfl, d, event, stamp, image, refusal, rfl, handed, sunk, rfl,
        released_of_find found, fun event' stamp' => ?_⟩
      simp only [step_close, found, handed?, Bool.false_eq_true, if_false, Sink.offer]
      rfl
  · obtain ⟨answers, p, images, ran, refuses⟩ := run_bounded capacity calls { config } []
    have empty : RecordList.bounded capacity [] = { capacity := some capacity } := by
      simp [RecordList.bounded]
    rw [empty] at ran
    refine ⟨answers, p, images, _, ran, rfl, refuses.trans ?_⟩
    exact and_iff_right_of_imp fun more => List.ne_nil_of_length_pos (Nat.zero_lt_of_lt more)

theorem failed_calls_atomic_full :
    let config : PoolConfig := { maxRecords := 2 }
    let image := Record.image 7 {} 25 []
    let list : RecordList := { records := [image], capacity := some 1 }
    let p : Pool :=
      { config
        slots := [{ generation := 1, isOpen := true, tokens := [.port 25], length := 3 },
          { generation := 1 }]
        free := [1] }
    let calls : List Call :=
      [.openRecord, .openRecord, .write ⟨0, 1⟩ (.port 25), .close ⟨1, 1⟩ true 7 {}]
    let full : Error := ⟨.submission, "sink error (sink full): capacity of 1 records reached"⟩
    run RecordList.submit calls ({ config }, { capacity := some 1 }) =
        ([.opened ⟨0, 1⟩, .opened ⟨1, 1⟩, .done, .done], (p, list)) ∧
      (∃ q, step RecordList.submit (.close ⟨0, 1⟩ true 8 {}) (p, list) =
          (.failed full, (q, list)) ∧
        p.Released ⟨0, 1⟩ q ∧ step RecordList.submit (.close ⟨0, 1⟩ false 8 {}) (p, list) =
          (.done, (q, list))) ∧
      ∃ answers q images l,
        run (Sink.logged RecordList.submit)
            (calls ++ [.close ⟨0, 1⟩ true 8 {}, .openRecord, .close ⟨0, 2⟩ true 9 {}])
            ({ config }, ([], { capacity := some 1 })) = (answers, (q, (images, l))) ∧
          l.records = images.take 1 ∧ (Refuses answers ↔ 1 < images.length) := by
  intro config image list p calls full
  have closed : step RecordList.submit (.close ⟨0, 1⟩ true 8 {}) (p, list) =
      (.failed full, ((p.detach 0 p.slots[0]).release 0, list)) := by decide +kernel
  obtain ⟨one, many⟩ := failed_calls_atomic
  refine ⟨by decide +kernel, ⟨_, closed, ?_⟩, many config 1 _⟩
  rcases one _ _ _ _ _ _ _ closed with ⟨other, -⟩ | ⟨-, refused⟩
  · simp [full] at other
  · obtain ⟨d, event, stamp, _, _, same, -, -, -, released, unwanted⟩ := refused
    cases same
    exact ⟨released, unwanted 8 {}⟩

end AuditTrail.Pool

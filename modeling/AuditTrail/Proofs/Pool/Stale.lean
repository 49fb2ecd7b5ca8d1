import AuditTrail.Proofs.Pool.Limited
import AuditTrail.Proofs.Pool.Shared

namespace AuditTrail.Pool

def Answer.opened? : Answer → Option Descriptor
  | .opened d => some d
  | _ => none

/-- The descriptor whose record a call has closed, if it was answered like this. The record is
closed also if the sink refused it. -/
def Call.closed? : Call → Answer → Option Descriptor
  | .close d _ _ _, .failed e => if e.kind = .invalidDescriptor then none else some d
  | .close d _ _ _, _ => some d
  | _, _ => none

def closedBy (calls : List Call) (answers : List Answer) : List Descriptor :=
  (List.zipWith Call.closed? calls answers).filterMap id

theorem filterMap_cons_toList (f : α → Option β) (a : α) (as : List α) :
    (a :: as).filterMap f = (f a).toList ++ as.filterMap f := by
  cases told : f a <;> simp [told]

theorem closedBy_cons (call : Call) (calls : List Call) (answer : Answer) (answers : List Answer) :
    closedBy (call :: calls) (answer :: answers) =
      (call.closed? answer).toList ++ closedBy calls answers :=
  filterMap_cons_toList id _ _

/-- Every call with the descriptor is refused, and leaves the pool and the state of a sink as they
are. -/
def Dead (p : Pool) (d : Descriptor) : Prop :=
  ∃ e : PoolError, e.toError.kind = .invalidDescriptor ∧
    (∀ token, p.write d token = (.error e, p)) ∧ p.length d = .error e ∧
    ∀ (σ : Type) (sink : Sink (Pool × σ)) (wanted : Bool) (event : UInt16) (stamp : Stamp)
      (state : σ), closeWith sink d wanted event stamp (p, state) = (.error e, (p, state))

theorem dead_of_record? {p : Pool} {d : Descriptor} (h : p.record? d = none) : p.Dead d := by
  obtain ⟨e, found, kind⟩ := find_error h
  refine ⟨e, kind, fun token => ?_, ?_, fun σ sink wanted event stamp state => ?_⟩
  · rw [write, found]
  · rw [length, found]
    rfl
  · rw [closeWith, found]

theorem kind_of_find_error {p : Pool} {d : Descriptor} {e : PoolError} (h : p.find d = .error e) :
    e.toError.kind = .invalidDescriptor := by
  simp only [find] at h
  split_ifs at h <;> cases h <;> rfl

theorem opened?_of_done (result : Except PoolError α) :
    (Answer.of (fun _ => .done) result).opened? = none := by
  cases result <;> rfl

theorem closed?_of_refused (d : Descriptor) (wanted : Bool) (event : UInt16) (stamp : Stamp)
    (result : Except SinkError Unit) :
    Call.closed? (.close d wanted event stamp)
      (.of (fun _ => .done) (result.mapError PoolError.refused)) = some d := by
  cases result <;> rfl

namespace Shared

variable (sink : Sink σ)

theorem steps_of_call (call : Call) (s : Shared) (state : σ) :
    Relation.ReflTransGen Step s { s with
      pool := (step sink call (s.pool, state)).2.1
      opened := s.opened ++ (step sink call (s.pool, state)).1.opened?.toList
      closed := s.closed ++ (call.closed? (step sink call (s.pool, state)).1).toList } := by
  cases call with
  | openRecord =>
    cases claimed : s.pool.claim with
    | error e => simpa [Pool.step, openRecord, claimed, Answer.opened?, Call.closed?] using .refl
    | ok found =>
      obtain ⟨i, q⟩ := found
      have filled := Relation.ReflTransGen.single (Step.claim claimed) |>.tail
        (.fill (i := i) List.mem_cons_self)
      simpa [Pool.step, openRecord_of_claim claimed, Answer.opened?, Call.closed?, fill]
        using filled
  | write d token =>
    cases found : s.pool.find d with
    | error e => simpa [Pool.step, write, found, Answer.opened?, Call.closed?] using .refl
    | ok slot =>
      have written := Relation.ReflTransGen.single (Step.write (s := s) d token)
      simpa [Pool.step, write, found, Answer.opened?, Call.closed?] using written
  | length d =>
    cases found : s.pool.length d <;>
      simpa [Pool.step, found, Answer.opened?, Call.closed?] using .refl
  | close d wanted event stamp =>
    rw [step_close]
    cases found : s.pool.find d with
    | error e =>
      simpa [Answer.opened?, Call.closed?, kind_of_find_error found] using .refl
    | ok slot =>
      have released := Relation.ReflTransGen.single (Step.detach found) |>.tail
        (.release List.mem_cons_self)
      simpa [opened?_of_done, closed?_of_refused, detach, release] using released

theorem steps_of_run (calls : List Call) (s : Shared) (state : σ) :
    Relation.ReflTransGen Step s { s with
      pool := (run sink calls (s.pool, state)).2.1
      opened := s.opened ++ (run sink calls (s.pool, state)).1.filterMap Answer.opened?
      closed := s.closed ++ closedBy calls (run sink calls (s.pool, state)).1 } := by
  induction calls generalizing s state with
  | nil => simpa [run, closedBy] using .refl
  | cons call calls ih =>
    rw [run_cons, closedBy_cons, filterMap_cons_toList, ← List.append_assoc, ← List.append_assoc]
    exact (steps_of_call sink call s state).trans (ih _ (step sink call (s.pool, state)).2.2)

end Shared

/-- In every run of a pool in which no slot is used more often than there are generations, all the
descriptors handed out are different, and one whose record was closed is refused by every call from
then on, which leaves everything as it is. The calls of one caller after the other are such a
run. -/
theorem closed_stays_closed {config : PoolConfig} (h : config.maxRecords ≤ UInt32.size) :
    (∀ s t, Relation.ReflTransGen Shared.Step { pool := { config } } s →
      Relation.ReflTransGen Shared.Step s t → (∀ i, t.cycles i ≤ UInt32.size) →
        t.opened.Nodup ∧ ∀ d ∈ s.closed, t.pool.Dead d) ∧
    ∀ (σ : Type) (sink : Sink σ) (calls : List Call) (state : σ),
      Relation.ReflTransGen Shared.Step { pool := { config } } {
        pool := (run sink calls ({ config }, state)).2.1
        opened := (run sink calls ({ config }, state)).1.filterMap Answer.opened?
        closed := closedBy calls (run sink calls ({ config }, state)).1 } := by
  refine ⟨fun s t before after few => ?_, fun σ sink calls state => ?_⟩
  · have sound := Shared.sound_of_steps h (before.trans after) few
    refine ⟨sound.distinct, fun d member => dead_of_record? ?_⟩
    exact sound.dead d (Shared.closed_subset_of_steps after member)
  · exact Shared.steps_of_run sink calls { pool := { config } } state

theorem closed_stays_closed_reused :
    let config : PoolConfig := { maxRecords := 1 }
    let calls : List Call :=
      [.openRecord, .write ⟨0, 1⟩ (.port 25), .close ⟨0, 1⟩ true 7 {}, .openRecord,
        .write ⟨0, 2⟩ (.port 26), .close ⟨0, 1⟩ true 8 {}]
    config.maxRecords ≤ UInt32.size ∧
      ∃ s, Relation.ReflTransGen Shared.Step { pool := { config } } s ∧
        (∀ i, s.cycles i ≤ UInt32.size) ∧
        s.pool = (run RecordList.submit calls ({ config }, {})).2.1 ∧
        s.closed = [⟨0, 1⟩] ∧ s.pool.Dead ⟨0, 1⟩ ∧ s.pool.record? ⟨0, 2⟩ = some [.port 26] := by
  intro config calls
  have small : config.maxRecords ≤ UInt32.size := by decide
  obtain ⟨stale, sequential⟩ := closed_stays_closed small
  have steps := sequential RecordList RecordList.submit calls {}
  have opened : (run RecordList.submit calls ({ config }, {})).1.filterMap Answer.opened? =
      [⟨0, 1⟩, ⟨0, 2⟩] := by decide +kernel
  have closed : closedBy calls (run RecordList.submit calls ({ config }, {})).1 = [⟨0, 1⟩] := by
    decide +kernel
  rw [opened, closed] at steps
  have few : ∀ i, Shared.cycles
      { pool := (run RecordList.submit calls ({ config }, {})).2.1
        opened := [⟨0, 1⟩, ⟨0, 2⟩]
        closed := [⟨0, 1⟩] } i ≤ UInt32.size :=
    fun i => Nat.le_trans List.countP_le_length (by decide)
  exact ⟨small, _, steps, few, rfl, rfl, (stale _ _ steps .refl few).2 ⟨0, 1⟩ List.mem_cons_self,
    by decide +kernel⟩

end AuditTrail.Pool

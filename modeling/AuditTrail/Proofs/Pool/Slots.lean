import AuditTrail.Proofs.Pool.Stale

namespace AuditTrail.Pool

/-- The slots of a pool between calls: each that was taken into use is open or free, what is closed
is empty, and a record is opened in a closed slot as long as there is one. -/
structure Accounted (p : Pool) : Prop where
  slots_le : p.slots.length ≤ p.config.maxRecords
  nodup : p.free.Nodup
  lt_length : ∀ i ∈ p.free, i < p.slots.length
  isOpen_iff : ∀ i, (p.slot i).isOpen = true ↔ i < p.slots.length ∧ i ∉ p.free
  openRecords_add : p.openRecords + p.free.length = p.slots.length
  openRecords_eq : p.openRecords = p.slots.countP (·.isOpen)
  closed : ∀ i, (p.slot i).isOpen = false → (p.slot i).tokens = [] ∧ (p.slot i).length = 0
  length_eq : ∀ i, (p.slot i).isOpen = true →
    (p.slot i).length = Token.totalLength (p.slot i).tokens
  opens_iff : (∃ d q, p.openRecord = (.ok d, q)) ↔ p.openRecords < p.config.maxRecords
  opens_closed : ∀ d q, p.openRecord = (.ok d, q) →
    (p.slot d.index.toNat).isOpen = false ∧ (q.slot d.index.toNat).isOpen = true

namespace Valid

variable {p : Pool} (h : Valid [] p)
include h

theorem exists_openRecord_iff :
    (∃ d q, p.openRecord = (.ok d, q)) ↔ p.openRecords < p.config.maxRecords := by
  constructor
  · rintro ⟨d, q, opened⟩
    refine Nat.lt_of_not_le fun full => ?_
    cases opened.symm.trans (h.openRecord_error full)
  · intro room
    obtain ⟨d, q, opened, -⟩ := h.openRecord_ok room
    exact ⟨d, q, opened⟩

theorem opens_closed {d : Descriptor} {q : Pool} (opened : p.openRecord = (.ok d, q)) :
    (p.slot d.index.toNat).isOpen = false ∧ (q.slot d.index.toNat).isOpen = true := by
  cases claimed : p.claim with
  | error e =>
    rw [openRecord, claimed] at opened
    cases opened
  | ok found =>
    obtain ⟨i, r⟩ := found
    have valid := h.of_claim claimed
    have within : i < r.slots.length := valid.lt_length i (by simp)
    rw [openRecord_of_claim claimed] at opened
    cases opened
    rw [nextDescriptor, valid.toNat_index within]
    constructor
    · exact h.closed_of_claim claimed
    · rw [fill, slot_setSlot within, if_pos rfl]

theorem accounted : p.Accounted where
  slots_le := h.slots_le
  nodup := by simpa using h.nodup
  lt_length := by simpa using h.lt_length
  isOpen_iff := by simpa using h.isOpen_iff
  openRecords_add := Nat.sub_add_cancel h.length_free_add_le
  openRecords_eq := Nat.sub_eq_of_eq_add h.length_slots_eq
  closed i closed := by
    have empty := (h.slot i).closed closed
    exact ⟨empty, by rw [(h.slot i).length_eq, empty]; rfl⟩
  length_eq i _ := (h.slot i).length_eq
  opens_iff := h.exists_openRecord_iff
  opens_closed _ _ := h.opens_closed

end Valid

namespace Shared

theorem Step.config_eq {s t : Shared} (step : Step s t) : t.pool.config = s.pool.config := by
  cases step with
  | claim claimed => exact config_of_claim claimed
  | write d token =>
    simp only [Pool.write]
    cases s.pool.find d <;> rfl
  | fill | detach | release => rfl

theorem config_of_steps {s t : Shared} (steps : Relation.ReflTransGen Step s t) :
    t.pool.config = s.pool.config := by
  induction steps with
  | refl => rfl
  | tail _ step ih => exact step.config_eq.trans ih

end Shared

/-- Whatever is asked of a new pool, and whatever its sink refuses, its slots are accounted for.
They also are while callers share the pool, if the slots are counted that are held by those who open
or close a record. -/
theorem slots_accounted {config : PoolConfig} (h : config.maxRecords ≤ UInt32.size) :
    (∀ (σ : Type) (sink : Sink σ) (calls : List Call) (state : σ),
      let p := (run sink calls ({ config }, state)).2.1
      p.config = config ∧ p.Accounted) ∧
    ∀ s : Shared, Relation.ReflTransGen Shared.Step { pool := { config } } s →
      s.pool.config = config ∧ s.pool.Valid (s.opening ++ s.closing) := by
  have shared (s : Shared) (steps : Relation.ReflTransGen Shared.Step { pool := { config } } s) :
      s.pool.config = config ∧ s.pool.Valid (s.opening ++ s.closing) :=
    ⟨Shared.config_of_steps steps, Shared.valid_of_steps steps (valid_new h)⟩
  refine ⟨fun σ sink calls state => ?_, shared⟩
  -- Between the calls of one caller no slot is held.
  obtain ⟨config, valid⟩ := shared _ (Shared.steps_of_run sink calls { pool := { config } } state)
  exact ⟨config, valid.accounted⟩

theorem slots_accounted_reused :
    let config : PoolConfig := { maxRecords := 2, maxRecordSize := 28 }
    let calls : List Call :=
      [.openRecord, .openRecord, .openRecord, .write ⟨0, 1⟩ (.port 25), .write ⟨1, 1⟩ (.port 26),
        .write ⟨1, 1⟩ (.port 27), .close ⟨0, 1⟩ true 7 {}, .close ⟨7, 1⟩ true 7 {}, .openRecord,
        .close ⟨0, 1⟩ true 7 {}, .write ⟨0, 2⟩ (.sequence 9), .close ⟨1, 1⟩ true 8 {}]
    let p : Pool :=
      { config
        slots := [{ generation := 2, isOpen := true, tokens := [.sequence 9], length := 5 },
          { generation := 1 }]
        free := [1] }
    config.maxRecords ≤ UInt32.size ∧
      (run (Sink.refuse ⟨.full, none⟩) calls ({ config }, ())).2.1 = p ∧ p.Accounted ∧
      Shared.Step { pool := { config } } { pool := { config, slots := [{}] }, opening := [0] } ∧
      Valid [0] { config, slots := [{}] } := by
  intro config calls p
  have small : config.maxRecords ≤ UInt32.size := by decide
  have ran : (run (Sink.refuse ⟨.full, none⟩) calls ({ config }, ())).2.1 = p := by
    decide +kernel
  have claimed : Shared.Step { pool := { config } }
      { pool := { config, slots := [{}] }, opening := [0] } := .claim rfl
  obtain ⟨sequential, shared⟩ := slots_accounted small
  have accounted := (sequential Unit (Sink.refuse ⟨.full, none⟩) calls ()).2
  rw [ran] at accounted
  exact ⟨small, ran, accounted, claimed, (shared _ (.single claimed)).2⟩

end AuditTrail.Pool

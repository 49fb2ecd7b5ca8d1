import AuditTrail.Proofs.Pool.Invariant

namespace AuditTrail

attribute [ext] Descriptor

def Slot.record? (s : Slot) (generation : UInt32) : Option (List Token) :=
  if s.isOpen ∧ s.generation = generation then some s.tokens else none

theorem Slot.record?_closed {s : Slot} (h : s.isOpen = false) (generation : UInt32) :
    s.record? generation = none := by
  simp [Slot.record?, h]

theorem Slot.record?_other {s : Slot} {generation : UInt32} (h : s.generation ≠ generation) :
    s.record? generation = none := by
  simp [Slot.record?, h]

namespace Pool

def record? (p : Pool) (d : Descriptor) : Option (List Token) :=
  (p.slot d.index.toNat).record? d.generation

theorem record?_eq_some_iff {p : Pool} {d : Descriptor} {tokens : List Token} :
    p.record? d = some tokens ↔ (p.slot d.index.toNat).isOpen = true ∧
      (p.slot d.index.toNat).generation = d.generation ∧
      (p.slot d.index.toNat).tokens = tokens := by
  simp [record?, Slot.record?, and_assoc]

theorem record?_setSlot {p : Pool} {d : Descriptor} {i : Nat} (hd : d.index.toNat = i)
    (hi : i < p.slots.length) {s : Slot}
    (old : ∀ g, g ≠ d.generation → (p.slot i).record? g = none)
    (new : s.generation = d.generation) (e : Descriptor) :
    (p.setSlot i s).record? e = if e = d then s.record? d.generation else p.record? e := by
  subst hd
  rw [record?, slot_setSlot hi]
  by_cases index : e.index = d.index
  · rw [if_pos (congrArg _ index)]
    by_cases generation : e.generation = d.generation
    · rw [if_pos (Descriptor.ext index generation), generation]
    · have other : e ≠ d := fun same => generation (congrArg _ same)
      rw [if_neg other, record?, index, old _ generation,
        Slot.record?_other (new ▸ Ne.symm generation)]
  · have other : e ≠ d := fun same => index (congrArg _ same)
    rw [if_neg fun same => index (UInt32.toNat_inj.1 same), if_neg other]
    rfl

theorem find_error {p : Pool} {d : Descriptor} (h : p.record? d = none) :
    ∃ e : PoolError, p.find d = .error e ∧ e.toError.kind = .invalidDescriptor := by
  by_cases beyond : p.config.maxRecords ≤ d.index.toNat
  · exact ⟨.noSlot d.index, if_pos beyond, rfl⟩
  · by_cases opened : (p.slot d.index.toNat).isOpen = true
    · have later : (p.slot d.index.toNat).generation ≠ d.generation := by
        intro same
        cases h.symm.trans (record?_eq_some_iff.2 ⟨opened, same, rfl⟩)
      refine ⟨.closedSince d.index d.generation (p.slot d.index.toNat).generation, ?_, rfl⟩
      simp [find, beyond, opened, later]
    · refine ⟨.notOpen d.index, ?_, rfl⟩
      simp [find, beyond, opened]

theorem Valid.find_ok {held : List Nat} {p : Pool} (h : Valid held p) {d : Descriptor}
    {tokens : List Token} (hd : p.record? d = some tokens) :
    p.find d = .ok (p.slot d.index.toNat) := by
  obtain ⟨opened, same, -⟩ := record?_eq_some_iff.1 hd
  have within : ¬p.config.maxRecords ≤ d.index.toNat :=
    Nat.not_le.2 (Nat.lt_of_lt_of_le (h.index_lt opened) h.slots_le)
  simp [find, within, opened, same]

def submission (config : PoolConfig) (wanted : Bool) (event : UInt16) (stamp : Stamp)
    (tokens : List Token) : Option (List UInt8) :=
  let size := Token.totalLength tokens + Token.headerSize + Token.trailerSize
  if wanted ∧ size ≤ config.maxRecordSize then
    some (Record.image event stamp (UInt32.ofNat size) tokens)
  else none

theorem image?_eq_submission (config : PoolConfig) (wanted : Bool) (event : UInt16)
    (stamp : Stamp) {s : Slot} (hs : s.Valid) :
    (if wanted then image? config event stamp s else none) =
      submission config wanted event stamp s.tokens := by
  have carried : ∀ n, n ≤ config.maxRecordSize ∧ n ≤ Record.maxSize ↔ n ≤ config.maxRecordSize :=
    fun n => and_iff_left_of_imp fun hn => Nat.le_trans hn config.carried
  simp only [image?, submission, carried, hs.length_eq]
  cases wanted
  · rfl
  · simp

theorem offer_aside (sink : Sink σ) (image : Option (List UInt8)) (p : Pool) (state : σ) :
    (aside sink).offer image (p, state) =
      ((sink.offer image state).1, (p, (sink.offer image state).2)) := by
  cases image <;> rfl

structure Updated (p : Pool) (d : Descriptor) (record : Option (List Token)) (q : Pool) : Prop where
  valid : Valid [] q
  config : q.config = p.config
  record?_eq : ∀ e, q.record? e = if e = d then record else p.record? e

namespace Valid

variable {held : List Nat} {p : Pool}

theorem openRecord_error (h : Valid held p) (full : p.config.maxRecords ≤ p.openRecords) :
    p.openRecord = (.error (.allOpen p.config.maxRecords), p) := by
  rw [openRecord, h.claim_error full]

theorem openRecord_ok (h : Valid [] p) (room : p.openRecords < p.config.maxRecords) :
    ∃ d q, p.openRecord = (.ok d, q) ∧ p.record? d = none ∧ p.Updated d (some []) q ∧
      q.openRecords = p.openRecords + 1 := by
  obtain ⟨i, q, claimed⟩ := exists_claim room
  have valid := h.of_claim claimed
  have config := config_of_claim claimed
  have slots := slot_of_claim claimed
  have closed := h.closed_of_claim claimed
  have within : i < q.slots.length := valid.lt_length i (by simp)
  have index := valid.toNat_index within
  refine ⟨⟨UInt32.ofNat i, (q.slot i).generation + 1⟩,
    q.setSlot i { generation := (q.slot i).generation + 1, isOpen := true }, ?_, ?_,
    ⟨valid.open_held (Slot.valid_opened _) rfl, config, ?_⟩, ?_⟩
  · rw [openRecord, claimed]
  · rw [record?, index, Slot.record?_closed closed]
  · intro e
    have old : ∀ g, (q.slot i).record? g = none := fun g => slots i ▸ Slot.record?_closed closed g
    have before : q.record? e = p.record? e := by rw [record?, record?, slots]
    rw [record?_setSlot (d := ⟨UInt32.ofNat i, _⟩) index within (fun g _ => old g) rfl, before]
    simp [Slot.record?]
  · rw [openRecords_setSlot, h.openRecords_of_claim claimed]

theorem record?_setSlot (h : Valid [] p) {d : Descriptor} {tokens : List Token}
    (hd : p.record? d = some tokens) {s : Slot} (same : s.generation = d.generation)
    (e : Descriptor) :
    (p.setSlot d.index.toNat s).record? e =
      if e = d then s.record? d.generation else p.record? e := by
  obtain ⟨opened, now, -⟩ := record?_eq_some_iff.1 hd
  refine Pool.record?_setSlot rfl (h.index_lt opened) ?_ same e
  intro g other
  exact Slot.record?_other (now ▸ Ne.symm other)

theorem write_ok (h : Valid [] p) {d : Descriptor} {tokens : List Token}
    (hd : p.record? d = some tokens) (token : Token) :
    ∃ q, p.write d token = (.ok (), q) ∧ p.Updated d (some (tokens ++ [token])) q ∧
      q.openRecords = p.openRecords := by
  have found := h.find_ok hd
  have valid := h.of_write d token
  obtain ⟨opened, same, rfl⟩ := record?_eq_some_iff.1 hd
  rw [write, found] at valid
  generalize p.slot d.index.toNat = s at *
  refine ⟨p.setSlot d.index.toNat
    { s with tokens := s.tokens ++ [token], length := s.length + token.encodedLength }, ?_,
    ⟨valid, rfl, ?_⟩, ?_⟩
  · rw [write, found]
  · intro e
    rw [h.record?_setSlot hd]
    · simp [Slot.record?, opened, same]
    · exact same
  · exact openRecords_setSlot ..

theorem length_ok (h : Valid [] p) {d : Descriptor} {tokens : List Token}
    (hd : p.record? d = some tokens) : p.length d = .ok (Token.totalLength tokens) := by
  obtain ⟨-, -, rfl⟩ := record?_eq_some_iff.1 hd
  rw [length, h.find_ok hd, ← (h.slot d.index.toNat).length_eq]
  rfl

theorem close_ok (h : Valid [] p) {d : Descriptor} {tokens : List Token}
    (hd : p.record? d = some tokens) :
    ∃ q, p.Updated d none q ∧ q.openRecords + 1 = p.openRecords ∧
      ∀ (σ : Type) (sink : Sink σ) (wanted : Bool) (event : UInt16) (stamp : Stamp) (state : σ),
        close sink d wanted event stamp (p, state) =
          let result := sink.offer (submission p.config wanted event stamp tokens) state
          (result.1.mapError .refused, (q, result.2)) := by
  have found := h.find_ok hd
  have valid := h.slot d.index.toNat
  obtain ⟨opened, same, rfl⟩ := record?_eq_some_iff.1 hd
  -- Between the two parts of a close the slot is held.
  have detached := h.of_detach found
  generalize p.slot d.index.toNat = s at *
  refine ⟨(p.detach d.index.toNat s).release d.index.toNat, ⟨detached.of_release, rfl, ?_⟩, ?_, ?_⟩
  · intro e
    refine (h.record?_setSlot hd (s := { generation := s.generation }) same e).trans ?_
    rw [Slot.record?_closed rfl]
  · rw [detached.openRecords_release]
    exact openRecords_setSlot ..
  · intro σ sink wanted event stamp state
    rw [close, closeWith, found, ← image?_eq_submission _ _ _ _ valid]
    simp only [offer_aside]

end Valid

end Pool

end AuditTrail

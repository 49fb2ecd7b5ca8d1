import AuditTrail.Pool
import AuditTrail.Proofs.Record.Image
import Mathlib.Data.List.Nodup

namespace AuditTrail

structure Slot.Valid (s : Slot) : Prop where
  closed : s.isOpen = false → s.tokens = []
  length_eq : s.length = Token.totalLength s.tokens

theorem Slot.valid_closed (generation : UInt32) : Slot.Valid { generation } := ⟨fun _ => rfl, rfl⟩

theorem Slot.valid_opened (generation : UInt32) : Slot.Valid { generation, isOpen := true } :=
  ⟨fun _ => rfl, rfl⟩

namespace Pool

/-- A pool of which the slots that are neither open nor free are the ones held. -/
structure Valid (held : List Nat) (p : Pool) : Prop where
  indexed : p.config.maxRecords ≤ UInt32.size
  slots_le : p.slots.length ≤ p.config.maxRecords
  nodup : (p.free ++ held).Nodup
  lt_length : ∀ i ∈ p.free ++ held, i < p.slots.length
  isOpen_iff : ∀ i, (p.slot i).isOpen = true ↔ i < p.slots.length ∧ i ∉ p.free ++ held
  slot : ∀ i, (p.slot i).Valid

@[simp] theorem length_setSlot (p : Pool) (i : Nat) (s : Slot) :
    (p.setSlot i s).slots.length = p.slots.length := List.length_set ..

@[simp] theorem openRecords_setSlot (p : Pool) (i : Nat) (s : Slot) :
    (p.setSlot i s).openRecords = p.openRecords := by
  rw [openRecords, length_setSlot]
  rfl

theorem slot_setSlot {p : Pool} {i : Nat} (hi : i < p.slots.length) (s : Slot) (j : Nat) :
    (p.setSlot i s).slot j = if j = i then s else p.slot j := by
  rw [slot, setSlot, List.getElem?_set]
  split
  · rename_i same
    rw [if_pos same.symm]
    simp
  · rename_i other
    rw [if_neg (Ne.symm other)]
    rfl

theorem slots_eq_map (p : Pool) : p.slots = (List.range p.slots.length).map p.slot := by
  refine List.ext_getElem (by simp) fun i within _ => ?_
  simp [Pool.slot, within]

theorem slot_of_length_le {p : Pool} {i : Nat} (hi : p.slots.length ≤ i) : p.slot i = {} := by
  rw [slot, List.getElem?_eq_none hi]
  rfl

theorem slot_append_closed (p : Pool) (i : Nat) :
    slot { p with slots := p.slots ++ [{}] } i = p.slot i := by
  rcases Nat.lt_or_ge i p.slots.length with within | beyond
  · simp only [slot, List.getElem?_append_left within]
  · rw [slot_of_length_le beyond, slot, List.getElem?_append_right beyond]
    cases i - p.slots.length <;> rfl

theorem valid_new {config : PoolConfig} (h : config.maxRecords ≤ UInt32.size) :
    Valid [] { config } where
  indexed := h
  slots_le := Nat.zero_le _
  nodup := List.nodup_nil
  lt_length := by simp
  isOpen_iff := by simp [Pool.slot]
  slot _ := Slot.valid_closed 0

theorem claim_eq_ok {p q : Pool} {i : Nat} (h : p.claim = .ok (i, q)) :
    (∃ free, p.free = i :: free ∧ q = { p with free }) ∨
      p.free = [] ∧ p.slots.length < p.config.maxRecords ∧ i = p.slots.length ∧
        q = { p with slots := p.slots ++ [{}] } := by
  unfold claim at h
  split at h
  · next free here =>
    cases h
    exact .inl ⟨free, here, rfl⟩
  · next empty =>
    split at h
    · next room =>
      cases h
      exact .inr ⟨empty, room, rfl, rfl⟩
    · cases h

theorem claim_eq_error {p : Pool} {e : PoolError} (h : p.claim = .error e) :
    p.free = [] ∧ p.config.maxRecords ≤ p.slots.length ∧ e = .allOpen p.config.maxRecords := by
  unfold claim at h
  split at h
  · cases h
  · next empty =>
    split at h
    · cases h
    · next full =>
      cases h
      exact ⟨empty, Nat.le_of_not_lt full, rfl⟩

theorem exists_claim {p : Pool} (room : p.openRecords < p.config.maxRecords) :
    ∃ i q, p.claim = .ok (i, q) := by
  cases claimed : p.claim with
  | ok found => exact ⟨found.1, found.2, rfl⟩
  | error e =>
    obtain ⟨empty, full, -⟩ := claim_eq_error claimed
    rw [openRecords, empty] at room
    exact absurd room (Nat.not_lt.2 full)

theorem config_of_claim {p q : Pool} {i : Nat} (h : p.claim = .ok (i, q)) :
    q.config = p.config := by
  obtain ⟨free, -, rfl⟩ | ⟨-, -, -, rfl⟩ := claim_eq_ok h <;> rfl

theorem slot_of_claim {p q : Pool} {i : Nat} (h : p.claim = .ok (i, q)) (j : Nat) :
    q.slot j = p.slot j := by
  obtain ⟨free, -, rfl⟩ | ⟨-, -, -, rfl⟩ := claim_eq_ok h
  · rfl
  · exact slot_append_closed p j

theorem find_eq_ok {p : Pool} {d : Descriptor} {s : Slot} (h : p.find d = .ok s) :
    p.slot d.index.toNat = s ∧ s.isOpen = true ∧ s.generation = d.generation := by
  simp only [find] at h
  split_ifs at h with beyond closed later
  cases h
  exact ⟨rfl, by simpa using closed, not_not.1 later⟩

namespace Valid

variable {held : List Nat} {p : Pool}

theorem index_lt (h : Valid held p) {i : Nat} (hi : (p.slot i).isOpen = true) :
    i < p.slots.length := ((h.isOpen_iff i).1 hi).1

theorem toNat_index (h : Valid held p) {i : Nat} (hi : i < p.slots.length) :
    (UInt32.ofNat i).toNat = i :=
  UInt32.toNat_ofNat_of_lt' (Nat.lt_of_lt_of_le hi (Nat.le_trans h.slots_le h.indexed))

theorem closed_perm (h : Valid held p) :
    ((List.range p.slots.length).filter fun i => !(p.slot i).isOpen).Perm (p.free ++ held) := by
  refine (List.perm_ext_iff_of_nodup (List.nodup_range.filter _) h.nodup).2 fun i => ?_
  rw [List.mem_filter, List.mem_range, Bool.not_eq_true', ← Bool.not_eq_true, h.isOpen_iff]
  constructor
  · rintro ⟨within, closed⟩
    exact not_not.1 fun used => closed ⟨within, used⟩
  · intro unused
    exact ⟨h.lt_length i unused, fun opened => opened.2 unused⟩

theorem length_slots_eq (h : Valid held p) :
    p.slots.length = p.slots.countP (·.isOpen) + (p.free.length + held.length) := by
  have closed : p.slots.countP (!·.isOpen) = p.free.length + held.length := by
    rw [slots_eq_map p, List.countP_map, ← List.length_append, ← h.closed_perm.length_eq]
    exact List.countP_eq_length_filter
  rw [← closed]
  simpa using List.length_eq_countP_add_countP Slot.isOpen (l := p.slots)

theorem length_free_add_le (h : Valid held p) :
    p.free.length + held.length ≤ p.slots.length := by
  rw [h.length_slots_eq]
  exact Nat.le_add_left _ _

theorem openRecords_release {i : Nat} (h : Valid (i :: held) p) :
    (p.release i).openRecords + 1 = p.openRecords := by
  have count := h.length_free_add_le
  rw [List.length_cons] at count
  change p.slots.length - (p.free.length + 1) + 1 = p.slots.length - p.free.length
  omega

theorem of_perm (h : Valid held p) {free held' : List Nat}
    (perm : (free ++ held').Perm (p.free ++ held)) : Valid held' { p with free } where
  indexed := h.indexed
  slots_le := h.slots_le
  nodup := perm.nodup_iff.2 h.nodup
  lt_length i hi := h.lt_length i (perm.mem_iff.1 hi)
  isOpen_iff i := (h.isOpen_iff i).trans (and_congr_right' (not_congr perm.mem_iff.symm))
  slot := h.slot

theorem extend (h : Valid held p) (room : p.slots.length < p.config.maxRecords) :
    Valid (p.slots.length :: held) { p with slots := p.slots ++ [{}] } where
  indexed := h.indexed
  slots_le := by
    rw [List.length_append]
    exact room
  nodup := by
    -- The new index lies past every slot in use, so neither list has it.
    refine List.perm_middle.nodup_iff.2 (List.nodup_cons.2 ⟨fun hi => ?_, h.nodup⟩)
    exact Nat.lt_irrefl _ (h.lt_length _ hi)
  lt_length i hi := by
    rw [List.length_append]
    rcases List.mem_cons.1 (List.perm_middle.mem_iff.1 hi) with rfl | hi
    · exact Nat.lt_succ_self _
    · exact Nat.lt_succ_of_lt (h.lt_length i hi)
  isOpen_iff i := by
    rw [slot_append_closed, h.isOpen_iff, List.length_append, List.perm_middle.mem_iff,
      List.mem_cons, List.length_singleton]
    constructor
    · rintro ⟨hi, used⟩
      exact ⟨Nat.lt_succ_of_lt hi, not_or.2 ⟨Nat.ne_of_lt hi, used⟩⟩
    · rintro ⟨hi, used⟩
      exact ⟨Nat.lt_of_le_of_ne (Nat.le_of_lt_succ hi) (not_or.1 used).1, (not_or.1 used).2⟩
  slot i := slot_append_closed p i ▸ h.slot i

theorem of_claim (h : Valid held p) {i : Nat} {q : Pool} (claimed : p.claim = .ok (i, q)) :
    Valid (i :: held) q := by
  obtain ⟨free, here, rfl⟩ | ⟨-, room, rfl, rfl⟩ := claim_eq_ok claimed
  · refine h.of_perm ?_
    rw [here]
    exact List.perm_middle
  · exact h.extend room

theorem closed_of_claim (h : Valid held p) {i : Nat} {q : Pool} (claimed : p.claim = .ok (i, q)) :
    (p.slot i).isOpen = false := by
  rw [← slot_of_claim claimed, ← Bool.not_eq_true, (h.of_claim claimed).isOpen_iff]
  simp

theorem openRecords_of_claim (h : Valid held p) {i : Nat} {q : Pool}
    (claimed : p.claim = .ok (i, q)) : q.openRecords = p.openRecords + 1 := by
  have count := (h.of_claim claimed).length_free_add_le
  obtain ⟨free, here, rfl⟩ | ⟨empty, -, -, rfl⟩ := claim_eq_ok claimed
  · simp only [openRecords, here, List.length_cons] at count ⊢
    omega
  · simp [openRecords, empty]

theorem claim_error (h : Valid held p) (full : p.config.maxRecords ≤ p.openRecords) :
    p.claim = .error (.allOpen p.config.maxRecords) := by
  cases claimed : p.claim with
  | error e => rw [(claim_eq_error claimed).2.2]
  | ok found =>
    -- The claim would leave more records open than there may be.
    have bound := (h.of_claim claimed).slots_le
    have count := h.openRecords_of_claim claimed
    rw [config_of_claim claimed] at bound
    rw [openRecords] at count
    omega

theorem mem_held_cons {i j : Nat} (other : j ≠ i) (free held : List Nat) :
    j ∈ free ++ i :: held ↔ j ∈ free ++ held := by
  rw [List.perm_middle.mem_iff, List.mem_cons, or_iff_right other]

theorem setSlot (h : Valid held p) {held' : List Nat} {i : Nat} {s : Slot}
    (hi : i < p.slots.length) (hs : s.Valid) (nodup : (p.free ++ held').Nodup)
    (here : s.isOpen = true ↔ i ∉ p.free ++ held')
    (others : ∀ j, j ≠ i → (j ∈ p.free ++ held' ↔ j ∈ p.free ++ held)) :
    Valid held' (p.setSlot i s) where
  indexed := h.indexed
  slots_le := by
    rw [length_setSlot]
    exact h.slots_le
  nodup := nodup
  lt_length j hj := by
    rw [length_setSlot]
    by_cases same : j = i
    · exact same ▸ hi
    · exact h.lt_length j ((others j same).1 hj)
  isOpen_iff j := by
    rw [length_setSlot, slot_setSlot hi]
    split
    · rename_i same
      subst same
      exact here.trans ⟨fun used => ⟨hi, used⟩, And.right⟩
    · rename_i other
      exact (h.isOpen_iff j).trans (and_congr_right' (not_congr (others j other).symm))
  slot j := by
    rw [slot_setSlot hi]
    split
    · exact hs
    · exact h.slot j

theorem open_held {i : Nat} (h : Valid (i :: held) p) {s : Slot} (hs : s.Valid)
    (opened : s.isOpen = true) : Valid held (p.setSlot i s) := by
  have nodup := List.nodup_cons.1 (List.perm_middle.nodup_iff.1 h.nodup)
  refine h.setSlot (h.lt_length i (by simp)) hs nodup.2 (iff_of_true opened nodup.1) ?_
  intro j other
  exact (mem_held_cons other p.free held).symm

theorem hold_open {i : Nat} (h : Valid held p) (hi : (p.slot i).isOpen = true) {s : Slot}
    (hs : s.Valid) (closed : s.isOpen = false) : Valid (i :: held) (p.setSlot i s) := by
  have used := (h.isOpen_iff i).1 hi
  have nodup : (p.free ++ i :: held).Nodup :=
    List.perm_middle.nodup_iff.2 (List.nodup_cons.2 ⟨used.2, h.nodup⟩)
  refine h.setSlot used.1 hs nodup (iff_of_false (by simp [closed]) (by simp)) ?_
  intro j other
  exact mem_held_cons other p.free held

theorem change_open {i : Nat} (h : Valid held p) (hi : (p.slot i).isOpen = true) {s : Slot}
    (hs : s.Valid) (opened : s.isOpen = true) : Valid held (p.setSlot i s) :=
  have used := (h.isOpen_iff i).1 hi
  h.setSlot used.1 hs h.nodup (iff_of_true opened used.2) fun _ _ => Iff.rfl

theorem of_write (h : Valid held p) (d : Descriptor) (token : Token) :
    Valid held (p.write d token).2 := by
  cases found : p.find d with
  | error e =>
    rw [write, found]
    exact h
  | ok slot =>
    rw [write, found]
    obtain ⟨rfl, opened, -⟩ := find_eq_ok found
    refine h.change_open opened ⟨fun closed => ?_, ?_⟩ opened
    · cases opened.symm.trans closed
    · rw [Token.totalLength_append, ← (h.slot d.index.toNat).length_eq]
      rfl

theorem of_detach (h : Valid held p) {d : Descriptor} {slot : Slot} (found : p.find d = .ok slot) :
    Valid (d.index.toNat :: held) (p.detach d.index.toNat slot) := by
  obtain ⟨rfl, opened, -⟩ := find_eq_ok found
  exact h.hold_open opened (Slot.valid_closed _) rfl

theorem of_release {i : Nat} (h : Valid (i :: held) p) : Valid held (p.release i) :=
  h.of_perm List.perm_middle.symm

end Valid

end Pool

end AuditTrail

import AuditTrail.Proofs.Pool.Records
import Mathlib.Data.List.Nodup
import Mathlib.Logic.Relation

/-! A pool that several callers share. To open and to close a record takes two steps each, between
which the slot is held and others may take theirs. Descriptors of one slot are numbered in the order
in which they are handed out, so as long as the numbers do not come round again, no two descriptors
are the same and none names a record after its own was closed. -/

namespace AuditTrail.Pool

def nextDescriptor (p : Pool) (i : Nat) : Descriptor :=
  ⟨UInt32.ofNat i, (p.slot i).generation + 1⟩

def fill (p : Pool) (i : Nat) : Pool :=
  p.setSlot i { generation := (p.slot i).generation + 1, isOpen := true }

theorem openRecord_of_claim {p q : Pool} {i : Nat} (h : p.claim = .ok (i, q)) :
    p.openRecord = (.ok (q.nextDescriptor i), q.fill i) := by
  rw [openRecord, h]
  rfl

/-- A pool, the slots held by callers that open or close a record in them, and beside these the
descriptors handed out so far and those whose record was closed. -/
structure Shared where
  pool : Pool
  opening : List Nat := []
  closing : List Nat := []
  opened : List Descriptor := []
  closed : List Descriptor := []

namespace Shared

def cycles (s : Shared) (i : Nat) : Nat := s.opened.countP (·.index.toNat == i)

def fill (s : Shared) (i : Nat) : Shared :=
  { s with
    pool := s.pool.fill i
    opening := s.opening.erase i
    opened := s.opened ++ [s.pool.nextDescriptor i] }

def detach (s : Shared) (d : Descriptor) (slot : Slot) : Shared :=
  { s with
    pool := s.pool.detach d.index.toNat slot
    closing := d.index.toNat :: s.closing
    closed := s.closed ++ [d] }

def release (s : Shared) (i : Nat) : Shared :=
  { s with pool := s.pool.release i, closing := s.closing.erase i }

/-- What a caller does at once, without others coming between. Calls that fail do nothing. -/
inductive Step (s : Shared) : Shared → Prop
  | claim {i : Nat} {q : Pool} (h : s.pool.claim = .ok (i, q)) :
      Step s { s with pool := q, opening := i :: s.opening }
  | fill {i : Nat} (h : i ∈ s.opening) : Step s (s.fill i)
  | write (d : Descriptor) (token : Token) : Step s { s with pool := (s.pool.write d token).2 }
  | detach {d : Descriptor} {slot : Slot} (h : s.pool.find d = .ok slot) : Step s (s.detach d slot)
  | release {i : Nat} (h : i ∈ s.closing) : Step s (s.release i)

end Shared

section

variable {held : List Nat} {p : Pool} {d : Descriptor} {slot : Slot}

theorem Valid.of_fill {i : Nat} (h : Valid (i :: held) p) : Valid held (p.fill i) :=
  h.open_held (Slot.valid_opened _) rfl

theorem Valid.record?_setSlot_of_find (h : Valid held p) (found : p.find d = .ok slot)
    (new : Slot) (same : new.generation = slot.generation) (e : Descriptor) :
    (p.setSlot d.index.toNat new).record? e =
      if e = d then new.record? d.generation else p.record? e := by
  obtain ⟨rfl, opened, now⟩ := find_eq_ok found
  refine Pool.record?_setSlot rfl (h.index_lt opened) (fun g other => ?_) (same.trans now) e
  exact Slot.record?_other (now ▸ Ne.symm other)

theorem generation_setSlot {i : Nat} (hi : i < p.slots.length) {new : Slot}
    (same : new.generation = (p.slot i).generation) (j : Nat) :
    ((p.setSlot i new).slot j).generation = (p.slot j).generation := by
  rw [slot_setSlot hi]
  split
  · next here => rw [here, same]
  · rfl

theorem record?_ne_none_of_find (found : p.find d = .ok slot) : p.record? d ≠ none := by
  obtain ⟨rfl, opened, now⟩ := find_eq_ok found
  simp [record?, Slot.record?, opened, now]

end

namespace Shared

theorem cycles_fill (s : Shared) (i j : Nat) (hi : (UInt32.ofNat i).toNat = i) :
    (s.fill i).cycles j = s.cycles j + if i = j then 1 else 0 := by
  simp [cycles, fill, nextDescriptor, hi, List.countP_append, List.countP_singleton]

theorem mem_held {s : Shared} {i : Nat} (held : i ∈ s.opening) :
    i ∈ s.pool.free ++ (s.opening ++ s.closing) :=
  List.mem_append_right _ (List.mem_append_left _ held)

theorem Step.valid {s t : Shared} (step : Step s t) (h : s.pool.Valid (s.opening ++ s.closing)) :
    t.pool.Valid (t.opening ++ t.closing) := by
  cases step with
  | claim claimed => exact h.of_claim claimed
  | @fill i held =>
    have perm : (i :: (s.opening.erase i ++ s.closing)).Perm (s.opening ++ s.closing) :=
      (List.perm_cons_erase held).symm.append_right s.closing
    exact (h.of_perm (perm.append_left _)).of_fill
  | write d token => exact h.of_write d token
  | detach found => exact (h.of_detach found).of_perm (List.perm_middle.append_left _)
  | @release i held =>
    have perm : (i :: (s.opening ++ s.closing.erase i)).Perm (s.opening ++ s.closing) :=
      List.perm_middle.symm.trans ((List.perm_cons_erase held).symm.append_left s.opening)
    exact (h.of_perm (perm.append_left _)).of_release

theorem valid_of_steps {s t : Shared} (steps : Relation.ReflTransGen Step s t)
    (h : s.pool.Valid (s.opening ++ s.closing)) : t.pool.Valid (t.opening ++ t.closing) := by
  induction steps with
  | refl => exact h
  | tail _ step ih => exact step.valid ih

/-- The descriptors of each slot are numbered from one on, and what is open was handed out and not
closed. -/
structure Sound (s : Shared) : Prop where
  valid : s.pool.Valid (s.opening ++ s.closing)
  generation_eq : ∀ i, (s.pool.slot i).generation = UInt32.ofNat (s.cycles i)
  numbered : ∀ d ∈ s.opened, ∃ k < s.cycles d.index.toNat, d.generation = UInt32.ofNat (k + 1)
  distinct : s.opened.Nodup
  live : ∀ d, s.pool.record? d ≠ none → d ∈ s.opened
  closed_subset : s.closed ⊆ s.opened
  dead : ∀ d ∈ s.closed, s.pool.record? d = none

theorem sound_new {config : PoolConfig} (h : config.maxRecords ≤ UInt32.size) :
    Sound { pool := { config } } where
  valid := valid_new h
  generation_eq _ := rfl
  numbered := nofun
  distinct := List.nodup_nil
  live d named := by simp [record?, Slot.record?, Pool.slot] at named
  closed_subset := List.nil_subset _
  dead := nofun

namespace Sound

variable {s : Shared} (h : s.Sound)
include h

theorem change {p : Pool} {opening closing : List Nat} (valid : p.Valid (opening ++ closing))
    (generation : ∀ i, (p.slot i).generation = (s.pool.slot i).generation)
    (live : ∀ d, s.pool.record? d = none → p.record? d = none) :
    Sound { s with pool := p, opening, closing } where
  valid := valid
  generation_eq i := (generation i).trans (h.generation_eq i)
  numbered := h.numbered
  distinct := h.distinct
  live d named := h.live d (mt (live d) named)
  closed_subset := h.closed_subset
  dead d member := live d (h.dead d member)

theorem claim {i : Nat} {q : Pool} (claimed : s.pool.claim = .ok (i, q)) :
    Sound { s with pool := q, opening := i :: s.opening } := by
  have slots := slot_of_claim claimed
  refine h.change ((Step.claim claimed).valid h.valid) (fun j => by rw [slots]) fun d named => ?_
  rw [record?, slots]
  exact named

theorem release {i : Nat} (held : i ∈ s.closing) : (s.release i).Sound :=
  h.change ((Step.release held).valid h.valid) (fun _ => rfl) fun _ => id

theorem replace {d : Descriptor} {slot : Slot} (found : s.pool.find d = .ok slot) (new : Slot)
    (same : new.generation = slot.generation) {opening closing : List Nat}
    (valid : (s.pool.setSlot d.index.toNat new).Valid (opening ++ closing)) :
    Sound { s with pool := s.pool.setSlot d.index.toNat new, opening, closing } := by
  obtain ⟨rfl, opened, -⟩ := find_eq_ok found
  refine h.change valid (generation_setSlot (h.valid.index_lt opened) same) fun e named => ?_
  rw [h.valid.record?_setSlot_of_find found new same, if_neg, named]
  rintro rfl
  exact record?_ne_none_of_find found named

theorem write (d : Descriptor) (token : Token) :
    Sound { s with pool := (s.pool.write d token).2 } := by
  cases found : s.pool.find d with
  | error e =>
    rw [Pool.write, found]
    exact h
  | ok slot =>
    rw [Pool.write, found]
    have valid := (Step.write d token).valid h.valid
    rw [Pool.write, found] at valid
    exact h.replace found
      { slot with tokens := slot.tokens ++ [token], length := slot.length + token.encodedLength }
      rfl valid

theorem detach {d : Descriptor} {slot : Slot} (found : s.pool.find d = .ok slot) :
    (s.detach d slot).Sound := by
  have handed := h.live d (record?_ne_none_of_find found)
  have dead := h.valid.record?_setSlot_of_find found { generation := slot.generation } rfl d
  rw [if_pos rfl, Slot.record?_closed rfl] at dead
  have after := h.replace found { generation := slot.generation } rfl
    ((Step.detach found).valid h.valid)
  refine ⟨after.valid, after.generation_eq, after.numbered, after.distinct, after.live, ?_, ?_⟩
  · exact List.append_subset.2 ⟨after.closed_subset, List.cons_subset.2 ⟨handed, List.nil_subset _⟩⟩
  · intro e member
    rcases List.mem_append.1 member with earlier | here
    · exact after.dead e earlier
    · rw [List.mem_singleton.1 here]
      exact dead

theorem next_generation (i : Nat) :
    (s.pool.slot i).generation + 1 = UInt32.ofNat (s.cycles i + 1) := by
  rw [h.generation_eq, UInt32.ofNat_add]
  rfl

section

variable {i : Nat} (held : i ∈ s.opening)
include held

theorem next_index : (UInt32.ofNat i).toNat = i :=
  h.valid.toNat_index (h.valid.lt_length i (mem_held held))

theorem record?_fill (e : Descriptor) :
    (s.fill i).pool.record? e =
      if e = s.pool.nextDescriptor i then some [] else s.pool.record? e := by
  have among := mem_held held
  have closed : (s.pool.slot i).isOpen = false := by
    rw [← Bool.not_eq_true, h.valid.isOpen_iff]
    exact fun opened => opened.2 among
  have empty : Slot.record? { generation := (s.pool.slot i).generation + 1, isOpen := true }
      (s.pool.nextDescriptor i).generation = some [] := if_pos ⟨rfl, rfl⟩
  rw [← empty]
  exact record?_setSlot (h.next_index held) (h.valid.lt_length i among)
    (fun g _ => Slot.record?_closed closed g) rfl e

theorem next_not_mem (few : s.cycles i < UInt32.size) : s.pool.nextDescriptor i ∉ s.opened := by
  intro member
  obtain ⟨k, hk, same⟩ := h.numbered _ member
  rw [nextDescriptor] at hk same
  rw [h.next_index held] at hk
  have numbers := congrArg UInt32.toNat ((h.next_generation i).symm.trans same)
  -- Numbers from one up to how many there are stay different in 32 bits; only the last can be zero.
  rw [UInt32.toNat_ofNat', UInt32.toNat_ofNat'] at numbers
  rw [UInt32.size] at few
  omega

theorem fill (few : s.cycles i < UInt32.size) : (s.fill i).Sound := by
  have inside := h.valid.lt_length i (mem_held held)
  have cycles := fun j => cycles_fill s i j (h.next_index held)
  have new := h.next_not_mem held few
  constructor
  case valid => exact (Step.fill held).valid h.valid
  case generation_eq =>
    intro j
    rw [cycles]
    refine (congrArg Slot.generation (slot_setSlot inside _ j)).trans ?_
    by_cases here : j = i
    · rw [if_pos here, if_pos here.symm, here]
      exact h.next_generation i
    · rw [if_neg here, if_neg (Ne.symm here)]
      exact h.generation_eq j
  case numbered =>
    intro d member
    rw [cycles]
    rcases List.mem_append.1 member with earlier | here
    · obtain ⟨k, hk, same⟩ := h.numbered d earlier
      exact ⟨k, Nat.lt_add_right _ hk, same⟩
    · cases List.mem_singleton.1 here
      refine ⟨s.cycles i, ?_, h.next_generation i⟩
      rw [nextDescriptor, h.next_index held, if_pos rfl]
      exact Nat.lt_succ_self _
  case distinct =>
    exact h.distinct.append (List.nodup_singleton _) (List.disjoint_singleton.2 new)
  -- Only the new descriptor comes to name a record, and no closed one is the same as it.
  case live =>
    intro d alive
    by_cases same : d = s.pool.nextDescriptor i
    · exact List.mem_append_right _ (List.mem_singleton.2 same)
    · rw [h.record?_fill held, if_neg same] at alive
      exact List.mem_append_left _ (h.live d alive)
  case closed_subset => exact List.subset_append_of_subset_left _ h.closed_subset
  case dead =>
    intro d member
    rw [h.record?_fill held, if_neg, h.dead d member]
    rintro rfl
    exact new (h.closed_subset member)

end

theorem step {t : Shared} (step : Step s t) (few : ∀ i, t.cycles i ≤ UInt32.size) : t.Sound := by
  cases step with
  | claim claimed => exact h.claim claimed
  | @fill i held =>
    have count := few i
    rw [cycles_fill s i i (h.next_index held), if_pos rfl] at count
    exact h.fill held count
  | write d token => exact h.write d token
  | detach found => exact h.detach found
  | release held => exact h.release held

end Sound

theorem Step.cycles_le {s t : Shared} (step : Step s t) (i : Nat) : s.cycles i ≤ t.cycles i := by
  cases step with
  | fill =>
    rw [cycles, cycles, Shared.fill, List.countP_append]
    exact Nat.le_add_right _ _
  | claim | write | detach | release => exact Nat.le_refl _

theorem closed_subset_of_steps {s t : Shared} (steps : Relation.ReflTransGen Step s t) :
    s.closed ⊆ t.closed := by
  induction steps with
  | refl => exact List.Subset.refl _
  | tail _ step ih =>
    cases step with
    | detach => exact List.subset_append_of_subset_left _ ih
    | claim | fill | write | release => exact ih

theorem sound_of_steps {config : PoolConfig} (h : config.maxRecords ≤ UInt32.size) {s : Shared}
    (steps : Relation.ReflTransGen Step { pool := { config } } s)
    (few : ∀ i, s.cycles i ≤ UInt32.size) : s.Sound := by
  induction steps with
  | refl => exact sound_new h
  | tail _ step ih => exact (ih fun i => Nat.le_trans (step.cycles_le i) (few i)).step step few

end Shared

end AuditTrail.Pool

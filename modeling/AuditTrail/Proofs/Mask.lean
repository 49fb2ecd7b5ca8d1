import AuditTrail.Mask

namespace AuditTrail.Mask

def audits (m : Mask) (o : Outcome) (k : Nat) : Bool := (m.on o).toBitVec.getLsbD k

theorem getLsbD_and_not (v w : UInt32) (k : Nat) :
    (v &&& ~~~w).toBitVec.getLsbD k = (v.toBitVec.getLsbD k && !w.toBitVec.getLsbD k) := by
  by_cases inside : k < 32
  · simp [inside]
  · simp [BitVec.getLsbD_of_ge v.toBitVec k (Nat.not_lt.1 inside)]

theorem ne_zero_iff (w : UInt32) : w ≠ 0 ↔ ∃ k, w.toBitVec.getLsbD k = true := by
  constructor
  · intro nonzero
    refine Classical.byContradiction fun none => nonzero ?_
    rw [← UInt32.toBitVec_inj]
    refine BitVec.eq_of_getLsbD_eq fun k _ => ?_
    simpa using fun set => none ⟨k, set⟩
  · rintro ⟨k, set⟩ rfl
    simp at set

variable (m n : Mask) (bits : UInt32) (selection : Selection) (o : Outcome) (k : Nat)

@[simp] theorem audits_empty : audits {} o k = false := by
  cases o <;> exact BitVec.getLsbD_zero

theorem audits_add : (m.add bits selection).audits o k =
    (m.audits o k || selection.covers o && bits.toBitVec.getLsbD k) := by
  rw [audits, add, on_ofOutcomes, audits]
  cases selection.covers o <;> simp

theorem audits_remove : (m.remove bits selection).audits o k =
    (m.audits o k && !(selection.covers o && bits.toBitVec.getLsbD k)) := by
  rw [audits, remove, on_ofOutcomes, audits]
  cases selection.covers o
  · simp
  · simp only [if_true, getLsbD_and_not, Bool.true_and]

theorem audits_union : (m.union n).audits o k = (m.audits o k || n.audits o k) := by
  simp [audits, union]

theorem audits_diff : (m.diff n).audits o k = (m.audits o k && !n.audits o k) := by
  rw [audits, diff, on_ofOutcomes, getLsbD_and_not, audits, audits]

theorem selects_iff : m.selects bits selection = true ↔
    ∃ o k, selection.covers o = true ∧ bits.toBitVec.getLsbD k = true ∧ m.audits o k = true := by
  have shared (o : Outcome) : (m.on o &&& bits != 0) = true ↔
      ∃ k, bits.toBitVec.getLsbD k = true ∧ m.audits o k = true := by
    simp only [bne_iff_ne, ne_zero_iff, audits, UInt32.toBitVec_and, BitVec.getLsbD_and,
      Bool.and_eq_true, and_comm]
  have every (o : Outcome) : o ∈ [Outcome.success, .failure] := by cases o <;> decide
  simp only [selects, List.any_eq_true, Bool.and_eq_true, shared, every, true_and, exists_and_left]

end AuditTrail.Mask

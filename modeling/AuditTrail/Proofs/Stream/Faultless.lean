import AuditTrail.Proofs.Stream.Outlook

namespace AuditTrail.Stream

attribute [ext] Stream

structure Faultless (s : Stream) : Prop where
  faults : s.faults = []
  chunk : s.chunk ≠ some 0

namespace Faultless

variable {s : Stream} (h : s.Faultless)
include h

theorem advance (n : Nat) : (s.advance n).Faultless := ⟨h.faults, h.chunk⟩

theorem outlook_eq : s.outlook = ⟨s.rest, none⟩ := by
  rw [outlook, h.faults, Outlook.of]

theorem front_eq : s.front = s.rest := congrArg (·.front) h.outlook_eq

theorem failure_eq : s.failure = none := congrArg (·.failure) h.outlook_eq

theorem eq_advance {t : Stream} {n : Nat} (reaches : s.Reaches n t) : t = s.advance n := by
  have none : t.faults = [] := List.suffix_nil.1 (h.faults ▸ reaches.faults)
  have left : t.Faultless := ⟨none, reaches.chunk ▸ h.chunk⟩
  have rest : t.rest = s.rest.drop n := by rw [← left.front_eq, reaches.front, h.front_eq]
  have position : t.position = s.position + (s.rest.take n).length := by
    rw [reaches.position, h.front_eq]
  exact Stream.ext rest position reaches.chunk (none.trans h.faults.symm)

end Faultless

end AuditTrail.Stream

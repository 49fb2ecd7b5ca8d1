namespace AuditTrail

inductive Outcome
  | success
  | failure
  deriving DecidableEq

inductive Selection
  | success
  | failure
  | both
  deriving DecidableEq

def Selection.covers : Selection → Outcome → Bool
  | .success, .success | .failure, .failure | .both, _ => true
  | .success, .failure | .failure, .success => false

structure Mask where
  success : UInt32 := 0
  failure : UInt32 := 0
  deriving DecidableEq

namespace Mask

def on (m : Mask) : Outcome → UInt32
  | .success => m.success
  | .failure => m.failure

def ofOutcomes (f : Outcome → UInt32) : Mask := ⟨f .success, f .failure⟩

@[simp] theorem on_ofOutcomes (f : Outcome → UInt32) (o : Outcome) : (ofOutcomes f).on o = f o := by
  cases o <;> rfl

theorem ext_on {m n : Mask} (h : ∀ o, m.on o = n.on o) : m = n := by
  cases m
  cases n
  simp only [mk.injEq]
  exact ⟨h .success, h .failure⟩

def add (m : Mask) (bits : UInt32) (selection : Selection) : Mask :=
  ofOutcomes fun o => if selection.covers o then m.on o ||| bits else m.on o

def remove (m : Mask) (bits : UInt32) (selection : Selection) : Mask :=
  ofOutcomes fun o => if selection.covers o then m.on o &&& ~~~bits else m.on o

def selects (m : Mask) (bits : UInt32) (selection : Selection) : Bool :=
  [Outcome.success, .failure].any fun o => selection.covers o && m.on o &&& bits != 0

def isEmpty (m : Mask) : Bool := m.success == 0 && m.failure == 0

def union (m n : Mask) : Mask := ofOutcomes fun o => m.on o ||| n.on o

def diff (m n : Mask) : Mask := ofOutcomes fun o => m.on o &&& ~~~n.on o

end Mask

end AuditTrail

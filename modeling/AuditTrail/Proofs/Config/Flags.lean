import AuditTrail.Config.Flags
import AuditTrail.Proofs.Mask

namespace AuditTrail

namespace Flag

variable (classes : List EventClass)

def class? (flag : Flag) : Option EventClass := classes.find? (·.name == flag.name)

def Known (flag : Flag) : Prop := ∃ c ∈ classes, c.name = flag.name

instance (flag : Flag) : Decidable (flag.Known classes) :=
  inferInstanceAs (Decidable (∃ c ∈ classes, _))

def mentions (o : Outcome) (k : Nat) (flag : Flag) : Bool :=
  flag.selection.covers o && (flag.class? classes).any (·.mask.toBitVec.getLsbD k)

def last? (flags : List Flag) (o : Outcome) (k : Nat) : Option Flag :=
  (flags.filter (mentions classes o k)).getLast?

/-- A class bit is audited for an outcome: the last flag that mentions it puts it in. -/
def Audited (flags : List Flag) (o : Outcome) (k : Nat) : Prop :=
  ∃ flag ∈ last? classes flags o k, flag.removes = false

instance (flags : List Flag) (o : Outcome) (k : Nat) : Decidable (Audited classes flags o k) :=
  inferInstanceAs (Decidable (∃ flag ∈ last? classes flags o k, _))

def change (m : Mask) (flag : Flag) : Mask :=
  match flag.class? classes with
  | none => m
  | some c => if flag.removes then m.remove c.mask flag.selection else m.add c.mask flag.selection

variable {classes}

theorem class?_eq_none_iff (flag : Flag) : flag.class? classes = none ↔ ¬flag.Known classes := by
  simp [class?, Known]

theorem apply_of_known {flag : Flag} (known : flag.Known classes) (m : Mask) :
    apply classes m flag = .ok (flag.change classes m) := by
  rw [apply, change]
  cases found : flag.class? classes with
  | none => exact absurd known ((class?_eq_none_iff flag).1 found)
  | some c =>
    rw [class?] at found
    rw [found]

theorem apply_of_not_known {flag : Flag} (unknown : ¬flag.Known classes) (m : Mask) :
    apply classes m flag = .error (.unknownClass flag.name) := by
  rw [apply, ← class?, (class?_eq_none_iff flag).2 unknown]

theorem audits_change (m : Mask) (flag : Flag) (o : Outcome) (k : Nat) :
    (flag.change classes m).audits o k =
      if mentions classes o k flag then !flag.removes else m.audits o k := by
  rw [change, mentions]
  cases flag.class? classes with
  | none => simp
  | some c =>
    simp only [Option.any_some]
    cases flag.removes with
    | true =>
      rw [if_pos rfl, Mask.audits_remove]
      by_cases about : (flag.selection.covers o && c.mask.toBitVec.getLsbD k) = true <;>
        simp [about]
    | false =>
      rw [if_neg Bool.false_ne_true, Mask.audits_add]
      by_cases about : (flag.selection.covers o && c.mask.toBitVec.getLsbD k) = true <;>
        simp [about]

theorem last?_cons (flag : Flag) (flags : List Flag) (o : Outcome) (k : Nat) :
    last? classes (flag :: flags) o k =
      if mentions classes o k flag then some ((last? classes flags o k).getD flag)
      else last? classes flags o k := by
  rw [last?, List.filter_cons]
  split
  · rw [List.getLast?_cons, last?]
  · rfl

theorem audits_foldl_change (flags : List Flag) (m : Mask) (o : Outcome) (k : Nat) :
    (flags.foldl (change classes) m).audits o k =
      ((last? classes flags o k).map (!·.removes)).getD (m.audits o k) := by
  induction flags generalizing m with
  | nil => rfl
  | cons flag flags ih =>
    rw [List.foldl_cons, ih, audits_change, last?_cons]
    cases last? classes flags o k <;> cases mentions classes o k flag <;> rfl

theorem foldlM_apply_of_known {flags : List Flag} (known : ∀ flag ∈ flags, flag.Known classes)
    (m : Mask) : flags.foldlM (apply classes) m = .ok (flags.foldl (change classes) m) := by
  induction flags generalizing m with
  | nil => rfl
  | cons flag flags ih =>
    rw [List.forall_mem_cons] at known
    rw [List.foldlM_cons, apply_of_known known.1]
    exact ih known.2 _

theorem foldlM_apply_of_not_known {front after : List Flag} {flag : Flag}
    (known : ∀ flag ∈ front, flag.Known classes) (unknown : ¬flag.Known classes) (m : Mask) :
    (front ++ flag :: after).foldlM (apply classes) m = .error (.unknownClass flag.name) := by
  rw [List.foldlM_append, foldlM_apply_of_known known]
  change (flag :: after).foldlM (apply classes) _ = _
  rw [List.foldlM_cons, apply_of_not_known unknown]
  rfl

theorem exists_first_not_known {flags : List Flag}
    (unknown : ∃ flag ∈ flags, ¬flag.Known classes) :
    ∃ front flag after, flags = front ++ flag :: after ∧ (∀ flag ∈ front, flag.Known classes) ∧
      ¬flag.Known classes := by
  obtain ⟨flag, found⟩ : ∃ flag, flags.find? (¬·.Known classes) = some flag := by
    rw [← Option.isSome_iff_exists, List.find?_isSome]
    simpa using unknown
  obtain ⟨absent, front, after, parts, earlier⟩ := List.find?_eq_some_iff_append.1 found
  exact ⟨front, flag, after, parts, by simpa using earlier, by simpa using absent⟩

end Flag

namespace Mask

variable {classes : List EventClass} {text : String}

theorem ofFlags_of_known (known : ∀ flag ∈ Flag.list text, flag.Known classes) :
    ∃ m, ofFlags classes text = .ok m ∧
      ∀ o k, m.audits o k = true ↔ Flag.Audited classes (Flag.list text) o k := by
  refine ⟨_, Flag.foldlM_apply_of_known known {}, fun o k => ?_⟩
  rw [Flag.audits_foldl_change, audits_empty, Flag.Audited]
  cases Flag.last? classes (Flag.list text) o k <;> simp

theorem ofFlags_of_not_known (unknown : ∃ flag ∈ Flag.list text, ¬flag.Known classes) :
    ∃ front flag after, Flag.list text = front ++ flag :: after ∧
      (∀ flag ∈ front, flag.Known classes) ∧ ¬flag.Known classes ∧
      ofFlags classes text = .error (.unknownClass flag.name) := by
  obtain ⟨front, flag, after, parts, known, absent⟩ := Flag.exists_first_not_known unknown
  refine ⟨front, flag, after, parts, known, absent, ?_⟩
  rw [ofFlags, parts, Flag.foldlM_apply_of_not_known known absent]

theorem audits_of_ofFlags {m : Mask} (h : ofFlags classes text = .ok m) (o : Outcome) (k : Nat) :
    m.audits o k = true ↔ Flag.Audited classes (Flag.list text) o k := by
  by_cases known : ∀ flag ∈ Flag.list text, flag.Known classes
  · obtain ⟨n, read, audited⟩ := ofFlags_of_known known
    cases h.symm.trans read
    exact audited o k
  · obtain ⟨_, _, _, _, _, _, refused⟩ := ofFlags_of_not_known (by simpa using known)
    cases h.symm.trans refused

end Mask

end AuditTrail

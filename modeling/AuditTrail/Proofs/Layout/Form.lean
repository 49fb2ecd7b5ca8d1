import AuditTrail.Proofs.Layout.Local
import AuditTrail.Proofs.Layout.Wire

/-! What stands on the wire for a layout, part by part; which part comes next may depend on the
bytes of the part in front of it. A layout is read by accepting one part after the other, and it
fails at the first part that cannot be accepted. -/

namespace AuditTrail

open BigEndian

def BigEndian.number (bytes : List UInt8) : Nat :=
  bytes.foldl (fun n b => n * 256 + b.toNat) 0

theorem BigEndian.number_singleton (w : UInt8) : number [w] = w.toNat := by
  simp [number]

theorem BigEndian.number_bytes16 (w : UInt16) : number (bytes16 w) = w.toNat := by
  rw [← congrArg UInt16.toNat (word16_bytes16 w), toNat_word16]
  simp [number, bytes16]

theorem BigEndian.number_bytes32 (w : UInt32) : number (bytes32 w) = w.toNat := by
  rw [← congrArg UInt32.toNat (word32_bytes32 w), toNat_word32]
  simp [number, bytes32]

/-- What is accepted or refused as a whole: so many bytes, a code of some width that has to be one
of the known ones, or a text with the zero that ends it. -/
inductive Part
  | bytes (count : Nat)
  | code (width : Nat) (known : List Nat)
  | ended

namespace Part

def family : Part := .code 4 [4, 16]

def unit : Part := .code 1 [0, 1, 2]

def Accepts : Part → List UInt8 → Prop
  | .bytes count, taken => taken.length = count
  | .code width known, taken => taken.length = width ∧ number taken ∈ known
  | .ended, taken => ∃ raw, 0 ∉ raw ∧ taken = raw ++ [0]

def Short : Part → List UInt8 → Prop
  | .bytes count, input => input.length < count
  | .code width _, input => input.length < width
  | .ended, input => 0 ∉ input

def Foreign : Part → List UInt8 → Prop
  | .code width known, input => width ≤ input.length ∧ number (input.take width) ∉ known
  | .bytes _, _ | .ended, _ => False

variable {part : Part} {taken taken' input rest rest' : List UInt8}

theorem Accepts.not_short (h : part.Accepts taken) : ¬part.Short (taken ++ rest) := by
  cases part with
  | bytes count =>
    rw [Short, List.length_append, show taken.length = count from h]
    omega
  | code width known =>
    rw [Short, List.length_append, h.1]
    omega
  | ended =>
    obtain ⟨raw, -, rfl⟩ := h
    simp [Short]

theorem Accepts.not_foreign (h : part.Accepts taken) : ¬part.Foreign (taken ++ rest) := by
  cases part with
  | bytes | ended => exact id
  | code width known =>
    rintro ⟨-, foreign⟩
    rw [List.take_left' h.1] at foreign
    exact foreign h.2

theorem Accepts.inj (h : part.Accepts taken) (h' : part.Accepts taken')
    (same : taken ++ rest = taken' ++ rest') : taken = taken' ∧ rest = rest' := by
  cases part with
  | bytes count => exact List.append_inj same (h.trans h'.symm)
  | code width known => exact List.append_inj same (h.1.trans h'.1.symm)
  | ended =>
    obtain ⟨raw, absent, rfl⟩ := h
    obtain ⟨raw', absent', rfl⟩ := h'
    simp only [List.append_assoc, List.singleton_append, append_zero_inj absent absent'] at same
    exact ⟨congrArg (· ++ [0]) same.1, same.2⟩

theorem Short.not_foreign (h : part.Short input) : ¬part.Foreign input := by
  cases part with
  | bytes | ended => exact id
  | code width known => exact fun foreign => Nat.not_lt.2 foreign.1 h

end Part

inductive Form
  | nil
  | cons (part : Part) (next : List UInt8 → Form)

namespace Form

def repeated (part : Part) (next : Form) : Nat → Form
  | 0 => next
  | n + 1 => .cons part fun _ => repeated part next n

/-- Accepting part after part leads from a form and the bytes in front of it to what is left of
both. -/
inductive Leads : Form → List UInt8 → Form → List UInt8 → Prop
  | here {form : Form} {input : List UInt8} : Leads form input form input
  | step {part : Part} {next : List UInt8 → Form} {taken input : List UInt8} {form : Form}
      {rest : List UInt8} (accepted : part.Accepts taken)
      (onward : Leads (next taken) input form rest) :
      Leads (.cons part next) (taken ++ input) form rest

/-- All parts in front of this one are accepted, and these bytes stand in its place. -/
def Awaits (form : Form) (input : List UInt8) (part : Part) (left : List UInt8) : Prop :=
  ∃ next, form.Leads input (.cons part next) left

def Stops : Form → List UInt8 → Prop
  | .nil, _ => True
  | .cons part _, input => part.Short input ∨ part.Foreign input

variable {form form' form'' : Form} {input rest rest' : List UInt8}

theorem Leads.trans (h : form.Leads input form' rest) (h' : form'.Leads rest form'' rest') :
    form.Leads input form'' rest' := by
  induction h with
  | here => exact h'
  | step accepted _ ih => exact .step accepted (ih h')

theorem Leads.eq_of_stops (h : form.Leads input form' rest) (stops : form.Stops input) :
    form = form' ∧ input = rest := by
  cases h with
  | here => exact ⟨rfl, rfl⟩
  | step accepted =>
    rcases stops with short | foreign
    · exact absurd short accepted.not_short
    · exact absurd foreign accepted.not_foreign

theorem Leads.unique (h : form.Leads input form' rest) (h' : form.Leads input form'' rest')
    (stops : form'.Stops rest) (stops' : form''.Stops rest') : form' = form'' ∧ rest = rest' := by
  induction h with
  | here => exact h'.eq_of_stops stops
  | @step part next taken input form rest accepted onward ih =>
    generalize whole : taken ++ input = bytes at h'
    cases h' with
    | here =>
      have back := (Leads.step accepted onward).eq_of_stops (whole ▸ stops')
      exact ⟨back.1.symm, whole ▸ back.2.symm⟩
    | step accepted' onward' =>
      obtain ⟨rfl, rfl⟩ := accepted.inj accepted' whole
      exact ih onward' stops

def Asks (asked : Part) : Form → Prop
  | .nil => False
  | .cons part next => part = asked ∨ ∃ taken, (next taken).Asks asked

theorem Awaits.asks {part : Part} (h : form.Awaits input part rest) : form.Asks part := by
  obtain ⟨next, leads⟩ := h
  generalize ends : Form.cons part next = last at leads
  induction leads with
  | here =>
    subst ends
    exact .inl rfl
  | step _ _ ih => exact .inr ⟨_, ih ends⟩

theorem asks_repeated {part asked : Part} {next : Form} {n : Nat}
    (h : (repeated part next n).Asks asked) : part = asked ∨ next.Asks asked := by
  induction n with
  | zero => exact .inr h
  | succ n ih =>
    rcases h with rfl | ⟨taken, h⟩
    · exact .inl rfl
    · exact ih h

end Form

def Field.form (next : Form) : Field → Form
  | .word8 => .cons (.bytes 1) fun _ => next
  | .word16 => .cons (.bytes 2) fun _ => next
  | .word32 | .ipv4 => .cons (.bytes 4) fun _ => next
  | .word64 => .cons (.bytes 8) fun _ => next
  | .ipv6 => .cons (.bytes 16) fun _ => next
  | .address => .cons .family fun code => .cons (.bytes (number code)) fun _ => next
  | .text | .data => .cons (.bytes 2) fun length => .cons (.bytes (number length)) fun _ => next
  | .texts => .cons (.bytes 4) fun count => .repeated .ended next (number count)
  | .socketPath => .cons (.bytes 104) fun _ => next
  | .ids => .cons (.bytes 2) fun count => .cons (.bytes (4 * number count)) fun _ => next
  | .elements =>
    -- The unit of a code has two to its power bytes.
    .cons .unit fun code => .cons (.bytes 1) fun count =>
      .cons (.bytes (number count * 2 ^ number code)) fun _ => next

def Layout.form : Layout → Form
  | [] => .nil
  | field :: layout => field.form (Layout.form layout)

theorem Field.asks_form {next : Form} {field : Field} {width : Nat} {known : List Nat}
    (h : (field.form next).Asks (.code width known)) :
    field = .address ∧ .code width known = Part.family ∨
      field = .elements ∧ .code width known = Part.unit ∨ next.Asks (.code width known) := by
  cases field with
  | address =>
    obtain same | ⟨_, ⟨⟨⟩⟩ | ⟨_, h⟩⟩ := h
    · exact .inl ⟨rfl, same.symm⟩
    · exact .inr (.inr h)
  | elements =>
    obtain same | ⟨_, ⟨⟨⟩⟩ | ⟨_, ⟨⟨⟩⟩ | ⟨_, h⟩⟩⟩ := h
    · exact .inr (.inl ⟨rfl, same.symm⟩)
    · exact .inr (.inr h)
  | texts =>
    obtain ⟨⟨⟩⟩ | ⟨_, h⟩ := h
    obtain ⟨⟨⟩⟩ | h := Form.asks_repeated h
    exact .inr (.inr h)
  | text | data | ids =>
    obtain ⟨⟨⟩⟩ | ⟨_, ⟨⟨⟩⟩ | ⟨_, h⟩⟩ := h
    exact .inr (.inr h)
  | _ =>
    obtain ⟨⟨⟩⟩ | ⟨_, h⟩ := h
    exact .inr (.inr h)

theorem Layout.asks_form {layout : Layout} {width : Nat} {known : List Nat}
    (h : layout.form.Asks (.code width known)) :
    .address ∈ layout ∧ .code width known = Part.family ∨
      .elements ∈ layout ∧ .code width known = Part.unit := by
  induction layout with
  | nil => cases h
  | cons field layout ih =>
    obtain ⟨rfl, same⟩ | ⟨rfl, same⟩ | h := Field.asks_form h
    · exact .inl ⟨List.mem_cons_self, same⟩
    · exact .inr ⟨List.mem_cons_self, same⟩
    · exact (ih h).imp (.imp_left (List.mem_cons_of_mem _)) (.imp_left (List.mem_cons_of_mem _))

theorem Layout.exists_foreign_iff {layout : Layout} {input : List UInt8} :
    (∃ part left, layout.form.Awaits input part left ∧ part.Foreign left) ↔
      .address ∈ layout ∧
          (∃ left, layout.form.Awaits input .family left ∧ Part.family.Foreign left) ∨
        .elements ∈ layout ∧
          ∃ left, layout.form.Awaits input .unit left ∧ Part.unit.Foreign left := by
  constructor
  · rintro ⟨part, left, awaits, foreign⟩
    cases part with
    | bytes | ended => cases foreign
    | code width known =>
      obtain ⟨member, same⟩ | ⟨member, same⟩ := asks_form awaits.asks
      · exact .inl ⟨member, left, same ▸ awaits, same ▸ foreign⟩
      · exact .inr ⟨member, left, same ▸ awaits, same ▸ foreign⟩
  · rintro (⟨-, left, awaits, foreign⟩ | ⟨-, left, awaits, foreign⟩)
    · exact ⟨_, left, awaits, foreign⟩
    · exact ⟨_, left, awaits, foreign⟩

end AuditTrail

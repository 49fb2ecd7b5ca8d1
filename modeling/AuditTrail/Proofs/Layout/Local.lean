import AuditTrail.Proofs.Layout.Sound

/-! Readers look no further than the bytes they take. What follows these changes nothing, and if
some of them are cut off the reader misses bytes and finds no other fault; a fault that no more
bytes can mend is found whatever follows. -/

namespace AuditTrail

def Field.Fault.missing : Field.Fault → Bool
  | .short .. | .unterminated .. => true
  | .addressFamily _ | .elementUnit _ => false

namespace Reader

variable {α β : Type}

/-- The bytes hold the value for a reader, and no bytes in front of them do. -/
structure Takes (read : Reader α) (taken : List UInt8) (value : α) : Prop where
  whole : ∀ more, read (taken ++ more) = .ok (value, more)
  part : ∀ k < taken.length, ∃ fault, read (taken.take k) = .error fault ∧ fault.missing

structure Local (read : Reader α) : Prop where
  ok : ∀ {input value rest}, read input = .ok (value, rest) →
    ∃ taken, input = taken ++ rest ∧ Takes read taken value
  error : ∀ {input fault}, read input = .error fault → fault.missing = false →
    ∀ more, read (input ++ more) = .error fault

def andThen (first : Reader α) (second : α → Reader β) : Reader β := fun input => do
  let (value, rest) ← first input
  second value rest

section

variable {first : Reader α} {second : α → Reader β}

theorem andThen_of_ok {input rest : List UInt8} {value : α} (h : first input = .ok (value, rest)) :
    first.andThen second input = second value rest := by
  rw [andThen, h]
  rfl

theorem andThen_of_error {input : List UInt8} {fault : Field.Fault}
    (h : first input = .error fault) : first.andThen second input = .error fault := by
  rw [andThen, h]
  rfl

theorem Takes.andThen {front back : List UInt8} {a : α} {b : β} (hfirst : Takes first front a)
    (hsecond : Takes (second a) back b) : Takes (first.andThen second) (front ++ back) b where
  whole more := by
    rw [List.append_assoc, andThen_of_ok (hfirst.whole _), hsecond.whole]
  part k hk := by
    rw [List.take_append]
    by_cases inside : k < front.length
    · obtain ⟨fault, hfault, missing⟩ := hfirst.part k inside
      have none : k - front.length = 0 := Nat.sub_eq_zero_of_le (Nat.le_of_lt inside)
      rw [none, List.take_zero, List.append_nil]
      exact ⟨fault, andThen_of_error hfault, missing⟩
    · obtain ⟨fault, hfault, missing⟩ := hsecond.part (k - front.length) (by
        rw [List.length_append] at hk
        omega)
      rw [List.take_of_length_le (Nat.not_lt.1 inside), andThen_of_ok (hfirst.whole _)]
      exact ⟨fault, hfault, missing⟩

theorem Local.andThen (hfirst : Local first) (hsecond : ∀ a, Local (second a)) :
    Local (first.andThen second) where
  ok {input value rest} h := by
    obtain ⟨⟨a, behind⟩, ha, hb⟩ := bind_eq_ok.1 h
    obtain ⟨front, rfl, takesFront⟩ := hfirst.ok ha
    obtain ⟨back, rfl, takesBack⟩ := (hsecond a).ok hb
    exact ⟨front ++ back, (List.append_assoc ..).symm, takesFront.andThen takesBack⟩
  error {input fault} h hfault more := by
    cases ha : first input with
    | error other =>
      rw [andThen_of_error ha] at h
      cases h
      exact andThen_of_error (hfirst.error ha hfault more)
    | ok read =>
      obtain ⟨a, behind⟩ := read
      rw [andThen_of_ok ha] at h
      obtain ⟨front, rfl, takesFront⟩ := hfirst.ok ha
      rw [List.append_assoc, andThen_of_ok (takesFront.whole _)]
      exact (hsecond a).error h hfault more

end

theorem local_pure (value : α) : Local fun input => .ok (value, input) where
  ok h := by
    cases h
    exact ⟨[], rfl, fun _ => rfl, nofun⟩
  error := nofun

theorem local_throw (fault : Field.Fault) : Local (α := α) fun _ => .error fault where
  ok := nofun
  error same _ _ := same

theorem Local.of_width {read : Reader α} {n : Nat}
    (sound : ∀ {input value rest}, read input = .ok (value, rest) →
      ∃ taken : List UInt8, input = taken ++ rest ∧ taken.length = n ∧
        ∀ more, read (taken ++ more) = .ok (value, more))
    (missing : ∀ {input fault}, read input = .error fault → fault.missing) : Local read where
  ok {input value rest} h := by
    obtain ⟨taken, parts, width, whole⟩ := sound h
    refine ⟨taken, parts, whole, fun k hk => ?_⟩
    cases cut : read (taken.take k) with
    | error fault => exact ⟨fault, rfl, missing cut⟩
    | ok result =>
      -- a value would span more bytes than there are
      obtain ⟨other, parts, width', -⟩ := sound cut
      have size := congrArg List.length parts
      rw [List.length_append, List.length_take] at size
      omega
  error h hfault := by simp [missing h] at hfault

theorem local_take (n : Nat) : Local (take n) := by
  refine .of_width (n := n) (fun h => ?_) fun h => ?_
  · obtain ⟨parts, width⟩ := take_sound h
    exact ⟨_, parts, width, take_append_of_length width⟩
  · unfold take at h
    dsimp only at h
    split at h <;> cases h
    rfl

theorem local_word8 : Local word8 :=
  .of_width (fun h => ⟨[_], word8_sound h, rfl, fun _ => rfl⟩) fun h => by
    unfold word8 at h
    split at h <;> cases h
    rfl

theorem local_word16 : Local word16 :=
  .of_width (n := 2) (fun h => ⟨_, word16_sound h, rfl, word16_append _⟩) fun h => by
    unfold word16 at h
    split at h <;> cases h
    rfl

theorem local_word32 : Local word32 :=
  .of_width (n := 4) (fun h => ⟨_, word32_sound h, rfl, word32_append _⟩) fun h => by
    unfold word32 at h
    split at h <;> cases h
    rfl

theorem local_word64 : Local word64 :=
  .of_width (n := 8) (fun h => ⟨_, word64_sound h, rfl, word64_append _⟩) fun h => by
    unfold word64 at h
    split at h <;> cases h
    rfl

theorem local_ipv4 : Local ipv4 :=
  .of_width (n := 4) (fun h => ⟨_, ipv4_sound h, rfl, ipv4_append _⟩) fun h => by
    unfold ipv4 at h
    split at h <;> cases h
    rfl

theorem local_ipv6 : Local ipv6 :=
  .of_width (n := 16) (fun h => ⟨_, ipv6_sound h, rfl, ipv6_append _⟩) fun h => by
    unfold ipv6 at h
    split at h <;> cases h
    rfl

theorem address_eq :
    address = word32.andThen fun family =>
      if family = 4 then ipv4.andThen fun ip rest => .ok (.v4 ip, rest)
      else if family = 16 then ipv6.andThen fun ip rest => .ok (.v6 ip, rest)
      else fun _ => .error (.addressFamily family) := by
  funext input
  simp only [address, andThen]
  congr 1
  funext read
  split
  · rfl
  · split <;> rfl

theorem local_address : Local address := by
  rw [address_eq]
  refine local_word32.andThen fun family => ?_
  split
  · exact local_ipv4.andThen fun ip => local_pure _
  split
  · exact local_ipv6.andThen fun ip => local_pure _
  · exact local_throw _

theorem local_text : Local text :=
  local_word16.andThen fun length =>
    (local_take length.toNat).andThen fun raw => local_pure (textUpToZero raw)

theorem terminated_of_not_mem {input : List UInt8} (h : 0 ∉ input) :
    terminated input = .error (.unterminated input.length) := by
  cases found : input.dropWhile (· != 0) with
  | nil => simp only [terminated, found]
  | cons zero rest =>
    rw [dropWhile_eq_cons found] at h
    simp at h

theorem local_terminated : Local terminated where
  ok {input value rest} h := by
    obtain ⟨raw, absent, rfl, rfl⟩ := terminated_sound h
    refine ⟨raw ++ [0], by rw [List.append_assoc]; rfl, fun more => ?_, fun k hk => ?_⟩
    · rw [List.append_assoc]
      exact terminated_append_zero absent more
    · -- the only zero is the last byte, so it is cut off
      rw [List.length_append, List.length_singleton, Nat.lt_succ_iff] at hk
      rw [List.take_append_of_le_length hk]
      exact ⟨_, terminated_of_not_mem fun member => absent (List.mem_of_mem_take member), rfl⟩
  error {input fault} h missing := by
    unfold terminated at h
    split at h <;> cases h
    cases missing

theorem local_terminatedTexts (n : Nat) : Local (terminatedTexts n) := by
  induction n with
  | zero => exact local_pure []
  | succ n ih => exact local_terminated.andThen fun s => ih.andThen fun ss => local_pure _

theorem local_texts : Local texts :=
  local_word32.andThen fun count => local_terminatedTexts count.toNat

theorem local_socketPath : Local socketPath :=
  (local_take Layout.socketPathWidth).andThen fun _ => local_pure _

theorem local_ids : Local ids :=
  local_word16.andThen fun count =>
    (local_take (4 * count.toNat)).andThen fun raw => local_pure (BigEndian.words32 raw)

theorem local_data : Local data :=
  local_word16.andThen fun length => local_take length.toNat

theorem elements_eq :
    elements = word8.andThen fun code =>
      match ElementUnit.ofCode? code with
      | none => fun _ => .error (.elementUnit code)
      | some unit => word8.andThen fun count => (take (count.toNat * unit.width)).andThen
        fun raw rest => .ok (.ofBytes raw unit, rest) := by
  funext input
  simp only [elements, andThen]
  congr 1
  funext read
  cases ElementUnit.ofCode? read.1 <;> rfl

theorem local_elements : Local elements := by
  rw [elements_eq]
  refine local_word8.andThen fun code => ?_
  split
  · exact local_throw _
  · next unit _ =>
    exact local_word8.andThen fun count =>
      (local_take (count.toNat * unit.width)).andThen fun raw =>
        local_pure (Elements.ofBytes raw unit)

end Reader

theorem Field.local_read (field : Field) : Reader.Local field.read := by
  cases field with
  | word8 => exact Reader.local_word8
  | word16 => exact Reader.local_word16
  | word32 => exact Reader.local_word32
  | word64 => exact Reader.local_word64
  | ipv4 => exact Reader.local_ipv4
  | ipv6 => exact Reader.local_ipv6
  | address => exact Reader.local_address
  | text => exact Reader.local_text
  | texts => exact Reader.local_texts
  | socketPath => exact Reader.local_socketPath
  | ids => exact Reader.local_ids
  | data => exact Reader.local_data
  | elements => exact Reader.local_elements

theorem Layout.local_read (layout : Layout) : Reader.Local layout.read := by
  induction layout with
  | nil => exact Reader.local_pure ()
  | cons field layout ih =>
    exact field.local_read.andThen fun value => ih.andThen fun values =>
      Reader.local_pure (value, values)

end AuditTrail

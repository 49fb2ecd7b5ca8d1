import AuditTrail.Proofs.Layout.Form

namespace AuditTrail

open BigEndian

theorem ElementUnit.exists_ofCode? {code : UInt8} (h : code.toNat ∈ [0, 1, 2]) :
    ∃ unit, ofCode? code = some unit ∧ unit.width = 2 ^ code.toNat := by
  have which : code = 0 ∨ code = 1 ∨ code = 2 := by simpa [← UInt8.toNat_inj] using h
  rcases which with rfl | rfl | rfl <;> exact ⟨_, rfl, rfl⟩

theorem ElementUnit.ofCode?_eq_none {code : UInt8} (h : code.toNat ∉ [0, 1, 2]) :
    ofCode? code = none := by
  have which : code ≠ 0 ∧ code ≠ 1 ∧ code ≠ 2 := by simpa [← UInt8.toNat_inj] using h
  simp [ofCode?, which]

def Part.Refuses (missing : Bool) (part : Part) (input : List UInt8) : Prop :=
  if missing then part.Short input else part.Foreign input

theorem Part.Refuses.inj {missing missing' : Bool} {part : Part} {input : List UInt8}
    (h : part.Refuses missing input) (h' : part.Refuses missing' input) : missing = missing' := by
  cases missing <;> cases missing'
  · rfl
  · exact absurd h (Short.not_foreign h')
  · exact absurd h' (Short.not_foreign h)
  · rfl

theorem Part.Refuses.stops {missing : Bool} {part : Part} {next : List UInt8 → Form}
    {input : List UInt8} (h : part.Refuses missing input) : (Form.cons part next).Stops input := by
  cases missing with
  | false => exact .inr h
  | true => exact .inl h

namespace Reader

variable {α β : Type}

structure Meets (read : Reader α) (part : Part) (holds : List UInt8 → α → Prop) : Prop where
  ok : ∀ {input value rest}, read input = .ok (value, rest) →
    ∃ taken, input = taken ++ rest ∧ part.Accepts taken ∧ holds taken value
  error : ∀ {input fault}, read input = .error fault → fault.missing ∧ part.Short input

/-- The reader reads the parts in front of any form. -/
structure Follows (read : Reader α) (form : Form → Form) : Prop where
  ok : ∀ {input value rest}, read input = .ok (value, rest) →
    ∀ next, (form next).Leads input next rest
  error : ∀ {input fault}, read input = .error fault →
    ∀ next, ∃ part behind left, (form next).Leads input (.cons part behind) left ∧
      part.Refuses fault.missing left

section

variable {first : Reader α} {second : α → Reader β} {holds : List UInt8 → α → Prop}
  {next : List UInt8 → Form → Form} {input rest : List UInt8}

theorem andThen_eq_ok {b : β} : first.andThen second input = .ok (b, rest) ↔
    ∃ a behind, first input = .ok (a, behind) ∧ second a behind = .ok (b, rest) :=
  bind_eq_ok.trans Prod.exists

theorem andThen_eq_error {fault : Field.Fault} : first.andThen second input = .error fault ↔
    first input = .error fault ∨
      ∃ a behind, first input = .ok (a, behind) ∧ second a behind = .error fault := by
  cases h : first input with
  | error other => simp [andThen_of_error h]
  | ok read =>
    obtain ⟨a, behind⟩ := read
    rw [andThen_of_ok h]
    constructor
    · exact fun hb => .inr ⟨a, behind, rfl, hb⟩
    · rintro (⟨⟨⟩⟩ | ⟨a, behind, ⟨⟩, hb⟩)
      exact hb

theorem follows_pure (value : α) : Follows (fun input => .ok (value, input)) id where
  ok h next := by
    cases h
    exact .here
  error := nofun

theorem Follows.andThen {form form' : Form → Form} (hfirst : Follows first form)
    (hsecond : ∀ a, Follows (second a) form') : Follows (first.andThen second) (form ∘ form') where
  ok h next := by
    obtain ⟨a, behind, ha, hb⟩ := andThen_eq_ok.1 h
    exact (hfirst.ok ha _).trans ((hsecond a).ok hb next)
  error h next := by
    obtain ha | ⟨a, behind, ha, hb⟩ := andThen_eq_error.1 h
    · exact hfirst.error ha _
    · obtain ⟨part, onward, left, leads, fails⟩ := (hsecond a).error hb next
      exact ⟨part, onward, left, (hfirst.ok ha _).trans leads, fails⟩

theorem Meets.follows {part : Part} (h : Meets first part holds) :
    Follows first fun form => .cons part fun _ => form where
  ok hread form := by
    obtain ⟨taken, rfl, accepted, -⟩ := h.ok hread
    exact .step accepted .here
  error hread form := by
    obtain ⟨missing, short⟩ := h.error hread
    exact ⟨part, _, _, .here, by rwa [Part.Refuses, if_pos missing]⟩

theorem Meets.andThen {part : Part} (hfirst : Meets first part holds)
    (hsecond : ∀ taken a, holds taken a → Follows (second a) (next taken)) :
    Follows (first.andThen second) fun form => .cons part fun taken => next taken form where
  ok h form := by
    obtain ⟨a, behind, ha, hb⟩ := andThen_eq_ok.1 h
    obtain ⟨taken, rfl, accepted, held⟩ := hfirst.ok ha
    exact .step accepted ((hsecond taken a held).ok hb form)
  error h form := by
    obtain ha | ⟨a, behind, ha, hb⟩ := andThen_eq_error.1 h
    · obtain ⟨missing, short⟩ := hfirst.error ha
      exact ⟨part, _, _, .here, by rwa [Part.Refuses, if_pos missing]⟩
    · obtain ⟨taken, rfl, accepted, held⟩ := hfirst.ok ha
      obtain ⟨part, onward, left, leads, fails⟩ := (hsecond taken a held).error hb form
      exact ⟨part, onward, left, .step accepted leads, fails⟩

theorem Meets.code {width : Nat} {known : List Nat} (hfirst : Meets first (.bytes width) holds)
    (hknown : ∀ taken a, holds taken a → number taken ∈ known → Follows (second a) (next taken))
    (hother : ∀ taken a, holds taken a → number taken ∉ known →
      ∃ fault : Field.Fault, fault.missing = false ∧ ∀ input, second a input = .error fault) :
    Follows (first.andThen second) fun form =>
      .cons (.code width known) fun taken => next taken form where
  ok h form := by
    obtain ⟨a, behind, ha, hb⟩ := andThen_eq_ok.1 h
    obtain ⟨taken, rfl, length, held⟩ := hfirst.ok ha
    by_cases member : number taken ∈ known
    · exact .step ⟨length, member⟩ ((hknown taken a held member).ok hb form)
    · obtain ⟨fault, -, fails⟩ := hother taken a held member
      cases (fails _).symm.trans hb
  error h form := by
    obtain ha | ⟨a, behind, ha, hb⟩ := andThen_eq_error.1 h
    · obtain ⟨missing, short⟩ := hfirst.error ha
      exact ⟨_, _, _, .here, by rwa [Part.Refuses, if_pos missing]⟩
    · obtain ⟨taken, rfl, length, held⟩ := hfirst.ok ha
      by_cases member : number taken ∈ known
      · obtain ⟨part, onward, left, leads, fails⟩ := (hknown taken a held member).error hb form
        exact ⟨part, onward, left, .step ⟨length, member⟩ leads, fails⟩
      · obtain ⟨fault, lasting, fails⟩ := hother taken a held member
        cases (fails _).symm.trans hb
        have whole : (taken ++ behind).take width = taken := List.take_left' length
        have room : width ≤ (taken ++ behind).length := by
          rw [List.length_append, show taken.length = width from length]
          exact Nat.le_add_right ..
        refine ⟨_, _, _, .here, ?_⟩
        rw [Part.Refuses, lasting]
        exact ⟨room, by rwa [whole]⟩

end

theorem meets_take (n : Nat) : Meets (take n) (.bytes n) fun _ _ => True where
  ok h := by
    obtain ⟨parts, width⟩ := take_sound h
    exact ⟨_, parts, width, trivial⟩
  error h := by
    simp only [take] at h
    split at h <;> cases h
    rename_i part
    exact ⟨rfl, Nat.lt_of_not_le fun enough => part (List.length_take_of_le enough)⟩

theorem meets_word8 : Meets word8 (.bytes 1) fun taken w => number taken = w.toNat where
  ok h := ⟨[_], word8_sound h, rfl, number_singleton _⟩
  error h := by
    unfold word8 at h
    split at h <;> cases h
    exact ⟨rfl, Nat.zero_lt_one⟩

theorem meets_word16 : Meets word16 (.bytes 2) fun taken w => number taken = w.toNat where
  ok h := ⟨_, word16_sound h, rfl, number_bytes16 _⟩
  error {input fault} h := by
    unfold word16 at h
    split at h <;> cases h
    rename_i part
    refine ⟨rfl, Nat.lt_of_not_le fun enough => ?_⟩
    match input, enough with
    | a :: b :: rest, _ => exact part a b rest rfl

theorem meets_word32 : Meets word32 (.bytes 4) fun taken w => number taken = w.toNat where
  ok h := ⟨_, word32_sound h, rfl, number_bytes32 _⟩
  error {input fault} h := by
    unfold word32 at h
    split at h <;> cases h
    rename_i part
    refine ⟨rfl, Nat.lt_of_not_le fun enough => ?_⟩
    match input, enough with
    | a :: b :: c :: d :: rest, _ => exact part a b c d rest rfl

theorem meets_word64 : Meets word64 (.bytes 8) fun _ _ => True where
  ok h := ⟨_, word64_sound h, rfl, trivial⟩
  error {input fault} h := by
    unfold word64 at h
    split at h <;> cases h
    rename_i part
    refine ⟨rfl, Nat.lt_of_not_le fun enough => ?_⟩
    match input, enough with
    | a :: b :: c :: d :: e :: f :: g :: h :: rest, _ => exact part a b c d e f g h rest rfl

theorem meets_ipv4 : Meets ipv4 (.bytes 4) fun _ _ => True where
  ok h := ⟨_, ipv4_sound h, rfl, trivial⟩
  error {input fault} h := by
    unfold ipv4 at h
    split at h <;> cases h
    rename_i part
    refine ⟨rfl, Nat.lt_of_not_le fun enough => ?_⟩
    match input, enough with
    | a :: b :: c :: d :: rest, _ => exact part a b c d rest rfl

theorem meets_ipv6 : Meets ipv6 (.bytes 16) fun _ _ => True where
  ok h := ⟨_, ipv6_sound h, rfl, trivial⟩
  error {input fault} h := by
    unfold ipv6 at h
    split at h <;> cases h
    rename_i part
    refine ⟨rfl, Nat.lt_of_not_le fun enough => ?_⟩
    match input, enough with
    | a :: b :: c :: d :: e :: f :: g :: h :: i :: j :: k :: l :: m :: n :: o :: p :: rest, _ =>
      exact part a b c d e f g h i j k l m n o p rest rfl

theorem meets_terminated : Meets terminated .ended fun _ _ => True where
  ok h := by
    obtain ⟨raw, absent, rfl, -⟩ := terminated_sound h
    exact ⟨raw ++ [0], by rw [List.append_assoc]; rfl, ⟨raw, absent, rfl⟩, trivial⟩
  error {input fault} h := by
    unfold terminated at h
    split at h <;> cases h
    rename_i nowhere
    refine ⟨rfl, fun member => ?_⟩
    obtain ⟨raw, behind, rfl, absent⟩ := List.eq_append_cons_of_mem member
    rw [dropWhile_append_zero absent] at nowhere
    cases nowhere

theorem follows_terminatedTexts (n : Nat) :
    Follows (terminatedTexts n) fun form => .repeated .ended form n := by
  induction n with
  | zero => exact follows_pure []
  | succ n ih =>
    exact meets_terminated.andThen fun _ s _ => ih.andThen fun ss => follows_pure (s :: ss)

theorem follows_address : Follows address fun form => Field.form form .address := by
  rw [address_eq]
  refine meets_word32.code (fun taken code count member => ?_) fun taken code count other => ?_
  · rw [count] at member ⊢
    have which : code = 4 ∨ code = 16 := by simpa [← UInt32.toNat_inj] using member
    rcases which with rfl | rfl
    · exact meets_ipv4.andThen fun _ ip _ => follows_pure (Address.v4 ip)
    · exact meets_ipv6.andThen fun _ ip _ => follows_pure (Address.v6 ip)
  · rw [count] at other
    have which : code ≠ 4 ∧ code ≠ 16 := by simpa [← UInt32.toNat_inj] using other
    exact ⟨.addressFamily code, rfl, fun input => by rw [if_neg which.1, if_neg which.2]⟩

theorem follows_elements : Follows elements fun form => Field.form form .elements := by
  rw [elements_eq]
  refine meets_word8.code (fun taken code count member => ?_) fun taken code count other => ?_
  · rw [count] at member ⊢
    obtain ⟨unit, known, width⟩ := ElementUnit.exists_ofCode? member
    rw [known, ← width]
    refine meets_word8.andThen fun taken n total => ?_
    rw [total]
    exact (meets_take _).andThen fun _ raw _ => follows_pure (Elements.ofBytes raw unit)
  · rw [count] at other
    exact ⟨.elementUnit code, rfl, fun input => by rw [ElementUnit.ofCode?_eq_none other]⟩

theorem follows_text : Follows text fun form => Field.form form .text := by
  show Follows (word16.andThen fun length =>
    (take length.toNat).andThen fun raw rest => .ok (textUpToZero raw, rest)) _
  refine meets_word16.andThen fun taken length count => ?_
  rw [count]
  exact (meets_take length.toNat).andThen fun _ raw _ => follows_pure (textUpToZero raw)

theorem follows_texts : Follows texts fun form => Field.form form .texts := by
  show Follows (word32.andThen fun count => terminatedTexts count.toNat) _
  refine meets_word32.andThen fun taken count total => ?_
  rw [total]
  exact follows_terminatedTexts count.toNat

theorem follows_socketPath : Follows socketPath fun form => Field.form form .socketPath :=
  (meets_take Layout.socketPathWidth).andThen fun _ raw _ => follows_pure (textUpToZero raw)

theorem follows_ids : Follows ids fun form => Field.form form .ids := by
  show Follows (word16.andThen fun count =>
    (take (4 * count.toNat)).andThen fun raw rest => .ok (words32 raw, rest)) _
  refine meets_word16.andThen fun taken count total => ?_
  rw [total]
  exact (meets_take (4 * count.toNat)).andThen fun _ raw _ => follows_pure (words32 raw)

theorem follows_data : Follows data fun form => Field.form form .data := by
  show Follows (word16.andThen fun length => take length.toNat) _
  refine meets_word16.andThen fun taken length count => ?_
  rw [count]
  exact (meets_take length.toNat).follows

end Reader

theorem Field.follows_read (field : Field) : Reader.Follows field.read (field.form ·) := by
  cases field with
  | word8 => exact Reader.meets_word8.follows
  | word16 => exact Reader.meets_word16.follows
  | word32 => exact Reader.meets_word32.follows
  | word64 => exact Reader.meets_word64.follows
  | ipv4 => exact Reader.meets_ipv4.follows
  | ipv6 => exact Reader.meets_ipv6.follows
  | address => exact Reader.follows_address
  | text => exact Reader.follows_text
  | texts => exact Reader.follows_texts
  | socketPath => exact Reader.follows_socketPath
  | ids => exact Reader.follows_ids
  | data => exact Reader.follows_data
  | elements => exact Reader.follows_elements

theorem Layout.read_cons (field : Field) (layout : Layout) :
    read (field :: layout) = field.read.andThen fun value =>
      layout.read.andThen fun values rest => .ok ((value, values), rest) := rfl

theorem Layout.form_of_read {layout : Layout} {input rest : List UInt8} {values : layout.Values}
    (h : layout.read input = .ok (values, rest)) : layout.form.Leads input .nil rest := by
  induction layout generalizing input with
  | nil =>
    cases h
    exact .here
  | cons field layout ih =>
    rw [read_cons] at h
    obtain ⟨value, behind, first, h⟩ := Reader.andThen_eq_ok.1 h
    obtain ⟨others, last, second, ⟨⟩⟩ := Reader.andThen_eq_ok.1 h
    exact (field.follows_read.ok first _).trans (ih second)

theorem Layout.form_of_fault {layout : Layout} {input : List UInt8} {fault : Field.Fault}
    (h : layout.read input = .error fault) :
    ∃ part next left, layout.form.Leads input (.cons part next) left ∧
      part.Refuses fault.missing left := by
  induction layout generalizing input with
  | nil => cases h
  | cons field layout ih =>
    rw [read_cons] at h
    obtain first | ⟨value, behind, first, h⟩ := Reader.andThen_eq_error.1 h
    · exact field.follows_read.error first _
    · obtain second | ⟨others, last, -, ⟨⟩⟩ := Reader.andThen_eq_error.1 h
      obtain ⟨part, next, left, leads, refuses⟩ := ih second
      exact ⟨part, next, left, (field.follows_read.ok first _).trans leads, refuses⟩

theorem Layout.exists_read_iff {layout : Layout} {input : List UInt8} :
    (∃ result, layout.read input = .ok result) ↔ ∃ left, layout.form.Leads input .nil left := by
  constructor
  · rintro ⟨⟨values, left⟩, h⟩
    exact ⟨left, form_of_read h⟩
  · rintro ⟨left, all⟩
    cases h : layout.read input with
    | ok result => exact ⟨result, rfl⟩
    | error fault =>
      obtain ⟨part, next, left', leads, refuses⟩ := form_of_fault h
      cases (all.unique leads trivial refuses.stops).1

/-- A layout has a fault where the first part that cannot be accepted stands, of the sort that this
part has. -/
theorem Layout.exists_fault_iff {layout : Layout} {input : List UInt8} {missing : Bool} :
    (∃ fault, layout.read input = .error fault ∧ fault.missing = missing) ↔
      ∃ part left, layout.form.Awaits input part left ∧ part.Refuses missing left := by
  constructor
  · rintro ⟨fault, h, rfl⟩
    obtain ⟨part, next, left, leads, refuses⟩ := form_of_fault h
    exact ⟨part, left, ⟨next, leads⟩, refuses⟩
  · rintro ⟨part, left, ⟨next, leads⟩, refuses⟩
    cases h : layout.read input with
    | ok result =>
      cases ((form_of_read h).unique leads trivial refuses.stops).1
    | error fault =>
      obtain ⟨part', next', left', leads', refuses'⟩ := form_of_fault h
      obtain ⟨⟨⟩, rfl⟩ := leads.unique leads' refuses.stops refuses'.stops
      exact ⟨fault, rfl, refuses'.inj refuses⟩

end AuditTrail

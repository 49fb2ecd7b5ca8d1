import AuditTrail.Stream

/-! What a stream has for readers that try interrupted reads again: some bytes, and after them the
end of the data or a failure. The loops over reads depend on nothing else; neither the pieces in
which the bytes come nor the interruptions between them make a difference. -/

namespace AuditTrail

/-- The bytes that are still to come, and the failure that comes after them, if it is not the end
of the data. -/
structure Outlook where
  front : List UInt8
  failure : Option IoError
  deriving DecidableEq

namespace Outlook

/-- The outlook of a stream by what it has yet to deliver, where it stands, and its faults. A fault
that lies past the end of the data never comes, and keeps those after it from coming. -/
def of (rest : List UInt8) (position : Nat) : List Fault → Outlook
  | [] => ⟨rest, none⟩
  | fault :: faults =>
    let n := fault.position - position
    if rest.length < n then ⟨rest, none⟩
    else if fault.error.kind = .interrupted then
      let later := of (rest.drop n) (position + n) faults
      { later with front := rest.take n ++ later.front }
    else ⟨rest.take n, some fault.error⟩

theorem of_interrupted (rest : List UInt8) (position : Nat) {faults : List Fault}
    (h : ∀ fault ∈ faults, fault.error.kind = .interrupted) :
    of rest position faults = ⟨rest, none⟩ := by
  induction faults generalizing rest position with
  | nil => rfl
  | cons fault faults ih =>
    rw [List.forall_mem_cons] at h
    simp [of, h.1, ih _ _ h.2]

theorem of_fault (rest : List UInt8) (position : Nat) {fault : Fault} (faults : List Fault)
    (within : fault.position - position ≤ rest.length)
    (h : fault.error.kind ≠ .interrupted) :
    of rest position (fault :: faults) =
      ⟨rest.take (fault.position - position), some fault.error⟩ := by
  simp [of, Nat.not_lt.2 within, h]

theorem of_drop (rest : List UInt8) (position : Nat) {faults : List Fault} {n : Nat}
    (before : ∀ fault ∈ faults.head?, n ≤ fault.position - position) :
    (of rest position faults).front.take n = rest.take n ∧
      of (rest.drop n) (position + (rest.take n).length) faults =
        { of rest position faults with front := (of rest position faults).front.drop n } := by
  cases faults with
  | nil => exact ⟨rfl, rfl⟩
  | cons fault faults =>
    have hn : n ≤ fault.position - position := before fault rfl
    have count : (rest.take n).length = min n rest.length := List.length_take
    by_cases past : rest.length < fault.position - position
    · have still : (rest.drop n).length < fault.position - (position + (rest.take n).length) := by
        rw [List.length_drop]
        omega
      simp only [of, past, still, if_true, and_self]
    · have reached :
          ¬(rest.drop n).length < fault.position - (position + (rest.take n).length) := by
        rw [List.length_drop]
        omega
      obtain ⟨k, hk⟩ := Nat.exists_eq_add_of_le hn
      have all : min n rest.length = n := by omega
      have behind : fault.position - (position + n) = k := by omega
      have long : n ≤ (rest.take (n + k)).length := by
        rw [List.length_take]
        omega
      have taken : rest.take (n + k) = rest.take n ++ (rest.drop n).take k := List.take_add
      have size : (rest.take n).length = n := count.trans all
      simp only [of, past, reached, if_false]
      simp only [size, behind, hk, Nat.add_assoc, List.drop_drop]
      split
      · simp only [taken, List.append_assoc]
        rw [List.take_left' size, List.drop_left' size]
        exact ⟨rfl, rfl⟩
      · simp only [taken]
        rw [List.take_left' size, List.drop_left' size]
        exact ⟨rfl, rfl⟩

end Outlook

namespace Stream

def advance (s : Stream) (n : Nat) : Stream :=
  { s with rest := s.rest.drop n, position := s.position + (s.rest.take n).length }

@[simp] theorem rest_advance (s : Stream) (n : Nat) : (s.advance n).rest = s.rest.drop n := rfl

@[simp] theorem advance_zero (s : Stream) : s.advance 0 = s := rfl

theorem advance_eq {s : Stream} {n : Nat} (h : n ≤ s.rest.length) :
    s.advance n = { s with rest := s.rest.drop n, position := s.position + n } := by
  rw [advance, List.length_take_of_le h]

theorem advance_advance (s : Stream) (m n : Nat) :
    (s.advance m).advance n = s.advance (m + n) := by
  have taken : s.position + (s.rest.take m).length + ((s.rest.drop m).take n).length =
      s.position + (s.rest.take (m + n)).length := by
    simp only [List.length_take, List.length_drop]
    omega
  simp only [advance, List.drop_drop, taken]

theorem deliver_eq {s : Stream} (h : s.chunk ≠ some 0) {n : Nat} (hn : n ≠ 0) :
    ∃ k, k ≠ 0 ∧ k ≤ n ∧ s.deliver n = (s.rest.take k, s.advance k) := by
  cases hc : s.chunk with
  | none => exact ⟨n, hn, Nat.le_refl n, by simp [deliver, advance, hc]⟩
  | some c =>
    have some : c ≠ 0 := fun zero => h (by rw [hc, zero])
    exact ⟨min n c, by omega, Nat.min_le_left .., by simp [deliver, advance, hc]⟩

def outlook (s : Stream) : Outlook := .of s.rest s.position s.faults

def front (s : Stream) : List UInt8 := s.outlook.front

def failure (s : Stream) : Option IoError := s.outlook.failure

structure Reaches (s : Stream) (n : Nat) (t : Stream) : Prop where
  chunk : t.chunk = s.chunk
  faults : t.faults <:+ s.faults
  front : t.front = s.front.drop n
  failure : t.failure = s.failure
  position : t.position = s.position + (s.front.take n).length

theorem Reaches.refl (s : Stream) : s.Reaches 0 s := ⟨rfl, List.suffix_refl _, rfl, rfl, rfl⟩

theorem Reaches.trans {s t u : Stream} {m n : Nat} (h : s.Reaches m t) (h' : t.Reaches n u) :
    s.Reaches (m + n) u where
  chunk := h'.chunk.trans h.chunk
  faults := h'.faults.trans h.faults
  front := by rw [h'.front, h.front, List.drop_drop]
  failure := h'.failure.trans h.failure
  position := by
    rw [h'.position, h.front, h.position, List.take_add, List.length_append, Nat.add_assoc]

theorem Reaches.of_le {s t : Stream} {m n : Nat} (h : s.Reaches m t) (hm : s.front.length ≤ m)
    (hn : s.front.length ≤ n) : s.Reaches n t where
  chunk := h.chunk
  faults := h.faults
  front := by rw [h.front, List.drop_of_length_le hm, List.drop_of_length_le hn]
  failure := h.failure
  position := by rw [h.position, List.take_of_length_le hm, List.take_of_length_le hn]

theorem Reaches.min_length {s t : Stream} {n : Nat} (h : s.Reaches n t) :
    s.Reaches (min n s.front.length) t := by
  rcases Nat.le_total n s.front.length with within | beyond
  · rwa [Nat.min_eq_left within]
  · rw [Nat.min_eq_right beyond]
    exact h.of_le beyond (Nat.le_refl _)

theorem Reaches.finish {s t u : Stream} {n : Nat} (h : s.Reaches n t) (hn : n ≤ s.front.length)
    (h' : t.Reaches t.front.length u) : s.Reaches s.front.length u := by
  have := h.trans h'
  rwa [h.front, List.length_drop, Nat.add_sub_cancel' hn] at this

theorem reaches_advance (s : Stream) {n : Nat}
    (before : ∀ fault ∈ s.faults.head?, n ≤ fault.position - s.position) :
    s.front.take n = s.rest.take n ∧ s.Reaches n (s.advance n) := by
  obtain ⟨taken, left⟩ := Outlook.of_drop s.rest s.position before
  have position : (s.advance n).position = s.position + (s.rest.take n).length := rfl
  exact ⟨taken, rfl, List.suffix_refl _, congrArg (·.front) left, congrArg (·.failure) left,
    taken.symm ▸ position⟩

inductive Reading (s : Stream) (n : Nat) : Except IoError (List UInt8) × Stream → Prop
  | piece {bytes : List UInt8} {t : Stream} (some : bytes ≠ []) (most : bytes.length ≤ n)
      (comes : s.front = bytes ++ t.front) (reaches : s.Reaches bytes.length t) :
      Reading s n (.ok bytes, t)
  | finished {t : Stream} (empty : s.front = []) (ends : s.failure = none)
      (reaches : s.Reaches 0 t) : Reading s n (.ok [], t)
  | interrupted {e : IoError} {t : Stream} (kind : e.kind = .interrupted)
      (reaches : s.Reaches 0 t) : Reading s n (.error e, t)
  | failed {e : IoError} {t : Stream} (kind : e.kind ≠ .interrupted) (empty : s.front = [])
      (fails : s.failure = some e) : Reading s n (.error e, t)

theorem failure_of_front_nil {s : Stream} (empty : s.front = [])
    (later : ∀ fault ∈ s.faults.head?, s.position < fault.position) : s.failure = none := by
  rw [front, outlook] at empty
  rw [failure, outlook]
  cases hfaults : s.faults with
  | nil => rfl
  | cons fault faults =>
    rw [hfaults] at empty later
    have ahead := later fault rfl
    simp only [Outlook.of] at empty ⊢
    split at empty
    · rename_i past
      rw [if_pos past]
    · -- A fault that does come has data before it.
      rename_i reached
      have some : s.rest.take (fault.position - s.position) ≠ [] := by
        rw [Ne, List.take_eq_nil_iff, ← List.length_eq_zero_iff]
        omega
      split at empty
      · exact absurd (List.append_eq_nil_iff.1 empty).1 some
      · exact absurd empty some

theorem reading_deliver {s : Stream} (h : s.chunk ≠ some 0) {m n : Nat} (pos : m ≠ 0)
    (most : m ≤ n) (before : ∀ fault ∈ s.faults.head?, m ≤ fault.position - s.position) :
    Reading s n (.ok (s.deliver m).1, (s.deliver m).2) := by
  obtain ⟨k, kpos, hk, delivered⟩ := deliver_eq h pos
  obtain ⟨taken, reaches⟩ := s.reaches_advance fun fault member =>
    Nat.le_trans hk (before fault member)
  rw [delivered, ← taken]
  by_cases empty : s.front = []
  · have ends : s.failure = none := failure_of_front_nil empty fun fault member => by
      have := before fault member
      omega
    rw [empty, List.take_nil]
    exact .finished empty ends (reaches.of_le (by simp [empty]) (by simp [empty]))
  · have fits : (s.front.take k).length ≤ n :=
      Nat.le_trans (List.length_take_le ..) (Nat.le_trans hk most)
    refine .piece ?_ fits ?_ ?_
    · simp [empty, kpos]
    · rw [reaches.front, List.take_append_drop]
    · rw [List.length_take]
      exact reaches.min_length

theorem reading_read {s : Stream} (h : s.chunk ≠ some 0) {n : Nat} (pos : n ≠ 0) :
    Reading s n (s.read n) := by
  rw [read]
  split
  · rename_i none
    exact reading_deliver h pos (Nat.le_refl n) (by simp [none])
  · rename_i fault faults next
    split
    · rename_i here
      have now : fault.position - s.position = 0 := Nat.sub_eq_zero_of_le here
      by_cases kind : fault.error.kind = .interrupted
      · have same : outlook { s with faults } = s.outlook := by
          simp [outlook, next, Outlook.of, now, kind]
        exact .interrupted kind ⟨rfl, next ▸ List.suffix_cons .., congrArg (·.front) same,
          congrArg (·.failure) same, rfl⟩
      · have ends : s.outlook = ⟨[], some fault.error⟩ := by
          simp [outlook, next, Outlook.of, now, kind]
        exact .failed kind (congrArg (·.front) ends) (congrArg (·.failure) ends)
    · rename_i later
      refine reading_deliver h (by omega) (Nat.min_le_left ..) ?_
      rw [next]
      rintro _ ⟨⟩
      exact Nat.min_le_right ..

/-- All that can come of a reader that gives `a` if the next `n` bytes are there, where `found?` is
`(a, n)`, and `missing` if they are not. -/
inductive Gives (s : Stream) (found? : Option (α × Nat)) (missing : α) :
    Except IoError α × Stream → Prop
  | found {a : α} {n : Nat} {t : Stream} (here : found? = some (a, n)) (reaches : s.Reaches n t) :
      Gives s found? missing (.ok a, t)
  | ended {t : Stream} (absent : found? = none) (ends : s.failure = none)
      (reaches : s.Reaches s.front.length t) : Gives s found? missing (.ok missing, t)
  | failed {e : IoError} {t : Stream} (absent : found? = none) (fails : s.failure = some e) :
      Gives s found? missing (.error e, t)

theorem Reaches.gives {s t : Stream} {m : Nat} (h : s.Reaches m t) (hm : m ≤ s.front.length)
    {found? : Option (α × Nat)} {missing : α} {x : Except IoError α × Stream}
    (later : t.Gives found? missing x) :
    s.Gives (found?.map fun (a, n) => (a, m + n)) missing x := by
  cases later with
  | found here reaches => exact .found (by rw [here]; rfl) (h.trans reaches)
  | ended absent ends reaches =>
    exact .ended (by rw [absent]; rfl) (h.failure ▸ ends) (h.finish hm reaches)
  | failed absent fails => exact .failed (by rw [absent]; rfl) (h.failure ▸ fails)

section

variable {s : Stream} (h : s.chunk ≠ some 0)
include h

theorem byte?_gives : s.Gives (s.front.head?.map fun b => (some b, 1)) none s.byte? := by
  fun_induction byte? s with
  | case1 s t hread =>
    cases hread ▸ reading_read h Nat.one_ne_zero with
    | piece some => exact absurd rfl some
    | finished empty ends reaches =>
      exact .ended (by simp [empty]) ends (by rwa [empty])
  | case2 s b bs t hread =>
    cases hread ▸ reading_read h Nat.one_ne_zero with
    | piece some most comes reaches =>
      obtain rfl : bs = [] := by simpa using most
      exact .found (by simp [comes]) reaches
  | case3 s e t hread hkind ih =>
    cases hread ▸ reading_read h Nat.one_ne_zero with
    | interrupted kind reaches =>
      have later := reaches.gives (Nat.zero_le _) (ih (reaches.chunk ▸ h))
      simpa [reaches.front, Function.comp_def] using later
    | failed kind => exact absurd hkind kind
  | case4 s e t hread hkind =>
    cases hread ▸ reading_read h Nat.one_ne_zero with
    | interrupted kind => exact absurd kind hkind
    | failed kind empty fails => exact .failed (by simp [empty]) fails

theorem byte?_some {b : UInt8} {t : Stream} (hbyte : s.byte? = (.ok (some b), t)) :
    s.front = b :: t.front ∧ s.Reaches 1 t := by
  cases hbyte ▸ byte?_gives h with
  | found here reaches =>
    obtain ⟨b, head, ⟨⟩⟩ := Option.map_eq_some_iff.1 here
    obtain ⟨bs, comes⟩ := List.head?_eq_some_iff.1 head
    rw [reaches.front, comes]
    exact ⟨rfl, reaches⟩

theorem seek_gives (p : UInt8 → Bool) :
    s.Gives ((s.front.find? p).map fun b => (some b, s.front.findIdx p + 1)) none (s.seek p) := by
  fun_induction seek p s with
  | case1 s b t hbyte hb =>
    obtain ⟨comes, reaches⟩ := byte?_some h hbyte
    exact .found (by simp [comes, hb, List.findIdx_cons]) reaches
  | case2 s b t hbyte hb ih =>
    obtain ⟨comes, reaches⟩ := byte?_some h hbyte
    have later := reaches.gives (by simp [comes]) (ih (reaches.chunk ▸ h))
    simpa [comes, hb, List.findIdx_cons, Function.comp_def, Nat.add_comm] using later
  | case3 s t hbyte =>
    cases hbyte ▸ byte?_gives h with
    | found here => simp at here
    | ended absent ends reaches => exact .ended (by simp_all) ends reaches
  | case4 s e t hbyte =>
    cases hbyte ▸ byte?_gives h with
    | failed absent fails => exact .failed (by simp_all) fails

theorem upTo_gives (n : Nat) :
    s.Gives (if n ≤ s.front.length then some (s.front.take n, n) else none) s.front
      (s.upTo n) := by
  fun_induction upTo s n with
  | case1 s => exact .found (by simp) (.refl s)
  | case2 s n hn t hread =>
    cases hread ▸ reading_read h hn with
    | piece some => exact absurd rfl some
    | finished empty ends reaches =>
      rw [empty]
      exact .ended (by simp [hn]) ends (by rwa [empty])
  | case3 s n hn b bs t hread more u hmore ih =>
    cases hread ▸ reading_read h hn with
    | piece some most comes reaches =>
      generalize b :: bs = piece at *
      have count : s.front.length = piece.length + t.front.length := by
        rw [comes, List.length_append]
      cases hmore ▸ ih (reaches.chunk ▸ h) with
      | found here further =>
        obtain ⟨enough, ⟨⟩⟩ := Option.ite_none_right_eq_some.1 here
        have all : piece.length + (n - piece.length) = n := by omega
        have taken : s.front.take n = piece ++ t.front.take (n - piece.length) := by
          rw [comes, List.take_append, List.take_of_length_le most]
        rw [← taken]
        exact .found (if_pos (by omega)) (all ▸ reaches.trans further)
      | ended absent ends further =>
        have short : t.front.length + piece.length < n := by simpa using absent
        rw [← comes]
        exact .ended (if_neg (by omega)) (reaches.failure ▸ ends) (count ▸ reaches.trans further)
  | case4 s n hn b bs t hread e u hmore ih =>
    cases hread ▸ reading_read h hn with
    | piece some most comes reaches =>
      generalize b :: bs = piece at *
      cases hmore ▸ ih (reaches.chunk ▸ h) with
      | failed absent fails =>
        have short : t.front.length + piece.length < n := by simpa using absent
        have count : s.front.length = piece.length + t.front.length := by
          rw [comes, List.length_append]
        exact .failed (if_neg (by omega)) (reaches.failure ▸ fails)
  | case5 s n hn e t hread hkind ih =>
    cases hread ▸ reading_read h hn with
    | interrupted kind reaches =>
      have later := reaches.gives (Nat.zero_le _) (ih (reaches.chunk ▸ h))
      simpa [reaches.front, apply_ite] using later
    | failed kind => exact absurd hkind kind
  | case6 s n hn e t hread hkind =>
    cases hread ▸ reading_read h hn with
    | interrupted kind => exact absurd kind hkind
    | failed kind empty fails => exact .failed (by simp [empty, hn]) fails

end

end Stream

end AuditTrail

import AuditTrail.Address
import AuditTrail.Proofs.Text.Joined
import AuditTrail.Proofs.Text.Numeral

namespace AuditTrail

open Numeral

namespace IPv4

theorem not_mem_text {c : Char} (h : NoDigit c) (other : c ≠ '.') (ip : IPv4) :
    c ∉ ip.text.toList := by
  intro member
  rcases Text.mem_intercalate member with between | ⟨field, among, inside⟩
  · simp [other] at between
  · obtain ⟨b, -, rfl⟩ := List.mem_map.1 among
    exact not_mem_print (by decide) h _ inside

@[simp] theorem text_inj {ip ip' : IPv4} : ip.text = ip'.text ↔ ip = ip' := by
  refine ⟨fun h => ?_, congrArg _⟩
  have apart (ip : IPv4) : ∀ field ∈ ip.bytes.map fun b => decimal b.toNat, '.' ∉ field.toList :=
    List.forall_mem_map.2 fun b _ => not_mem_print (by decide) (by decide) _
  have bytes := Text.intercalate_inj (by simp [bytes]) (by simp [bytes]) (apart ip) (apart ip') h
  cases ip
  cases ip'
  simpa [IPv4.bytes, UInt8.toNat_inj] using bytes

end IPv4

namespace IPv6

def shown (groups : List UInt16) : List String :=
  if groups = [] then [""] else groups.map fun g => print 16 g.toNat

def parts (ip : IPv6) : List String :=
  match ip.mapped? with
  | some inner => ["", "", "ffff", inner.text]
  | none =>
    let (start, length) := zeroRun ip.groups
    if length < 2 then ip.groups.map fun g => print 16 g.toNat
    else shown (ip.groups.take start) ++ "" :: shown (ip.groups.drop (start + length))

theorem intercalate_shown (groups : List UInt16) :
    ":".intercalate (shown groups) = groupsText groups := by
  unfold shown
  split
  · next none => rw [none]; rfl
  · rfl

theorem shown_ne_nil (groups : List UInt16) : shown groups ≠ [] := by
  unfold shown
  split <;> simp_all

theorem text_eq (ip : IPv6) : ip.text = ":".intercalate ip.parts := by
  cases mapped : ip.mapped? with
  | some inner =>
    rw [text, parts, mapped]
    simp [← String.toList_inj, String.intercalate_cons_cons]
  | none =>
    simp only [text, parts, mapped]
    split
    · rfl
    · rw [String.intercalate_append_of_ne_nil (shown_ne_nil _) (by simp), intercalate_shown,
        String.intercalate_cons_of_ne_nil (shown_ne_nil _), intercalate_shown]
      simp [← String.toList_inj]

theorem not_mem_shown {c : Char} (h : NoDigit c) (groups : List UInt16) :
    ∀ part ∈ shown groups, c ∉ part.toList := by
  unfold shown
  split
  · simp
  · exact List.forall_mem_map.2 fun g _ => not_mem_print (by decide) h _

theorem empty_not_mem_map (groups : List UInt16) :
    "" ∉ groups.map fun g => print 16 g.toNat := by
  simp [print_ne_empty]

theorem map_print_inj {groups groups' : List UInt16}
    (h : (groups.map fun g => print 16 g.toNat) = groups'.map fun g => print 16 g.toNat) :
    groups = groups' := by
  refine List.map_injective_iff.2 (fun g g' same => ?_) h
  simpa [UInt16.toNat_inj] using same

theorem shown_inj {groups groups' : List UInt16} (h : shown groups = shown groups') :
    groups = groups' := by
  unfold shown at h
  split at h <;> split at h
  · next left right => rw [left, right]
  · exact absurd (h ▸ List.mem_singleton_self "") (empty_not_mem_map groups')
  · exact absurd (h ▸ List.mem_singleton_self "") (empty_not_mem_map groups)
  · exact map_print_inj h

theorem empty_not_mem_shown {groups : List UInt16} (h : groups ≠ []) : "" ∉ shown groups := by
  rw [shown, if_neg h]
  exact empty_not_mem_map groups

theorem shown_append_inj {front front' back back' : List UInt16}
    (h : shown front ++ "" :: shown back = shown front' ++ "" :: shown back') :
    front = front' ∧ back = back' := by
  by_cases none : front = [] <;> by_cases none' : front' = []
  · subst none none'
    exact ⟨rfl, shown_inj (List.cons.inj (List.cons.inj h).2).2⟩
  · obtain ⟨g, gs, rfl⟩ := List.exists_cons_of_ne_nil none'
    simp [none, shown, print_ne_empty, eq_comm (a := "")] at h
  · obtain ⟨g, gs, rfl⟩ := List.exists_cons_of_ne_nil none
    simp [none', shown, print_ne_empty] at h
  · obtain ⟨before, behind⟩ := Text.append_cons_inj_of_not_mem (empty_not_mem_shown none)
      (empty_not_mem_shown none') h
    exact ⟨shown_inj before, shown_inj behind⟩

/-- How groups may be spelt: with an address inside, group by group, or with some zeros left out. -/
inductive Spelling (groups : List UInt16) : List String → Prop
  | mapped (inner : IPv4) (h : groups = [0, 0, 0, 0, 0, 0xFFFF,
      BigEndian.word16 inner.a inner.b, BigEndian.word16 inner.c inner.d]) :
      Spelling groups ["", "", "ffff", inner.text]
  | full : Spelling groups (groups.map fun g => print 16 g.toNat)
  | short {front back : List UInt16} (zeros : Nat)
      (h : groups = front ++ (List.replicate zeros 0 ++ back)) :
      Spelling groups (shown front ++ "" :: shown back)

theorem groups_of_mapped? {ip : IPv6} {inner : IPv4} (h : ip.mapped? = some inner) :
    ip.groups = [0, 0, 0, 0, 0, 0xFFFF, BigEndian.word16 inner.a inner.b,
      BigEndian.word16 inner.c inner.d] := by
  unfold mapped? at h
  split at h
  · next high low groups =>
    cases h
    rw [groups, BigEndian.word16_bytes16, BigEndian.word16_bytes16]
  · cases h

def IsRun (groups : List UInt16) (run : Nat × Nat) : Prop :=
  groups = groups.take run.1 ++ (List.replicate run.2 0 ++ groups.drop (run.1 + run.2))

theorem isRun_takeWhile (groups : List UInt16) (i : Nat) :
    IsRun groups (i, ((groups.drop i).takeWhile (· == 0)).length) := by
  have zeros : (groups.drop i).takeWhile (· == 0) =
      List.replicate ((groups.drop i).takeWhile (· == 0)).length 0 :=
    List.eq_replicate_of_mem fun g member => by simpa using List.mem_takeWhile_imp member
  have behind : (groups.drop i).drop ((groups.drop i).takeWhile (· == 0)).length =
      (groups.drop i).dropWhile (· == 0) := by
    conv_lhs => arg 2; rw [← List.takeWhile_append_dropWhile (p := (· == 0)) (l := groups.drop i)]
    exact List.drop_left
  rw [IsRun, ← zeros, ← List.drop_drop, behind, List.takeWhile_append_dropWhile,
    List.take_append_drop]

theorem isRun_zeroRun (groups : List UInt16) : IsRun groups (zeroRun groups) := by
  rw [zeroRun]
  refine List.foldlRecOn (motive := IsRun groups) _ _ (by simp [IsRun]) fun best kept i _ => ?_
  dsimp only
  split
  · exact isRun_takeWhile groups i
  · exact kept

theorem spelling_parts (ip : IPv6) : Spelling ip.groups ip.parts := by
  cases mapped : ip.mapped? with
  | some inner =>
    rw [parts, mapped]
    exact .mapped inner (groups_of_mapped? mapped)
  | none =>
    simp only [parts, mapped]
    split
    · exact .full
    · exact .short _ (isRun_zeroRun ip.groups)

theorem text_not_mem_of_noDot {parts : List String} (h : ∀ part ∈ parts, '.' ∉ part.toList)
    (inner : IPv4) : inner.text ∉ parts := by
  intro member
  refine h _ member ?_
  simp [IPv4.text, IPv4.bytes, String.intercalate_cons_cons]

theorem text_not_mem_map (inner : IPv4) (groups : List UInt16) :
    inner.text ∉ groups.map fun g => print 16 g.toNat :=
  text_not_mem_of_noDot
    (List.forall_mem_map.2 fun _ _ => not_mem_print (by decide) (by decide) _) inner

theorem text_not_mem_short (inner : IPv4) (front back : List UInt16) :
    inner.text ∉ shown front ++ "" :: shown back := by
  refine text_not_mem_of_noDot ?_ inner
  rw [List.forall_mem_append, List.forall_mem_cons]
  exact ⟨not_mem_shown (by decide) front, by simp, not_mem_shown (by decide) back⟩

theorem Spelling.inj {groups groups' : List UInt16} {parts parts' : List String}
    (h : Spelling groups parts) (h' : Spelling groups' parts') (same : parts = parts')
    (length : groups.length = groups'.length) : groups = groups' := by
  cases h with
  | mapped inner here =>
    cases h' with
    | mapped inner' here' =>
      have inside : inner = inner' := by simpa using same
      rw [here, here', inside]
    | full => exact absurd (by simp [← same]) (text_not_mem_map inner groups')
    | @short front back => exact absurd (same ▸ by simp) (text_not_mem_short inner front back)
  | full =>
    cases h' with
    | mapped inner' => exact absurd (by simp [same]) (text_not_mem_map inner' groups)
    | full => exact map_print_inj same
    | short => exact absurd (by simp [same]) (empty_not_mem_map groups)
  | @short front back zeros here =>
    cases h' with
    | mapped inner' => exact absurd (same ▸ by simp) (text_not_mem_short inner' front back)
    | full => exact absurd (by simp [← same]) (empty_not_mem_map groups')
    | short zeros' here' =>
      obtain ⟨rfl, rfl⟩ := shown_append_inj same
      have count : zeros = zeros' := by simpa [here, here'] using length
      rw [here, here', count]

theorem Spelling.not_mem {groups : List UInt16} {parts : List String}
    (spelt : Spelling groups parts) {c : Char} (h : NoDigit c) (other : c ≠ '.') :
    ∀ part ∈ parts, c ∉ part.toList := by
  cases spelt with
  | mapped inner =>
    have letter : c ≠ 'f' := (h 15).symm
    simp [letter, inner.not_mem_text h other]
  | full => exact List.forall_mem_map.2 fun g _ => not_mem_print (by decide) h _
  | short =>
    rw [List.forall_mem_append, List.forall_mem_cons]
    exact ⟨not_mem_shown h _, by simp, not_mem_shown h _⟩

theorem Spelling.two_le_length {groups : List UInt16} {parts : List String}
    (spelt : Spelling groups parts) (h : 2 ≤ groups.length) : 2 ≤ parts.length := by
  cases spelt with
  | mapped => simp
  | full => rwa [List.length_map]
  | @short front back =>
    have := List.length_pos_of_ne_nil (shown_ne_nil front)
    rw [List.length_append, List.length_cons]
    omega

theorem colon_not_mem_parts (ip : IPv6) : ∀ part ∈ ip.parts, ':' ∉ part.toList :=
  ip.spelling_parts.not_mem (by decide) (by decide)

theorem two_le_length_parts (ip : IPv6) : 2 ≤ ip.parts.length :=
  ip.spelling_parts.two_le_length (by simp [groups])

theorem parts_ne_nil (ip : IPv6) : ip.parts ≠ [] :=
  List.ne_nil_of_length_pos (Nat.lt_of_lt_of_le Nat.zero_lt_two ip.two_le_length_parts)

theorem not_mem_text {c : Char} (h : NoDigit c) (dot : c ≠ '.') (colon : c ≠ ':') (ip : IPv6) :
    c ∉ ip.text.toList := by
  rw [text_eq]
  intro member
  rcases Text.mem_intercalate member with between | ⟨part, among, inside⟩
  · simp [colon] at between
  · exact ip.spelling_parts.not_mem h dot part among inside

@[simp] theorem text_inj {ip ip' : IPv6} : ip.text = ip'.text ↔ ip = ip' := by
  refine ⟨fun h => ?_, congrArg _⟩
  rw [text_eq, text_eq] at h
  have parts := Text.intercalate_inj ip.parts_ne_nil ip'.parts_ne_nil ip.colon_not_mem_parts
    ip'.colon_not_mem_parts h
  have groups := ip.spelling_parts.inj ip'.spelling_parts parts rfl
  cases ip
  cases ip'
  simpa [IPv6.groups] using groups

end IPv6

theorem IPv4.text_ne_text (v4 : IPv4) (v6 : IPv6) : v4.text ≠ v6.text := by
  intro same
  have alone : v6.text = ":".intercalate [v4.text] := by rw [same, String.intercalate_singleton]
  rw [v6.text_eq] at alone
  have parts := Text.intercalate_inj v6.parts_ne_nil (List.cons_ne_nil _ _) v6.colon_not_mem_parts
    (List.forall_mem_singleton.2 (v4.not_mem_text (by decide) (by decide))) alone
  have long := v6.two_le_length_parts
  simp [parts] at long

namespace Address

theorem not_mem_text {c : Char} (h : NoDigit c) (dot : c ≠ '.') (colon : c ≠ ':')
    (address : Address) : c ∉ address.text.toList := by
  cases address with
  | v4 ip => exact ip.not_mem_text h dot
  | v6 ip => exact ip.not_mem_text h dot colon

@[simp] theorem text_inj {address address' : Address} :
    address.text = address'.text ↔ address = address' := by
  refine ⟨fun h => ?_, congrArg _⟩
  cases address with
  | v4 ip =>
    cases address' with
    | v4 ip' => exact congrArg _ (IPv4.text_inj.1 h)
    | v6 ip' => exact absurd h (ip.text_ne_text ip')
  | v6 ip =>
    cases address' with
    | v4 ip' => exact absurd h.symm (ip'.text_ne_text ip)
    | v6 ip' => exact congrArg _ (IPv6.text_inj.1 h)

end Address

end AuditTrail

import AuditTrail.Record.Frame

namespace AuditTrail.Stream

/-- The stream `t` is what is left of `s` when the bytes `used` have come off it, and maybe some
faults. -/
structure Spends (s : Stream) (used : List UInt8) (t : Stream) : Prop where
  rest : s.rest = used ++ t.rest
  position : t.position = s.position + used.length
  faults : t.faults <:+ s.faults

theorem Spends.refl (s : Stream) : s.Spends [] s := ⟨rfl, rfl, List.suffix_refl _⟩

theorem Spends.trans {s t u : Stream} {front back : List UInt8} (h : s.Spends front t)
    (h' : t.Spends back u) : s.Spends (front ++ back) u where
  rest := by rw [h.rest, h'.rest, List.append_assoc]
  position := by rw [h'.position, h.position, List.length_append, Nat.add_assoc]
  faults := h'.faults.trans h.faults

theorem deliver_spends (s : Stream) (n : Nat) : s.Spends (s.deliver n).1 (s.deliver n).2 :=
  ⟨(List.take_append_drop _ _).symm, rfl, List.suffix_refl _⟩

theorem length_deliver_le (s : Stream) (n : Nat) : (s.deliver n).1.length ≤ n := by
  refine Nat.le_trans (List.length_take_le ..) ?_
  cases s.chunk with
  | none => exact Nat.le_refl n
  | some chunk => exact Nat.min_le_left ..

section

variable {s t : Stream} {n : Nat}

theorem read_ok_spends {piece : List UInt8} (h : s.read n = (.ok piece, t)) :
    s.Spends piece t ∧ piece.length ≤ n := by
  unfold read at h
  split at h
  · cases h
    exact ⟨deliver_spends s n, length_deliver_le s n⟩
  · split at h
    · cases h
    · cases h
      exact ⟨deliver_spends s _, Nat.le_trans (length_deliver_le s _) (Nat.min_le_left ..)⟩

theorem read_error_spends {e : IoError} (h : s.read n = (.error e, t)) : s.Spends [] t := by
  unfold read at h
  split at h
  · cases h
  · rename_i fault faults next
    split at h <;> cases h
    exact ⟨rfl, rfl, next ▸ List.suffix_cons ..⟩

end

theorem byte?_spends (s : Stream) :
    ∃ used, s.Spends used s.byte?.2 ∧ ∀ b, s.byte?.1 = .ok (some b) → used = [b] := by
  fun_induction byte? s with
  | case1 s t hread => exact ⟨[], (read_ok_spends hread).1, by simp⟩
  | case2 s b bs t hread =>
    obtain ⟨spends, one⟩ := read_ok_spends hread
    obtain rfl : bs = [] := by simpa using one
    refine ⟨[b], spends, ?_⟩
    rintro _ ⟨⟩
    rfl
  | case3 s e t hread hkind ih =>
    obtain ⟨used, spends, settled⟩ := ih
    exact ⟨used, (read_error_spends hread).trans spends, settled⟩
  | case4 s e t hread hkind => exact ⟨[], read_error_spends hread, by simp⟩

theorem seek_spends (p : UInt8 → Bool) (s : Stream) :
    ∃ used, s.Spends used (s.seek p).2 ∧
      ∀ b, (s.seek p).1 = .ok (some b) → ∃ passed, used = passed ++ [b] := by
  fun_induction seek p s with
  | case1 s b t hbyte hb =>
    obtain ⟨used, spends, one⟩ := hbyte ▸ byte?_spends s
    refine ⟨used, spends, ?_⟩
    rintro _ ⟨⟩
    exact ⟨[], one b rfl⟩
  | case2 s b t hbyte hb ih =>
    obtain ⟨first, spends, -⟩ := hbyte ▸ byte?_spends s
    obtain ⟨used, further, found⟩ := ih
    refine ⟨first ++ used, spends.trans further, fun b here => ?_⟩
    obtain ⟨passed, rfl⟩ := found b here
    exact ⟨first ++ passed, (List.append_assoc ..).symm⟩
  | case3 s t hbyte =>
    obtain ⟨used, spends, -⟩ := hbyte ▸ byte?_spends s
    exact ⟨used, spends, by simp⟩
  | case4 s e t hbyte =>
    obtain ⟨used, spends, -⟩ := hbyte ▸ byte?_spends s
    exact ⟨used, spends, by simp⟩

theorem upTo_spends (s : Stream) (n : Nat) :
    ∃ used, s.Spends used (s.upTo n).2 ∧ ∀ bytes, (s.upTo n).1 = .ok bytes → used = bytes := by
  fun_induction upTo s n with
  | case1 s => exact ⟨[], .refl s, fun _ same => Except.ok.inj same⟩
  | case2 s n hn t hread =>
    exact ⟨[], (read_ok_spends hread).1, fun _ same => Except.ok.inj same⟩
  | case3 s n hn b bs t hread more u hmore ih =>
    obtain ⟨used, spends, whole⟩ := hmore ▸ ih
    refine ⟨b :: bs ++ used, (read_ok_spends hread).1.trans spends, ?_⟩
    rintro _ ⟨⟩
    rw [whole more rfl]
  | case4 s n hn b bs t hread e u hmore ih =>
    obtain ⟨used, spends, -⟩ := hmore ▸ ih
    exact ⟨b :: bs ++ used, (read_ok_spends hread).1.trans spends, by simp⟩
  | case5 s n hn e t hread hkind ih =>
    obtain ⟨used, spends, whole⟩ := ih
    exact ⟨used, (read_error_spends hread).trans spends, whole⟩
  | case6 s n hn e t hread hkind => exact ⟨[], read_error_spends hread, by simp⟩

theorem readFrameBody_spends (tag : UInt8) (s : Stream) :
    ∃ used, s.Spends used (s.readFrameBody tag).2 ∧
      ∀ frame, (s.readFrameBody tag).1 = .ok frame → frame = tag :: used := by
  obtain ⟨length, spends, whole⟩ := s.upTo_spends 4
  unfold readFrameBody
  split <;> rename_i hread <;> rw [hread] at spends whole
  · exact ⟨length, spends, by simp⟩
  · rename_i a b c d t
    obtain rfl := whole _ rfl
    dsimp only
    split
    · exact ⟨_, spends, by simp⟩
    · obtain ⟨body, further, whole⟩ :=
        t.upTo_spends ((BigEndian.word32 a b c d).toNat - Frame.startLength)
      split <;> rename_i hrest <;> rw [hrest] at further whole
      · exact ⟨_, spends.trans further, by simp⟩
      · obtain rfl := whole _ rfl
        split
        · exact ⟨_, spends.trans further, by simp⟩
        · refine ⟨_, spends.trans further, ?_⟩
          rintro _ ⟨⟩
          rfl
  · exact ⟨length, spends, by simp⟩

theorem readFrame_spends (s : Stream) :
    ∃ used, s.Spends used s.readFrame.2 ∧
      ∀ frame, s.readFrame.1 = .ok (some frame) → ∃ passed, used = passed ++ frame := by
  obtain ⟨used, spends, found⟩ := s.seek_spends Tag.isHeader
  unfold readFrame
  split <;> rename_i hseek <;> rw [hseek] at spends found
  · exact ⟨used, spends, by simp⟩
  · exact ⟨used, spends, by simp⟩
  · rename_i tag t
    obtain ⟨passed, rfl⟩ := found tag rfl
    obtain ⟨body, further, whole⟩ := t.readFrameBody_spends tag
    split <;> rename_i hframe <;> rw [hframe] at further whole
    · exact ⟨_, spends.trans further, by simp⟩
    · refine ⟨_, spends.trans further, ?_⟩
      rintro _ ⟨⟩
      rw [whole _ rfl]
      exact ⟨passed, by simp⟩

end AuditTrail.Stream

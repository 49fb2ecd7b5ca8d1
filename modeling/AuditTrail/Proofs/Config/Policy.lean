import AuditTrail.Config.Policy
import AuditTrail.Proofs.Except
import AuditTrail.Proofs.Text.Trimmed
import Mathlib.Data.List.Nodup
import Mathlib.Data.Set.List

namespace AuditTrail.Policy

@[simp] theorem mem_all (p : Policy) : p ∈ all := by
  cases p <;> decide

theorem nodup_names : (all.map name).Nodup := by decide

def place (p : Policy) : Nat := all.idxOf p

theorem place_inj {p q : Policy} : p.place = q.place ↔ p = q :=
  List.idxOf_inj (mem_all p)

theorem toBitVec_bit (p : Policy) : p.bit.toBitVec = BitVec.twoPow 32 p.place := by
  cases p <;> rfl

theorem place_lt (p : Policy) : p.place < 32 := by
  cases p <;> decide

theorem and_bit (w : UInt32) (p : Policy) : (w &&& p.bit != 0) = w.toBitVec.getLsbD p.place := by
  have single : w.toBitVec &&& p.bit.toBitVec =
      if w.toBitVec.getLsbD p.place then BitVec.twoPow 32 p.place else 0#32 := by
    rw [toBitVec_bit, BitVec.and_twoPow]
  have nonzero : BitVec.twoPow 32 p.place ≠ 0#32 := by
    intro zero
    have here := congrArg (BitVec.getLsbD · p.place) zero
    simp [p.place_lt] at here
  rw [Bool.eq_iff_iff, bne_iff_ne, ne_eq, ← UInt32.toBitVec_inj, UInt32.toBitVec_and, single]
  split <;> simp_all

theorem getLsbD_bits (ps : List Policy) (k : Nat) :
    (bits ps).toBitVec.getLsbD k = true ↔ ∃ p ∈ ps, p.place = k := by
  induction ps using List.reverseRecOn with
  | nil => simp [bits]
  | append_singleton ps p ih =>
    have last : bits (ps ++ [p]) = bits ps ||| p.bit := List.foldl_append
    rw [last, UInt32.toBitVec_or, toBitVec_bit, BitVec.getLsbD_or, Bool.or_eq_true, ih]
    simp [p.place_lt, or_and_right, exists_or]

theorem bits_ofBits (w : UInt32) : bits (ofBits w) = w &&& bits all := by
  rw [← UInt32.toBitVec_inj]
  refine BitVec.eq_of_getLsbD_eq fun k _ => ?_
  rw [Bool.eq_iff_iff, UInt32.toBitVec_and, BitVec.getLsbD_and, Bool.and_eq_true, getLsbD_bits,
    getLsbD_bits, ofBits]
  simp only [List.mem_filter, and_bit]
  constructor
  · rintro ⟨p, ⟨named, set⟩, rfl⟩
    exact ⟨set, p, named, rfl⟩
  · rintro ⟨set, p, named, rfl⟩
    exact ⟨p, ⟨named, set⟩, rfl⟩

theorem mem_ofBits_bits {ps : List Policy} {p : Policy} : p ∈ ofBits (bits ps) ↔ p ∈ ps := by
  rw [ofBits, List.mem_filter, and_bit, getLsbD_bits]
  simp [place_inj]

theorem ofName_eq_ok_iff {s : String} {p : Policy} : ofName s = .ok p ↔ p.name = s := by
  rw [ofName]
  constructor
  · intro read
    split at read
    · next found =>
      cases read
      simpa using List.find?_some found
    · cases read
  · rintro rfl
    cases p <;> rfl

theorem plain_name (p : Policy) :
    ',' ∉ p.name.toList ∧ Text.trim p.name = p.name ∧ p.name ≠ "" := by
  cases p <;> decide

theorem readBits_eq_ok_iff {list : String} {w : UInt32} : readBits list = .ok w ↔
    ∃ policies, Text.items ',' list = policies.map name ∧ bits policies = w := by
  refine map_eq_ok.trans (exists_congr fun policies => and_congr_left' ?_)
  have read (s : String) (p : Policy) : ofName s = .ok p ↔ s = p.name :=
    ofName_eq_ok_iff.trans eq_comm
  rw [mapM_eq_ok_iff]
  simp only [← List.forall₂_eq_eq_eq, List.forall₂_map_left_iff, List.forall₂_map_right_iff, read]

theorem exists_readBits_iff {list : String} : (∃ w, readBits list = .ok w) ↔
    ∀ entry ∈ Text.items ',' list, ∃ p, name p = entry := by
  have named := Set.ext_iff.1 (Set.range_list_map name) (Text.items ',' list)
  rw [Set.mem_range, Set.mem_ofPred_eq] at named
  simp only [readBits_eq_ok_iff, ← Set.mem_range, ← named]
  constructor
  · rintro ⟨_, policies, same, -⟩
    exact ⟨policies, same.symm⟩
  · rintro ⟨policies, same⟩
    exact ⟨_, policies, same.symm, rfl⟩

theorem items_text (w : UInt32) : Text.items ',' (text w) = (ofBits w).map name := by
  refine Text.items_intercalate ?_ ?_ ?_ <;> rw [List.forall_mem_map]
  · exact fun p _ => p.plain_name.1
  · exact fun p _ => p.plain_name.2.1
  · exact fun p _ => p.plain_name.2.2

/-- Bits that are written as a list of names are read back, those that no policy has left out. A
list that was written by hand is read if every entry that is not blank is the name of a policy,
apart from the blanks around it; written again it has the names that occurred in it, each once and
in the order of the policies. -/
theorem readBits_text_names :
    (∀ w, readBits (text w) = .ok (w &&& bits all)) ∧
    ∀ list : String,
      ((∃ w, readBits list = .ok w) ↔
        ∀ entry ∈ Text.split ',' list, (∃ c ∈ entry.toList, Text.isBlank c = false) →
          ∃ p, name p = Text.trim entry) ∧
      ∀ w, readBits list = .ok w → ∃ names : List String,
        text w = ",".intercalate names ∧ names.Sublist (all.map name) ∧ names.Nodup ∧
          ∀ s, s ∈ names ↔
            (∃ p, name p = s) ∧ ∃ entry ∈ Text.split ',' list, Text.trim entry = s := by
  refine ⟨fun w => ?_, fun list => ⟨?_, fun w read => ?_⟩⟩
  · rw [readBits_eq_ok_iff]
    exact ⟨ofBits w, items_text w, bits_ofBits w⟩
  · rw [exists_readBits_iff]
    simp only [Text.mem_items, ← Text.trim_ne_empty_iff]
    constructor
    · intro known entry member solid
      exact known _ ⟨solid, entry, member, rfl⟩
    · rintro known _ ⟨solid, entry, member, rfl⟩
      exact known entry member solid
  · obtain ⟨policies, entries, rfl⟩ := readBits_eq_ok_iff.1 read
    have among : ((ofBits (bits policies)).map name).Sublist (all.map name) :=
      List.filter_sublist.map name
    refine ⟨_, rfl, among, nodup_names.sublist among, fun s => ?_⟩
    simp only [List.mem_map, mem_ofBits_bits]
    constructor
    · rintro ⟨p, member, rfl⟩
      have item : p.name ∈ Text.items ',' list := entries ▸ List.mem_map_of_mem member
      exact ⟨⟨p, rfl⟩, (Text.mem_items.1 item).2⟩
    · rintro ⟨⟨p, rfl⟩, entry⟩
      have item : p.name ∈ Text.items ',' list := Text.mem_items.2 ⟨p.plain_name.2.2, entry⟩
      rwa [entries, List.mem_map] at item

theorem readBits_text_names_unordered :
    let list := " argv,, cnt ,\tperzone,cnt"
    readBits list = .ok 0x2005 ∧ text 0x2005 = "cnt,argv,perzone" ∧
      (∃ names : List String, text 0x2005 = ",".intercalate names ∧
        names.Sublist (all.map name) ∧ names.Nodup ∧ ∀ s, s ∈ names ↔
          (∃ p, name p = s) ∧ ∃ entry ∈ Text.split ',' list, Text.trim entry = s) ∧
      readBits (text 0x8002005) = .ok 0x2005 := by
  intro list
  have read : readBits list = .ok 0x2005 := by decide
  have all : (0x8002005 : UInt32) &&& bits all = 0x2005 := by decide
  obtain ⟨written, listed⟩ := readBits_text_names
  exact ⟨read, by decide, (listed list).2 _ read, all ▸ written 0x8002005⟩

end AuditTrail.Policy

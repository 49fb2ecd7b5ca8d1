import AuditTrail.Proofs.Config.Spelling
import Mathlib.Data.List.Nodup

/-! Masks written as flag lists. A list names whole classes, so what it says of a mask is the
largest part of it that is made of whole classes; this part is read back. -/

namespace AuditTrail

namespace Mask

instance : LE Mask where
  le m n := ∀ o k, m.audits o k = true → n.audits o k = true

theorem ext_audits {m n : Mask} (h : ∀ o k, m.audits o k = true ↔ n.audits o k = true) : m = n := by
  refine ext_on fun o => ?_
  rw [← UInt32.toBitVec_inj]
  exact BitVec.eq_of_getLsbD_eq fun k _ => Bool.eq_iff_iff.2 (h o k)

theorem le_antisymm {m n : Mask} (h : m ≤ n) (h' : n ≤ m) : m = n :=
  ext_audits fun o k => ⟨h o k, h' o k⟩

def includes (m : Mask) (bits : UInt32) (o : Outcome) : Bool := bits &&& m.on o == bits

theorem includes_iff {m : Mask} {bits : UInt32} {o : Outcome} : m.includes bits o = true ↔
    ∀ k, bits.toBitVec.getLsbD k = true → m.audits o k = true := by
  rw [includes, beq_iff_eq, ← UInt32.toBitVec_inj, UInt32.toBitVec_and]
  constructor
  · intro same k set
    rw [← same, BitVec.getLsbD_and, Bool.and_eq_true] at set
    exact set.2
  · intro whole
    refine BitVec.eq_of_getLsbD_eq fun k _ => ?_
    rw [BitVec.getLsbD_and, Bool.and_eq_left_iff_imp]
    exact whole k

def bitsOf (classes : List EventClass) : UInt32 := classes.foldr (·.mask ||| ·) 0

theorem getLsbD_bitsOf (classes : List EventClass) (k : Nat) :
    (bitsOf classes).toBitVec.getLsbD k = true ↔
      ∃ c ∈ classes, c.mask.toBitVec.getLsbD k = true := by
  induction classes with
  | nil => simp [bitsOf]
  | cons c classes ih =>
    rw [bitsOf] at ih
    simp [bitsOf, ih]

/-- What a mask audits for an outcome are whole classes, and for another outcome maybe others. -/
def Expressible (classes : List EventClass) (m : Mask) : Prop :=
  ∀ o, ∃ chosen, chosen ⊆ classes ∧ m.on o = bitsOf chosen

def rounded (classes : List EventClass) (m : Mask) : Mask :=
  ofOutcomes fun o => bitsOf (classes.filter fun c => m.includes c.mask o)

section

variable {classes : List EventClass} {m n : Mask}

theorem audits_rounded {o : Outcome} {k : Nat} : (m.rounded classes).audits o k = true ↔
    ∃ c ∈ classes, m.includes c.mask o = true ∧ c.mask.toBitVec.getLsbD k = true := by
  rw [audits, rounded, on_ofOutcomes, getLsbD_bitsOf]
  simp only [List.mem_filter, and_assoc]

theorem expressible_rounded : Expressible classes (m.rounded classes) := fun o =>
  ⟨_, List.filter_sublist.subset, on_ofOutcomes _ o⟩

theorem rounded_le : m.rounded classes ≤ m := by
  intro o k audited
  obtain ⟨c, -, whole, set⟩ := audits_rounded.1 audited
  exact includes_iff.1 whole k set

theorem le_rounded (expressible : Expressible classes n) (h : n ≤ m) : n ≤ m.rounded classes := by
  intro o k audited
  obtain ⟨chosen, among, same⟩ := expressible o
  have part (k : Nat) : n.audits o k = true ↔ ∃ c ∈ chosen, c.mask.toBitVec.getLsbD k = true := by
    rw [audits, same, getLsbD_bitsOf]
  obtain ⟨c, member, set⟩ := (part k).1 audited
  have whole : m.includes c.mask o = true :=
    includes_iff.2 fun k set => h o k ((part k).2 ⟨c, member, set⟩)
  exact audits_rounded.2 ⟨c, among member, whole, set⟩

theorem rounded_eq_self_iff : m.rounded classes = m ↔ Expressible classes m := by
  constructor
  · intro same
    rw [← same]
    exact expressible_rounded
  · exact fun expressible =>
      le_antisymm rounded_le (le_rounded expressible fun _ _ audited => audited)

theorem includes_rounded {c : EventClass} (member : c ∈ classes) (o : Outcome) :
    (m.rounded classes).includes c.mask o = m.includes c.mask o := by
  rw [Bool.eq_iff_iff]
  constructor
  · intro whole
    exact includes_iff.2 fun k set => rounded_le o k (includes_iff.1 whole k set)
  · intro whole
    exact includes_iff.2 fun k set => audits_rounded.2 ⟨c, member, whole, set⟩

end

def selection? (m : Mask) (bits : UInt32) : Option Selection :=
  match m.includes bits .success, m.includes bits .failure with
  | true, true => some .both
  | true, false => some .success
  | false, true => some .failure
  | false, false => none

theorem sign?_eq (m : Mask) (bits : UInt32) :
    m.sign? bits = (m.selection? bits).map Selection.sign := by
  simp only [sign?, selection?, includes, on]
  generalize (bits &&& m.success == bits) = success
  generalize (bits &&& m.failure == bits) = failure
  cases success <;> cases failure <;> rfl

theorem covers_selection? {m : Mask} {bits : UInt32} {o : Outcome} :
    (∃ selection, m.selection? bits = some selection ∧ selection.covers o = true) ↔
      m.includes bits o = true := by
  rw [selection?]
  cases o <;> split <;> simp_all [Selection.covers]

def listed (classes : List EventClass) (m : Mask) : List Flag :=
  (classes.filter (·.mask != 0)).filterMap fun c =>
    (m.selection? c.mask).map fun selection => ⟨false, selection, c.name⟩

variable {classes : List EventClass} {m : Mask}

theorem flags_eq : m.flags classes false = ",".intercalate ((m.listed classes).map Flag.entry) := by
  have entries (selection : Selection) (name : String) :
      Flag.entry ⟨false, selection, name⟩ = selection.sign ++ name := by
    simp [Flag.entry, Flag.marks]
  simp only [flags, listed, List.map_filterMap, sign?_eq, Option.map_map, Function.comp_def,
    entries]
  rfl

theorem mem_listed {flag : Flag} : flag ∈ m.listed classes ↔
    ∃ c ∈ classes, c.mask ≠ 0 ∧
      ∃ selection, m.selection? c.mask = some selection ∧ ⟨false, selection, c.name⟩ = flag := by
  simp only [listed, List.mem_filterMap, List.mem_filter, bne_iff_ne, Option.map_eq_some_iff,
    and_assoc]

end Mask

namespace Flag

variable {classes : List EventClass}

theorem class?_of_distinct (distinct : (classes.map (·.name)).Nodup) {c : EventClass}
    (member : c ∈ classes) {flag : Flag} (named : flag.name = c.name) :
    flag.class? classes = some c := by
  cases found : flag.class? classes with
  | none =>
    exact absurd ⟨c, member, named.symm⟩ ((class?_eq_none_iff flag).1 found)
  | some d =>
    have same : d.name = flag.name := by simpa using List.find?_some found
    have inside : d ∈ classes := List.mem_of_find?_eq_some found
    rw [List.inj_on_of_nodup_map distinct inside member (same.trans named)]

theorem audited_iff_of_kept {flags : List Flag} (kept : ∀ flag ∈ flags, flag.removes = false)
    {o : Outcome} {k : Nat} :
    Audited classes flags o k ↔ ∃ flag ∈ flags, flag.mentions classes o k = true := by
  constructor
  · rintro ⟨flag, last, -⟩
    obtain ⟨front, after, rfl, mentions, -⟩ := last?_eq_some_iff.1 last
    exact ⟨flag, by simp, mentions⟩
  · rintro ⟨flag, member, mentions⟩
    cases last : last? classes flags o k with
    | none =>
      have silent := List.filter_eq_nil_iff.1 (List.getLast?_eq_none_iff.1 last)
      exact absurd mentions (silent flag member)
    | some later =>
      obtain ⟨front, after, rfl, -⟩ := last?_eq_some_iff.1 last
      exact ⟨later, last, kept later (by simp)⟩

end Flag

namespace Mask

section

variable {classes : List EventClass} (distinct : (classes.map (·.name)).Nodup)
  (plain : ∀ c ∈ classes, Flag.PlainName c.name)
include distinct plain

theorem ofFlags_flags (m : Mask) :
    ofFlags classes (m.flags classes false) = .ok (m.rounded classes) := by
  have list : Flag.list (m.flags classes false) = m.listed classes := by
    rw [flags_eq, Flag.list_intercalate]
    intro flag member
    obtain ⟨c, inside, -, selection, -, rfl⟩ := mem_listed.1 member
    exact plain c inside
  have known : ∀ flag ∈ Flag.list (m.flags classes false), flag.Known classes := by
    intro flag member
    obtain ⟨c, inside, -, selection, -, rfl⟩ := mem_listed.1 (list ▸ member)
    exact ⟨c, inside, rfl⟩
  have kept : ∀ flag ∈ m.listed classes, flag.removes = false := by
    intro flag member
    obtain ⟨c, inside, -, selection, -, rfl⟩ := mem_listed.1 member
    rfl
  obtain ⟨n, read, audited⟩ := ofFlags_of_known known
  rw [read]
  refine congrArg _ (ext_audits fun o k => ?_)
  rw [audited, list, Flag.audited_iff_of_kept kept, audits_rounded]
  constructor
  · rintro ⟨flag, member, mentions⟩
    obtain ⟨c, inside, -, selection, here, rfl⟩ := mem_listed.1 member
    rw [Flag.mentions, Flag.class?_of_distinct distinct inside rfl, Bool.and_eq_true] at mentions
    exact ⟨c, inside, covers_selection?.1 ⟨selection, here, mentions.1⟩, mentions.2⟩
  · rintro ⟨c, inside, whole, set⟩
    obtain ⟨selection, here, covers⟩ := covers_selection?.2 whole
    have some : c.mask ≠ 0 := (ne_zero_iff _).2 ⟨k, set⟩
    refine ⟨_, mem_listed.2 ⟨c, inside, some, selection, here, rfl⟩, ?_⟩
    rw [Flag.mentions, Flag.class?_of_distinct distinct inside rfl, Bool.and_eq_true]
    exact ⟨covers, set⟩

end

theorem flags_rounded (classes : List EventClass) (verbose : Bool) (m : Mask) :
    (m.rounded classes).flags classes verbose = m.flags classes verbose := by
  rw [flags, flags]
  refine congrArg _ (List.filterMap_congr fun c member => ?_)
  have inside : c ∈ classes := (List.mem_filter.1 member).1
  simp only [sign?_eq, selection?, includes_rounded inside]

/-- What is read back of a mask that was written as a flag list is the largest mask below it that is
made of whole classes: for each outcome the union of those classes that the mask has as a whole. So
a mask is read back as it was if, and only if, it is made of whole classes, and what is read back is
written as the mask was. -/
theorem ofFlags_flags_rounds (classes : List EventClass)
    (distinct : (classes.map (·.name)).Nodup) (plain : ∀ c ∈ classes, Flag.PlainName c.name)
    (m : Mask) :
    ∃ n, ofFlags classes (m.flags classes false) = .ok n ∧
      (∀ o, n.on o = bitsOf (classes.filter fun c => c.mask &&& m.on o == c.mask)) ∧
      Expressible classes n ∧ n ≤ m ∧
      (∀ other, Expressible classes other → other ≤ m → other ≤ n) ∧
      (n = m ↔ Expressible classes m) ∧ n.flags classes false = m.flags classes false :=
  ⟨m.rounded classes, ofFlags_flags distinct plain m, on_ofOutcomes _, expressible_rounded,
    rounded_le, fun _ => le_rounded, rounded_eq_self_iff, flags_rounded classes false m⟩

theorem ofFlags_flags_rounds_overlapping :
    let classes : List EventClass :=
      [⟨0, "no", "no class"⟩, ⟨1, "fr", "file read"⟩, ⟨3, "fa", "file access"⟩,
        ⟨0x1002, "fw", "file write"⟩, ⟨0x1000, "lo", "login"⟩]
    let m : Mask := ⟨0x7, 0x1007⟩
    (classes.map (·.name)).Nodup ∧ (∀ c ∈ classes, Flag.PlainName c.name) ∧
      m.flags classes false = "fr,fa,-fw,-lo" ∧
      ofFlags classes "fr,fa,-fw,-lo" = .ok ⟨0x3, 0x1003⟩ ∧ ¬Expressible classes m := by
  intro classes m
  have distinct : (classes.map (·.name)).Nodup := by decide +kernel
  have plain : ∀ c ∈ classes, Flag.PlainName c.name := by decide +kernel
  have written : m.flags classes false = "fr,fa,-fw,-lo" := by cbv
  obtain ⟨n, read, parts, -, -, -, back, -⟩ := ofFlags_flags_rounds classes distinct plain m
  have rounded : n = ⟨0x3, 0x1003⟩ := ext_on fun o => by
    rw [parts o]
    cases o <;> decide +kernel
  subst rounded
  exact ⟨distinct, plain, written, written ▸ read, fun whole => absurd (back.2 whole) (by decide)⟩

end Mask

end AuditTrail

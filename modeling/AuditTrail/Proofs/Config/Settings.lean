import AuditTrail.Config.Control
import AuditTrail.Proofs.Config.Entries

namespace AuditTrail

open Config

inductive Setting.Reads : String → String → Option Setting → Prop
  | directory (path : String) : Reads "dir" path (some (.directory path))
  | flags (text : String) : Reads "flags" text (some (.flags text))
  | unattributedFlags (text : String) : Reads "naflags" text (some (.unattributedFlags text))
  | freeSpace {value : String} {percent : UInt32}
      (h : Numeral.unsigned? 10 4294967296 value = some percent.toNat) :
      Reads "minfree" value (some (.freeSpace percent))
  | trailSize {value : String} {size : UInt64}
      (h : Numeral.unsigned? 10 18446744073709551616 value = some size.toNat)
      (large : size.toNat = 0 ∨ leastTrailSize ≤ size.toNat) :
      Reads "filesz" value (some (.trailSize size))
  | policy {value : String} {bits : UInt32} (h : Policy.readBits value = .ok bits) :
      Reads "policy" value (some (.policy bits))
  | host (name : String) : Reads "host" name (some (.host name))
  | unknown {key : String}
      (h : key ∉ ["dir", "flags", "naflags", "minfree", "filesz", "policy", "host"])
      (value : String) : Reads key value none

theorem Numeral.lt_of_unsigned? {base limit n : Nat} {s : String}
    (h : unsigned? base limit s = some n) : n < limit :=
  of_decide_eq_true (Option.filter_eq_some_iff.1 h).2

namespace Setting

theorem readFreeSpace_eq_ok {value : String} {percent : UInt32}
    (h : readFreeSpace value = .ok percent) :
    Numeral.unsigned? 10 4294967296 value = some percent.toNat := by
  unfold readFreeSpace at h
  split at h
  · next n number =>
    cases h
    rw [number, UInt32.toNat_ofNat_of_lt' (Numeral.lt_of_unsigned? number)]
  · cases h

theorem readTrailSize_eq_ok {value : String} {size : UInt64} (h : readTrailSize value = .ok size) :
    Numeral.unsigned? 10 18446744073709551616 value = some size.toNat ∧
      (size.toNat = 0 ∨ leastTrailSize ≤ size.toNat) := by
  unfold readTrailSize at h
  split at h
  · next n number =>
    obtain ⟨large, h⟩ := ite_error_eq_ok.1 h
    cases h
    rw [number, UInt64.toNat_ofNat_of_lt' (Numeral.lt_of_unsigned? number)]
    exact ⟨rfl, by omega⟩
  · cases h

theorem reads_of_read {key value : String} {setting : Option Setting}
    (h : read key value = .ok setting) : Reads key value setting := by
  unfold read at h
  split at h
  case h_1 =>
    cases h
    exact .directory value
  case h_2 =>
    cases h
    exact .flags value
  case h_3 =>
    cases h
    exact .unattributedFlags value
  case h_4 =>
    obtain ⟨percent, told, rfl⟩ := map_eq_ok.1 h
    exact .freeSpace (readFreeSpace_eq_ok told)
  case h_5 =>
    obtain ⟨size, told, rfl⟩ := map_eq_ok.1 h
    exact .trailSize (readTrailSize_eq_ok told).1 (readTrailSize_eq_ok told).2
  case h_6 =>
    obtain ⟨bits, told, rfl⟩ := map_eq_ok.1 h
    exact .policy told
  case h_7 =>
    cases h
    exact .host value
  case h_8 dir flags naflags minfree filesz policy host =>
    cases h
    refine .unknown ?_ value
    simpa using ⟨dir, flags, naflags, minfree, filesz, policy, host⟩

end Setting

namespace Control

def values (c : Control) (key : String) : List String :=
  (c.entries.filter (·.1 == key)).map (·.2)

theorem get?_eq (c : Control) (key : String) : c.get? key = (c.values key).getLast? := by
  rw [get?, values, List.getLast?_map, ← List.head?_reverse, ← List.filter_reverse]
  induction c.entries.reverse with
  | nil => rfl
  | cons entry entries ih =>
    rw [List.lookup_cons, List.filter_cons]
    by_cases same : entry.1 = key
    · simp [same]
    · rw [beq_false_of_ne same, beq_false_of_ne (Ne.symm same), ih]
      rfl

theorem entries_add (c : Control) (e : ControlEntry) :
    (c.add e).entries = c.entries ++ [(e.key, e.value)] := by
  rw [add]
  split
  · next setting _ => cases setting <;> rfl
  · rfl

theorem entries_foldl_add (es : List ControlEntry) (c : Control) :
    (es.foldl add c).entries = c.entries ++ es.map fun e => (e.key, e.value) := by
  induction es generalizing c with
  | nil => exact (List.append_nil _).symm
  | cons e es ih =>
    rw [List.foldl_cons, ih, entries_add, List.append_assoc]
    rfl

theorem values_add (c : Control) (e : ControlEntry) (key : String) :
    (c.add e).values key = if e.key = key then c.values key ++ [e.value] else c.values key := by
  rw [values, entries_add, List.filter_append, List.map_append, values]
  split
  · next same => simp [same]
  · next other => simp [other]

theorem get?_add (c : Control) (e : ControlEntry) (key : String) :
    (c.add e).get? key = if e.key = key then some e.value else c.get? key := by
  rw [get?_eq, values_add, get?_eq]
  split
  · exact List.getLast?_concat
  · rfl

structure Consistent (c : Control) : Prop where
  directories : c.directories = c.values "dir"
  flags : c.flags = c.get? "flags"
  unattributedFlags : c.unattributedFlags = c.get? "naflags"
  freeSpace : (c.get? "minfree").map (Numeral.unsigned? 10 4294967296) =
    c.freeSpace.map (some ·.toNat)
  trailSize : (c.get? "filesz").map (Numeral.unsigned? 10 18446744073709551616) =
    c.trailSize.map (some ·.toNat)
  trailSize_large : ∀ size ∈ c.trailSize, size.toNat = 0 ∨ Setting.leastTrailSize ≤ size.toNat
  policy : (c.get? "policy").map Policy.readBits = c.policy.map .ok
  host : c.host = c.get? "host"

theorem consistent_empty : Consistent {} where
  directories := rfl
  flags := rfl
  unattributedFlags := rfl
  freeSpace := rfl
  trailSize := rfl
  trailSize_large := nofun
  policy := rfl
  host := rfl

/-- What one entry changes: what its key sets is told by its value from then on, and all else
stays. -/
structure Sets (c : Control) (key value : String) (after : Control) : Prop where
  directories : after.directories =
    if key = "dir" then c.directories ++ [value] else c.directories
  flags : after.flags = if key = "flags" then some value else c.flags
  unattributedFlags : after.unattributedFlags =
    if key = "naflags" then some value else c.unattributedFlags
  freeSpace : after.freeSpace.map (some ·.toNat) =
    if key = "minfree" then some (Numeral.unsigned? 10 4294967296 value)
    else c.freeSpace.map (some ·.toNat)
  trailSize : after.trailSize.map (some ·.toNat) =
    if key = "filesz" then some (Numeral.unsigned? 10 18446744073709551616 value)
    else c.trailSize.map (some ·.toNat)
  trailSize_large : ∀ size ∈ after.trailSize,
    size ∈ c.trailSize ∨ size.toNat = 0 ∨ Setting.leastTrailSize ≤ size.toNat
  policy : after.policy.map .ok =
    if key = "policy" then some (Policy.readBits value) else c.policy.map .ok
  host : after.host = if key = "host" then some value else c.host

theorem sets_add (c : Control) {key value : String} {setting : Option Setting}
    (reads : Setting.Reads key value setting) : c.Sets key value (c.add ⟨key, value, setting⟩) := by
  cases reads with
  | freeSpace number => constructor <;> simp +contextual [add, set, number]
  | trailSize number large => constructor <;> simp +contextual [add, set, number, large]
  | policy told => constructor <;> simp +contextual [add, set, told]
  | unknown other =>
    simp only [List.mem_cons, List.not_mem_nil, or_false, not_or] at other
    constructor <;> simp +contextual [add, other]
  | directory | flags | unattributedFlags | host =>
    constructor <;> simp +contextual [add, set]

theorem Consistent.add {c : Control} (h : c.Consistent) {key value : String}
    {setting : Option Setting} (reads : Setting.Reads key value setting) :
    (c.add ⟨key, value, setting⟩).Consistent where
  directories := by rw [values_add, (c.sets_add reads).directories, h.directories]
  flags := by rw [get?_add, (c.sets_add reads).flags, h.flags]
  unattributedFlags := by
    rw [get?_add, (c.sets_add reads).unattributedFlags, h.unattributedFlags]
  freeSpace := by
    rw [get?_add, (c.sets_add reads).freeSpace, apply_ite (Option.map _), h.freeSpace]
    rfl
  trailSize := by
    rw [get?_add, (c.sets_add reads).trailSize, apply_ite (Option.map _), h.trailSize]
    rfl
  trailSize_large := fun size now =>
    ((c.sets_add reads).trailSize_large size now).elim (h.trailSize_large size) id
  policy := by
    rw [get?_add, (c.sets_add reads).policy, apply_ite (Option.map _), h.policy]
    rfl
  host := by rw [get?_add, (c.sets_add reads).host, h.host]

theorem consistent_foldl_add {es : List ControlEntry}
    (reads : ∀ e ∈ es, Setting.Reads e.key e.value e.setting) {c : Control} (h : c.Consistent) :
    (es.foldl add c).Consistent := by
  induction es generalizing c with
  | nil => exact h
  | cons e es ih =>
    rw [List.forall_mem_cons] at reads
    exact ih reads.2 (h.add reads.1)

end Control

/-- The key and the value of an entry are the texts around its first colon, without blanks. -/
def Config.SplitsAs (entry : String) (pair : String × String) : Prop :=
  ∃ front back, entry = front ++ ":" ++ back ∧ ':' ∉ front.toList ∧
    pair = (Text.trim front, Text.trim back)

namespace ControlEntry

theorem read_eq_ok_iff {entry : String} {e : ControlEntry} :
    read entry = .ok e ↔
      SplitsAs entry (e.key, e.value) ∧ Setting.read e.key e.value = .ok e.setting := by
  constructor
  · intro h
    unfold read at h
    split at h
    · cases h
    · next front back parts =>
      obtain ⟨setting, told, h⟩ := bind_eq_ok.1 h
      cases h
      obtain ⟨parts, first⟩ := Text.cut?_eq_some_iff.1 parts
      exact ⟨⟨front, back, parts, first, rfl⟩, told⟩
  · rintro ⟨⟨front, back, parts, first, same⟩, told⟩
    obtain ⟨key, value, setting⟩ := e
    cases same
    have found : Text.cut? ':' entry = some (front, back) :=
      Text.cut?_eq_some_iff.2 ⟨parts, first⟩
    rw [read, found]
    exact bind_eq_ok.2 ⟨setting, told, rfl⟩

def line (e : ControlEntry) : String := e.key ++ ":" ++ e.value

variable {entry : String} {e : ControlEntry}

theorem read_line (h : read entry = .ok e) : read e.line = .ok e := by
  obtain ⟨⟨front, back, -, first, same⟩, told⟩ := read_eq_ok_iff.1 h
  rw [Prod.mk.injEq] at same
  refine read_eq_ok_iff.2 ⟨⟨e.key, e.value, rfl, fun colon => ?_, ?_⟩, told⟩
  · rw [same.1] at colon
    exact first (Text.mem_of_mem_trim colon)
  · rw [same.1, same.2, Text.trim_trim, Text.trim_trim]

theorem isEntry_line (h : IsEntry entry) (told : read entry = .ok e) : IsEntry e.line := by
  obtain ⟨⟨front, back, parts, -, same⟩, -⟩ := read_eq_ok_iff.1 told
  rw [Prod.mk.injEq] at same
  have chars : entry.toList = front.toList ++ ':' :: back.toList := by simp [parts]
  have lineChars : e.line.toList = e.key.toList ++ ':' :: e.value.toList := by simp [line]
  have trimmed : Text.trim e.line = e.line := by
    refine Text.trim_joined (c := ':') rfl ?_ ?_
    · rw [same.1, Text.trim_trim]
    · rw [same.2, Text.trim_trim]
  -- The line of the entry begins as the entry did: with the key, or with the colon if it is empty.
  have sameHead : e.key.toList.head? = front.toList.head? := by
    rw [same.1]
    refine Text.head?_trim fun c first => (Text.trim_eq_self_iff.1 h.trimmed).1 c ?_
    rw [chars, List.head?_append, first]
    rfl
  refine ⟨?_, trimmed, ?_⟩
  · obtain ⟨-, comment⟩ := h.carries
    rw [Carries, trimmed, lineChars, List.head?_append, sameHead]
    rw [h.trimmed, chars, List.head?_append] at comment
    exact ⟨fun none => by simp [line] at none, comment⟩
  · intro feed
    refine h.whole ?_
    rw [lineChars, List.mem_append, List.mem_cons] at feed
    rw [chars, List.mem_append, List.mem_cons]
    refine feed.imp (fun inside => ?_) (Or.imp_right fun inside => ?_)
    · exact Text.mem_of_mem_trim (same.1 ▸ inside)
    · exact Text.mem_of_mem_trim (same.2 ▸ inside)

end ControlEntry

namespace Control

def text (c : Control) : String :=
  String.join (c.entries.map fun (key, value) => key ++ ":" ++ value ++ "\n")

theorem read_eq_ok_iff {text : String} {c : Control} :
    read text = .ok c ↔ ∃ es : List ControlEntry,
      (entryLines text).map ControlEntry.read = es.map .ok ∧ es.foldl add {} = c := by
  rw [read, map_eq_ok]
  simp only [readEntries_eq_ok_iff]

section

variable {text : String} {c : Control} (h : read text = .ok c)
include h

theorem splitsAs_of_read : List.Forall₂ SplitsAs (entryLines text) c.entries := by
  obtain ⟨es, told, rfl⟩ := read_eq_ok_iff.1 h
  rw [← List.forall₂_eq_eq_eq, List.forall₂_map_left_iff, List.forall₂_map_right_iff] at told
  rw [entries_foldl_add, List.nil_append, List.forall₂_map_right_iff]
  exact told.imp fun entry e told => (ControlEntry.read_eq_ok_iff.1 told).1

theorem exists_entries_of_read : ∃ es : List ControlEntry, es.foldl add {} = c ∧
    (entryLines text).map ControlEntry.read = es.map .ok ∧
      ∀ e ∈ es, ∃ entry ∈ entryLines text, ControlEntry.read entry = .ok e := by
  obtain ⟨es, told, same⟩ := read_eq_ok_iff.1 h
  refine ⟨es, same, told, fun e member => ?_⟩
  rw [← List.mem_map, told]
  exact List.mem_map_of_mem member

theorem consistent_of_read : c.Consistent := by
  obtain ⟨es, rfl, -, source⟩ := exists_entries_of_read h
  refine consistent_foldl_add (fun e member => ?_) consistent_empty
  obtain ⟨entry, -, told⟩ := source e member
  exact Setting.reads_of_read (ControlEntry.read_eq_ok_iff.1 told).2

theorem read_text : read c.text = .ok c := by
  obtain ⟨es, rfl, -, source⟩ := exists_entries_of_read h
  have lines :
      (es.foldl add {}).text = String.join ((es.map ControlEntry.line).map (· ++ "\n")) := by
    rw [Control.text, entries_foldl_add, List.nil_append, List.map_map, List.map_map]
    rfl
  refine read_eq_ok_iff.2 ⟨es, ?_, rfl⟩
  rw [lines, entryLines_join, List.map_map]
  · refine List.map_congr_left fun e member => ?_
    obtain ⟨entry, -, told⟩ := source e member
    exact ControlEntry.read_line told
  · intro line member
    obtain ⟨e, within, rfl⟩ := List.mem_map.1 member
    obtain ⟨entry, among, told⟩ := source e within
    exact ControlEntry.isEntry_line (isEntry_of_mem entry among) told

end

/-- What a control file says is what its entries say, and they say it again when they are written
out. -/
theorem read_as_entries {text : String} {c : Control} (h : read text = .ok c) :
    List.Forall₂ SplitsAs (entryLines text) c.entries ∧ c.Consistent ∧
      (∀ key, c.get? key = (c.values key).getLast?) ∧ read c.text = .ok c :=
  ⟨splitsAs_of_read h, consistent_of_read h, get?_eq c, read_text h⟩

theorem read_as_entries_repeated :
    let text := "# b\n dir : /a\r\nfilesz:0\n:#c\n dir:d:/e \nfilesz:+524288"
    let control : Control :=
      { entries := [("dir", "/a"), ("filesz", "0"), ("", "#c"), ("dir", "d:/e"),
          ("filesz", "+524288")]
        directories := ["/a", "d:/e"]
        trailSize := some 524288 }
    read text = .ok control ∧ control.get? "filesz" = "+524288" ∧ control.get? "flags" = none ∧
      read "dir:/a\nfilesz:0\n:#c\ndir:d:/e\nfilesz:+524288\n" = .ok control := by
  intro text control
  have told : read text = .ok control := by decide +kernel
  obtain ⟨-, -, last, again⟩ := read_as_entries told
  have written : control.text = "dir:/a\nfilesz:0\n:#c\ndir:d:/e\nfilesz:+524288\n" := by
    simp [Control.text, control, String.join]
  rw [written] at again
  exact ⟨told, (last "filesz").trans (by decide +kernel), (last "flags").trans (by decide +kernel),
    again⟩

end Control

end AuditTrail

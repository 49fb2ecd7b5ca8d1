import AuditTrail.Database.Tables
import AuditTrail.Proofs.Except
import AuditTrail.Proofs.Text.Digits

namespace AuditTrail

namespace Numeral

/-- A number as a table may have it: in hexadecimal behind a mark, or else in decimal. -/
inductive Denotes : List Char → Nat → Prop
  | hex {mark : Char} {cs : List Char} {n : Nat} (marked : mark = 'x' ∨ mark = 'X')
      (digits : Unsigned 16 cs n) : Denotes ('0' :: mark :: cs) n
  | decimal {cs : List Char} {n : Nat} (digits : Unsigned 10 cs n) : Denotes cs n

theorem not_unsigned_marked {mark : Char} (marked : mark = 'x' ∨ mark = 'X') {cs : List Char}
    {n : Nat} : ¬Unsigned 10 ('0' :: mark :: cs) n := by
  rintro (⟨-, values, written, -⟩ | -)
  obtain ⟨_, _, -, others, -⟩ := List.forall₂_cons_left_iff.1 written
  obtain ⟨_, _, second, -, -⟩ := List.forall₂_cons_left_iff.1 others
  have digit := (digit?_eq_some_iff (by decide)).2 second
  obtain rfl | rfl := marked <;> cases digit

theorem denotes_marked_iff {mark : Char} (marked : mark = 'x' ∨ mark = 'X') {cs : List Char}
    {n : Nat} : Denotes ('0' :: mark :: cs) n ↔ Unsigned 16 cs n := by
  refine ⟨fun written => ?_, .hex marked⟩
  cases written with
  | hex _ digits => exact digits
  | decimal digits => exact absurd digits (not_unsigned_marked marked)

end Numeral

namespace Config

open Numeral (Denotes)

theorem exists_readNumber (s : String) :
    ∃ number : Option Nat, (∀ n, number = some n ↔ Denotes s.toList n ∧ n < 2 ^ 32) ∧
      readNumber s =
        match number with
        | some n => .ok (UInt32.ofNat n)
        | none => .error (.notNumber s) := by
  refine ⟨_, fun n => ?_, rfl⟩
  have hex {mark : Char} (marked : mark = 'x' ∨ mark = 'X') {digits : List Char}
      (chars : s.toList = '0' :: mark :: digits) :
      Numeral.unsigned? 16 (2 ^ 32) (String.ofList digits) = some n ↔
        Denotes s.toList n ∧ n < 2 ^ 32 := by
    rw [chars, Numeral.denotes_marked_iff marked, Numeral.unsigned?_eq_some_iff (by decide),
      String.toList_ofList]
  split
  · next chars => exact hex (.inl rfl) chars
  · next chars => exact hex (.inr rfl) chars
  · next lower upper =>
    rw [Numeral.unsigned?_eq_some_iff (by decide)]
    refine and_congr_left fun _ => ⟨.decimal, fun written => ?_⟩
    generalize s.toList = cs at lower upper written
    cases written with
    | @hex mark digits _ marked =>
      obtain rfl | rfl := marked
      · exact absurd rfl (lower digits)
      · exact absurd rfl (upper digits)
    | decimal digits => exact digits

theorem readNumber_eq_ok_iff {s : String} {n : Nat} :
    (readNumber s).map UInt32.toNat = .ok n ↔ Denotes s.toList n ∧ n < 2 ^ 32 := by
  obtain ⟨number, known, told⟩ := exists_readNumber s
  rw [told, ← known]
  cases number with
  | none => exact iff_of_false nofun nofun
  | some m =>
    have small := ((known m).1 rfl).2
    simp [Except.map, UInt32.toNat_ofNat_of_lt' small]

theorem readNumber_eq_ok {s : String} {w : UInt32} :
    readNumber s = .ok w ↔ Denotes s.toList w.toNat := by
  have told := @readNumber_eq_ok_iff s w.toNat
  rw [and_iff_left w.toNat_lt] at told
  simpa [map_eq_ok, UInt32.toNat_inj] using told

example : ["0X+00fF", "+0004294967295", "4294967296", "0x", "+0x10", "0x-1", "٣"].map
      (fun s => (readNumber s).toOption) =
    [some 0xFF, some 4294967295, none, none, none, none, none] := by
  decide +kernel

theorem readNumber_error {s : String} {e : EntryError} (h : readNumber s = .error e) :
    e = .notNumber s := by
  obtain ⟨number, -, told⟩ := exists_readNumber s
  rw [told] at h
  cases number with
  | none =>
    cases h
    rfl
  | some n => cases h

theorem readEventNumber_of_ok {s : String} {w : UInt32} (h : readNumber s = .ok w) :
    readEventNumber s =
      if w.toNat < 2 ^ 16 then .ok w.toUInt16 else .error (.eventNumber s) := by
  rw [readEventNumber, h]
  rfl

theorem readEventNumber_eq_ok_iff {s : String} {n : Nat} :
    (readEventNumber s).map UInt16.toNat = .ok n ↔ Denotes s.toList n ∧ n < 2 ^ 16 := by
  have smaller : n < 2 ^ 16 ↔ n < 2 ^ 32 ∧ n < 2 ^ 16 := by omega
  rw [smaller, ← and_assoc, ← readNumber_eq_ok_iff]
  cases read : readNumber s with
  | error e =>
    rw [readEventNumber, read]
    exact iff_of_false nofun nofun
  | ok w =>
    rw [readEventNumber_of_ok read]
    split
    · next small =>
      have kept : w.toUInt16.toNat = w.toNat := by
        rw [UInt32.toNat_toUInt16, Nat.mod_eq_of_lt small]
      simp only [Except.map, kept, Except.ok.injEq]
      exact (and_iff_left_of_imp fun same => same ▸ small).symm
    · next large =>
      simp only [Except.map, Except.ok.injEq, reduceCtorEq, false_iff, not_and]
      rintro rfl
      exact large

theorem readEventNumber_eq_ok {s : String} {w : UInt16} :
    readEventNumber s = .ok w ↔ Denotes s.toList w.toNat := by
  have told := @readEventNumber_eq_ok_iff s w.toNat
  rw [and_iff_left w.toNat_lt] at told
  simpa [map_eq_ok, UInt16.toNat_inj] using told

theorem kind_of_readEventNumber {s : String} {e : EntryError} (h : readEventNumber s = .error e) :
    e.kind = .invalidFormat := by
  cases read : readNumber s with
  | error e =>
    rw [readEventNumber, read] at h
    cases h
    rw [readNumber_error read]
    rfl
  | ok w =>
    rw [readEventNumber_of_ok read] at h
    split at h <;> cases h
    rfl

theorem mapError_kind_eq_iff {x : Except EntryError α} (f : α → β)
    (kind : ∀ e, x = .error e → e.kind = .invalidFormat) :
    x.mapError EntryError.kind = .error .invalidFormat ↔ ∀ b, x.map f ≠ .ok b := by
  cases x with
  | ok a => exact iff_of_false nofun fun none => none (f a) rfl
  | error e => exact iff_of_true (congrArg _ (kind e rfl)) nofun

end Config

theorem EventClass.read_eq_ok_iff {entry : String} {c : EventClass} :
    EventClass.read entry = .ok c ↔ ∃ mask,
      Text.fields ':' entry = [mask, c.name, c.description] ∧
        "" ∉ [mask, c.name, c.description] ∧ Numeral.Denotes mask.toList c.mask.toNat := by
  constructor
  · intro h
    unfold EventClass.read at h
    split at h
    · next mask name description fields =>
      obtain ⟨present, h⟩ := ite_error_eq_ok.1 h
      obtain ⟨bits, number, h⟩ := bind_eq_ok.1 h
      cases h
      exact ⟨mask, fields, by simpa [@eq_comm _ ""] using present, Config.readNumber_eq_ok.1 number⟩
    · cases h
  · rintro ⟨mask, fields, filled, number⟩
    have present : ¬(mask = "" ∨ c.name = "" ∨ c.description = "") := by
      simpa [@eq_comm _ ""] using filled
    rw [EventClass.read, fields]
    exact ite_error_eq_ok.2 ⟨present, bind_eq_ok.2 ⟨_, Config.readNumber_eq_ok.2 number, rfl⟩⟩

namespace Event

/-- The class bits of an event: those that its flag list selects for success, or none at all if the
list has an unknown name. -/
inductive Belongs (classes : List EventClass) (flags : String) : UInt32 → Prop
  | known {m : Mask} (told : Mask.ofFlags classes flags = .ok m) : Belongs classes flags m.success
  | unknown {e : Config.EntryError} (refused : Mask.ofFlags classes flags = .error e) :
      Belongs classes flags 0

theorem exists_belongs (classes : List EventClass) (flags : String) :
    ∃ bits, Belongs classes flags bits := by
  cases told : Mask.ofFlags classes flags with
  | ok m => exact ⟨_, .known told⟩
  | error e => exact ⟨_, .unknown told⟩

variable {classes : List EventClass} {entry : String}

theorem read_eq_ok_iff {event : Event} : Event.read classes entry = .ok event ↔
    ∃ number flags, Text.fields ':' entry = [number, event.name, event.description, flags] ∧
      "" ∉ [number, event.name, event.description, flags] ∧
        Numeral.Denotes number.toList event.number.toNat ∧ Belongs classes flags event.mask := by
  constructor
  · intro h
    unfold Event.read at h
    split at h
    · next number name description flags fields =>
      obtain ⟨present, h⟩ := ite_error_eq_ok.1 h
      obtain ⟨n, told, h⟩ := bind_eq_ok.1 h
      cases h
      refine ⟨number, flags, fields, by simpa [@eq_comm _ ""] using present,
        Config.readEventNumber_eq_ok.1 told, ?_⟩
      cases resolved : Mask.ofFlags classes flags with
      | ok m => exact .known resolved
      | error e => exact .unknown resolved
    · cases h
  · rintro ⟨number, flags, fields, filled, told, belongs⟩
    have present : ¬(number = "" ∨ event.name = "" ∨ event.description = "" ∨ flags = "") := by
      simpa [@eq_comm _ ""] using filled
    rw [Event.read, fields]
    refine ite_error_eq_ok.2 ⟨present, bind_eq_ok.2 ⟨_, Config.readEventNumber_eq_ok.2 told, ?_⟩⟩
    obtain ⟨number, name, description, mask⟩ := event
    cases belongs with
    | known resolved | unknown resolved =>
      rw [resolved]
      rfl

def NumberField (entry number : String) : Prop :=
  ∃ name description flags, Text.fields ':' entry = [number, name, description, flags] ∧
    "" ∉ [number, name, description, flags]

theorem map_number_read_eq_ok_iff {n : Nat} :
    (Event.read classes entry).map (·.number.toNat) = .ok n ↔
      ∃ number, NumberField entry number ∧ Numeral.Denotes number.toList n ∧ n < 2 ^ 16 := by
  rw [map_eq_ok]
  constructor
  · rintro ⟨event, read, rfl⟩
    obtain ⟨number, flags, fields, present, told, -⟩ := read_eq_ok_iff.1 read
    exact ⟨number, ⟨_, _, _, fields, present⟩, told, event.number.toNat_lt⟩
  · rintro ⟨number, ⟨name, description, flags, fields, present⟩, told, small⟩
    obtain ⟨mask, belongs⟩ := exists_belongs classes flags
    have same : (UInt16.ofNat n).toNat = n := UInt16.toNat_ofNat_of_lt' small
    rw [← same] at told
    exact ⟨{ number := .ofNat n, name, description, mask },
      read_eq_ok_iff.2 ⟨number, flags, fields, present, told, belongs⟩, same⟩

theorem kind_of_read_error {e : Config.EntryError} (h : Event.read classes entry = .error e) :
    e.kind = .invalidFormat := by
  unfold Event.read at h
  split at h
  · next number name description flags fields =>
    split at h
    · cases h
      rfl
    · cases told : Config.readEventNumber number with
      | ok n =>
        rw [told] at h
        cases h
      | error refused =>
        rw [told] at h
        cases h
        exact Config.kind_of_readEventNumber told
  · cases h
    rfl

end Event

/-- A text is read as the number that it denotes, digit by digit, if this has no more than 32 bits,
and an event is accepted if all its fields are there and its number has no more than 16. In every
other case the format is refused. -/
theorem Config.reads_denoted_numbers (classes : List EventClass) :
    (∀ s n, (readNumber s).map UInt32.toNat = .ok n ↔ Numeral.Denotes s.toList n ∧ n < 2 ^ 32) ∧
    (∀ s, (readNumber s).mapError EntryError.kind = .error .invalidFormat ↔
      ∀ n, Numeral.Denotes s.toList n → 2 ^ 32 ≤ n) ∧
    (∀ entry n, (Event.read classes entry).map (·.number.toNat) = .ok n ↔
      ∃ number, Event.NumberField entry number ∧ Numeral.Denotes number.toList n ∧ n < 2 ^ 16) ∧
    ∀ entry, (Event.read classes entry).mapError EntryError.kind = .error .invalidFormat ↔
      ∀ number n, Event.NumberField entry number → Numeral.Denotes number.toList n →
        2 ^ 16 ≤ n := by
  refine ⟨fun s n => readNumber_eq_ok_iff, fun s => ?_,
    fun entry n => Event.map_number_read_eq_ok_iff, fun entry => ?_⟩
  · rw [mapError_kind_eq_iff UInt32.toNat fun e refused => readNumber_error refused ▸ rfl]
    refine forall_congr' fun n => ?_
    rw [Ne, readNumber_eq_ok_iff, not_and, Nat.not_lt]
  · rw [mapError_kind_eq_iff (·.number.toNat) fun e => Event.kind_of_read_error, forall_comm]
    refine forall_congr' fun n => ?_
    rw [Ne, Event.map_number_read_eq_ok_iff]
    simp only [not_exists, not_and, Nat.not_lt]

end AuditTrail

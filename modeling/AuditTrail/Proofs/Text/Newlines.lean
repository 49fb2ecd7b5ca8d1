import AuditTrail.Address
import AuditTrail.Calendar
import AuditTrail.ErrorNumber
import AuditTrail.Proofs.Text.Utf8
import Mathlib.Algebra.GroupWithZero.Nat

namespace AuditTrail

namespace Text

def newlines (s : String) : Nat := s.toList.count '\n'

theorem newlines_eq_zero_iff (s : String) : newlines s = 0 ↔ '\n' ∉ s.toList :=
  List.count_eq_zero

@[simp] theorem newlines_append (s t : String) : newlines (s ++ t) = newlines s + newlines t := by
  simp [newlines]

@[simp] theorem newlines_ofList (cs : List Char) : newlines (String.ofList cs) = cs.count '\n' := by
  simp [newlines]

theorem sum_newlines_eq_zero {ss : List String} (h : ∀ s ∈ ss, newlines s = 0) :
    (ss.map newlines).sum = 0 := by
  rw [List.sum_eq_zero_iff_forall_eq_nat]
  simpa using h

theorem sum_newlines_flatMap (f : α → List String) (as : List α) :
    ((as.flatMap f).map newlines).sum = (as.map fun a => ((f a).map newlines).sum).sum := by
  induction as with
  | nil => rfl
  | cons a as ih =>
    rw [List.flatMap_cons, List.map_append, List.sum_append, ih, List.map_cons, List.sum_cons]

theorem newlines_join (ss : List String) : newlines (String.join ss) = (ss.map newlines).sum := by
  induction ss with
  | nil => rfl
  | cons s ss ih => rw [String.join_cons, newlines_append, ih, List.map_cons, List.sum_cons]

theorem newlines_lines (ss : List String) :
    newlines (String.join (ss.map (· ++ "\n"))) = ss.length + (ss.map newlines).sum := by
  have ending (s : String) : newlines (s ++ "\n") = newlines s + 1 := newlines_append s "\n"
  induction ss with
  | nil => rfl
  | cons s ss ih =>
    rw [List.map_cons, String.join_cons, newlines_append, ih, ending, List.length_cons,
      List.map_cons, List.sum_cons]
    omega

theorem newlines_intercalate {delimiter : String} (h : newlines delimiter = 0)
    (ss : List String) : newlines (delimiter.intercalate ss) = (ss.map newlines).sum := by
  induction ss with
  | nil => rfl
  | cons s ss ih =>
    cases ss with
    | nil => simp
    | cons t ss =>
      rw [String.intercalate_cons_cons, newlines_append, newlines_append, h, ih, Nat.add_zero]
      rfl

theorem newlines_intercalate_eq_zero {delimiter : String} (h : newlines delimiter = 0)
    {ss : List String} (hss : ∀ s ∈ ss, newlines s = 0) :
    newlines (delimiter.intercalate ss) = 0 := by
  rw [newlines_intercalate h, sum_newlines_eq_zero hss]

theorem newlines_getD {ss : List String} (h : ∀ s ∈ ss, newlines s = 0) (n : Nat) :
    newlines (ss.getD n "") = 0 := by
  rw [List.getD_eq_getElem?_getD]
  cases found : ss[n]? with
  | none => rfl
  | some s => exact h s (List.mem_of_getElem? found)

end Text

open Text

namespace Numeral

theorem digitChar_ne_newline (n : Nat) : Nat.digitChar n ≠ '\n' := by
  grind [Nat.digitChar]

theorem count_toDigitsCore (base fuel n : Nat) (cs : List Char) :
    (Nat.toDigitsCore base fuel n cs).count '\n' = cs.count '\n' := by
  induction fuel generalizing n cs with
  | zero => rfl
  | succ fuel ih =>
    have digit := List.count_cons_of_ne (digitChar_ne_newline (n % base)) (l := cs)
    rw [Nat.toDigitsCore]
    split
    · exact digit
    · rw [ih, digit]

@[simp] theorem count_toDigits (base n : Nat) : (Nat.toDigits base n).count '\n' = 0 :=
  count_toDigitsCore base (n + 1) n []

@[simp] theorem newlines_print (base n : Nat) : newlines (print base n) = 0 := by
  simp [print]

@[simp] theorem newlines_hexByte (b : UInt8) : newlines (hexByte b) = 0 := by
  rw [hexByte, newlines_ofList]
  simp [digitChar_ne_newline]

@[simp] theorem newlines_signed32 (w : UInt32) : newlines (signed32 w) = 0 := by
  have sign : newlines "-" = 0 := rfl
  rw [signed32]
  split <;> simp [sign]

theorem newlines_padded {fill : Char} (h : fill ≠ '\n') (width n : Nat) :
    newlines (padded fill width n) = 0 := by
  simp [padded, List.count_replicate, h]

@[simp] theorem newlines_marked (n : Nat) : newlines (marked n) = 0 := by
  have mark : newlines "0x" = 0 := rfl
  rw [marked]
  split
  · rfl
  · simp [mark]

end Numeral

@[simp] theorem IPv4.newlines_text (ip : IPv4) : newlines ip.text = 0 :=
  newlines_intercalate_eq_zero rfl (by simp)

theorem IPv6.newlines_groupsText (groups : List UInt16) : newlines (groupsText groups) = 0 :=
  newlines_intercalate_eq_zero rfl (by simp)

@[simp] theorem IPv6.newlines_text (ip : IPv6) : newlines ip.text = 0 := by
  have mapped : newlines "::ffff:" = 0 := rfl
  have gap : newlines "::" = 0 := rfl
  rw [text]
  split
  · simp [mapped]
  · dsimp only
    split
    · exact newlines_groupsText _
    · simp [newlines_groupsText, gap]

@[simp] theorem Address.newlines_text (address : Address) : newlines address.text = 0 := by
  cases address with
  | v4 ip => exact ip.newlines_text
  | v6 ip => exact ip.newlines_text

@[simp] theorem Calendar.newlines_text (seconds : Nat) : newlines (text seconds) = 0 := by
  have weekday (n : Nat) : newlines (weekdays.getD n "") = 0 := newlines_getD (by decide) n
  have month (n : Nat) : newlines (months.getD n "") = 0 := newlines_getD (by decide) n
  have clock (ns : List Nat) : newlines (":".intercalate (ns.map (Numeral.padded '0' 2))) = 0 :=
    newlines_intercalate_eq_zero rfl (by simp [Numeral.newlines_padded])
  have day (n : Nat) : newlines (Numeral.padded ' ' 2 n) = 0 :=
    Numeral.newlines_padded (by decide) 2 n
  rw [text]
  apply newlines_intercalate_eq_zero rfl
  simp only [List.forall_mem_cons]
  exact ⟨weekday _, month _, day _, clock _, Numeral.newlines_print _ _, nofun⟩

theorem ErrorNumber.newlines_description {number : UInt8} {e : ErrorNumber}
    (h : find? number = some e) : newlines e.description = 0 := by
  -- Over the bytes: the kernel takes far longer to read the characters of each text.
  have all : ∀ e ∈ table, 10 ∉ bytes e.description := by decide +kernel
  rw [newlines_eq_zero_iff, ← newline_mem_bytes]
  exact all e (List.mem_of_find?_eq_some h)

end AuditTrail

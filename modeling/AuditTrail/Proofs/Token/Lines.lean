import AuditTrail.Proofs.Text.Newlines
import AuditTrail.Token.Render

namespace AuditTrail

open Text

structure Database.Plain (db : Database) : Prop where
  name : ∀ e ∈ db.events, newlines e.name = 0
  description : ∀ e ∈ db.events, newlines e.description = 0
  user : ∀ u ∈ db.users, newlines u.2 = 0
  group : ∀ g ∈ db.groups, newlines g.2 = 0

def Style.Plain (style : Style) : Prop := ∀ s, ∀ date ∈ style.date s, newlines date = 0

/-- The texts of a token that are printed as they are. -/
def Token.contents : Token → List String
  | arg32 _ _ label => [label]
  | arg64 _ _ label => [label]
  | arbitrary .string values => [Style.elements .string values]
  | execArgs args => args
  | execEnv settings => settings
  | file _ _ name => [name]
  | path name => [name]
  | socketUnix _ name => [name]
  | text content => [content]
  | _ => []

namespace Style

theorem newlines_named {names : List (UInt32 × String)} (h : ∀ n ∈ names, newlines n.2 = 0)
    (style : Style) (id : UInt32) :
    newlines (if style.raw then Numeral.signed32 id
      else (names.lookup id).getD (Numeral.signed32 id)) = 0 := by
  split
  · simp
  · cases found : names.lookup id with
    | none => simp
    | some name =>
      obtain ⟨front, back, rfl, -⟩ := List.lookup_eq_some_iff.1 found
      exact h (id, name) (by simp)

section

variable (style : Style) {db : Database} (h : db.Plain)
include h

theorem newlines_user (id : UInt32) : newlines (style.user db id) = 0 :=
  newlines_named h.user style id

theorem newlines_group (id : UInt32) : newlines (style.group db id) = 0 :=
  newlines_named h.group style id

theorem newlines_event (number : UInt16) : newlines (style.event db number) = 0 := by
  unfold event
  dsimp only
  split
  · rename_i e known
    have member : e ∈ db.events := by
      split at known
      · cases known
      · exact List.mem_of_find?_eq_some known
    split
    · exact h.name e member
    · exact h.description e member
  · simp

theorem newlines_header (header : Header) :
    ((style.header db header).map newlines).sum = 0 := by
  simp [Style.header, newlines_event style h]

theorem newlines_identity (who : Identity) :
    ((style.identity db who).map newlines).sum = 0 := by
  simp [identity, newlines_user style h, newlines_group style h]

end

variable (style : Style)

theorem newlines_seconds (h : style.Plain) (s : UInt32) : newlines (style.seconds s) = 0 := by
  rw [seconds]
  split
  · simp
  · cases dated : style.date s with
    | none => simp
    | some date => exact h s date dated

@[simp] theorem newlines_milliseconds (ms : UInt32) : newlines (style.milliseconds ms) = 0 := by
  have sign : newlines " + " = 0 := rfl
  have unit : newlines " msec" = 0 := rfl
  rw [milliseconds]
  split <;> simp [toString, sign, unit]

@[simp] theorem newlines_status (number : UInt8) : newlines (style.status number) = 0 := by
  have failure : newlines "failure : " = 0 := by decide
  have unknown : newlines "failure : Unknown error: " = 0 := by decide
  rw [status]
  split
  · simp
  · split
    · rfl
    · split
      · rename_i found
        simp [failure, ErrorNumber.newlines_description found]
      · simp [toString, unknown]

@[simp] theorem newlines_memory (data : List UInt8) : newlines (memory data) = 0 := by
  rw [memory]
  split
  · rfl
  · rw [newlines_append, newlines_join, sum_newlines_eq_zero (by simp)]
    rfl

theorem newlines_elements {format : PrintFormat} (h : format ≠ .string) (values : Elements) :
    newlines (elements format values) = 0 := by
  have spaced (base : Nat) :
      newlines (String.join (values.widened.map fun v => " " ++ Numeral.print base v.toNat)) =
        0 := by
    have space : newlines " " = 0 := rfl
    rw [newlines_join]
    exact sum_newlines_eq_zero (by simp [space])
  cases format with
  | string => contradiction
  | binary | octal | decimal | hex | other => exact spaced _

end Style

theorem PrintFormat.newlines_name (format : PrintFormat) : newlines format.name = 0 := by
  cases format with
  | other code => exact (by decide : newlines "unknown print suggestion" = 0)
  | _ => rfl

theorem Kind.newlines_name (kind : Kind) : newlines kind.name = 0 := by
  cases kind <;> rfl

namespace Token

theorem newlines_name (token : Token) : newlines token.name = 0 := by
  rw [name]
  cases token.body with
  | known kind values => exact kind.newlines_name
  | unknown tag data => exact (rfl : newlines "unknown" = 0)

section

variable {db : Database} (h : db.Plain)
include h

theorem newlines_details {style : Style} (dates : style.Plain) (token : Token) :
    ((token.details style db).map newlines).sum = (token.contents.map newlines).sum := by
  have seconds := style.newlines_seconds dates
  have user := Style.newlines_user style h
  have group := Style.newlines_group style h
  have header := Style.newlines_header style h
  have identity := Style.newlines_identity style h
  cases token with
  | arbitrary format values =>
    have unit : newlines values.unit.name = 0 := by cases values.unit <;> rfl
    cases format with
    | string => simp [details, contents, unit, PrintFormat.newlines_name]
    | binary | octal | decimal | hex | other =>
      simp [details, contents, unit, PrintFormat.newlines_name, Style.newlines_elements]
  | exit status value =>
    have label : newlines "Error " = 0 := rfl
    simp [details, contents, toString, label]
  | groups ids => exact sum_newlines_eq_zero (by simp [details, group])
  | ipc object id =>
    have object : newlines (if style.raw then Numeral.decimal object.code.toNat
        else object.description?.getD (Numeral.decimal object.code.toNat)) = 0 := by
      split
      · simp
      · cases object <;> simp [IpcObject.description?] <;> rfl
    simp [details, contents, object]
  | _ => simp [details, contents, seconds, user, group, header, identity]

theorem newlines_render {options : RenderOptions} (dates : options.Plain)
    (hdelimiter : newlines options.delimiter = 0) (token : Token) :
    newlines (token.render options db) = (token.contents.map newlines).sum := by
  have first :
      newlines (if options.raw then Numeral.decimal token.tag.toNat else token.name) = 0 := by
    split
    · simp
    · exact token.newlines_name
  rw [render, newlines_intercalate hdelimiter, fields, List.map_cons, List.sum_cons, first,
    newlines_details h dates, Nat.zero_add]

end

end Token

end AuditTrail

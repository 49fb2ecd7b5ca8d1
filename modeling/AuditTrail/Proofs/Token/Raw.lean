import AuditTrail.Proofs.Address
import AuditTrail.Proofs.Token.Fields

/-! Tokens printed raw. The fields of a token tell it apart from all others, and since only the last
of them may have commas in it, so does the printed line. -/

namespace AuditTrail

open Numeral

/-- The tokens of which a raw line shows everything: a trailer hides its magic number, the texts of
exec tokens may have commas, and characters show no more than the low bytes of numbers. Codes go by
their own names, and a token of no known kind has a tag that none of them has. -/
def Token.Shown : Token → Prop
  | trailer .. | execArgs _ | execEnv _ => False
  | arbitrary format _ => format.normalized = format ∧ format ≠ .string
  | ipc object _ => object.normalized = object
  | unknown tag _ => Kind.ofTag? tag = none
  | _ => True

theorem ElementUnit.name_inj {unit unit' : ElementUnit} (h : unit.name = unit'.name) :
    unit = unit' := by
  cases unit <;> cases unit' <;> simp_all [ElementUnit.name]

theorem Elements.widened_inj {values values' : Elements} (unit : values.unit = values'.unit)
    (h : values.widened = values'.widened) : values = values' := by
  cases values <;> cases values' <;> cases unit
  · have inj : Function.Injective UInt8.toUInt32 := fun v w same => by
      simpa [← UInt32.toNat_inj, UInt8.toNat_inj] using same
    exact congrArg _ (List.map_injective_iff.2 inj h)
  · have inj : Function.Injective UInt16.toUInt32 := fun v w same => by
      simpa [← UInt32.toNat_inj, UInt16.toNat_inj] using same
    exact congrArg _ (List.map_injective_iff.2 inj h)
  · exact congrArg _ h

namespace Style

@[simp] theorem memory_inj {data data' : List UInt8} :
    memory data = memory data' ↔ data = data' := by
  refine ⟨fun h => ?_, congrArg _⟩
  cases data with
  | nil =>
    cases data' with
    | nil => rfl
    | cons => simp [memory, ← String.toList_inj] at h
  | cons =>
    cases data' with
    | nil => simp [memory, ← String.toList_inj] at h
    | cons => exact join_hexByte_inj ((String.append_right_inj _).1 h)

theorem not_mem_memory {c : Char} (h : NoDigit c) (other : c ≠ 'x') (data : List UInt8) :
    c ∉ (memory data).toList := by
  have zero : c ≠ '0' := (h 0).symm
  rw [memory]
  split
  · simp
  · simp [zero, other, String.toList_join, not_mem_hexByte h]

theorem spaced_inj {base : Nat} (few : 1 < base) (small : base ≤ 16) {values values' : List UInt32}
    (h : String.join (values.map fun v => " " ++ print base v.toNat) =
      String.join (values'.map fun v => " " ++ print base v.toNat)) : values = values' := by
  have joined (values : List UInt32) :
      String.join (values.map fun v => " " ++ print base v.toNat) =
        " ".intercalate ("" :: values.map fun v => print base v.toNat) := by
    rw [Text.intercalate_cons, List.map_map, String.empty_append]
    rfl
  have apart (values : List UInt32) :
      ∀ part ∈ "" :: values.map fun v => print base v.toNat, ' ' ∉ part.toList :=
    List.forall_mem_cons.2
      ⟨by simp, List.forall_mem_map.2 fun v _ => not_mem_print few (by decide) _⟩
  rw [joined, joined] at h
  have parts := Text.intercalate_inj (by simp) (by simp) (apart values) (apart values') h
  refine List.map_injective_iff.2 (fun v w same => ?_) (List.cons.inj parts).2
  exact UInt32.toNat_inj.1 ((print_inj few small).1 same)

theorem elements_inj {format : PrintFormat} (h : format ≠ .string) {values values' : Elements}
    (unit : values.unit = values'.unit)
    (same : elements format values = elements format values') : values = values' := by
  refine Elements.widened_inj unit ?_
  cases format with
  | string => exact absurd rfl h
  | _ => exact spaced_inj (by decide) (by decide) same

end Style

namespace Token

theorem format_inj {format format' : PrintFormat}
    (h : (match format with
        | .other code => decimal code.toNat
        | named => named.name) =
      match format' with
        | .other code => decimal code.toNat
        | named => named.name) : format = format' := by
  cases format with
  | other code =>
    cases format' with
    | other code' => simpa [UInt8.toNat_inj] using h
    | _ => exact absurd h (decimal_ne_of_letter (by decide) _)
  | _ =>
    cases format' with
    | other code' => exact absurd h.symm (decimal_ne_of_letter (by decide) _)
    | _ => simp_all [PrintFormat.name]

theorem Shown.known_or_unknown {token : Token} (h : token.Shown) :
    (∃ kind values, Kind.ofTag? token.tag = some kind ∧ token = (Body.known kind values).token) ∨
      ∃ data, Kind.ofTag? token.tag = none ∧ token = unknown token.tag data := by
  have whole : token.body.token = token := by
    rw [token_body]
    cases token with
    | arbitrary format values => exact congrArg (arbitrary · values) h.1
    | ipc object id => exact congrArg (ipc · id) h
    | _ => rfl
  cases body : token.body with
  | known kind values =>
    exact .inl ⟨kind, values, by rw [tag, body, Body.tag, Kind.ofTag?_tag], by rw [← body, whole]⟩
  | unknown tag data =>
    rw [body] at whole
    subst whole
    exact .inr ⟨data, h, rfl⟩

theorem length_details_known {style : Style} {db : Database} {kind : Kind} (some : kind ≠ .groups)
    {values values' : kind.layout.Values} (shown : (Body.known kind values).token.Shown) :
    ((Body.known kind values).token.details style db).length =
      ((Body.known kind values').token.details style db).length := by
  cases kind with
  | trailer | execArgs | execEnv => exact shown.elim
  | groups => exact absurd rfl some
  | _ =>
    obtain ⟨a, b, c, d, e, f, g, h, i, j, k, l⟩ := values
    obtain ⟨a', b', c', d', e', f', g', h', i', j', k', l'⟩ := values'
    simp only [Body.token, details, Style.header, Style.identity, List.length_append,
      List.length_cons, List.length_nil]

section

variable {style : Style} (raw : style.raw = true) {db : Database}
include raw

theorem values_inj {kind : Kind} {values values' : kind.layout.Values}
    (shown : (Body.known kind values).token.Shown)
    (same : (Body.known kind values).token.details style db =
      (Body.known kind values').token.details style db) : values = values' := by
  cases kind with
  | trailer | execArgs | execEnv => exact shown.elim
  | arbitrary =>
    obtain ⟨format, elements, ⟨⟩⟩ := values
    obtain ⟨format', elements', ⟨⟩⟩ := values'
    obtain ⟨-, noText⟩ := shown
    simp only [Body.token, details, List.cons.injEq, and_true] at same
    obtain ⟨formats, units, -, numbers⟩ := same
    have codes : PrintFormat.ofCode format = PrintFormat.ofCode format' := format_inj formats
    rw [← codes] at numbers
    rw [Style.elements_inj noText (ElementUnit.name_inj units) numbers,
      ← PrintFormat.code_ofCode format, codes, PrintFormat.code_ofCode]
  | groups =>
    obtain ⟨ids, ⟨⟩⟩ := values
    obtain ⟨ids', ⟨⟩⟩ := values'
    have inj : Function.Injective (style.group db) := fun id id' same => by
      simpa [raw] using same
    exact congrArg (·, ()) (List.map_injective_iff.2 inj same)
  -- Elsewhere each value is printed in a field of its own, which tells it.
  | _ =>
    obtain ⟨a, b, c, d, e, f, g, h, i, j, k, l⟩ := values
    obtain ⟨a', b', c', d', e', f', g', h', i', j', k', l'⟩ := values'
    simp [Body.token, details, Style.header, Style.identity, raw, toString, UInt8.toNat_inj,
      UInt16.toNat_inj, UInt32.toNat_inj, UInt64.toNat_inj] at same
    grind

theorem not_mem_groups (ids : List UInt32) :
    ∀ field ∈ (groups ids).details style db, ',' ∉ field.toList := by
  rw [details, Style.group_raw raw]
  exact List.forall_mem_map.2 fun id _ => not_mem_signed32 (by decide) (by decide) id

/-- No field but the last one can have a comma. -/
theorem not_mem_dropLast_details {token : Token} (shown : token.Shown) :
    ∀ field ∈ (token.details style db).dropLast, ',' ∉ field.toList := by
  have comma : NoDigit ',' := by decide
  have decimal (n : Nat) := not_mem_print (by decide : 1 < 10) comma n
  have octal (n : Nat) := not_mem_print (by decide : 1 < 8) comma n
  have signed (w : UInt32) := not_mem_signed32 comma (by decide) w
  have marked (n : Nat) := not_mem_marked comma (by decide) n
  have memory (data : List UInt8) := Style.not_mem_memory comma (by decide) data
  have v4 (ip : IPv4) := ip.not_mem_text comma (by decide)
  have address (a : Address) := a.not_mem_text comma (by decide) (by decide)
  cases token with
  | trailer | execArgs | execEnv => exact shown.elim
  | groups ids => exact fun field member =>
      not_mem_groups raw ids field (List.dropLast_subset _ member)
  | arbitrary format values =>
    have name : ',' ∉ values.unit.name.toList := by cases values.unit <;> decide
    cases format <;> simp [details, PrintFormat.name, name, decimal]
  | _ =>
    simp [details, Style.header, Style.identity, raw, toString, decimal, octal, signed, marked,
      memory, v4, address]

theorem details_of_joined {token token' : Token}
    (joined : ",".intercalate (token.fields style db) =
      ",".intercalate (token'.fields style db)) :
    token.tag = token'.tag ∧
      ",".intercalate (token.details style db) = ",".intercalate (token'.details style db) ∧
      (token.details style db = [] ↔ token'.details style db = []) := by
  rw [fields, fields, if_pos raw, if_pos raw] at joined
  have number := not_mem_print (by decide : 1 < 10) (by decide : NoDigit ',')
  obtain ⟨first, others⟩ := Text.cons_of_intercalate (number _) (number _) joined
  exact ⟨by simpa [UInt8.toNat_inj] using first, others⟩

theorem values_inj_of_joined {kind : Kind} {values values' : kind.layout.Values}
    (shown : (Body.known kind values).token.Shown)
    (shown' : (Body.known kind values').token.Shown)
    (joined : ",".intercalate ((Body.known kind values).token.fields style db) =
      ",".intercalate ((Body.known kind values').token.fields style db)) : values = values' := by
  obtain ⟨-, joined, none⟩ := details_of_joined raw joined
  have same : (Body.known kind values).token.details style db =
      (Body.known kind values').token.details style db := by
    by_cases some : kind = .groups
    · subst some
      obtain ⟨ids, ⟨⟩⟩ := values
      obtain ⟨ids', ⟨⟩⟩ := values'
      by_cases empty : (Token.groups ids).details style db = []
      · exact empty.trans (none.1 empty).symm
      · exact Text.intercalate_inj empty (mt none.2 empty) (not_mem_groups raw ids)
          (not_mem_groups raw ids') joined
    · exact Text.intercalate_inj_of_length (length_details_known some shown)
        (not_mem_dropLast_details raw shown) (not_mem_dropLast_details raw shown') joined
  exact values_inj raw shown same

end

/-- Tokens that are shown raw are told by their lines: no two of them are printed alike, whatever
stands in the last field of either, and whichever databases there are. -/
theorem render_raw_inj (shortNames oneLine : Bool) (date : UInt32 → Option String)
    (db db' : Database) {token token' : Token} (shown : token.Shown) (shown' : token'.Shown)
    (same : token.render { raw := true, shortNames, date, oneLine } db =
      token'.render { raw := true, shortNames, date, oneLine } db') : token = token' := by
  let style : Style := { raw := true, shortNames, date }
  have joined : ",".intercalate (token.fields style db) =
      ",".intercalate (token'.fields style db) := by
    calc
      ",".intercalate (token.fields style db) = ",".intercalate (token'.fields style db') := same
      _ = ",".intercalate (token'.fields style db) := congrArg _ (fields_raw rfl rfl)
  obtain ⟨tags, data, -⟩ := details_of_joined rfl joined
  rcases shown.known_or_unknown with ⟨kind, values, known, rfl⟩ | ⟨bytes, none, here⟩
  · rcases shown'.known_or_unknown with ⟨kind', values', known', rfl⟩ | ⟨bytes', none', -⟩
    · rw [tags, known', Option.some_inj] at known
      subst known
      rw [values_inj_of_joined rfl shown shown' joined]
    · rw [tags, none'] at known
      cases known
  · rcases shown'.known_or_unknown with ⟨kind', values', known', -⟩ | ⟨bytes', -, here'⟩
    · rw [← tags, none] at known'
      cases known'
    · rw [here, here', details, details, String.intercalate_singleton,
        String.intercalate_singleton] at data
      rw [here, here', tags, Style.memory_inj.1 data]

theorem render_raw_inj_ipc :
    let coded := ipc (.other 2) 7
    let named := ipc .semaphore 7
    coded.render { raw := true } {} = "34,2,7" ∧ named.render { raw := true } {} = "34,2,7" ∧
      coded ≠ named ∧ coded.normalized.Shown ∧ named.Shown ∧ coded.normalized = named := by
  intro coded named
  have shown : coded.normalized.Shown := rfl
  have shown' : named.Shown := rfl
  have same : coded.normalized.render { raw := true } {} = named.render { raw := true } {} := by
    cbv
  exact ⟨by cbv, by cbv, by decide, shown, shown',
    render_raw_inj false false _ {} {} shown shown' same⟩

end Token

end AuditTrail

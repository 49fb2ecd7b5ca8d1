import AuditTrail.Proofs.Token.Lines
import AuditTrail.Proofs.Trail.Dump

namespace AuditTrail

open Text

def Record.contents (r : Record) : List String := r.tokens.flatMap (·.contents)

def Trail.records (items : List (Except TrailError Record)) : List Record :=
  items.filterMap (·.toOption)

theorem Trail.length_records (items : List (Except TrailError Record)) :
    (records items).length = (TrailSummary.ofItems items).records := by
  have kept (item : Except TrailError Record) : item.toOption.isSome = item.isOk := by
    cases item <;> rfl
  simp only [records, List.length_filterMap_eq_countP, kept, TrailSummary.ofItems]

section

variable {options : RenderOptions} {db : Database} (dates : options.Plain) (hdb : db.Plain)
  (hdelimiter : newlines options.delimiter = 0)
include dates hdb hdelimiter

theorem Record.newlines_text (r : Record) :
    newlines (r.text options db) =
      (if options.oneLine then 1 else r.tokens.length) + (r.contents.map newlines).sum := by
  have lines : ((r.tokens.map (·.render options db)).map newlines).sum =
      (r.contents.map newlines).sum := by
    rw [contents, sum_newlines_flatMap, List.map_map]
    simp only [Function.comp_def, Token.newlines_render hdb dates hdelimiter]
  rw [text]
  split
  · rw [newlines_append, newlines_intercalate hdelimiter, lines]
    exact Nat.add_comm _ 1
  · rw [newlines_lines, lines, List.length_map]

theorem Trail.newlines_items (items : List (Except TrailError Record)) :
    newlines (String.join (items.map (itemText options db))) =
      ((records items).map fun r => if options.oneLine then 1 else r.tokens.length).sum +
        (TrailSummary.ofItems items).corrupt +
          (((records items).flatMap Record.contents).map newlines).sum := by
  induction items with
  | nil => rfl
  | cons item items ih =>
    rw [List.map_cons, String.join_cons, newlines_append, ih, ← List.singleton_append,
      TrailSummary.ofItems_append]
    cases item with
    | ok r =>
      have text := r.newlines_text dates hdb hdelimiter
      have more : records ([.ok r] ++ items) = r :: records items := rfl
      have intact : (TrailSummary.ofItems [.ok r]).corrupt = 0 := rfl
      rw [more, List.map_cons, List.sum_cons, List.flatMap_cons, List.map_append, List.sum_append,
        TrailSummary.corrupt_add, intact, itemText, text]
      omega
    | error e =>
      have line : newlines corruptLine = 1 := rfl
      have same : records ([.error e] ++ items) = records items := rfl
      have corrupt : (TrailSummary.ofItems [.error e]).corrupt = 1 := rfl
      rw [same, TrailSummary.corrupt_add, corrupt, itemText, line]
      omega

end

namespace Trail

/-- Printing gives a newline for each token, or for each record if they are to take one line each,
and for each corrupted record, and beyond that only the newlines in the texts that the tokens
hold, which are printed as they are. So a token takes more than its own line if, and only if, one
of its texts has a newline. -/
theorem newlines_dump (options : RenderOptions) (dates : options.Plain) (db : Database)
    (hdb : db.Plain) (hdelimiter : newlines options.delimiter = 0) (s : Stream) (hs : s.Faultless)
    (out : Output) (unlimited : out.limit = none) (flushes : out.flushError = none) :
    let items := (TrailReader.mk s false).run.1
    let summary := TrailSummary.ofItems items
    let lines := if options.oneLine then summary.records
      else ((records items).map (·.tokens.length)).sum
    ∃ text, dump options db s out = (.ok summary, out.append (Text.bytes text)) ∧
      newlines text = lines + summary.corrupt +
        (((records items).flatMap Record.contents).map newlines).sum ∧
      (newlines text = lines + summary.corrupt ↔
        ∀ r ∈ records items, ∀ token ∈ r.tokens, ∀ content ∈ token.contents,
          '\n' ∉ content.toList) := by
  intro items summary lines
  have ends : ((records items).map fun r => if options.oneLine then 1 else r.tokens.length).sum =
      lines := by
    by_cases h : options.oneLine = true
    · simp only [lines, summary, h, if_true, ← length_records, List.map_const',
        List.sum_replicate_nat, Nat.mul_one]
    · simp only [lines, h, Bool.false_eq_true, if_false]
  have total := newlines_items dates hdb hdelimiter items
  rw [ends] at total
  refine ⟨_, ?_, total, ?_⟩
  · rw [dump_eq options db hs.goOn unlimited flushes, printed_eq]
  · rw [total, Nat.add_eq_left, List.sum_eq_zero_iff_forall_eq_nat]
    simp only [List.forall_mem_map, List.forall_mem_flatMap, Record.contents,
      newlines_eq_zero_iff]

theorem newlines_dump_text :
    let frame : List UInt8 :=
      [0x14, 0, 0, 0, 32, 11, 0, 23, 0, 0, 0, 0, 0, 0, 0, 0, 0, 12,
        0x28, 0, 4, 0x61, 0x0A, 0x62, 0, 0x13, 0xB1, 5, 0, 0, 0, 32]
    let s : Stream := { rest := frame ++ [0x7F], chunk := some 1 }
    let db : Database := { events := [⟨23, "AUE_EXECVE", "execve(2)", 0x1002⟩] }
    Style.Plain {} ∧ db.Plain ∧ newlines "; " = 0 ∧ s.Faultless ∧
      ∃ text, dump { delimiter := "; " } db s {} = (.ok { records := 1 }, { taken := bytes text }) ∧
        newlines text = 3 + 0 + 1 := by
  intro frame s db
  have dates : Style.Plain {} := by
    rintro seconds _ ⟨⟩
    exact Calendar.newlines_text seconds.toNat
  have plain : db.Plain := ⟨by decide, by decide, nofun, nofun⟩
  have hs : s.Faultless := ⟨rfl, by decide⟩
  have run := TrailReader.run_framed hs [⟨[], frame, by decide, by decide⟩]
    (by decide : IsJunk [0x7F]) rfl
  have item : TrailReader.itemOf frame =
      .ok ⟨[.header { size := 32, event := 23, milliseconds := 12 }, .text "a\nb",
        .trailer 0xB105 32], 32⟩ := by
    decide +kernel
  rw [List.map_singleton, item] at run
  obtain ⟨text, dumped, total, -⟩ :=
    newlines_dump { delimiter := "; " } dates db plain rfl s hs {} rfl rfl
  rw [run] at dumped total
  exact ⟨dates, plain, rfl, hs, text, dumped, total⟩

/-- A newline in a text makes one line more than there are tokens. -/
theorem newlines_dump_ne :
    let frame : List UInt8 :=
      [0x14, 0, 0, 0, 32, 11, 0, 1, 0, 0, 0, 0, 0, 0, 0, 0, 0, 0,
        0x28, 0, 4, 0x61, 0x0A, 0x62, 0, 0x13, 0xB1, 5, 0, 0, 0, 32]
    let s : Stream := { rest := frame }
    let options : RenderOptions := { raw := true }
    let text := "20,32,11,1,0,0,0\n40,a\nb\n19,32\n"
    let summary : TrailSummary := { records := 1 }
    let tokens := (records (TrailReader.mk s false).run.1).flatMap (·.tokens)
    s.Faultless ∧ Database.Plain {} ∧ newlines options.delimiter = 0 ∧
      dump options {} s {} = (.ok summary, { taken := bytes text }) ∧
      newlines text ≠ tokens.length + summary.corrupt := by
  intro frame s options text summary tokens
  have hs : s.Faultless := ⟨rfl, nofun⟩
  have plain : Database.Plain {} := ⟨nofun, nofun, nofun, nofun⟩
  have junk : IsJunk [] := by decide
  have run := TrailReader.run_framed hs [⟨[], frame, by decide, by decide⟩] junk rfl
  have dumped := dump_framed options {} (rfl : ({} : Output).limit = none) rfl hs
    [⟨[], frame, by decide, by decide⟩] junk rfl
  have lines : newlines text = 4 := by decide +kernel
  have three : tokens.length = 3 := by
    simp only [tokens, run]
    decide +kernel
  refine ⟨hs, plain, (rfl : newlines "," = 0), ?_, ?_⟩
  · rw [dumped]
    decide +kernel
  · rw [lines, three]
    decide

end Trail

end AuditTrail

import AuditTrail.Proofs.Output
import AuditTrail.Proofs.Text.Utf8
import AuditTrail.Trail.Dump

namespace AuditTrail

namespace TrailSummary

def count (summary : TrailSummary) : Except TrailError Record → TrailSummary
  | .ok _ => { summary with records := summary.records + 1 }
  | .error _ => { summary with corrupt := summary.corrupt + 1 }

attribute [ext] TrailSummary

instance : Add TrailSummary where
  add a b := ⟨a.records + b.records, a.corrupt + b.corrupt⟩

theorem corrupt_add (a b : TrailSummary) : (a + b).corrupt = a.corrupt + b.corrupt := rfl

theorem zero_add (a : TrailSummary) : {} + a = a :=
  TrailSummary.ext (Nat.zero_add _) (Nat.zero_add _)

theorem add_assoc (a b c : TrailSummary) : a + b + c = a + (b + c) :=
  TrailSummary.ext (Nat.add_assoc _ _ _) (Nat.add_assoc _ _ _)

def ofItems (items : List (Except TrailError Record)) : TrailSummary where
  records := items.countP (·.isOk)
  corrupt := items.countP (!·.isOk)

theorem ofItems_append (front back : List (Except TrailError Record)) :
    ofItems (front ++ back) = ofItems front + ofItems back := by
  simp only [ofItems, List.countP_append]
  rfl

theorem foldl_count (items : List (Except TrailError Record)) (summary : TrailSummary) :
    items.foldl count summary = summary + ofItems items := by
  induction items generalizing summary with
  | nil => rfl
  | cons item items ih =>
    have first : summary.count item = summary + ofItems [item] := by cases item <;> rfl
    rw [List.foldl_cons, ih, first, add_assoc, ← ofItems_append, List.singleton_append]

end TrailSummary

namespace Trail

variable (options : RenderOptions) (db : Database)

def itemText : Except TrailError Record → String
  | .ok record => record.text options db
  | .error _ => corruptLine

def printed (items : List (Except TrailError Record)) : List UInt8 :=
  items.flatMap fun item => Text.bytes (itemText options db item)

def GoesOn (item : Except TrailError Record) : Prop := ∀ e, item = .error e → e.ends = false

theorem printed_eq (items : List (Except TrailError Record)) :
    printed options db items = Text.bytes (String.join (items.map (itemText options db))) := by
  rw [Text.bytes_join, List.flatMap_map]
  rfl

theorem print_cons {item : Except TrailError Record} (goesOn : GoesOn item)
    (items : List (Except TrailError Record)) (summary : TrailSummary) (out : Output) :
    print options db (item :: items) summary out =
      match out.write (Text.bytes (itemText options db item)) with
      | (.ok (), out) => print options db items (summary.count item) out
      | (.error e, out) => (.error e, out) := by
  cases item with
  | ok record => rfl
  | error e =>
    rw [print, goesOn e rfl]
    rfl

theorem print_append {items : List (Except TrailError Record)} (goOn : ∀ item ∈ items, GoesOn item)
    (more : List (Except TrailError Record)) (summary : TrailSummary) (out : Output) :
    print options db (items ++ more) summary out =
      match out.write (printed options db items) with
      | (.ok (), out) => print options db more (items.foldl .count summary) out
      | (.error e, out) => (.error e, out) := by
  induction items generalizing out summary with
  | nil =>
    rw [printed, List.flatMap_nil, Output.write_nil]
    rfl
  | cons item items ih =>
    rw [List.forall_mem_cons] at goOn
    rw [List.cons_append, print_cons options db goOn.1, printed, List.flatMap_cons,
      Output.write_append]
    rcases out.write (Text.bytes (itemText options db item)) with ⟨result, out⟩
    cases result with
    | ok => exact ih goOn.2 _ _
    | error e => rfl

theorem print_append_of_admits {items : List (Except TrailError Record)}
    (goOn : ∀ item ∈ items, GoesOn item) {out : Output}
    (room : out.Admits (printed options db items).length)
    (more : List (Except TrailError Record)) (summary : TrailSummary) :
    print options db (items ++ more) summary out =
      print options db more (items.foldl .count summary)
        (out.append (printed options db items)) := by
  rw [print_append options db goOn, Output.write_of_admits room]

theorem dump_of_goOn {s : Stream}
    (goOn : ∀ item ∈ (TrailReader.mk s false).run.1, GoesOn item) {out : Output}
    (room : out.Admits (printed options db (TrailReader.mk s false).run.1).length) :
    (dump options db s out).2 =
      out.append (printed options db (TrailReader.mk s false).run.1) := by
  have printed := print_append_of_admits options db goOn room [] {}
  rw [List.append_nil] at printed
  rw [dump, printed, print]
  split <;> rfl

theorem dump_eq {s : Stream} (goOn : ∀ item ∈ (TrailReader.mk s false).run.1, GoesOn item)
    {out : Output} (unlimited : out.limit = none) (flushes : out.flushError = none) :
    dump options db s out =
      (.ok (.ofItems (TrailReader.mk s false).run.1),
        out.append (printed options db (TrailReader.mk s false).run.1)) := by
  have printed :=
    print_append_of_admits options db goOn (Output.admits_of_unlimited unlimited _) [] {}
  rw [List.append_nil, TrailSummary.foldl_count] at printed
  rw [dump, printed, print]
  simp only [Output.flush, Output.append, flushes]
  rw [TrailSummary.zero_add]

theorem dump_of_ends {s : Stream} {earlier : List (Except TrailError Record)} {e : TrailError}
    {last : TrailReader} (run : (TrailReader.mk s false).run = (earlier ++ [.error e], last))
    (goOn : ∀ item ∈ earlier, GoesOn item) (ends : e.ends = true) {out : Output}
    (room : out.Admits (printed options db earlier).length) :
    dump options db s out =
      (.error ⟨.other, e.toError.text⟩, out.append (printed options db earlier)) := by
  rw [dump, run, print_append_of_admits options db goOn room, print, ends]
  rfl

end Trail

end AuditTrail

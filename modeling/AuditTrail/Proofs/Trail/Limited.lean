import AuditTrail.Proofs.Trail.Print

namespace AuditTrail.Trail

theorem goOn_or_ends (items : List (Except TrailError Record)) :
    (∀ item ∈ items, GoesOn item) ∨
      ∃ earlier e later, items = earlier ++ .error e :: later ∧ (∀ item ∈ earlier, GoesOn item) ∧
        e.ends = true := by
  induction items with
  | nil => exact .inl nofun
  | cons item items ih =>
    by_cases fails : ∃ e, item = .error e ∧ e.ends = true
    · obtain ⟨e, rfl, ends⟩ := fails
      exact .inr ⟨[], e, items, rfl, nofun, ends⟩
    · have goesOn : GoesOn item := fun e same =>
        Bool.eq_false_iff.2 fun ends => fails ⟨e, same, ends⟩
      obtain all | ⟨earlier, e, later, rfl, goOn, ends⟩ := ih
      · exact .inl (List.forall_mem_cons.2 ⟨goesOn, all⟩)
      · exact .inr ⟨item :: earlier, e, later, rfl, List.forall_mem_cons.2 ⟨goesOn, goOn⟩, ends⟩

def flushed (flushError : Option IoError) (result : Except IoError TrailSummary) :
    Except IoError TrailSummary :=
  match result, flushError with
  | .ok _, some e => .error e
  | result, _ => result

section

variable (options : RenderOptions) (db : Database)

/-- A trail is printed like a single text, which is the same for every output. -/
theorem exists_dump (s : Stream) :
    ∃ text result, ∀ out : Output, dump options db s out =
      match out.write (Text.bytes text) with
      | (.ok (), out) => (flushed out.flushError result, out)
      | (.error e, out) => (.error e, out) := by
  generalize given : (TrailReader.mk s false).run.1 = items
  obtain goOn | ⟨earlier, e, later, rfl, goOn, ends⟩ := goOn_or_ends items
  · refine ⟨String.join (items.map (itemText options db)), .ok (items.foldl .count {}),
      fun out => ?_⟩
    have parts := print_append options db goOn [] {} out
    rw [List.append_nil] at parts
    rw [dump, given, parts, printed_eq]
    rcases out.write _ with ⟨_ | _, out⟩
    · rfl
    · simp only [print, Output.flush, flushed]
      cases out.flushError <;> rfl
  · refine ⟨String.join (earlier.map (itemText options db)), .error ⟨.other, e.toError.text⟩,
      fun out => ?_⟩
    rw [dump, given, print_append options db goOn, printed_eq]
    rcases out.write _ with ⟨_ | _, out⟩
    · rfl
    · dsimp only
      rw [print, ends]
      rfl

end

/-- What is printed for a trail on an output of limited length is the first bytes of what is printed
for it on an output that takes everything. If that is more than fits, the failure of the output is
reported and nothing else; if it fits, the result is the same, unless it is a summary and the output
cannot be flushed. -/
theorem dump_limited (options : RenderOptions) (db : Database) (s : Stream) :
    ∃ text result, dump options db s {} = (result, { taken := Text.bytes text }) ∧
      ∀ (limit : Nat) (failures : Output.Failures),
        let cut := dump options db s { failures with limit := some limit }
        cut.2.taken = (Text.bytes text).take limit ∧
          (limit < (Text.bytes text).length →
            cut.1 = .error (failures.whenFull.getD ⟨.writeZero, "failed to write whole buffer"⟩)) ∧
          ((Text.bytes text).length ≤ limit →
            cut.1 = match result, failures.flushError with
              | .ok _, some e => .error e
              | result, _ => result) := by
  obtain ⟨text, result, printed⟩ := exists_dump options db s
  refine ⟨text, result, ?_, fun limit failures => ?_⟩
  · rw [printed, Output.write_of_unlimited rfl]
    cases result <;> rfl
  · let out : Output := { failures with limit := some limit }
    have written : out.write (Text.bytes text) =
        (if (Text.bytes text).length ≤ limit then .ok () else .error out.fullError,
          out.append ((Text.bytes text).take limit)) :=
      Output.write_of_limit rfl _
    rw [printed out, written]
    by_cases fits : (Text.bytes text).length ≤ limit
    · rw [if_pos fits]
      exact ⟨rfl, fun beyond => absurd fits (Nat.not_le.2 beyond), fun _ => rfl⟩
    · rw [if_neg fits]
      exact ⟨rfl, fun _ => rfl, fun within => absurd within fits⟩

end AuditTrail.Trail

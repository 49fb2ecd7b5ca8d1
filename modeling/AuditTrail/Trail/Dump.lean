import AuditTrail.Output
import AuditTrail.Token.Render
import AuditTrail.Trail.Reader

namespace AuditTrail

structure TrailSummary where
  records : Nat := 0
  corrupt : Nat := 0
  deriving DecidableEq

def TrailSummary.clean (s : TrailSummary) : Bool := s.corrupt = 0

def Record.text (options : RenderOptions) (db : Database) (r : Record) : String :=
  let lines := r.tokens.map (·.render options db)
  if options.oneLine then options.delimiter.intercalate lines ++ "\n"
  else String.join (lines.map (· ++ "\n"))

namespace Trail

def corruptLine : String := "Corrupted audit trail\n"

/-- Prints what a trail gave. Printing stops at the first failed transfer, on either side; at the
end of the trail the output is flushed. -/
def print (options : RenderOptions) (db : Database) :
    List (Except TrailError Record) → TrailSummary → Output → Except IoError TrailSummary × Output
  | [], summary, out =>
    match out.flush with
    | .ok () => (.ok summary, out)
    | .error e => (.error e, out)
  | .ok record :: items, summary, out =>
    match out.write (Text.bytes (record.text options db)) with
    | (.ok (), out) => print options db items { summary with records := summary.records + 1 } out
    | (.error e, out) => (.error e, out)
  | .error e :: items, summary, out =>
    if e.ends then (.error ⟨.other, e.toError.text⟩, out)
    else
      match out.write (Text.bytes corruptLine) with
      | (.ok (), out) => print options db items { summary with corrupt := summary.corrupt + 1 } out
      | (.error e, out) => (.error e, out)

def dump (options : RenderOptions) (db : Database) (stream : Stream) (out : Output) :
    Except IoError TrailSummary × Output :=
  print options db (TrailReader.mk stream false).run.1 {} out

end Trail

end AuditTrail

import AuditTrail.Calendar
import AuditTrail.Database.Basic
import AuditTrail.ErrorNumber
import AuditTrail.Token.Body

namespace AuditTrail

/-- How fields are printed: `raw` prints every number as it is, without names and dates;
`shortNames` prints the names of events in place of their descriptions; `date` prints a moment,
given in seconds since 1970, where that has a date. -/
structure Style where
  raw : Bool := false
  shortNames : Bool := false
  date : UInt32 → Option String := fun s => some (Calendar.text s.toNat)

structure RenderOptions extends Style where
  delimiter : String := ","
  oneLine : Bool := false

namespace Style

open Numeral

variable (style : Style) (db : Database)

def user (id : UInt32) : String :=
  if style.raw then signed32 id else (db.user? id).getD (signed32 id)

def group (id : UInt32) : String :=
  if style.raw then signed32 id else (db.group? id).getD (signed32 id)

def event (number : UInt16) : String :=
  let known? := if style.raw then none else db.event? number
  match known? with
  | some e => if style.shortNames then e.name else e.description
  | none => decimal number.toNat

def seconds (s : UInt32) : String :=
  if style.raw then decimal s.toNat else (style.date s).getD (decimal s.toNat)

def milliseconds (ms : UInt32) : String :=
  if style.raw then decimal ms.toNat else s!" + {decimal ms.toNat} msec"

def status (number : UInt8) : String :=
  if style.raw then decimal number.toNat
  else if number = 0 then "success"
  else
    match ErrorNumber.find? number with
    | some e => "failure : " ++ e.description
    | none => s!"failure : Unknown error: {decimal number.toNat}"

def memory (data : List UInt8) : String :=
  if data.isEmpty then "" else "0x" ++ String.join (data.map hexByte)

/-- The numbers of an arbitrary-data token: each after a space in the base that the format asks
for, or as one character for its low byte. -/
def elements (format : PrintFormat) (values : Elements) : String :=
  let spaced (base : Nat) := String.join (values.widened.map fun v => " " ++ print base v.toNat)
  match format with
  | .binary => spaced 2
  | .octal => spaced 8
  | .decimal => spaced 10
  | .hex | .other _ => spaced 16
  | .string => String.ofList (values.widened.map fun v => Char.ofNat v.toUInt8.toNat)

def header (h : Header) : List String :=
  [decimal h.size.toNat, decimal h.version.toNat, style.event db h.event,
    decimal h.modifier.toNat]

def identity (who : Identity) : List String :=
  [style.user db who.auditId, style.user db who.euid, style.group db who.egid,
    style.user db who.ruid, style.group db who.rgid, decimal who.pid.toNat,
    decimal who.session.toNat, decimal who.port.toNat]

end Style

namespace Token

open Numeral

def details (style : Style) (db : Database) : Token → List String
  | header h => style.header db h ++ [style.seconds h.seconds, style.milliseconds h.milliseconds]
  | headerEx h host =>
    style.header db h ++
      [host.text, style.seconds h.seconds, style.milliseconds h.milliseconds]
  | trailer _ size => [decimal size.toNat]
  | arg32 index value label => [decimal index.toNat, marked value.toNat, label]
  | arg64 index value label => [decimal index.toNat, marked value.toNat, label]
  | arbitrary format values =>
    [match format with
      | .other code => decimal code.toNat
      | named => named.name,
      values.unit.name, decimal values.length, Style.elements format values]
  | attributes a =>
    [print 8 a.mode.toNat, style.user db a.uid, style.group db a.gid,
      decimal a.filesystem.toNat, decimal a.node.toNat, decimal a.device.toNat]
  | exit status value => [s!"Error {decimal status.toNat}", decimal value.toNat]
  | execArgs args => args
  | execEnv settings => settings
  | file seconds milliseconds name =>
    [style.seconds seconds, style.milliseconds milliseconds, name]
  | groups ids => ids.map (style.group db)
  | inAddr host => [host.text]
  | inAddrEx host => [host.text]
  | ip p =>
    [Style.memory [p.version], Style.memory [p.service], decimal p.length.toNat,
      decimal p.id.toNat, decimal p.offset.toNat, Style.memory [p.lifetime],
      Style.memory [p.protocol], decimal p.checksum.toNat, p.source.text, p.destination.text]
  | ipc object id =>
    let code := decimal object.code.toNat
    [if style.raw then code else object.description?.getD code, decimal id.toNat]
  | ipcPerm p =>
    [style.user db p.uid, style.group db p.gid, style.user db p.creatorUid,
      style.group db p.creatorGid, print 8 p.mode.toNat, decimal p.sequence.toNat,
      decimal p.key.toNat]
  | port number => [marked number.toNat]
  | opaqueBytes data => [decimal data.length, Style.memory data]
  | path name => [name]
  | process who terminal => style.identity db who ++ [terminal.text]
  | processEx who terminal => style.identity db who ++ [terminal.text]
  | return32 status value => [style.status status, decimal value.toNat]
  | return64 status value => [style.status status, decimal value.toNat]
  | sequence number => [decimal number.toNat]
  | socket type here there =>
    [decimal type.toNat, decimal here.port.toNat, here.address.text, decimal there.port.toNat,
      there.address.text]
  | socketEx type here there =>
    [marked type.toNat, marked here.port.toNat, here.address.text, marked there.port.toNat,
      there.address.text]
  | socketInet family number host => [decimal family.toNat, decimal number.toNat, host.text]
  | socketInet6 family number host => [decimal family.toNat, decimal number.toNat, host.text]
  | socketUnix family name => [decimal family.toNat, name]
  | subject who terminal => style.identity db who ++ [terminal.text]
  | subjectEx who terminal => style.identity db who ++ [terminal.text]
  | text content => [content]
  | unknown _ data => [Style.memory data]

def fields (style : Style) (db : Database) (token : Token) : List String :=
  (if style.raw then decimal token.tag.toNat else token.name) :: token.details style db

def render (options : RenderOptions) (db : Database) (token : Token) : String :=
  options.delimiter.intercalate (token.fields options.toStyle db)

end Token

end AuditTrail

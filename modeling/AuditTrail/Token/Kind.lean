import AuditTrail.Layout.Basic
import AuditTrail.Token.Basic

namespace AuditTrail

inductive Kind
  | file
  | trailer
  | header
  | headerEx
  | arbitrary
  | ipc
  | path
  | subject
  | process
  | return32
  | text
  | opaqueBytes
  | inAddr
  | ip
  | port
  | arg32
  | socket
  | sequence
  | ipcPerm
  | groups
  | execArgs
  | execEnv
  | attributes
  | exit
  | arg64
  | return64
  | subjectEx
  | processEx
  | inAddrEx
  | socketEx
  | socketInet
  | socketInet6
  | socketUnix
  deriving DecidableEq

namespace Kind

def all : List Kind :=
  [file, trailer, header, headerEx, arbitrary, ipc, path, subject, process, return32, text,
    opaqueBytes, inAddr, ip, port, arg32, socket, sequence, ipcPerm, groups, execArgs, execEnv,
    attributes, exit, arg64, return64, subjectEx, processEx, inAddrEx, socketEx, socketInet,
    socketInet6, socketUnix]

def tag : Kind → UInt8
  | file => 0x11
  | trailer => 0x13
  | header => 0x14
  | headerEx => 0x15
  | arbitrary => 0x21
  | ipc => 0x22
  | path => 0x23
  | subject => 0x24
  | process => 0x26
  | return32 => 0x27
  | text => 0x28
  | opaqueBytes => 0x29
  | inAddr => 0x2A
  | ip => 0x2B
  | port => 0x2C
  | arg32 => 0x2D
  | socket => 0x2E
  | sequence => 0x2F
  | ipcPerm => 0x32
  | groups => 0x3B
  | execArgs => 0x3C
  | execEnv => 0x3D
  | attributes => 0x3E
  | exit => 0x52
  | arg64 => 0x71
  | return64 => 0x72
  | subjectEx => 0x7A
  | processEx => 0x7B
  | inAddrEx => 0x7E
  | socketEx => 0x7F
  | socketInet => 0x80
  | socketInet6 => 0x81
  | socketUnix => 0x82

def name : Kind → String
  | file => "file"
  | trailer => "trailer"
  | header => "header"
  | headerEx => "header_ex"
  | arbitrary => "arbitrary"
  | ipc => "IPC"
  | path => "path"
  | subject => "subject"
  | process => "process"
  | return32 | return64 => "return"
  | text => "text"
  | opaqueBytes => "opaque"
  | inAddr => "ip addr"
  | ip => "ip"
  | port => "ip port"
  | arg32 | arg64 => "argument"
  | socket | socketEx => "socket"
  | sequence => "sequence"
  | ipcPerm => "IPC perm"
  | groups => "group"
  | execArgs => "exec arg"
  | execEnv => "exec env"
  | attributes => "attribute"
  | exit => "exit"
  | subjectEx => "subject_ex"
  | processEx => "process_ex"
  | inAddrEx => "ip addr ex"
  | socketInet => "socket-inet"
  | socketInet6 => "socket-inet6"
  | socketUnix => "socket-unix"

def layout : Kind → Layout
  | file => [.word32, .word32, .text]
  | trailer => [.word16, .word32]
  | header => [.word32, .word8, .word16, .word16, .word32, .word32]
  | headerEx => [.word32, .word8, .word16, .word16, .address, .word32, .word32]
  | arbitrary => [.word8, .elements]
  | ipc => [.word8, .word32]
  | path | text => [.text]
  | subject | process =>
    [.word32, .word32, .word32, .word32, .word32, .word32, .word32, .word32, .ipv4]
  | subjectEx | processEx =>
    [.word32, .word32, .word32, .word32, .word32, .word32, .word32, .word32, .address]
  | return32 => [.word8, .word32]
  | return64 => [.word8, .word64]
  | opaqueBytes => [.data]
  | inAddr => [.ipv4]
  | inAddrEx => [.address]
  | ip =>
    [.word8, .word8, .word16, .word16, .word16, .word8, .word8, .word16, .ipv4, .ipv4]
  | port => [.word16]
  | arg32 => [.word8, .word32, .text]
  | arg64 => [.word8, .word64, .text]
  | socket => [.word16, .word16, .ipv4, .word16, .ipv4]
  | socketEx => [.word16, .word16, .address, .word16, .address]
  | sequence => [.word32]
  | ipcPerm => [.word32, .word32, .word32, .word32, .word32, .word32, .word32]
  | groups => [.ids]
  | execArgs | execEnv => [.texts]
  | attributes => [.word32, .word32, .word32, .word32, .word64, .word32]
  | exit => [.word32, .word32]
  | socketInet => [.word16, .word16, .ipv4]
  | socketInet6 => [.word16, .word16, .ipv6]
  | socketUnix => [.word16, .socketPath]

def ofTag? (tag : UInt8) : Option Kind :=
  all.find? (·.tag == tag)

@[simp] theorem ofTag?_tag (kind : Kind) : ofTag? kind.tag = some kind := by
  cases kind <;> rfl

theorem tag_of_ofTag? {tag : UInt8} {kind : Kind} (h : ofTag? tag = some kind) :
    kind.tag = tag := by
  simpa using List.find?_some h

end Kind

def Tag.name (tag : UInt8) : String :=
  match Kind.ofTag? tag with
  | some kind => kind.name
  | none => "unknown"

def Tag.isHeader (tag : UInt8) : Bool :=
  tag == Kind.header.tag || tag == Kind.headerEx.tag

end AuditTrail

import AuditTrail.Address
import AuditTrail.Layout.Elements

namespace AuditTrail

structure Header where
  size : UInt32
  version : UInt8 := 11
  event : UInt16
  modifier : UInt16 := 0
  seconds : UInt32 := 0
  milliseconds : UInt32 := 0
  deriving DecidableEq

structure Identity where
  auditId : UInt32
  euid : UInt32
  egid : UInt32
  ruid : UInt32
  rgid : UInt32
  pid : UInt32
  session : UInt32
  port : UInt32
  deriving DecidableEq

structure Endpoint (α : Type) where
  port : UInt16
  address : α
  deriving DecidableEq

structure Attributes where
  mode : UInt32
  uid : UInt32
  gid : UInt32
  filesystem : UInt32
  node : UInt64
  device : UInt32
  deriving DecidableEq

structure PacketHeader where
  version : UInt8
  service : UInt8
  length : UInt16
  id : UInt16
  offset : UInt16
  lifetime : UInt8
  protocol : UInt8
  checksum : UInt16
  source : IPv4
  destination : IPv4
  deriving DecidableEq

structure IpcPermissions where
  uid : UInt32
  gid : UInt32
  creatorUid : UInt32
  creatorGid : UInt32
  mode : UInt32
  sequence : UInt32
  key : UInt32
  deriving DecidableEq

inductive IpcObject
  | message
  | semaphore
  | sharedMemory
  | other (code : UInt8)
  deriving DecidableEq

namespace IpcObject

def code : IpcObject → UInt8
  | message => 1
  | semaphore => 2
  | sharedMemory => 3
  | other code => code

def ofCode (code : UInt8) : IpcObject :=
  if code = 1 then message
  else if code = 2 then semaphore
  else if code = 3 then sharedMemory
  else other code

def normalized (object : IpcObject) : IpcObject := ofCode object.code

def description? : IpcObject → Option String
  | message => some "Message IPC"
  | semaphore => some "Semaphore IPC"
  | sharedMemory => some "Shared Memory IPC"
  | other _ => none

@[simp] theorem code_ofCode (code : UInt8) : (ofCode code).code = code := by
  unfold ofCode
  repeat' split
  all_goals simp_all [IpcObject.code]

end IpcObject

inductive PrintFormat
  | binary
  | octal
  | decimal
  | hex
  | string
  | other (code : UInt8)
  deriving DecidableEq

namespace PrintFormat

def code : PrintFormat → UInt8
  | binary => 0
  | octal => 1
  | decimal => 2
  | hex => 3
  | string => 4
  | other code => code

def ofCode (code : UInt8) : PrintFormat :=
  if code = 0 then binary
  else if code = 1 then octal
  else if code = 2 then decimal
  else if code = 3 then hex
  else if code = 4 then string
  else other code

def normalized (format : PrintFormat) : PrintFormat := ofCode format.code

def name : PrintFormat → String
  | binary => "binary"
  | octal => "octal"
  | decimal => "decimal"
  | hex => "hex"
  | string => "string"
  | other _ => "unknown print suggestion"

@[simp] theorem code_ofCode (code : UInt8) : (ofCode code).code = code := by
  unfold ofCode
  repeat' split
  all_goals simp_all [PrintFormat.code]

end PrintFormat

inductive Token
  | header (header : Header)
  | headerEx (header : Header) (host : Address)
  | trailer (magic : UInt16) (size : UInt32)
  | arg32 (index : UInt8) (value : UInt32) (text : String)
  | arg64 (index : UInt8) (value : UInt64) (text : String)
  | arbitrary (format : PrintFormat) (values : Elements)
  | attributes (attributes : Attributes)
  | exit (status value : UInt32)
  | execArgs (args : List String)
  | execEnv (settings : List String)
  | file (seconds milliseconds : UInt32) (name : String)
  | groups (ids : List UInt32)
  | inAddr (ip : IPv4)
  | inAddrEx (address : Address)
  | ip (packet : PacketHeader)
  | ipc (object : IpcObject) (id : UInt32)
  | ipcPerm (permissions : IpcPermissions)
  | port (port : UInt16)
  | opaqueBytes (data : List UInt8)
  | path (path : String)
  | process (who : Identity) (terminal : IPv4)
  | processEx (who : Identity) (terminal : Address)
  | return32 (status : UInt8) (value : UInt32)
  | return64 (status : UInt8) (value : UInt64)
  | sequence (number : UInt32)
  | socket (type : UInt16) (here there : Endpoint IPv4)
  | socketEx (type : UInt16) (here there : Endpoint Address)
  | socketInet (family port : UInt16) (ip : IPv4)
  | socketInet6 (family port : UInt16) (ip : IPv6)
  | socketUnix (family : UInt16) (path : String)
  | subject (who : Identity) (terminal : IPv4)
  | subjectEx (who : Identity) (terminal : Address)
  | text (text : String)
  /-- A tag that no kind of token has, and the bytes the token is taken to span. -/
  | unknown (tag : UInt8) (data : List UInt8)
  deriving DecidableEq

end AuditTrail

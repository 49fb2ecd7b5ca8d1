import AuditTrail.Token.Kind

/-! Tokens taken apart into the values of their fields, and put together again. The fields carry
codes as they are, so a token put together has its codes normalized. -/

namespace AuditTrail

inductive Body
  | known (kind : Kind) (values : kind.layout.Values)
  | unknown (tag : UInt8) (data : List UInt8)

namespace Token

def body : Token → Body
  | .header h =>
    .known .header (h.size, h.version, h.event, h.modifier, h.seconds, h.milliseconds, ())
  | .headerEx h host =>
    .known .headerEx
      (h.size, h.version, h.event, h.modifier, host, h.seconds, h.milliseconds, ())
  | .trailer magic size => .known .trailer (magic, size, ())
  | .arg32 index value label => .known .arg32 (index, value, label, ())
  | .arg64 index value label => .known .arg64 (index, value, label, ())
  | .arbitrary format values => .known .arbitrary (format.code, values, ())
  | .attributes a =>
    .known .attributes (a.mode, a.uid, a.gid, a.filesystem, a.node, a.device, ())
  | .exit status value => .known .exit (status, value, ())
  | .execArgs args => .known .execArgs (args, ())
  | .execEnv settings => .known .execEnv (settings, ())
  | .file seconds milliseconds name => .known .file (seconds, milliseconds, name, ())
  | .groups ids => .known .groups (ids, ())
  | .inAddr host => .known .inAddr (host, ())
  | .inAddrEx host => .known .inAddrEx (host, ())
  | .ip p =>
    .known .ip
      (p.version, p.service, p.length, p.id, p.offset, p.lifetime, p.protocol, p.checksum,
        p.source, p.destination, ())
  | .ipc object id => .known .ipc (object.code, id, ())
  | .ipcPerm p =>
    .known .ipcPerm
      (p.uid, p.gid, p.creatorUid, p.creatorGid, p.mode, p.sequence, p.key, ())
  | .port number => .known .port (number, ())
  | .opaqueBytes data => .known .opaqueBytes (data, ())
  | .path name => .known .path (name, ())
  | .process w terminal =>
    .known .process
      (w.auditId, w.euid, w.egid, w.ruid, w.rgid, w.pid, w.session, w.port, terminal, ())
  | .processEx w terminal =>
    .known .processEx
      (w.auditId, w.euid, w.egid, w.ruid, w.rgid, w.pid, w.session, w.port, terminal, ())
  | .return32 status value => .known .return32 (status, value, ())
  | .return64 status value => .known .return64 (status, value, ())
  | .sequence number => .known .sequence (number, ())
  | .socket type here there =>
    .known .socket (type, here.port, here.address, there.port, there.address, ())
  | .socketEx type here there =>
    .known .socketEx (type, here.port, here.address, there.port, there.address, ())
  | .socketInet family number host => .known .socketInet (family, number, host, ())
  | .socketInet6 family number host => .known .socketInet6 (family, number, host, ())
  | .socketUnix family name => .known .socketUnix (family, name, ())
  | .subject w terminal =>
    .known .subject
      (w.auditId, w.euid, w.egid, w.ruid, w.rgid, w.pid, w.session, w.port, terminal, ())
  | .subjectEx w terminal =>
    .known .subjectEx
      (w.auditId, w.euid, w.egid, w.ruid, w.rgid, w.pid, w.session, w.port, terminal, ())
  | .text content => .known .text (content, ())
  | .unknown tag data => .unknown tag data

def normalized : Token → Token
  | .arbitrary format values => .arbitrary format.normalized values
  | .ipc object id => .ipc object.normalized id
  | token => token

end Token

namespace Body

def token : Body → Token
  | .known .header (size, version, event, modifier, seconds, milliseconds, ()) =>
    .header { size, version, event, modifier, seconds, milliseconds }
  | .known .headerEx (size, version, event, modifier, host, seconds, milliseconds, ()) =>
    .headerEx { size, version, event, modifier, seconds, milliseconds } host
  | .known .trailer (magic, size, ()) => .trailer magic size
  | .known .arg32 (index, value, text, ()) => .arg32 index value text
  | .known .arg64 (index, value, text, ()) => .arg64 index value text
  | .known .arbitrary (format, values, ()) => .arbitrary (.ofCode format) values
  | .known .attributes (mode, uid, gid, filesystem, node, device, ()) =>
    .attributes { mode, uid, gid, filesystem, node, device }
  | .known .exit (status, value, ()) => .exit status value
  | .known .execArgs (args, ()) => .execArgs args
  | .known .execEnv (settings, ()) => .execEnv settings
  | .known .file (seconds, milliseconds, name, ()) => .file seconds milliseconds name
  | .known .groups (ids, ()) => .groups ids
  | .known .inAddr (ip, ()) => .inAddr ip
  | .known .inAddrEx (address, ()) => .inAddrEx address
  | .known .ip
      (version, service, length, id, offset, lifetime, protocol, checksum, source,
        destination, ()) =>
    .ip { version, service, length, id, offset, lifetime, protocol, checksum, source,
          destination }
  | .known .ipc (object, id, ()) => .ipc (.ofCode object) id
  | .known .ipcPerm (uid, gid, creatorUid, creatorGid, mode, sequence, key, ()) =>
    .ipcPerm { uid, gid, creatorUid, creatorGid, mode, sequence, key }
  | .known .port (port, ()) => .port port
  | .known .opaqueBytes (data, ()) => .opaqueBytes data
  | .known .path (path, ()) => .path path
  | .known .process (auditId, euid, egid, ruid, rgid, pid, session, port, terminal, ()) =>
    .process { auditId, euid, egid, ruid, rgid, pid, session, port } terminal
  | .known .processEx (auditId, euid, egid, ruid, rgid, pid, session, port, terminal, ()) =>
    .processEx { auditId, euid, egid, ruid, rgid, pid, session, port } terminal
  | .known .return32 (status, value, ()) => .return32 status value
  | .known .return64 (status, value, ()) => .return64 status value
  | .known .sequence (number, ()) => .sequence number
  | .known .socket (type, herePort, hereAddress, therePort, thereAddress, ()) =>
    .socket type ⟨herePort, hereAddress⟩ ⟨therePort, thereAddress⟩
  | .known .socketEx (type, herePort, hereAddress, therePort, thereAddress, ()) =>
    .socketEx type ⟨herePort, hereAddress⟩ ⟨therePort, thereAddress⟩
  | .known .socketInet (family, port, ip, ()) => .socketInet family port ip
  | .known .socketInet6 (family, port, ip, ()) => .socketInet6 family port ip
  | .known .socketUnix (family, path, ()) => .socketUnix family path
  | .known .subject (auditId, euid, egid, ruid, rgid, pid, session, port, terminal, ()) =>
    .subject { auditId, euid, egid, ruid, rgid, pid, session, port } terminal
  | .known .subjectEx (auditId, euid, egid, ruid, rgid, pid, session, port, terminal, ()) =>
    .subjectEx { auditId, euid, egid, ruid, rgid, pid, session, port } terminal
  | .known .text (text, ()) => .text text
  | .unknown tag data => .unknown tag data

def tag : Body → UInt8
  | .known kind _ => kind.tag
  | .unknown tag _ => tag

def name : Body → String
  | .known kind _ => kind.name
  | .unknown _ _ => "unknown"

end Body

namespace Token

def tag (token : Token) : UInt8 := token.body.tag

def name (token : Token) : String := token.body.name

@[simp] theorem token_body (token : Token) : token.body.token = token.normalized := by
  cases token <;> rfl

end Token

@[simp] theorem Body.body_token (body : Body) : body.token.body = body := by
  cases body with
  | known kind values =>
    cases kind with
    | arbitrary =>
      obtain ⟨format, elements, ⟨⟩⟩ := values
      simp [Body.token, Token.body]
    | ipc =>
      obtain ⟨object, id, ⟨⟩⟩ := values
      simp [Body.token, Token.body]
    | _ => rfl
  | unknown tag data => rfl

end AuditTrail

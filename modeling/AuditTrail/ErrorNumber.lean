namespace AuditTrail

structure ErrorNumber where
  number : UInt8
  name : String
  description : String
  deriving DecidableEq

namespace ErrorNumber

def table : List ErrorNumber := [
  ⟨0, "ESUCCESS", "Success"⟩,
  ⟨1, "EPERM", "Operation not permitted"⟩,
  ⟨2, "ENOENT", "No such file or directory"⟩,
  ⟨3, "ESRCH", "No such process"⟩,
  ⟨4, "EINTR", "Interrupted system call"⟩,
  ⟨5, "EIO", "Input/output error"⟩,
  ⟨6, "ENXIO", "Device not configured"⟩,
  ⟨7, "E2BIG", "Argument list too long"⟩,
  ⟨8, "ENOEXEC", "Exec format error"⟩,
  ⟨9, "EBADF", "Bad file descriptor"⟩,
  ⟨10, "ECHILD", "No child processes"⟩,
  ⟨11, "EAGAIN", "Resource temporarily unavailable"⟩,
  ⟨12, "ENOMEM", "Cannot allocate memory"⟩,
  ⟨13, "EACCES", "Permission denied"⟩,
  ⟨14, "EFAULT", "Bad address"⟩,
  ⟨15, "ENOTBLK", "Block device required"⟩,
  ⟨16, "EBUSY", "Device busy"⟩,
  ⟨17, "EEXIST", "File exists"⟩,
  ⟨18, "EXDEV", "Cross-device link"⟩,
  ⟨19, "ENODEV", "Operation not supported by device"⟩,
  ⟨20, "ENOTDIR", "Not a directory"⟩,
  ⟨21, "EISDIR", "Is a directory"⟩,
  ⟨22, "EINVAL", "Invalid argument"⟩,
  ⟨23, "ENFILE", "Too many open files in system"⟩,
  ⟨24, "EMFILE", "Too many open files"⟩,
  ⟨25, "ENOTTY", "Inappropriate ioctl for device"⟩,
  ⟨26, "ETXTBSY", "Text file busy"⟩,
  ⟨27, "EFBIG", "File too large"⟩,
  ⟨28, "ENOSPC", "No space left on device"⟩,
  ⟨29, "ESPIPE", "Illegal seek"⟩,
  ⟨30, "EROFS", "Read-only file system"⟩,
  ⟨31, "EMLINK", "Too many links"⟩,
  ⟨32, "EPIPE", "Broken pipe"⟩,
  ⟨33, "EDOM", "Numerical argument out of domain"⟩,
  ⟨34, "ERANGE", "Result too large"⟩,
  ⟨35, "ENOMSG", "No message of desired type"⟩,
  ⟨36, "EIDRM", "Identifier removed"⟩,
  ⟨37, "ECHRNG", "Channel number out of range"⟩,
  ⟨38, "EL2NSYNC", "Level 2 not synchronized"⟩,
  ⟨39, "EL3HLT", "Level 3 halted"⟩,
  ⟨40, "EL3RST", "Level 3 reset"⟩,
  ⟨41, "ELNRNG", "Link number out of range"⟩,
  ⟨42, "EUNATCH", "Protocol driver not attached"⟩,
  ⟨43, "ENOCSI", "No CSI structure available"⟩,
  ⟨44, "EL2HLT", "Level 2 halted"⟩,
  ⟨45, "EDEADLK", "Resource deadlock avoided"⟩,
  ⟨46, "ENOLCK", "No locks available"⟩,
  ⟨47, "ECANCELED", "Operation canceled"⟩,
  ⟨48, "ENOTSUP", "Operation not supported"⟩,
  ⟨49, "EDQUOT", "Disc quota exceeded"⟩,
  ⟨50, "EBADE", "Invalid exchange"⟩,
  ⟨51, "EBADR", "Invalid request descriptor"⟩,
  ⟨52, "EXFULL", "Exchange full"⟩,
  ⟨53, "ENOANO", "No anode"⟩,
  ⟨54, "EBADRQC", "Invalid request code"⟩,
  ⟨55, "EBADSLT", "Invalid slot"⟩,
  ⟨56, "EDEADLOCK", "Resource deadlock avoided"⟩,
  ⟨57, "EBFONT", "Bad font file format"⟩,
  ⟨58, "EOWNERDEAD", "Process died with the lock"⟩,
  ⟨59, "ENOTRECOVERABLE", "Lock is not recoverable"⟩,
  ⟨60, "ENOSTR", "Device not a stream"⟩,
  ⟨61, "ENODATA", "No data available"⟩,
  ⟨62, "ETIME", "Timer expired"⟩,
  ⟨63, "ENOSR", "Out of streams resources"⟩,
  ⟨64, "ENONET", "Machine is not on the network"⟩,
  ⟨65, "ENOPKG", "Package not installed"⟩,
  ⟨66, "EREMOTE", "Object is remote"⟩,
  ⟨67, "ENOLINK", "Link has been severed"⟩,
  ⟨68, "EADV", "Advertise error"⟩,
  ⟨69, "ESRMNT", "Srmount error"⟩,
  ⟨70, "ECOMM", "Communication error on send"⟩,
  ⟨71, "EPROTO", "Protocol error"⟩,
  ⟨72, "ELOCKUNMAPPED", "Locked lock was unmapped"⟩,
  ⟨73, "ENOTACTIVE", "Facility is not active"⟩,
  ⟨74, "EMULTIHOP", "Multihop attempted"⟩,
  ⟨77, "EBADMSG", "Bad message"⟩,
  ⟨78, "ENAMETOOLONG", "File name too long"⟩,
  ⟨79, "EOVERFLOW", "Value too large to be stored in data type"⟩,
  ⟨80, "ENOTUNIQ", "Given log name not unique"⟩,
  ⟨81, "EBADFD", "Given f.d. invalid for this operation"⟩,
  ⟨82, "EREMCHG", "Remote address changed"⟩,
  ⟨83, "ELIBACC", "Can't access a needed shared lib"⟩,
  ⟨84, "ELIBBAD", "Accessing a corrupted shared lib"⟩,
  ⟨85, "ELIBSCN", ".lib section in a.out corrupted"⟩,
  ⟨86, "ELIBMAX", "Attempting to link in too many libs"⟩,
  ⟨87, "ELIBEXEC", "Attempting to exec a shared library"⟩,
  ⟨88, "EILSEQ", "Illegal byte sequence"⟩,
  ⟨89, "ENOSYS", "Function not implemented"⟩,
  ⟨90, "ELOOP", "Too many levels of symbolic links"⟩,
  ⟨91, "ERESTART", "Restart syscall"⟩,
  ⟨92, "ESTRPIPE", "If pipe/FIFO, don't sleep in stream head"⟩,
  ⟨93, "ENOTEMPTY", "Directory not empty"⟩,
  ⟨94, "EUSERS", "Too many users"⟩,
  ⟨95, "ENOTSOCK", "Socket operation on non-socket"⟩,
  ⟨96, "EDESTADDRREQ", "Destination address required"⟩,
  ⟨97, "EMSGSIZE", "Message too long"⟩,
  ⟨98, "EPROTOTYPE", "Protocol wrong type for socket"⟩,
  ⟨99, "ENOPROTOOPT", "Protocol not available"⟩,
  ⟨120, "EPROTONOSUPPORT", "Protocol not supported"⟩,
  ⟨121, "ESOCKTNOSUPPORT", "Socket type not supported"⟩,
  ⟨122, "EOPNOTSUPP", "Operation not supported"⟩,
  ⟨123, "EPFNOSUPPORT", "Protocol family not supported"⟩,
  ⟨124, "EAFNOSUPPORT", "Address family not supported by protocol family"⟩,
  ⟨125, "EADDRINUSE", "Address already in use"⟩,
  ⟨126, "EADDRNOTAVAIL", "Can't assign requested address"⟩,
  ⟨127, "ENETDOWN", "Network is down"⟩,
  ⟨128, "ENETUNREACH", "Network is unreachable"⟩,
  ⟨129, "ENETRESET", "Network dropped connection on reset"⟩,
  ⟨130, "ECONNABORTED", "Software caused connection abort"⟩,
  ⟨131, "ECONNRESET", "Connection reset by peer"⟩,
  ⟨132, "ENOBUFS", "No buffer space available"⟩,
  ⟨133, "EISCONN", "Socket is already connected"⟩,
  ⟨134, "ENOTCONN", "Socket is not connected"⟩,
  ⟨143, "ESHUTDOWN", "Can't send after socket shutdown"⟩,
  ⟨144, "ETOOMANYREFS", "Too many references: can't splice"⟩,
  ⟨145, "ETIMEDOUT", "Operation timed out"⟩,
  ⟨146, "ECONNREFUSED", "Connection refused"⟩,
  ⟨147, "EHOSTDOWN", "Host is down"⟩,
  ⟨148, "EHOSTUNREACH", "No route to host"⟩,
  ⟨149, "EALREADY", "Operation already in progress"⟩,
  ⟨150, "EINPROGRESS", "Operation now in progress"⟩,
  ⟨151, "ESTALE", "Stale NFS file handle"⟩]

def find? (status : UInt8) : Option ErrorNumber :=
  table.find? (·.number == status)

end ErrorNumber

end AuditTrail

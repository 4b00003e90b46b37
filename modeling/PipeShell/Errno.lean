/-!
# Error numbers

The operating system answers a failed call with a number.  Every number has a
symbol and a description; a few have a second, older wording.  Two forms are
printed: `Errno.report` ends with the number, `Errno.symbolic` begins with the
symbol and takes the older wording.
-/

set_option autoImplicit false

namespace PipeShell

structure Errno where
  number : Int
  deriving DecidableEq, Inhabited, Repr

namespace Errno

/-! ## The numbers the shell and its programs meet -/

def noEntry : Errno := ⟨2⟩

def notExecutable : Errno := ⟨8⟩

def badDescriptor : Errno := ⟨9⟩

def noChild : Errno := ⟨10⟩

def tryAgain : Errno := ⟨11⟩

def accessDenied : Errno := ⟨13⟩

def notPermitted : Errno := ⟨1⟩

def notDirectory : Errno := ⟨20⟩

def isDirectory : Errno := ⟨21⟩

def invalidArgument : Errno := ⟨22⟩

def tooManyOpen : Errno := ⟨24⟩

def noSpace : Errno := ⟨28⟩

def nameTooLong : Errno := ⟨36⟩

def tooManyLinks : Errno := ⟨40⟩

/-! ## Their texts -/

/-- Number, symbol, description and, where it differs, the older wording. -/
def table : List (Int × String × String × Option String) :=
  [
    (0, "UnknownErrno", "Success", some "Unknown errno"),
    (1, "EPERM", "Operation not permitted", none),
    (2, "ENOENT", "No such file or directory", none),
    (3, "ESRCH", "No such process", none),
    (4, "EINTR", "Interrupted system call", none),
    (5, "EIO", "Input/output error", some "I/O error"),
    (6, "ENXIO", "No such device or address", none),
    (7, "E2BIG", "Argument list too long", none),
    (8, "ENOEXEC", "Exec format error", none),
    (9, "EBADF", "Bad file descriptor", some "Bad file number"),
    (10, "ECHILD", "No child processes", none),
    (11, "EAGAIN", "Resource temporarily unavailable", some "Try again"),
    (12, "ENOMEM", "Cannot allocate memory", some "Out of memory"),
    (13, "EACCES", "Permission denied", none),
    (14, "EFAULT", "Bad address", none),
    (15, "ENOTBLK", "Block device required", none),
    (16, "EBUSY", "Device or resource busy", none),
    (17, "EEXIST", "File exists", none),
    (18, "EXDEV", "Invalid cross-device link", some "Cross-device link"),
    (19, "ENODEV", "No such device", none),
    (20, "ENOTDIR", "Not a directory", none),
    (21, "EISDIR", "Is a directory", none),
    (22, "EINVAL", "Invalid argument", none),
    (23, "ENFILE", "Too many open files in system", some "File table overflow"),
    (24, "EMFILE", "Too many open files", none),
    (25, "ENOTTY", "Inappropriate ioctl for device", some "Not a typewriter"),
    (26, "ETXTBSY", "Text file busy", none),
    (27, "EFBIG", "File too large", none),
    (28, "ENOSPC", "No space left on device", none),
    (29, "ESPIPE", "Illegal seek", none),
    (30, "EROFS", "Read-only file system", none),
    (31, "EMLINK", "Too many links", none),
    (32, "EPIPE", "Broken pipe", none),
    (33, "EDOM", "Numerical argument out of domain", some "Math argument out of domain of func"),
    (34, "ERANGE", "Numerical result out of range", some "Math result not representable"),
    (35, "EDEADLK", "Resource deadlock avoided", some "Resource deadlock would occur"),
    (36, "ENAMETOOLONG", "File name too long", none),
    (37, "ENOLCK", "No locks available", some "No record locks available"),
    (38, "ENOSYS", "Function not implemented", none),
    (39, "ENOTEMPTY", "Directory not empty", none),
    (40, "ELOOP", "Too many levels of symbolic links", some "Too many symbolic links encountered"),
    (42, "ENOMSG", "No message of desired type", none),
    (43, "EIDRM", "Identifier removed", none),
    (44, "ECHRNG", "Channel number out of range", none),
    (45, "EL2NSYNC", "Level 2 not synchronized", none),
    (46, "EL3HLT", "Level 3 halted", none),
    (47, "EL3RST", "Level 3 reset", none),
    (48, "ELNRNG", "Link number out of range", none),
    (49, "EUNATCH", "Protocol driver not attached", none),
    (50, "ENOCSI", "No CSI structure available", none),
    (51, "EL2HLT", "Level 2 halted", none),
    (52, "EBADE", "Invalid exchange", none),
    (53, "EBADR", "Invalid request descriptor", none),
    (54, "EXFULL", "Exchange full", none),
    (55, "ENOANO", "No anode", none),
    (56, "EBADRQC", "Invalid request code", none),
    (57, "EBADSLT", "Invalid slot", none),
    (59, "EBFONT", "Bad font file format", none),
    (60, "ENOSTR", "Device not a stream", none),
    (61, "ENODATA", "No data available", none),
    (62, "ETIME", "Timer expired", none),
    (63, "ENOSR", "Out of streams resources", none),
    (64, "ENONET", "Machine is not on the network", none),
    (65, "ENOPKG", "Package not installed", none),
    (66, "EREMOTE", "Object is remote", none),
    (67, "ENOLINK", "Link has been severed", none),
    (68, "EADV", "Advertise error", none),
    (69, "ESRMNT", "Srmount error", none),
    (70, "ECOMM", "Communication error on send", none),
    (71, "EPROTO", "Protocol error", none),
    (72, "EMULTIHOP", "Multihop attempted", none),
    (73, "EDOTDOT", "RFS specific error", none),
    (74, "EBADMSG", "Bad message", some "Not a data message"),
    (75, "EOVERFLOW", "Value too large for defined data type", none),
    (76, "ENOTUNIQ", "Name not unique on network", none),
    (77, "EBADFD", "File descriptor in bad state", none),
    (78, "EREMCHG", "Remote address changed", none),
    (79, "ELIBACC", "Can not access a needed shared library", none),
    (80, "ELIBBAD", "Accessing a corrupted shared library", none),
    (81, "ELIBSCN", ".lib section in a.out corrupted", none),
    (82, "ELIBMAX", "Attempting to link in too many shared libraries", none),
    (83, "ELIBEXEC", "Cannot exec a shared library directly", none),
    (84, "EILSEQ", "Invalid or incomplete multibyte or wide character",
      some "Illegal byte sequence"),
    (85, "ERESTART", "Interrupted system call should be restarted", none),
    (86, "ESTRPIPE", "Streams pipe error", none),
    (87, "EUSERS", "Too many users", none),
    (88, "ENOTSOCK", "Socket operation on non-socket", none),
    (89, "EDESTADDRREQ", "Destination address required", none),
    (90, "EMSGSIZE", "Message too long", none),
    (91, "EPROTOTYPE", "Protocol wrong type for socket", none),
    (92, "ENOPROTOOPT", "Protocol not available", none),
    (93, "EPROTONOSUPPORT", "Protocol not supported", none),
    (94, "ESOCKTNOSUPPORT", "Socket type not supported", none),
    (95, "EOPNOTSUPP", "Operation not supported",
      some "Operation not supported on transport endpoint"),
    (96, "EPFNOSUPPORT", "Protocol family not supported", none),
    (97, "EAFNOSUPPORT", "Address family not supported by protocol", none),
    (98, "EADDRINUSE", "Address already in use", none),
    (99, "EADDRNOTAVAIL", "Cannot assign requested address", none),
    (100, "ENETDOWN", "Network is down", none),
    (101, "ENETUNREACH", "Network is unreachable", none),
    (102, "ENETRESET", "Network dropped connection on reset",
      some "Network dropped connection because of reset"),
    (103, "ECONNABORTED", "Software caused connection abort", none),
    (104, "ECONNRESET", "Connection reset by peer", none),
    (105, "ENOBUFS", "No buffer space available", none),
    (106, "EISCONN", "Transport endpoint is already connected", none),
    (107, "ENOTCONN", "Transport endpoint is not connected", none),
    (108, "ESHUTDOWN", "Cannot send after transport endpoint shutdown", none),
    (109, "ETOOMANYREFS", "Too many references: cannot splice", none),
    (110, "ETIMEDOUT", "Connection timed out", none),
    (111, "ECONNREFUSED", "Connection refused", none),
    (112, "EHOSTDOWN", "Host is down", none),
    (113, "EHOSTUNREACH", "No route to host", none),
    (114, "EALREADY", "Operation already in progress", none),
    (115, "EINPROGRESS", "Operation now in progress", none),
    (116, "ESTALE", "Stale file handle", none),
    (117, "EUCLEAN", "Structure needs cleaning", none),
    (118, "ENOTNAM", "Not a XENIX named type file", none),
    (119, "ENAVAIL", "No XENIX semaphores available", none),
    (120, "EISNAM", "Is a named type file", none),
    (121, "EREMOTEIO", "Remote I/O error", none),
    (122, "EDQUOT", "Disk quota exceeded", some "Quota exceeded"),
    (123, "ENOMEDIUM", "No medium found", none),
    (124, "EMEDIUMTYPE", "Wrong medium type", none),
    (125, "ECANCELED", "Operation canceled", none),
    (126, "ENOKEY", "Required key not available", none),
    (127, "EKEYEXPIRED", "Key has expired", none),
    (128, "EKEYREVOKED", "Key has been revoked", none),
    (129, "EKEYREJECTED", "Key was rejected by service", none),
    (130, "EOWNERDEAD", "Owner died", none),
    (131, "ENOTRECOVERABLE", "State not recoverable", none),
    (132, "ERFKILL", "Operation not possible due to RF-kill", none),
    (133, "EHWPOISON", "Memory page has hardware error", none)
  ]

/-- The symbol, as in `EAGAIN`. -/
def symbol (e : Errno) : String :=
  match table.lookup e.number with
  | some (symbol, _) => symbol
  | none => "UnknownErrno"

/-- The description the C library gives; an unknown number is named in it. -/
def description (e : Errno) : String :=
  match table.lookup e.number with
  | some (_, text, _) => text
  | none => s!"Unknown error {e.number}"

/-- The older wording where there is one, and the description elsewhere. -/
def olderWording (e : Errno) : String :=
  match table.lookup e.number with
  | some (_, text, older) => older.getD text
  | none => "Unknown errno"

/-- The description and the number, as in `Is a directory (os error 21)`. -/
def report (e : Errno) : String :=
  s!"{e.description} (os error {e.number})"

/-- The symbol and the older wording, as in `EAGAIN: Try again`. -/
def symbolic (e : Errno) : String :=
  s!"{e.symbol}: {e.olderWording}"

end Errno

end PipeShell

import Mathlib.Algebra.Group.Int.Defs
import Mathlib.Algebra.Group.Nat.Defs
import TellerOBC.Core.Telem.StorageFrames

/-!
# The littlefs wrapper

The methods of `littlefs::Filesystem` in `lib/littlefs-cpp/littlefs-cpp.h` that the storage and
recorder modules call. littlefs itself is not part of the repository, so the methods are the
fields of a record over a type `W` of states of everything below them: a value of `LittleFS W`
and a state of `W` determine what every call returns. Statements about all results of littlefs
quantify over both.

There is one littlefs object for each storage area, which stands for the `Filesystem*` of the
source.

## Main definitions

* `TellerOBC.LfsError`, `TellerOBC.LfsType`, `TellerOBC.DirInfo`, `TellerOBC.OpenFlags`.
* `TellerOBC.LittleFS`: the methods of a littlefs object.
* `TellerOBC.Errno`, `TellerOBC.convertLittleFSErrorCode`.
-/

namespace TellerOBC

/-- The errors of the wrapper: `littlefs::Error`. -/
inductive LfsError where
  | io
  | corrupt
  | noent
  | exist
  | notdir
  | isdir
  | notempty
  | badf
  | fbig
  | inval
  | nospc
  | nomem
  | noattr
  | nametoolong
  | noFdEntry
  | noDdEntry
  deriving DecidableEq, Repr

/-- The types of directory entries: `littlefs::Type`. -/
inductive LfsType where
  | reg
  | dir
  deriving DecidableEq, Repr

/-- What `dir_read` returns about an entry. -/
structure DirInfo where
  name : CString
  type : LfsType
  size : ℕ
  deriving DecidableEq

/-- The flags of `littlefs::OpenFlag` that the modules use. -/
structure OpenFlags where
  rdonly : Bool := false
  wronly : Bool := false
  creat : Bool := false
  trunc : Bool := false
  deriving DecidableEq, Repr

/-- The methods of the littlefs objects. The second argument of a method on an open file or
directory is its descriptor. Reads return the bytes that were read. -/
structure LittleFS (W : Type) where
  mount : StorageArea → W → Option LfsError × W
  unmount : StorageArea → W → Option LfsError × W
  format : StorageArea → W → Option LfsError × W
  open_ : StorageArea → List UInt8 → OpenFlags → W → Except LfsError ℕ × W
  opencfg : StorageArea → List UInt8 → OpenFlags → W → Except LfsError ℕ × W
  sync : StorageArea → ℕ → W → Option LfsError × W
  close : StorageArea → ℕ → W → Option LfsError × W
  read : StorageArea → ℕ → ℕ → W → Except LfsError (List UInt8) × W
  write : StorageArea → ℕ → List UInt8 → W → Except LfsError ℕ × W
  tell : StorageArea → ℕ → W → Except LfsError ℕ × W
  size : StorageArea → ℕ → W → Except LfsError ℕ × W
  seek : StorageArea → ℕ → ℤ → W → Except LfsError ℕ × W
  stat : StorageArea → List UInt8 → W → Except LfsError LfsType × W
  dirOpen : StorageArea → List UInt8 → W → Except LfsError ℕ × W
  dirClose : StorageArea → ℕ → W → Option LfsError × W
  dirRead : StorageArea → ℕ → W → Except LfsError DirInfo × W
  dirRewind : StorageArea → ℕ → W → Option LfsError × W

/-- The POSIX error codes that the storage functions return. A return value is an
`Option Errno`, with `none` for zero. -/
inductive Errno where
  | badf
  | busy
  | exist
  | fbig
  | inval
  | io
  | isdir
  | nametoolong
  | noent
  | nomem
  | nospc
  | notdir
  | notempty
  deriving DecidableEq, Repr

/-- `convertLittleFSErrorCode` on an error; without an error it returns zero. -/
def convertLittleFSErrorCode : LfsError → Errno
  | .badf => .badf
  | .exist => .exist
  | .fbig => .fbig
  | .inval => .inval
  | .io => .io
  | .isdir => .isdir
  | .nametoolong => .nametoolong
  | .noDdEntry | .noFdEntry | .noent => .noent
  | .nomem => .nomem
  | .nospc => .nospc
  | .notdir => .notdir
  | .notempty => .notempty
  | .corrupt | .noattr => .io

end TellerOBC

import Containment.Text.Numeral

/-!
# Access masks

Rights asked for on a process or on a file, as sets of bits. The rights that have a name are listed
in the order in which a mask's text names them; other bits are kept and not named.
-/

namespace Containment

abbrev Bits := BitVec 32

namespace Bits

def covers (mask other : Bits) : Bool := mask &&& other == other

def meets (mask other : Bits) : Bool := mask &&& other != 0

def naming (rights : List (String × Bits)) (mask : Bits) : String :=
  match (rights.filter fun right => covers mask right.2).map Prod.fst with
  | [] => "NONE"
  | names => " | ".intercalate names

def numbered (mask : Bits) (names : String) : String :=
  Text.hexadecimal mask.toNat ++ ": " ++ names

end Bits

/-! ## Rights on a process -/

structure ProcessAccess where
  bits : Bits
  deriving DecidableEq

namespace ProcessAccess

def terminate : ProcessAccess := ⟨0x1⟩
def createThread : ProcessAccess := ⟨0x2⟩
def vmOperation : ProcessAccess := ⟨0x8⟩
def vmRead : ProcessAccess := ⟨0x10⟩
def vmWrite : ProcessAccess := ⟨0x20⟩
def queryInformation : ProcessAccess := ⟨0x400⟩

def union (a b : ProcessAccess) : ProcessAccess := ⟨a.bits ||| b.bits⟩

/-- Rights that only the processes of the target's own family may hold. -/
def tamper : ProcessAccess := (createThread.union vmOperation).union vmWrite

def covers (a b : ProcessAccess) : Bool := a.bits.covers b.bits

def meets (a b : ProcessAccess) : Bool := a.bits.meets b.bits

def without (a b : ProcessAccess) : ProcessAccess := ⟨a.bits &&& ~~~b.bits⟩

def rights : List (String × Bits) :=
  [("TERMINATE", terminate.bits), ("CREATE_THREAD", createThread.bits),
    ("VM_OPERATION", vmOperation.bits), ("VM_READ", vmRead.bits), ("VM_WRITE", vmWrite.bits),
    ("QUERY_INFORMATION", queryInformation.bits)]

def text (a : ProcessAccess) : String := Bits.naming rights a.bits

instance : ToString ProcessAccess := ⟨text⟩

def numberedText (a : ProcessAccess) : String := a.bits.numbered a.text

end ProcessAccess

/-! ## Rights on a file -/

structure FileAccess where
  bits : Bits
  deriving DecidableEq

namespace FileAccess

def readData : FileAccess := ⟨0x1⟩
def writeData : FileAccess := ⟨0x2⟩
def appendData : FileAccess := ⟨0x4⟩
def writeExtended : FileAccess := ⟨0x10⟩
def writeAttributes : FileAccess := ⟨0x100⟩
def delete : FileAccess := ⟨0x10000⟩

def union (a b : FileAccess) : FileAccess := ⟨a.bits ||| b.bits⟩

def allWrite : FileAccess :=
  ((writeData.union appendData).union writeExtended).union writeAttributes

def covers (a b : FileAccess) : Bool := a.bits.covers b.bits

def meets (a b : FileAccess) : Bool := a.bits.meets b.bits

def isWrite (a : FileAccess) : Bool := a.meets allWrite

def rights : List (String × Bits) :=
  [("READ_DATA", readData.bits), ("WRITE_DATA", writeData.bits), ("APPEND_DATA", appendData.bits),
    ("WRITE_EA", writeExtended.bits), ("WRITE_ATTRIBUTES", writeAttributes.bits),
    ("DELETE", delete.bits)]

def text (a : FileAccess) : String := Bits.naming rights a.bits

instance : ToString FileAccess := ⟨text⟩

def numberedText (a : FileAccess) : String := a.bits.numbered a.text

end FileAccess

/-! ## Flags of an open call -/

/-- The two low bits are the mode: 1 writes, 2 reads and writes, 0 and 3 read. -/
structure OpenFlags where
  bits : Bits
  deriving DecidableEq

namespace OpenFlags

def readOnly : OpenFlags := ⟨0x0⟩
def writeOnly : OpenFlags := ⟨0x1⟩
def readWrite : OpenFlags := ⟨0x2⟩
def truncate : OpenFlags := ⟨0x200⟩
def append : OpenFlags := ⟨0x400⟩
def directory : OpenFlags := ⟨0x10000⟩

/-- The flags by the names they have in the system's interface. -/
def named : List (String × OpenFlags) :=
  [("O_RDONLY", readOnly), ("O_WRONLY", writeOnly), ("O_RDWR", readWrite), ("O_ACCMODE", ⟨0x3⟩),
    ("O_CREAT", ⟨0x40⟩), ("O_EXCL", ⟨0x80⟩), ("O_NOCTTY", ⟨0x100⟩), ("O_TRUNC", truncate),
    ("O_APPEND", append), ("O_NONBLOCK", ⟨0x800⟩), ("O_NDELAY", ⟨0x800⟩), ("O_DSYNC", ⟨0x1000⟩),
    ("O_ASYNC", ⟨0x2000⟩), ("O_DIRECT", ⟨0x4000⟩), ("O_LARGEFILE", ⟨0x8000⟩),
    ("O_DIRECTORY", directory), ("O_NOFOLLOW", ⟨0x20000⟩), ("O_NOATIME", ⟨0x40000⟩),
    ("O_CLOEXEC", ⟨0x80000⟩), ("O_SYNC", ⟨0x101000⟩), ("O_RSYNC", ⟨0x101000⟩),
    ("O_PATH", ⟨0x200000⟩), ("O_TMPFILE", ⟨0x410000⟩)]

def union (a b : OpenFlags) : OpenFlags := ⟨a.bits ||| b.bits⟩

def ofNames? (names : List String) : Option OpenFlags :=
  (names.mapM fun name => named.lookup name).map fun flags => flags.foldl union ⟨0⟩

def covers (a b : OpenFlags) : Bool := a.bits.covers b.bits

def access (flags : OpenFlags) : FileAccess :=
  let mode := flags.bits &&& 3
  let base :=
    if mode = writeOnly.bits then .writeData
    else if mode = readWrite.bits then FileAccess.readData.union .writeData
    else .readData
  let appending := if flags.covers append then base.union .appendData else base
  if flags.covers truncate then appending.union .writeData else appending

end OpenFlags

end Containment

import Containment.Text.Blank
import Containment.Text.Numeral

/-!
# Identifiers of processes and files

Both types set one value aside that names nothing: 0 for processes and the greatest word for files.
A process is written in decimal. A file is written in hexadecimal and read in both bases.
-/

namespace Containment

open Text

/-! ## Processes -/

structure Pid where
  raw : UInt32
  deriving DecidableEq, Inhabited

namespace Pid

def invalid : Pid := ⟨0⟩

def isValid (pid : Pid) : Bool := pid != invalid

theorem isValid_iff {pid : Pid} : pid.isValid = true ↔ pid ≠ invalid := by
  simp [isValid]

instance : LT Pid := ⟨fun a b => a.raw < b.raw⟩

instance (a b : Pid) : Decidable (a < b) := inferInstanceAs (Decidable (a.raw < b.raw))

/-- The operating system counts processes in the positive half of the signed 32-bit words. -/
def signed? (pid : Pid) : Option Nat :=
  if 0 < pid.raw.toNat && pid.raw.toNat < UInt32.size / 2 then some pid.raw.toNat else none

def text (pid : Pid) : String := decimal pid.raw.toNat

instance : ToString Pid := ⟨text⟩

def read (cs : List Char) : Except NumeralError Pid :=
  (readNatural 32 10 (trim cs)).map fun n => ⟨UInt32.ofNat n⟩

end Pid

/-! ## Files -/

structure FileId where
  raw : UInt64
  deriving DecidableEq, Inhabited

namespace FileId

def invalid : FileId := ⟨0xFFFFFFFFFFFFFFFF⟩

def isValid (file : FileId) : Bool := file != invalid

theorem isValid_iff {file : FileId} : file.isValid = true ↔ file ≠ invalid := by
  simp [isValid]

instance : LT FileId := ⟨fun a b => a.raw < b.raw⟩

instance (a b : FileId) : Decidable (a < b) := inferInstanceAs (Decidable (a.raw < b.raw))

def text (file : FileId) : String :=
  if file.isValid then hexadecimal file.raw.toNat else "invalid"

instance : ToString FileId := ⟨text⟩

def readTrimmed : List Char → Except NumeralError Nat
  | '0' :: 'x' :: cs => readNatural 64 16 cs
  | '0' :: 'X' :: cs => readNatural 64 16 cs
  | cs => readNatural 64 10 cs

def read (cs : List Char) : Except NumeralError FileId :=
  (readTrimmed (trim cs)).map fun n => ⟨UInt64.ofNat n⟩

end FileId

end Containment

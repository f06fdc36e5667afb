import QuillImage.Image.Section

/-!
# Import tables

The image imports one function, the start of the managed runtime. The tables are:

* the lookup table, with the address of the name of the function and a zero slot,
* the name of the function after a hint of two bytes,
* the address table, filled like the lookup table, in which the system puts the
  address of the function,
* the name of the library,
* the directory, with one entry and an entry of zeros.
-/

namespace QuillImage.Image

/-- Where the import tables are. -/
structure Imports where
  directory : Directory
  /-- The address table. -/
  addresses : Directory
  deriving DecidableEq, Repr

namespace Imports

/-- The library that holds the imported function. -/
def library : String := "mscoree.dll"

/-- The imported function. -/
def function : String := "_CorExeMain"

/-- A table of one slot and a zero slot. -/
def slotTable (name : UInt32) : Bytes := word32 name ++ zeros 4

/-- The name of the function after its hint, with a final zero byte. -/
def hintAndName : Bytes := zeros 2 ++ utf8 function ++ [0]

/-- The name of the library with a final zero byte. -/
def libraryName : Bytes := utf8 library ++ [0]

/-- The size of a directory entry. -/
def entrySize : Nat := 20

/-- The directory: an entry for the library, and an entry of zeros. -/
def directoryBytes (lookup name addresses : UInt32) : Bytes :=
  word32 lookup ++ zeros 8 ++ word32 name ++ word32 addresses ++ zeros entrySize

end Imports

open Imports in
/-- Appends the import tables to a section. The slot of the lookup table is filled in once
the address of the name is known. -/
def Section.addImports (s : Section) : Except Halt (Imports × Section) := do
  let lookup ← s.address
  let slot := s.offset
  let s := s.append (zeros 8)
  let name ← s.address
  let s ← ((s.append hintAndName).align 4).patch slot name
  let addresses ← s.address
  let s := s.append (slotTable name)
  let libraryAddress ← s.address
  let s := (s.append libraryName).align 4
  let directory ← s.address
  let s := s.append (directoryBytes lookup libraryAddress addresses)
  return (⟨⟨directory, UInt32.ofNat (2 * entrySize)⟩, ⟨addresses, 8⟩⟩, s)

end QuillImage.Image

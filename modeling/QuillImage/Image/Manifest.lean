import QuillImage.Metadata.Layout
import QuillImage.Options

/-!
# The manifest of an image

The metadata that every image carries: the module and its assembly, the type that
holds global functions, the runtime library with the console and its method that
writes a line, the greeting, and the main method.
-/

namespace QuillImage.Image

open Metadata

/-- The text that the entry point writes. -/
def greeting : String := "Hello World"

/-- The signature of a method without result that takes a string. -/
def writeLineSignature : Bytes := [0x00, 1, 0x01, 0x0e]

/-- The signature of a method without result and parameters. -/
def mainSignature : Bytes := [0x00, 0, 0x01]

/-- The number of the hash algorithm that an assembly names. -/
def hashAlgorithm : UInt32 := 0x8004

/-- The flags of the main method: public, static, hidden by signature. -/
def mainFlags : UInt16 := 0x96

/-- The metadata of an image, with what the code refers to. -/
structure Manifest where
  database : Database
  /-- The token of the greeting. -/
  greeting : UInt32
  /-- The token of the method that writes a line. -/
  writeLine : UInt32
  /-- The position of the main method in its table. -/
  main : UInt32

namespace Manifest

/-- The row of the main method. -/
def mainRow (rva : Option UInt32) (name signature : UInt32) : Row .methodDef :=
  Row.methodDef rva 0 mainFlags name signature 1

/-- Collects the metadata of a module. The address of the main method is left open. -/
def build (o : Options) (moduleName : String) (guid : Guid) : Except Failure Manifest := do
  let db : Database := { version := o.metadataVersion }
  let (fileName, db) := db.addString (moduleName ++ o.outputSuffix)
  let (mvid, db) := db.addGuid guid.stored
  let (_, db) := db.addRow (Row.module fileName mvid)
  let (assemblyName, db) := db.addString moduleName
  let (_, db) := db.addRow (Row.assembly hashAlgorithm ⟨0, 0, 0, 0⟩ assemblyName)
  let (typeName, db) := db.addString "<Module>"
  let (_, db) := db.addRow (Row.typeDef typeName 1 1)
  let (keyToken, db) ← db.addBlob o.runtimeKeyToken.bytes
  let (library, db) := db.addString o.runtimeLibrary
  let (runtime, db) := db.addRow (Row.assemblyRef o.runtimeVersion keyToken library)
  let (console, db) := db.addString "Console"
  let (system, db) := db.addString "System"
  let (consoleType, db) := db.addRow (Row.typeRef ⟨.assemblyRef, runtime, by decide⟩ console system)
  let (writeLineName, db) := db.addString "WriteLine"
  let (writeLineType, db) ← db.addBlob writeLineSignature
  let (writeLine, db) :=
    db.addRowToken (Row.memberRef ⟨.typeRef, consoleType, by decide⟩ writeLineName writeLineType)
  let (greeting, db) ← db.addUserString Image.greeting
  let (mainName, db) := db.addString "Main"
  let (mainType, db) ← db.addBlob mainSignature
  let (main, db) := db.addRow (mainRow none mainName mainType)
  return { database := db, greeting, writeLine, main }

/-- The metadata with the address of the main method filled in. -/
def bindMain (m : Manifest) (mainRva : UInt32) : Database :=
  match m.database.row? .methodDef m.main with
  | some row => (m.database.setRow? m.main (row.withAddress mainRva)).getD m.database
  | none => m.database

end Manifest

end QuillImage.Image

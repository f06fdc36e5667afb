import QuillImage.Text.Hex

/-!
# Failures

Programs arrive type-checked, so what can go wrong while an image is made is an
internal inconsistency. `Failure` lists the causes, with the names of what they
are about, and `Failure.message` words them. `Halt` adds the one way to stop that
is not reported: arithmetic that leaves its word, as in `addWords`.
-/

namespace QuillImage

/-- The place of a value in the metadata tables. -/
structure CellPosition where
  /-- The name of the table. -/
  table : String
  /-- The position of the row, counted from one. -/
  row : Nat
  /-- The name of the column. -/
  column : String
  deriving DecidableEq, Repr

/-- The cause of an internal error. -/
inductive Failure where
  /-- Generation reached a construct that has no instructions yet. -/
  | unimplemented (construct : String)
  /-- A call of something that is not callable. -/
  | notCallable (construct : String)
  /-- A heap entry longer than its length byte can say. -/
  | heapEntryTooLarge (heap : String) (length limit : Nat)
  /-- A heap reference that leads out of the heap. -/
  | badHeapReference (position : CellPosition) (heap : String) (offset : Nat)
  /-- A row reference that names no row. -/
  | danglingReference (position : CellPosition) (target : String) (index : Nat)
  /-- A coded index into a table that has no tag. -/
  | invalidCodedIndex (position : CellPosition) (kind target : String)
  /-- A field to be filled in later that still is not. -/
  | unsetField (record field : String)
  /-- A second assembly of the same image. -/
  | alreadyAssembled (image : String)
  /-- An instruction that takes more values than the stack holds. -/
  | stackUnderflow (opcode : String) (pops depth : Nat)
  deriving DecidableEq, Repr

/-- The start of a message about a cell. -/
def CellPosition.label (p : CellPosition) : String :=
  p.table ++ " row " ++ toString p.row ++ " column " ++ p.column

/-- The wording of a failure. -/
def Failure.message : Failure → String
  | unimplemented construct => "code generation for " ++ construct ++ " is not implemented"
  | notCallable construct => construct ++ " is not callable"
  | heapEntryTooLarge heap length limit =>
    heap ++ " heap entry of length " ++ toString length ++
      " exceeds the supported maximum of " ++ toString limit
  | badHeapReference position heap offset =>
    position.label ++ ": " ++ heap ++ " heap offset " ++ Text.hex offset ++ " is out of range"
  | danglingReference position target index =>
    position.label ++ ": " ++ target ++ " row " ++ toString index ++ " does not exist"
  | invalidCodedIndex position kind target =>
    position.label ++ ": " ++ target ++ " cannot be referenced through " ++ kind
  | unsetField record field => record ++ " field " ++ field ++ " was never set"
  | alreadyAssembled image => image ++ " was already assembled"
  | stackUnderflow opcode pops depth =>
    "instruction " ++ opcode ++ " pops " ++ toString pops ++
      " values but the evaluation stack holds " ++ toString depth

/-- Why an operation stops without a result. -/
inductive Halt where
  /-- An internal error, to be reported. -/
  | failure (f : Failure)
  /-- A number left the width of its word, or a position the bytes that it is in. -/
  | overflow
  deriving DecidableEq, Repr

/-- The sum of two words. -/
def addWords (a b : UInt32) : Except Halt UInt32 :=
  if a.toNat + b.toNat < 0x100000000 then .ok (a + b) else .error .overflow

end QuillImage

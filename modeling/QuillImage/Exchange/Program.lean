import QuillImage.Exchange.Kind
import QuillImage.Exchange.Value
import QuillImage.Syntax.Program
import QuillImage.Text.Hex

/-!
# Exchange of programs

A program comes as four lists of nodes, one for each category. A node is a record
whose field `k` names its kind, and a reference is a position in the list of its
category. `readProgram` reads a program.
-/

namespace QuillImage.Exchange

open Syntax

/-! ## Fields -/

/-- A reference. -/
def readRef {c : Category} (v : Value) : Read (Ref c) := return ⟨← v.asNat⟩

section Fields

variable {c : Category} (v : Value) (key : String)

/-- A field with a reference. -/
def getRef : Read (Ref c) := do readRef (← v.field key)

/-- A field with a reference, or none. -/
def getRef? : Read (Option (Ref c)) := (v.field? key).mapM readRef

/-- A field with references. -/
def getRefs : Read (List (Ref c)) := v.getList key readRef

/-- A field with texts. -/
def getTexts : Read (List String) := v.getList key Value.asText

end Fields

/-! ## Nodes -/

/-- The relation of a comparison. -/
def getRelation (v : Value) : Read Relation := do ofNameIn relationNames (← v.getText "comp")

/-- A parameter mode. -/
def readMode (v : Value) : Read Mode := do ofNameIn modeNames (← v.asText)

/-- A field of a record type. -/
def readRecordField : Value → Read (RecordField Ref)
  | .list [name, type, .flag isPrivate] => return ⟨← name.asText, ← readRef type, isPrivate⟩
  | _ => throw "a record field"

/-- A type. -/
def readType (v : Value) : Read (Ty Ref) := do
  match ← v.getText "k" with
  | "Nothing" => return .nothing
  | "Boolean" => return .boolean
  | "Number" => return .number
  | "String" => return .string
  | "Bytes" => return .bytes
  | "Object" => return .object
  | "Function" =>
    return .function (← getRef v "returntype") (← v.getList "params" (·.asPair readMode readRef))
  | "Array" => return .array (← getRef v "of")
  | "Dictionary" => return .dictionary (← getRef v "of")
  | "Pointer" => return .pointer (← getRef v "of")
  | "FunctionPointer" => return .functionPointer (← getRef v "of")
  | "Record" => return .record (← v.getText "name") (← v.getList "fields" readRecordField)
  | "Enum" => return .enumeration (← v.getText "name") (← getTexts v "names")
  | "Choice" =>
    return .choice (← v.getText "name") (← v.getList "choices" (·.asPair Value.asText readRef))
  | _ => throw "a kind of type"

/-- A variable. -/
def readVariable (v : Value) : Read (Variable Ref) := do
  let name ← v.getText "name"
  let type ← getRef v "ty"
  match ← v.getText "k" with
  | "Predefined" => return .predefined name type
  | "Module" => return .module (← v.getText "module") name type
  | "Global" => return .globalVar name type
  | "Local" => return .localVar name type
  | "FunctionParameter" => return .parameter name type (← readMode (← v.field "mode"))
  | "Function" =>
    return .function ⟨name, type, ← getRefs v "params", ← getRefs v "locals", ← getRefs v "body"⟩
  | "PredefinedFunction" => return .predefinedFunction name type
  | "ModuleFunction" => return .moduleFunction (← v.getText "module") name type
  | "ExternalFunction" =>
    return .externalFunction name type (← v.getText "library") (← v.getText "symbol")
  | _ => throw "a kind of variable"

/-- A field with bytes as hexadecimal text. -/
def getBytes (v : Value) (key : String) : Read Bytes := do
  match Bytes.ofHex? (← v.getText key) with
  | some bytes => pure bytes
  | none => throw "hexadecimal digits"

/-- A handler of an expression. -/
def readExprCatch (v : Value) : Read (ExprCatch Ref) := do
  let handler : Handler Ref ←
    if (v.field? "gives").isSome then pure (.gives (← getRef v "gives"))
    else pure (.statements (← getRefs v "statements"))
  return ⟨← getTexts v "exceptions", ← getRef? v "name", handler⟩

/-- An expression of a kind that stands for an operator. -/
def readOperator? (v : Value) (kind : String) : Read (Option (Expr Ref)) := do
  if let some op := unaryNames.lookup kind then
    return some (.unary op (← getRef v "expr"))
  if let some op := binaryNames.lookup kind then
    return some (.binary op (← getRef v "left") (← getRef v "right"))
  if let some compared := comparisonNames.lookup kind then
    return some
      (.comparison compared (← getRelation v) (← getRef v "left") (← getRef v "right"))
  if let some indexed := indexNames.lookup kind then
    return some (.index indexed (← getRef v "base") (← getRef v "index"))
  if let some sliced := rangeNames.lookup kind then
    return some (.range sliced (← getRef v "base") (← getRef v "first")
      (← v.getFlag "first_from_end") (← getRef v "last") (← v.getFlag "last_from_end"))
  return none

/-- An expression. -/
def readExpr (v : Value) : Read (Expr Ref) := do
  let kind ← v.getText "k"
  if let some e ← readOperator? v kind then return e
  match kind with
  | "ConstantBoolean" => return .boolean (← v.getFlag "v")
  | "ConstantNumber" =>
    return .number (UInt64.ofNat (ofLittleEndian (← getBytes v "bits").reverse))
  | "ConstantString" => return .string (← v.getText "v")
  | "ConstantBytes" => return .bytes (← getBytes v "hex")
  | "ConstantEnum" => return .enumValue (← getRef v "ty") (← v.getDword "value")
  | "ConstantChoice" => return .choiceValue (← getRef v "ty") (← v.getDword "choice")
  | "ConstantNil" => return .nil (← getRef v "ty")
  | "ConstantNowhere" => return .nowhere (← getRef v "ty")
  | "ArrayLiteral" => return .arrayLiteral (← getRef v "ty") (← getRefs v "elements")
  | "DictionaryLiteral" =>
    return .dictionaryLiteral (← getRef v "ty")
      (← v.getList "entries" (·.asPair Value.asText readRef))
  | "RecordLiteral" => return .recordLiteral (← getRef v "ty") (← getRefs v "values")
  | "NewRecord" => return .newRecord (← getRef v "ty") (← getRef? v "value")
  | "TypeTest" => return .typeTest (← getRef v "expr") (← getRef v "target")
  | "Conditional" =>
    return .conditional (← getRef v "condition") (← getRef v "left") (← getRef v "right")
  | "Try" => return .trap (← getRef v "expr") (← v.getList "catches" readExprCatch)
  | "ChainedComparison" => return .chained (← getRefs v "exprs")
  | "RecordReferenceField" =>
    return .field true (← getRef v "base") (← v.getText "field") (← v.getNat "index")
  | "RecordValueField" =>
    return .field false (← getRef v "base") (← v.getText "field") (← v.getNat "index")
  | "Variable" => return .var (← getRef v "var")
  | "FunctionCall" => return .call (← getRef v "func") (← getRefs v "args")
  | _ => throw "a kind of expression"

/-- A condition of a case statement. -/
def readWhen (v : Value) : Read (When Ref) := do
  match ← v.getText "k" with
  | "Equals" => return .equals (← getRef v "expr")
  | "Compare" => return .compare (← getRelation v) (← getRef v "expr")
  | "Range" => return .range (← getRef v "low") (← getRef v "high")
  | _ => throw "a kind of condition"

/-- A clause of a conditional statement. -/
def readIfClause (v : Value) : Read (IfClause Ref) :=
  return ⟨← getRef v "condition", ← getRefs v "statements"⟩

/-- A clause of a case statement. -/
def readCaseClause (v : Value) : Read (CaseClause Ref) :=
  return ⟨← v.getList "conditions" readWhen, ← getRefs v "statements"⟩

/-- A handler of a statement. -/
def readStmtCatch (v : Value) : Read (StmtCatch Ref) :=
  return ⟨← getTexts v "exceptions", ← getRef? v "name", ← getRefs v "statements"⟩

/-- A statement. -/
def readStmt (v : Value) : Read (Stmt Ref) := do
  let id ← v.getNat "loop_id"
  match ← v.getText "k" with
  | "Null" => return .null
  | "Assert" => return .assertion (← getRef v "condition") (← v.getText "message")
  | "Assignment" => return .assignment (← getRefs v "targets") (← getRef v "value")
  | "Expression" => return .expression (← getRef v "expr")
  | "Return" => return .result (← getRef? v "value")
  | "Exit" => return .exit id
  | "Next" => return .next id
  | "Raise" => return .raise (← v.getText "exception") (← getRef? v "info")
  | "Reset" => return .reset (← getRefs v "targets")
  | "Increment" => return .increment (← getRef v "target") (← (← v.field "delta").asInt)
  | "If" => return .conditional (← v.getList "clauses" readIfClause) (← getRefs v "else")
  | "Case" =>
    return .selection (← getRef v "expr") (← v.getList "clauses" readCaseClause)
      (← getRefs v "else")
  | "Loop" => return .loop id (← getRefs v "body")
  | "While" => return .whileLoop id (← getRef v "condition") (← getRefs v "body")
  | "Repeat" => return .repeatLoop id (← getRef v "condition") (← getRefs v "body")
  | "For" =>
    return .forLoop id (← getRef v "var") (← getRef v "start") (← getRef v "end")
      (← getRef v "step") (← getRefs v "body")
  | "ForEach" =>
    return .forEach id (← getRef v "var") (← getRef? v "index") (← getRef v "array")
      (← getRefs v "body")
  | "Try" => return .trap (← getRefs v "body") (← v.getList "catches" readStmtCatch)
  | "Block" => return .block (← getRefs v "body")
  | _ => throw "a kind of statement"

/-- A program. -/
def readProgram (v : Value) : Read Program := do
  let types ← v.getList "types" readType
  let vars ← v.getList "vars" readVariable
  let exprs ← v.getList "exprs" readExpr
  let stmts ← v.getList "stmts" readStmt
  return {
    sourcePath := ← v.textOr "source_path" "main.quill"
    moduleName := ← v.textOr "module_name" "main"
    nodes := ⟨types.toArray, vars.toArray, exprs.toArray, stmts.toArray⟩
    functions := ← getRefs v "functions"
    statements := ← getRefs v "statements" }

end QuillImage.Exchange

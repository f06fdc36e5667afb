import QuillImage.Exchange.Kind
import QuillImage.Exchange.Value
import QuillImage.Lowering
import QuillImage.Syntax.Describe
import QuillImage.Text.Hex

/-!
# Exchange of arenas

Lowered nodes are written in the form in which programs are read, with handles in
place of references. A lowered node also tells the name of its construct and its
origin. `writeArenas` writes the arenas.
-/

namespace QuillImage.Exchange

open Syntax

/-- The name of a kind with the fields of a node. -/
abbrev NodeFields := String × List (String × Value)

/-- A handle. -/
def writeHandle {c : Category} (h : Handle c) : Value := .nat h.index

/-- Handles. -/
def writeHandles {c : Category} (hs : List (Handle c)) : Value := .list (hs.map writeHandle)

/-- A handle, or none. -/
def writeHandle? {c : Category} (h : Option (Handle c)) : Value := .option writeHandle h

/-- A handle with a name. -/
def writeNamed {c : Category} (x : String × Handle c) : Value :=
  .list [.text x.1, writeHandle x.2]

/-- A relation. -/
def writeRelation (r : Relation) : Value := .text (nameIn relationNames r)

/-- A parameter mode. -/
def writeMode (m : Mode) : Value := .text (nameIn modeNames m)

/-- A type. -/
def typeFields : Ty Handle → NodeFields
  | .nothing => ("Nothing", [])
  | .boolean => ("Boolean", [])
  | .number => ("Number", [])
  | .string => ("String", [])
  | .bytes => ("Bytes", [])
  | .object => ("Object", [])
  | .function result params =>
    ("Function", [("returntype", writeHandle result),
      ("params", .list (params.map fun p => .list [writeMode p.1, writeHandle p.2]))])
  | .array t => ("Array", [("of", writeHandle t)])
  | .dictionary t => ("Dictionary", [("of", writeHandle t)])
  | .pointer t => ("Pointer", [("of", writeHandle t)])
  | .functionPointer t => ("FunctionPointer", [("of", writeHandle t)])
  | .record name fields =>
    ("Record", [("name", .text name),
      ("fields", .list (fields.map fun f =>
        .list [.text f.name, writeHandle f.type, .flag f.isPrivate]))])
  | .enumeration name names => ("Enum", [("name", .text name), ("names", .texts names)])
  | .choice name choices =>
    ("Choice", [("name", .text name), ("choices", .list (choices.map writeNamed))])

/-- A variable. -/
def variableFields (v : Variable Handle) : NodeFields :=
  let (kind, fields) : NodeFields := match v with
    | .predefined .. => ("Predefined", [])
    | .module owner _ _ => ("Module", [("module", .text owner)])
    | .globalVar .. => ("Global", [])
    | .localVar .. => ("Local", [])
    | .parameter _ _ mode => ("FunctionParameter", [("mode", writeMode mode)])
    | .function f =>
      ("Function", [("params", writeHandles f.params), ("locals", writeHandles f.locals),
        ("body", writeHandles f.body)])
    | .predefinedFunction .. => ("PredefinedFunction", [])
    | .moduleFunction owner _ _ => ("ModuleFunction", [("module", .text owner)])
    | .externalFunction _ _ library symbol =>
      ("ExternalFunction", [("library", .text library), ("symbol", .text symbol)])
  (kind, ("name", .text v.name) :: ("ty", writeHandle v.type) :: fields)

/-- A handler of an expression. -/
def writeExprCatch (k : ExprCatch Handle) : Value :=
  .record [("exceptions", .texts k.exceptions), ("name", writeHandle? k.name),
    match k.handler with
    | .gives value => ("gives", writeHandle value)
    | .statements body => ("statements", writeHandles body)]

/-- An expression. -/
def exprFields : Expr Handle → NodeFields
  | .boolean value => ("ConstantBoolean", [("v", .flag value)])
  | .number bits => ("ConstantNumber", [("bits", .text (Text.hexWord bits))])
  | .string value => ("ConstantString", [("v", .text value)])
  | .bytes value => ("ConstantBytes", [("hex", .text (value.toHex))])
  | .enumValue t value => ("ConstantEnum", [("ty", writeHandle t), ("value", .nat value.toNat)])
  | .choiceValue t choice =>
    ("ConstantChoice", [("ty", writeHandle t), ("choice", .nat choice.toNat)])
  | .nil t => ("ConstantNil", [("ty", writeHandle t)])
  | .nowhere t => ("ConstantNowhere", [("ty", writeHandle t)])
  | .arrayLiteral t elements =>
    ("ArrayLiteral", [("ty", writeHandle t), ("elements", writeHandles elements)])
  | .dictionaryLiteral t entries =>
    ("DictionaryLiteral", [("ty", writeHandle t), ("entries", .list (entries.map writeNamed))])
  | .recordLiteral t values =>
    ("RecordLiteral", [("ty", writeHandle t), ("values", writeHandles values)])
  | .newRecord t value => ("NewRecord", [("ty", writeHandle t), ("value", writeHandle? value)])
  | .typeTest operand target =>
    ("TypeTest", [("expr", writeHandle operand), ("target", writeHandle target)])
  | .unary op operand => (nameIn unaryNames op, [("expr", writeHandle operand)])
  | .conditional condition left right =>
    ("Conditional", [("condition", writeHandle condition), ("left", writeHandle left),
      ("right", writeHandle right)])
  | .trap operand catches =>
    ("Try", [("expr", writeHandle operand), ("catches", .list (catches.map writeExprCatch))])
  | .binary op left right =>
    (nameIn binaryNames op, [("left", writeHandle left), ("right", writeHandle right)])
  | .chained comparisons => ("ChainedComparison", [("exprs", writeHandles comparisons)])
  | .comparison compared relation left right =>
    (nameIn comparisonNames compared, [("comp", writeRelation relation),
      ("left", writeHandle left), ("right", writeHandle right)])
  | .index indexed base position =>
    (nameIn indexNames indexed, [("base", writeHandle base), ("index", writeHandle position)])
  | .range sliced base first firstFromEnd last lastFromEnd =>
    (nameIn rangeNames sliced, [("base", writeHandle base), ("first", writeHandle first),
      ("first_from_end", .flag firstFromEnd), ("last", writeHandle last),
      ("last_from_end", .flag lastFromEnd)])
  | .field asReference base name position =>
    (if asReference then "RecordReferenceField" else "RecordValueField",
      [("base", writeHandle base), ("field", .text name), ("index", .nat position)])
  | .var v => ("Variable", [("var", writeHandle v)])
  | .call callee args =>
    ("FunctionCall", [("func", writeHandle callee), ("args", writeHandles args)])

/-- A condition of a case statement. -/
def writeWhen : When Handle → Value
  | .equals value => .record [("k", .text "Equals"), ("expr", writeHandle value)]
  | .compare relation value =>
    .record [("k", .text "Compare"), ("comp", writeRelation relation), ("expr", writeHandle value)]
  | .range low high =>
    .record [("k", .text "Range"), ("low", writeHandle low), ("high", writeHandle high)]

/-- A clause of a conditional statement. -/
def writeIfClause (k : IfClause Handle) : Value :=
  .record [("condition", writeHandle k.condition), ("statements", writeHandles k.statements)]

/-- A clause of a case statement. -/
def writeCaseClause (k : CaseClause Handle) : Value :=
  .record [("conditions", .list (k.conditions.map writeWhen)),
    ("statements", writeHandles k.statements)]

/-- A handler of a statement. -/
def writeStmtCatch (k : StmtCatch Handle) : Value :=
  .record [("exceptions", .texts k.exceptions), ("name", writeHandle? k.name),
    ("statements", writeHandles k.statements)]

/-- A statement. -/
def stmtFields : Stmt Handle → NodeFields
  | .null => ("Null", [])
  | .assertion condition message =>
    ("Assert", [("condition", writeHandle condition), ("message", .text message)])
  | .assignment targets value =>
    ("Assignment", [("targets", writeHandles targets), ("value", writeHandle value)])
  | .expression e => ("Expression", [("expr", writeHandle e)])
  | .result value => ("Return", [("value", writeHandle? value)])
  | .exit id => ("Exit", [("loop_id", .nat id)])
  | .next id => ("Next", [("loop_id", .nat id)])
  | .raise exception info =>
    ("Raise", [("exception", .text exception), ("info", writeHandle? info)])
  | .reset targets => ("Reset", [("targets", writeHandles targets)])
  | .increment target delta =>
    ("Increment", [("target", writeHandle target), ("delta", .number delta)])
  | .conditional clauses otherwise =>
    ("If", [("clauses", .list (clauses.map writeIfClause)), ("else", writeHandles otherwise)])
  | .selection subject clauses otherwise =>
    ("Case", [("expr", writeHandle subject), ("clauses", .list (clauses.map writeCaseClause)),
      ("else", writeHandles otherwise)])
  | .loop id body => ("Loop", [("loop_id", .nat id), ("body", writeHandles body)])
  | .whileLoop id condition body =>
    ("While", [("loop_id", .nat id), ("condition", writeHandle condition),
      ("body", writeHandles body)])
  | .repeatLoop id condition body =>
    ("Repeat", [("loop_id", .nat id), ("condition", writeHandle condition),
      ("body", writeHandles body)])
  | .forLoop id v first last step body =>
    ("For", [("loop_id", .nat id), ("var", writeHandle v), ("start", writeHandle first),
      ("end", writeHandle last), ("step", writeHandle step), ("body", writeHandles body)])
  | .forEach id v position array body =>
    ("ForEach", [("loop_id", .nat id), ("var", writeHandle v), ("index", writeHandle? position),
      ("array", writeHandle array), ("body", writeHandles body)])
  | .trap body catches =>
    ("Try", [("body", writeHandles body), ("catches", .list (catches.map writeStmtCatch))])
  | .block body => ("Block", [("body", writeHandles body)])

/-- A node. -/
def nodeFields : {c : Category} → Node c Handle → NodeFields
  | .type, node => typeFields node
  | .var, node => variableFields node
  | .expr, node => exprFields node
  | .stmt, node => stmtFields node

/-- A lowered node. -/
def writeLowered {c : Category} (e : Lowered c) : Value :=
  let (kind, fields) := nodeFields e.node
  .record (("k", .text kind) :: ("desc", .text e.node.describe) ::
    ("origin", .nat e.origin.index) :: fields)

/-- The nodes of an arena. -/
def writeArena (a : Arenas) (c : Category) : Value :=
  .list ((PerCategory.get a c).toList.map writeLowered)

/-- The nodes of all arenas. -/
def writeArenas (a : Arenas) : Value :=
  .record [("types", writeArena a .type), ("vars", writeArena a .var),
    ("exprs", writeArena a .expr), ("stmts", writeArena a .stmt)]

end QuillImage.Exchange

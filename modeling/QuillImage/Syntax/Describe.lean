import QuillImage.Syntax.Node
import QuillImage.Text.Quoted

/-!
# Names of constructs

Failures name the construct they are about. `describe` gives that name for a node
of any category, whatever its references are.
-/

namespace QuillImage.Syntax

variable {R : Category → Type}

/-- The name of a type. -/
def Ty.describe : Ty R → String
  | nothing => "Nothing"
  | boolean => "Boolean"
  | number => "Number"
  | string => "String"
  | bytes => "Bytes"
  | object => "Object"
  | function .. => "function type"
  | array _ => "Array"
  | dictionary _ => "Dictionary"
  | record name _ => "record " ++ name
  | pointer _ => "pointer type"
  | functionPointer _ => "function pointer type"
  | enumeration name _ => "enum " ++ name
  | choice name _ => "choice " ++ name

/-- A function by its name and the numbers of its parameters and statements. -/
def Function.summary (f : Function R) : String :=
  "Function \x7b name: " ++ Text.quoted f.name ++ ", params: " ++ toString f.params.length ++
    ", statements: " ++ toString f.body.length ++ " \x7d"

namespace Variable

/-- The type of a variable. -/
def type : Variable R → R .type
  | predefined _ type | module _ _ type | globalVar _ type | localVar _ type
  | parameter _ type _ | predefinedFunction _ type | moduleFunction _ _ type
  | externalFunction _ type _ _ => type
  | function f => f.type

/-- The name by which the program refers to a variable. -/
def name : Variable R → String
  | predefined name _ | module _ name _ | globalVar name _ | localVar name _
  | parameter name _ _ | predefinedFunction name _ | moduleFunction _ name _
  | externalFunction name _ _ _ => name
  | function f => f.name

/-- The name of a variable in messages. -/
def describe : Variable R → String
  | predefined name _ => "predefined variable " ++ name
  | module owner name _ => "module variable " ++ owner ++ "." ++ name
  | globalVar name _ => "global variable " ++ name
  | localVar name _ => "local variable " ++ name
  | parameter name _ _ => "parameter " ++ name
  | function f => "function " ++ f.name
  | predefinedFunction name _ => "predefined function " ++ name
  | moduleFunction owner name _ => "module function " ++ owner ++ "." ++ name
  | externalFunction name _ library _ => "external function " ++ name ++ " from " ++ library

/-- Whether a variable is a function. -/
def isFunction : Variable R → Bool
  | function _ | predefinedFunction .. | moduleFunction .. | externalFunction .. => true
  | predefined .. | module .. | globalVar .. | localVar .. | parameter .. => false

/-- The summary of a variable that is a function of the program. -/
def summary? : Variable R → Option String
  | function f => some f.summary
  | _ => none

end Variable

/-- The sign of a relation. -/
def Relation.symbol : Relation → String
  | equal => "="
  | notEqual => "<>"
  | less => "<"
  | greater => ">"
  | lessEqual => "<="
  | greaterEqual => ">="

/-- The name of what is compared. -/
def Compared.describe : Compared → String
  | boolean => "boolean"
  | numeric => "numeric"
  | enumeration => "enum"
  | string => "string"
  | bytes => "bytes"
  | array => "array"
  | dictionary => "dictionary"
  | record => "record"
  | pointer => "pointer"
  | functionPointer => "function pointer"

/-- The name of an operator with one operand. -/
def UnaryOp.describe : UnaryOp → String
  | minus => "unary minus"
  | not => "logical NOT"
  | validPointer => "VALID pointer test"
  | dereference => "pointer dereference"

/-- The name of an operator with two operands. -/
def BinaryOp.describe : BinaryOp → String
  | disjunction => "logical OR"
  | conjunction => "logical AND"
  | arrayIn => "array IN"
  | dictionaryIn => "dictionary IN"
  | addition => "numeric addition"
  | subtraction => "numeric subtraction"
  | multiplication => "numeric multiplication"
  | division => "numeric division"
  | modulo => "numeric modulo"
  | exponentiation => "numeric exponentiation"

/-- The name of what an index selects. -/
def Indexed.describe : Indexed → String
  | arrayReference => "array element reference"
  | arrayValue => "array element"
  | dictionaryReference => "dictionary entry reference"
  | dictionaryValue => "dictionary entry"

/-- The name of a range. -/
def Sliced.describe : Sliced → String
  | string => "string slice"
  | bytes => "bytes slice"
  | array => "array slice"

/-- The name of an expression. -/
def Expr.describe : Expr R → String
  | boolean _ => "boolean constant"
  | number _ => "number constant"
  | string _ => "string constant"
  | bytes _ => "bytes constant"
  | enumValue .. => "enum constant"
  | choiceValue .. => "choice constant"
  | nil _ => "NIL constant"
  | nowhere _ => "NOWHERE constant"
  | arrayLiteral .. => "array literal"
  | dictionaryLiteral .. => "dictionary literal"
  | recordLiteral .. => "record literal"
  | newRecord .. => "NEW record"
  | typeTest .. => "ISA type test"
  | unary op _ => op.describe
  | conditional .. => "conditional expression"
  | trap .. => "TRY expression"
  | binary op _ _ => op.describe
  | chained _ => "chained comparison"
  | comparison compared relation _ _ =>
    compared.describe ++ " comparison (" ++ relation.symbol ++ ")"
  | index indexed _ _ => indexed.describe
  | range sliced .. => sliced.describe
  | field asReference _ name _ => (if asReference then "reference to field " else "field ") ++ name
  | var _ => "variable reference"
  | call .. => "function call"

/-- The name of a statement. -/
def Stmt.describe : Stmt R → String
  | null => "null statement"
  | assertion .. => "ASSERT statement"
  | assignment .. => "assignment"
  | expression _ => "expression statement"
  | result _ => "RETURN statement"
  | exit id => "EXIT from loop " ++ toString id
  | next id => "NEXT in loop " ++ toString id
  | raise exception _ => "RAISE " ++ exception
  | reset _ => "reset to default"
  | increment .. => "INC/DEC statement"
  | conditional .. => "IF statement"
  | selection .. => "CASE statement"
  | loop .. => "LOOP statement"
  | whileLoop .. => "WHILE loop"
  | repeatLoop .. => "REPEAT loop"
  | forLoop .. => "FOR loop"
  | forEach .. => "FOREACH loop"
  | trap .. => "TRY statement"
  | block _ => "block"

/-- The name of a node. -/
def Node.describe : {c : Category} → Node c R → String
  | .type, node => Ty.describe node
  | .var, node => Variable.describe node
  | .expr, node => Expr.describe node
  | .stmt, node => Stmt.describe node

end QuillImage.Syntax

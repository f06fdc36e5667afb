import QuillImage.Bytes
import QuillImage.Syntax.Category

/-!
# Nodes

The types, variables, expressions and statements of the language. A node refers
to its children by references of type `R c`, one type for each category `c`. The
program has `R = Ref`; lowering keeps the shape of a node and replaces the
references by handles. `Node.traverse` visits the references of a node in the
order in which its children are lowered.
-/

namespace QuillImage.Syntax

variable {R R' : Category → Type}

/-! ## Types -/

/-- How a parameter passes its value. -/
inductive Mode where
  | input
  | inOut
  | output
  deriving DecidableEq, Repr

/-- A field of a record type. -/
structure RecordField (R : Category → Type) where
  name : String
  type : R .type
  isPrivate : Bool

/-- A type. -/
inductive Ty (R : Category → Type) where
  | nothing
  | boolean
  | number
  | string
  | bytes
  | object
  | function (result : R .type) (params : List (Mode × R .type))
  | array (element : R .type)
  | dictionary (element : R .type)
  | record (name : String) (fields : List (RecordField R))
  | pointer (target : R .type)
  | functionPointer (target : R .type)
  | enumeration (name : String) (names : List String)
  | choice (name : String) (choices : List (String × R .type))

/-! ## Variables -/

/-- A function of the program. -/
structure Function (R : Category → Type) where
  name : String
  type : R .type
  params : List (R .var)
  /-- The variables declared anywhere in the body. -/
  locals : List (R .var)
  /-- The statements, none for a function that has no body yet. -/
  body : List (R .stmt)

/-- A variable, or a function, which is named in the same way. -/
inductive Variable (R : Category → Type) where
  | predefined (name : String) (type : R .type)
  | module (owner name : String) (type : R .type)
  | globalVar (name : String) (type : R .type)
  | localVar (name : String) (type : R .type)
  | parameter (name : String) (type : R .type) (mode : Mode)
  | function (f : Function R)
  | predefinedFunction (name : String) (type : R .type)
  | moduleFunction (owner name : String) (type : R .type)
  | externalFunction (name : String) (type : R .type) (library symbol : String)

/-! ## Expressions -/

/-- A relation that a comparison tests. -/
inductive Relation where
  | equal
  | notEqual
  | less
  | greater
  | lessEqual
  | greaterEqual
  deriving DecidableEq, Repr

/-- What a comparison compares. -/
inductive Compared where
  | boolean
  | numeric
  | enumeration
  | string
  | bytes
  | array
  | dictionary
  | record
  | pointer
  | functionPointer
  deriving DecidableEq, Repr

/-- Operators with one operand. -/
inductive UnaryOp where
  | minus
  | not
  | validPointer
  | dereference
  deriving DecidableEq, Repr

/-- Operators with two operands. -/
inductive BinaryOp where
  | disjunction
  | conjunction
  | arrayIn
  | dictionaryIn
  | addition
  | subtraction
  | multiplication
  | division
  | modulo
  | exponentiation
  deriving DecidableEq, Repr

/-- What an index selects. -/
inductive Indexed where
  | arrayReference
  | arrayValue
  | dictionaryReference
  | dictionaryValue
  deriving DecidableEq, Repr

/-- What a range is cut from. -/
inductive Sliced where
  | string
  | bytes
  | array
  deriving DecidableEq, Repr

/-- What happens when an expression is trapped. -/
inductive Handler (R : Category → Type) where
  | gives (value : R .expr)
  | statements (body : List (R .stmt))

/-- A handler of some exceptions of an expression. -/
structure ExprCatch (R : Category → Type) where
  exceptions : List String
  /-- The variable that holds the exception. -/
  name : Option (R .var)
  handler : Handler R

/-- An expression. -/
inductive Expr (R : Category → Type) where
  | boolean (value : Bool)
  /-- A number by the bits of its double-precision form. -/
  | number (bits : UInt64)
  | string (value : String)
  | bytes (value : Bytes)
  | enumValue (type : R .type) (value : UInt32)
  | choiceValue (type : R .type) (choice : UInt32)
  | nil (type : R .type)
  | nowhere (type : R .type)
  | arrayLiteral (type : R .type) (elements : List (R .expr))
  | dictionaryLiteral (type : R .type) (entries : List (String × R .expr))
  | recordLiteral (type : R .type) (values : List (R .expr))
  | newRecord (type : R .type) (value : Option (R .expr))
  | typeTest (operand : R .expr) (target : R .type)
  | unary (op : UnaryOp) (operand : R .expr)
  | conditional (condition left right : R .expr)
  | trap (operand : R .expr) (catches : List (ExprCatch R))
  | binary (op : BinaryOp) (left right : R .expr)
  /-- Comparisons that all have to hold. -/
  | chained (comparisons : List (R .expr))
  | comparison (compared : Compared) (relation : Relation) (left right : R .expr)
  | index (indexed : Indexed) (base position : R .expr)
  | range (sliced : Sliced) (base first : R .expr) (firstFromEnd : Bool) (last : R .expr)
      (lastFromEnd : Bool)
  /-- A field of a record, by name and by position. -/
  | field (asReference : Bool) (base : R .expr) (name : String) (position : Nat)
  | var (v : R .var)
  | call (callee : R .expr) (args : List (R .expr))

/-! ## Statements -/

/-- A condition with the statements it guards. -/
structure IfClause (R : Category → Type) where
  condition : R .expr
  statements : List (R .stmt)

/-- A condition on the value of a case statement. -/
inductive When (R : Category → Type) where
  | equals (value : R .expr)
  | compare (relation : Relation) (value : R .expr)
  | range (low high : R .expr)

/-- Conditions with the statements they guard. -/
structure CaseClause (R : Category → Type) where
  conditions : List (When R)
  statements : List (R .stmt)

/-- A handler of some exceptions of a block. -/
structure StmtCatch (R : Category → Type) where
  exceptions : List String
  /-- The variable that holds the exception. -/
  name : Option (R .var)
  statements : List (R .stmt)

/-- A statement. Loops have a number, by which statements inside leave them. -/
inductive Stmt (R : Category → Type) where
  | null
  | assertion (condition : R .expr) (message : String)
  | assignment (targets : List (R .expr)) (value : R .expr)
  | expression (e : R .expr)
  | result (value : Option (R .expr))
  | exit (id : Nat)
  | next (id : Nat)
  | raise (exception : String) (info : Option (R .expr))
  | reset (targets : List (R .expr))
  | increment (target : R .expr) (delta : Int)
  | conditional (clauses : List (IfClause R)) (otherwise : List (R .stmt))
  | selection (subject : R .expr) (clauses : List (CaseClause R)) (otherwise : List (R .stmt))
  | loop (id : Nat) (body : List (R .stmt))
  | whileLoop (id : Nat) (condition : R .expr) (body : List (R .stmt))
  | repeatLoop (id : Nat) (condition : R .expr) (body : List (R .stmt))
  | forLoop (id : Nat) (var : R .var) (first last step : R .expr) (body : List (R .stmt))
  | forEach (id : Nat) (var : R .var) (index : Option (R .var)) (array : R .expr)
      (body : List (R .stmt))
  | trap (body : List (R .stmt)) (catches : List (StmtCatch R))
  | block (body : List (R .stmt))

/-! ## Nodes of a category -/

/-- A node of a category. -/
abbrev Node : Category → (Category → Type) → Type
  | .type, R => Ty R
  | .var, R => Variable R
  | .expr, R => Expr R
  | .stmt, R => Stmt R

/-! ## Traversal -/

section Traverse

variable {m : Type → Type} [Monad m] (f : (c : Category) → R c → m (R' c))

/-- Visits the references of a type: the result of a function before its
parameters, fields and choices in their order. -/
def Ty.traverse : Ty R → m (Ty R')
  | nothing => return nothing
  | boolean => return boolean
  | number => return number
  | string => return string
  | bytes => return bytes
  | object => return object
  | function result params => do
    let result ← f .type result
    return function result (← params.mapM fun (mode, type) => return (mode, ← f .type type))
  | array element => return array (← f .type element)
  | dictionary element => return dictionary (← f .type element)
  | record name fields =>
    return record name (← fields.mapM fun field =>
      return ⟨field.name, ← f .type field.type, field.isPrivate⟩)
  | pointer target => return pointer (← f .type target)
  | functionPointer target => return functionPointer (← f .type target)
  | enumeration name names => return enumeration name names
  | choice name choices =>
    return choice name (← choices.mapM fun (name, type) => return (name, ← f .type type))

/-- Visits the references of a variable. Of a function: its type, parameters,
local variables and body. -/
def Variable.traverse : Variable R → m (Variable R')
  | predefined name type => return predefined name (← f .type type)
  | module owner name type => return module owner name (← f .type type)
  | globalVar name type => return globalVar name (← f .type type)
  | localVar name type => return localVar name (← f .type type)
  | parameter name type mode => return parameter name (← f .type type) mode
  | function fn => do
    let type ← f .type fn.type
    let params ← fn.params.mapM (f .var)
    let locals ← fn.locals.mapM (f .var)
    let body ← fn.body.mapM (f .stmt)
    return function ⟨fn.name, type, params, locals, body⟩
  | predefinedFunction name type => return predefinedFunction name (← f .type type)
  | moduleFunction owner name type => return moduleFunction owner name (← f .type type)
  | externalFunction name type library symbol =>
    return externalFunction name (← f .type type) library symbol

/-- Visits the references of a handler. -/
def Handler.traverse : Handler R → m (Handler R')
  | gives value => return gives (← f .expr value)
  | statements body => return statements (← body.mapM (f .stmt))

/-- Visits the references of a handler of exceptions: its variable first. -/
def ExprCatch.traverse (k : ExprCatch R) : m (ExprCatch R') := do
  let name ← k.name.mapM (f .var)
  return ⟨k.exceptions, name, ← k.handler.traverse f⟩

/-- Visits the references of an expression: a type before the operands, except in
a type test, and operands from left to right. -/
def Expr.traverse : Expr R → m (Expr R')
  | boolean value => return boolean value
  | number bits => return number bits
  | string value => return string value
  | bytes value => return bytes value
  | enumValue type value => return enumValue (← f .type type) value
  | choiceValue type choice => return choiceValue (← f .type type) choice
  | nil type => return nil (← f .type type)
  | nowhere type => return nowhere (← f .type type)
  | arrayLiteral type elements => do
    let type ← f .type type
    return arrayLiteral type (← elements.mapM (f .expr))
  | dictionaryLiteral type entries => do
    let type ← f .type type
    return dictionaryLiteral type
      (← entries.mapM fun (key, value) => return (key, ← f .expr value))
  | recordLiteral type values => do
    let type ← f .type type
    return recordLiteral type (← values.mapM (f .expr))
  | newRecord type value => do
    let type ← f .type type
    return newRecord type (← value.mapM (f .expr))
  | typeTest operand target => do
    let operand ← f .expr operand
    return typeTest operand (← f .type target)
  | unary op operand => return unary op (← f .expr operand)
  | conditional condition left right => do
    let condition ← f .expr condition
    let left ← f .expr left
    return conditional condition left (← f .expr right)
  | trap operand catches => do
    let operand ← f .expr operand
    return trap operand (← catches.mapM (ExprCatch.traverse f))
  | binary op left right => do
    let left ← f .expr left
    return binary op left (← f .expr right)
  | chained comparisons => return chained (← comparisons.mapM (f .expr))
  | comparison compared relation left right => do
    let left ← f .expr left
    return comparison compared relation left (← f .expr right)
  | index indexed base position => do
    let base ← f .expr base
    return index indexed base (← f .expr position)
  | range sliced base first firstFromEnd last lastFromEnd => do
    let base ← f .expr base
    let first ← f .expr first
    return range sliced base first firstFromEnd (← f .expr last) lastFromEnd
  | field asReference base name position =>
    return field asReference (← f .expr base) name position
  | var v => return var (← f .var v)
  | call callee args => do
    let callee ← f .expr callee
    return call callee (← args.mapM (f .expr))

/-- Visits the references of a condition. -/
def When.traverse : When R → m (When R')
  | equals value => return equals (← f .expr value)
  | compare relation value => return compare relation (← f .expr value)
  | range low high => do
    let low ← f .expr low
    return range low (← f .expr high)

/-- Visits the references of a clause: the condition before the statements. -/
def IfClause.traverse (k : IfClause R) : m (IfClause R') := do
  let condition ← f .expr k.condition
  return ⟨condition, ← k.statements.mapM (f .stmt)⟩

/-- Visits the references of a clause: the conditions before the statements. -/
def CaseClause.traverse (k : CaseClause R) : m (CaseClause R') := do
  let conditions ← k.conditions.mapM (When.traverse f)
  return ⟨conditions, ← k.statements.mapM (f .stmt)⟩

/-- Visits the references of a handler of exceptions: its variable first. -/
def StmtCatch.traverse (k : StmtCatch R) : m (StmtCatch R') := do
  let name ← k.name.mapM (f .var)
  return ⟨k.exceptions, name, ← k.statements.mapM (f .stmt)⟩

/-- Visits the references of a statement in the order in which they are written,
except that the condition of a repeat loop comes before its body. -/
def Stmt.traverse : Stmt R → m (Stmt R')
  | null => return null
  | assertion condition message => return assertion (← f .expr condition) message
  | assignment targets value => do
    let targets ← targets.mapM (f .expr)
    return assignment targets (← f .expr value)
  | expression e => return expression (← f .expr e)
  | result value => return result (← value.mapM (f .expr))
  | exit id => return exit id
  | next id => return next id
  | raise exception info => return raise exception (← info.mapM (f .expr))
  | reset targets => return reset (← targets.mapM (f .expr))
  | increment target delta => return increment (← f .expr target) delta
  | conditional clauses otherwise => do
    let clauses ← clauses.mapM (IfClause.traverse f)
    return conditional clauses (← otherwise.mapM (f .stmt))
  | selection subject clauses otherwise => do
    let subject ← f .expr subject
    let clauses ← clauses.mapM (CaseClause.traverse f)
    return selection subject clauses (← otherwise.mapM (f .stmt))
  | loop id body => return loop id (← body.mapM (f .stmt))
  | whileLoop id condition body => do
    let condition ← f .expr condition
    return whileLoop id condition (← body.mapM (f .stmt))
  | repeatLoop id condition body => do
    let condition ← f .expr condition
    return repeatLoop id condition (← body.mapM (f .stmt))
  | forLoop id var first last step body => do
    let var ← f .var var
    let first ← f .expr first
    let last ← f .expr last
    let step ← f .expr step
    return forLoop id var first last step (← body.mapM (f .stmt))
  | forEach id var index array body => do
    let var ← f .var var
    let index ← index.mapM (f .var)
    let array ← f .expr array
    return forEach id var index array (← body.mapM (f .stmt))
  | trap body catches => do
    let body ← body.mapM (f .stmt)
    return trap body (← catches.mapM (StmtCatch.traverse f))
  | block body => return block (← body.mapM (f .stmt))

/-- Visits the references of a node. -/
def Node.traverse : {c : Category} → Node c R → m (Node c R')
  | .type, node => Ty.traverse f node
  | .var, node => Variable.traverse f node
  | .expr, node => Expr.traverse f node
  | .stmt, node => Stmt.traverse f node

end Traverse

/-! ## Bodies

A function is lowered without its body first, and the body is put in once the
function has a handle, so that the body can refer to it. -/

/-- The node without the body of a function. -/
def Node.withoutBody : {c : Category} → Node c R → Node c R
  | .var, .function f => .function { f with body := [] }
  | .var, v => v
  | .type, node | .expr, node | .stmt, node => node

/-- The body of a function; other nodes have none. -/
def Node.body : {c : Category} → Node c R → List (R .stmt)
  | .var, .function f => f.body
  | _, _ => []

/-- Puts in the body of a function; other nodes stay. -/
def Node.withBody (body : List (R .stmt)) : {c : Category} → Node c R → Node c R
  | .var, .function f => .function { f with body }
  | .var, v => v
  | .type, node | .expr, node | .stmt, node => node

end QuillImage.Syntax

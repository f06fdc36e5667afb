import QuillImage.Lowering
import QuillImage.Method.Body
import QuillImage.Syntax.Describe

/-!
# Generation

Generation walks lowered nodes and emits instructions into a method body. Nodes
that need an instruction of their own have none yet: they visit their operands in
evaluation order and then fail with the name of their construct, so that the
first such construct is the one reported. Null statements, blocks and the default
values of records need no instruction.

A node refers to operands with smaller handles, so a walk from a handle is not
nested deeper than the handle's index (`descend`). A walk that is, or that meets a
handle without a node, stops as `broken`.
-/

namespace QuillImage

open Syntax Method

namespace Generation

/-- Why a walk stops. -/
inductive Stop where
  | failure (f : Failure)
  /-- A handle names no node, or not a smaller one. -/
  | broken
  deriving DecidableEq, Repr

/-- A walk that emits into a method body. The body keeps what was emitted before
a stop. -/
abbrev Walk := ExceptT Stop (StateM Body)

/-- The failure of a construct that has no instructions. -/
def unimplemented (construct : String) : Walk Unit := throw (.failure (.unimplemented construct))

/-- The failure of a call of something else than a function. -/
def notCallable (construct : String) : Walk Unit := throw (.failure (.notCallable construct))

/-- The node of a handle. -/
def node (a : Arenas) {c : Category} (h : Handle c) : Walk (Node c Handle) :=
  match a.node? h with
  | some node => pure node
  | none => throw .broken

/-- A walk into a node, where `step` says what is done there and walks into nodes of the
same category. The number bounds how deeply they are nested. -/
def descendNested (a : Arenas) {c : Category}
    (step : (Handle c → Walk Unit) → Node c Handle → Walk Unit) : Nat → Handle c → Walk Unit
  | 0, _ => throw .broken
  | depth + 1, h => do step (descendNested a step depth) (← node a h)

/-- A walk into a node and from there into smaller ones. -/
def descend (a : Arenas) {c : Category}
    (step : (Handle c → Walk Unit) → Node c Handle → Walk Unit) (h : Handle c) : Walk Unit :=
  descendNested a step (h.index + 1) h

/-! ## Types and variables -/

/-- The zero value of a type, where `default` is that of the types it refers to. That of a
record is made of those of its fields. -/
def defaultWith (default : Handle .type → Walk Unit) : Ty Handle → Walk Unit
  | .record _ fields => fields.forM fun field => default field.type
  | type => unimplemented ("default value of " ++ type.describe)

/-- The zero value of a type. -/
def default (a : Arenas) : Handle .type → Walk Unit := descend a defaultWith

/-- A call of a value of a type. -/
def callType (value : Handle .expr → Walk Unit) (type : Ty Handle)
    (args : List (Handle .expr)) : Walk Unit :=
  match type with
  | .functionPointer _ => do
    args.forM value
    unimplemented "call through a function pointer"
  | type => notCallable ("value of type " ++ type.describe)

/-- The value of a variable. -/
def load (v : Variable Handle) : Walk Unit := unimplemented ("load of " ++ v.describe)

/-- An assignment to a variable. -/
def store (v : Variable Handle) : Walk Unit := unimplemented ("store to " ++ v.describe)

/-- A call of a variable. The arguments come first, from left to right. -/
def callVariable (a : Arenas) (value : Handle .expr → Walk Unit) (v : Variable Handle)
    (args : List (Handle .expr)) : Walk Unit := do
  if v.isFunction then
    args.forM value
    unimplemented ("call of " ++ v.describe)
  else
    match ← node a v.type with
    | .functionPointer f => do
      load v
      callType value (.functionPointer f) args
    | _ => notCallable v.describe

/-! ## Expressions -/

/-- The operands that an expression visits before its own construct, in
evaluation order. -/
def operands : Expr Handle → List (Handle .expr)
  | .boolean _ | .number _ | .string _ | .bytes _ | .enumValue .. | .choiceValue .. | .nil _
  | .nowhere _ | .var _ | .call .. => []
  | .arrayLiteral _ elements => elements
  | .recordLiteral _ values => values
  | .dictionaryLiteral _ entries => entries.map (·.2)
  | .newRecord _ value => value.toList
  | .typeTest operand _ | .unary _ operand | .trap operand _ | .field _ operand _ _ => [operand]
  | .conditional condition _ _ => [condition]
  | .chained comparisons => comparisons
  | .binary _ left right | .comparison _ _ left right => [left, right]
  | .index _ base index => [base, index]
  | .range _ base first _ last _ => [base, first, last]

/-- A call of the value of an expression. -/
def callWith (a : Arenas) (value : Handle .expr → Walk Unit) (h : Handle .expr)
    (args : List (Handle .expr)) : Walk Unit := do
  match ← node a h with
  | .var v => do callVariable a value (← node a v) args
  | e => do
    value h
    unimplemented ("indirect call through " ++ e.describe)

/-- The value of an expression, where `value` is that of its operands. -/
def valueWith (a : Arenas) (value : Handle .expr → Walk Unit) : Expr Handle → Walk Unit
  | .var v => do load (← node a v)
  | .call function args => callWith a value function args
  | .newRecord type none => do
    default a type
    unimplemented (Expr.newRecord type none : Expr Handle).describe
  | e => do
    (operands e).forM value
    unimplemented e.describe

/-- The value of an expression. -/
def value (a : Arenas) : Handle .expr → Walk Unit := descend a (valueWith a)

/-- A call of the value of an expression. -/
def callExpr (a : Arenas) (h : Handle .expr) (args : List (Handle .expr)) : Walk Unit :=
  callWith a (value a) h args

/-! ## Statements -/

/-- The variable of the first target that is one. -/
def firstVariable (a : Arenas) : List (Handle .expr) → Walk (Option (Handle .var))
  | [] => return none
  | target :: rest => do
    match ← node a target with
    | .var v => return some v
    | _ => firstVariable a rest

/-- The values that a condition compares with. -/
def whenOperands : When Handle → List (Handle .expr)
  | .equals e | .compare _ e => [e]
  | .range low high => [low, high]

/-- What a statement visits: an expression for its value, or a statement for its
effect. -/
inductive Part where
  | value (h : Handle .expr)
  | effect (h : Handle .stmt)

/-- What a statement visits before its own construct, in the order in which it is
written. Of an assignment that is the value only. -/
def parts : Stmt Handle → List Part
  | .null | .exit _ | .next _ => []
  | .expression e | .assertion e _ | .assignment _ e | .increment e _ => [.value e]
  | .result operand | .raise _ operand => operand.toList.map .value
  | .reset targets => targets.map .value
  | .conditional clauses otherwise =>
    clauses.flatMap (fun clause => .value clause.condition :: clause.statements.map .effect) ++
      otherwise.map .effect
  | .selection subject clauses otherwise =>
    .value subject :: clauses.flatMap (fun clause =>
      (clause.conditions.flatMap whenOperands).map .value ++ clause.statements.map .effect) ++
        otherwise.map .effect
  | .block body | .loop _ body => body.map .effect
  | .whileLoop _ condition body => .value condition :: body.map .effect
  | .repeatLoop _ condition body => body.map .effect ++ [.value condition]
  | .forLoop _ _ first last step body =>
    .value first :: .value last :: .value step :: body.map .effect
  | .forEach _ _ _ array body => .value array :: body.map .effect
  | .trap body catches =>
    body.map .effect ++ catches.flatMap fun handler => handler.statements.map .effect

/-- The construct of a statement, once its parts are visited. Null statements, blocks
and expressions need nothing of their own. An assignment stores to its first target that
is a variable. -/
def construct (a : Arenas) (stmt : Stmt Handle) : Walk Unit :=
  match stmt with
  | .null | .block _ | .expression _ => return ()
  | .assignment targets _ => do
    match ← firstVariable a targets with
    | some v => store (← node a v)
    | none => unimplemented stmt.describe
  | stmt => unimplemented stmt.describe

/-- A visit, where `execute` is the effect of a statement. -/
def visit (a : Arenas) (execute : Handle .stmt → Walk Unit) : Part → Walk Unit
  | .value h => value a h
  | .effect h => execute h

/-- The effect of a statement, where `execute` is that of the statements in it. -/
def executeWith (a : Arenas) (execute : Handle .stmt → Walk Unit) (stmt : Stmt Handle) :
    Walk Unit := do
  (parts stmt).forM (visit a execute)
  construct a stmt

/-- The effect of a statement. -/
def execute (a : Arenas) : Handle .stmt → Walk Unit := descend a (executeWith a)

end Generation

end QuillImage

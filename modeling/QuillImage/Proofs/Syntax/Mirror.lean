import Mathlib.Data.List.Forall2
import Mathlib.Data.Option.Defs
import Mathlib.Tactic
import QuillImage.Syntax.Node

/-!
# Nodes that mirror each other

`Node.Mirrors Q` relates two nodes that are built alike: they have the same
variant and the same names, numbers and flags, their lists have the same lengths
and their optional parts are both there or both missing, and the references at
the same place are related by `Q`. There is one rule for each variant.

`Node.refs` lists the references of a node in the order in which a traversal
visits them, the body of a function at the end. Those of nodes that mirror each other
are related one by one (`Node.Mirrors.refs`).
-/

namespace QuillImage.Syntax

variable {R R' : Category → Type}

/-! ## References -/

/-- A reference with its category. -/
abbrev AnyRef (R : Category → Type) := (c : Category) × R c

/-- References of one category. -/
def refsOf (c : Category) (rs : List (R c)) : List (AnyRef R) := rs.map fun r => ⟨c, r⟩

/-- The references of a type. -/
def Ty.refs : Ty R → List (AnyRef R)
  | nothing | boolean | number | string | bytes | object | enumeration _ _ => []
  | function result params => ⟨.type, result⟩ :: refsOf .type (params.map (·.2))
  | array target | dictionary target | pointer target | functionPointer target =>
    [⟨.type, target⟩]
  | record _ fields => refsOf .type (fields.map (·.type))
  | choice _ choices => refsOf .type (choices.map (·.2))

/-- The references of a variable. -/
def Variable.refs : Variable R → List (AnyRef R)
  | predefined _ type | module _ _ type | globalVar _ type | localVar _ type
  | parameter _ type _ | predefinedFunction _ type | moduleFunction _ _ type
  | externalFunction _ type _ _ => [⟨.type, type⟩]
  | function f =>
    ⟨.type, f.type⟩ :: (refsOf .var f.params ++ (refsOf .var f.locals ++ refsOf .stmt f.body))

/-- The references of what handles an expression. -/
def Handler.refs : Handler R → List (AnyRef R)
  | gives value => [⟨.expr, value⟩]
  | statements body => refsOf .stmt body

/-- The references of a handler of exceptions. -/
def ExprCatch.refs (k : ExprCatch R) : List (AnyRef R) :=
  refsOf .var k.name.toList ++ k.handler.refs

/-- The references of an expression. -/
def Expr.refs : Expr R → List (AnyRef R)
  | boolean _ | number _ | string _ | bytes _ => []
  | enumValue type _ | choiceValue type _ | nil type | nowhere type => [⟨.type, type⟩]
  | arrayLiteral type elements => ⟨.type, type⟩ :: refsOf .expr elements
  | dictionaryLiteral type entries => ⟨.type, type⟩ :: refsOf .expr (entries.map (·.2))
  | recordLiteral type values => ⟨.type, type⟩ :: refsOf .expr values
  | newRecord type value => ⟨.type, type⟩ :: refsOf .expr value.toList
  | typeTest operand target => [⟨.expr, operand⟩, ⟨.type, target⟩]
  | unary _ operand | field _ operand _ _ => [⟨.expr, operand⟩]
  | conditional condition left right => [⟨.expr, condition⟩, ⟨.expr, left⟩, ⟨.expr, right⟩]
  | trap operand catches => ⟨.expr, operand⟩ :: catches.flatMap ExprCatch.refs
  | binary _ left right | comparison _ _ left right | index _ left right =>
    [⟨.expr, left⟩, ⟨.expr, right⟩]
  | chained comparisons => refsOf .expr comparisons
  | range _ base first _ last _ => [⟨.expr, base⟩, ⟨.expr, first⟩, ⟨.expr, last⟩]
  | var v => [⟨.var, v⟩]
  | call callee args => ⟨.expr, callee⟩ :: refsOf .expr args

/-- The references of a condition. -/
def When.refs : When R → List (AnyRef R)
  | equals value | compare _ value => [⟨.expr, value⟩]
  | range low high => [⟨.expr, low⟩, ⟨.expr, high⟩]

/-- The references of a clause. -/
def IfClause.refs (k : IfClause R) : List (AnyRef R) :=
  ⟨.expr, k.condition⟩ :: refsOf .stmt k.statements

/-- The references of a clause. -/
def CaseClause.refs (k : CaseClause R) : List (AnyRef R) :=
  k.conditions.flatMap When.refs ++ refsOf .stmt k.statements

/-- The references of a handler of exceptions. -/
def StmtCatch.refs (k : StmtCatch R) : List (AnyRef R) :=
  refsOf .var k.name.toList ++ refsOf .stmt k.statements

/-- The references of a statement. -/
def Stmt.refs : Stmt R → List (AnyRef R)
  | null | exit _ | next _ => []
  | assertion operand _ | expression operand | increment operand _ => [⟨.expr, operand⟩]
  | assignment targets value => refsOf .expr targets ++ [⟨.expr, value⟩]
  | result value | raise _ value => refsOf .expr value.toList
  | reset targets => refsOf .expr targets
  | conditional clauses otherwise => clauses.flatMap IfClause.refs ++ refsOf .stmt otherwise
  | selection subject clauses otherwise =>
    ⟨.expr, subject⟩ :: (clauses.flatMap CaseClause.refs ++ refsOf .stmt otherwise)
  | loop _ body | block body => refsOf .stmt body
  | whileLoop _ condition body | repeatLoop _ condition body =>
    ⟨.expr, condition⟩ :: refsOf .stmt body
  | forLoop _ var first last step body =>
    ⟨.var, var⟩ :: ⟨.expr, first⟩ :: ⟨.expr, last⟩ :: ⟨.expr, step⟩ :: refsOf .stmt body
  | forEach _ var index array body =>
    ⟨.var, var⟩ :: (refsOf .var index.toList ++ ⟨.expr, array⟩ :: refsOf .stmt body)
  | trap body catches => refsOf .stmt body ++ catches.flatMap StmtCatch.refs

/-- The references of a node, in the order of a traversal. -/
def Node.refs : {c : Category} → Node c R → List (AnyRef R)
  | .type, node => Ty.refs node
  | .var, node => Variable.refs node
  | .expr, node => Expr.refs node
  | .stmt, node => Stmt.refs node

/-! ## The relation -/

section Mirrors

variable (Q : (c : Category) → R c → R' c → Prop)

/-- Types that mirror each other. -/
inductive Ty.Mirrors : Ty R → Ty R' → Prop where
  | nothing : Ty.Mirrors .nothing .nothing
  | boolean : Ty.Mirrors .boolean .boolean
  | number : Ty.Mirrors .number .number
  | string : Ty.Mirrors .string .string
  | bytes : Ty.Mirrors .bytes .bytes
  | object : Ty.Mirrors .object .object
  | function {result : R .type} {result' : R' .type} {params : List (Mode × R .type)}
      {params' : List (Mode × R' .type)} (hresult : Q .type result result')
      (hparams : List.Forall₂ (fun a b => a.1 = b.1 ∧ Q .type a.2 b.2) params params') :
      Ty.Mirrors (.function result params) (.function result' params')
  | array {element : R .type} {element' : R' .type} (h : Q .type element element') :
      Ty.Mirrors (.array element) (.array element')
  | dictionary {element : R .type} {element' : R' .type} (h : Q .type element element') :
      Ty.Mirrors (.dictionary element) (.dictionary element')
  | record (name : String) {fields : List (RecordField R)} {fields' : List (RecordField R')}
      (hfields : List.Forall₂ (fun a b => a.name = b.name ∧ a.isPrivate = b.isPrivate ∧
        Q .type a.type b.type) fields fields') :
      Ty.Mirrors (.record name fields) (.record name fields')
  | pointer {target : R .type} {target' : R' .type} (h : Q .type target target') :
      Ty.Mirrors (.pointer target) (.pointer target')
  | functionPointer {target : R .type} {target' : R' .type} (h : Q .type target target') :
      Ty.Mirrors (.functionPointer target) (.functionPointer target')
  | enumeration (name : String) (names : List String) :
      Ty.Mirrors (.enumeration name names) (.enumeration name names)
  | choice (name : String) {choices : List (String × R .type)}
      {choices' : List (String × R' .type)}
      (hchoices : List.Forall₂ (fun a b => a.1 = b.1 ∧ Q .type a.2 b.2) choices choices') :
      Ty.Mirrors (.choice name choices) (.choice name choices')

/-- Variables that mirror each other. -/
inductive Variable.Mirrors : Variable R → Variable R' → Prop where
  | predefined (name : String) {type : R .type} {type' : R' .type} (h : Q .type type type') :
      Variable.Mirrors (.predefined name type) (.predefined name type')
  | module (owner name : String) {type : R .type} {type' : R' .type} (h : Q .type type type') :
      Variable.Mirrors (.module owner name type) (.module owner name type')
  | globalVar (name : String) {type : R .type} {type' : R' .type} (h : Q .type type type') :
      Variable.Mirrors (.globalVar name type) (.globalVar name type')
  | localVar (name : String) {type : R .type} {type' : R' .type} (h : Q .type type type') :
      Variable.Mirrors (.localVar name type) (.localVar name type')
  | parameter (name : String) (mode : Mode) {type : R .type} {type' : R' .type}
      (h : Q .type type type') :
      Variable.Mirrors (.parameter name type mode) (.parameter name type' mode)
  | function (name : String) {type : R .type} {type' : R' .type} {params : List (R .var)}
      {params' : List (R' .var)} {locals : List (R .var)} {locals' : List (R' .var)}
      {body : List (R .stmt)} {body' : List (R' .stmt)} (htype : Q .type type type')
      (hparams : List.Forall₂ (Q .var) params params')
      (hlocals : List.Forall₂ (Q .var) locals locals')
      (hbody : List.Forall₂ (Q .stmt) body body') :
      Variable.Mirrors (.function ⟨name, type, params, locals, body⟩)
        (.function ⟨name, type', params', locals', body'⟩)
  | predefinedFunction (name : String) {type : R .type} {type' : R' .type}
      (h : Q .type type type') :
      Variable.Mirrors (.predefinedFunction name type) (.predefinedFunction name type')
  | moduleFunction (owner name : String) {type : R .type} {type' : R' .type}
      (h : Q .type type type') :
      Variable.Mirrors (.moduleFunction owner name type) (.moduleFunction owner name type')
  | externalFunction (name library symbol : String) {type : R .type} {type' : R' .type}
      (h : Q .type type type') :
      Variable.Mirrors (.externalFunction name type library symbol)
        (.externalFunction name type' library symbol)

/-- Handlers that mirror each other. -/
inductive Handler.Mirrors : Handler R → Handler R' → Prop where
  | gives {value : R .expr} {value' : R' .expr} (h : Q .expr value value') :
      Handler.Mirrors (.gives value) (.gives value')
  | statements {body : List (R .stmt)} {body' : List (R' .stmt)}
      (h : List.Forall₂ (Q .stmt) body body') :
      Handler.Mirrors (.statements body) (.statements body')

/-- Handlers of exceptions that mirror each other. -/
structure ExprCatch.Mirrors (k : ExprCatch R) (k' : ExprCatch R') : Prop where
  exceptions : k.exceptions = k'.exceptions
  name : Option.Rel (Q .var) k.name k'.name
  handler : Handler.Mirrors Q k.handler k'.handler

/-- Conditions that mirror each other. -/
inductive When.Mirrors : When R → When R' → Prop where
  | equals {value : R .expr} {value' : R' .expr} (h : Q .expr value value') :
      When.Mirrors (.equals value) (.equals value')
  | compare (relation : Relation) {value : R .expr} {value' : R' .expr}
      (h : Q .expr value value') :
      When.Mirrors (.compare relation value) (.compare relation value')
  | range {low high : R .expr} {low' high' : R' .expr} (hlow : Q .expr low low')
      (hhigh : Q .expr high high') : When.Mirrors (.range low high) (.range low' high')

/-- Clauses that mirror each other. -/
structure IfClause.Mirrors (k : IfClause R) (k' : IfClause R') : Prop where
  condition : Q .expr k.condition k'.condition
  statements : List.Forall₂ (Q .stmt) k.statements k'.statements

/-- Clauses that mirror each other. -/
structure CaseClause.Mirrors (k : CaseClause R) (k' : CaseClause R') : Prop where
  conditions : List.Forall₂ (When.Mirrors Q) k.conditions k'.conditions
  statements : List.Forall₂ (Q .stmt) k.statements k'.statements

/-- Handlers of exceptions that mirror each other. -/
structure StmtCatch.Mirrors (k : StmtCatch R) (k' : StmtCatch R') : Prop where
  exceptions : k.exceptions = k'.exceptions
  name : Option.Rel (Q .var) k.name k'.name
  statements : List.Forall₂ (Q .stmt) k.statements k'.statements

/-- Expressions that mirror each other. -/
inductive Expr.Mirrors : Expr R → Expr R' → Prop where
  | boolean (value : Bool) : Expr.Mirrors (.boolean value) (.boolean value)
  | number (bits : UInt64) : Expr.Mirrors (.number bits) (.number bits)
  | string (value : String) : Expr.Mirrors (.string value) (.string value)
  | bytes (value : Bytes) : Expr.Mirrors (.bytes value) (.bytes value)
  | enumValue (value : UInt32) {type : R .type} {type' : R' .type} (h : Q .type type type') :
      Expr.Mirrors (.enumValue type value) (.enumValue type' value)
  | choiceValue (choice : UInt32) {type : R .type} {type' : R' .type}
      (h : Q .type type type') :
      Expr.Mirrors (.choiceValue type choice) (.choiceValue type' choice)
  | nil {type : R .type} {type' : R' .type} (h : Q .type type type') :
      Expr.Mirrors (.nil type) (.nil type')
  | nowhere {type : R .type} {type' : R' .type} (h : Q .type type type') :
      Expr.Mirrors (.nowhere type) (.nowhere type')
  | arrayLiteral {type : R .type} {type' : R' .type} {elements : List (R .expr)}
      {elements' : List (R' .expr)} (htype : Q .type type type')
      (helements : List.Forall₂ (Q .expr) elements elements') :
      Expr.Mirrors (.arrayLiteral type elements) (.arrayLiteral type' elements')
  | dictionaryLiteral {type : R .type} {type' : R' .type} {entries : List (String × R .expr)}
      {entries' : List (String × R' .expr)} (htype : Q .type type type')
      (hentries : List.Forall₂ (fun a b => a.1 = b.1 ∧ Q .expr a.2 b.2) entries entries') :
      Expr.Mirrors (.dictionaryLiteral type entries) (.dictionaryLiteral type' entries')
  | recordLiteral {type : R .type} {type' : R' .type} {values : List (R .expr)}
      {values' : List (R' .expr)} (htype : Q .type type type')
      (hvalues : List.Forall₂ (Q .expr) values values') :
      Expr.Mirrors (.recordLiteral type values) (.recordLiteral type' values')
  | newRecord {type : R .type} {type' : R' .type} {value : Option (R .expr)}
      {value' : Option (R' .expr)} (htype : Q .type type type')
      (hvalue : Option.Rel (Q .expr) value value') :
      Expr.Mirrors (.newRecord type value) (.newRecord type' value')
  | typeTest {operand : R .expr} {operand' : R' .expr} {target : R .type}
      {target' : R' .type} (hoperand : Q .expr operand operand')
      (htarget : Q .type target target') :
      Expr.Mirrors (.typeTest operand target) (.typeTest operand' target')
  | unary (op : UnaryOp) {operand : R .expr} {operand' : R' .expr}
      (h : Q .expr operand operand') : Expr.Mirrors (.unary op operand) (.unary op operand')
  | conditional {condition left right : R .expr} {condition' left' right' : R' .expr}
      (hcondition : Q .expr condition condition') (hleft : Q .expr left left')
      (hright : Q .expr right right') :
      Expr.Mirrors (.conditional condition left right) (.conditional condition' left' right')
  | trap {operand : R .expr} {operand' : R' .expr} {catches : List (ExprCatch R)}
      {catches' : List (ExprCatch R')} (hoperand : Q .expr operand operand')
      (hcatches : List.Forall₂ (ExprCatch.Mirrors Q) catches catches') :
      Expr.Mirrors (.trap operand catches) (.trap operand' catches')
  | binary (op : BinaryOp) {left right : R .expr} {left' right' : R' .expr}
      (hleft : Q .expr left left') (hright : Q .expr right right') :
      Expr.Mirrors (.binary op left right) (.binary op left' right')
  | chained {comparisons : List (R .expr)} {comparisons' : List (R' .expr)}
      (h : List.Forall₂ (Q .expr) comparisons comparisons') :
      Expr.Mirrors (.chained comparisons) (.chained comparisons')
  | comparison (compared : Compared) (relation : Relation) {left right : R .expr}
      {left' right' : R' .expr} (hleft : Q .expr left left') (hright : Q .expr right right') :
      Expr.Mirrors (.comparison compared relation left right)
        (.comparison compared relation left' right')
  | index (indexed : Indexed) {base position : R .expr} {base' position' : R' .expr}
      (hbase : Q .expr base base') (hposition : Q .expr position position') :
      Expr.Mirrors (.index indexed base position) (.index indexed base' position')
  | range (sliced : Sliced) (firstFromEnd lastFromEnd : Bool) {base first last : R .expr}
      {base' first' last' : R' .expr} (hbase : Q .expr base base')
      (hfirst : Q .expr first first') (hlast : Q .expr last last') :
      Expr.Mirrors (.range sliced base first firstFromEnd last lastFromEnd)
        (.range sliced base' first' firstFromEnd last' lastFromEnd)
  | field (asReference : Bool) (name : String) (position : Nat) {base : R .expr}
      {base' : R' .expr} (h : Q .expr base base') :
      Expr.Mirrors (.field asReference base name position)
        (.field asReference base' name position)
  | var {v : R .var} {v' : R' .var} (h : Q .var v v') : Expr.Mirrors (.var v) (.var v')
  | call {callee : R .expr} {callee' : R' .expr} {args : List (R .expr)}
      {args' : List (R' .expr)} (hcallee : Q .expr callee callee')
      (hargs : List.Forall₂ (Q .expr) args args') :
      Expr.Mirrors (.call callee args) (.call callee' args')

/-- Statements that mirror each other. -/
inductive Stmt.Mirrors : Stmt R → Stmt R' → Prop where
  | null : Stmt.Mirrors .null .null
  | assertion (message : String) {condition : R .expr} {condition' : R' .expr}
      (h : Q .expr condition condition') :
      Stmt.Mirrors (.assertion condition message) (.assertion condition' message)
  | assignment {targets : List (R .expr)} {targets' : List (R' .expr)} {value : R .expr}
      {value' : R' .expr} (htargets : List.Forall₂ (Q .expr) targets targets')
      (hvalue : Q .expr value value') :
      Stmt.Mirrors (.assignment targets value) (.assignment targets' value')
  | expression {e : R .expr} {e' : R' .expr} (h : Q .expr e e') :
      Stmt.Mirrors (.expression e) (.expression e')
  | result {value : Option (R .expr)} {value' : Option (R' .expr)}
      (h : Option.Rel (Q .expr) value value') : Stmt.Mirrors (.result value) (.result value')
  | exit (id : Nat) : Stmt.Mirrors (.exit id) (.exit id)
  | next (id : Nat) : Stmt.Mirrors (.next id) (.next id)
  | raise (exception : String) {info : Option (R .expr)} {info' : Option (R' .expr)}
      (h : Option.Rel (Q .expr) info info') :
      Stmt.Mirrors (.raise exception info) (.raise exception info')
  | reset {targets : List (R .expr)} {targets' : List (R' .expr)}
      (h : List.Forall₂ (Q .expr) targets targets') :
      Stmt.Mirrors (.reset targets) (.reset targets')
  | increment (delta : Int) {target : R .expr} {target' : R' .expr}
      (h : Q .expr target target') :
      Stmt.Mirrors (.increment target delta) (.increment target' delta)
  | conditional {clauses : List (IfClause R)} {clauses' : List (IfClause R')}
      {otherwise : List (R .stmt)} {otherwise' : List (R' .stmt)}
      (hclauses : List.Forall₂ (IfClause.Mirrors Q) clauses clauses')
      (hotherwise : List.Forall₂ (Q .stmt) otherwise otherwise') :
      Stmt.Mirrors (.conditional clauses otherwise) (.conditional clauses' otherwise')
  | selection {subject : R .expr} {subject' : R' .expr} {clauses : List (CaseClause R)}
      {clauses' : List (CaseClause R')} {otherwise : List (R .stmt)}
      {otherwise' : List (R' .stmt)} (hsubject : Q .expr subject subject')
      (hclauses : List.Forall₂ (CaseClause.Mirrors Q) clauses clauses')
      (hotherwise : List.Forall₂ (Q .stmt) otherwise otherwise') :
      Stmt.Mirrors (.selection subject clauses otherwise)
        (.selection subject' clauses' otherwise')
  | loop (id : Nat) {body : List (R .stmt)} {body' : List (R' .stmt)}
      (h : List.Forall₂ (Q .stmt) body body') : Stmt.Mirrors (.loop id body) (.loop id body')
  | whileLoop (id : Nat) {condition : R .expr} {condition' : R' .expr}
      {body : List (R .stmt)} {body' : List (R' .stmt)}
      (hcondition : Q .expr condition condition')
      (hbody : List.Forall₂ (Q .stmt) body body') :
      Stmt.Mirrors (.whileLoop id condition body) (.whileLoop id condition' body')
  | repeatLoop (id : Nat) {condition : R .expr} {condition' : R' .expr}
      {body : List (R .stmt)} {body' : List (R' .stmt)}
      (hcondition : Q .expr condition condition')
      (hbody : List.Forall₂ (Q .stmt) body body') :
      Stmt.Mirrors (.repeatLoop id condition body) (.repeatLoop id condition' body')
  | forLoop (id : Nat) {var : R .var} {var' : R' .var} {first last step : R .expr}
      {first' last' step' : R' .expr} {body : List (R .stmt)} {body' : List (R' .stmt)}
      (hvar : Q .var var var') (hfirst : Q .expr first first') (hlast : Q .expr last last')
      (hstep : Q .expr step step') (hbody : List.Forall₂ (Q .stmt) body body') :
      Stmt.Mirrors (.forLoop id var first last step body)
        (.forLoop id var' first' last' step' body')
  | forEach (id : Nat) {var : R .var} {var' : R' .var} {index : Option (R .var)}
      {index' : Option (R' .var)} {array : R .expr} {array' : R' .expr}
      {body : List (R .stmt)} {body' : List (R' .stmt)} (hvar : Q .var var var')
      (hindex : Option.Rel (Q .var) index index') (harray : Q .expr array array')
      (hbody : List.Forall₂ (Q .stmt) body body') :
      Stmt.Mirrors (.forEach id var index array body) (.forEach id var' index' array' body')
  | trap {body : List (R .stmt)} {body' : List (R' .stmt)} {catches : List (StmtCatch R)}
      {catches' : List (StmtCatch R')} (hbody : List.Forall₂ (Q .stmt) body body')
      (hcatches : List.Forall₂ (StmtCatch.Mirrors Q) catches catches') :
      Stmt.Mirrors (.trap body catches) (.trap body' catches')
  | block {body : List (R .stmt)} {body' : List (R' .stmt)}
      (h : List.Forall₂ (Q .stmt) body body') : Stmt.Mirrors (.block body) (.block body')

/-- Nodes of a category that mirror each other. -/
def Node.Mirrors : {c : Category} → Node c R → Node c R' → Prop
  | .type, node, node' => Ty.Mirrors Q node node'
  | .var, node, node' => Variable.Mirrors Q node node'
  | .expr, node, node' => Expr.Mirrors Q node node'
  | .stmt, node, node' => Stmt.Mirrors Q node node'

end Mirrors

/-! ## Weaker relations -/

/-- Optional values that are related stay so under a weaker relation. -/
theorem optionRel_mono {α β : Type} {r r' : α → β → Prop} (h : ∀ a b, r a b → r' a b)
    {x : Option α} {y : Option β} (hxy : Option.Rel r x y) : Option.Rel r' x y := by
  cases hxy with
  | some hab => exact .some (h _ _ hab)
  | none => exact .none

section Mono

variable {Q Q' : (c : Category) → R c → R' c → Prop} (hQ : ∀ c r r', Q c r r' → Q' c r r')

include hQ

theorem Ty.Mirrors.mono {t : Ty R} {t' : Ty R'} (h : Ty.Mirrors Q t t') :
    Ty.Mirrors Q' t t' := by
  cases h with
  | nothing | boolean | number | string | bytes | object | enumeration => constructor
  | function hresult hparams =>
    exact .function (hQ _ _ _ hresult) (hparams.imp fun _ _ hp => ⟨hp.1, hQ _ _ _ hp.2⟩)
  | array h => exact .array (hQ _ _ _ h)
  | dictionary h => exact .dictionary (hQ _ _ _ h)
  | record name hfields =>
    exact .record name (hfields.imp fun _ _ hf => ⟨hf.1, hf.2.1, hQ _ _ _ hf.2.2⟩)
  | pointer h => exact .pointer (hQ _ _ _ h)
  | functionPointer h => exact .functionPointer (hQ _ _ _ h)
  | choice name hchoices =>
    exact .choice name (hchoices.imp fun _ _ hc => ⟨hc.1, hQ _ _ _ hc.2⟩)

theorem Variable.Mirrors.mono {v : Variable R} {v' : Variable R'} (h : Variable.Mirrors Q v v') :
    Variable.Mirrors Q' v v' := by
  cases h with
  | predefined name h => exact .predefined name (hQ _ _ _ h)
  | module owner name h => exact .module owner name (hQ _ _ _ h)
  | globalVar name h => exact .globalVar name (hQ _ _ _ h)
  | localVar name h => exact .localVar name (hQ _ _ _ h)
  | parameter name mode h => exact .parameter name mode (hQ _ _ _ h)
  | function name htype hparams hlocals hbody =>
    exact .function name (hQ _ _ _ htype) (hparams.imp (hQ .var)) (hlocals.imp (hQ .var))
      (hbody.imp (hQ .stmt))
  | predefinedFunction name h => exact .predefinedFunction name (hQ _ _ _ h)
  | moduleFunction owner name h => exact .moduleFunction owner name (hQ _ _ _ h)
  | externalFunction name library symbol h =>
    exact .externalFunction name library symbol (hQ _ _ _ h)

theorem Handler.Mirrors.mono {k : Handler R} {k' : Handler R'} (h : Handler.Mirrors Q k k') :
    Handler.Mirrors Q' k k' := by
  cases h with
  | gives h => exact .gives (hQ _ _ _ h)
  | statements h => exact .statements (h.imp (hQ .stmt))

theorem ExprCatch.Mirrors.mono {k : ExprCatch R} {k' : ExprCatch R'}
    (h : ExprCatch.Mirrors Q k k') : ExprCatch.Mirrors Q' k k' :=
  ⟨h.exceptions, optionRel_mono (hQ .var) h.name, h.handler.mono hQ⟩

theorem Expr.Mirrors.mono {e : Expr R} {e' : Expr R'} (h : Expr.Mirrors Q e e') :
    Expr.Mirrors Q' e e' := by
  cases h with
  | boolean | number | string | bytes => constructor
  | enumValue value h => exact .enumValue value (hQ _ _ _ h)
  | choiceValue choice h => exact .choiceValue choice (hQ _ _ _ h)
  | nil h => exact .nil (hQ _ _ _ h)
  | nowhere h => exact .nowhere (hQ _ _ _ h)
  | arrayLiteral htype helements =>
    exact .arrayLiteral (hQ _ _ _ htype) (helements.imp (hQ .expr))
  | dictionaryLiteral htype hentries =>
    exact .dictionaryLiteral (hQ _ _ _ htype)
      (hentries.imp fun _ _ he => ⟨he.1, hQ _ _ _ he.2⟩)
  | recordLiteral htype hvalues =>
    exact .recordLiteral (hQ _ _ _ htype) (hvalues.imp (hQ .expr))
  | newRecord htype hvalue =>
    exact .newRecord (hQ _ _ _ htype) (optionRel_mono (hQ .expr) hvalue)
  | typeTest hoperand htarget => exact .typeTest (hQ _ _ _ hoperand) (hQ _ _ _ htarget)
  | unary op h => exact .unary op (hQ _ _ _ h)
  | conditional hcondition hleft hright =>
    exact .conditional (hQ _ _ _ hcondition) (hQ _ _ _ hleft) (hQ _ _ _ hright)
  | trap hoperand hcatches =>
    exact .trap (hQ _ _ _ hoperand) (hcatches.imp fun _ _ => ExprCatch.Mirrors.mono hQ)
  | binary op hleft hright => exact .binary op (hQ _ _ _ hleft) (hQ _ _ _ hright)
  | chained h => exact .chained (h.imp (hQ .expr))
  | comparison compared relation hleft hright =>
    exact .comparison compared relation (hQ _ _ _ hleft) (hQ _ _ _ hright)
  | index indexed hbase hposition =>
    exact .index indexed (hQ _ _ _ hbase) (hQ _ _ _ hposition)
  | range sliced firstFromEnd lastFromEnd hbase hfirst hlast =>
    exact .range sliced firstFromEnd lastFromEnd (hQ _ _ _ hbase) (hQ _ _ _ hfirst)
      (hQ _ _ _ hlast)
  | field asReference name position h => exact .field asReference name position (hQ _ _ _ h)
  | var h => exact .var (hQ _ _ _ h)
  | call hcallee hargs => exact .call (hQ _ _ _ hcallee) (hargs.imp (hQ .expr))

theorem IfClause.Mirrors.mono {k : IfClause R} {k' : IfClause R'}
    (h : IfClause.Mirrors Q k k') : IfClause.Mirrors Q' k k' :=
  ⟨hQ _ _ _ h.condition, h.statements.imp (hQ .stmt)⟩

theorem When.Mirrors.mono {w : When R} {w' : When R'} (h : When.Mirrors Q w w') :
    When.Mirrors Q' w w' := by
  cases h with
  | equals h => exact .equals (hQ _ _ _ h)
  | compare relation h => exact .compare relation (hQ _ _ _ h)
  | range hlow hhigh => exact .range (hQ _ _ _ hlow) (hQ _ _ _ hhigh)

theorem CaseClause.Mirrors.mono {k : CaseClause R} {k' : CaseClause R'}
    (h : CaseClause.Mirrors Q k k') : CaseClause.Mirrors Q' k k' :=
  ⟨h.conditions.imp fun _ _ => When.Mirrors.mono hQ, h.statements.imp (hQ .stmt)⟩

theorem StmtCatch.Mirrors.mono {k : StmtCatch R} {k' : StmtCatch R'}
    (h : StmtCatch.Mirrors Q k k') : StmtCatch.Mirrors Q' k k' :=
  ⟨h.exceptions, optionRel_mono (hQ .var) h.name, h.statements.imp (hQ .stmt)⟩

theorem Stmt.Mirrors.mono {s : Stmt R} {s' : Stmt R'} (h : Stmt.Mirrors Q s s') :
    Stmt.Mirrors Q' s s' := by
  cases h with
  | null | exit | next => constructor
  | assertion message h => exact .assertion message (hQ _ _ _ h)
  | assignment htargets hvalue => exact .assignment (htargets.imp (hQ .expr)) (hQ _ _ _ hvalue)
  | expression h => exact .expression (hQ _ _ _ h)
  | result h => exact .result (optionRel_mono (hQ .expr) h)
  | raise exception h => exact .raise exception (optionRel_mono (hQ .expr) h)
  | reset h => exact .reset (h.imp (hQ .expr))
  | increment delta h => exact .increment delta (hQ _ _ _ h)
  | conditional hclauses hotherwise =>
    exact .conditional (hclauses.imp fun _ _ => IfClause.Mirrors.mono hQ)
      (hotherwise.imp (hQ .stmt))
  | selection hsubject hclauses hotherwise =>
    exact .selection (hQ _ _ _ hsubject) (hclauses.imp fun _ _ => CaseClause.Mirrors.mono hQ)
      (hotherwise.imp (hQ .stmt))
  | loop id h => exact .loop id (h.imp (hQ .stmt))
  | whileLoop id hcondition hbody =>
    exact .whileLoop id (hQ _ _ _ hcondition) (hbody.imp (hQ .stmt))
  | repeatLoop id hcondition hbody =>
    exact .repeatLoop id (hQ _ _ _ hcondition) (hbody.imp (hQ .stmt))
  | forLoop id hvar hfirst hlast hstep hbody =>
    exact .forLoop id (hQ _ _ _ hvar) (hQ _ _ _ hfirst) (hQ _ _ _ hlast) (hQ _ _ _ hstep)
      (hbody.imp (hQ .stmt))
  | forEach id hvar hindex harray hbody =>
    exact .forEach id (hQ _ _ _ hvar) (optionRel_mono (hQ .var) hindex) (hQ _ _ _ harray)
      (hbody.imp (hQ .stmt))
  | trap hbody hcatches =>
    exact .trap (hbody.imp (hQ .stmt)) (hcatches.imp fun _ _ => StmtCatch.Mirrors.mono hQ)
  | block h => exact .block (h.imp (hQ .stmt))

/-- Nodes that mirror each other do so under a weaker relation. -/
theorem Node.Mirrors.mono {c : Category} {node : Node c R} {node' : Node c R'}
    (h : Node.Mirrors Q node node') : Node.Mirrors Q' node node' := by
  cases c with
  | type => exact Ty.Mirrors.mono hQ h
  | var => exact Variable.Mirrors.mono hQ h
  | expr => exact Expr.Mirrors.mono hQ h
  | stmt => exact Stmt.Mirrors.mono hQ h

end Mono

/-! ## References of nodes that mirror each other -/

/-- References of the same category that are related. -/
inductive Related (Q : (c : Category) → R c → R' c → Prop) : AnyRef R → AnyRef R' → Prop where
  | intro {c : Category} {r : R c} {r' : R' c} (h : Q c r r') : Related Q ⟨c, r⟩ ⟨c, r'⟩

section Related

variable {Q : (c : Category) → R c → R' c → Prop} {c : Category}

theorem related_map {α β : Type} {f : α → R c} {g : β → R' c} {xs : List α} {ys : List β}
    (h : List.Forall₂ (fun a b => Q c (f a) (g b)) xs ys) :
    List.Forall₂ (Related Q) (refsOf c (xs.map f)) (refsOf c (ys.map g)) := by
  induction h with
  | nil => exact .nil
  | cons hhead _ ih => exact .cons (.intro hhead) ih

theorem related_refsOf {rs : List (R c)} {rs' : List (R' c)} (h : List.Forall₂ (Q c) rs rs') :
    List.Forall₂ (Related Q) (refsOf c rs) (refsOf c rs') := by
  have hmap := related_map (f := id) (g := id) h
  rwa [List.map_id, List.map_id] at hmap

theorem related_toList {r : Option (R c)} {r' : Option (R' c)} (h : Option.Rel (Q c) r r') :
    List.Forall₂ (Related Q) (refsOf c r.toList) (refsOf c r'.toList) := by
  cases h with
  | some h => exact .cons (.intro h) .nil
  | none => exact .nil

theorem related_flatMap {α β : Type} {f : α → List (AnyRef R)} {g : β → List (AnyRef R')}
    {P : α → β → Prop} (hP : ∀ a b, P a b → List.Forall₂ (Related Q) (f a) (g b)) {xs : List α}
    {ys : List β} (h : List.Forall₂ P xs ys) :
    List.Forall₂ (Related Q) (xs.flatMap f) (ys.flatMap g) := by
  induction h with
  | nil => exact .nil
  | cons hhead _ ih => exact List.rel_append (hP _ _ hhead) ih

theorem Ty.Mirrors.refs {t : Ty R} {t' : Ty R'} (h : Ty.Mirrors Q t t') :
    List.Forall₂ (Related Q) t.refs t'.refs := by
  cases h with
  | nothing | boolean | number | string | bytes | object | enumeration => exact .nil
  | function hresult hparams =>
    exact .cons (.intro hresult) (related_map (hparams.imp fun _ _ hp => hp.2))
  | array h | dictionary h | pointer h | functionPointer h => exact .cons (.intro h) .nil
  | record _ hfields => exact related_map (hfields.imp fun _ _ hf => hf.2.2)
  | choice _ hchoices => exact related_map (hchoices.imp fun _ _ hc => hc.2)

theorem Variable.Mirrors.refs {v : Variable R} {v' : Variable R'} (h : Variable.Mirrors Q v v') :
    List.Forall₂ (Related Q) v.refs v'.refs := by
  cases h with
  | function _ htype hparams hlocals hbody =>
    exact .cons (.intro htype) (List.rel_append (related_refsOf hparams)
      (List.rel_append (related_refsOf hlocals) (related_refsOf hbody)))
  | predefined _ h | module _ _ h | globalVar _ h | localVar _ h | parameter _ _ h
  | predefinedFunction _ h | moduleFunction _ _ h | externalFunction _ _ _ h =>
    exact .cons (.intro h) .nil

theorem Handler.Mirrors.refs {k : Handler R} {k' : Handler R'} (h : Handler.Mirrors Q k k') :
    List.Forall₂ (Related Q) k.refs k'.refs := by
  cases h with
  | gives h => exact .cons (.intro h) .nil
  | statements h => exact related_refsOf h

theorem ExprCatch.Mirrors.refs {k : ExprCatch R} {k' : ExprCatch R'}
    (h : ExprCatch.Mirrors Q k k') : List.Forall₂ (Related Q) k.refs k'.refs :=
  List.rel_append (related_toList h.name) h.handler.refs

theorem Expr.Mirrors.refs {e : Expr R} {e' : Expr R'} (h : Expr.Mirrors Q e e') :
    List.Forall₂ (Related Q) e.refs e'.refs := by
  cases h with
  | boolean | number | string | bytes => exact .nil
  | enumValue _ h | choiceValue _ h | nil h | nowhere h | unary _ h | field _ _ _ h | var h =>
    exact .cons (.intro h) .nil
  | arrayLiteral hfirst hrest | recordLiteral hfirst hrest | call hfirst hrest =>
    exact .cons (.intro hfirst) (related_refsOf hrest)
  | dictionaryLiteral htype hentries =>
    exact .cons (.intro htype) (related_map (hentries.imp fun _ _ he => he.2))
  | newRecord htype hvalue => exact .cons (.intro htype) (related_toList hvalue)
  | typeTest hleft hright | binary _ hleft hright | comparison _ _ hleft hright
  | index _ hleft hright => exact .cons (.intro hleft) (.cons (.intro hright) .nil)
  | conditional hfirst hsecond hthird | range _ _ _ hfirst hsecond hthird =>
    exact .cons (.intro hfirst) (.cons (.intro hsecond) (.cons (.intro hthird) .nil))
  | trap hoperand hcatches =>
    exact .cons (.intro hoperand) (related_flatMap (fun _ _ => ExprCatch.Mirrors.refs) hcatches)
  | chained h => exact related_refsOf h

theorem When.Mirrors.refs {w : When R} {w' : When R'} (h : When.Mirrors Q w w') :
    List.Forall₂ (Related Q) w.refs w'.refs := by
  cases h with
  | equals h | compare _ h => exact .cons (.intro h) .nil
  | range hlow hhigh => exact .cons (.intro hlow) (.cons (.intro hhigh) .nil)

theorem IfClause.Mirrors.refs {k : IfClause R} {k' : IfClause R'}
    (h : IfClause.Mirrors Q k k') : List.Forall₂ (Related Q) k.refs k'.refs :=
  .cons (.intro h.condition) (related_refsOf h.statements)

theorem CaseClause.Mirrors.refs {k : CaseClause R} {k' : CaseClause R'}
    (h : CaseClause.Mirrors Q k k') : List.Forall₂ (Related Q) k.refs k'.refs :=
  List.rel_append (related_flatMap (fun _ _ => When.Mirrors.refs) h.conditions)
    (related_refsOf h.statements)

theorem StmtCatch.Mirrors.refs {k : StmtCatch R} {k' : StmtCatch R'}
    (h : StmtCatch.Mirrors Q k k') : List.Forall₂ (Related Q) k.refs k'.refs :=
  List.rel_append (related_toList h.name) (related_refsOf h.statements)

theorem Stmt.Mirrors.refs {t : Stmt R} {t' : Stmt R'} (h : Stmt.Mirrors Q t t') :
    List.Forall₂ (Related Q) t.refs t'.refs := by
  cases h with
  | null | exit | next => exact .nil
  | assertion _ h | expression h | increment _ h => exact .cons (.intro h) .nil
  | assignment htargets hvalue =>
    exact List.rel_append (related_refsOf htargets) (.cons (.intro hvalue) .nil)
  | result h | raise _ h => exact related_toList h
  | reset h | loop _ h | block h => exact related_refsOf h
  | conditional hclauses hotherwise =>
    exact List.rel_append (related_flatMap (fun _ _ => IfClause.Mirrors.refs) hclauses)
      (related_refsOf hotherwise)
  | selection hsubject hclauses hotherwise =>
    exact .cons (.intro hsubject) (List.rel_append
      (related_flatMap (fun _ _ => CaseClause.Mirrors.refs) hclauses) (related_refsOf hotherwise))
  | whileLoop _ hcondition hbody | repeatLoop _ hcondition hbody =>
    exact .cons (.intro hcondition) (related_refsOf hbody)
  | forLoop _ hvar hfirst hlast hstep hbody =>
    exact .cons (.intro hvar) (.cons (.intro hfirst) (.cons (.intro hlast)
      (.cons (.intro hstep) (related_refsOf hbody))))
  | forEach _ hvar hindex harray hbody =>
    exact .cons (.intro hvar) (List.rel_append (related_toList hindex)
      (.cons (.intro harray) (related_refsOf hbody)))
  | trap hbody hcatches =>
    exact List.rel_append (related_refsOf hbody)
      (related_flatMap (fun _ _ => StmtCatch.Mirrors.refs) hcatches)

/-- The references of nodes that mirror each other are related one by one. -/
theorem Node.Mirrors.refs {node : Node c R} {node' : Node c R'} (h : Node.Mirrors Q node node') :
    List.Forall₂ (Related Q) node.refs node'.refs := by
  cases c with
  | type => exact Ty.Mirrors.refs h
  | var => exact Variable.Mirrors.refs h
  | expr => exact Expr.Mirrors.refs h
  | stmt => exact Stmt.Mirrors.refs h

end Related

/-! ## Bodies -/

/-- A node mirrors another one once its body is put in. -/
theorem Node.Mirrors.withBody {Q : (c : Category) → R c → R' c → Prop} {c : Category}
    {node : Node c R} {node' : Node c R'} {body : List (R' .stmt)}
    (h : Node.Mirrors Q node.withoutBody node')
    (hbody : List.Forall₂ (Q .stmt) node.body body) :
    Node.Mirrors Q node (node'.withBody body) := by
  cases c with
  | type | expr | stmt => exact h
  | var =>
    cases node with
    | function f =>
      cases h with
      | function _ htype hparams hlocals _ => exact .function _ htype hparams hlocals hbody
    | _ =>
      cases h
      constructor
      assumption

/-- Outside of its body a node stays the same when the body is put in. -/
@[simp]
theorem Node.withoutBody_withBody {c : Category} (node : Node c R) (body : List (R .stmt)) :
    (node.withBody body).withoutBody = node.withoutBody := by
  cases c with
  | type | expr | stmt => rfl
  | var => cases node <;> rfl

/-- A node has no other body than the one that is put in. -/
theorem Node.body_withBody_subset {c : Category} (node : Node c R) (body : List (R .stmt)) :
    (node.withBody body).body ⊆ body := by
  cases c with
  | type | expr | stmt => exact List.nil_subset body
  | var =>
    cases node with
    | function f => exact List.Subset.refl body
    | _ => exact List.nil_subset body

/-- The references of a node are those outside its body and those of its body. -/
theorem Node.refs_eq {c : Category} (node : Node c R) :
    node.refs = node.withoutBody.refs ++ refsOf .stmt node.body := by
  cases c with
  | type | expr | stmt => exact (List.append_nil _).symm
  | var =>
    cases node with
    | function f => simp [Node.refs, Variable.refs, Node.withoutBody, Node.body, refsOf]
    | _ => exact (List.append_nil _).symm

theorem Node.refs_withoutBody_subset {c : Category} (node : Node c R) :
    node.withoutBody.refs ⊆ node.refs := by
  rw [Node.refs_eq node]
  exact List.subset_append_left _ _

end QuillImage.Syntax

import QuillImage.Syntax.Node

/-!
# Programs

A program is a graph of nodes with its top-level functions and statements. Nodes
are shared: the same reference may occur in many places. The only cycles of a
well-formed program lead through the body of a function.
-/

namespace QuillImage.Syntax

/-- A type-checked program. -/
structure Program where
  /-- The path of the source file. -/
  sourcePath : String
  /-- The name of the module, from which the name of the image is made. -/
  moduleName : String
  /-- The nodes of each category; a reference is a position among them. -/
  nodes : PerCategory fun c => Array (Node c Ref)
  functions : List (Ref .var)
  statements : List (Ref .stmt)

namespace Program

/-- The program without nodes. -/
def empty (sourcePath moduleName : String) : Program where
  sourcePath
  moduleName
  nodes := .const fun _ => #[]
  functions := []
  statements := []

/-- The node of a reference. -/
def node? (p : Program) {c : Category} (r : Ref c) : Option (Node c Ref) :=
  (p.nodes.get c)[r.index]?

/-- The number of nodes of all categories. -/
def nodeCount (p : Program) : Nat :=
  p.nodes.type.size + p.nodes.var.size + p.nodes.expr.size + p.nodes.stmt.size

/-- Whether a variable is a function of the program. -/
def isDefined {R : Category → Type} : Variable R → Bool
  | .function _ => true
  | _ => false

/-- The number of functions among the nodes. -/
def functionCount (p : Program) : Nat := p.nodes.var.countP isDefined

end Program

end QuillImage.Syntax

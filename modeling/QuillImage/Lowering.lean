import Std.Data.HashMap
import QuillImage.Event
import QuillImage.Syntax.Program

/-!
# Lowering

Lowering turns the nodes of a program into nodes of four arenas, which refer to
each other by handles. It works on identities: a reference that has a handle in
the cache is not lowered again. Otherwise the references of its node are lowered
in order, the node is appended to its arena together with its origin, and the
handle goes into the cache. A function enters its arena without its body, which
is lowered once the function has a handle and then put in.

A node that is met again before it is in the cache, which only the body of a
function can bring about, is lowered once more; the cache keeps the later handle.
-/

namespace QuillImage

open Syntax

/-! ## Arenas -/

/-- A lowered node with the identity of the node that it comes from. -/
structure Lowered (c : Category) where
  origin : Ref c
  node : Node c Handle

/-- The lowered nodes of each category. -/
abbrev Arenas := PerCategory fun c => Array (Lowered c)

namespace Arenas

/-- Arenas without nodes. -/
def empty : Arenas := .const fun _ => #[]

/-- The lowered node of a handle. -/
def entry? (a : Arenas) {c : Category} (h : Handle c) : Option (Lowered c) :=
  (PerCategory.get a c)[h.index]?

/-- The node of a handle. -/
def node? (a : Arenas) {c : Category} (h : Handle c) : Option (Node c Handle) :=
  (a.entry? h).map (·.node)

/-- The number of nodes of a category. -/
def count (a : Arenas) (c : Category) : Nat := (PerCategory.get a c).size

end Arenas

/-- The handle of each identity that was lowered. -/
abbrev Cache := PerCategory fun c => Std.HashMap (Ref c) (Handle c)

/-- The state of lowering. -/
structure Lowering where
  arenas : Arenas
  cache : Cache

/-- Why a program cannot be lowered. -/
inductive Malformed where
  /-- A reference names no node. -/
  | dangling
  /-- A cycle does not lead through the body of a function. -/
  | cyclic
  deriving DecidableEq, Repr

namespace Lowering

/-- Nothing is lowered yet. -/
def empty : Lowering := ⟨.empty, .const fun _ => ∅⟩

/-- The handle of an identity that was lowered. -/
def handle? (s : Lowering) {c : Category} (r : Ref c) : Option (Handle c) := (s.cache.get c)[r]?

/-- Appends a node to its arena and enters it into the cache. -/
def push {c : Category} (r : Ref c) (node : Node c Handle) : Lowering → Handle c × Lowering
  | ⟨arenas, cache⟩ =>
    let h : Handle c := ⟨arenas.count c⟩
    (h, ⟨arenas.modify c (·.push ⟨r, node⟩), cache.modify c (·.insert r h)⟩)

/-- Puts the body into a lowered function. -/
def setBody {c : Category} (h : Handle c) (body : List (Handle .stmt)) : Lowering → Lowering
  | ⟨arenas, cache⟩ =>
    ⟨arenas.modify c (·.modify h.index fun e => { e with node := e.node.withBody body }), cache⟩

/-- Lowering in progress. -/
abbrev Run := StateT Lowering (Except Malformed)

/-- Lowers the node of a reference. The number bounds how deeply nodes are
nested. -/
def lowerNested (p : Program) : Nat → (c : Category) → Ref c → Run (Handle c)
  | 0, _, _ => throw .cyclic
  | depth + 1, _, r => do
    match (← get).handle? r with
    | some h => return h
    | none =>
      match p.node? r with
      | none => throw .dangling
      | some node =>
        let lowered ← node.withoutBody.traverse (lowerNested p depth)
        let h ← modifyGet (push r lowered)
        let body ← node.body.mapM (lowerNested p depth .stmt)
        modify (setBody h body)
        return h

/-- How deeply the nodes of a program can be nested: through each function body
once, and through each node at most once between two bodies. -/
def depthBound (p : Program) : Nat := (p.functionCount + 1) * (p.nodeCount + 1)

/-- Lowers the node of a reference. -/
def lower (p : Program) {c : Category} (r : Ref c) : Run (Handle c) :=
  lowerNested p (depthBound p) c r

/-- The numbers of lowered types, variables, expressions and statements. -/
def stats (s : Lowering) : List Nat :=
  [s.arenas.count .type, s.arenas.count .var, s.arenas.count .expr, s.arenas.count .stmt]

/-- What is reported about a program that was lowered. -/
def event (s : Lowering) (p : Program) : Event :=
  .lowered p.moduleName (s.arenas.count .type) (s.arenas.count .var) (s.arenas.count .expr)
    (s.arenas.count .stmt)

/-- Lowers the functions of a program, then its statements. -/
def lowerProgram (p : Program) : Run (List (Handle .var) × List (Handle .stmt)) := do
  let functions ← p.functions.mapM (lower p)
  let statements ← p.statements.mapM (lower p)
  return (functions, statements)

end Lowering

end QuillImage

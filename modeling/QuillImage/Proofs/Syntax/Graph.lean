import Mathlib.Logic.Relation
import Mathlib.Data.Finset.Card
import Mathlib.Data.Set.Card
import Mathlib.Tactic
import QuillImage.Syntax.Program
import QuillImage.Proofs.Syntax.Mirror

/-!
# The graph of a program

The nodes of a program are the vertices of a graph. `Child` are its edges without
those through the body of a function, and a program is well formed when every
reference names a node and there is no cycle of children. The height of a node is
the number of nodes below it; it gets smaller from a node to its children and is
never more than the number of nodes of the program (`height_lt_of_child`,
`height_le_nodeCount`). `checksWith` is a check of a program by numbers for its nodes.

`Edge` are all edges, those through bodies included. A cycle of edges is allowed; the
nodes that some roots lead to are `Reachable`.
-/

namespace QuillImage.Syntax.Program

/-! ## Well-formed programs -/

/-- The reference names a node. -/
def Has (p : Program) (r : AnyRef Ref) : Prop := ∃ node, p.node? r.2 = some node

/-- The second reference stands in the node of the first one, outside the body of a
function. -/
def Child (p : Program) (r r' : AnyRef Ref) : Prop :=
  ∃ node, p.node? r.2 = some node ∧ r' ∈ node.withoutBody.refs

/-- A program whose references all name nodes and whose only cycles lead through the
body of a function. -/
structure WellFormed (p : Program) : Prop where
  refs : ∀ {c : Category} {r : Ref c} {node : Node c Ref}, p.node? r = some node →
    ∀ r' ∈ node.refs, p.Has r'
  functions : ∀ r ∈ p.functions, p.Has ⟨.var, r⟩
  statements : ∀ r ∈ p.statements, p.Has ⟨.stmt, r⟩
  acyclic : ∀ r, ¬ Relation.TransGen p.Child r r

theorem WellFormed.has_child {p : Program} (hp : p.WellFormed) {r r' : AnyRef Ref}
    (h : p.Child r r') : p.Has r' := by
  obtain ⟨node, hnode, hmem⟩ := h
  refine hp.refs hnode r' ?_
  rw [Node.refs_eq]
  exact List.mem_append_left _ hmem

theorem WellFormed.has_body {p : Program} (hp : p.WellFormed) {c : Category} {r : Ref c}
    {node : Node c Ref} (hnode : p.node? r = some node) {r' : AnyRef Ref}
    (hmem : r' ∈ refsOf .stmt node.body) : p.Has r' := by
  refine hp.refs hnode r' ?_
  rw [Node.refs_eq]
  exact List.mem_append_right _ hmem

/-- Numbers that get smaller from a node to its children rule out cycles. -/
theorem not_transGen_child_self {p : Program} (rank : AnyRef Ref → Nat)
    (hrank : ∀ r r', p.Child r r' → rank r' < rank r) (r : AnyRef Ref) :
    ¬ Relation.TransGen p.Child r r := by
  have hlt : ∀ {r r'}, Relation.TransGen p.Child r r' → rank r' < rank r := by
    intro r r' h
    induction h with
    | single hchild => exact hrank _ _ hchild
    | tail _ hchild ih => exact lt_trans (hrank _ _ hchild) ih
  exact fun h => lt_irrefl _ (hlt h)

/-! ## The nodes -/

/-- The references to the nodes of a category. -/
def refsIn (p : Program) (c : Category) : List (AnyRef Ref) :=
  refsOf c ((List.range (p.nodes.get c).size).map Ref.mk)

/-- The references to all nodes. -/
def allRefs (p : Program) : List (AnyRef Ref) :=
  p.refsIn .type ++ p.refsIn .var ++ p.refsIn .expr ++ p.refsIn .stmt

theorem length_allRefs (p : Program) : p.allRefs.length = p.nodeCount := by
  simp [allRefs, refsIn, refsOf, nodeCount, PerCategory.get, Nat.add_assoc]

theorem mem_refsIn {p : Program} {c : Category} {r : Ref c} (h : p.Has ⟨c, r⟩) :
    ⟨c, r⟩ ∈ p.refsIn c := by
  obtain ⟨node, hnode⟩ := h
  have hlt : r.index < (p.nodes.get c).size := (Array.getElem?_eq_some_iff.1 hnode).1
  simp only [refsIn, refsOf, List.map_map, List.mem_map, List.mem_range]
  exact ⟨r.index, hlt, rfl⟩

theorem mem_allRefs {p : Program} {r : AnyRef Ref} (h : p.Has r) : r ∈ p.allRefs := by
  obtain ⟨c, r⟩ := r
  have hmem := mem_refsIn h
  cases c <;> simp only [allRefs, List.mem_append] <;> tauto

/-! ## Checking a program -/

/-- Whether the reference names a node. -/
def has (p : Program) (r : AnyRef Ref) : Bool := (p.node? r.2).isSome

theorem has_of_has_eq_true {p : Program} {r : AnyRef Ref} (h : p.has r = true) : p.Has r :=
  Option.isSome_iff_exists.1 h

/-- Whether all references name nodes and the numbers get smaller from each node to its
children. -/
def checksWith (p : Program) (rank : AnyRef Ref → Nat) : Bool :=
  (p.allRefs.all fun r => (p.node? r.2).all fun node =>
    node.refs.all p.has && node.withoutBody.refs.all fun r' => rank r' < rank r) &&
  (refsOf .var p.functions).all p.has && (refsOf .stmt p.statements).all p.has

/-- Numbers that get smaller from a node to its children show that a program is well
formed. -/
theorem wellFormed_of_checksWith {p : Program} (rank : AnyRef Ref → Nat)
    (h : p.checksWith rank = true) : p.WellFormed := by
  simp only [checksWith, Bool.and_eq_true, List.all_eq_true] at h
  obtain ⟨⟨hnodes, hfunctions⟩, hstatements⟩ := h
  have hnode : ∀ {c : Category} {r : Ref c} {node : Node c Ref}, p.node? r = some node →
      (∀ r' ∈ node.refs, p.has r' = true) ∧
        ∀ r' ∈ node.withoutBody.refs, rank r' < rank ⟨c, r⟩ := by
    intro c r node hr
    have hall := hnodes ⟨c, r⟩ (mem_allRefs ⟨node, hr⟩)
    simpa [hr] using hall
  refine ⟨fun hr r' hmem => has_of_has_eq_true ((hnode hr).1 r' hmem), fun r hr => ?_,
    fun r hr => ?_, not_transGen_child_self rank ?_⟩
  · exact has_of_has_eq_true (hfunctions _ (List.mem_map_of_mem hr))
  · exact has_of_has_eq_true (hstatements _ (List.mem_map_of_mem hr))
  · rintro r r' ⟨node, hr, hmem⟩
    exact (hnode hr).2 r' hmem

/-! ## Height -/

open Classical in
/-- The number of nodes below a node. -/
noncomputable def height (p : Program) (r : AnyRef Ref) : Nat :=
  (p.allRefs.toFinset.filter (Relation.TransGen p.Child r)).card

open Classical in
theorem height_le_nodeCount (p : Program) (r : AnyRef Ref) : p.height r ≤ p.nodeCount := by
  calc p.height r ≤ p.allRefs.toFinset.card := Finset.card_filter_le _ _
    _ ≤ p.allRefs.length := p.allRefs.toFinset_card_le
    _ = p.nodeCount := p.length_allRefs

open Classical in
/-- A child is below its parent and not below itself. -/
theorem WellFormed.height_lt_of_child {p : Program} (hp : p.WellFormed) {r r' : AnyRef Ref}
    (h : p.Child r r') : p.height r' < p.height r := by
  -- what is below the child is below the parent, and the child itself is only below the parent
  refine Finset.card_lt_card ⟨fun x hx => ?_, fun hsub => ?_⟩
  · obtain ⟨hmem, hbelow⟩ := Finset.mem_filter.1 hx
    exact Finset.mem_filter.2 ⟨hmem, .head h hbelow⟩
  · have hr' : r' ∈ p.allRefs.toFinset := List.mem_toFinset.2 (mem_allRefs (hp.has_child h))
    exact hp.acyclic r' (Finset.mem_filter.1 (hsub (Finset.mem_filter.2 ⟨hr', .single h⟩))).2

/-! ## Functions -/

/-- The reference names a function of the program. -/
def isFunction (p : Program) (r : Ref .var) : Bool := (p.node? r).any isDefined

/-- The references to the functions among the nodes. -/
def functionRefs (p : Program) : List (Ref .var) :=
  ((List.range p.nodes.var.size).map Ref.mk).filter p.isFunction

theorem mem_functionRefs {p : Program} {r : Ref .var} {f : Function Ref}
    (h : p.node? r = some (Variable.function f : Node .var Ref)) : r ∈ p.functionRefs := by
  have hlt : r.index < p.nodes.var.size := (Array.getElem?_eq_some_iff.1 h).1
  refine List.mem_filter.2 ⟨List.mem_map.2 ⟨r.index, List.mem_range.2 hlt, rfl⟩, ?_⟩
  simp [isFunction, h, isDefined]

/-- As many positions of a list satisfy a predicate as members do. -/
theorem countP_range_length {α : Type} (q : α → Bool) (l : List α) :
    (List.range l.length).countP (fun i => l[i]?.any q) = l.countP q := by
  induction l with
  | nil => rfl
  | cons a l ih =>
    rw [List.length_cons, List.range_succ_eq_map, List.countP_cons, List.countP_map,
      List.countP_cons, ← ih]
    rfl

theorem length_functionRefs (p : Program) : p.functionRefs.length = p.functionCount := by
  have hcount : p.functionCount = p.nodes.var.toList.countP isDefined := Array.countP_toList.symm
  rw [hcount, ← countP_range_length, functionRefs, ← List.countP_eq_length_filter,
    List.countP_map, Array.length_toList]
  refine List.countP_congr fun i _ => ?_
  simp [isFunction, node?, PerCategory.get]

/-! ## All edges -/

/-- The second reference stands in the body of the function that the first one names. -/
def InBody (p : Program) (r r' : AnyRef Ref) : Prop :=
  ∃ node, p.node? r.2 = some node ∧ r' ∈ refsOf .stmt node.body

/-- The second reference stands in the node of the first one. -/
def Edge (p : Program) (r r' : AnyRef Ref) : Prop :=
  ∃ node, p.node? r.2 = some node ∧ r' ∈ node.refs

theorem edge_iff {p : Program} {r r' : AnyRef Ref} :
    p.Edge r r' ↔ p.Child r r' ∨ p.InBody r r' := by
  constructor
  · rintro ⟨node, hnode, hmem⟩
    rw [Node.refs_eq, List.mem_append] at hmem
    exact hmem.imp (fun h => ⟨node, hnode, h⟩) fun h => ⟨node, hnode, h⟩
  · rintro (⟨node, hnode, hmem⟩ | ⟨node, hnode, hmem⟩)
    · exact ⟨node, hnode, by rw [Node.refs_eq]; exact List.mem_append_left _ hmem⟩
    · exact ⟨node, hnode, by rw [Node.refs_eq]; exact List.mem_append_right _ hmem⟩

theorem has_of_transGen {p : Program} {r r' : AnyRef Ref} (h : Relation.TransGen p.Edge r r') :
    p.Has r := by
  obtain ⟨_, ⟨node, hnode, _⟩, _⟩ := Relation.TransGen.head'_iff.1 h
  exact ⟨node, hnode⟩

/-- Only functions have statements in their bodies. -/
theorem InBody.exists_function {p : Program} {r r' : AnyRef Ref} (h : p.InBody r r') :
    ∃ f ∈ p.functionRefs, r = ⟨.var, f⟩ := by
  obtain ⟨c, r⟩ := r
  obtain ⟨node, hnode, hmem⟩ := h
  cases c with
  | type | expr | stmt => cases hmem
  | var =>
    cases node with
    | function f => exact ⟨r, mem_functionRefs hnode, rfl⟩
    | _ => cases hmem

/-! ## Reachability -/

/-- One of the roots leads to the reference. -/
def Reachable (p : Program) (roots : List (AnyRef Ref)) (r : AnyRef Ref) : Prop :=
  ∃ root ∈ roots, Relation.ReflTransGen p.Edge root r

/-- The nodes of a category that some roots lead to. -/
def reachable (p : Program) (roots : List (AnyRef Ref)) (c : Category) : Set (Ref c) :=
  {r | p.Reachable roots ⟨c, r⟩}

/-- The functions that some roots lead to. -/
def reachableFunctions (p : Program) (roots : List (AnyRef Ref)) : Set (Ref .var) :=
  {f | f ∈ p.functionRefs ∧ p.Reachable roots ⟨.var, f⟩}

theorem finite_reachableFunctions (p : Program) (roots : List (AnyRef Ref)) :
    (p.reachableFunctions roots).Finite :=
  p.functionRefs.toFinset.finite_toSet.subset fun _ hf => List.mem_toFinset.2 hf.1

theorem ncard_reachableFunctions_le (p : Program) (roots : List (AnyRef Ref)) :
    (p.reachableFunctions roots).ncard ≤ p.functionCount := by
  have hsub : p.reachableFunctions roots ⊆ (p.functionRefs.toFinset : Set (Ref .var)) :=
    fun _ hf => List.mem_toFinset.2 hf.1
  calc (p.reachableFunctions roots).ncard ≤ p.functionRefs.toFinset.card := by
        rw [← Set.ncard_coe_finset]
        exact Set.ncard_le_ncard hsub
    _ ≤ p.functionRefs.length := p.functionRefs.toFinset_card_le
    _ = p.functionCount := p.length_functionRefs

end QuillImage.Syntax.Program

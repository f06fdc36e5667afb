import Mathlib.Tactic
import QuillImage.Generation
import QuillImage.Proofs.Lowering.Order

/-!
# Walks into ordered nodes

A walk into a node is bounded in how deeply nodes are nested. Among ordered nodes the bound
plays no part: any bound above the handle gives the same walk (`descendNested_eq`), and a
walk into a node is what is done there, with walks into the nodes that it refers to
(`descend_eq`). What holds of a node once it holds of these nodes holds of every node
(`Arenas.Ordered.induction`).

The three steps of generation walk only into nodes that the node refers to
(`local_defaultWith`, `local_valueWith`, `local_executeWith`).
-/

namespace QuillImage

open Syntax

/-- What holds of a node once it holds of the nodes of its category that it refers to
holds of every node. -/
theorem Arenas.Ordered.induction {a : Arenas} (ha : a.Ordered) {c : Category}
    {motive : Handle c → Prop}
    (step : ∀ (h : Handle c) (n : Node c Handle), a.node? h = some n →
      (∀ h', ⟨c, h'⟩ ∈ n.withoutBody.refs → motive h') → motive h)
    (h : Handle c) (hh : a.Has ⟨c, h⟩) : motive h := by
  obtain ⟨i⟩ := h
  induction i using Nat.strong_induction_on with
  | _ i ih =>
    obtain ⟨n, hn⟩ := exists_node?_of_has hh
    apply step ⟨i⟩ n hn
    intro h' hmem
    apply ih h'.index (ha.smaller hn hmem)
    exact ha.has hn ⟨c, h'⟩ (Node.refs_withoutBody_subset n hmem)

namespace Generation

variable {a : Arenas} {c : Category}

/-! ## The bound -/

theorem node_eq {h : Handle c} {n : Node c Handle} (hn : a.node? h = some n) :
    node a h = pure n := by
  rw [node, hn]

theorem node_eq_throw {h : Handle c} (hn : a.node? h = none) : node a h = throw .broken := by
  rw [node, hn]

/-- The step walks only into nodes that the node refers to. -/
def Local (step : (Handle c → Walk Unit) → Node c Handle → Walk Unit) : Prop :=
  ∀ (n : Node c Handle) (f g : Handle c → Walk Unit),
    (∀ h, ⟨c, h⟩ ∈ n.withoutBody.refs → f h = g h) → step f n = step g n

section Descend

variable {step : (Handle c → Walk Unit) → Node c Handle → Walk Unit}

/-- Two bounds above a handle give the same walk. -/
theorem descendNested_congr (ha : a.Ordered) (hstep : Local step) {depth depth' : Nat}
    {h : Handle c} (hdepth : h.index < depth) (hdepth' : h.index < depth') :
    descendNested a step depth h = descendNested a step depth' h := by
  induction depth generalizing h depth' with
  | zero => cases hdepth
  | succ depth ih =>
    cases depth' with
    | zero => cases hdepth'
    | succ depth' =>
      rw [descendNested, descendNested]
      cases hn : a.node? h with
      | none => rw [node_eq_throw hn]; rfl
      | some n =>
        rw [node_eq hn, pure_bind, pure_bind]
        apply hstep
        -- what the node refers to is smaller, and one less of either bound is above it
        intro h' hmem
        have hsmaller := ha.smaller hn hmem
        exact ih (by omega) (by omega)

/-- A greater bound changes nothing. -/
theorem descendNested_eq (ha : a.Ordered) (hstep : Local step) {depth : Nat} {h : Handle c}
    (hdepth : h.index < depth) : descendNested a step depth h = descend a step h :=
  descendNested_congr ha hstep hdepth (Nat.lt_succ_self h.index)

/-- A walk into a node is its step, with walks into the nodes that it refers to. -/
theorem descend_eq (ha : a.Ordered) (hstep : Local step) {h : Handle c} {n : Node c Handle}
    (hn : a.node? h = some n) : descend a step h = step (descend a step) n := by
  rw [descend, descendNested, node_eq hn, pure_bind]
  apply hstep
  intro h' hmem
  exact descendNested_eq ha hstep (ha.smaller hn hmem)

end Descend

/-! ## What the steps walk into -/

theorem forM_congr {α : Type} {xs : List α} {f g : α → Walk Unit} (h : ∀ x ∈ xs, f x = g x) :
    xs.forM f = xs.forM g := by
  induction xs with
  | nil => rfl
  | cons x xs ih =>
    have hhead : f x = g x := h x List.mem_cons_self
    have htail : xs.forM f = xs.forM g := ih fun y hy => h y (List.mem_cons_of_mem x hy)
    change (f x >>= fun _ => xs.forM f) = (g x >>= fun _ => xs.forM g)
    rw [hhead, htail]

@[simp]
theorem mem_refsOf_self {h : Handle c} {hs : List (Handle c)} :
    (⟨c, h⟩ : AnyRef Handle) ∈ refsOf c hs ↔ h ∈ hs := by
  simp [refsOf]

theorem type_mem_refs (v : Variable Handle) : ⟨.type, v.type⟩ ∈ v.refs := by
  cases v <;> exact List.mem_cons_self

theorem field_mem_refs (name : String) {fields : List (RecordField Handle)}
    {field : RecordField Handle} (hfield : field ∈ fields) :
    ⟨.type, field.type⟩ ∈ (Ty.record name fields).refs :=
  List.mem_map_of_mem (List.mem_map_of_mem hfield)

theorem mem_refs_of_mem_operands {e : Expr Handle} {h : Handle .expr} (hmem : h ∈ operands e) :
    ⟨.expr, h⟩ ∈ e.refs := by
  cases e <;> simp_all [operands, Expr.refs]

theorem mem_refs_of_mem_whenOperands {w : When Handle} {h : Handle .expr}
    (hmem : h ∈ whenOperands w) : ⟨.expr, h⟩ ∈ w.refs := by
  cases w <;> simpa [whenOperands, When.refs] using hmem

theorem mem_refs_of_value_mem_parts {t : Stmt Handle} {h : Handle .expr}
    (hmem : .value h ∈ parts t) : ⟨.expr, h⟩ ∈ t.refs := by
  cases t with
  | conditional clauses otherwise =>
    have hclauses : ∃ clause ∈ clauses, h = clause.condition := by simpa [parts] using hmem
    obtain ⟨clause, hclause, rfl⟩ := hclauses
    apply List.mem_append_left
    exact List.mem_flatMap.2 ⟨clause, hclause, List.mem_cons_self⟩
  | selection subject clauses otherwise =>
    have hclauses : h = subject ∨
        ∃ clause ∈ clauses, ∃ w ∈ clause.conditions, h ∈ whenOperands w := by
      simpa [parts] using hmem
    rcases hclauses with rfl | ⟨clause, hclause, w, hw, hoperand⟩
    · exact List.mem_cons_self
    · apply List.mem_cons_of_mem
      apply List.mem_append_left
      refine List.mem_flatMap.2 ⟨clause, hclause, List.mem_append_left _ ?_⟩
      exact List.mem_flatMap.2 ⟨w, hw, mem_refs_of_mem_whenOperands hoperand⟩
  | forLoop id var first last step body =>
    have hbounds : h = first ∨ h = last ∨ h = step := by simpa [parts] using hmem
    rcases hbounds with rfl | rfl | rfl <;> simp [Stmt.refs]
  | _ => simp_all [parts, Stmt.refs]

theorem mem_refs_of_effect_mem_parts {t : Stmt Handle} {h : Handle .stmt}
    (hmem : .effect h ∈ parts t) : ⟨.stmt, h⟩ ∈ t.refs := by
  cases t with
  | conditional clauses otherwise =>
    have hstatements : (∃ clause ∈ clauses, h ∈ clause.statements) ∨ h ∈ otherwise := by
      simpa [parts] using hmem
    simp [Stmt.refs, IfClause.refs, hstatements]
  | selection subject clauses otherwise =>
    have hstatements : (∃ clause ∈ clauses, h ∈ clause.statements) ∨ h ∈ otherwise := by
      simpa [parts] using hmem
    rcases hstatements with ⟨clause, hclause, hh⟩ | hh
    · apply List.mem_cons_of_mem
      apply List.mem_append_left
      refine List.mem_flatMap.2 ⟨clause, hclause, List.mem_append_right _ ?_⟩
      exact mem_refsOf_self.2 hh
    · simp [Stmt.refs, hh]
  | trap body catches =>
    have hstatements : h ∈ body ∨ ∃ handler ∈ catches, h ∈ handler.statements := by
      simpa [parts] using hmem
    rcases hstatements with hh | ⟨handler, hhandler, hh⟩
    · simp [Stmt.refs, hh]
    · apply List.mem_append_right
      refine List.mem_flatMap.2 ⟨handler, hhandler, List.mem_append_right _ ?_⟩
      exact mem_refsOf_self.2 hh
  | _ => simp_all [parts, Stmt.refs]

theorem local_defaultWith : Local defaultWith := by
  intro t f g hfg
  cases t with
  | record name fields =>
    apply forM_congr
    intro field hfield
    exact hfg field.type (field_mem_refs name hfield)
  | _ => rfl

section Calls

variable {f g : Handle .expr → Walk Unit} {args : List (Handle .expr)}

theorem callType_congr (hargs : ∀ x ∈ args, f x = g x) (type : Ty Handle) :
    callType f type args = callType g type args := by
  cases type with
  | functionPointer _ => simp only [callType, forM_congr hargs]
  | _ => rfl

theorem callVariable_congr (hargs : ∀ x ∈ args, f x = g x) (v : Variable Handle) :
    callVariable a f v args = callVariable a g v args := by
  simp only [callVariable, forM_congr hargs, callType_congr hargs]

theorem callWith_congr {h : Handle .expr} (hh : f h = g h) (hargs : ∀ x ∈ args, f x = g x) :
    callWith a f h args = callWith a g h args := by
  simp only [callWith, callVariable_congr hargs, hh]

end Calls

theorem local_valueWith (a : Arenas) : Local (valueWith a) := by
  intro e f g hfg
  have hoperands : (operands e).forM f = (operands e).forM g :=
    forM_congr fun h hmem => hfg h (mem_refs_of_mem_operands hmem)
  cases e with
  | var v => rfl
  | call callee args =>
    apply callWith_congr
    · exact hfg callee List.mem_cons_self
    · intro x hx
      exact hfg x (List.mem_cons_of_mem _ (mem_refsOf_self.2 hx))
  | newRecord type value =>
    cases value with
    | none => rfl
    | some value => simp only [valueWith, hoperands]
  | _ => simp only [valueWith, hoperands]

theorem local_executeWith (a : Arenas) : Local (executeWith a) := by
  intro t f g hfg
  have hparts : (parts t).forM (visit a f) = (parts t).forM (visit a g) := by
    apply forM_congr
    intro part hmem
    cases part with
    | value h => rfl
    | effect h => exact hfg h (mem_refs_of_effect_mem_parts hmem)
  rw [executeWith, executeWith, hparts]

end Generation

end QuillImage

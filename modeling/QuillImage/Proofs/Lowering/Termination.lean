import Mathlib.Tactic
import QuillImage.Proofs.Lowering.Rules
import QuillImage.Proofs.Syntax.Graph

/-!
# Lowering terminates

Lowering goes down from a node to its children, and from a function to its body
once the function is in the cache. So a nesting is long only if it meets many
nodes below each other or many functions that were not in the cache. The functions
that are not in the cache (`pending`) and the height of a node bound the depth that
lowering needs (`total_lowerNested`), and the bound that lowering starts with is
large enough for every well-formed program (`exists_run_lower`).
-/

namespace QuillImage.Lowering

open Syntax

variable {p : Program}

/-! ## Functions that are not in the cache -/

/-- The functions of the program that have no handle yet. -/
def pending (p : Program) (s : Lowering) : Finset (Ref .var) :=
  p.functionRefs.toFinset.filter fun r => s.handle? r = none

theorem card_pending_le (p : Program) (s : Lowering) : (pending p s).card ≤ p.functionCount := by
  calc (pending p s).card ≤ p.functionRefs.toFinset.card := Finset.card_filter_le _ _
    _ ≤ p.functionRefs.length := p.functionRefs.toFinset_card_le
    _ = p.functionCount := p.length_functionRefs

/-- An appended node is no longer pending, and all else stays. -/
theorem pending_push_subset {c : Category} (s : Lowering) (r : Ref c) (node : Node c Handle) :
    pending p (push r node s).2 ⊆ pending p s := by
  intro f hf
  obtain ⟨hmem, hnone⟩ := Finset.mem_filter.1 hf
  have hne : (⟨.var, f⟩ : AnyRef Ref) ≠ ⟨c, r⟩ := by
    rintro ⟨⟩
    rw [handle?_push_self] at hnone
    cases hnone
  rw [handle?_push_of_ne _ _ _ hne] at hnone
  exact Finset.mem_filter.2 ⟨hmem, hnone⟩

/-- A function with a body that was pending is no longer so once it is appended. -/
theorem card_pending_push_lt {c : Category} {r : Ref c} {node : Node c Ref} {s s₁ : Lowering}
    (hnode : p.node? r = some node) (hbody : node.body ≠ []) (huncached : s.handle? r = none)
    (hs₁ : pending p s₁ ⊆ pending p s) (lowered : Node c Handle) :
    (pending p (push r lowered s₁).2).card < (pending p s).card := by
  cases c with
  | type | expr | stmt => exact absurd rfl hbody
  | var =>
    cases node with
    | function f =>
      have hr : r ∈ pending p s :=
        Finset.mem_filter.2 ⟨List.mem_toFinset.2 (Program.mem_functionRefs hnode), huncached⟩
      refine Finset.card_lt_card ⟨(pending_push_subset s₁ r lowered).trans hs₁, fun hsub => ?_⟩
      have hnone := (Finset.mem_filter.1 (hsub hr)).2
      rw [handle?_push_self] at hnone
      cases hnone
    | _ => exact absurd rfl hbody

/-! ## The depth that is needed -/

/-- The depth that a reference needs when at most the functions in `U` are pending:
a height for the reference itself, and a whole height for each function. -/
noncomputable def depthFor (p : Program) (U : Finset (Ref .var)) (r : AnyRef Ref) : Nat :=
  U.card * (p.nodeCount + 1) + p.height r + 1

/-- With enough depth, lowering returns, and no function becomes pending. -/
theorem total_lowerNested (hp : p.WellFormed) {depth : Nat} {U : Finset (Ref .var)}
    {c : Category} {r : Ref c} (hr : p.Has ⟨c, r⟩) (hdepth : depthFor p U ⟨c, r⟩ ≤ depth) :
    Total (fun s => pending p s ⊆ U) (lowerNested p depth c r) := by
  induction depth generalizing U c r with
  | zero => simp [depthFor] at hdepth
  | succ depth ih =>
    intro s hs
    cases hcache : s.handle? r with
    | some h => exact ⟨h, s, run_lowerNested_of_cached hcache, hs⟩
    | none =>
      obtain ⟨node, hnode⟩ := hr
      have hcard : (pending p s).card ≤ U.card := Finset.card_le_card hs
      -- the children are lower, and the functions that are pending stay the same
      have hchildren : Total (fun s' => pending p s' ⊆ pending p s)
          (node.withoutBody.traverse (lowerNested p depth)) := by
        refine (Node.visits _ _).total ?_
        rintro ⟨d, r'⟩ hr'
        have hchild : p.Child ⟨c, r⟩ ⟨d, r'⟩ := ⟨node, hnode, hr'⟩
        refine ih (hp.has_child hchild) ?_
        have hheight := hp.height_lt_of_child hchild
        have hmul := Nat.mul_le_mul_right (p.nodeCount + 1) hcard
        simp only [depthFor] at hdepth ⊢
        omega
      obtain ⟨lowered, s₁, hrun, hs₁⟩ := hchildren s (Finset.Subset.refl _)
      -- the statements of the body may be of any height, but the function is not pending
      have hstatements : Total (fun s' => pending p s' ⊆ pending p (push r lowered s₁).2)
          (node.body.mapM (lowerNested p depth .stmt)) := by
        refine (Visits.list _ _).total ?_
        rintro ⟨d, r'⟩ hr'
        refine ih (hp.has_body hnode hr') ?_
        have hbody : node.body ≠ [] := by
          intro hnil
          simp [hnil, refsOf] at hr'
        have hlt := card_pending_push_lt hnode hbody hcache hs₁ lowered
        have hheight := p.height_le_nodeCount ⟨d, r'⟩
        have hmul := Nat.mul_le_mul_right (p.nodeCount + 1) (hlt.trans_le hcard)
        simp only [depthFor, Nat.succ_mul] at hdepth hmul ⊢
        omega
      obtain ⟨body, s₂, hrun', hs₂⟩ := hstatements _ (Finset.Subset.refl _)
      refine ⟨_, _, run_lowerNested_of_uncached hcache hnode hrun hrun', ?_⟩
      exact ((hs₂.trans (pending_push_subset s₁ r lowered)).trans hs₁).trans hs

/-- Lowering a node of a well-formed program returns. -/
theorem exists_run_lower (hp : p.WellFormed) {c : Category} {r : Ref c} (hr : p.Has ⟨c, r⟩)
    (s : Lowering) : ∃ h s', (lower p r).run s = .ok (h, s') := by
  have hdepth : depthFor p (pending p s) ⟨c, r⟩ ≤ depthBound p := by
    have hheight := p.height_le_nodeCount ⟨c, r⟩
    have hmul := Nat.mul_le_mul_right (p.nodeCount + 1) (card_pending_le p s)
    simp only [depthFor, depthBound, Nat.succ_mul]
    omega
  obtain ⟨h, s', hrun, _⟩ := total_lowerNested hp hr hdepth s (Finset.Subset.refl _)
  exact ⟨h, s', hrun⟩

end QuillImage.Lowering

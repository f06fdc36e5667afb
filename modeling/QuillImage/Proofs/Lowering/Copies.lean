import Mathlib.Data.Set.Card
import Mathlib.Tactic
import QuillImage.Proofs.Lowering.Cache

/-!
# How often a reference is lowered

A reference is lowered again only if it is met while it is being lowered, before it is
in the cache. What leads from a reference back to itself goes through the body of a
function that was not in the cache either, and by then it is. So each time that the
reference is met again uses up a function (`Spends`), and a reference has at most one
node more than there are functions to use up. A reference that nothing leads back to
has one node.

`exists_run_calls_copies` states these bounds for any calls one after the other, and
`nodup_origins_iff` says for which programs every expression and every statement has
one node whatever is called.
-/

namespace QuillImage.Lowering

open Syntax

variable {p : Program} {s s' s₁ s₂ : Lowering} {c d : Category}

/-! ## The price of meeting a reference again -/

/-- A price for meeting `r` again. The children of `r` are clear, and what is clear stays
so from a node to its children. In the body of a function it may end, but then the
function has just been entered into the cache, and the weight gets less. -/
structure Guards (p : Program) (r : AnyRef Ref) (clear : AnyRef Ref → Prop)
    (weight : Lowering → Nat) : Prop where
  not_self : ¬ clear r
  start : ∀ {r'}, p.Child r r' → clear r'
  child : ∀ {x r'}, clear x → p.Child x r' → clear r'
  weight_le : ∀ {s s' : Lowering}, (∀ x, s.Cached x → s'.Cached x) → weight s' ≤ weight s
  body : ∀ {x r'} {s s' : Lowering}, clear x → p.InBody x r' →
    (∀ x, s.Cached x → s'.Cached x) → ¬ s.Cached x → s'.Cached x →
      clear r' ∨ weight s' < weight s

/-- The nodes that visits add for `r`, which had none, are paid for up to one, and all of
them if the visits start from what is clear. -/
structure Spends (r : AnyRef Ref) (clear : AnyRef Ref → Prop) (weight : Lowering → Nat)
    (s : Lowering) (vs : List Visit) (s' : Lowering) : Prop where
  le_succ : s'.copies r + weight s' ≤ weight s + 1
  le : (∀ v ∈ vs, clear v.anyRef) → s'.copies r + weight s' ≤ weight s

section Spends

variable {r : AnyRef Ref} {clear : AnyRef Ref → Prop} {weight : Lowering → Nat} {depth : Nat}

theorem Spends.refl (hs : s.Consistent) (hr : ¬ s.Cached r) (vs : List Visit) :
    Spends r clear weight s vs s := by
  have hnone := hs.copies_eq_zero hr
  exact ⟨by omega, fun _ => by omega⟩

section Append

variable {vs ws : List Visit} (h : Spends r clear weight s vs s₁) (hle : weight s₁ ≤ weight s)
  (hle' : weight s' ≤ weight s₁) (hsame : s₁.Cached r → s'.copies r = s₁.copies r)
  (h' : ¬ s₁.Cached r → Spends r clear weight s₁ ws s')

include h hle hle' hsame h'

/-- Of visits one after the other, either the first ones lower the reference and the others
find it in the cache, or the others alone add nodes for it. -/
theorem Spends.le_succ_append : s'.copies r + weight s' ≤ weight s + 1 := by
  by_cases hr₁ : s₁.Cached r
  · have := hsame hr₁
    have := h.le_succ
    omega
  · have := (h' hr₁).le_succ
    omega

/-- All nodes are paid for if the first visits start from what is clear, and the others do
so too or were paid for in advance. -/
theorem Spends.le_append (hvs : ∀ v ∈ vs, clear v.anyRef)
    (hws : (∀ w ∈ ws, clear w.anyRef) ∨ weight s₁ < weight s) :
    s'.copies r + weight s' ≤ weight s := by
  by_cases hr₁ : s₁.Cached r
  · have := hsame hr₁
    have := h.le hvs
    omega
  · rcases hws with hws | hless
    · have := (h' hr₁).le hws
      omega
    · have := (h' hr₁).le_succ
      omega

end Append

/-- Visits that are paid for one by one are paid for together. -/
theorem Chain.spends (hg : Guards p r clear weight) {vs : List Visit}
    (h : Chain (fun s v s' => Returns (lowerNested p depth) s v s' ∧
      (s.Consistent → ¬ s.Cached r → Spends r clear weight s [v] s')) s vs s')
    (hs : s.Consistent) (hr : ¬ s.Cached r) : Spends r clear weight s vs s' := by
  induction h with
  | nil s => exact .refl hs hr []
  | @cons s s₁ s₂ v vs head tail ih =>
    have hhead := head.2 hs hr
    have hsettles := Settles.of_returns head.1
    have hsettles' := Settles.of_runs (tail.mono fun _ _ _ hrun => hrun.1)
    have hweight := hg.weight_le fun _ => hsettles.cached
    have hweight' := hg.weight_le fun _ => hsettles'.cached
    have htail := ih (Consistent.of_returns head.1 hs)
    refine ⟨hhead.le_succ_append hweight hweight' hsettles'.unchanged htail, fun hclear => ?_⟩
    obtain ⟨hv, hvs⟩ := List.forall_mem_cons.1 hclear
    exact hhead.le_append hweight hweight' hsettles'.unchanged htail (by simpa using hv) (.inl hvs)

/-- An expanded reference is paid for if the references of its node are. -/
theorem Expands.spends (hg : Guards p r clear weight) {v : Visit}
    (h : Expands p (fun s v s' => Returns (lowerNested p depth) s v s' ∧
      (s.Consistent → ¬ s.Cached r → Spends r clear weight s [v] s')) s v s')
    (hs : s.Consistent) (hr : ¬ s.Cached r) : Spends r clear weight s [v] s' := by
  cases h with
  | @intro s₁ s₂ c x node lowered children statements body huncached hnode hchildren
      hchildrenRefs _ hstatements hstatementsRefs _ =>
    have hruns₁ := hchildren.mono fun _ _ _ hrun => hrun.1
    have hruns₂ := hstatements.mono fun _ _ _ hrun => hrun.1
    have hsettles₁ := Settles.of_runs hruns₁
    have hsettles₂ := Settles.of_runs hruns₂
    have hpushed := (Consistent.of_chain hruns₁ hs).push x lowered
    have hspends₁ := hchildren.spends hg hs hr
    have hcached : ∀ y, s.Cached y → (push x lowered s₁).2.Cached y :=
      fun y hy => (hsettles₁.cached hy).push x lowered
    have hchild : ∀ w ∈ children, p.Child ⟨c, x⟩ w.anyRef := by
      intro w hw
      refine ⟨node, hnode, ?_⟩
      rw [← hchildrenRefs]
      exact List.mem_map_of_mem hw
    have hinBody : ∀ w ∈ statements, p.InBody ⟨c, x⟩ w.anyRef := by
      intro w hw
      refine ⟨node, hnode, ?_⟩
      rw [← hstatementsRefs]
      exact List.mem_map_of_mem hw
    -- the weight never gets more on the way
    have hweightPush : weight (push x lowered s₁).2 ≤ weight s₁ :=
      hg.weight_le fun _ hy => hy.push x lowered
    have hweight₁ : weight (push x lowered s₁).2 ≤ weight s := hg.weight_le hcached
    have hweight₂ : weight s₂ ≤ weight (push x lowered s₁).2 :=
      hg.weight_le fun _ => hsettles₂.cached
    have hweight' : weight (setBody (s₁.next c) body s₂) ≤ weight s₂ := hg.weight_le fun _ => id
    have hcopies : (setBody (s₁.next c) body s₂).copies r = s₂.copies r := copies_setBody _ _ _ _
    by_cases heq : r = ⟨c, x⟩
    -- the reference itself: what its children added for it is paid for, and it adds one
    · subst heq
      have hpaid := hspends₁.le fun w hw => hg.start (hchild w hw)
      have hsame := hsettles₂.unchanged (cached_push_self s₁ x lowered)
      rw [copies_push_self] at hsame
      refine ⟨by omega, fun hclear => ?_⟩
      exact absurd (hclear _ (List.mem_singleton.2 rfl)) hg.not_self
    · have hpush := copies_push_of_ne s₁ lowered heq
      have hfirst : Spends r clear weight s children (push x lowered s₁).2 := by
        refine ⟨?_, fun hclear => ?_⟩
        · have := hspends₁.le_succ
          omega
        · have := hspends₁.le hclear
          omega
      have hsecond := hstatements.spends hg hpushed
      refine ⟨?_, fun hclear => ?_⟩
      · have := hfirst.le_succ_append hweight₁ hweight₂ hsettles₂.unchanged hsecond
        omega
      · have hx : clear ⟨c, x⟩ := hclear _ (List.mem_singleton.2 rfl)
        have hbody : (∀ w ∈ statements, clear w.anyRef) ∨
            weight (push x lowered s₁).2 < weight s := by
          by_contra hnot
          obtain ⟨hnotAll, hnotLess⟩ := not_or.1 hnot
          refine hnotAll fun w hw => Or.resolve_right ?_ hnotLess
          exact hg.body hx (hinBody w hw) hcached (not_cached_iff.2 huncached)
            (cached_push_self s₁ x lowered)
        have := hfirst.le_append hweight₁ hweight₂ hsettles₂.unchanged hsecond
          (fun w hw => hg.child hx (hchild w hw)) hbody
        omega

/-- Every run is paid for. -/
theorem Spends.of_returns (hg : Guards p r clear weight) {v : Visit}
    (h : Returns (lowerNested p depth) s v s') (hs : s.Consistent) (hr : ¬ s.Cached r) :
    Spends r clear weight s [v] s' := by
  refine lowerNested_strong_induction
    (motive := fun s v s' => s.Consistent → ¬ s.Cached r → Spends r clear weight s [v] s')
    (fun s v _ hs hr => ?_) (fun _ _ _ _ hexpands hs hr => ?_) h hs hr
  · exact .refl hs hr [v]
  · exact hexpands.spends hg hs hr

theorem Spends.of_chain (hg : Guards p r clear weight) {vs : List Visit}
    (h : Chain (Returns (lowerNested p depth)) s vs s') (hs : s.Consistent)
    (hr : ¬ s.Cached r) : Spends r clear weight s vs s' :=
  Chain.spends hg (h.mono fun _ _ _ hrun => ⟨hrun, .of_returns hg hrun⟩) hs hr

end Spends

/-! ## Two prices -/

theorem pending_subset (h : ∀ x, s.Cached x → s'.Cached x) : pending p s' ⊆ pending p s := by
  intro f hf
  obtain ⟨hmem, hnone⟩ := Finset.mem_filter.1 hf
  refine Finset.mem_filter.2 ⟨hmem, ?_⟩
  exact (not_cached_iff (r := ⟨.var, f⟩)).1 (mt (h _) (not_cached_iff.2 hnone))

/-- Meeting a reference again uses up a function that was not in the cache, for no chain of
children leads from a reference to itself. -/
theorem guards_pending (hp : p.WellFormed) (r : AnyRef Ref) :
    Guards p r (fun x => ¬ Relation.ReflTransGen p.Child x r) fun s => (pending p s).card where
  not_self h := h .refl
  start hchild hpath := hp.acyclic r (.head' hchild hpath)
  child hclear hchild hpath := hclear (.head hchild hpath)
  weight_le h := Finset.card_le_card (pending_subset h)
  body := by
    intro x r' s s' _ hbody hcached hx hx'
    obtain ⟨f, hf, rfl⟩ := hbody.exists_function
    refine .inr (Finset.card_lt_card ⟨pending_subset hcached, fun hsub => ?_⟩)
    have hpending : f ∈ pending p s :=
      Finset.mem_filter.2 ⟨List.mem_toFinset.2 hf, not_cached_iff.1 hx⟩
    exact not_cached_iff.2 (Finset.mem_filter.1 (hsub hpending)).2 hx'

/-- A reference that nothing leads back to is never met again. -/
theorem guards_of_not_transGen_self {r : AnyRef Ref} (hr : ¬ Relation.TransGen p.Edge r r) :
    Guards p r (fun x => ¬ Relation.ReflTransGen p.Edge x r) fun _ => 0 where
  not_self h := h .refl
  start hchild hpath := hr (.head' (Program.edge_iff.2 (.inl hchild)) hpath)
  child hclear hchild hpath := hclear (.head (Program.edge_iff.2 (.inl hchild)) hpath)
  weight_le _ := le_rfl
  body hclear hbody _ _ _ := .inl fun hpath =>
    hclear (.head (Program.edge_iff.2 (.inr hbody)) hpath)

/-! ## Counting -/

section Runs

variable {depth : Nat} {vs : List Visit}

/-- A cache that has all the references of its nodes has all that they lead to. -/
theorem cached_of_reflTransGen (hclosed : ∀ {x y}, s.Cached x → p.Edge x y → s.Cached y)
    {r r' : AnyRef Ref} (hr : s.Cached r) (hpath : Relation.ReflTransGen p.Edge r r') :
    s.Cached r' := by
  induction hpath with
  | refl => exact hr
  | tail _ hedge ih => exact hclosed ih hedge

/-- The references in the cache are those that the visited ones lead to. -/
theorem Settles.cached_iff_reachable (h : Settles p empty vs s) (r : AnyRef Ref) :
    s.Cached r ↔ p.Reachable (vs.map Visit.anyRef) r := by
  constructor
  · intro hr
    obtain ⟨v, hv, hpath⟩ := h.reached hr (not_cached_empty r)
    exact ⟨v.anyRef, List.mem_map_of_mem hv, hpath⟩
  · rintro ⟨root, hroot, hpath⟩
    exact cached_of_reflTransGen (fun hx => h.closed hx (not_cached_empty _))
      (h.cached_of_mem hroot) hpath

/-- The functions in the cache and those that are pending are all functions. -/
theorem card_pending_add_card_cached (p : Program) (s : Lowering) :
    (pending p s).card + (p.functionRefs.toFinset.filter fun f => ¬ s.handle? f = none).card =
      p.functionRefs.toFinset.card :=
  Finset.card_filter_add_card_filter_not _

/-- A reference has at most one node more than there are functions that were lowered. -/
theorem copies_le (hp : p.WellFormed) (h : Chain (Returns (lowerNested p depth)) empty vs s)
    (r : AnyRef Ref) :
    s.copies r ≤ 1 + (p.reachableFunctions (vs.map Visit.anyRef)).ncard := by
  have hspends := Spends.of_chain (guards_pending hp r) h .empty (not_cached_empty r)
  have hsettles := Settles.of_runs h
  have hall := card_pending_add_card_cached p s
  have hpending : (pending p empty).card ≤ p.functionRefs.toFinset.card :=
    Finset.card_filter_le _ _
  have hlowered : (p.functionRefs.toFinset.filter fun f => ¬ s.handle? f = none).card ≤
      (p.reachableFunctions (vs.map Visit.anyRef)).ncard := by
    rw [← Set.ncard_coe_finset]
    refine Set.ncard_le_ncard (fun f hf => ?_) (p.finite_reachableFunctions _)
    obtain ⟨hmem, hsome⟩ := Finset.mem_filter.1 hf
    refine ⟨List.mem_toFinset.1 hmem, ?_⟩
    apply (hsettles.cached_iff_reachable _).1
    exact not_not.1 (mt not_cached_iff.1 hsome)
  have := hspends.le_succ
  omega

/-- A reference that nothing leads back to has at most one node. -/
theorem copies_le_one (h : Chain (Returns (lowerNested p depth)) empty vs s) {r : AnyRef Ref}
    (hr : ¬ Relation.TransGen p.Edge r r) : s.copies r ≤ 1 := by
  have hspends := Spends.of_chain (guards_of_not_transGen_self hr) h .empty (not_cached_empty r)
  simpa using hspends.le_succ

/-- If each reference in the cache has one node, there are as many nodes of a category as
references of it that the visited ones lead to. -/
theorem count_eq_ncard_reachable (h : Chain (Returns (lowerNested p depth)) empty vs s)
    (hone : ∀ r, s.Cached r → s.copies r ≤ 1) (c : Category) :
    s.arenas.count c = (p.reachable (vs.map Visit.anyRef) c).ncard := by
  have hs := Consistent.of_chain h .empty
  have hcached : ∀ r : Ref c, r ∈ s.origins c ↔ s.Cached ⟨c, r⟩ := by
    intro r
    rw [← List.count_pos_iff]
    refine ⟨fun hpos => ?_, fun hr => hs.copies_pos hr⟩
    by_contra hr
    exact hpos.ne' (hs.copies_eq_zero hr)
  have hnodup : (s.origins c).Nodup := by
    rw [List.nodup_iff_count_le_one]
    intro r
    by_cases hr : s.Cached ⟨c, r⟩
    · exact hone _ hr
    · exact (hs.copies_eq_zero hr).trans_le zero_le_one
  have hset : p.reachable (vs.map Visit.anyRef) c = ((s.origins c).toFinset : Set (Ref c)) := by
    ext r
    rw [List.coe_toFinset, Set.mem_ofPred_eq, hcached,
      (Settles.of_runs h).cached_iff_reachable]
    rfl
  rw [hset, Set.ncard_coe_finset, List.toFinset_card_of_nodup hnodup]
  simp [origins, Arenas.count]

end Runs

/-- Any calls one after the other return. They lower the references that theirs lead to,
each at most once more than there are functions among them, and once if nothing leads
back to it. If nothing leads back to any of them, the numbers of lowered nodes are the
numbers of these references. -/
theorem exists_run_calls_copies (hp : p.WellFormed) (calls : List Call)
    (hcalls : ∀ call ∈ calls, call.InProgram p) :
    ∃ result s, (runCalls p calls).run empty = .ok (result, s) ∧
      (∀ r, s.Cached r ↔ p.Reachable (calls.flatMap (Call.refs p)) r) ∧
      (∀ r, s.copies r ≤ 1 + (p.reachableFunctions (calls.flatMap (Call.refs p))).ncard) ∧
      (∀ r, s.Cached r → ¬ Relation.TransGen p.Edge r r → s.copies r = 1) ∧
      ((∀ r, p.Reachable (calls.flatMap (Call.refs p)) r → ¬ Relation.TransGen p.Edge r r) →
        s.stats = [Category.type, .var, .expr, .stmt].map fun c =>
          (p.reachable (calls.flatMap (Call.refs p)) c).ncard) := by
  obtain ⟨result, vs, s, hrun, hchain, hrefs, _, _⟩ := exists_run_calls hp hcalls empty
  have hs := Consistent.of_chain hchain .empty
  rw [← hrefs]
  have hcached := (Settles.of_runs hchain).cached_iff_reachable
  refine ⟨result, s, hrun, hcached, copies_le hp hchain, ?_, ?_⟩
  · intro r hr hself
    have hpos := hs.copies_pos hr
    have hle := copies_le_one hchain hself
    omega
  · intro hacyclic
    have hcount := count_eq_ncard_reachable hchain fun r hr =>
      copies_le_one hchain (hacyclic r ((hcached r).1 hr))
    simp only [stats, hcount, List.map_cons, List.map_nil]

/-- The call of `even` leads to `even`. -/
theorem call_leads_to_even : Relation.ReflTransGen evenOdd.Edge ⟨.expr, ⟨1⟩⟩ ⟨.var, ⟨0⟩⟩ := by
  have hcallee : evenOdd.Edge ⟨.expr, ⟨1⟩⟩ ⟨.expr, ⟨0⟩⟩ := ⟨_, rfl, by decide⟩
  have heven : evenOdd.Edge ⟨.expr, ⟨0⟩⟩ ⟨.var, ⟨0⟩⟩ := ⟨_, rfl, by decide⟩
  exact .head hcallee (.single heven)

/-- No reference of the functions that call each other has more than three nodes, and the
type of their results has one. -/
theorem exists_run_calls_copies_evenOdd :
    ∃ result s, (runCalls evenOdd [.node (⟨1⟩ : Ref .expr), .program]).run empty =
        .ok (result, s) ∧
      (∀ r, s.copies r ≤ 3) ∧ s.copies ⟨.type, ⟨0⟩⟩ = 1 := by
  obtain ⟨result, s, hrun, hcached, hle, hone, _⟩ :=
    exists_run_calls_copies wellFormed_evenOdd _ inProgram_evenOdd_calls
  refine ⟨result, s, hrun, fun r => (hle r).trans ?_, hone _ ((hcached _).2 ?_) ?_⟩
  · have htwo : evenOdd.functionCount = 2 := by decide
    have := evenOdd.ncard_reachableFunctions_le
      ([Call.node (⟨1⟩ : Ref .expr), .program].flatMap (Call.refs evenOdd))
    omega
  · have htype : evenOdd.Edge ⟨.var, ⟨0⟩⟩ ⟨.type, ⟨1⟩⟩ := ⟨_, rfl, by decide⟩
    have hresult : evenOdd.Edge ⟨.type, ⟨1⟩⟩ ⟨.type, ⟨0⟩⟩ := ⟨_, rfl, by decide⟩
    exact ⟨⟨.expr, ⟨1⟩⟩, by decide, (call_leads_to_even.tail htype).tail hresult⟩
  · intro hself
    obtain ⟨_, ⟨node, hnode, hmem⟩, _⟩ := Relation.TransGen.head'_iff.1 hself
    cases hnode
    cases hmem

/-! ## Expressions and statements -/

/-- An expression or a statement that is not in the cache between two calls, and that
leads back to itself, gets two nodes when it is lowered. -/
theorem two_le_copies {depth : Nat} (hs : s.Consistent)
    (hclosed : ∀ {x y}, s.Cached x → p.Edge x y → s.Cached y) (hc : c ≠ .var) {r : Ref c}
    {h : Handle c} (hr : ¬ s.Cached ⟨c, r⟩) (hself : Relation.TransGen p.Edge ⟨c, r⟩ ⟨c, r⟩)
    (hrun : Returns (lowerNested p depth) s ⟨c, r, h⟩ s') : 2 ≤ s'.copies ⟨c, r⟩ := by
  cases depth with
  | zero => cases hrun
  | succ depth =>
    rcases returns_lowerNested_succ hrun with ⟨hcached, _⟩ | hexpands
    · exact absurd ⟨h, hcached⟩ hr
    · cases hexpands with
      | @intro s₁ s₂ _ _ node lowered children statements body _ hnode hchildren hchildrenRefs _
          hstatements _ _ =>
        have hsettles₁ := Settles.of_runs hchildren
        have hsettles₂ := Settles.of_runs hstatements
        -- the way back starts with a child, and all that the children lead to is in the cache
        have hclosed₁ : ∀ {x y}, s₁.Cached x → p.Edge x y → s₁.Cached y := by
          intro x y hx hedge
          by_cases hx₀ : s.Cached x
          · exact hsettles₁.cached (hclosed hx₀ hedge)
          · exact hsettles₁.closed hx hx₀ hedge
        obtain ⟨y, hedge, hpath⟩ := Relation.TransGen.head'_iff.1 hself
        have hy : s₁.Cached y := by
          rcases Program.edge_iff.1 hedge with ⟨node', hnode', hmem⟩ | hbody
          · obtain rfl : node = node' := Option.some.inj (hnode.symm.trans hnode')
            rw [← hchildrenRefs] at hmem
            exact hsettles₁.cached_of_mem hmem
          · obtain ⟨f, _, heq⟩ := hbody.exists_function
            exact absurd (congrArg Sigma.fst heq) hc
        have hr₁ : s₁.Cached ⟨c, r⟩ := cached_of_reflTransGen hclosed₁ hy hpath
        have hpos := (Consistent.of_chain hchildren hs).copies_pos hr₁
        have hsame := hsettles₂.unchanged (cached_push_self s₁ r lowered)
        rw [copies_push_self] at hsame
        rw [copies_setBody]
        omega

/-- If an expression or a statement that leads back to itself is lowered before anything
else, two nodes come from it. -/
theorem not_nodup_of_run_node (hc : c ≠ .var) {r : Ref c}
    (hself : Relation.TransGen p.Edge ⟨c, r⟩ ⟨c, r⟩) {result : List Visit}
    (hrun : (runCalls p [.node r]).run empty = .ok (result, s)) : ¬ (s.origins c).Nodup := by
  intro hnodup
  have hone : s.copies ⟨c, r⟩ ≤ 1 := List.nodup_iff_count_le_one.1 hnodup r
  obtain ⟨vs, hchain, hrefs, _⟩ := (runCalls_visits p [.node r]).trace hrun
  cases hchain with
  | nil => cases hrefs
  | @cons _ s₁ _ v vs head tail =>
    obtain ⟨hv, hvs⟩ := List.cons.inj hrefs
    obtain rfl : vs = [] := List.map_eq_nil_iff.1 hvs
    cases tail
    obtain ⟨d, r', h⟩ := v
    cases hv
    have htwo := two_le_copies .empty (fun hx => absurd hx (not_cached_empty _)) hc
      (not_cached_empty _) hself head
    omega

theorem inProgram_node {r : Ref c} (hr : p.Has ⟨c, r⟩) :
    ∀ call ∈ [Call.node r], call.InProgram p := by
  intro call hcall
  cases List.mem_singleton.1 hcall
  exact hr

/-- Every expression and every statement has at most one node, whatever is called, exactly
if none of them leads back to itself. -/
theorem nodup_origins_iff (hp : p.WellFormed) :
    (∀ calls : List Call, (∀ call ∈ calls, call.InProgram p) →
      ∃ result s, (runCalls p calls).run empty = .ok (result, s) ∧
        (s.origins .expr).Nodup ∧ (s.origins .stmt).Nodup) ↔
      (∀ r : Ref .expr, ¬ Relation.TransGen p.Edge ⟨.expr, r⟩ ⟨.expr, r⟩) ∧
        ∀ r : Ref .stmt, ¬ Relation.TransGen p.Edge ⟨.stmt, r⟩ ⟨.stmt, r⟩ := by
  constructor
  · intro h
    refine ⟨fun r hself => ?_, fun r hself => ?_⟩
    · obtain ⟨result, s, hrun, hexpr, _⟩ :=
        h [.node r] (inProgram_node (Program.has_of_transGen hself))
      exact not_nodup_of_run_node (by decide) hself hrun hexpr
    · obtain ⟨result, s, hrun, _, hstmt⟩ :=
        h [.node r] (inProgram_node (Program.has_of_transGen hself))
      exact not_nodup_of_run_node (by decide) hself hrun hstmt
  · rintro ⟨hexpr, hstmt⟩ calls hcalls
    obtain ⟨result, vs, s, hrun, hchain, _, _, _⟩ := exists_run_calls hp hcalls empty
    refine ⟨result, s, hrun, ?_, ?_⟩
    · exact List.nodup_iff_count_le_one.2 fun r => copies_le_one hchain (hexpr r)
    · exact List.nodup_iff_count_le_one.2 fun r => copies_le_one hchain (hstmt r)

/-- The way from the call of `even` to the return of its result in `odd`. -/
theorem even_leads_to_odd :
    Relation.ReflTransGen evenOdd.Edge ⟨.expr, ⟨1⟩⟩ ⟨.stmt, ⟨1⟩⟩ := by
  have hbody : evenOdd.Edge ⟨.var, ⟨0⟩⟩ ⟨.stmt, ⟨0⟩⟩ := ⟨_, rfl, by decide⟩
  have hcall : evenOdd.Edge ⟨.stmt, ⟨0⟩⟩ ⟨.expr, ⟨3⟩⟩ := ⟨_, rfl, by decide⟩
  have hcallee : evenOdd.Edge ⟨.expr, ⟨3⟩⟩ ⟨.expr, ⟨2⟩⟩ := ⟨_, rfl, by decide⟩
  have hodd : evenOdd.Edge ⟨.expr, ⟨2⟩⟩ ⟨.var, ⟨1⟩⟩ := ⟨_, rfl, by decide⟩
  have hbody' : evenOdd.Edge ⟨.var, ⟨1⟩⟩ ⟨.stmt, ⟨1⟩⟩ := ⟨_, rfl, by decide⟩
  exact call_leads_to_even.trans <| .head hbody <| .head hcall <| .head hcallee <|
    .head hodd <| .single hbody'

theorem odd_returns_even : evenOdd.Edge ⟨.stmt, ⟨1⟩⟩ ⟨.expr, ⟨1⟩⟩ := ⟨_, rfl, by decide⟩

/-- The functions that call each other do not have one node for each of their expressions
and statements. -/
theorem not_nodup_origins_evenOdd_calls :
    ¬ ∀ calls : List Call, (∀ call ∈ calls, call.InProgram evenOdd) →
      ∃ result s, (runCalls evenOdd calls).run empty = .ok (result, s) ∧
        (s.origins .expr).Nodup ∧ (s.origins .stmt).Nodup := by
  intro h
  obtain ⟨hexpr, _⟩ := (nodup_origins_iff wellFormed_evenOdd).1 h
  exact hexpr ⟨1⟩ (.tail' even_leads_to_odd odd_returns_even)

/-- The call of `even`, lowered first, has two nodes, and so has the statement that returns
its result. -/
theorem exists_run_node_not_nodup_evenOdd :
    (∃ result s, (runCalls evenOdd [.node (⟨1⟩ : Ref .expr)]).run empty = .ok (result, s) ∧
      ¬ (s.origins .expr).Nodup) ∧
    ∃ result s, (runCalls evenOdd [.node (⟨1⟩ : Ref .stmt)]).run empty = .ok (result, s) ∧
      ¬ (s.origins .stmt).Nodup := by
  have hexpr : Relation.TransGen evenOdd.Edge ⟨.expr, ⟨1⟩⟩ ⟨.expr, ⟨1⟩⟩ :=
    .tail' even_leads_to_odd odd_returns_even
  have hstmt : Relation.TransGen evenOdd.Edge ⟨.stmt, ⟨1⟩⟩ ⟨.stmt, ⟨1⟩⟩ :=
    .head' odd_returns_even even_leads_to_odd
  constructor
  · obtain ⟨result, _, s, hrun, _⟩ := exists_run_calls wellFormed_evenOdd
      (inProgram_node (Program.has_of_transGen hexpr)) empty
    exact ⟨result, s, hrun, not_nodup_of_run_node (by decide) hexpr hrun⟩
  · obtain ⟨result, _, s, hrun, _⟩ := exists_run_calls wellFormed_evenOdd
      (inProgram_node (Program.has_of_transGen hstmt)) empty
    exact ⟨result, s, hrun, not_nodup_of_run_node (by decide) hstmt hrun⟩

end QuillImage.Lowering

import Mathlib.Tactic
import QuillImage.Proofs.Lowering.Cache

/-!
# The order of lowered nodes

A node is appended once its references have handles, so its handles name nodes that are
there, and those of its own category stand before it. The body of a function is the one
exception: it is put in later, and may lead back to the function (`Arenas.Ordered`).

An expression that is lowered twice is appended twice, each time behind its operands, so
that the order does not depend on how often a node is lowered. It holds at every moment:
appending a node keeps it (`ordered_push`), putting in a body keeps it
(`ordered_setBody`), and so does every run (`ordered_of_returns`).
-/

namespace QuillImage

open Syntax

namespace Arenas

variable {a : Arenas} {c : Category}

/-- The handle names a node. -/
def Has (a : Arenas) (h : AnyRef Handle) : Prop := h.2.index < a.count h.1

/-- Every handle of a node names a node, and outside of the body of a function, a handle
of the node's own category is smaller than the node's. -/
structure Ordered (a : Arenas) : Prop where
  has : ∀ {c : Category} {h : Handle c} {node : Node c Handle}, a.node? h = some node →
    ∀ h' ∈ node.refs, a.Has h'
  smaller : ∀ {c : Category} {h h' : Handle c} {node : Node c Handle}, a.node? h = some node →
    ⟨c, h'⟩ ∈ node.withoutBody.refs → h'.index < h.index

theorem has_of_entry? {h : Handle c} {e : Lowered c} (he : a.entry? h = some e) : a.Has ⟨c, h⟩ :=
  (Array.getElem?_eq_some_iff.1 he).1

theorem exists_entry?_of_has {h : AnyRef Handle} (hh : a.Has h) : ∃ e, a.entry? h.2 = some e :=
  ⟨_, Array.getElem?_eq_getElem hh⟩

theorem node?_of_entry? {h : Handle c} {e : Lowered c} (he : a.entry? h = some e) :
    a.node? h = some e.node := by
  rw [node?, he]
  rfl

theorem exists_node?_of_has {h : Handle c} (hh : a.Has ⟨c, h⟩) :
    ∃ node, a.node? h = some node := by
  obtain ⟨e, he⟩ := exists_entry?_of_has hh
  exact ⟨e.node, node?_of_entry? he⟩

theorem exists_entry?_of_node? {h : Handle c} {node : Node c Handle}
    (hnode : a.node? h = some node) : ∃ r, a.entry? h = some ⟨r, node⟩ := by
  obtain ⟨e, he, rfl⟩ := Option.map_eq_some_iff.1 hnode
  exact ⟨e.origin, he⟩

end Arenas

namespace Lowering

variable {p : Program} {s s' s₁ s₂ : Lowering} {c d : Category}

/-! ## One step -/

theorem Points.has {r : Ref c} {h : Handle c} (hpoints : s.Points c r h) :
    s.arenas.Has ⟨c, h⟩ := by
  obtain ⟨node, he⟩ := hpoints
  exact Arenas.has_of_entry? he

theorem has_push {h : AnyRef Handle} (hh : s.arenas.Has h) (r : Ref c) (node : Node c Handle) :
    Arenas.Has (push r node s).2.arenas h := by
  obtain ⟨e, he⟩ := Arenas.exists_entry?_of_has hh
  exact Arenas.has_of_entry? (entry?_push_of_eq_some he r node)

theorem has_setBody {h : AnyRef Handle} (hh : s.arenas.Has h) (h' : Handle c)
    (body : List (Handle .stmt)) : Arenas.Has (setBody h' body s).arenas h := by
  obtain ⟨⟨r, node⟩, he⟩ := Arenas.exists_entry?_of_has hh
  have hpoints : s.Points h.1 r h.2 := ⟨node, he⟩
  exact (hpoints.setBody h' body).has

/-- A node whose handles name nodes is appended behind all of them. -/
theorem ordered_push (hs : s.arenas.Ordered) (r : Ref c) {node : Node c Handle}
    (hnode : ∀ h ∈ node.refs, s.arenas.Has h) :
    Arenas.Ordered (push r node s).2.arenas where
  has := by
    intro d h node' hnode' h' hh'
    apply has_push
    by_cases heq : (⟨d, h⟩ : AnyRef Handle) = ⟨c, s.next c⟩
    · cases heq
      rw [Arenas.node?, entry?_push_self] at hnode'
      cases hnode'
      exact hnode h' hh'
    · rw [Arenas.node?, entry?_push_of_ne s r node heq] at hnode'
      exact hs.has hnode' h' hh'
  smaller := by
    intro d h h' node' hnode' hh'
    by_cases heq : (⟨d, h⟩ : AnyRef Handle) = ⟨c, s.next c⟩
    · cases heq
      rw [Arenas.node?, entry?_push_self] at hnode'
      cases hnode'
      exact hnode ⟨c, h'⟩ (Node.refs_withoutBody_subset node hh')
    · rw [Arenas.node?, entry?_push_of_ne s r node heq] at hnode'
      exact hs.smaller hnode' hh'

/-- What a node has outside of its body stays when a body is put in. -/
theorem exists_node?_of_setBody {h : Handle c} {body : List (Handle .stmt)} {k : Handle d}
    {node : Node d Handle} (hnode : Arenas.node? (setBody h body s).arenas k = some node) :
    ∃ node', s.arenas.node? k = some node' ∧ node.withoutBody = node'.withoutBody ∧
      (node = node' ∨ node.body ⊆ body) := by
  by_cases heq : (⟨d, k⟩ : AnyRef Handle) = ⟨c, h⟩
  · cases heq
    obtain ⟨r, he⟩ := Arenas.exists_entry?_of_node? hnode
    have hpoints : (setBody h body s).Points c r h := ⟨node, he⟩
    rw [points_iff, origins_setBody, ← points_iff] at hpoints
    obtain ⟨node', he'⟩ := hpoints
    rw [entry?_setBody_self s h body he'] at he
    cases he
    refine ⟨node', Arenas.node?_of_entry? he', ?_, .inr ?_⟩
    · exact Node.withoutBody_withBody node' body
    · exact Node.body_withBody_subset node' body
  · rw [Arenas.node?, entry?_setBody_of_ne s h body heq] at hnode
    exact ⟨node, hnode, rfl, .inl rfl⟩

/-- A body may name any nodes. -/
theorem ordered_setBody (hs : s.arenas.Ordered) (h : Handle c) {body : List (Handle .stmt)}
    (hbody : ∀ b ∈ body, s.arenas.Has ⟨.stmt, b⟩) :
    Arenas.Ordered (setBody h body s).arenas where
  has := by
    intro d k node hnode h' hh'
    apply has_setBody
    obtain ⟨node', hnode', hwithout, rfl | hsub⟩ := exists_node?_of_setBody hnode
    · exact hs.has hnode' h' hh'
    -- a handle outside of the body was there before, one of the body names a node
    · rw [Node.refs_eq, hwithout] at hh'
      rcases List.mem_append.1 hh' with hmem | hmem
      · exact hs.has hnode' h' (Node.refs_withoutBody_subset node' hmem)
      · obtain ⟨b, hb, rfl⟩ := List.mem_map.1 hmem
        exact hbody b (hsub hb)
  smaller := by
    intro d k k' node hnode hk'
    obtain ⟨node', hnode', hwithout, -⟩ := exists_node?_of_setBody hnode
    rw [hwithout] at hk'
    exact hs.smaller hnode' hk'

/-! ## Runs -/

/-- What stands on the right of a relation of lists is related to something on the left. -/
theorem exists_of_mem_right {α β : Type} {Q : α → β → Prop} {xs : List α} {ys : List β}
    (h : List.Forall₂ Q xs ys) {y : β} (hy : y ∈ ys) : ∃ x, Q x y := by
  induction h with
  | nil => cases hy
  | cons hhead _ ih =>
    rcases List.mem_cons.1 hy with rfl | hy
    · exact ⟨_, hhead⟩
    · exact ih hy

/-- A handle that was returned in one of the visits names a node. -/
theorem Sound.has {vs : List Visit} (h : Sound p s vs s') {r : Ref c} {k : Handle c}
    (hk : Among vs c r k) : s'.arenas.Has ⟨c, k⟩ :=
  (h.points c r k hk).has

/-- Every run keeps the order. -/
theorem ordered_of_returns {depth : Nat} {v : Visit} (h : Returns (lowerNested p depth) s v s')
    (hs : s.Coherent ∧ s.arenas.Ordered) : s'.Coherent ∧ s'.arenas.Ordered := by
  refine lowerNested_strong_induction
    (motive := fun s _ s' => s.Coherent ∧ s.arenas.Ordered → s'.Coherent ∧ s'.arenas.Ordered)
    (fun _ _ _ => id) (fun depth s v s' hexpands hs => ?_) h hs
  cases hexpands with
  | @intro s₁ s₂ c r node lowered children statements body _ _ hchildren _ hlowered hstatements _
      hbody =>
    have hsound₁ := sound_of_chain (hchildren.mono fun _ _ _ hrun => hrun.1) hs.1
    have hs₁ := (hchildren.mono fun _ _ _ hrun => hrun.2).preserves hs
    have hpushed : Arenas.Ordered (push r lowered s₁).2.arenas := by
      apply ordered_push hs₁.2 r
      intro k hk
      obtain ⟨_, hrelated⟩ := exists_of_mem_right hlowered.refs hk
      cases hrelated with
      | intro hamong => exact hsound₁.has hamong
    have hcoherent := hsound₁.coherent.push r lowered
    have hsound₂ := sound_of_chain (hstatements.mono fun _ _ _ hrun => hrun.1) hcoherent
    have hs₂ := (hstatements.mono fun _ _ _ hrun => hrun.2).preserves ⟨hcoherent, hpushed⟩
    refine ⟨hs₂.1.setBody (s₁.next c) body, ordered_setBody hs₂.2 (s₁.next c) ?_⟩
    intro b hb
    obtain ⟨_, hamong⟩ := exists_of_mem_right hbody hb
    exact hsound₂.has hamong

theorem ordered_empty : empty.arenas.Ordered := by
  have hnone : ∀ {c : Category} (h : Handle c), empty.arenas.node? h = none := by
    intro c h
    cases c <;> rfl
  constructor
  · intro c h node hnode
    rw [hnone] at hnode
    cases hnode
  · intro c h h' node hnode
    rw [hnone] at hnode
    cases hnode

/-- Calls return, and leave ordered nodes. -/
theorem exists_run_calls_ordered (hp : p.WellFormed) {calls : List Call}
    (hcalls : ∀ call ∈ calls, call.InProgram p) :
    ∃ result s, (runCalls p calls).run empty = .ok (result, s) ∧
      result.map Visit.anyRef = calls.flatMap (Call.refs p) ∧
      (∀ v ∈ result, s.Points v.category v.ref v.handle) ∧ s.Faithful p ∧ s.arenas.Ordered := by
  obtain ⟨result, vs, s, hrun, hchain, -, hsub, hrefs⟩ := exists_run_calls hp hcalls empty
  have hsound := sound_of_chain hchain coherent_empty
  have hordered := (hchain.mono fun _ _ _ hreturns => ordered_of_returns hreturns).preserves
    ⟨coherent_empty, ordered_empty⟩
  exact ⟨result, s, hrun, hrefs, fun v hv => hsound.points _ _ _ (hsub hv),
    hsound.growth.faithful (faithful_empty p), hordered.2⟩

/-- A reference that was visited has a handle. -/
theorem exists_visit_of_mem {vs : List Visit} {r : Ref c} (hr : ⟨c, r⟩ ∈ vs.map Visit.anyRef) :
    ∃ h, ⟨c, r, h⟩ ∈ vs := by
  obtain ⟨⟨_, _, h⟩, hv, heq⟩ := List.mem_map.1 hr
  cases heq
  exact ⟨h, hv⟩

/-- The node of a handle mirrors the node that was lowered. -/
theorem Faithful.exists_node? (hs : s.Faithful p) {r : Ref c} {h : Handle c}
    (hpoints : s.Points c r h) {node : Node c Ref} (hnode : p.node? r = some node) :
    ∃ node', s.arenas.node? h = some node' ∧ Node.Mirrors s.Points node node' := by
  obtain ⟨node', he⟩ := hpoints
  obtain ⟨node₀, hnode₀, hmirrors⟩ := hs c h _ he
  cases hnode.symm.trans hnode₀
  exact ⟨node', Arenas.node?_of_entry? he, hmirrors⟩

end Lowering

end QuillImage

import Mathlib.Tactic
import QuillImage.Proofs.Lowering.Faithful

/-!
# The cache of lowering

A reference may be lowered more than once within one call, and its handle in the cache
is then replaced. What holds at every moment is that the cache knows all lowered nodes
and, for each reference, the last of them (`Consistent`).

A handle is replaced only while its reference is being lowered. So a run never touches
the handles that it starts with, and what it enters into the cache is what its
references lead to (`Settles`). Between two calls nothing is being lowered, and all
handles are final: calls one after the other keep them, keep all lowered nodes, and
do nothing for references that are in the cache (`exists_run_calls_stable`).
-/

namespace QuillImage.Lowering

open Syntax

variable {p : Program} {s s' s₁ s₂ : Lowering} {c d : Category}

/-! ## Origins -/

/-- The references that the lowered nodes of a category come from, in the order of
their handles. -/
def origins (s : Lowering) (c : Category) : List (Ref c) :=
  (PerCategory.get s.arenas c).toList.map (·.origin)

theorem points_iff {r : Ref c} {h : Handle c} :
    s.Points c r h ↔ (s.origins c)[h.index]? = some r := by
  simp only [Points, Arenas.entry?, origins, List.getElem?_map, Array.getElem?_toList,
    Option.map_eq_some_iff]
  constructor
  · rintro ⟨node, he⟩
    exact ⟨⟨r, node⟩, he, rfl⟩
  · rintro ⟨e, he, rfl⟩
    exact ⟨e.node, he⟩

@[simp]
theorem origins_push_self (s : Lowering) (r : Ref c) (node : Node c Handle) :
    (push r node s).2.origins c = s.origins c ++ [r] := by
  simp [origins, push]

theorem origins_push_of_ne (s : Lowering) (r : Ref c) (node : Node c Handle) (h : d ≠ c) :
    (push r node s).2.origins d = s.origins d := by
  simp [origins, push, PerCategory.get_modify_of_ne _ h]

/-- The origin of a node stays when a body is put in. -/
@[simp]
theorem origins_setBody (s : Lowering) (h : Handle c) (body : List (Handle .stmt)) :
    (setBody h body s).origins d = s.origins d := by
  by_cases hd : d = c
  · subst hd
    apply List.ext_getElem?
    intro i
    simp only [origins, setBody, PerCategory.get_modify_self, List.getElem?_map,
      Array.getElem?_toList, Array.getElem?_modify]
    split
    · rw [Option.map_map]
      rfl
    · rfl
  · simp [origins, setBody, PerCategory.get_modify_of_ne _ hd]

/-- The number of lowered nodes that come from a reference. -/
def copies (s : Lowering) (r : AnyRef Ref) : Nat := (s.origins r.1).count r.2

@[simp]
theorem copies_push_self (s : Lowering) (r : Ref c) (node : Node c Handle) :
    (push r node s).2.copies ⟨c, r⟩ = s.copies ⟨c, r⟩ + 1 := by
  simp [copies]

theorem copies_push_of_ne (s : Lowering) {r : Ref c} (node : Node c Handle) {r' : AnyRef Ref}
    (h : r' ≠ ⟨c, r⟩) : (push r node s).2.copies r' = s.copies r' := by
  obtain ⟨d, r'⟩ := r'
  by_cases hd : d = c
  · subst hd
    have hne : r ≠ r' := fun heq => h (by rw [heq])
    simp [copies, hne]
  · simp [copies, origins_push_of_ne s r node hd]

@[simp]
theorem copies_setBody (s : Lowering) (h : Handle c) (body : List (Handle .stmt))
    (r : AnyRef Ref) : (setBody h body s).copies r = s.copies r := by
  simp [copies]

/-! ## References in the cache -/

/-- The reference has a handle. -/
def Cached (s : Lowering) (r : AnyRef Ref) : Prop := ∃ h, s.handle? r.2 = some h

theorem not_cached_iff {r : AnyRef Ref} : ¬ s.Cached r ↔ s.handle? r.2 = none := by
  simp [Cached, Option.eq_none_iff_forall_ne_some]

theorem cached_push_self (s : Lowering) (r : Ref c) (node : Node c Handle) :
    (push r node s).2.Cached ⟨c, r⟩ := ⟨_, handle?_push_self s r node⟩

theorem cached_push_iff_of_ne {r : Ref c} {node : Node c Handle} {r' : AnyRef Ref}
    (h : r' ≠ ⟨c, r⟩) : (push r node s).2.Cached r' ↔ s.Cached r' := by
  rw [Cached, handle?_push_of_ne s r node h, Cached]

theorem Cached.push {r' : AnyRef Ref} (h : s.Cached r') (r : Ref c) (node : Node c Handle) :
    (push r node s).2.Cached r' := by
  by_cases heq : r' = ⟨c, r⟩
  · rw [heq]
    exact cached_push_self s r node
  · exact (cached_push_iff_of_ne heq).2 h

theorem not_cached_empty (r : AnyRef Ref) : ¬ empty.Cached r := by
  rintro ⟨h, hr⟩
  obtain ⟨node, he⟩ := coherent_empty r.1 r.2 h hr
  obtain ⟨c, r⟩ := r
  cases c <;> simp [Arenas.entry?, empty, Arenas.empty, PerCategory.const, PerCategory.get] at he

/-! ## The cache knows the last node of each reference -/

/-- The handles in the cache name lowered nodes of their references, and every lowered
node comes from a reference in the cache, which has the last handle of its nodes. -/
structure Consistent (s : Lowering) : Prop where
  points : ∀ {c : Category} {r : Ref c} {h : Handle c}, s.handle? r = some h → s.Points c r h
  latest : ∀ {c : Category} {r : Ref c} {h : Handle c}, s.Points c r h →
    ∃ k, s.handle? r = some k ∧ h.index ≤ k.index

namespace Consistent

theorem empty : Lowering.empty.Consistent where
  points := coherent_empty _ _ _
  latest := by
    rintro c r h ⟨node, he⟩
    cases c <;> simp [Arenas.entry?, Lowering.empty, Arenas.empty, PerCategory.const,
      PerCategory.get] at he

/-- The new node is the last one. -/
theorem push (hs : s.Consistent) (r : Ref c) (node : Node c Handle) :
    (push r node s).2.Consistent where
  points := Coherent.push (fun _ _ _ => hs.points) r node _ _ _
  latest := by
    intro d r' h hpoints
    by_cases heq : (⟨d, r'⟩ : AnyRef Ref) = ⟨c, r⟩
    · cases heq
      refine ⟨s.next c, handle?_push_self s r node, ?_⟩
      rw [points_iff] at hpoints
      have hlt := (List.getElem?_eq_some_iff.1 hpoints).1
      simp only [origins_push_self, List.length_append, List.length_singleton] at hlt
      simp only [origins, List.length_map, Array.length_toList] at hlt
      exact Nat.le_of_lt_succ hlt
    · rw [handle?_push_of_ne s r node heq]
      apply hs.latest
      obtain ⟨node', he⟩ := hpoints
      refine ⟨node', ?_⟩
      by_cases hnext : (⟨d, h⟩ : AnyRef Handle) = ⟨c, s.next c⟩
      · cases hnext
        rw [entry?_push_self] at he
        cases he
        exact absurd rfl heq
      · rwa [entry?_push_of_ne s r node hnext] at he

theorem setBody (hs : s.Consistent) (h : Handle c) (body : List (Handle .stmt)) :
    (setBody h body s).Consistent where
  points := Coherent.setBody (fun _ _ _ => hs.points) h body _ _ _
  latest := by
    intro d r k hpoints
    rw [points_iff, origins_setBody, ← points_iff] at hpoints
    exact hs.latest hpoints

/-- Every run keeps the cache consistent. -/
theorem of_returns {depth : Nat} {v : Visit} (h : Returns (lowerNested p depth) s v s')
    (hs : s.Consistent) : s'.Consistent := by
  refine lowerNested_induction (motive := fun s _ s' => s.Consistent → s'.Consistent)
    (fun _ _ _ => id) (fun s v s' hexpands hs => ?_) h hs
  cases hexpands with
  | @intro s₁ s₂ c r _ lowered _ _ body _ _ hchildren _ _ hstatements _ _ =>
    have hpushed := (hchildren.preserves hs).push r lowered
    exact (hstatements.preserves hpushed).setBody (s₁.next c) body

theorem of_chain {depth : Nat} {vs : List Visit} (h : Chain (Returns (lowerNested p depth)) s vs s')
    (hs : s.Consistent) : s'.Consistent :=
  (h.mono fun _ _ _ => of_returns).preserves hs

/-- A reference without a handle has no lowered nodes. -/
theorem copies_eq_zero (hs : s.Consistent) {r : AnyRef Ref} (hr : ¬ s.Cached r) :
    s.copies r = 0 := by
  rw [copies, List.count_eq_zero]
  intro hmem
  obtain ⟨i, hi⟩ := List.mem_iff_getElem?.1 hmem
  obtain ⟨k, hk, _⟩ := hs.latest (points_iff (h := ⟨i⟩).2 hi)
  exact hr ⟨k, hk⟩

/-- A reference in the cache has a lowered node. -/
theorem copies_pos (hs : s.Consistent) {r : AnyRef Ref} (hr : s.Cached r) : 0 < s.copies r := by
  obtain ⟨h, hh⟩ := hr
  rw [copies, List.count_pos_iff]
  exact List.mem_of_getElem? (points_iff.1 (hs.points hh))

end Consistent

/-! ## What a run enters into the cache -/

/-- What visits one after the other do to the cache. They keep its handles and end with
those that they return. A reference that they enter is one that they lead to, and all
the references of its node are in the cache as well. No node is added for a reference
that had a handle before. -/
structure Settles (p : Program) (s : Lowering) (vs : List Visit) (s' : Lowering) : Prop where
  kept : ∀ {c : Category} {r : Ref c} {h : Handle c}, s.handle? r = some h → s'.handle? r = some h
  visited : ∀ v ∈ vs, s'.handle? v.ref = some v.handle
  reached : ∀ {r : AnyRef Ref}, s'.Cached r → ¬ s.Cached r →
    ∃ v ∈ vs, Relation.ReflTransGen p.Edge v.anyRef r
  closed : ∀ {r r' : AnyRef Ref}, s'.Cached r → ¬ s.Cached r → p.Edge r r' → s'.Cached r'
  unchanged : ∀ {r : AnyRef Ref}, s.Cached r → s'.copies r = s.copies r

namespace Settles

variable {vs ws : List Visit}

theorem cached (h : Settles p s vs s') {r : AnyRef Ref} (hr : s.Cached r) : s'.Cached r := by
  obtain ⟨k, hk⟩ := hr
  exact ⟨k, h.kept hk⟩

theorem cached_of_mem (h : Settles p s vs s') {r : AnyRef Ref}
    (hr : r ∈ vs.map Visit.anyRef) : s'.Cached r := by
  obtain ⟨v, hv, rfl⟩ := List.mem_map.1 hr
  exact ⟨v.handle, h.visited v hv⟩

theorem nil (s : Lowering) : Settles p s [] s where
  kept := id
  visited := by simp
  reached hr hnr := absurd hr hnr
  closed hr hnr := absurd hr hnr
  unchanged _ := rfl

theorem append (h : Settles p s vs s₁) (h' : Settles p s₁ ws s') : Settles p s (vs ++ ws) s' where
  kept hr := h'.kept (h.kept hr)
  visited := by
    intro v hv
    rcases List.mem_append.1 hv with hv | hv
    · exact h'.kept (h.visited v hv)
    · exact h'.visited v hv
  reached := by
    intro r hr hnr
    by_cases hr₁ : s₁.Cached r
    · obtain ⟨v, hv, hpath⟩ := h.reached hr₁ hnr
      exact ⟨v, List.mem_append_left _ hv, hpath⟩
    · obtain ⟨v, hv, hpath⟩ := h'.reached hr hr₁
      exact ⟨v, List.mem_append_right _ hv, hpath⟩
  closed := by
    intro r r' hr hnr hedge
    by_cases hr₁ : s₁.Cached r
    · exact h'.cached (h.closed hr₁ hnr hedge)
    · exact h'.closed hr hr₁ hedge
  unchanged hr := (h'.unchanged (h.cached hr)).trans (h.unchanged hr)

theorem of_chain (h : Chain (fun s v s' => Settles p s [v] s') s vs s') : Settles p s vs s' := by
  induction h with
  | nil s => exact nil s
  | cons head _ ih => exact head.append ih

/-- An expanded reference settles if the references of its node do. -/
theorem of_expands {v : Visit} (h : Expands p (fun s v s' => Settles p s [v] s') s v s') :
    Settles p s [v] s' := by
  cases h with
  | @intro s₁ s₂ c r node lowered children statements body huncached hnode hchildren hchildrenRefs
      _ hstatements hstatementsRefs _ =>
    have hsettles₁ := of_chain hchildren
    have hsettles₂ := of_chain hstatements
    have hedge : ∀ w ∈ children ++ statements, p.Edge ⟨c, r⟩ w.anyRef := by
      intro w hw
      refine ⟨node, hnode, ?_⟩
      rw [Node.refs_eq, ← hchildrenRefs, ← hstatementsRefs, ← List.map_append]
      exact List.mem_map_of_mem hw
    have hne : ∀ {r' : AnyRef Ref}, s.Cached r' → r' ≠ ⟨c, r⟩ := by
      rintro r' ⟨k, hk⟩ rfl
      rw [huncached] at hk
      cases hk
    have hself : s₂.handle? r = some (s₁.next c) :=
      hsettles₂.kept (handle?_push_self s₁ r lowered)
    have hold : ∀ {r' : AnyRef Ref}, s₁.Cached r' → s₂.Cached r' :=
      fun hr' => hsettles₂.cached (hr'.push r lowered)
    refine ⟨?_, ?_, ?_, ?_, ?_⟩
    · intro d r' h hr'
      apply hsettles₂.kept
      rw [handle?_push_of_ne s₁ r lowered (hne ⟨h, hr'⟩)]
      exact hsettles₁.kept hr'
    · intro v hv
      cases List.mem_singleton.1 hv
      exact hself
    · intro r' hr' hnr'
      refine ⟨_, List.mem_singleton.2 rfl, ?_⟩
      show Relation.ReflTransGen p.Edge ⟨c, r⟩ r'
      by_cases heq : r' = ⟨c, r⟩
      · rw [heq]
      · by_cases hr₁ : s₁.Cached r'
        · obtain ⟨w, hw, hpath⟩ := hsettles₁.reached hr₁ hnr'
          exact .head (hedge w (List.mem_append_left _ hw)) hpath
        · obtain ⟨w, hw, hpath⟩ :=
            hsettles₂.reached hr' (mt (cached_push_iff_of_ne heq).1 hr₁)
          exact .head (hedge w (List.mem_append_right _ hw)) hpath
    · intro r' r'' hr' hnr' hedge'
      show s₂.Cached r''
      by_cases heq : r' = ⟨c, r⟩
      · subst heq
        rcases Program.edge_iff.1 hedge' with ⟨node', hnode', hmem⟩ | ⟨node', hnode', hmem⟩
        · obtain rfl : node = node' := Option.some.inj (hnode.symm.trans hnode')
          rw [← hchildrenRefs] at hmem
          exact hold (hsettles₁.cached_of_mem hmem)
        · obtain rfl : node = node' := Option.some.inj (hnode.symm.trans hnode')
          rw [← hstatementsRefs] at hmem
          exact hsettles₂.cached_of_mem hmem
      · by_cases hr₁ : s₁.Cached r'
        · exact hold (hsettles₁.closed hr₁ hnr' hedge')
        · exact hsettles₂.closed hr' (mt (cached_push_iff_of_ne heq).1 hr₁) hedge'
    · intro r' hr'
      rw [copies_setBody, hsettles₂.unchanged ((hsettles₁.cached hr').push r lowered),
        copies_push_of_ne s₁ lowered (hne hr'), hsettles₁.unchanged hr']

/-- Every run settles its reference. -/
theorem of_returns {depth : Nat} {v : Visit} (h : Returns (lowerNested p depth) s v s') :
    Settles p s [v] s' := by
  refine lowerNested_induction (motive := fun s v s' => Settles p s [v] s') (fun s v hcached => ?_)
    (fun _ _ _ => of_expands) h
  refine ⟨id, ?_, fun hr hnr => absurd hr hnr, fun hr hnr => absurd hr hnr, fun _ => rfl⟩
  intro w hw
  cases List.mem_singleton.1 hw
  exact hcached

theorem of_runs {depth : Nat} (h : Chain (Returns (lowerNested p depth)) s vs s') :
    Settles p s vs s' :=
  of_chain (h.mono fun _ _ _ => of_returns)

end Settles

/-! ## Between calls -/

/-- The arenas of the first state are the front parts of those of the second. -/
def GrowsTo (s s' : Lowering) : Prop :=
  ∀ c, (PerCategory.get s.arenas c).toList <+: (PerCategory.get s'.arenas c).toList

theorem Extends.growsTo (h : Extends p s s') : s.GrowsTo s' := by
  intro c
  rw [List.prefix_iff_getElem?]
  intro i hi
  rw [Array.getElem?_toList]
  apply h.kept (h := ⟨i⟩)
  rw [Arenas.entry?, ← Array.getElem?_toList, List.getElem?_eq_getElem hi]

/-- Nothing is done for references that are in the cache. -/
theorem eq_of_chain_of_cached {depth : Nat} {vs : List Visit}
    (h : Chain (Returns (lowerNested p depth)) s vs s') (hcached : ∀ v ∈ vs, s.Cached v.anyRef) :
    s' = s := by
  induction h with
  | nil s => rfl
  | @cons s s₁ s₂ v vs head _ ih =>
    obtain ⟨hv, hvs⟩ := List.forall_mem_cons.1 hcached
    have hsame : s₁ = s := by
      cases depth with
      | zero => cases head
      | succ depth =>
        rcases returns_lowerNested_succ head with ⟨_, hs₁⟩ | hexpands
        · exact hs₁
        · cases hexpands with
          | intro huncached => exact absurd hv (not_cached_iff.2 huncached)
    subst hsame
    exact ih hvs

/-- Calls, and later calls. In between the cache is consistent, and every reference that
was lowered is in it. The later calls keep all handles and return those that were there,
and they keep all lowered nodes. If all their references are in the cache, they do
nothing. -/
theorem exists_run_calls_stable (hp : p.WellFormed) (calls later : List Call)
    (hcalls : ∀ call ∈ calls, call.InProgram p) (hlater : ∀ call ∈ later, call.InProgram p) :
    ∃ result s result' s', (runCalls p calls).run empty = .ok (result, s) ∧
      (runCalls p later).run s = .ok (result', s') ∧
      result'.map Visit.anyRef = later.flatMap (Call.refs p) ∧
      s.Consistent ∧ (∀ r ∈ calls.flatMap (Call.refs p), s.Cached r) ∧
      (∀ v ∈ result', ∀ h, s.handle? v.ref = some h → v.handle = h) ∧
      (∀ (c : Category) (r : Ref c) h, s.handle? r = some h → s'.handle? r = some h) ∧
      s.GrowsTo s' ∧ ((∀ r ∈ later.flatMap (Call.refs p), s.Cached r) → s' = s) := by
  obtain ⟨result, vs, s, hrun, hchain, hrefs, _, _⟩ := exists_run_calls hp hcalls empty
  obtain ⟨result', ws, s', hrun', hchain', hrefs', hsub', hresult'⟩ := exists_run_calls hp hlater s
  have hconsistent : s.Consistent := Consistent.of_chain hchain Consistent.empty
  have hsettles' := Settles.of_runs hchain'
  refine ⟨result, s, result', s', hrun, hrun', hresult', hconsistent, ?_, ?_, ?_, ?_, ?_⟩
  · intro r hr
    rw [← hrefs] at hr
    exact (Settles.of_runs hchain).cached_of_mem hr
  · intro v hv h hh
    have hkept := hsettles'.kept hh
    rw [hsettles'.visited v (hsub' hv)] at hkept
    exact Option.some.inj hkept
  · intro c r h
    exact hsettles'.kept
  · exact (sound_of_chain hchain' fun _ _ _ => hconsistent.points).growth.growsTo
  · intro hcached
    apply eq_of_chain_of_cached hchain'
    intro v hv
    apply hcached
    rw [← hrefs']
    exact List.mem_map_of_mem hv

theorem inProgram_evenOdd_calls :
    ∀ call ∈ [Call.node (⟨1⟩ : Ref .expr), .program], call.InProgram evenOdd := by
  have hnode : (Call.node (⟨1⟩ : Ref .expr)).InProgram evenOdd := ⟨_, rfl⟩
  have hprogram : Call.program.InProgram evenOdd := trivial
  simp [hnode, hprogram]

/-- The calls that lowered an expression twice leave the state alone when they are made
again. -/
theorem exists_run_calls_evenOdd_again :
    ∃ result s result', (runCalls evenOdd [.node (⟨1⟩ : Ref .expr), .program]).run empty =
        .ok (result, s) ∧
      (runCalls evenOdd [.program, .node (⟨1⟩ : Ref .expr)]).run s = .ok (result', s) := by
  obtain ⟨result, s, result', s', hrun, hrun', _, _, hcached, _, _, _, hsame⟩ :=
    exists_run_calls_stable wellFormed_evenOdd [.node (⟨1⟩ : Ref .expr), .program]
      [.program, .node (⟨1⟩ : Ref .expr)] inProgram_evenOdd_calls
      fun call hcall => inProgram_evenOdd_calls call (List.mem_reverse.1 hcall)
  obtain rfl : s' = s := hsame fun r hr => hcached r (by
    simp only [List.flatMap_cons, List.flatMap_nil, List.append_nil, List.mem_append] at hr ⊢
    exact hr.symm)
  exact ⟨result, s', result', hrun, hrun'⟩

end QuillImage.Lowering

import Mathlib.Tactic
import QuillImage.Proofs.Lowering.Traversal

/-!
# The rules of lowering

What one step of lowering does, said once. A reference that is in the cache gives
its handle and leaves the state alone. Any other reference is expanded: the
references of its node are visited, the node is appended and entered into the
cache, the statements of its body are visited, and the body is put in (`Expands`).

`lowerNested_induction` turns these two rules into an induction over every run.
-/

namespace QuillImage.Lowering

open Syntax

/-! ## Changes of the state -/

section State

variable {c d : Category} (s : Lowering) (r : Ref c) (node : Node c Handle)

/-- The handle of the node that is appended next. -/
def next (c : Category) : Handle c := ⟨s.arenas.count c⟩

@[simp]
theorem push_fst : (push r node s).1 = s.next c := rfl

@[simp]
theorem entry?_next : s.arenas.entry? (s.next c) = none := by
  simp [Arenas.entry?, next, Arenas.count]

@[simp]
theorem entry?_push_self : Arenas.entry? (push r node s).2.arenas (s.next c) = some ⟨r, node⟩ := by
  simp [Arenas.entry?, push, next, Arenas.count]

theorem entry?_push_of_ne {h : Handle d} (hne : (⟨d, h⟩ : AnyRef Handle) ≠ ⟨c, s.next c⟩) :
    Arenas.entry? (push r node s).2.arenas h = s.arenas.entry? h := by
  by_cases hd : d = c
  · subst hd
    have hindex : h.index ≠ (PerCategory.get s.arenas d).size := fun heq => hne (by
      cases h
      cases heq
      rfl)
    simp [Arenas.entry?, push, Array.getElem?_push, hindex]
  · simp [Arenas.entry?, push, PerCategory.get_modify_of_ne _ hd]

@[simp]
theorem handle?_push_self : (push r node s).2.handle? r = some (s.next c) := by
  simp [handle?, push, next]

theorem handle?_push_of_ne {r' : Ref d} (hne : (⟨d, r'⟩ : AnyRef Ref) ≠ ⟨c, r⟩) :
    (push r node s).2.handle? r' = s.handle? r' := by
  by_cases hd : d = c
  · subst hd
    have href : r ≠ r' := fun heq => hne (by rw [heq])
    simp [handle?, push, Std.HashMap.getElem?_insert, href]
  · simp [handle?, push, PerCategory.get_modify_of_ne _ hd]

variable (h : Handle c) (body : List (Handle .stmt))

theorem entry?_setBody_self {e : Lowered c} (he : s.arenas.entry? h = some e) :
    Arenas.entry? (setBody h body s).arenas h =
      some { e with node := e.node.withBody body } := by
  simp only [Arenas.entry?] at he
  simp [Arenas.entry?, setBody, Array.getElem?_modify, he]

theorem entry?_setBody_of_ne {h' : Handle d} (hne : (⟨d, h'⟩ : AnyRef Handle) ≠ ⟨c, h⟩) :
    Arenas.entry? (setBody h body s).arenas h' = s.arenas.entry? h' := by
  by_cases hd : d = c
  · subst hd
    have hindex : h.index ≠ h'.index := fun heq => hne (by
      cases h
      cases h'
      cases heq
      rfl)
    simp [Arenas.entry?, setBody, Array.getElem?_modify, hindex]
  · simp [Arenas.entry?, setBody, PerCategory.get_modify_of_ne _ hd]

end State

/-! ## The rules -/

/-- What happens to a reference that is not in the cache, where `D` says what
happens to the references of its node. -/
inductive Expands (p : Program) (D : Lowering → Visit → Lowering → Prop) :
    Lowering → Visit → Lowering → Prop where
  | intro {s s₁ s₂ : Lowering} {c : Category} {r : Ref c} {node : Node c Ref}
      {lowered : Node c Handle} {children statements : List Visit} {body : List (Handle .stmt)}
      (huncached : s.handle? r = none) (hnode : p.node? r = some node)
      (hchildren : Chain D s children s₁)
      (hchildrenRefs : children.map Visit.anyRef = node.withoutBody.refs)
      (hlowered : Node.Mirrors (Among children) node.withoutBody lowered)
      (hstatements : Chain D (push r lowered s₁).2 statements s₂)
      (hstatementsRefs : statements.map Visit.anyRef = refsOf .stmt node.body)
      (hbody : List.Forall₂ (Among statements .stmt) node.body body) :
      Expands p D s ⟨c, r, s₁.next c⟩ (setBody (s₁.next c) body s₂)

section Run

variable {p : Program} {depth : Nat} {s s₁ s₂ : Lowering} {c : Category} {r : Ref c}

/-- A reference that is in the cache gives its handle. -/
theorem run_lowerNested_of_cached {h : Handle c} (hcached : s.handle? r = some h) :
    (lowerNested p (depth + 1) c r).run s = .ok (h, s) := by
  rw [lowerNested]
  refine run_bind_eq_ok.2 ⟨s, s, rfl, ?_⟩
  rw [hcached]
  rfl

/-- A reference that is not in the cache is expanded, when its node can be. -/
theorem run_lowerNested_of_uncached {node : Node c Ref} {lowered : Node c Handle}
    {body : List (Handle .stmt)} (huncached : s.handle? r = none) (hnode : p.node? r = some node)
    (hchildren : (node.withoutBody.traverse (lowerNested p depth)).run s = .ok (lowered, s₁))
    (hbody : (node.body.mapM (lowerNested p depth .stmt)).run (push r lowered s₁).2 =
      .ok (body, s₂)) :
    (lowerNested p (depth + 1) c r).run s =
      .ok (s₁.next c, setBody (s₁.next c) body s₂) := by
  rw [lowerNested]
  refine run_bind_eq_ok.2 ⟨s, s, rfl, ?_⟩
  rw [huncached]
  dsimp only
  rw [hnode]
  refine run_bind_eq_ok.2 ⟨lowered, s₁, hchildren, ?_⟩
  refine run_bind_eq_ok.2 ⟨s₁.next c, _, rfl, ?_⟩
  exact run_bind_eq_ok.2 ⟨body, s₂, hbody, rfl⟩

end Run

/-- One step of lowering: the reference is in the cache or is expanded. -/
theorem returns_lowerNested_succ {p : Program} {depth : Nat} {s s' : Lowering} {v : Visit}
    (h : Returns (lowerNested p (depth + 1)) s v s') :
    (s.handle? v.ref = some v.handle ∧ s' = s) ∨
      Expands p (Returns (lowerNested p depth)) s v s' := by
  obtain ⟨c, r, hv⟩ := v
  simp only [Returns, lowerNested] at h
  obtain ⟨_, _, hget, h⟩ := run_bind_eq_ok.1 h
  cases hget
  cases hcache : s.handle? r with
  | some h₀ =>
    rw [hcache] at h
    obtain ⟨rfl, rfl⟩ := run_pure_eq_ok.1 h
    exact .inl ⟨rfl, rfl⟩
  | none =>
    rw [hcache] at h
    cases hnode : p.node? r with
    | none => rw [hnode] at h; cases h
    | some node =>
      rw [hnode] at h
      obtain ⟨lowered, s₁, htraverse, h⟩ := run_bind_eq_ok.1 h
      obtain ⟨_, _, hpush, h⟩ := run_bind_eq_ok.1 h
      cases hpush
      obtain ⟨body, s₂, hmap, h⟩ := run_bind_eq_ok.1 h
      obtain ⟨_, _, hset, h⟩ := run_bind_eq_ok.1 h
      cases hset
      obtain ⟨rfl, rfl⟩ := run_pure_eq_ok.1 h
      obtain ⟨children, hchildren, hrefs, hmirrors⟩ := (Node.visits _ _).trace htraverse
      obtain ⟨statements, hstatements, hrefs', hbody⟩ := (Visits.list _ _).trace hmap
      exact .inr (.intro hcache hnode hchildren hrefs (hmirrors _ (List.Subset.refl _))
        hstatements hrefs' (hbody _ (List.Subset.refl _)))

theorem Expands.mono {p : Program} {D D' : Lowering → Visit → Lowering → Prop}
    (hD : ∀ s v s', D s v s' → D' s v s') {s s' : Lowering} {v : Visit}
    (h : Expands p D s v s') : Expands p D' s v s' := by
  cases h with
  | intro huncached hnode hchildren hrefs hlowered hstatements hrefs' hbody =>
    exact .intro huncached hnode (hchildren.mono hD) hrefs hlowered (hstatements.mono hD) hrefs'
      hbody

/-- What holds of cached references, and of an expanded reference if it holds of the
references of its node, holds of every run. That the references of the node were run
may be used. -/
theorem lowerNested_strong_induction {p : Program} {motive : Lowering → Visit → Lowering → Prop}
    (cached : ∀ s v, s.handle? v.ref = some v.handle → motive s v s)
    (expanded : ∀ depth s v s', Expands p
      (fun s v s' => Returns (lowerNested p depth) s v s' ∧ motive s v s') s v s' → motive s v s')
    {depth : Nat} {s s' : Lowering} {v : Visit} (h : Returns (lowerNested p depth) s v s') :
    motive s v s' := by
  induction depth generalizing s v s' with
  | zero => cases h
  | succ depth ih =>
    rcases returns_lowerNested_succ h with ⟨hcached, rfl⟩ | hexpands
    · exact cached _ _ hcached
    · exact expanded depth _ _ _ (hexpands.mono fun _ _ _ hrun => ⟨hrun, ih hrun⟩)

/-- What holds of cached references, and of an expanded reference if it holds of the
references of its node, holds of every run. -/
theorem lowerNested_induction {p : Program} {motive : Lowering → Visit → Lowering → Prop}
    (cached : ∀ s v, s.handle? v.ref = some v.handle → motive s v s)
    (expanded : ∀ s v s', Expands p motive s v s' → motive s v s') {depth : Nat}
    {s s' : Lowering} {v : Visit} (h : Returns (lowerNested p depth) s v s') : motive s v s' :=
  lowerNested_strong_induction cached
    (fun _ _ _ _ hexpands => expanded _ _ _ (hexpands.mono fun _ _ _ hrun => hrun.2)) h

end QuillImage.Lowering

import Mathlib.Tactic
import QuillImage.Proofs.Lowering.Termination

/-!
# Lowering is faithful

Every lowered node mirrors the node that it comes from: it has the same variant and
the same names, numbers and flags, and a handle stands where a reference stood and
names a lowered node that comes from that reference.

A run may still be inside a function whose body is not put in yet, so this does not
hold of every state on the way. What holds of every run is that it keeps the nodes
that were there and that all the nodes it adds are faithful when it ends
(`Extends`). The main statement is about any calls one after the other
(`exists_run_calls_faithful`).
-/

namespace QuillImage.Lowering

open Syntax

variable {p : Program} {s s' s'' s₁ s₂ : Lowering} {c d : Category}

/-! ## Handles and their origins -/

/-- The handle names a lowered node that comes from the reference. -/
def Points (s : Lowering) (c : Category) (r : Ref c) (h : Handle c) : Prop :=
  ∃ node, s.arenas.entry? h = some ⟨r, node⟩

/-- The handles in the cache name lowered nodes of their references. -/
def Coherent (s : Lowering) : Prop :=
  ∀ (c : Category) (r : Ref c) (h : Handle c), s.handle? r = some h → s.Points c r h

/-- A lowered node mirrors the node that it comes from, with handles of the
references at the same places. -/
def FaithfulEntry (p : Program) (s : Lowering) (e : Lowered c) : Prop :=
  ∃ node, p.node? e.origin = some node ∧ Node.Mirrors s.Points node e.node

/-- All lowered nodes mirror the nodes that they come from. -/
def Faithful (p : Program) (s : Lowering) : Prop :=
  ∀ (c : Category) (h : Handle c) (e : Lowered c), s.arenas.entry? h = some e → FaithfulEntry p s e

theorem FaithfulEntry.mono (hpoints : ∀ c r h, s.Points c r h → s'.Points c r h) {e : Lowered c}
    (h : FaithfulEntry p s e) : FaithfulEntry p s' e := by
  obtain ⟨node, hnode, hmirrors⟩ := h
  exact ⟨node, hnode, hmirrors.mono hpoints⟩

/-- A handle that names a node is not the next one. -/
theorem ne_next_of_eq_some {h : Handle d} {e : Lowered d} (he : s.arenas.entry? h = some e) :
    (⟨d, h⟩ : AnyRef Handle) ≠ ⟨c, s.next c⟩ := by
  rintro ⟨⟩
  rw [entry?_next] at he
  cases he

theorem entry?_push_of_eq_some {h : Handle d} {e : Lowered d} (he : s.arenas.entry? h = some e)
    (r : Ref c) (node : Node c Handle) :
    Arenas.entry? (push r node s).2.arenas h = some e := by
  rw [entry?_push_of_ne s r node (ne_next_of_eq_some he), he]

/-- The origin of a node stays when its body is put in. -/
theorem Points.setBody {r : Ref d} {h : Handle d} (hpoints : s.Points d r h) (h' : Handle c)
    (body : List (Handle .stmt)) : (setBody h' body s).Points d r h := by
  obtain ⟨node, he⟩ := hpoints
  by_cases heq : (⟨d, h⟩ : AnyRef Handle) = ⟨c, h'⟩
  · cases heq
    exact ⟨_, entry?_setBody_self s h' body he⟩
  · exact ⟨node, by rw [entry?_setBody_of_ne s h' body heq, he]⟩

theorem Coherent.push (hs : s.Coherent) (r : Ref c) (node : Node c Handle) :
    (push r node s).2.Coherent := by
  intro d r' h hr'
  by_cases heq : (⟨d, r'⟩ : AnyRef Ref) = ⟨c, r⟩
  · cases heq
    rw [handle?_push_self] at hr'
    cases hr'
    exact ⟨node, entry?_push_self s r node⟩
  · rw [handle?_push_of_ne s r node heq] at hr'
    obtain ⟨node', he⟩ := hs d r' h hr'
    exact ⟨node', entry?_push_of_eq_some he r node⟩

theorem Coherent.setBody (hs : s.Coherent) (h : Handle c) (body : List (Handle .stmt)) :
    (setBody h body s).Coherent :=
  fun d r k hr => (hs d r k hr).setBody h body

/-! ## What a run adds -/

/-- The nodes that were there are kept, and those that are new are faithful. -/
structure Extends (p : Program) (s s' : Lowering) : Prop where
  kept : ∀ {c : Category} {h : Handle c} {e : Lowered c},
    s.arenas.entry? h = some e → s'.arenas.entry? h = some e
  added : ∀ {c : Category} {h : Handle c} {e : Lowered c},
    s'.arenas.entry? h = some e → s.arenas.entry? h = some e ∨ FaithfulEntry p s' e

namespace Extends

theorem refl (s : Lowering) : Extends p s s := ⟨id, .inl⟩

theorem points (h : Extends p s s') {r : Ref c} {k : Handle c} (hpoints : s.Points c r k) :
    s'.Points c r k := by
  obtain ⟨node, he⟩ := hpoints
  exact ⟨node, h.kept he⟩

theorem trans (h : Extends p s s') (h' : Extends p s' s'') : Extends p s s'' where
  kept he := h'.kept (h.kept he)
  added he := by
    rcases h'.added he with he' | hfaithful
    · exact (h.added he').imp_right (FaithfulEntry.mono fun _ _ _ => h'.points)
    · exact .inr hfaithful

theorem faithful (h : Extends p s s') (hs : s.Faithful p) : s'.Faithful p := by
  intro c k e he
  rcases h.added he with hold | hnew
  · exact (hs c k e hold).mono fun _ _ _ => h.points
  · exact hnew

end Extends

/-- What is true of visits one after the other: they add faithful nodes, keep the cache
coherent, and their handles name nodes of their references. -/
structure Sound (p : Program) (s : Lowering) (vs : List Visit) (s' : Lowering) : Prop where
  growth : Extends p s s'
  coherent : s'.Coherent
  points : ∀ c r h, Among vs c r h → s'.Points c r h

/-- Visits that are sound one by one are sound together. -/
theorem Chain.sound {vs : List Visit}
    (h : Chain (fun s v s' => s.Coherent → Sound p s [v] s') s vs s') (hs : s.Coherent) :
    Sound p s vs s' := by
  induction h with
  | nil s => exact ⟨.refl s, hs, fun _ _ _ hmem => absurd hmem List.not_mem_nil⟩
  | cons head _ ih =>
    have hhead := head hs
    have htail := ih hhead.coherent
    refine ⟨hhead.growth.trans htail.growth, htail.coherent, fun c r h hmem => ?_⟩
    rcases List.mem_cons.1 hmem with heq | hmem
    · exact htail.growth.points (hhead.points c r h (List.mem_singleton.2 heq))
    · exact htail.points c r h hmem

/-- An expanded reference is sound if the references of its node are. -/
theorem Expands.sound {v : Visit}
    (h : Expands p (fun s v s' => s.Coherent → Sound p s [v] s') s v s') (hs : s.Coherent) :
    Sound p s [v] s' := by
  cases h with
  | @intro s₁ s₂ c r node lowered children statements body _ hnode hchildren _ hlowered
      hstatements _ hbody =>
    have hsound₁ := hchildren.sound hs
    have hsound₂ := hstatements.sound (hsound₁.coherent.push r lowered)
    have hnew : s₂.arenas.entry? (s₁.next c) = some ⟨r, lowered⟩ :=
      hsound₂.growth.kept (entry?_push_self s₁ r lowered)
    have hold : ∀ {d} {h : Handle d} {e}, s₁.arenas.entry? h = some e →
        s₂.arenas.entry? h = some e :=
      fun he => hsound₂.growth.kept (entry?_push_of_eq_some he r lowered)
    have hfinal := entry?_setBody_self s₂ (s₁.next c) body hnew
    have hpoints₂ : ∀ d r' h, s₂.Points d r' h → (setBody (s₁.next c) body s₂).Points d r' h :=
      fun _ _ _ hpoints => hpoints.setBody (s₁.next c) body
    have hpoints₁ : ∀ d r' h, s₁.Points d r' h → (setBody (s₁.next c) body s₂).Points d r' h := by
      rintro d r' h ⟨node', he⟩
      exact hpoints₂ d r' h ⟨node', hold he⟩
    refine ⟨⟨fun {d h e} he => ?_, fun {d h e} he => ?_⟩, hsound₂.coherent.setBody _ _, ?_⟩
    -- the body goes into the new node, which is none of the old ones
    · have he₁ := hsound₁.growth.kept he
      rw [entry?_setBody_of_ne s₂ _ body (ne_next_of_eq_some he₁)]
      exact hold he₁
    · by_cases heq : (⟨d, h⟩ : AnyRef Handle) = ⟨c, s₁.next c⟩
      · cases heq
        rw [hfinal] at he
        cases he
        refine .inr ⟨node, hnode, Node.Mirrors.withBody (hlowered.mono fun d r' h hmem => ?_)
          (hbody.imp fun r' h hmem => ?_)⟩
        · exact hpoints₁ d r' h (hsound₁.points d r' h hmem)
        · exact hpoints₂ .stmt r' h (hsound₂.points .stmt r' h hmem)
      · rw [entry?_setBody_of_ne s₂ _ body heq] at he
        rcases hsound₂.growth.added he with he' | hfaithful
        · rw [entry?_push_of_ne s₁ r lowered heq] at he'
          exact (hsound₁.growth.added he').imp_right (FaithfulEntry.mono hpoints₁)
        · exact .inr (hfaithful.mono hpoints₂)
    · rintro d r' h hmem
      cases List.mem_singleton.1 hmem
      exact ⟨_, hfinal⟩

/-- Every run from a coherent state is sound. -/
theorem sound_of_returns {depth : Nat} {v : Visit} (h : Returns (lowerNested p depth) s v s')
    (hs : s.Coherent) : Sound p s [v] s' := by
  refine lowerNested_induction (motive := fun s v s' => s.Coherent → Sound p s [v] s')
    (fun s v hcached hs => ?_) (fun _ _ _ => Expands.sound) h hs
  refine ⟨.refl s, hs, fun c r h hmem => ?_⟩
  cases List.mem_singleton.1 hmem
  exact hs _ _ _ hcached

/-! ## Calls -/

/-- A call from outside: one node is lowered, or the functions and statements of the
program are. -/
inductive Call where
  | node {c : Category} (r : Ref c)
  | program

/-- The references that a call lowers. -/
def Call.refs (p : Program) : Call → List (AnyRef Ref)
  | @node c r => [⟨c, r⟩]
  | program => refsOf .var p.functions ++ refsOf .stmt p.statements

/-- Runs a call, with the handles that it returns. -/
def Call.run (p : Program) : Call → Run (List Visit)
  | @node c r => return [⟨c, r, ← lower p r⟩]
  | program => do
    let (functions, statements) ← lowerProgram p
    return List.zipWith (Visit.mk .var) p.functions functions ++
      List.zipWith (Visit.mk .stmt) p.statements statements

/-- Runs calls one after the other, with the handles that they return. -/
def runCalls (p : Program) : List Call → Run (List Visit)
  | [] => return []
  | call :: calls => do
    let vs ← call.run p
    return vs ++ (← runCalls p calls)

theorem subset_of_forall₂_among {vs : List Visit} {rs : List (Ref c)} {hs : List (Handle c)}
    (h : List.Forall₂ (Among vs c) rs hs) : List.zipWith (Visit.mk c) rs hs ⊆ vs := by
  induction h with
  | nil => exact List.nil_subset _
  | cons hmem _ ih => exact List.cons_subset.2 ⟨hmem, ih⟩

theorem map_anyRef_zipWith {vs : List Visit} {rs : List (Ref c)} {hs : List (Handle c)}
    (h : List.Forall₂ (Among vs c) rs hs) :
    (List.zipWith (Visit.mk c) rs hs).map Visit.anyRef = refsOf c rs := by
  induction h with
  | nil => rfl
  | cons _ _ ih => exact congrArg (List.cons _) ih

/-- A call visits its references and returns the handles of the visits. -/
theorem Call.visits (p : Program) (call : Call) :
    Visits (fun _ r => lower p r) (call.refs p) (call.run p) fun vs result =>
      result ⊆ vs ∧ result.map Visit.anyRef = call.refs p := by
  cases call with
  | node r =>
    exact (Visits.one _ r).map fun _ _ hmem => ⟨List.cons_subset.2 ⟨hmem, List.nil_subset _⟩, rfl⟩
  | program =>
    have hprogram : Visits (fun _ r => lower p r) (Call.program.refs p) (lowerProgram p)
        fun vs result => List.Forall₂ (Among vs .var) p.functions result.1 ∧
          List.Forall₂ (Among vs .stmt) p.statements result.2 :=
      (Visits.list .var p.functions).bind fun _ => (Visits.list .stmt p.statements).map
        fun _ _ hstatements hfunctions => ⟨hfunctions, hstatements⟩
    refine hprogram.map fun vs result h => ⟨?_, ?_⟩
    · exact List.append_subset.2 ⟨subset_of_forall₂_among h.1, subset_of_forall₂_among h.2⟩
    · rw [List.map_append, map_anyRef_zipWith h.1, map_anyRef_zipWith h.2]
      rfl

/-- Calls visit their references and return the handles of the visits. -/
theorem runCalls_visits (p : Program) (calls : List Call) :
    Visits (fun _ r => lower p r) (calls.flatMap (Call.refs p)) (runCalls p calls)
      fun vs result => result ⊆ vs ∧ result.map Visit.anyRef = calls.flatMap (Call.refs p) := by
  induction calls with
  | nil => exact .pure fun vs => ⟨List.nil_subset vs, rfl⟩
  | cons call calls ih =>
    refine (Call.visits p call).bind fun _ => ih.map fun vs result h h' => ⟨?_, ?_⟩
    · exact List.append_subset.2 ⟨h'.1, h.1⟩
    · rw [List.map_append, h'.2, h.2]
      rfl

/-- Sound visits one after the other, from a coherent state. -/
theorem sound_of_chain {depth : Nat} {vs : List Visit}
    (h : Chain (Returns (lowerNested p depth)) s vs s') (hs : s.Coherent) : Sound p s vs s' :=
  (h.mono fun _ _ _ => sound_of_returns).sound hs

theorem coherent_empty : empty.Coherent := by
  intro c r h hr
  cases c <;> simp [handle?, empty, PerCategory.const, PerCategory.get] at hr

theorem faithful_empty (p : Program) : empty.Faithful p := by
  intro c h e he
  cases c <;> simp [Arenas.entry?, empty, Arenas.empty, PerCategory.const, PerCategory.get] at he

/-- The reference of a call names a node. -/
def Call.InProgram (p : Program) : Call → Prop
  | @node c r => p.Has ⟨c, r⟩
  | program => True

theorem Call.has_of_mem_refs (hp : p.WellFormed) {call : Call} (hcall : call.InProgram p)
    {r : AnyRef Ref} (hr : r ∈ call.refs p) : p.Has r := by
  cases call with
  | node r' =>
    cases List.mem_singleton.1 hr
    exact hcall
  | program =>
    rcases List.mem_append.1 hr with hmem | hmem
    · obtain ⟨r', hr', rfl⟩ := List.mem_map.1 hmem
      exact hp.functions r' hr'
    · obtain ⟨r', hr', rfl⟩ := List.mem_map.1 hmem
      exact hp.statements r' hr'

/-- Calls return, and visit their references one after the other. -/
theorem exists_run_calls (hp : p.WellFormed) {calls : List Call}
    (hcalls : ∀ call ∈ calls, call.InProgram p) (s : Lowering) :
    ∃ result vs s', (runCalls p calls).run s = .ok (result, s') ∧
      Chain (Returns (lowerNested p (depthBound p))) s vs s' ∧
      vs.map Visit.anyRef = calls.flatMap (Call.refs p) ∧ result ⊆ vs ∧
      result.map Visit.anyRef = calls.flatMap (Call.refs p) := by
  have htotal : Total (fun _ => True) (runCalls p calls) := by
    apply (runCalls_visits p calls).total
    intro r hr s _
    obtain ⟨call, hmem, hr⟩ := List.mem_flatMap.1 hr
    obtain ⟨h, s', hrun⟩ := exists_run_lower hp (Call.has_of_mem_refs hp (hcalls call hmem) hr) s
    exact ⟨h, s', hrun, trivial⟩
  obtain ⟨result, s', hrun, _⟩ := htotal s trivial
  obtain ⟨vs, hchain, hrefs, hresult⟩ := (runCalls_visits p calls).trace hrun
  obtain ⟨hsub, hresultRefs⟩ := hresult vs (List.Subset.refl vs)
  exact ⟨result, vs, s', hrun, hchain, hrefs, hsub, hresultRefs⟩

/-- Any calls one after the other return a handle for each reference that they lower.
The handle names a node that comes from the reference, and every node of every arena
mirrors the node that it comes from. -/
theorem exists_run_calls_faithful (hp : p.WellFormed) (calls : List Call)
    (hcalls : ∀ call ∈ calls, call.InProgram p) :
    ∃ result s, (runCalls p calls).run empty = .ok (result, s) ∧
      result.map Visit.anyRef = calls.flatMap (Call.refs p) ∧
      (∀ v ∈ result, s.Points v.category v.ref v.handle) ∧ s.Faithful p := by
  obtain ⟨result, vs, s, hrun, hchain, -, hsub, hrefs⟩ := exists_run_calls hp hcalls empty
  have hsound := sound_of_chain hchain coherent_empty
  exact ⟨result, s, hrun, hrefs, fun v hv => hsound.points _ _ _ (hsub hv),
    hsound.growth.faithful (faithful_empty p)⟩

/-- Two functions that call each other. The program starts with a statement that is also
in the body of the first function. -/
def evenOdd : Program where
  sourcePath := "even_odd.ql"
  moduleName := "even_odd"
  nodes :=
    { type := #[.boolean, .function ⟨0⟩ []]
      var := #[.function ⟨"even", ⟨1⟩, [], [], [⟨0⟩]⟩, .function ⟨"odd", ⟨1⟩, [], [], [⟨1⟩]⟩]
      expr := #[.var ⟨0⟩, .call ⟨0⟩ [], .var ⟨1⟩, .call ⟨2⟩ []]
      stmt := #[.result (some ⟨3⟩), .result (some ⟨1⟩)] }
  functions := [⟨0⟩, ⟨1⟩]
  statements := [⟨0⟩]

/-- A node is above the nodes of earlier categories and those before it. -/
def evenOddRank : AnyRef Ref → Nat
  | ⟨.type, r⟩ => r.index
  | ⟨.var, r⟩ => 2 + r.index
  | ⟨.expr, r⟩ => 4 + r.index
  | ⟨.stmt, r⟩ => 8 + r.index

theorem wellFormed_evenOdd : evenOdd.WellFormed :=
  Program.wellFormed_of_checksWith evenOddRank (by decide)

/-- A call of the first function is lowered, then the program. The first call meets its
own expression again inside the body of the second function. -/
theorem exists_run_calls_evenOdd :
    ∃ result s, (runCalls evenOdd [.node (⟨1⟩ : Ref .expr), .program]).run empty =
        .ok (result, s) ∧
      result.map Visit.anyRef = [⟨.expr, ⟨1⟩⟩, ⟨.var, ⟨0⟩⟩, ⟨.var, ⟨1⟩⟩, ⟨.stmt, ⟨0⟩⟩] ∧
      (∀ v ∈ result, s.Points v.category v.ref v.handle) ∧ s.Faithful evenOdd :=
  exists_run_calls_faithful wellFormed_evenOdd _ (by
    rintro call (_ | ⟨_, _ | ⟨_, ⟨⟩⟩⟩)
    · exact ⟨_, rfl⟩
    · trivial)

end QuillImage.Lowering

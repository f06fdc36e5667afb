import Mathlib.Data.List.Nodup
import Mathlib.Tactic
import QuillImage.Proofs.Lowering.Copies

/-!
# One handle for each type and each variable

An expression can be lowered twice when a body leads back to it. A type or a variable
cannot. Outside of bodies they refer to types, parameters and local variables, from which
no way leads to a function (`Program.Plain`), and a function is in the cache before its
body is lowered, so that the body finds it there.

Main statement: if the parameters of functions are parameters and their local variables
are local variables, any calls one after the other give each type and each variable one
node. Every lowered node names a function by the one handle of the function, whose node
has the whole body (`exists_run_calls_one_handle`).
-/

namespace QuillImage

/-! ## Declarations -/

namespace Syntax

/-- The references of a type are types. -/
theorem Ty.fst_eq_type_of_mem_refs {R : Category → Type} {t : Ty R} {r : AnyRef R}
    (h : r ∈ t.refs) : r.1 = .type := by
  cases t <;> simp only [Ty.refs, refsOf, List.mem_cons, List.mem_map, List.not_mem_nil,
    or_false] at h
  case function =>
    rcases h with rfl | ⟨_, _, rfl⟩ <;> rfl
  case record | choice =>
    obtain ⟨_, _, rfl⟩ := h
    rfl
  all_goals rw [h]

namespace Program

variable {p : Program} {r r' : AnyRef Ref}

/-- Whether the reference names a parameter. -/
def isParameter (p : Program) (r : Ref .var) : Bool :=
  match p.node? r with
  | some (.parameter _ _ _) => true
  | _ => false

/-- Whether the reference names a local variable. -/
def isLocal (p : Program) (r : Ref .var) : Bool :=
  match p.node? r with
  | some (.localVar _ _) => true
  | _ => false

/-- The variables that functions declare are of the right kind: their parameters are
parameters and their local variables are local variables. -/
def WellDeclared (p : Program) : Prop :=
  ∀ (r : Ref .var) (f : Function Ref), p.node? r = some (Variable.function f : Node .var Ref) →
    (∀ x ∈ f.params, p.isParameter x = true) ∧ ∀ x ∈ f.locals, p.isLocal x = true

/-- The reference names a type, or a variable that is no function of the program. -/
def Plain (p : Program) : AnyRef Ref → Prop
  | ⟨.type, _⟩ => True
  | ⟨.var, r⟩ => p.isFunction r = false
  | ⟨.expr, _⟩ | ⟨.stmt, _⟩ => False

theorem isFunction_eq_false_of_isParameter {x : Ref .var} (h : p.isParameter x = true) :
    p.isFunction x = false := by
  unfold isParameter at h
  split at h
  · next hnode => simp [isFunction, hnode, isDefined]
  · cases h

theorem isFunction_eq_false_of_isLocal {x : Ref .var} (h : p.isLocal x = true) :
    p.isFunction x = false := by
  unfold isLocal at h
  split at h
  · next hnode => simp [isFunction, hnode, isDefined]
  · cases h

theorem plain_of_fst_eq_type (h : r.1 = .type) : p.Plain r := by
  obtain ⟨c, r⟩ := r
  cases h
  trivial

/-- A variable that is no function refers to its type only. -/
theorem plain_of_mem_variableRefs {v : Variable Ref} (hv : isDefined v = false)
    (h : r ∈ v.refs) : p.Plain r := by
  cases v with
  | function f => cases hv
  | _ =>
    rw [List.mem_singleton.1 h]
    trivial

/-- From what is plain, all ways lead to what is plain. -/
theorem Plain.child (h : p.Plain r) (hchild : p.Child r r') : p.Plain r' := by
  obtain ⟨c, r⟩ := r
  obtain ⟨node, hnode, hmem⟩ := hchild
  cases c with
  | type => exact plain_of_fst_eq_type (Ty.fst_eq_type_of_mem_refs hmem)
  | var =>
    have hdefined : isDefined node = false := by
      have hr : p.isFunction r = false := h
      simpa [isFunction, hnode] using hr
    refine plain_of_mem_variableRefs hdefined ?_
    cases node with
    | function f => cases hdefined
    | _ => exact hmem
  | expr | stmt => exact h.elim

/-- What is plain has no body. -/
theorem Plain.not_inBody (h : p.Plain r) : ¬ p.InBody r r' := by
  intro hbody
  obtain ⟨f, hf, rfl⟩ := hbody.exists_function
  have hfunction : p.isFunction f = true := (List.mem_filter.1 hf).2
  rw [show p.isFunction f = false from h] at hfunction
  cases hfunction

/-- Outside of bodies, types and variables refer to what is plain. -/
theorem WellDeclared.plain_of_child (hp : p.WellDeclared) (hr : r.1 = .type ∨ r.1 = .var)
    (hchild : p.Child r r') : p.Plain r' := by
  by_cases hplain : p.Plain r
  · exact hplain.child hchild
  obtain ⟨c, r⟩ := r
  rcases hr with rfl | rfl
  · exact absurd trivial hplain
  · obtain ⟨node, hnode, hmem⟩ := hchild
    cases node with
    | function f =>
      obtain ⟨hparams, hlocals⟩ := hp r f hnode
      simp only [Node.withoutBody, Node.refs, Variable.refs, refsOf, List.map_nil,
        List.append_nil, List.mem_cons, List.mem_append, List.mem_map] at hmem
      rcases hmem with rfl | ⟨x, hx, rfl⟩ | ⟨x, hx, rfl⟩
      · trivial
      · exact isFunction_eq_false_of_isParameter (hparams x hx)
      · exact isFunction_eq_false_of_isLocal (hlocals x hx)
    | _ => exact absurd (by simp [Plain, isFunction, hnode, isDefined]) hplain

end Program

end Syntax

/-! ## One node -/

namespace Lowering

open Syntax

variable {p : Program} {s s' : Lowering} {c : Category}

/-- A type or a variable is never met again while it is being lowered. What it refers to
is plain, and leads back to it neither outside of bodies nor through a body, since there
is none on the way. -/
theorem guards_of_wellDeclared (hp : p.WellFormed) (hd : p.WellDeclared) {r : AnyRef Ref}
    (hr : r.1 = .type ∨ r.1 = .var) :
    Guards p r (fun x => p.Plain x ∧ ¬ Relation.ReflTransGen p.Child x r) fun _ => 0 where
  not_self h := h.2 .refl
  start hchild := ⟨hd.plain_of_child hr hchild, fun hpath => hp.acyclic r (.head' hchild hpath)⟩
  child hclear hchild := ⟨hclear.1.child hchild, fun hpath => hclear.2 (.head hchild hpath)⟩
  weight_le _ := le_rfl
  body hclear hbody _ _ _ := absurd hbody hclear.1.not_inBody

/-- Types and variables have one node. -/
theorem nodup_origins_of_wellDeclared (hp : p.WellFormed) (hd : p.WellDeclared) {depth : Nat}
    {vs : List Visit} (h : Chain (Returns (lowerNested p depth)) empty vs s)
    (hc : c = .type ∨ c = .var) : (s.origins c).Nodup := by
  rw [List.nodup_iff_count_le_one]
  intro r
  have hguards := guards_of_wellDeclared hp hd (r := ⟨c, r⟩) hc
  have hspends := Spends.of_chain hguards h .empty (not_cached_empty _)
  simpa [copies] using hspends.le_succ

/-- If no two nodes come from the same reference, the handle in the cache is the only one
of its reference. -/
theorem Consistent.handle?_of_points (hs : s.Consistent) (hnodup : (s.origins c).Nodup)
    {r : Ref c} {h : Handle c} (hpoints : s.Points c r h) : s.handle? r = some h := by
  obtain ⟨k, hk, -⟩ := hs.latest hpoints
  have hindex : h.index = k.index := by
    obtain ⟨hh, horigin⟩ := List.getElem?_eq_some_iff.1 (points_iff.1 hpoints)
    obtain ⟨hk', horigin'⟩ := List.getElem?_eq_some_iff.1 (points_iff.1 (hs.points hk))
    exact hnodup.getElem_inj_iff.1 (horigin.trans horigin'.symm)
  rw [hk]
  cases h
  cases k
  cases hindex
  rfl

/-- The handle names a node that comes from the reference. Types and variables are named by
the handle that the cache has for them. -/
def Names (s : Lowering) (c : Category) (r : Ref c) (h : Handle c) : Prop :=
  s.Points c r h ∧ (c = .type ∨ c = .var → s.handle? r = some h)

/-- Any calls one after the other return. They lower each type and each variable once, and
all lowered nodes name it by the handle that the cache has for it. The node of a function
has its whole body. -/
theorem exists_run_calls_one_handle (hp : p.WellFormed) (hd : p.WellDeclared)
    (calls : List Call) (hcalls : ∀ call ∈ calls, call.InProgram p) :
    ∃ result s, (runCalls p calls).run empty = .ok (result, s) ∧
      (s.origins .type).Nodup ∧ (s.origins .var).Nodup ∧
      (∀ (c : Category) (h : Handle c) e, s.arenas.entry? h = some e →
        ∃ node, p.node? e.origin = some node ∧ Node.Mirrors s.Names node e.node) ∧
      (∀ v ∈ result, s.handle? v.ref = some v.handle) ∧
      ∀ (r : Ref .var) (f : Function Ref),
        p.node? r = some (Variable.function f : Node .var Ref) →
        p.Reachable (calls.flatMap (Call.refs p)) ⟨.var, r⟩ →
        ∃ (h : Handle .var) (f' : Function Handle), s.handle? r = some h ∧
          s.arenas.entry? h = some ⟨r, Variable.function f'⟩ ∧
          List.Forall₂ (s.Points .stmt) f.body f'.body := by
  obtain ⟨result, vs, s, hrun, hchain, hrefs, hsub, -⟩ := exists_run_calls hp hcalls empty
  have hs := Consistent.of_chain hchain .empty
  have hsettles := Settles.of_runs hchain
  have hfaithful : s.Faithful p :=
    (sound_of_chain hchain coherent_empty).growth.faithful (faithful_empty p)
  have htypes := nodup_origins_of_wellDeclared hp hd hchain (.inl rfl)
  have hvars := nodup_origins_of_wellDeclared hp hd hchain (.inr rfl)
  have hnames : ∀ c r h, s.Points c r h → s.Names c r h := by
    intro c r h hpoints
    refine ⟨hpoints, ?_⟩
    rintro (rfl | rfl)
    · exact hs.handle?_of_points htypes hpoints
    · exact hs.handle?_of_points hvars hpoints
  refine ⟨result, s, hrun, htypes, hvars, ?_, fun v hv => hsettles.visited v (hsub hv), ?_⟩
  · intro c h e he
    obtain ⟨node, hnode, hmirrors⟩ := hfaithful c h e he
    exact ⟨node, hnode, hmirrors.mono hnames⟩
  · intro r f hr hreach
    rw [← hrefs] at hreach
    obtain ⟨h, hh⟩ := (hsettles.cached_iff_reachable _).2 hreach
    obtain ⟨node', he⟩ := hs.points hh
    obtain ⟨node, hnode, hmirrors⟩ := hfaithful _ _ _ he
    obtain rfl := Option.some.inj (hr.symm.trans hnode)
    cases hmirrors with
    | function _ _ _ _ hbody => exact ⟨h, _, hh, he, hbody⟩

/-- Two functions with parameters that call each other. The first one has a local variable,
and the program calls it. -/
def parity : Program where
  sourcePath := "parity.ql"
  moduleName := "parity"
  nodes :=
    { type := #[.boolean, .number, .function ⟨0⟩ [(.input, ⟨1⟩)]]
      var := #[.function ⟨"even", ⟨2⟩, [⟨2⟩], [⟨3⟩], [⟨0⟩]⟩,
        .function ⟨"odd", ⟨2⟩, [⟨4⟩], [], [⟨1⟩]⟩, .parameter "n" ⟨1⟩ .input,
        .localVar "rest" ⟨1⟩, .parameter "m" ⟨1⟩ .input]
      expr := #[.var ⟨0⟩, .var ⟨1⟩, .var ⟨2⟩, .var ⟨4⟩, .call ⟨1⟩ [⟨2⟩], .call ⟨0⟩ [⟨3⟩],
        .number 0, .call ⟨0⟩ [⟨6⟩]]
      stmt := #[.result (some ⟨4⟩), .result (some ⟨5⟩), .expression ⟨7⟩] }
  functions := [⟨0⟩, ⟨1⟩]
  statements := [⟨2⟩]

/-- A node is above the nodes of earlier categories; among the variables, functions are
above all others. -/
def parityRank : AnyRef Ref → Nat
  | ⟨.type, r⟩ => r.index
  | ⟨.var, r⟩ => if r.index < 2 then 4 else 3
  | ⟨.expr, r⟩ => 5 + r.index
  | ⟨.stmt, r⟩ => 13 + r.index

theorem wellFormed_parity : parity.WellFormed :=
  Program.wellFormed_of_checksWith parityRank (by decide)

theorem wellDeclared_parity : parity.WellDeclared := by
  rintro ⟨i⟩ f hf
  obtain ⟨hlt, hget⟩ := Array.getElem?_eq_some_iff.1 hf
  match i, hlt, hget with
  | 0, _, hget | 1, _, hget => cases hget; decide
  | 2, _, hget | 3, _, hget | 4, _, hget => cases hget

/-- The call of `even` in the body of `odd` is lowered first, then the program. All nodes
name the two functions by their handles. -/
theorem exists_run_calls_parity :
    parity.WellFormed ∧ parity.WellDeclared ∧
      ∃ result s, (runCalls parity [.node (⟨5⟩ : Ref .expr), .program]).run empty =
          .ok (result, s) ∧
        (s.origins .type).Nodup ∧ (s.origins .var).Nodup ∧
        (∀ v ∈ result, s.handle? v.ref = some v.handle) ∧
        ∃ (h : Handle .var) (f : Function Handle), s.handle? (⟨0⟩ : Ref .var) = some h ∧
          s.arenas.entry? h = some ⟨⟨0⟩, Variable.function f⟩ ∧ f.body.length = 1 := by
  have hcalls : ∀ call ∈ [Call.node (⟨5⟩ : Ref .expr), .program], call.InProgram parity := by
    have hnode : (Call.node (⟨5⟩ : Ref .expr)).InProgram parity := ⟨_, rfl⟩
    have hprogram : Call.program.InProgram parity := trivial
    simp [hnode, hprogram]
  obtain ⟨result, s, hrun, htypes, hvars, -, hresult, hbodies⟩ :=
    exists_run_calls_one_handle wellFormed_parity wellDeclared_parity _ hcalls
  have hreach : parity.Reachable
      ([Call.node (⟨5⟩ : Ref .expr), .program].flatMap (Call.refs parity)) ⟨.var, ⟨0⟩⟩ :=
    ⟨⟨.var, ⟨0⟩⟩, by decide, .refl⟩
  obtain ⟨h, f, hh, he, hbody⟩ := hbodies ⟨0⟩ _ rfl hreach
  exact ⟨wellFormed_parity, wellDeclared_parity, result, s, hrun, htypes, hvars, hresult, h, f, hh,
    he, hbody.length_eq.symm⟩

end Lowering

end QuillImage

import Mathlib.Tactic
import QuillImage.Proofs.Generation.Descent

/-!
# How walks end

A walk `Ends` with a result when it gives it for every method body and leaves the body as
it is. Among ordered nodes every walk that generation can be asked for (`Request`) ends:
it succeeds, or it fails at a construct without instructions. It never meets a handle
without a node, and is never nested too deeply.

Main statements:
- the nodes that calls of lowering leave are ordered, and all walks into them end
  (`exists_run_calls_finishes`);
- which walks succeed: the zero values of records that are made of such records alone
  (`Blank`), and the statements that are made of null statements and blocks (`Inert`)
  (`exists_run_calls_succeeds_iff`).
-/

namespace QuillImage.Generation

open Syntax

variable {a : Arenas} {α β : Type}

/-! ## Results of walks -/

/-- The walk gives the result and leaves the body as it is. -/
def Ends (x : Walk α) (r : Except Stop α) : Prop := ∀ body, x.run.run body = (r, body)

theorem ends_pure (v : α) : Ends (pure v) (.ok v) := by
  intro body
  rfl

theorem ends_throw (e : Stop) : Ends (throw e : Walk α) (.error e) := by
  intro body
  rfl

theorem Ends.bind {x : Walk α} {f : α → Walk β} {v : α} {r : Except Stop β}
    (hx : Ends x (.ok v)) (hf : Ends (f v) r) : Ends (x >>= f) r := by
  intro body
  rw [ExceptT.run_bind, StateT.run_bind, hx body]
  exact hf body

theorem Ends.bind_error {x : Walk α} {f : α → Walk β} {e : Stop} (hx : Ends x (.error e)) :
    Ends (x >>= f) (.error e) := by
  intro body
  rw [ExceptT.run_bind, StateT.run_bind, hx body]
  rfl

/-- The walk ends with a failure. -/
def Fails (x : Walk Unit) : Prop := ∃ f, Ends x (.error (.failure f))

/-- The walk succeeds or fails. -/
def Finishes (x : Walk Unit) : Prop := Ends x (.ok ()) ∨ Fails x

/-- The walk succeeds when `P` is true, and fails when it is not. -/
def SucceedsIff (x : Walk Unit) (P : Prop) : Prop := P ∧ Ends x (.ok ()) ∨ ¬ P ∧ Fails x

section Sequences

variable {x y : Walk Unit} {P Q : Prop} {f : α → Walk Unit} {vs : List α}

theorem fails_unimplemented (construct : String) : Fails (unimplemented construct) :=
  ⟨_, ends_throw _⟩

theorem fails_notCallable (construct : String) : Fails (notCallable construct) :=
  ⟨_, ends_throw _⟩

theorem Fails.finishes (h : Fails x) : Finishes x := .inr h

theorem Fails.succeedsIff (h : Fails x) (hP : ¬ P) : SucceedsIff x P := .inr ⟨hP, h⟩

theorem Fails.bind (h : Fails x) : Fails (x >>= fun _ => y) := by
  obtain ⟨f, hf⟩ := h
  exact ⟨f, hf.bind_error⟩

theorem Finishes.bind_fails (hx : Finishes x) (hy : Fails y) : Fails (x >>= fun _ => y) := by
  rcases hx with hok | hfails
  · obtain ⟨f, hf⟩ := hy
    exact ⟨f, hok.bind hf⟩
  · exact hfails.bind

theorem SucceedsIff.finishes (h : SucceedsIff x P) : Finishes x := by
  rcases h with ⟨-, hok⟩ | ⟨-, hfails⟩
  · exact .inl hok
  · exact .inr hfails

theorem SucceedsIff.bind (hx : SucceedsIff x P) (hy : SucceedsIff y Q) :
    SucceedsIff (x >>= fun _ => y) (P ∧ Q) := by
  rcases hx with ⟨hP, hok⟩ | ⟨hP, hfails⟩
  · rcases hy with ⟨hQ, hok'⟩ | ⟨hQ, hfails⟩
    · exact .inl ⟨⟨hP, hQ⟩, hok.bind hok'⟩
    · exact (Finishes.bind_fails (.inl hok) hfails).succeedsIff fun h => hQ h.2
  · exact hfails.bind.succeedsIff fun h => hP h.1

/-- Walks one after the other succeed when each of them does. -/
theorem succeedsIff_forM {P : α → Prop} (h : ∀ v ∈ vs, SucceedsIff (f v) (P v)) :
    SucceedsIff (vs.forM f) (∀ v ∈ vs, P v) := by
  induction vs with
  | nil => exact .inl ⟨by simp, ends_pure ()⟩
  | cons v vs ih =>
    rw [List.forall_mem_cons]
    apply (h v List.mem_cons_self).bind
    exact ih fun w hw => h w (List.mem_cons_of_mem v hw)

theorem finishes_forM (h : ∀ v ∈ vs, Finishes (f v)) : Finishes (vs.forM f) := by
  have hiff : ∀ v ∈ vs, ∃ P, SucceedsIff (f v) P := by
    intro v hv
    rcases h v hv with hok | hfails
    · exact ⟨True, .inl ⟨trivial, hok⟩⟩
    · exact ⟨False, hfails.succeedsIff not_false⟩
  choose! P hP using hiff
  exact (succeedsIff_forM hP).finishes

end Sequences

/-! ## Types -/

/-- The type is a record whose fields all have such types. -/
inductive Blank (a : Arenas) : Handle .type → Prop where
  | record {h : Handle .type} {name : String} {fields : List (RecordField Handle)}
      (hnode : a.node? h = some (.record name fields))
      (hfields : ∀ field ∈ fields, Blank a field.type) : Blank a h

theorem blank_iff {h : Handle .type} {t : Ty Handle} (ht : a.node? h = some t) :
    Blank a h ↔ ∃ name fields, t = .record name fields ∧ ∀ field ∈ fields, Blank a field.type := by
  constructor
  · rintro ⟨hnode, hfields⟩
    rw [ht] at hnode
    exact ⟨_, _, Option.some.inj hnode, hfields⟩
  · rintro ⟨name, fields, rfl, hfields⟩
    exact .record ht hfields

theorem default_eq (ha : a.Ordered) {h : Handle .type} {t : Ty Handle}
    (ht : a.node? h = some t) : default a h = defaultWith (default a) t :=
  descend_eq ha local_defaultWith ht

/-- A zero value succeeds when nothing but records is in it. -/
theorem succeedsIff_default (ha : a.Ordered) {h : Handle .type} (hh : a.Has ⟨.type, h⟩) :
    SucceedsIff (default a h) (Blank a h) := by
  refine ha.induction (motive := fun h => SucceedsIff (default a h) (Blank a h))
    (fun h t ht ih => ?_) h hh
  rw [default_eq ha ht, blank_iff ht]
  cases t with
  | record name fields =>
    have hfields : SucceedsIff (defaultWith (default a) (.record name fields))
        (∀ field ∈ fields, Blank a field.type) :=
      succeedsIff_forM fun field hfield => ih field.type (field_mem_refs name hfield)
    simpa using hfields
  | _ => exact (fails_unimplemented _).succeedsIff (by simp)

/-! ## Variables and calls -/

section Calls

variable {f : Handle .expr → Walk Unit} {args : List (Handle .expr)}

theorem fails_callType (hargs : ∀ x ∈ args, Finishes (f x)) (t : Ty Handle) :
    Fails (callType f t args) := by
  cases t with
  | functionPointer _ => exact (finishes_forM hargs).bind_fails (fails_unimplemented _)
  | _ => exact fails_notCallable _

theorem fails_load (v : Variable Handle) : Fails (load v) := fails_unimplemented _

theorem fails_store (v : Variable Handle) : Fails (store v) := fails_unimplemented _

theorem fails_callVariable {v : Variable Handle} (htype : a.Has ⟨.type, v.type⟩)
    (hargs : ∀ x ∈ args, Finishes (f x)) : Fails (callVariable a f v args) := by
  obtain ⟨t, ht⟩ := Arenas.exists_node?_of_has htype
  rw [callVariable]
  split
  · exact (finishes_forM hargs).bind_fails (fails_unimplemented _)
  -- a variable that holds a function pointer is loaded before the arguments are visited
  · rw [node_eq ht, pure_bind]
    cases t with
    | functionPointer _ => exact (fails_load v).bind
    | _ => exact fails_notCallable _

theorem fails_callWith (ha : a.Ordered) {h : Handle .expr} (hh : a.Has ⟨.expr, h⟩)
    (hvalue : Fails (f h)) (hargs : ∀ x ∈ args, Finishes (f x)) :
    Fails (callWith a f h args) := by
  obtain ⟨e, he⟩ := Arenas.exists_node?_of_has hh
  rw [callWith, node_eq he, pure_bind]
  cases e with
  | var v =>
    obtain ⟨n, hn⟩ := Arenas.exists_node?_of_has (ha.has he ⟨.var, v⟩ List.mem_cons_self)
    dsimp only
    rw [node_eq hn, pure_bind]
    exact fails_callVariable (ha.has hn ⟨.type, n.type⟩ (type_mem_refs n)) hargs
  | _ => exact hvalue.bind

end Calls

/-! ## Expressions -/

theorem value_eq (ha : a.Ordered) {h : Handle .expr} {e : Expr Handle}
    (he : a.node? h = some e) : value a h = valueWith a (value a) e :=
  descend_eq ha (local_valueWith a) he

/-- An expression fails once its operands do. -/
theorem fails_valueWith (ha : a.Ordered) {f : Handle .expr → Walk Unit} {e : Expr Handle}
    (hrefs : ∀ h ∈ e.refs, a.Has h) (hvalue : ∀ h, ⟨.expr, h⟩ ∈ e.refs → Fails (f h)) :
    Fails (valueWith a f e) := by
  have hoperands : Finishes ((operands e).forM f) :=
    finishes_forM fun h hmem => (hvalue h (mem_refs_of_mem_operands hmem)).finishes
  cases e with
  | var v =>
    obtain ⟨n, hn⟩ := Arenas.exists_node?_of_has (hrefs ⟨.var, v⟩ List.mem_cons_self)
    rw [valueWith, node_eq hn, pure_bind]
    exact fails_load n
  | call callee args =>
    apply fails_callWith ha (hrefs ⟨.expr, callee⟩ List.mem_cons_self)
    · exact hvalue callee List.mem_cons_self
    · intro x hx
      exact (hvalue x (List.mem_cons_of_mem _ (mem_refsOf_self.2 hx))).finishes
  | newRecord type value =>
    cases value with
    -- a zero value may succeed, the record that is made of it does not
    | none =>
      have hdefault := succeedsIff_default ha (hrefs ⟨.type, type⟩ List.mem_cons_self)
      exact hdefault.finishes.bind_fails (fails_unimplemented _)
    | some value => exact hoperands.bind_fails (fails_unimplemented _)
  | _ => exact hoperands.bind_fails (fails_unimplemented _)

/-- No expression succeeds. -/
theorem fails_value (ha : a.Ordered) {h : Handle .expr} (hh : a.Has ⟨.expr, h⟩) :
    Fails (value a h) := by
  refine ha.induction (motive := fun h => Fails (value a h)) (fun h e he ih => ?_) h hh
  rw [value_eq ha he]
  exact fails_valueWith ha (ha.has he) ih

/-! ## Statements -/

/-- The statement is null, or a block of such statements. -/
inductive Inert (a : Arenas) : Handle .stmt → Prop where
  | null {h : Handle .stmt} (hnode : a.node? h = some .null) : Inert a h
  | block {h : Handle .stmt} {body : List (Handle .stmt)}
      (hnode : a.node? h = some (.block body)) (hbody : ∀ b ∈ body, Inert a b) : Inert a h

theorem inert_iff {h : Handle .stmt} {t : Stmt Handle} (ht : a.node? h = some t) :
    Inert a h ↔ t = .null ∨ ∃ body, t = .block body ∧ ∀ b ∈ body, Inert a b := by
  constructor
  · intro hinert
    cases hinert with
    | null hnode =>
      rw [ht] at hnode
      exact .inl (Option.some.inj hnode)
    | block hnode hbody =>
      rw [ht] at hnode
      exact .inr ⟨_, Option.some.inj hnode, hbody⟩
  · rintro (rfl | ⟨body, rfl, hbody⟩)
    · exact .null ht
    · exact .block ht hbody

theorem execute_eq (ha : a.Ordered) {h : Handle .stmt} {t : Stmt Handle}
    (ht : a.node? h = some t) : execute a h = executeWith a (execute a) t :=
  descend_eq ha (local_executeWith a) ht

/-- The search for a variable among the targets ends. -/
theorem exists_ends_firstVariable (ha : a.Ordered) {targets : List (Handle .expr)}
    (htargets : ∀ h ∈ targets, a.Has ⟨.expr, h⟩) :
    ∃ found, Ends (firstVariable a targets) (.ok found) ∧ ∀ v ∈ found, a.Has ⟨.var, v⟩ := by
  induction targets with
  | nil => exact ⟨none, ends_pure none, by simp⟩
  | cons target rest ih =>
    obtain ⟨e, he⟩ := Arenas.exists_node?_of_has (htargets target List.mem_cons_self)
    have hrest := ih fun h hmem => htargets h (List.mem_cons_of_mem target hmem)
    rw [firstVariable, node_eq he, pure_bind]
    cases e with
    | var v =>
      refine ⟨some v, ends_pure (some v), ?_⟩
      rintro _ ⟨⟩
      exact ha.has he ⟨.var, v⟩ List.mem_cons_self
    | _ => exact hrest

/-- The construct of an assignment fails, whether or not there is a variable to store to. -/
theorem fails_construct_assignment (ha : a.Ordered) {targets : List (Handle .expr)}
    {source : Handle .expr} (hrefs : ∀ h ∈ (Stmt.assignment targets source).refs, a.Has h) :
    Fails (construct a (.assignment targets source)) := by
  have htargets : ∀ h ∈ targets, a.Has ⟨.expr, h⟩ := by
    intro h hmem
    exact hrefs ⟨.expr, h⟩ (List.mem_append_left _ (mem_refsOf_self.2 hmem))
  obtain ⟨found, hfound, hvar⟩ := exists_ends_firstVariable ha htargets
  cases found with
  | none =>
    obtain ⟨f, hf⟩ := fails_unimplemented (Stmt.assignment targets source).describe
    exact ⟨f, hfound.bind hf⟩
  | some v =>
    obtain ⟨n, hn⟩ := Arenas.exists_node?_of_has (hvar v rfl)
    obtain ⟨f, hf⟩ := fails_store n
    refine ⟨f, hfound.bind ?_⟩
    dsimp only
    rw [node_eq hn, pure_bind]
    exact hf

theorem finishes_visit (ha : a.Ordered) {f : Handle .stmt → Walk Unit} {t : Stmt Handle}
    (hrefs : ∀ h ∈ t.refs, a.Has h) (heffect : ∀ h, ⟨.stmt, h⟩ ∈ t.refs → Finishes (f h))
    {part : Part} (hpart : part ∈ parts t) : Finishes (visit a f part) := by
  cases part with
  | value h =>
    exact (fails_value ha (hrefs ⟨.expr, h⟩ (mem_refs_of_value_mem_parts hpart))).finishes
  | effect h => exact heffect h (mem_refs_of_effect_mem_parts hpart)

/-- A statement succeeds when nothing but null statements and blocks is in it. -/
theorem succeedsIff_execute (ha : a.Ordered) {h : Handle .stmt} (hh : a.Has ⟨.stmt, h⟩) :
    SucceedsIff (execute a h) (Inert a h) := by
  refine ha.induction (motive := fun h => SucceedsIff (execute a h) (Inert a h))
    (fun h t ht ih => ?_) h hh
  have hrefs := ha.has ht
  have hparts : Finishes ((parts t).forM (visit a (execute a))) :=
    finishes_forM fun part hpart =>
      finishes_visit ha hrefs (fun h' hmem => (ih h' hmem).finishes) hpart
  rw [execute_eq ha ht, executeWith, inert_iff ht]
  cases t with
  | null => exact .inl ⟨.inl rfl, (ends_pure ()).bind (ends_pure ())⟩
  | block body =>
    have hbody : SucceedsIff (body.forM (execute a)) (∀ b ∈ body, Inert a b) :=
      succeedsIff_forM fun b hb => ih b (mem_refsOf_self.2 hb)
    have hvisits : (parts (.block body)).forM (visit a (execute a)) = body.forM (execute a) :=
      List.forM_map
    have hconstruct : SucceedsIff (construct a (.block body)) True := .inl ⟨trivial, ends_pure ()⟩
    rw [hvisits]
    simpa using hbody.bind hconstruct
  | expression e =>
    have hvalue := fails_value ha (hrefs ⟨.expr, e⟩ List.mem_cons_self)
    exact hvalue.bind.bind.succeedsIff (by simp)
  | assignment =>
    exact (hparts.bind_fails (fails_construct_assignment ha hrefs)).succeedsIff (by simp)
  | _ => exact (hparts.bind_fails (fails_unimplemented _)).succeedsIff (by simp)

/-! ## Requests -/

/-- What generation can be asked for. -/
inductive Request where
  | default (h : Handle .type)
  | callType (h : Handle .type) (args : List (Handle .expr))
  | load (h : Handle .var)
  | store (h : Handle .var)
  | callVariable (h : Handle .var) (args : List (Handle .expr))
  | value (h : Handle .expr)
  | callExpr (h : Handle .expr) (args : List (Handle .expr))
  | execute (h : Handle .stmt)

namespace Request

/-- The walk of a request. -/
def walk (a : Arenas) : Request → Walk Unit
  | default h => Generation.default a h
  | callType h args => do Generation.callType (Generation.value a) (← node a h) args
  | load h => do Generation.load (← node a h)
  | store h => do Generation.store (← node a h)
  | callVariable h args => do Generation.callVariable a (Generation.value a) (← node a h) args
  | value h => Generation.value a h
  | callExpr h args => Generation.callExpr a h args
  | execute h => Generation.execute a h

/-- The handles that a request names: that of the node, and those of the arguments. -/
def handles : Request → List (AnyRef Handle)
  | default h => [⟨.type, h⟩]
  | callType h args => ⟨.type, h⟩ :: refsOf .expr args
  | load h | store h => [⟨.var, h⟩]
  | callVariable h args => ⟨.var, h⟩ :: refsOf .expr args
  | value h => [⟨.expr, h⟩]
  | callExpr h args => ⟨.expr, h⟩ :: refsOf .expr args
  | execute h => [⟨.stmt, h⟩]

/-- There is nothing to generate for the request. -/
def IsEmpty (a : Arenas) : Request → Prop
  | default h => Blank a h
  | execute h => Inert a h
  | callType .. | load _ | store _ | callVariable .. | value _ | callExpr .. => False

/-- A request succeeds when there is nothing to generate for it. -/
theorem succeedsIff_walk (ha : a.Ordered) {request : Request}
    (hrequest : ∀ h ∈ request.handles, a.Has h) :
    SucceedsIff (request.walk a) (request.IsEmpty a) := by
  have hargs : ∀ {h : AnyRef Handle} {args : List (Handle .expr)},
      request.handles = h :: refsOf .expr args → ∀ x ∈ args, Finishes (Generation.value a x) := by
    intro h args heq x hx
    apply Fails.finishes
    apply fails_value ha
    apply hrequest
    rw [heq]
    exact List.mem_cons_of_mem h (mem_refsOf_self.2 hx)
  cases request with
  | default h => exact succeedsIff_default ha (hrequest _ List.mem_cons_self)
  | execute h => exact succeedsIff_execute ha (hrequest _ List.mem_cons_self)
  | value h => exact (fails_value ha (hrequest _ List.mem_cons_self)).succeedsIff not_false
  | callExpr h args =>
    have hh := hrequest ⟨.expr, h⟩ List.mem_cons_self
    exact (fails_callWith ha hh (fails_value ha hh) (hargs rfl)).succeedsIff not_false
  | callType h args =>
    obtain ⟨t, ht⟩ := Arenas.exists_node?_of_has (hrequest ⟨.type, h⟩ List.mem_cons_self)
    rw [walk, node_eq ht, pure_bind]
    exact (fails_callType (hargs rfl) t).succeedsIff not_false
  | load h =>
    obtain ⟨v, hv⟩ := Arenas.exists_node?_of_has (hrequest ⟨.var, h⟩ List.mem_cons_self)
    rw [walk, node_eq hv, pure_bind]
    exact (fails_load v).succeedsIff not_false
  | store h =>
    obtain ⟨v, hv⟩ := Arenas.exists_node?_of_has (hrequest ⟨.var, h⟩ List.mem_cons_self)
    rw [walk, node_eq hv, pure_bind]
    exact (fails_store v).succeedsIff not_false
  | callVariable h args =>
    obtain ⟨v, hv⟩ := Arenas.exists_node?_of_has (hrequest ⟨.var, h⟩ List.mem_cons_self)
    rw [walk, node_eq hv, pure_bind]
    have htype := ha.has hv ⟨.type, v.type⟩ (type_mem_refs v)
    exact (fails_callVariable htype (hargs rfl)).succeedsIff not_false

end Request

/-! ## Lowered nodes -/

section Lowered

open Lowering

variable {p : Program}

/-- After any calls of lowering, all handles name nodes and outside of the bodies of
functions they are smaller than the node's. So no walk depends on its bound, and every
request ends, is not broken and leaves the method body as it is. -/
theorem exists_run_calls_finishes (hp : p.WellFormed) (calls : List Call)
    (hcalls : ∀ call ∈ calls, call.InProgram p) :
    ∃ result s, (runCalls p calls).run empty = .ok (result, s) ∧
      result.map Visit.anyRef = calls.flatMap (Call.refs p) ∧
      (∀ v ∈ result, s.arenas.Has ⟨v.category, v.handle⟩) ∧ s.arenas.Ordered ∧
      (∀ (depth : Nat) (h : Handle .type), h.index < depth →
        descendNested s.arenas defaultWith depth h = default s.arenas h) ∧
      (∀ (depth : Nat) (h : Handle .expr), h.index < depth →
        descendNested s.arenas (valueWith s.arenas) depth h = value s.arenas h) ∧
      (∀ (depth : Nat) (h : Handle .stmt), h.index < depth →
        descendNested s.arenas (executeWith s.arenas) depth h = execute s.arenas h) ∧
      ∀ request : Request, (∀ h ∈ request.handles, s.arenas.Has h) →
        ∃ r, r ≠ .error .broken ∧ ∀ body, (request.walk s.arenas).run.run body = (r, body) := by
  obtain ⟨result, s, hrun, hrefs, hpoints, -, ha⟩ := exists_run_calls_ordered hp hcalls
  refine ⟨result, s, hrun, hrefs, fun v hv => (hpoints v hv).has, ha, ?_, ?_, ?_, ?_⟩
  · intro depth h hdepth
    exact descendNested_eq ha local_defaultWith hdepth
  · intro depth h hdepth
    exact descendNested_eq ha (local_valueWith s.arenas) hdepth
  · intro depth h hdepth
    exact descendNested_eq ha (local_executeWith s.arenas) hdepth
  · intro request hrequest
    rcases (Request.succeedsIff_walk ha hrequest).finishes with hok | ⟨f, hfails⟩
    · exact ⟨.ok (), by simp, hok⟩
    · exact ⟨.error (.failure f), by simp, hfails⟩

/-- The expression that calls the first of two functions ends when it is called with itself
as argument. -/
theorem exists_run_calls_evenOdd_finishes :
    ∃ result s, ∃ (h : Handle .expr) (r : Except Stop Unit),
      (runCalls evenOdd [.node (⟨1⟩ : Ref .expr), .program]).run empty = .ok (result, s) ∧
      ⟨.expr, ⟨1⟩, h⟩ ∈ result ∧ r ≠ .error .broken ∧
      ∀ body, (callExpr s.arenas h [h]).run.run body = (r, body) := by
  obtain ⟨result, s, hrun, hrefs, hhas, -, -, -, -, hends⟩ := exists_run_calls_finishes
    wellFormed_evenOdd [.node (⟨1⟩ : Ref .expr), .program] inProgram_evenOdd_calls
  have hmem : ⟨.expr, ⟨1⟩⟩ ∈ result.map Visit.anyRef := by
    rw [hrefs]
    exact List.mem_cons_self
  obtain ⟨h, hv⟩ := exists_visit_of_mem hmem
  have hh := hhas _ hv
  obtain ⟨r, hr, hbody⟩ := hends (.callExpr h [h]) (by simp [Request.handles, refsOf, hh])
  exact ⟨result, s, h, r, hrun, hv, hr, hbody⟩

/-- After any calls of lowering, a request succeeds exactly when there is nothing to
generate for it: it is for the zero value of a record of such records, or for the effect of
a null statement or a block of such statements. -/
theorem exists_run_calls_succeeds_iff (hp : p.WellFormed) (calls : List Call)
    (hcalls : ∀ call ∈ calls, call.InProgram p) :
    ∃ result s, (runCalls p calls).run empty = .ok (result, s) ∧
      ∀ request : Request, (∀ h ∈ request.handles, s.arenas.Has h) → ∀ body,
        ((request.walk s.arenas).run.run body).1 = .ok () ↔ request.IsEmpty s.arenas := by
  obtain ⟨result, s, hrun, -, -, -, ha⟩ := exists_run_calls_ordered hp hcalls
  refine ⟨result, s, hrun, fun request hrequest body => ?_⟩
  rcases Request.succeedsIff_walk ha hrequest with ⟨hempty, hok⟩ | ⟨hempty, f, hfails⟩
  · exact iff_of_true (congrArg Prod.fst (hok body)) hempty
  · rw [hfails body]
    exact iff_of_false (by simp) hempty

/-- A record in a record, a null statement in a block, and a block that is left early. -/
def hollow : Program where
  sourcePath := "hollow.ql"
  moduleName := "hollow"
  nodes :=
    { type := #[.record "Inner" [], .record "Outer" [⟨"inner", ⟨0⟩, false⟩]]
      var := #[]
      expr := #[]
      stmt := #[.null, .block [⟨0⟩], .exit 0, .block [⟨1⟩, ⟨2⟩]] }
  functions := []
  statements := [⟨1⟩, ⟨3⟩]

theorem wellFormed_hollow : hollow.WellFormed :=
  Program.wellFormed_of_checksWith (fun r => r.2.index) (by decide)

theorem inProgram_hollow_calls :
    ∀ call ∈ [Call.node (⟨1⟩ : Ref .type), .program], call.InProgram hollow := by
  have hnode : (Call.node (⟨1⟩ : Ref .type)).InProgram hollow := ⟨_, rfl⟩
  have hprogram : Call.program.InProgram hollow := trivial
  simp [hnode, hprogram]

theorem blank_hollow {s : Lowering} (hs : s.Faithful hollow) {h : Handle .type}
    (hh : s.Points .type ⟨1⟩ h) : Blank s.arenas h := by
  obtain ⟨_, houter, hmirrors⟩ := hs.exists_node? hh rfl
  cases hmirrors with
  | record _ hfields =>
    refine .record houter fun field hfield => ?_
    cases hfields with
    | cons hinner hnil =>
      cases hnil
      cases List.mem_singleton.1 hfield
      obtain ⟨_, hnode, hmirrors⟩ := hs.exists_node? hinner.2.2 rfl
      cases hmirrors with
      | record _ hfields =>
        cases hfields
        exact .record hnode (by simp)

theorem inert_hollow {s : Lowering} (hs : s.Faithful hollow) {h : Handle .stmt}
    (hh : s.Points .stmt ⟨1⟩ h) : Inert s.arenas h := by
  obtain ⟨_, hblock, hmirrors⟩ := hs.exists_node? hh rfl
  cases hmirrors with
  | block hbody =>
    refine .block hblock fun b hb => ?_
    cases hbody with
    | cons hnull hnil =>
      cases hnil
      cases List.mem_singleton.1 hb
      obtain ⟨_, hnode, hmirrors⟩ := hs.exists_node? hnull rfl
      cases hmirrors
      exact .null hnode

theorem not_inert_hollow {s : Lowering} (hs : s.Faithful hollow) {h : Handle .stmt}
    (hh : s.Points .stmt ⟨3⟩ h) : ¬ Inert s.arenas h := by
  obtain ⟨_, hblock, hmirrors⟩ := hs.exists_node? hh rfl
  cases hmirrors with
  | block hbody =>
    cases hbody with
    | cons _ htail =>
      cases htail with
      | cons hexit _ =>
        obtain ⟨_, hnode, hmirrors⟩ := hs.exists_node? hexit rfl
        cases hmirrors
        intro hinert
        rcases (inert_iff hblock).1 hinert with heq | ⟨_, heq, hall⟩
        · cases heq
        · cases heq
          simpa using (inert_iff hnode).1 (hall _ (List.mem_cons_of_mem _ List.mem_cons_self))

/-- The zero value of the outer record and the first block succeed, the second one does
not. -/
theorem exists_run_calls_hollow_succeeds :
    ∃ result s, ∃ (t : Handle .type) (h h' : Handle .stmt),
      (runCalls hollow [.node (⟨1⟩ : Ref .type), .program]).run empty = .ok (result, s) ∧
      ⟨.type, ⟨1⟩, t⟩ ∈ result ∧ ⟨.stmt, ⟨1⟩, h⟩ ∈ result ∧ ⟨.stmt, ⟨3⟩, h'⟩ ∈ result ∧
      ∀ body, ((default s.arenas t).run.run body).1 = .ok () ∧
        ((execute s.arenas h).run.run body).1 = .ok () ∧
        ((execute s.arenas h').run.run body).1 ≠ .ok () := by
  obtain ⟨result, s, hrun, hsucceeds⟩ := exists_run_calls_succeeds_iff wellFormed_hollow
    [.node (⟨1⟩ : Ref .type), .program] inProgram_hollow_calls
  obtain ⟨_, _, hrun', hrefs, hpoints, hs, -⟩ := exists_run_calls_ordered wellFormed_hollow
    inProgram_hollow_calls
  cases hrun.symm.trans hrun'
  obtain ⟨t, ht⟩ : ∃ t, ⟨.type, ⟨1⟩, t⟩ ∈ result :=
    exists_visit_of_mem (by rw [hrefs]; decide)
  obtain ⟨h, hh⟩ : ∃ h, ⟨.stmt, ⟨1⟩, h⟩ ∈ result :=
    exists_visit_of_mem (by rw [hrefs]; decide)
  obtain ⟨h', hh'⟩ : ∃ h', ⟨.stmt, ⟨3⟩, h'⟩ ∈ result :=
    exists_visit_of_mem (by rw [hrefs]; decide)
  have hpt := hpoints _ ht
  have hph := hpoints _ hh
  have hph' := hpoints _ hh'
  refine ⟨result, s, t, h, h', hrun, ht, hh, hh', fun body => ⟨?_, ?_, ?_⟩⟩
  · exact (hsucceeds (.default t) (by simp [Request.handles, hpt.has]) body).2 (blank_hollow hs hpt)
  · exact (hsucceeds (.execute h) (by simp [Request.handles, hph.has]) body).2 (inert_hollow hs hph)
  · intro hok
    apply not_inert_hollow hs hph'
    exact (hsucceeds (.execute h') (by simp [Request.handles, hph'.has]) body).1 hok

end Lowered

end QuillImage.Generation

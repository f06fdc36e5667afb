import Mathlib.Logic.Relation
import Mathlib.Tactic
import QuillImage.Proofs.Generation.Outcomes

/-!
# The construct that is reported

No expression succeeds, so a walk into an expression never gets past the operand that is
evaluated first. `FirstOperand` says which operand that is, and `Leaf` which expressions have
none, with their failures. From every expression the first operands lead to a leaf
(`exists_leafFailure`), and the expression fails like it (`LeafFailure.ends_value`). So a
failure names no expression that has an operand, no indirect call and no call through a
function pointer (`Leaf.text_cases`).

A statement evaluates its expressions and statements in source order (`evaluated`). It fails
like the first one that is not inert, and with its own name if there is none
(`Reports.ends_visit`, `exists_reports`).

Main statement: this holds of all nodes that calls of lowering leave
(`exists_run_calls_first_leaf`).
-/

namespace QuillImage.Generation

open Syntax

variable {a : Arenas}

/-! ## Sequences -/

section Sequences

variable {α : Type} {g : α → Walk Unit} {before after vs : List α} {v : α} {stop : Stop}

theorem Ends.unique {x : Walk α} {r r' : Except Stop α} (h : Ends x r) (h' : Ends x r') :
    r = r' := congrArg Prod.fst ((h {}).symm.trans (h' {}))

theorem ends_forM_ok (h : ∀ w ∈ vs, Ends (g w) (.ok ())) : Ends (vs.forM g) (.ok ()) := by
  induction vs with
  | nil => exact ends_pure ()
  | cons w vs ih =>
    apply (h w List.mem_cons_self).bind
    exact ih fun w' hw' => h w' (List.mem_cons_of_mem w hw')

/-- Walks one after the other stop like the first of them that does. -/
theorem ends_forM_error (hbefore : ∀ w ∈ before, Ends (g w) (.ok ()))
    (hv : Ends (g v) (.error stop)) : Ends ((before ++ v :: after).forM g) (.error stop) := by
  induction before with
  | nil => exact hv.bind_error
  | cons w before ih =>
    apply (hbefore w List.mem_cons_self).bind
    exact ih fun w' hw' => hbefore w' (List.mem_cons_of_mem w hw')

/-- In a list whose members do not all have a property there is a first one that does not. -/
theorem exists_first_of_not_forall {P : α → Prop} (h : ¬ ∀ w ∈ vs, P w) :
    ∃ before v after, vs = before ++ v :: after ∧ (∀ w ∈ before, P w) ∧ ¬ P v := by
  classical
  push Not at h
  obtain ⟨w, hw, hnot⟩ := h
  have hsome : (vs.find? fun w => ¬ P w).isSome := List.find?_isSome.2 ⟨w, hw, by simpa using hnot⟩
  obtain ⟨v, hv⟩ := Option.isSome_iff_exists.1 hsome
  obtain ⟨hnot, before, after, hvs, hbefore⟩ := List.find?_eq_some_iff_append.1 hv
  refine ⟨before, v, after, hvs, fun w hw => ?_, by simpa using hnot⟩
  simpa using hbefore w hw

/-- When walks one after the other fail, one of them does so in the same way. -/
theorem exists_mem_of_ends_forM (hfinishes : ∀ w ∈ vs, Finishes (g w)) {f : Failure}
    (hf : Ends (vs.forM g) (.error (.failure f))) :
    ∃ w ∈ vs, Ends (g w) (.error (.failure f)) := by
  by_cases hall : ∀ w ∈ vs, Ends (g w) (.ok ())
  · cases hf.unique (ends_forM_ok hall)
  · obtain ⟨before, v, after, rfl, hbefore, hv⟩ := exists_first_of_not_forall hall
    have hmem : v ∈ before ++ v :: after := List.mem_append_right before List.mem_cons_self
    obtain ⟨f', hf'⟩ := (hfinishes v hmem).resolve_left hv
    cases hf.unique (ends_forM_error hbefore hf')
    exact ⟨v, hmem, hf'⟩

end Sequences

/-! ## Operands and leaves -/

/-- The expression refers to the variable. -/
def RefersTo (a : Arenas) (h : Handle .expr) (n : Variable Handle) : Prop :=
  ∃ v, a.node? h = some (.var v) ∧ a.node? v = some n

/-- The operand that an expression evaluates first. That of a call is what is called, unless
this is a variable. The call of a function evaluates its first argument. -/
inductive FirstOperand (a : Arenas) : Expr Handle → Handle .expr → Prop where
  | element (type : Handle .type) (x : Handle .expr) (rest : List (Handle .expr)) :
      FirstOperand a (.arrayLiteral type (x :: rest)) x
  | entry (type : Handle .type) (key : String) (x : Handle .expr)
      (rest : List (String × Handle .expr)) :
      FirstOperand a (.dictionaryLiteral type ((key, x) :: rest)) x
  | fieldValue (type : Handle .type) (x : Handle .expr) (rest : List (Handle .expr)) :
      FirstOperand a (.recordLiteral type (x :: rest)) x
  | newValue (type : Handle .type) (x : Handle .expr) :
      FirstOperand a (.newRecord type (some x)) x
  | tested (x : Handle .expr) (target : Handle .type) : FirstOperand a (.typeTest x target) x
  | operand (op : UnaryOp) (x : Handle .expr) : FirstOperand a (.unary op x) x
  | condition (x left right : Handle .expr) : FirstOperand a (.conditional x left right) x
  | tried (x : Handle .expr) (catches : List (ExprCatch Handle)) :
      FirstOperand a (.trap x catches) x
  | left (op : BinaryOp) (x right : Handle .expr) : FirstOperand a (.binary op x right) x
  | link (x : Handle .expr) (rest : List (Handle .expr)) : FirstOperand a (.chained (x :: rest)) x
  | compared (compared : Compared) (relation : Syntax.Relation) (x right : Handle .expr) :
      FirstOperand a (.comparison compared relation x right) x
  | indexed (indexed : Indexed) (x position : Handle .expr) :
      FirstOperand a (.index indexed x position) x
  | sliced (sliced : Sliced) (x first : Handle .expr) (firstFromEnd : Bool) (last : Handle .expr)
      (lastFromEnd : Bool) :
      FirstOperand a (.range sliced x first firstFromEnd last lastFromEnd) x
  | record (asReference : Bool) (x : Handle .expr) (name : String) (position : Nat) :
      FirstOperand a (.field asReference x name position) x
  | callee {x : Handle .expr} {e : Expr Handle} (args : List (Handle .expr))
      (hnode : a.node? x = some e) (hvar : ∀ v, e ≠ .var v) : FirstOperand a (.call x args) x
  | argument {callee : Handle .expr} {n : Variable Handle} (x : Handle .expr)
      (rest : List (Handle .expr)) (hcallee : RefersTo a callee n)
      (hfunction : n.isFunction = true) : FirstOperand a (.call callee (x :: rest)) x

/-- The expression is a constant. -/
def IsConstant : Expr Handle → Prop
  | .boolean _ | .number _ | .string _ | .bytes _ | .enumValue .. | .choiceValue .. | .nil _
  | .nowhere _ => True
  | _ => False

/-- An expression that evaluates no operand first, with its failure. A record that is made
of no value fails like its zero value. -/
inductive Leaf (a : Arenas) : Expr Handle → Failure → Prop where
  | constant {e : Expr Handle} (h : IsConstant e) : Leaf a e (.unimplemented e.describe)
  | emptyArray (type : Handle .type) :
      Leaf a (.arrayLiteral type []) (.unimplemented "array literal")
  | emptyDictionary (type : Handle .type) :
      Leaf a (.dictionaryLiteral type []) (.unimplemented "dictionary literal")
  | emptyRecord (type : Handle .type) :
      Leaf a (.recordLiteral type []) (.unimplemented "record literal")
  | emptyChain : Leaf a (.chained []) (.unimplemented "chained comparison")
  | load {v : Handle .var} {n : Variable Handle} (hvar : a.node? v = some n) :
      Leaf a (.var v) (.unimplemented ("load of " ++ n.describe))
  | zeroValue {type : Handle .type} {f : Failure}
      (hdefault : Ends (default a type) (.error (.failure f))) :
      Leaf a (.newRecord type none) f
  | newRecord {type : Handle .type} (hdefault : Ends (default a type) (.ok ())) :
      Leaf a (.newRecord type none) (.unimplemented "NEW record")
  | callFunction {callee : Handle .expr} {n : Variable Handle} (hcallee : RefersTo a callee n)
      (hfunction : n.isFunction = true) :
      Leaf a (.call callee []) (.unimplemented ("call of " ++ n.describe))
  | callPointer {callee : Handle .expr} {n : Variable Handle} {target : Handle .type}
      (args : List (Handle .expr)) (hcallee : RefersTo a callee n)
      (hfunction : n.isFunction = false)
      (htype : a.node? n.type = some (.functionPointer target)) :
      Leaf a (.call callee args) (.unimplemented ("load of " ++ n.describe))
  | callOther {callee : Handle .expr} {n : Variable Handle} {t : Ty Handle}
      (args : List (Handle .expr)) (hcallee : RefersTo a callee n)
      (hfunction : n.isFunction = false) (htype : a.node? n.type = some t)
      (hpointer : ∀ target, t ≠ .functionPointer target) :
      Leaf a (.call callee args) (.notCallable n.describe)

theorem RefersTo.unique {h : Handle .expr} {n n' : Variable Handle} (hn : RefersTo a h n)
    (hn' : RefersTo a h n') : n = n' := by
  obtain ⟨v, hv, hnode⟩ := hn
  obtain ⟨v', hv', hnode'⟩ := hn'
  cases hv.symm.trans hv'
  exact Option.some.inj (hnode.symm.trans hnode')

/-- An expression that refers to a variable is not one of the other kinds. -/
theorem RefersTo.not_forall_ne {h : Handle .expr} {n : Variable Handle} (hn : RefersTo a h n)
    {e : Expr Handle} (he : a.node? h = some e) : ¬ ∀ v, e ≠ .var v := by
  obtain ⟨v, hv, -⟩ := hn
  intro hvar
  exact hvar v (Option.some.inj (he.symm.trans hv))

theorem FirstOperand.unique {e : Expr Handle} {x y : Handle .expr} (hx : FirstOperand a e x)
    (hy : FirstOperand a e y) : x = y := by
  cases hx with
  | callee _ hnode hvar =>
    cases hy with
    | callee => rfl
    | argument _ _ hcallee _ => exact absurd hvar (hcallee.not_forall_ne hnode)
  | argument _ _ hcallee _ =>
    cases hy with
    | callee _ hnode hvar => exact absurd hvar (hcallee.not_forall_ne hnode)
    | argument => rfl
  | _ => cases hy; rfl

/-- A leaf has no operand to evaluate. -/
theorem Leaf.not_firstOperand {e : Expr Handle} {f : Failure} (h : Leaf a e f)
    (x : Handle .expr) : ¬ FirstOperand a e x := by
  intro hx
  cases h with
  | constant h => cases hx <;> exact h
  | callFunction hcallee hfunction =>
    cases hx with
    | callee _ hnode hvar => exact hcallee.not_forall_ne hnode hvar
  | callPointer _ hcallee hfunction _ | callOther _ hcallee hfunction _ _ =>
    cases hx with
    | callee _ hnode hvar => exact hcallee.not_forall_ne hnode hvar
    | argument _ _ hcallee' hfunction' =>
      rw [hcallee.unique hcallee', hfunction'] at hfunction
      cases hfunction
  | _ => cases hx

theorem FirstOperand.mem_refs {e : Expr Handle} {x : Handle .expr} (hx : FirstOperand a e x) :
    ⟨.expr, x⟩ ∈ e.refs := by
  cases hx <;> simp [Expr.refs, refsOf]

/-- A call of a variable has a first operand or is a leaf. -/
theorem exists_firstOperand_or_leaf_call {callee : Handle .expr} {n : Variable Handle}
    (hcallee : RefersTo a callee n) (htype : a.Has ⟨.type, n.type⟩) (args : List (Handle .expr)) :
    (∃ x, FirstOperand a (.call callee args) x) ∨ ∃ f, Leaf a (.call callee args) f := by
  cases hfunction : n.isFunction with
  | true =>
    cases args with
    | nil => exact .inr ⟨_, .callFunction hcallee hfunction⟩
    | cons x rest => exact .inl ⟨x, .argument x rest hcallee hfunction⟩
  | false =>
    obtain ⟨t, ht⟩ := Arenas.exists_node?_of_has htype
    by_cases hpointer : ∃ target, t = .functionPointer target
    · obtain ⟨target, rfl⟩ := hpointer
      exact .inr ⟨_, .callPointer args hcallee hfunction ht⟩
    · exact .inr ⟨_, .callOther args hcallee hfunction ht (not_exists.1 hpointer)⟩

/-- Every expression has a first operand or is a leaf. -/
theorem exists_firstOperand_or_leaf (ha : a.Ordered) {e : Expr Handle}
    (hrefs : ∀ h ∈ e.refs, a.Has h) : (∃ x, FirstOperand a e x) ∨ ∃ f, Leaf a e f := by
  cases e with
  | boolean | number | string | bytes | enumValue | choiceValue | nil | nowhere =>
    exact .inr ⟨_, .constant trivial⟩
  | arrayLiteral type elements =>
    cases elements with
    | nil => exact .inr ⟨_, .emptyArray type⟩
    | cons x rest => exact .inl ⟨x, .element type x rest⟩
  | dictionaryLiteral type entries =>
    cases entries with
    | nil => exact .inr ⟨_, .emptyDictionary type⟩
    | cons entry rest => exact .inl ⟨entry.2, .entry type entry.1 entry.2 rest⟩
  | recordLiteral type values =>
    cases values with
    | nil => exact .inr ⟨_, .emptyRecord type⟩
    | cons x rest => exact .inl ⟨x, .fieldValue type x rest⟩
  | newRecord type value =>
    cases value with
    | none =>
      rcases (succeedsIff_default ha (hrefs ⟨.type, type⟩ List.mem_cons_self)).finishes with
        hok | ⟨f, hfails⟩
      · exact .inr ⟨_, .newRecord hok⟩
      · exact .inr ⟨f, .zeroValue hfails⟩
    | some x => exact .inl ⟨x, .newValue type x⟩
  | chained comparisons =>
    cases comparisons with
    | nil => exact .inr ⟨_, .emptyChain⟩
    | cons x rest => exact .inl ⟨x, .link x rest⟩
  | var v =>
    obtain ⟨n, hn⟩ := Arenas.exists_node?_of_has (hrefs ⟨.var, v⟩ List.mem_cons_self)
    exact .inr ⟨_, .load hn⟩
  | call callee args =>
    obtain ⟨e, he⟩ := Arenas.exists_node?_of_has (hrefs ⟨.expr, callee⟩ List.mem_cons_self)
    by_cases hvar : ∃ v, e = .var v
    · obtain ⟨v, rfl⟩ := hvar
      obtain ⟨n, hn⟩ := Arenas.exists_node?_of_has (ha.has he ⟨.var, v⟩ List.mem_cons_self)
      have htype := ha.has hn ⟨.type, n.type⟩ (type_mem_refs n)
      exact exists_firstOperand_or_leaf_call ⟨v, he, hn⟩ htype args
    · exact .inl ⟨callee, .callee args he (not_exists.1 hvar)⟩
  | _ => exact .inl ⟨_, by constructor⟩

/-! ## The failure of one expression -/

section Step

variable {f : Handle .expr → Walk Unit} {x : Handle .expr} {stop : Stop}

theorem node_bind {β : Type} {c : Category} {h : Handle c} {n : Node c Handle}
    (hn : a.node? h = some n) (g : Node c Handle → Walk β) : (node a h >>= g) = g n := by
  rw [node_eq hn, pure_bind]

/-- A call of a variable is a call of what the expression refers to. -/
theorem callWith_of_refersTo {callee : Handle .expr} {n : Variable Handle}
    (hcallee : RefersTo a callee n) (args : List (Handle .expr)) :
    callWith a f callee args = callVariable a f n args := by
  obtain ⟨v, hv, hn⟩ := hcallee
  rw [callWith, node_bind hv]
  exact node_bind hn _

/-- An expression fails like the operand that it evaluates first. -/
theorem FirstOperand.ends_valueWith {e : Expr Handle} (h : FirstOperand a e x)
    (hx : Ends (f x) (.error stop)) : Ends (valueWith a f e) (.error stop) := by
  cases h with
  | @callee _ e args hnode hvar =>
    rw [valueWith, callWith, node_bind hnode]
    cases e with
    | var v => exact absurd rfl (hvar v)
    | _ => exact hx.bind_error
  | argument x rest hcallee hfunction =>
    rw [valueWith, callWith_of_refersTo hcallee, callVariable, if_pos hfunction]
    exact hx.bind_error.bind_error
  | _ => exact hx.bind_error.bind_error

/-- A leaf fails with its own failure. -/
theorem Leaf.ends_valueWith {e : Expr Handle} {failure : Failure} (h : Leaf a e failure) :
    Ends (valueWith a f e) (.error (.failure failure)) := by
  cases h with
  | constant h =>
    cases e with
    | boolean | number | string | bytes | enumValue | choiceValue | nil | nowhere =>
      exact (ends_pure ()).bind (ends_throw _)
    | _ => cases h
  | load hvar =>
    rw [valueWith, node_bind hvar]
    exact ends_throw _
  | zeroValue hdefault => exact hdefault.bind_error
  | newRecord hdefault => exact hdefault.bind (ends_throw _)
  | callFunction hcallee hfunction =>
    rw [valueWith, callWith_of_refersTo hcallee, callVariable, if_pos hfunction]
    exact (ends_pure ()).bind (ends_throw _)
  | callPointer args hcallee hfunction htype =>
    rw [valueWith, callWith_of_refersTo hcallee, callVariable, if_neg (by simp [hfunction]),
      node_bind htype]
    exact (ends_throw _).bind_error
  | @callOther _ _ t args hcallee hfunction htype hpointer =>
    rw [valueWith, callWith_of_refersTo hcallee, callVariable, if_neg (by simp [hfunction]),
      node_bind htype]
    cases t with
    | functionPointer target => exact absurd rfl (hpointer target)
    | _ => exact ends_throw _
  | _ => exact (ends_pure ()).bind (ends_throw _)

end Step

/-! ## The way to the leaf -/

/-- The second expression is the operand that the first one evaluates first. -/
def FirstStep (a : Arenas) (h x : Handle .expr) : Prop :=
  ∃ e, a.node? h = some e ∧ FirstOperand a e x

/-- The failure of the leaf to which the first operands lead from an expression. -/
def LeafFailure (a : Arenas) (h : Handle .expr) (f : Failure) : Prop :=
  ∃ leaf e, Relation.ReflTransGen (FirstStep a) h leaf ∧ a.node? leaf = some e ∧ Leaf a e f

theorem rightUnique_firstStep : Relator.RightUnique (FirstStep a) := by
  rintro h x y ⟨e, he, hx⟩ ⟨e', he', hy⟩
  cases he.symm.trans he'
  exact hx.unique hy

/-- There is one leaf to which the first operands lead. -/
theorem eq_of_reflTransGen_firstStep {h leaf leaf' : Handle .expr} {e e' : Expr Handle}
    {f f' : Failure} (hsteps : Relation.ReflTransGen (FirstStep a) h leaf)
    (he : a.node? leaf = some e) (hleaf : Leaf a e f)
    (hsteps' : Relation.ReflTransGen (FirstStep a) h leaf') (he' : a.node? leaf' = some e')
    (hleaf' : Leaf a e' f') : leaf' = leaf := by
  have hstop : ∀ {k : Handle .expr} {e : Expr Handle} {f : Failure}, a.node? k = some e →
      Leaf a e f → ∀ x, ¬ FirstStep a k x := by
    rintro k e f he hleaf x ⟨e', he', hx⟩
    cases he.symm.trans he'
    exact hleaf.not_firstOperand x hx
  -- of two expressions on the way, one leads to the other
  rcases hsteps.total_of_right_unique rightUnique_firstStep hsteps' with hway | hway
  · exact (Relation.reflTransGen_iff_eq (hstop he hleaf)).1 hway
  · exact ((Relation.reflTransGen_iff_eq (hstop he' hleaf')).1 hway).symm

theorem exists_leafFailure (ha : a.Ordered) {h : Handle .expr} (hh : a.Has ⟨.expr, h⟩) :
    ∃ f, LeafFailure a h f := by
  refine ha.induction (motive := fun h => ∃ f, LeafFailure a h f) (fun h e he ih => ?_) h hh
  rcases exists_firstOperand_or_leaf ha (ha.has he) with ⟨x, hx⟩ | ⟨f, hleaf⟩
  · obtain ⟨f, leaf, e', hsteps, he', hleaf⟩ := ih x hx.mem_refs
    exact ⟨f, leaf, e', .head ⟨e, he, hx⟩ hsteps, he', hleaf⟩
  · exact ⟨f, h, e, .refl, he, hleaf⟩

/-- An expression fails like the leaf to which the first operands lead. -/
theorem LeafFailure.ends_value (ha : a.Ordered) {h : Handle .expr} {f : Failure}
    (hf : LeafFailure a h f) : Ends (value a h) (.error (.failure f)) := by
  obtain ⟨leaf, e, hsteps, he, hleaf⟩ := hf
  induction hsteps using Relation.ReflTransGen.head_induction_on with
  | refl =>
    rw [value_eq ha he]
    exact hleaf.ends_valueWith
  | head hstep _ ih =>
    obtain ⟨e', he', hx⟩ := hstep
    rw [value_eq ha he']
    exact hx.ends_valueWith ih

/-! ## The texts of failures -/

section Texts

variable {R : Category → Type}

/-- The first six characters of a text. -/
def initials (text : String) : List Char := text.toList.take 6

/-- How the texts of loads, of calls of functions and of zero values start. -/
def leafStarts : List (List Char) := ["load o".toList, "call o".toList, "defaul".toList]

/-- How the texts of indirect calls and of calls through function pointers start. -/
def callStarts : List (List Char) := ["indire".toList, "call t".toList]

/-- No name of an expression starts like one of these texts. -/
theorem initials_describe (e : Expr R) : initials e.describe ∉ leafStarts ++ callStarts := by
  rw [leafStarts, callStarts]
  cases e with
  | comparison compared _ _ _ =>
    cases compared <;> simp [Expr.describe, Compared.describe, initials]
  | unary op _ => cases op <;> simp [Expr.describe, UnaryOp.describe, initials]
  | binary op _ _ => cases op <;> simp [Expr.describe, BinaryOp.describe, initials]
  | index indexed _ _ => cases indexed <;> simp [Expr.describe, Indexed.describe, initials]
  | range sliced _ _ _ _ _ => cases sliced <;> simp [Expr.describe, Sliced.describe, initials]
  | field asReference _ _ _ => cases asReference <;> simp [Expr.describe, initials]
  | _ => simp [Expr.describe, initials]

/-- Zero values fail with the name of a type. -/
theorem exists_describe_of_ends_default (ha : a.Ordered) {h : Handle .type}
    (hh : a.Has ⟨.type, h⟩) {f : Failure} (hf : Ends (default a h) (.error (.failure f))) :
    ∃ t : Ty Handle, f = .unimplemented ("default value of " ++ t.describe) := by
  revert f
  refine ha.induction (motive := fun h => ∀ {f}, Ends (default a h) (.error (.failure f)) →
    ∃ t : Ty Handle, f = .unimplemented ("default value of " ++ t.describe))
    (fun h t ht ih f hf => ?_) h hh
  rw [default_eq ha ht] at hf
  cases t with
  | record name fields =>
    have hfinishes : ∀ field ∈ fields, Finishes (default a field.type) := by
      intro field hfield
      have hmem := field_mem_refs name hfield
      exact (succeedsIff_default ha (ha.has ht ⟨.type, field.type⟩ hmem)).finishes
    obtain ⟨field, hfield, hfails⟩ := exists_mem_of_ends_forM hfinishes hf
    exact ih field.type (field_mem_refs name hfield) hfails
  | _ =>
    cases hf.unique (ends_throw _)
    exact ⟨_, rfl⟩

/-- The text of a leaf is its name, or that of a load, of a call or of a zero value. -/
theorem Leaf.text_cases (ha : a.Ordered) {e : Expr Handle} (hrefs : ∀ h ∈ e.refs, a.Has h)
    {text : String} (hleaf : Leaf a e (.unimplemented text)) :
    text = e.describe ∨ initials text ∈ leafStarts := by
  cases hleaf with
  | load | callPointer | callFunction => exact .inr (by simp [initials, leafStarts])
  | zeroValue hdefault =>
    have htype := hrefs ⟨.type, _⟩ List.mem_cons_self
    obtain ⟨t, heq⟩ := exists_describe_of_ends_default ha htype hdefault
    injection heq with htext
    exact .inr (by simp [htext, initials, leafStarts])
  | _ => exact .inl rfl

/-- A text that is the name of an expression is the name of the leaf. -/
theorem Leaf.describe_eq (ha : a.Ordered) {e : Expr Handle} (hrefs : ∀ h ∈ e.refs, a.Has h)
    {e' : Expr Handle} (hleaf : Leaf a e (.unimplemented e'.describe)) :
    e'.describe = e.describe := by
  rcases hleaf.text_cases ha hrefs with htext | hmem
  · exact htext
  · exact absurd (List.mem_append_left callStarts hmem) (initials_describe e')

/-- No leaf is reported as an indirect call or as a call through a function pointer. -/
theorem Leaf.initials_notMem (ha : a.Ordered) {e : Expr Handle} (hrefs : ∀ h ∈ e.refs, a.Has h)
    {text : String} (hleaf : Leaf a e (.unimplemented text)) : initials text ∉ callStarts := by
  rcases hleaf.text_cases ha hrefs with rfl | hmem
  · intro hcall
    exact initials_describe e (List.mem_append_right leafStarts hcall)
  · have hdisjoint : leafStarts.Disjoint callStarts := by simp [leafStarts, callStarts]
    exact hdisjoint hmem

end Texts

/-! ## Statements -/

/-- What is evaluated of a reference: the value of an expression, or the effect of a
statement. -/
def Part.ofRef? : AnyRef Handle → Option Part
  | ⟨.expr, h⟩ => some (.value h)
  | ⟨.stmt, h⟩ => some (.effect h)
  | ⟨.type, _⟩ | ⟨.var, _⟩ => none

/-- What a statement evaluates, in source order: the expressions and statements that it refers
to. The condition of a repeat loop stands behind its body. Of an assignment only the value is
evaluated. -/
def evaluated : Stmt Handle → List Part
  | .repeatLoop _ condition body => body.map .effect ++ [.value condition]
  | .assignment _ source => [.value source]
  | t => t.refs.filterMap Part.ofRef?

/-- The statement that is evaluated needs no instructions. -/
def Silent (a : Arenas) : Part → Prop
  | .value _ => False
  | .effect h => Inert a h

/-- The failure that is reported: of an expression, that of its leaf; of a statement, that of
the first part that is not silent, or its own if all parts are. Null statements and blocks
have none of their own. -/
inductive Reports (a : Arenas) : Part → Failure → Prop where
  | value {h : Handle .expr} {f : Failure} (hleaf : LeafFailure a h f) : Reports a (.value h) f
  | part {h : Handle .stmt} {t : Stmt Handle} {before after : List Part} {part : Part}
      {f : Failure} (hnode : a.node? h = some t) (hparts : evaluated t = before ++ part :: after)
      (hbefore : ∀ q ∈ before, Silent a q) (hpart : Reports a part f) : Reports a (.effect h) f
  | construct {h : Handle .stmt} {t : Stmt Handle} (hnode : a.node? h = some t)
      (hnull : t ≠ .null) (hblock : ∀ body, t ≠ .block body)
      (hparts : ∀ q ∈ evaluated t, Silent a q) :
      Reports a (.effect h) (.unimplemented t.describe)

@[simp]
theorem filterMap_ofRef?_stmt (hs : List (Handle .stmt)) :
    (refsOf .stmt hs).filterMap Part.ofRef? = hs.map .effect := by
  simp [refsOf, List.filterMap_map, Function.comp_def, Part.ofRef?]

@[simp]
theorem filterMap_ofRef?_expr (hs : List (Handle .expr)) :
    (refsOf .expr hs).filterMap Part.ofRef? = hs.map .value := by
  simp [refsOf, List.filterMap_map, Function.comp_def, Part.ofRef?]

@[simp]
theorem filterMap_ofRef?_var (hs : List (Handle .var)) :
    (refsOf .var hs).filterMap Part.ofRef? = [] := by
  simp [refsOf, List.filterMap_map, Function.comp_def, Part.ofRef?]

@[simp]
theorem filterMap_ofRef?_when (w : When Handle) :
    w.refs.filterMap Part.ofRef? = (whenOperands w).map .value := by
  cases w <;> rfl

/-- A statement visits what it evaluates in source order. -/
theorem parts_eq_evaluated (t : Stmt Handle) : parts t = evaluated t := by
  cases t with
  | conditional clauses otherwise =>
    simp [parts, evaluated, Stmt.refs, IfClause.refs, List.filterMap_flatMap, Part.ofRef?]
  | selection subject clauses otherwise =>
    simp [parts, evaluated, Stmt.refs, CaseClause.refs, List.filterMap_flatMap, Part.ofRef?,
      List.map_flatMap]
  | trap body catches =>
    simp [parts, evaluated, Stmt.refs, StmtCatch.refs, List.filterMap_flatMap]
  | _ => simp [parts, evaluated, Stmt.refs, Part.ofRef?, List.filterMap_cons]

theorem Silent.ends_visit (ha : a.Ordered) {part : Part} (hpart : Silent a part) :
    Ends (visit a (execute a) part) (.ok ()) := by
  cases part with
  | value h => cases hpart
  | effect h =>
    have hh : a.Has ⟨.stmt, h⟩ := by
      cases hpart with
      | null hnode | block hnode _ =>
        obtain ⟨r, he⟩ := Arenas.exists_entry?_of_node? hnode
        exact Arenas.has_of_entry? he
    rcases succeedsIff_execute ha hh with ⟨-, hok⟩ | ⟨hnot, -⟩
    · exact hok
    · exact absurd hpart hnot

/-- A statement whose parts are silent has no value to evaluate, so that it is no expression
and no assignment, and fails with its name. -/
theorem ends_construct {t : Stmt Handle} (hnull : t ≠ .null) (hblock : ∀ body, t ≠ .block body)
    (hparts : ∀ q ∈ evaluated t, Silent a q) :
    Ends (construct a t) (.error (.failure (.unimplemented t.describe))) := by
  cases t with
  | null => exact absurd rfl hnull
  | block body => exact absurd rfl (hblock body)
  | expression e => exact (hparts (.value e) List.mem_cons_self).elim
  | assignment targets source => exact (hparts (.value source) List.mem_cons_self).elim
  | _ => exact ends_throw _

/-- What is reported is the failure of the walk. -/
theorem Reports.ends_visit (ha : a.Ordered) {part : Part} {f : Failure} (h : Reports a part f) :
    Ends (visit a (execute a) part) (.error (.failure f)) := by
  induction h with
  | value hleaf => exact hleaf.ends_value ha
  | part hnode hparts hbefore _ ih =>
    rw [visit, execute_eq ha hnode, executeWith, parts_eq_evaluated, hparts]
    exact (ends_forM_error (fun q hq => (hbefore q hq).ends_visit ha) ih).bind_error
  | construct hnode hnull hblock hparts =>
    rw [visit, execute_eq ha hnode, executeWith, parts_eq_evaluated]
    apply (ends_forM_ok fun q hq => (hparts q hq).ends_visit ha).bind
    exact ends_construct hnull hblock hparts

/-- A statement that is not inert reports a failure. -/
theorem exists_reports (ha : a.Ordered) {h : Handle .stmt} (hh : a.Has ⟨.stmt, h⟩)
    (hnot : ¬ Inert a h) : ∃ f, Reports a (.effect h) f := by
  revert hnot
  refine ha.induction (motive := fun h => ¬ Inert a h → ∃ f, Reports a (.effect h) f)
    (fun h t ht ih hnot => ?_) h hh
  by_cases hall : ∀ q ∈ evaluated t, Silent a q
  · have hnull : t ≠ .null := fun heq => hnot ((inert_iff ht).2 (.inl heq))
    have hblock : ∀ body, t ≠ .block body := by
      rintro body rfl
      refine hnot (.block ht fun b hb => hall (.effect b) ?_)
      simpa [evaluated, Stmt.refs] using hb
    exact ⟨_, .construct ht hnull hblock hall⟩
  · obtain ⟨before, part, after, hparts, hbefore, hpart⟩ := exists_first_of_not_forall hall
    have hmem : part ∈ parts t := by
      rw [parts_eq_evaluated, hparts]
      exact List.mem_append_right before List.mem_cons_self
    obtain ⟨f, hf⟩ : ∃ f, Reports a part f := by
      cases part with
      | value x =>
        have hx := ha.has ht ⟨.expr, x⟩ (mem_refs_of_value_mem_parts hmem)
        obtain ⟨f, hf⟩ := exists_leafFailure ha hx
        exact ⟨f, .value hf⟩
      | effect b => exact ih b (mem_refs_of_effect_mem_parts hmem) hpart
    exact ⟨f, .part ht hparts hbefore hf⟩

/-! ## Lowered nodes -/

section Lowered

open Lowering

variable {p : Program}

/-- After any calls of lowering, the first operands lead from each expression to one leaf, and
the failure of the expression is that of the leaf. A leaf has no operand, a failure that has the
name of an expression has that of the leaf, and none is an indirect call or a call through a
function pointer. The failure of a statement that is not inert is that of its first part in
source order that is not silent, or its own. -/
theorem exists_run_calls_first_leaf (hp : p.WellFormed) (calls : List Call)
    (hcalls : ∀ call ∈ calls, call.InProgram p) :
    ∃ result s, (runCalls p calls).run empty = .ok (result, s) ∧
      (∀ h, s.arenas.Has ⟨.expr, h⟩ →
        ∃! leaf, Relation.ReflTransGen (FirstStep s.arenas) h leaf ∧
          ∃ e f, s.arenas.node? leaf = some e ∧ Leaf s.arenas e f ∧
            (∀ body, (value s.arenas h).run.run body = (.error (.failure f), body)) ∧
            (∀ x, ¬ FirstOperand s.arenas e x) ∧
            (∀ e' : Expr Handle, f = .unimplemented e'.describe → e'.describe = e.describe) ∧
            (∀ e' : Expr Handle,
              f ≠ .unimplemented ("indirect call through " ++ e'.describe)) ∧
            f ≠ .unimplemented "call through a function pointer") ∧
      ∀ h, s.arenas.Has ⟨.stmt, h⟩ → ¬ Inert s.arenas h →
        ∃ f, (∀ f', Reports s.arenas (.effect h) f' ↔ f' = f) ∧
          ∀ body, (execute s.arenas h).run.run body = (.error (.failure f), body) := by
  obtain ⟨result, s, hrun, -, -, -, ha⟩ := exists_run_calls_ordered hp hcalls
  refine ⟨result, s, hrun, fun h hh => ?_, fun h hh hnot => ?_⟩
  · obtain ⟨f, leaf, e, hsteps, he, hleaf⟩ := exists_leafFailure ha hh
    have hvalue : Ends (value s.arenas h) (.error (.failure f)) :=
      LeafFailure.ends_value ha ⟨leaf, e, hsteps, he, hleaf⟩
    refine ⟨leaf, ⟨hsteps, e, f, he, hleaf, hvalue, hleaf.not_firstOperand, ?_, ?_, ?_⟩, ?_⟩
    · rintro e' rfl
      exact hleaf.describe_eq ha (ha.has he)
    · rintro e' rfl
      apply hleaf.initials_notMem ha (ha.has he)
      simp [initials, callStarts]
    · rintro rfl
      apply hleaf.initials_notMem ha (ha.has he)
      simp [initials, callStarts]
    · rintro leaf' ⟨hsteps', e', f', he', hleaf', -⟩
      exact eq_of_reflTransGen_firstStep hsteps he hleaf hsteps' he' hleaf'
  · obtain ⟨f, hf⟩ := exists_reports ha hh hnot
    have hexecute := hf.ends_visit ha
    refine ⟨f, fun f' => ⟨fun hf' => ?_, fun heq => heq ▸ hf⟩, hexecute⟩
    cases (hf'.ends_visit ha).unique hexecute
    rfl

/-- A loop that is repeated until a call, with a null statement in its body. The first argument
of the call is an operator applied to a variable. -/
def callLoop : Program where
  sourcePath := "call_loop.ql"
  moduleName := "call_loop"
  nodes :=
    { type := #[.number, .function ⟨0⟩ []]
      var := #[.function ⟨"area", ⟨1⟩, [], [], []⟩, .globalVar "x" ⟨0⟩]
      expr := #[.var ⟨0⟩, .var ⟨1⟩, .unary .minus ⟨1⟩, .number 0, .call ⟨0⟩ [⟨2⟩, ⟨3⟩]]
      stmt := #[.null, .repeatLoop 1 ⟨4⟩ [⟨0⟩]] }
  functions := [⟨0⟩]
  statements := [⟨1⟩]

/-- A node is above the nodes of earlier categories and those before it. -/
def callLoopRank : AnyRef Ref → Nat
  | ⟨.type, r⟩ => r.index
  | ⟨.var, r⟩ => 2 + r.index
  | ⟨.expr, r⟩ => 4 + r.index
  | ⟨.stmt, r⟩ => 9 + r.index

theorem wellFormed_callLoop : callLoop.WellFormed :=
  Program.wellFormed_of_checksWith callLoopRank (by decide)

theorem inProgram_callLoop_calls : ∀ call ∈ [Call.program], call.InProgram callLoop := by
  intro call hcall
  cases List.mem_singleton.1 hcall
  trivial

/-- The first operands lead from the call through its argument to the variable. -/
theorem leafFailure_callLoop {s : Lowering} (hs : s.Faithful callLoop) {h : Handle .expr}
    (hh : s.Points .expr ⟨4⟩ h) :
    LeafFailure s.arenas h (.unimplemented "load of global variable x") := by
  obtain ⟨_, hcall, hmirrors⟩ := hs.exists_node? hh rfl
  cases hmirrors with
  | call hcallee hargs =>
    cases hargs with
    | cons hminus _ =>
      obtain ⟨_, hname, hmirrors⟩ := hs.exists_node? hcallee rfl
      cases hmirrors with
      | var harea =>
        obtain ⟨_, hfunction, hmirrors⟩ := hs.exists_node? harea rfl
        cases hmirrors
        have hstep : FirstStep s.arenas h _ :=
          ⟨_, hcall, .argument _ _ ⟨_, hname, hfunction⟩ rfl⟩
        obtain ⟨_, hunary, hmirrors⟩ := hs.exists_node? hminus rfl
        cases hmirrors with
        | unary _ hx =>
          have hstep' : FirstStep s.arenas _ _ := ⟨_, hunary, .operand _ _⟩
          obtain ⟨_, hload, hmirrors⟩ := hs.exists_node? hx rfl
          cases hmirrors with
          | var hvar =>
            obtain ⟨_, hglobal, hmirrors⟩ := hs.exists_node? hvar rfl
            cases hmirrors
            exact ⟨_, _, .head hstep (.single hstep'), hload, .load hglobal⟩

theorem exists_run_calls_callLoop_reports :
    ∃ result s, ∃ h : Handle .stmt, (runCalls callLoop [.program]).run empty = .ok (result, s) ∧
      ⟨.stmt, ⟨1⟩, h⟩ ∈ result ∧ ¬ Inert s.arenas h ∧
      ∀ body, (execute s.arenas h).run.run body =
        (.error (.failure (.unimplemented "load of global variable x")), body) := by
  obtain ⟨result, s, hrun, -, hreports⟩ := exists_run_calls_first_leaf wellFormed_callLoop
    [.program] inProgram_callLoop_calls
  obtain ⟨_, _, hrun', hrefs, hpoints, hs, -⟩ := exists_run_calls_ordered wellFormed_callLoop
    inProgram_callLoop_calls
  cases hrun.symm.trans hrun'
  obtain ⟨h, hh⟩ : ∃ h, ⟨.stmt, ⟨1⟩, h⟩ ∈ result :=
    exists_visit_of_mem (by rw [hrefs]; decide)
  have hph := hpoints _ hh
  obtain ⟨_, hloop, hmirrors⟩ := hs.exists_node? hph rfl
  cases hmirrors with
  | repeatLoop _ hcondition hbody =>
    have hnot : ¬ Inert s.arenas h := by
      intro hinert
      simpa using (inert_iff hloop).1 hinert
    cases hbody with
    | cons hnull hnil =>
      cases hnil
      obtain ⟨_, hnode, hmirrors⟩ := hs.exists_node? hnull rfl
      cases hmirrors
      have hreport : Reports s.arenas (.effect h) (.unimplemented "load of global variable x") := by
        refine @Reports.part _ _ _ [.effect _] [] _ _ hloop rfl ?_
          (.value (leafFailure_callLoop hs hcondition))
        intro q hq
        cases List.mem_singleton.1 hq
        exact Inert.null hnode
      obtain ⟨f, hunique, hexecute⟩ := hreports h hph.has hnot
      cases (hunique _).1 hreport
      exact ⟨result, s, h, hrun, hh, hnot, hexecute⟩

end Lowered

end QuillImage.Generation

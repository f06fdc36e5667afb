import Mathlib.Tactic
import QuillImage.Lowering
import QuillImage.Proofs.Syntax.Mirror

/-!
# What a traversal visits

Lowering a node runs one computation on each of its references, in order, and
threads the state through. This file says so once for every node: the references
that are visited are the references of the node, the states form a chain, and the
node that results mirrors the old one at the handles that were returned
(`Node.visits`). It also says that a traversal returns whenever the visits do.

The statement is `Visits f rs x P`: `x` runs `f` on the references `rs`. There is
one rule for each way in which a traversal is put together, so that the proof for
a variant follows its equation.
-/

namespace QuillImage.Lowering

open Syntax

variable {α β : Type}

/-! ## Running -/

/-- A sequence returns when its first part does and its second part does from
there. -/
theorem run_bind_eq_ok {x : Run α} {g : α → Run β} {s s' : Lowering} {b : β} :
    (x >>= g).run s = .ok (b, s') ↔
      ∃ a s₁, x.run s = .ok (a, s₁) ∧ (g a).run s₁ = .ok (b, s') := by
  rw [StateT.run_bind]
  constructor
  · intro h
    cases hx : x.run s with
    | error e => rw [hx] at h; cases h
    | ok r => rw [hx] at h; exact ⟨r.1, r.2, rfl, h⟩
  · rintro ⟨a, s₁, hx, hg⟩
    rw [hx]
    exact hg

theorem run_pure_eq_ok {a b : α} {s s' : Lowering} :
    (pure a : Run α).run s = .ok (b, s') ↔ a = b ∧ s = s' := by
  rw [StateT.run_pure]
  constructor
  · intro h
    cases h
    exact ⟨rfl, rfl⟩
  · rintro ⟨rfl, rfl⟩
    rfl

/-- From every good state the computation returns, in a good state. -/
def Total (Good : Lowering → Prop) (x : Run α) : Prop :=
  ∀ s, Good s → ∃ a s', x.run s = .ok (a, s') ∧ Good s'

theorem Total.pure {Good : Lowering → Prop} (a : α) : Total Good (pure a : Run α) :=
  fun s hs => ⟨a, s, rfl, hs⟩

theorem Total.bind {Good : Lowering → Prop} {x : Run α} {g : α → Run β} (hx : Total Good x)
    (hg : ∀ a, Total Good (g a)) : Total Good (x >>= g) := by
  intro s hs
  obtain ⟨a, s₁, hrun, hs₁⟩ := hx s hs
  obtain ⟨b, s₂, hrun', hs₂⟩ := hg a s₁ hs₁
  exact ⟨b, s₂, run_bind_eq_ok.2 ⟨a, s₁, hrun, hrun'⟩, hs₂⟩

/-! ## Visits -/

/-- A reference with the handle that was returned for it. -/
structure Visit where
  category : Category
  ref : Ref category
  handle : Handle category

/-- The reference of a visit. -/
def Visit.anyRef (v : Visit) : AnyRef Ref := ⟨v.category, v.ref⟩

/-- The handle was returned for the reference in one of the visits. -/
def Among (vs : List Visit) (c : Category) (r : Ref c) (h : Handle c) : Prop :=
  ⟨c, r, h⟩ ∈ vs

/-- Visits one after the other, each from the state in which the one before ends. -/
inductive Chain (D : Lowering → Visit → Lowering → Prop) :
    Lowering → List Visit → Lowering → Prop where
  | nil (s : Lowering) : Chain D s [] s
  | cons {s s₁ s₂ : Lowering} {v : Visit} {vs : List Visit} (head : D s v s₁)
      (tail : Chain D s₁ vs s₂) : Chain D s (v :: vs) s₂

namespace Chain

variable {D D' : Lowering → Visit → Lowering → Prop} {s s₁ s₂ : Lowering} {vs ws : List Visit}

theorem append (h : Chain D s vs s₁) (h' : Chain D s₁ ws s₂) : Chain D s (vs ++ ws) s₂ := by
  induction h with
  | nil => exact h'
  | cons head _ ih => exact .cons head (ih h')

theorem mono (hD : ∀ s v s', D s v s' → D' s v s') (h : Chain D s vs s₁) : Chain D' s vs s₁ := by
  induction h with
  | nil s => exact .nil s
  | cons head _ ih => exact .cons (hD _ _ _ head) ih

/-- What each visit preserves, all of them preserve. -/
theorem preserves {I : Lowering → Prop} (h : Chain (fun s _ s' => I s → I s') s vs s₁)
    (hs : I s) : I s₁ := by
  induction h with
  | nil => exact hs
  | cons head _ ih => exact ih (head hs)

end Chain

/-- The visit returns when `f` runs on its reference. -/
def Returns (f : (c : Category) → Ref c → Run (Handle c)) (s : Lowering) (v : Visit)
    (s' : Lowering) : Prop :=
  (f v.category v.ref).run s = .ok (v.handle, s')

/-- The computation runs `f` on the references, in order, and does nothing else to
the state. Its result satisfies `P` for the visits, and for any more visits. -/
structure Visits (f : (c : Category) → Ref c → Run (Handle c)) (rs : List (AnyRef Ref))
    (x : Run α) (P : List Visit → α → Prop) : Prop where
  trace : ∀ {s a s'}, x.run s = .ok (a, s') →
    ∃ vs, Chain (Returns f) s vs s' ∧ vs.map Visit.anyRef = rs ∧ ∀ ws, vs ⊆ ws → P ws a
  total : ∀ {Good : Lowering → Prop}, (∀ r ∈ rs, Total Good (f r.1 r.2)) → Total Good x

namespace Visits

variable {f : (c : Category) → Ref c → Run (Handle c)} {rs rs' : List (AnyRef Ref)}
  {P S : List Visit → α → Prop} {S' : List Visit → β → Prop}

/-- A value that is returned at once visits nothing. -/
theorem pure {a : α} (h : ∀ vs, P vs a) : Visits f [] (pure a) P where
  trace hrun := by
    obtain ⟨rfl, rfl⟩ := run_pure_eq_ok.1 hrun
    exact ⟨[], .nil _, rfl, fun ws _ => h ws⟩
  total _ := .pure a

/-- A single visit. -/
theorem one (c : Category) (r : Ref c) :
    Visits f [⟨c, r⟩] (f c r) fun vs h => Among vs c r h where
  trace {_ h s'} hrun :=
    ⟨[⟨c, r, h⟩], .cons hrun (.nil s'), rfl, fun _ hsub => hsub (List.mem_singleton.2 rfl)⟩
  total hf := hf ⟨c, r⟩ (List.mem_singleton.2 rfl)

/-- What is known of the first result may be used for the second. -/
theorem bind {x : Run α} {g : α → Run β} (hx : Visits f rs x P)
    (hg : ∀ a, Visits f rs' (g a) fun vs b => P vs a → S' vs b) :
    Visits f (rs ++ rs') (x >>= g) S' where
  trace {s b s'} hrun := by
    obtain ⟨a, s₁, hrunx, hrung⟩ := run_bind_eq_ok.1 hrun
    obtain ⟨vs, hchain, hrefs, hP⟩ := hx.trace hrunx
    obtain ⟨ws, hchain', hrefs', hS⟩ := (hg a).trace hrung
    -- what the first part says of its visits still holds among all of them
    refine ⟨vs ++ ws, hchain.append hchain', ?_, fun us hsub => ?_⟩
    · rw [List.map_append, hrefs, hrefs']
    · obtain ⟨hvs, hws⟩ := List.append_subset.1 hsub
      exact hS us hws (hP us hvs)
  total hf := by
    refine Total.bind (hx.total fun r hr => ?_) fun a => (hg a).total fun r hr => ?_
    · exact hf r (List.mem_append_left _ hr)
    · exact hf r (List.mem_append_right _ hr)

/-- A visit comes first. -/
theorem step {c : Category} {r : Ref c} {g : Handle c → Run β}
    (hg : ∀ h, Visits f rs (g h) fun vs b => Among vs c r h → S' vs b) :
    Visits f (⟨c, r⟩ :: rs) (f c r >>= g) S' :=
  (one c r).bind hg

/-- The result of a computation is put into a larger one. -/
theorem map {x : Run α} {g : α → β} (hx : Visits f rs x P)
    (h : ∀ vs a, P vs a → S' vs (g a)) : Visits f rs (x >>= fun a => Pure.pure (g a)) S' := by
  rw [← List.append_nil rs]
  exact hx.bind fun a => .pure fun vs => h vs a

/-- A computation for each member of a list. -/
theorem mapM {refs : α → List (AnyRef Ref)} {g : α → Run β} {P : α → List Visit → β → Prop}
    (hg : ∀ a, Visits f (refs a) (g a) (P a)) (xs : List α) :
    Visits f (xs.flatMap refs) (xs.mapM g) fun vs ys =>
      List.Forall₂ (fun a b => P a vs b) xs ys := by
  induction xs with
  | nil => exact .pure fun _ => .nil
  | cons x xs ih =>
    rw [List.mapM_cons, List.flatMap_cons]
    exact (hg x).bind fun _ => ih.map fun _ _ htail hhead => .cons hhead htail

/-- A visit for each member of a list. -/
theorem each (c : Category) (ref : α → Ref c) {g : α → Run β} {P : α → List Visit → β → Prop}
    (hg : ∀ a, Visits f [⟨c, ref a⟩] (g a) (P a)) (xs : List α) :
    Visits f (refsOf c (xs.map ref)) (xs.mapM g) fun vs ys =>
      List.Forall₂ (fun a b => P a vs b) xs ys := by
  have hrefs : refsOf c (xs.map ref) = xs.flatMap fun a => [⟨c, ref a⟩] := by
    rw [refsOf, List.map_map, ← List.flatMap_pure_eq_map]
    rfl
  rw [hrefs]
  exact mapM hg xs

/-- The members of a list are visited. -/
theorem list (c : Category) (rs : List (Ref c)) :
    Visits f (refsOf c rs) (rs.mapM (f c)) fun vs hs => List.Forall₂ (Among vs c) rs hs := by
  have h := each c id (one (f := f) c) rs
  rwa [List.map_id] at h

/-- References that carry a label are visited, and keep it. -/
theorem labelled {κ : Type} (c : Category) (xs : List (κ × Ref c)) :
    Visits f (refsOf c (xs.map (·.2))) (xs.mapM fun (k, r) => return (k, ← f c r)) fun vs ys =>
      List.Forall₂ (fun a b => a.1 = b.1 ∧ Among vs c a.2 b.2) xs ys :=
  each c Prod.snd (fun (_, r) => (one c r).map fun _ _ h => ⟨rfl, h⟩) xs

/-- An optional reference is visited. -/
theorem option (c : Category) (r : Option (Ref c)) :
    Visits f (refsOf c r.toList) (r.mapM (f c)) fun vs h => Option.Rel (Among vs c) r h := by
  cases r with
  | none => exact .pure fun _ => .none
  | some r => exact (one c r).map fun _ _ h => .some h

end Visits

/-! ## The nodes -/

section Nodes

variable (f : (c : Category) → Ref c → Run (Handle c))

theorem Ty.visits (t : Ty Ref) :
    Visits f t.refs (t.traverse f) fun vs t' => Ty.Mirrors (Among vs) t t' := by
  cases t with
  | nothing => exact .pure fun _ => .nothing
  | boolean => exact .pure fun _ => .boolean
  | number => exact .pure fun _ => .number
  | string => exact .pure fun _ => .string
  | bytes => exact .pure fun _ => .bytes
  | object => exact .pure fun _ => .object
  | function result params =>
    exact .step fun _ => (Visits.labelled .type params).map
      fun _ _ hparams hresult => .function hresult hparams
  | array element => exact (Visits.one .type element).map fun _ _ h => .array h
  | dictionary element => exact (Visits.one .type element).map fun _ _ h => .dictionary h
  | record name fields =>
    have hfield : ∀ a : RecordField Ref, Visits f [⟨.type, a.type⟩]
        (f .type a.type >>= fun h => pure (⟨a.name, h, a.isPrivate⟩ : RecordField Handle))
        fun vs b => a.name = b.name ∧ a.isPrivate = b.isPrivate ∧ Among vs .type a.type b.type :=
      fun a => (Visits.one .type a.type).map fun _ _ h => ⟨rfl, rfl, h⟩
    exact (Visits.each .type RecordField.type hfield fields).map fun _ _ h => .record name h
  | pointer target => exact (Visits.one .type target).map fun _ _ h => .pointer h
  | functionPointer target => exact (Visits.one .type target).map fun _ _ h => .functionPointer h
  | enumeration name names => exact .pure fun _ => .enumeration name names
  | choice name choices =>
    exact (Visits.labelled .type choices).map fun _ _ h => .choice name h

theorem Variable.visits (v : Variable Ref) :
    Visits f v.refs (v.traverse f) fun vs v' => Variable.Mirrors (Among vs) v v' := by
  cases v with
  | predefined name type => exact (Visits.one .type type).map fun _ _ h => .predefined name h
  | module owner name type => exact (Visits.one .type type).map fun _ _ h => .module owner name h
  | globalVar name type => exact (Visits.one .type type).map fun _ _ h => .globalVar name h
  | localVar name type => exact (Visits.one .type type).map fun _ _ h => .localVar name h
  | parameter name type mode =>
    exact (Visits.one .type type).map fun _ _ h => .parameter name mode h
  | function fn =>
    exact .step fun _ => (Visits.list .var fn.params).bind fun _ =>
      (Visits.list .var fn.locals).bind fun _ => (Visits.list .stmt fn.body).map
        fun _ _ hbody hlocals hparams htype => .function fn.name htype hparams hlocals hbody
  | predefinedFunction name type =>
    exact (Visits.one .type type).map fun _ _ h => .predefinedFunction name h
  | moduleFunction owner name type =>
    exact (Visits.one .type type).map fun _ _ h => .moduleFunction owner name h
  | externalFunction name type library symbol =>
    exact (Visits.one .type type).map fun _ _ h => .externalFunction name library symbol h

theorem Handler.visits (k : Handler Ref) :
    Visits f k.refs (k.traverse f) fun vs k' => Handler.Mirrors (Among vs) k k' := by
  cases k with
  | gives value => exact (Visits.one .expr value).map fun _ _ h => .gives h
  | statements body => exact (Visits.list .stmt body).map fun _ _ h => .statements h

theorem ExprCatch.visits (k : ExprCatch Ref) :
    Visits f k.refs (k.traverse f) fun vs k' => ExprCatch.Mirrors (Among vs) k k' :=
  (Visits.option .var k.name).bind fun _ => (Handler.visits f k.handler).map
    fun _ _ hhandler hname => ⟨rfl, hname, hhandler⟩

theorem Expr.visits (e : Expr Ref) :
    Visits f e.refs (e.traverse f) fun vs e' => Expr.Mirrors (Among vs) e e' := by
  cases e with
  | boolean value => exact .pure fun _ => .boolean value
  | number bits => exact .pure fun _ => .number bits
  | string value => exact .pure fun _ => .string value
  | bytes value => exact .pure fun _ => .bytes value
  | enumValue type value => exact (Visits.one .type type).map fun _ _ h => .enumValue value h
  | choiceValue type choice =>
    exact (Visits.one .type type).map fun _ _ h => .choiceValue choice h
  | nil type => exact (Visits.one .type type).map fun _ _ h => .nil h
  | nowhere type => exact (Visits.one .type type).map fun _ _ h => .nowhere h
  | arrayLiteral type elements =>
    exact .step fun _ => (Visits.list .expr elements).map
      fun _ _ helements htype => .arrayLiteral htype helements
  | dictionaryLiteral type entries =>
    exact .step fun _ => (Visits.labelled .expr entries).map
      fun _ _ hentries htype => .dictionaryLiteral htype hentries
  | recordLiteral type values =>
    exact .step fun _ => (Visits.list .expr values).map
      fun _ _ hvalues htype => .recordLiteral htype hvalues
  | newRecord type value =>
    exact .step fun _ => (Visits.option .expr value).map
      fun _ _ hvalue htype => .newRecord htype hvalue
  | typeTest operand target =>
    exact .step fun _ => (Visits.one .type target).map
      fun _ _ htarget hoperand => .typeTest hoperand htarget
  | unary op operand => exact (Visits.one .expr operand).map fun _ _ h => .unary op h
  | conditional condition left right =>
    exact .step fun _ => .step fun _ => (Visits.one .expr right).map
      fun _ _ hright hleft hcondition => .conditional hcondition hleft hright
  | trap operand catches =>
    exact .step fun _ => (Visits.mapM (ExprCatch.visits f) catches).map
      fun _ _ hcatches hoperand => .trap hoperand hcatches
  | binary op left right =>
    exact .step fun _ => (Visits.one .expr right).map
      fun _ _ hright hleft => .binary op hleft hright
  | chained comparisons => exact (Visits.list .expr comparisons).map fun _ _ h => .chained h
  | comparison compared relation left right =>
    exact .step fun _ => (Visits.one .expr right).map
      fun _ _ hright hleft => .comparison compared relation hleft hright
  | index indexed base position =>
    exact .step fun _ => (Visits.one .expr position).map
      fun _ _ hposition hbase => .index indexed hbase hposition
  | range sliced base first firstFromEnd last lastFromEnd =>
    exact .step fun _ => .step fun _ => (Visits.one .expr last).map
      fun _ _ hlast hfirst hbase => .range sliced firstFromEnd lastFromEnd hbase hfirst hlast
  | field asReference base name position =>
    exact (Visits.one .expr base).map fun _ _ h => .field asReference name position h
  | var v => exact (Visits.one .var v).map fun _ _ h => .var h
  | call callee args =>
    exact .step fun _ => (Visits.list .expr args).map
      fun _ _ hargs hcallee => .call hcallee hargs

theorem When.visits (w : When Ref) :
    Visits f w.refs (w.traverse f) fun vs w' => When.Mirrors (Among vs) w w' := by
  cases w with
  | equals value => exact (Visits.one .expr value).map fun _ _ h => .equals h
  | compare relation value => exact (Visits.one .expr value).map fun _ _ h => .compare relation h
  | range low high =>
    exact .step fun _ => (Visits.one .expr high).map fun _ _ hhigh hlow => .range hlow hhigh

theorem IfClause.visits (k : IfClause Ref) :
    Visits f k.refs (k.traverse f) fun vs k' => IfClause.Mirrors (Among vs) k k' :=
  .step fun _ => (Visits.list .stmt k.statements).map
    fun _ _ hstatements hcondition => ⟨hcondition, hstatements⟩

theorem CaseClause.visits (k : CaseClause Ref) :
    Visits f k.refs (k.traverse f) fun vs k' => CaseClause.Mirrors (Among vs) k k' :=
  (Visits.mapM (When.visits f) k.conditions).bind fun _ =>
    (Visits.list .stmt k.statements).map
      fun _ _ hstatements hconditions => ⟨hconditions, hstatements⟩

theorem StmtCatch.visits (k : StmtCatch Ref) :
    Visits f k.refs (k.traverse f) fun vs k' => StmtCatch.Mirrors (Among vs) k k' :=
  (Visits.option .var k.name).bind fun _ => (Visits.list .stmt k.statements).map
    fun _ _ hstatements hname => ⟨rfl, hname, hstatements⟩

theorem Stmt.visits (t : Stmt Ref) :
    Visits f t.refs (t.traverse f) fun vs t' => Stmt.Mirrors (Among vs) t t' := by
  cases t with
  | null => exact .pure fun _ => .null
  | assertion condition message =>
    exact (Visits.one .expr condition).map fun _ _ h => .assertion message h
  | assignment targets value =>
    exact (Visits.list .expr targets).bind fun _ => (Visits.one .expr value).map
      fun _ _ hvalue htargets => .assignment htargets hvalue
  | expression e => exact (Visits.one .expr e).map fun _ _ h => .expression h
  | result value => exact (Visits.option .expr value).map fun _ _ h => .result h
  | exit id => exact .pure fun _ => .exit id
  | next id => exact .pure fun _ => .next id
  | raise exception info =>
    exact (Visits.option .expr info).map fun _ _ h => .raise exception h
  | reset targets => exact (Visits.list .expr targets).map fun _ _ h => .reset h
  | increment target delta => exact (Visits.one .expr target).map fun _ _ h => .increment delta h
  | conditional clauses otherwise =>
    exact (Visits.mapM (IfClause.visits f) clauses).bind fun _ =>
      (Visits.list .stmt otherwise).map
        fun _ _ hotherwise hclauses => .conditional hclauses hotherwise
  | selection subject clauses otherwise =>
    exact .step fun _ => (Visits.mapM (CaseClause.visits f) clauses).bind fun _ =>
      (Visits.list .stmt otherwise).map
        fun _ _ hotherwise hclauses hsubject => .selection hsubject hclauses hotherwise
  | loop id body => exact (Visits.list .stmt body).map fun _ _ h => .loop id h
  | whileLoop id condition body =>
    exact .step fun _ => (Visits.list .stmt body).map
      fun _ _ hbody hcondition => .whileLoop id hcondition hbody
  | repeatLoop id condition body =>
    exact .step fun _ => (Visits.list .stmt body).map
      fun _ _ hbody hcondition => .repeatLoop id hcondition hbody
  | forLoop id var first last step body =>
    exact .step fun _ => .step fun _ => .step fun _ => .step fun _ =>
      (Visits.list .stmt body).map fun _ _ hbody hstep hlast hfirst hvar =>
        .forLoop id hvar hfirst hlast hstep hbody
  | forEach id var index array body =>
    exact .step fun _ => (Visits.option .var index).bind fun _ => .step fun _ =>
      (Visits.list .stmt body).map fun _ _ hbody harray hindex hvar =>
        .forEach id hvar hindex harray hbody
  | trap body catches =>
    exact (Visits.list .stmt body).bind fun _ => (Visits.mapM (StmtCatch.visits f) catches).map
      fun _ _ hcatches hbody => .trap hbody hcatches
  | block body => exact (Visits.list .stmt body).map fun _ _ h => .block h

/-- A traversal visits the references of the node, and the node that it gives
mirrors the node at the handles of the visits. -/
theorem Node.visits {c : Category} (node : Node c Ref) :
    Visits f node.refs (node.traverse f) fun vs node' => Node.Mirrors (Among vs) node node' := by
  cases c with
  | type => exact Ty.visits f node
  | var => exact Variable.visits f node
  | expr => exact Expr.visits f node
  | stmt => exact Stmt.visits f node

end Nodes

end QuillImage.Lowering

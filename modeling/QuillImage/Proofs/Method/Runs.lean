import Mathlib.Algebra.BigOperators.Group.List.Basic
import Mathlib.Order.Bounds.Basic
import Mathlib.Tactic
import QuillImage.Method.Body

/-!
# Runs of operations on a method body

A method body is filled by operations in any order. An operation that takes more values
than there are is refused, and the run goes on with the body as it was; a depth that leaves
its 16-bit word ends the run without a result. `Body.attempt_cases` says once what an
operation can do, and `Body.run_induction` carries that over to runs.

Main statement: at every point of a run the depth is the sum of what the operations that
succeeded put on the stack and took from it, the greatest depth is that of all points so
far, and what the next operation does follows from the depth (`Body.run_bookkeeping`).
-/

namespace QuillImage.Method

namespace Body

/-! ## Runs -/

/-- Tries operations one after the other. The result is the failure of each operation, if
it has one, and the body at the end. There is none after an overflow. -/
def run (b : Body) : List Operation → Option (List (Option Failure) × Body)
  | [] => some ([], b)
  | o :: ops =>
    match b.attempt o with
    | (none, b') => (b'.run ops).map fun r => (none :: r.1, r.2)
    | (some (.failure f), b') => (b'.run ops).map fun r => (some f :: r.1, r.2)
    | (some .overflow, _) => none

/-- The operations of a run that did not fail. -/
def succeeded (ops : List Operation) (outcomes : List (Option Failure)) : List Operation :=
  ((ops.zip outcomes).filter fun e => e.2.isNone).map Prod.fst

/-- The failure of an operation that takes more values than there are. -/
def underflow (b : Body) (o : Operation) : Failure :=
  .stackUnderflow o.instruction.opcode.mnemonic o.pops b.depth

/-! ## One operation -/

section Attempt

variable (b : Body) (o : Operation)

/-- An operation is refused, leaves the word of the depth, or is appended to the body.
Which of the three it is depends on the depth only. -/
theorem attempt_cases :
    (b.depth < o.pops ∧ b.attempt o = (some (.failure (b.underflow o)), b)) ∨
      (o.pops ≤ b.depth ∧ 65535 < b.depthAfter o ∧ b.attempt o = (some .overflow, b)) ∨
      (o.pops ≤ b.depth ∧ b.depthAfter o ≤ 65535 ∧ b.attempt o = (none, b.push o)) := by
  rcases Nat.lt_or_ge b.depth o.pops with hpops | hpops
  · left
    have hrefusal : b.refusal? o = some (.failure (b.underflow o)) := if_pos hpops
    exact ⟨hpops, by simp [attempt, hrefusal]⟩
  · right
    have hpops' : ¬ b.depth < o.pops := by omega
    rcases Nat.lt_or_ge 65535 (b.depthAfter o) with hafter | hafter
    · left
      have hrefusal : b.refusal? o = some .overflow := by
        rw [refusal?, if_neg hpops', if_pos (by omega)]
      exact ⟨hpops, hafter, by simp [attempt, hrefusal]⟩
    · right
      have hrefusal : b.refusal? o = none := by
        rw [refusal?, if_neg hpops', if_neg (by omega)]
      exact ⟨hpops, hafter, by simp [attempt, hrefusal]⟩

theorem attempt_eq_underflow_iff :
    b.attempt o = (some (.failure (b.underflow o)), b) ↔ b.depth < o.pops := by
  rcases attempt_cases b o with ⟨hpops, h⟩ | ⟨hpops, -, h⟩ | ⟨hpops, -, h⟩
  · exact ⟨fun _ => hpops, fun _ => h⟩
  all_goals
    rw [h]
    simp only [Prod.mk.injEq, Option.some.injEq, reduceCtorEq, false_and, false_iff]
    omega

theorem attempt_eq_overflow_iff :
    b.attempt o = (some .overflow, b) ↔ o.pops ≤ b.depth ∧ 65535 < b.depthAfter o := by
  rcases attempt_cases b o with ⟨hpops, h⟩ | ⟨hpops, hafter, h⟩ | ⟨hpops, hafter, h⟩
  · rw [h]
    simp only [Prod.mk.injEq, Option.some.injEq, reduceCtorEq, false_and, false_iff]
    omega
  · exact ⟨fun _ => ⟨hpops, hafter⟩, fun _ => h⟩
  · rw [h]
    simp only [Prod.mk.injEq, reduceCtorEq, false_and, false_iff]
    omega

theorem attempt_eq_push_iff :
    b.attempt o = (none, b.push o) ↔ o.pops ≤ b.depth ∧ b.depthAfter o ≤ 65535 := by
  rcases attempt_cases b o with ⟨hpops, h⟩ | ⟨hpops, hafter, h⟩ | ⟨hpops, hafter, h⟩
  · rw [h]
    simp only [Prod.mk.injEq, reduceCtorEq, false_and, false_iff]
    omega
  · rw [h]
    simp only [Prod.mk.injEq, reduceCtorEq, false_and, false_iff]
    omega
  · exact ⟨fun _ => ⟨hpops, hafter⟩, fun _ => h⟩

@[simp]
theorem instructions_push :
    (b.push o).instructions.toList = b.instructions.toList ++ [o.instruction] := by
  simp [push]

@[simp]
theorem depth_push : (b.push o).depth = b.depthAfter o := rfl

@[simp]
theorem maxDepth_push : (b.push o).maxDepth = max b.maxDepth (b.depthAfter o) := rfl

/-- The opcode and the operand of an operation are appended to the code. -/
theorem code_push :
    (b.push o).code = b.code ++ o.instruction.opcode.byte :: o.instruction.operand := by
  rw [code, instructions_push, List.flatMap_append, List.flatMap_singleton]
  rfl

end Attempt

/-! ## All operations -/

theorem run_append (b : Body) (ops ops' : List Operation) :
    b.run (ops ++ ops') = (b.run ops).bind fun r =>
      (r.2.run ops').map fun r' => (r.1 ++ r'.1, r'.2) := by
  induction ops generalizing b with
  | nil => simp [run]
  | cons o ops ih =>
    rw [List.cons_append, run, run]
    rcases attempt_cases b o with ⟨-, h⟩ | ⟨-, -, h⟩ | ⟨-, -, h⟩
    · simp [h, ih, Option.bind_map, Option.map_bind, Function.comp_def]
    · simp [h]
    · simp [h, ih, Option.bind_map, Option.map_bind, Function.comp_def]

section Runs

variable {ops : List Operation} {outcomes : List (Option Failure)} {b start : Body} {o : Operation}

/-- A run goes on after an operation that is refused, with the same body. -/
theorem run_concat_of_lt (h : start.run ops = some (outcomes, b)) (hpops : b.depth < o.pops) :
    start.run (ops ++ [o]) = some (outcomes ++ [some (b.underflow o)], b) := by
  have hattempt := (attempt_eq_underflow_iff b o).2 hpops
  simp [run_append, h, run, hattempt]

/-- A run has no result after an overflow. -/
theorem run_concat_of_overflow (h : start.run ops = some (outcomes, b)) (hpops : o.pops ≤ b.depth)
    (hafter : 65535 < b.depthAfter o) : start.run (ops ++ [o]) = none := by
  have hattempt := (attempt_eq_overflow_iff b o).2 ⟨hpops, hafter⟩
  simp [run_append, h, run, hattempt]

/-- A run goes on with the operation appended to the body. -/
theorem run_concat_of_le (h : start.run ops = some (outcomes, b)) (hpops : o.pops ≤ b.depth)
    (hafter : b.depthAfter o ≤ 65535) :
    start.run (ops ++ [o]) = some (outcomes ++ [none], b.push o) := by
  have hattempt := (attempt_eq_push_iff b o).2 ⟨hpops, hafter⟩
  simp [run_append, h, run, hattempt]

/-- What holds of a body and is kept by each operation, refused or not, holds at the end of
every run that has a result. -/
theorem run_induction {I : List Operation → List (Option Failure) → Body → Prop}
    (hnil : I [] [] start)
    (hrefused : ∀ ops outcomes b o, start.run ops = some (outcomes, b) → I ops outcomes b →
      b.depth < o.pops → I (ops ++ [o]) (outcomes ++ [some (b.underflow o)]) b)
    (hpushed : ∀ ops outcomes b o, start.run ops = some (outcomes, b) → I ops outcomes b →
      o.pops ≤ b.depth → b.depthAfter o ≤ 65535 → I (ops ++ [o]) (outcomes ++ [none]) (b.push o))
    (h : start.run ops = some (outcomes, b)) : I ops outcomes b := by
  -- the last operation is taken off, since the body at the end is the one it acts on
  induction ops using List.reverseRecOn generalizing outcomes b with
  | nil =>
    cases h
    exact hnil
  | append_singleton ops o ih =>
    cases hrun : start.run ops with
    | none => simp [run_append, hrun] at h
    | some r =>
      obtain ⟨earlier, b'⟩ := r
      rcases attempt_cases b' o with ⟨hpops, -⟩ | ⟨hpops, hafter, -⟩ | ⟨hpops, hafter, -⟩
      · rw [run_concat_of_lt hrun hpops] at h
        cases h
        exact hrefused ops earlier _ o hrun (ih hrun) hpops
      · rw [run_concat_of_overflow hrun hpops hafter] at h
        cases h
      · rw [run_concat_of_le hrun hpops hafter] at h
        cases h
        exact hpushed ops earlier _ o hrun (ih hrun) hpops hafter

theorem length_outcomes (h : start.run ops = some (outcomes, b)) :
    outcomes.length = ops.length := by
  refine run_induction (I := fun ops outcomes _ => outcomes.length = ops.length) rfl ?_ ?_ h
  · intro ops outcomes b o _ ih _
    simp [ih]
  · intro ops outcomes b o _ ih _ _
    simp [ih]

/-- A last operation is added to those that succeeded, unless it failed. -/
theorem succeeded_concat (h : outcomes.length = ops.length) (o : Operation)
    (outcome : Option Failure) :
    succeeded (ops ++ [o]) (outcomes ++ [outcome]) =
      succeeded ops outcomes ++ if outcome.isNone then [o] else [] := by
  rw [succeeded, List.zip_append h.symm, List.filter_append, List.map_append]
  cases outcome <;> rfl

/-! ## Depths -/

/-- The depth is what the operations that succeeded put on the stack, less what they took
from it. -/
theorem depth_run (h : empty.run ops = some (outcomes, b)) :
    (b.depth : ℤ) = ((succeeded ops outcomes).map fun o => (o.pushes : ℤ) - o.pops).sum := by
  refine run_induction (I := fun ops outcomes b => (b.depth : ℤ) =
    ((succeeded ops outcomes).map fun o => (o.pushes : ℤ) - o.pops).sum) rfl ?_ ?_ h
  · intro ops outcomes b o hrun ih _
    rw [succeeded_concat (length_outcomes hrun), ih]
    simp
  · intro ops outcomes b o hrun ih hpops _
    rw [succeeded_concat (length_outcomes hrun)]
    simp only [Option.isNone_none, ↓reduceIte, List.map_append, List.sum_append, ← ih,
      List.map_singleton, List.sum_singleton, depth_push, depthAfter]
    omega

/-- The depths at the points of a run, from its start to its end. -/
def depths (start : Body) (ops : List Operation) : Set Nat :=
  { d | ∃ earlier outcomes b, earlier <+: ops ∧ start.run earlier = some (outcomes, b) ∧
    b.depth = d }

/-- A last operation that is tried adds one point to a run. -/
theorem depths_concat {b' : Body} (hrun : start.run (ops ++ [o]) = some (outcomes, b')) :
    depths start (ops ++ [o]) = insert b'.depth (depths start ops) := by
  ext d
  simp only [depths, List.prefix_concat_iff, Set.mem_insert_iff, Set.mem_ofPred_eq]
  constructor
  · rintro ⟨_, outcomes', b, rfl | hprefix, hb, rfl⟩
    · rw [hrun] at hb
      cases hb
      exact .inl rfl
    · exact .inr ⟨_, _, _, hprefix, hb, rfl⟩
  · rintro (rfl | ⟨earlier, outcomes', b, hprefix, hb, rfl⟩)
    · exact ⟨_, _, _, .inl rfl, hrun, rfl⟩
    · exact ⟨_, _, _, .inr hprefix, hb, rfl⟩

/-- The greatest depth is that of the points so far, and it fits a word. -/
theorem isGreatest_maxDepth (h : empty.run ops = some (outcomes, b)) :
    IsGreatest (depths empty ops) b.maxDepth ∧ b.maxDepth ≤ 65535 := by
  refine run_induction (I := fun ops _ b =>
    IsGreatest (depths empty ops) b.maxDepth ∧ b.maxDepth ≤ 65535) ?_ ?_ ?_ h
  · have hstart : depths empty [] = {0} := by
      ext d
      simp only [depths, List.prefix_nil, Set.mem_ofPred_eq, Set.mem_singleton_iff]
      constructor
      · rintro ⟨_, _, _, rfl, hrun, rfl⟩
        cases hrun
        rfl
      · rintro rfl
        exact ⟨[], [], empty, rfl, rfl, rfl⟩
    rw [hstart]
    exact ⟨isGreatest_singleton, Nat.zero_le _⟩
  · intro ops outcomes b o hrun ih hpops
    have hmem : b.depth ∈ depths empty ops := ⟨ops, outcomes, b, List.prefix_rfl, hrun, rfl⟩
    rw [depths_concat (run_concat_of_lt hrun hpops), Set.insert_eq_of_mem hmem]
    exact ih
  · intro ops outcomes b o hrun ih hpops hafter
    rw [depths_concat (run_concat_of_le hrun hpops hafter), maxDepth_push, depth_push, max_comm]
    exact ⟨ih.1.insert (b.depthAfter o), max_le hafter ih.2⟩

end Runs

/-! ## Bookkeeping -/

/-- At every point of a run all operations before it were tried, the depth is the sum of the
pushes less the pops of those that succeeded, and the greatest depth is the maximum over all
points so far, which fits a word. The next operation is refused exactly if it pops more
values than there are, and the run goes on with the same body; it overflows exactly if it
does not and the depth after it is more than 65535; otherwise its opcode and operand are
appended to the code. -/
theorem run_bookkeeping {ops : List Operation} {outcomes : List (Option Failure)} {b : Body}
    (h : empty.run ops = some (outcomes, b)) :
    outcomes.length = ops.length ∧
    (b.depth : ℤ) = ((succeeded ops outcomes).map fun o => (o.pushes : ℤ) - o.pops).sum ∧
    IsGreatest (depths empty ops) b.maxDepth ∧ b.maxDepth ≤ 65535 ∧
    ∀ o : Operation,
      (b.attempt o = (some (.failure
          (.stackUnderflow o.instruction.opcode.mnemonic o.pops b.depth)), b) ↔
        b.depth < o.pops) ∧
      (b.attempt o = (some .overflow, b) ↔
        o.pops ≤ b.depth ∧ 65535 < b.depth - o.pops + o.pushes) ∧
      (b.depth < o.pops → empty.run (ops ++ [o]) = some (outcomes ++
        [some (.stackUnderflow o.instruction.opcode.mnemonic o.pops b.depth)], b)) ∧
      (o.pops ≤ b.depth → 65535 < b.depth - o.pops + o.pushes →
        empty.run (ops ++ [o]) = none) ∧
      (o.pops ≤ b.depth → b.depth - o.pops + o.pushes ≤ 65535 →
        ∃ b', b.attempt o = (none, b') ∧ empty.run (ops ++ [o]) = some (outcomes ++ [none], b') ∧
          b'.code = b.code ++ o.instruction.opcode.byte :: o.instruction.operand ∧
          b'.depth = b.depth - o.pops + o.pushes ∧ b'.maxDepth = max b.maxDepth b'.depth) := by
  obtain ⟨hgreatest, hword⟩ := isGreatest_maxDepth h
  refine ⟨length_outcomes h, depth_run h, hgreatest, hword, ?_⟩
  intro o
  refine ⟨attempt_eq_underflow_iff b o, attempt_eq_overflow_iff b o, run_concat_of_lt h,
    run_concat_of_overflow h, ?_⟩
  intro hpops hafter
  exact ⟨b.push o, (attempt_eq_push_iff b o).2 ⟨hpops, hafter⟩, run_concat_of_le h hpops hafter,
    code_push b o, rfl, rfl⟩

/-- Six operations, two of which are refused. The number that is loaded has bytes of other
opcodes in it. -/
def refusedTwice : List Operation :=
  [.pop, .ldcI4 (-0x5a8d8d8e), .ldstr 0x70000001, .call 0x0a000001 3 false,
    .call 0x0a000001 2 true, .ret true]

/-- The body of `refusedTwice`. -/
def callBody : Body where
  instructions := #[.ldcI4 (-0x5a8d8d8e), .ldstr 0x70000001, .call 0x0a000001, .ret]
  depth := 0
  maxDepth := 2

theorem run_refusedTwice :
    empty.run refusedTwice = some ([some (.stackUnderflow "pop" 1 0), none, none,
      some (.stackUnderflow "call" 3 2), none, none], callBody) := rfl

theorem run_bookkeeping_refusedTwice :
    ∃ outcomes, empty.run refusedTwice = some (outcomes, callBody) ∧
      (callBody.depth : ℤ) =
        ((succeeded refusedTwice outcomes).map fun o => (o.pushes : ℤ) - o.pops).sum ∧
      IsGreatest (depths empty refusedTwice) 2 ∧
      empty.run (refusedTwice ++ [.ret true]) =
        some (outcomes ++ [some (.stackUnderflow "ret" 1 0)], callBody) := by
  obtain ⟨-, hdepth, hgreatest, -, hnext⟩ := run_bookkeeping run_refusedTwice
  obtain ⟨-, -, hrefused, -⟩ := hnext (.ret true)
  exact ⟨_, run_refusedTwice, hdepth, hgreatest, hrefused (by decide)⟩

end Body

end QuillImage.Method

import Mathlib.Data.List.Infix
import Mathlib.Tactic
import QuillImage.Diagnostics

/-!
# Guards of the console

Guards are made and released in any order, by anyone who shares the console. A guard that is
released sets the console to what it was before the guard was made, whatever other guards are
alive (`enabled_run_release`).

So the console is off exactly while some guard is alive as long as the oldest guard is the last
one to go. Main statement: this is also necessary (`enabled_run_release_and_isTruthful_iff`).
-/

namespace QuillImage.Console

/-! ## Runs -/

/-- A step of those who share the console. -/
inductive Step where
  | suppress
  | release (guard : Nat)
  deriving DecidableEq, Repr

/-- The console after a step. -/
def step (c : Console) : Step → Console
  | .suppress => c.suppress
  | .release guard => c.release guard

/-- The console after steps. It is on at the start. -/
def run (steps : List Step) : Console := steps.foldl step {}

/-- What steps make of guards, which are numbered in the order in which they are made. -/
structure Lives where
  made : Nat := 0
  /-- The guards that are alive. -/
  live : List Nat := []
  deriving DecidableEq, Repr

/-- A new guard is alive until it is released. -/
def Lives.step (l : Lives) : Step → Lives
  | .suppress => ⟨l.made + 1, l.live ++ [l.made]⟩
  | .release guard => ⟨l.made, l.live.filter (· ≠ guard)⟩

/-- The guards after steps. -/
def lives (steps : List Step) : Lives := steps.foldl Lives.step {}

/-- The console is on exactly if no guard is alive. -/
def IsTruthful (steps : List Step) : Prop := (run steps).enabled = true ↔ (lives steps).live = []

/-- The guard is the oldest of several that are alive. -/
def IsOldestOfSeveral (steps : List Step) (guard : Nat) : Prop :=
  guard ∈ (lives steps).live ∧ (∀ other ∈ (lives steps).live, guard ≤ other) ∧
    ∃ other ∈ (lives steps).live, other ≠ guard

/-- The oldest guard is never released while another one is alive. -/
def OldestGoesLast (steps : List Step) : Prop :=
  ∀ before guard, before ++ [Step.release guard] <+: steps → ¬ IsOldestOfSeveral before guard

instance (steps : List Step) : Decidable (IsTruthful steps) :=
  inferInstanceAs (Decidable (_ ↔ _))

instance (steps : List Step) (guard : Nat) : Decidable (IsOldestOfSeveral steps guard) :=
  inferInstanceAs (Decidable (_ ∧ _ ∧ _))

/-- Only the guards that are alive have to be looked at. -/
theorem oldestGoesLast_iff_forall_mem (steps : List Step) :
    OldestGoesLast steps ↔ ∀ before ∈ steps.inits, ∀ guard ∈ (lives before).live,
      before ++ [Step.release guard] <+: steps → ¬ IsOldestOfSeveral before guard := by
  constructor
  · intro h before _ guard _
    exact h before guard
  · intro h before guard hstep hguard
    have hbefore : before <+: steps := (List.prefix_append _ _).trans hstep
    exact h before ((List.mem_inits _ _).2 hbefore) guard hguard.1 hstep hguard

instance (steps : List Step) : Decidable (OldestGoesLast steps) :=
  decidable_of_iff _ (oldestGoesLast_iff_forall_mem steps).symm

/-! ## One step -/

section Step

variable (steps : List Step)

theorem run_concat (s : Step) : run (steps ++ [s]) = (run steps).step s := by
  simp [run]

theorem lives_concat (s : Step) : lives (steps ++ [s]) = (lives steps).step s := by
  simp [lives]

theorem oldestGoesLast_concat_suppress :
    OldestGoesLast (steps ++ [Step.suppress]) ↔ OldestGoesLast steps := by
  simp [OldestGoesLast, List.prefix_concat_iff]

theorem oldestGoesLast_concat_release (guard : Nat) :
    OldestGoesLast (steps ++ [Step.release guard]) ↔
      OldestGoesLast steps ∧ ¬ IsOldestOfSeveral steps guard := by
  simp [OldestGoesLast, List.prefix_concat_iff, or_imp, forall_and, and_comm]

end Step

/-- A new guard holds what the console was, and all others hold what they held before. -/
theorem getElem?_guards_suppress (c : Console) (guard : Nat) (before : Bool) :
    c.suppress.guards[guard]? = some (some before) ↔
      c.guards[guard]? = some (some before) ∨ guard = c.guards.length ∧ before = c.enabled := by
  rw [suppress, List.getElem?_append]
  split
  · next hlt => simp [hlt.ne]
  · next hge =>
    have hnone : c.guards[guard]? = none := List.getElem?_eq_none (Nat.not_lt.1 hge)
    rw [hnone, List.getElem?_singleton]
    grind

/-- A guard that still holds what the console was gives it back. -/
theorem release_of_getElem? {c : Console} {guard : Nat} {before : Bool}
    (h : c.guards[guard]? = some (some before)) :
    c.release guard = ⟨before, c.guards.set guard none⟩ := by
  simp only [release, h]

/-- A guard that holds nothing has no effect. -/
theorem release_of_forall_ne {c : Console} {guard : Nat}
    (h : ∀ before, c.guards[guard]? ≠ some (some before)) : c.release guard = c := by
  unfold release
  split
  · next before hguard => exact absurd hguard (h before)
  · rfl

theorem length_guards_release (c : Console) (guard : Nat) :
    (c.release guard).guards.length = c.guards.length := by
  unfold release
  split
  · exact List.length_set
  · rfl

/-- All other guards hold what they held before. -/
theorem getElem?_guards_release (c : Console) (guard other : Nat) (before : Bool) :
    (c.release guard).guards[other]? = some (some before) ↔
      c.guards[other]? = some (some before) ∧ other ≠ guard := by
  unfold release
  split
  · next saved hguard =>
    rw [List.getElem?_set]
    grind
  · next hguard => grind

/-! ## What guards hold -/

theorem length_guards_run (steps : List Step) :
    (run steps).guards.length = (lives steps).made := by
  induction steps using List.reverseRecOn with
  | nil => rfl
  | append_singleton steps s ih =>
    rw [run_concat, lives_concat]
    cases s with
    | suppress => simp [step, suppress, Lives.step, ih]
    | release guard => exact (length_guards_release _ guard).trans ih

/-- The guards that hold something are those that are alive. -/
theorem mem_live_iff (steps : List Step) (guard : Nat) :
    guard ∈ (lives steps).live ↔ ∃ before, (run steps).guards[guard]? = some (some before) := by
  induction steps using List.reverseRecOn with
  | nil => simp [lives, run]
  | append_singleton steps s ih =>
    rw [run_concat, lives_concat]
    cases s with
    | suppress =>
      simp only [step, Lives.step, List.mem_append, List.mem_singleton, ih,
        getElem?_guards_suppress, exists_or, exists_and_left, exists_eq, and_true,
        length_guards_run]
    | release other =>
      simp only [step, Lives.step, List.mem_filter, ih, getElem?_guards_release, decide_eq_true_eq,
        exists_and_right]

theorem lt_made_of_mem_live {steps : List Step} {guard : Nat} (h : guard ∈ (lives steps).live) :
    guard < (lives steps).made := by
  obtain ⟨before, hguard⟩ := (mem_live_iff steps guard).1 h
  rw [← length_guards_run]
  exact (List.getElem?_eq_some_iff.1 hguard).1

/-- Until it is released, a guard holds what the console was before it. -/
theorem getElem?_guards_run_append (before : List Step) {after : List Step}
    (h : .release (lives before).made ∉ after) :
    (run (before ++ .suppress :: after)).guards[(lives before).made]? =
      some (some (run before).enabled) := by
  induction after using List.reverseRecOn with
  | nil =>
    rw [run_concat]
    exact (getElem?_guards_suppress _ _ _).2 (.inr ⟨(length_guards_run before).symm, rfl⟩)
  | append_singleton after s ih =>
    obtain ⟨hafter, hs⟩ := not_or.1 (mt List.mem_append.2 h)
    rw [← List.cons_append, ← List.append_assoc, run_concat]
    cases s with
    | suppress => exact (getElem?_guards_suppress _ _ _).2 (.inl (ih hafter))
    | release guard =>
      refine (getElem?_guards_release _ _ _ _).2 ⟨ih hafter, ?_⟩
      rintro rfl
      exact hs List.mem_cons_self

/-- A guard that is released sets the console to what it was before the guard was made. -/
theorem enabled_run_release (before : List Step) {after : List Step}
    (h : .release (lives before).made ∉ after) :
    (run (before ++ .suppress :: after ++ [Step.release (lives before).made])).enabled =
      (run before).enabled := by
  rw [run_concat, step, release_of_getElem? (getElem?_guards_run_append before h)]

/-! ## The oldest guard -/

/-- Of the guards that are alive, the oldest one holds that the console was on, and all
others that it was off. -/
structure Settled (steps : List Step) : Prop where
  isTruthful : IsTruthful steps
  eq_true_iff : ∀ {guard before}, (run steps).guards[guard]? = some (some before) →
    (before = true ↔ ∀ other ∈ (lives steps).live, guard ≤ other)

namespace Settled

variable {steps : List Step} (h : Settled steps)
include h

theorem concat_suppress : Settled (steps ++ [Step.suppress]) where
  isTruthful := by
    rw [IsTruthful, run_concat, lives_concat]
    simp [step, suppress, Lives.step]
  eq_true_iff := by
    intro guard before hguard
    rw [run_concat] at hguard
    rw [lives_concat]
    simp only [Lives.step, List.mem_append, List.mem_singleton, or_imp, forall_and, forall_eq]
    rcases (getElem?_guards_suppress _ _ _).1 hguard with hold | ⟨hnew, rfl⟩
    · have hlt := lt_made_of_mem_live ((mem_live_iff _ _).2 ⟨_, hold⟩)
      rw [h.eq_true_iff hold]
      simp [hlt.le]
    · rw [length_guards_run] at hnew
      subst hnew
      refine h.isTruthful.trans ?_
      rw [List.eq_nil_iff_forall_not_mem]
      constructor
      · intro hnone
        exact ⟨fun other hother => absurd hother (hnone other), le_rfl⟩
      · rintro ⟨hle, -⟩ other hother
        exact absurd (hle other hother) (Nat.not_le.2 (lt_made_of_mem_live hother))

/-- A guard that was released before changes nothing. -/
theorem concat_release_of_not_mem {guard : Nat} (hguard : guard ∉ (lives steps).live) :
    Settled (steps ++ [Step.release guard]) := by
  have hrun : run (steps ++ [Step.release guard]) = run steps := by
    rw [run_concat, step, release_of_forall_ne]
    exact fun before hbefore => hguard ((mem_live_iff _ _).2 ⟨before, hbefore⟩)
  have hlive : (lives (steps ++ [Step.release guard])).live = (lives steps).live := by
    rw [lives_concat, Lives.step, List.filter_eq_self]
    rintro other hother
    have hne : other ≠ guard := by
      rintro rfl
      exact hguard hother
    exact decide_eq_true hne
  constructor
  · rw [IsTruthful, hrun, hlive]
    exact h.isTruthful
  · rw [hrun, hlive]
    exact h.eq_true_iff

theorem concat_release {guard : Nat} (hlast : ¬ IsOldestOfSeveral steps guard) :
    Settled (steps ++ [Step.release guard]) := by
  by_cases hguard : guard ∈ (lives steps).live
  swap
  · exact h.concat_release_of_not_mem hguard
  obtain ⟨before, hbefore⟩ := (mem_live_iff _ _).1 hguard
  have hrun : (run (steps ++ [Step.release guard])).enabled = before := by
    rw [run_concat, step, release_of_getElem? hbefore]
  have hlive : ∀ other, other ∈ (lives (steps ++ [Step.release guard])).live ↔
      other ∈ (lives steps).live ∧ other ≠ guard := by
    intro other
    rw [lives_concat, Lives.step, List.mem_filter, decide_eq_true_eq]
  have hsaved := h.eq_true_iff hbefore
  rw [IsOldestOfSeveral] at hlast
  constructor
  · rw [IsTruthful, hrun, hsaved, List.eq_nil_iff_forall_not_mem]
    constructor
    · intro hle other hother
      exact hlast ⟨hguard, hle, other, (hlive other).1 hother⟩
    · intro hnone other hother
      by_cases hne : other = guard
      · exact hne.ge
      · exact absurd ((hlive other).2 ⟨hother, hne⟩) (hnone other)
  · intro other saved hother
    rw [run_concat] at hother
    obtain ⟨hother, hne⟩ := (getElem?_guards_release _ _ _ _).1 hother
    rw [h.eq_true_iff hother]
    constructor
    · exact fun hle third hthird => hle third ((hlive third).1 hthird).1
    -- if the released guard were older than the oldest of the others, it would have been
    -- the oldest of several
    · intro hle third hthird
      have hmem : other ∈ (lives steps).live := (mem_live_iff _ _).2 ⟨_, hother⟩
      have hle' : ∀ fourth ∈ (lives steps).live, fourth ≠ guard → other ≤ fourth :=
        fun fourth hfourth hne' => hle fourth ((hlive fourth).2 ⟨hfourth, hne'⟩)
      by_cases hthird' : third = guard
      · subst hthird'
        by_contra hlt
        refine hlast ⟨hguard, fun fourth hfourth => ?_, other, hmem, hne⟩
        by_cases hfourth' : fourth = third
        · exact hfourth'.ge
        · exact (Nat.not_le.1 hlt).le.trans (hle' fourth hfourth hfourth')
      · exact hle' third hthird hthird'

end Settled

/-- Guards are settled as long as the oldest one goes last. -/
theorem settled_of_oldestGoesLast {steps : List Step} (h : OldestGoesLast steps) :
    Settled steps := by
  induction steps using List.reverseRecOn with
  | nil =>
    constructor
    · simp [IsTruthful, run, lives]
    · simp [run]
  | append_singleton steps s ih =>
    cases s with
    | suppress => exact (ih ((oldestGoesLast_concat_suppress steps).1 h)).concat_suppress
    | release guard =>
      obtain ⟨hsteps, hlast⟩ := (oldestGoesLast_concat_release steps guard).1 h
      exact (ih hsteps).concat_release hlast

/-- If the oldest of several guards is released, the console is on while the others are
alive. -/
theorem Settled.not_isTruthful_concat_release {steps : List Step} (h : Settled steps)
    {guard : Nat} (hguard : IsOldestOfSeveral steps guard) :
    ¬ IsTruthful (steps ++ [Step.release guard]) := by
  obtain ⟨hmem, hle, other, hother, hne⟩ := hguard
  obtain ⟨before, hbefore⟩ := (mem_live_iff _ _).1 hmem
  obtain rfl := (h.eq_true_iff hbefore).2 hle
  intro htruthful
  have hnone := htruthful.1 (by rw [run_concat, step, release_of_getElem? hbefore])
  have hlive : other ∈ (lives (steps ++ [Step.release guard])).live := by
    rw [lives_concat, Lives.step]
    exact List.mem_filter.2 ⟨hother, decide_eq_true hne⟩
  rw [hnone] at hlive
  cases hlive

/-- The console tells the truth at every moment only if the oldest guard goes last. -/
theorem oldestGoesLast_of_forall_isTruthful {steps : List Step}
    (h : ∀ before, before <+: steps → IsTruthful before) : OldestGoesLast steps := by
  induction steps using List.reverseRecOn with
  | nil =>
    intro before guard hstep
    simp at hstep
  | append_singleton steps s ih =>
    have hsteps := ih fun before hbefore => h before (hbefore.trans (List.prefix_append _ _))
    cases s with
    | suppress => exact (oldestGoesLast_concat_suppress steps).2 hsteps
    | release guard =>
      refine (oldestGoesLast_concat_release steps guard).2 ⟨hsteps, fun hguard => ?_⟩
      -- up to this step the guards are settled, and the release is the first wrong one
      exact (settled_of_oldestGoesLast hsteps).not_isTruthful_concat_release hguard
        (h _ List.prefix_rfl)

/-! ## The console and its guards -/

/-- A guard that is released sets the console to what it was before the guard was made,
whatever was done in between. The console is on exactly while no guard is alive, at every
moment of a run, if and only if the oldest guard is never released while another one is
alive. -/
theorem enabled_run_release_and_isTruthful_iff :
    (∀ before after : List Step, .release (lives before).made ∉ after →
      (run (before ++ .suppress :: after ++ [Step.release (lives before).made])).enabled =
        (run before).enabled) ∧
      ∀ steps, (∀ before, before <+: steps → IsTruthful before) ↔ OldestGoesLast steps := by
  refine ⟨fun before after h => enabled_run_release before h, fun steps => ?_⟩
  refine ⟨oldestGoesLast_of_forall_isTruthful, fun h before hbefore => ?_⟩
  have hlast : OldestGoesLast before :=
    fun earlier guard hstep => h earlier guard (hstep.trans hbefore)
  exact (settled_of_oldestGoesLast hlast).isTruthful

/-- Three guards, of which the two younger ones are released in the order in which they were
made, and a guard after them. -/
def nestedGuards : List Step :=
  [.suppress, .suppress, .suppress, .release 1, .release 2, .release 1, .release 0, .suppress,
    .release 3]

theorem isTruthful_nestedGuards :
    OldestGoesLast nestedGuards ∧ (∀ before, before <+: nestedGuards → IsTruthful before) ∧
      (run nestedGuards).enabled = (run (nestedGuards.take 7)).enabled := by
  have hlast : OldestGoesLast nestedGuards := by decide
  obtain ⟨hrelease, htruthful⟩ := enabled_run_release_and_isTruthful_iff
  exact ⟨hlast, (htruthful nestedGuards).2 hlast, hrelease (nestedGuards.take 7) [] (by decide)⟩

/-- Two guards, of which the older one is released first. -/
def crossedGuards : List Step := [.suppress, .suppress, .release 0]

/-- The console is on while the younger guard is alive, and stays off when that is released
too. -/
theorem not_isTruthful_crossedGuards :
    (run crossedGuards).enabled = true ∧ (lives crossedGuards).live = [1] ∧
      ¬ IsTruthful crossedGuards ∧
      (run (crossedGuards ++ [Step.release 1])).enabled = false ∧
      (lives (crossedGuards ++ [Step.release 1])).live = [] ∧
      ¬ IsTruthful (crossedGuards ++ [Step.release 1]) := by
  decide

end QuillImage.Console

import Mathlib.Algebra.BigOperators.Group.Finset.Basic
import Mathlib.Algebra.Order.Group.Multiset
import Mathlib.Logic.Hydra
import Mathlib.Tactic.Abel
import MassRelay.Lib.Prog

/-!
# MassRelay.Lib.Progress

Threads that do not go on forever.

A program is a well-founded tree: with each operation what is left of it becomes smaller
(`Prog.After`). So finitely many threads, left to themselves, make finitely many moves,
however these come after one another. What they have left is a multiset of tasks
(`Tasks.load`), in which a move replaces one task by smaller ones. That multiset decreases in
the order of `Relation.CutExpand`, which is well-founded.

`Machine.acc_of_rank` turns such an order into the statement about moves. A state may have
many ranks, since a bound on which threads run is part of the rank but not of the state.
-/

namespace Machine

variable {σ ρ : Type*} {rel : σ → σ → Prop} {lt : ρ → ρ → Prop} {rank : σ → ρ → Prop}

/-- Moves each of which leads from a state of some rank to one of a smaller rank do not go on
forever. -/
theorem acc_of_rank {s : σ} {a : ρ} (hlt : WellFounded lt)
    (hstep : ∀ {s s' a}, rank s a → rel s s' → ∃ b, lt b a ∧ rank s' b) (hs : rank s a) :
    Acc (fun s' s => rel s s') s := by
  induction a using hlt.induction generalizing s with
  | _ a ih =>
    refine ⟨s, fun s' hrel => ?_⟩
    obtain ⟨b, hb, hs'⟩ := hstep hs hrel
    exact ih b hb hs'

/-- So every sequence of such moves has a last one. -/
theorem ends_of_acc {s : σ} (h : Acc (fun s' s => rel s s') s) (f : Nat → σ) (hf : f 0 = s) :
    ∃ n, ¬ rel (f n) (f (n + 1)) := by
  induction h generalizing f with
  | intro s _ ih =>
    by_cases hrel : rel (f 0) (f 1)
    · obtain ⟨n, hn⟩ := ih (f 1) (hf ▸ hrel) (fun n => f (n + 1)) rfl
      exact ⟨n + 1, hn⟩
    · exact ⟨0, hrel⟩

/-- Such a machine can go on to a state where it is at rest. -/
theorem rests_of_acc {s : σ} (h : Acc (fun s' s => rel s s') s) :
    ∃ s', Relation.ReflTransGen rel s s' ∧ ∀ s'', ¬ rel s' s'' := by
  induction h with
  | intro s _ ih =>
    by_cases hrest : ∃ s', rel s s'
    · obtain ⟨s', hs'⟩ := hrest
      obtain ⟨s'', hgo, hend⟩ := ih s' hs'
      exact ⟨s'', .head hs' hgo, hend⟩
    · exact ⟨s, .refl, fun s'' hs'' => hrest ⟨s'', hs''⟩⟩

end Machine

namespace Prog

variable {O : Type} {R : O → Type} {α : Type}

/-- What is left of a program after its next operation. -/
inductive After : Prog O R α → Prog O R α → Prop
  | op {o : O} {k : R o → Prog O R α} (r : R o) : After (k r) (.op o k)

theorem after_wf : WellFounded (After : Prog O R α → Prog O R α → Prop) := by
  refine ⟨fun p => ?_⟩
  induction p with
  | ret a => exact ⟨_, fun _ h => nomatch h⟩
  | op o k ih =>
    refine ⟨_, ?_⟩
    rintro _ ⟨r⟩
    exact ih r

end Prog

namespace Tasks

open Relation

variable {ι τ : Type*} [DecidableEq ι] {lt : τ → τ → Prop} {tasks : ι → Option τ} {T : Finset ι}
variable {i : ι}

/-- A task, if there is one. -/
def pile (a : Option τ) : Multiset τ := a.elim 0 ({·})

/-- The tasks of those in `T`. -/
def load (T : Finset ι) (tasks : ι → Option τ) : Multiset τ := ∑ i ∈ T, pile (tasks i)

omit [DecidableEq ι] in
theorem mem_pile {a : Option τ} {b : τ} : b ∈ pile a ↔ a = some b := by
  cases a with
  | none => simp [pile]
  | some a => simp [pile, eq_comm]

theorem load_update (hi : i ∈ T) (a : Option τ) :
    load T (Function.update tasks i a) = pile a + ∑ j ∈ T.erase i, pile (tasks j) := by
  rw [load, ← Finset.add_sum_erase T _ hi, Function.update_self]
  congr 1
  refine Finset.sum_congr rfl fun j hj => ?_
  rw [Function.update_of_ne (Finset.ne_of_mem_erase hj)]

/-- A task is replaced by a smaller one or by none, and by others smaller than it. -/
theorem load_replace {a : τ} {b : Option τ} {rest : Multiset τ} (hi : i ∈ T)
    (ha : tasks i = some a) (hb : ∀ b' ∈ b, lt b' a) (hrest : ∀ c ∈ rest, lt c a) :
    CutExpand lt (load T (Function.update tasks i b) + rest) (load T tasks) := by
  refine ⟨pile b + rest, a, fun c hc => ?_, ?_⟩
  · rcases Multiset.mem_add.mp hc with hc | hc
    · exact hb c (mem_pile.mp hc)
    · exact hrest c hc
  · have hload : load T tasks = {a} + ∑ j ∈ T.erase i, pile (tasks j) := by
      rw [load, ← Finset.add_sum_erase T _ hi, ha]
      rfl
    rw [load_update hi, hload]
    abel

/-- Somebody without a task gets one. -/
theorem load_insert (hi : tasks i = none) (a : Option τ) :
    load (insert i T) (Function.update tasks i a) = load T tasks + pile a := by
  rw [load_update (Finset.mem_insert_self i T), add_comm]
  congr 1
  by_cases hT : i ∈ T
  · rw [load, Finset.insert_eq_of_mem hT, ← Finset.add_sum_erase T _ hT, hi]
    exact (zero_add _).symm
  · rw [Finset.erase_insert hT, load]

end Tasks

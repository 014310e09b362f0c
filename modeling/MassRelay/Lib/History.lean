import Mathlib.Data.List.Infix

/-!
# MassRelay.Lib.History

Properties of all prefixes of a history.

The history of a machine that takes every input is the list of its inputs, and the states
it goes through are those of the prefixes. `forall_prefix` is the induction over them;
`forall_prefix_iff` finds the inputs at which a property is lost, when a single input says
whether it is.
-/

namespace History

variable {α : Type} {P : List α → Prop} {as : List α}

/-- What holds at the start and survives every input holds all along. -/
theorem forall_prefix (hnil : P [])
    (hstep : ∀ pre a, pre ++ [a] <+: as → P pre → P (pre ++ [a])) :
    ∀ pre, pre <+: as → P pre := by
  intro pre
  induction pre using List.reverseRecOn with
  | nil => exact fun _ => hnil
  | append_singleton pre a ih =>
    exact fun hpre => hstep pre a hpre (ih ((List.prefix_append _ _).trans hpre))

/-- A property holds all along exactly when no input of the history breaks it. -/
theorem forall_prefix_iff {bad : List α → α → Prop} (hnil : P [])
    (hstep : ∀ pre a, P pre → (P (pre ++ [a]) ↔ ¬ bad pre a)) :
    (∀ pre, pre <+: as → P pre) ↔ ∀ pre a, pre ++ [a] <+: as → ¬ bad pre a := by
  constructor
  · intro h pre a hpre
    exact (hstep pre a (h pre ((List.prefix_append _ _).trans hpre))).mp (h _ hpre)
  · intro h
    exact forall_prefix hnil fun pre a hpre hP => (hstep pre a hP).mpr (h pre a hpre)

end History

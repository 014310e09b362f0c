import Mathlib.Algebra.BigOperators.Group.List.Basic
import Mathlib.Algebra.GroupWithZero.Nat
import Mathlib.Data.List.AList

/-!
# MassRelay.Lib.Total

The total weight of the values of a finite map.

`total` sums a weight over the entries. Inserting a new key adds the weight of its value
(`total_insert`), erasing a key takes it away (`total_erase`), and a weight that changes at
the value of one key changes the total by as much (`total_update`).
-/

namespace AList

variable {α β : Type} [DecidableEq α] {m : AList fun _ : α => β} {a : α} {b : β} {f f' : β → Nat}

/-- The sum of the weights of the values. -/
def total (m : AList fun _ : α => β) (f : β → Nat) : Nat := (m.entries.map fun e => f e.2).sum

theorem total_insert (h : m.lookup a = none) (b : β) (f : β → Nat) :
    (m.insert a b).total f = f b + m.total f := by
  rw [total, entries_insert_of_notMem (lookup_eq_none.mp h), List.map_cons, List.sum_cons, total]

theorem total_erase (h : m.lookup a = some b) (f : β → Nat) :
    m.total f = f b + (m.erase a).total f := by
  have hkey : a ∈ m.entries.keys := lookup_isSome.mp (by rw [h]; rfl)
  obtain ⟨b', l₁, l₂, hnot, hentries, herase⟩ := List.exists_of_kerase hkey
  have hb : b' = b := by
    have hmem : (⟨a, b'⟩ : Sigma fun _ : α => β) ∈ m.entries := by simp [hentries]
    exact Option.some.inj ((mem_lookup_iff.mpr hmem).symm.trans h)
  rw [total, total, show (m.erase a).entries = l₁ ++ l₂ from herase, hentries, ← hb]
  simp only [List.map_append, List.map_cons, List.sum_append, List.sum_cons]
  omega

theorem total_congr (h : ∀ a b, m.lookup a = some b → f' b = f b) : m.total f' = m.total f := by
  refine congrArg List.sum (List.map_congr_left fun e he => ?_)
  exact h e.1 e.2 (mem_lookup_iff.mpr he)

/-- The weight changes at one value, which only one key has. -/
theorem total_update (f f' : β → Nat) (h : m.lookup a = some b)
    (hother : ∀ a' b', m.lookup a' = some b' → a' ≠ a → f' b' = f b') :
    m.total f' + f b = m.total f + f' b := by
  have hrest : (m.erase a).total f' = (m.erase a).total f := by
    refine total_congr fun a' b' h' => ?_
    by_cases haa : a' = a
    · rw [haa, lookup_erase] at h'
      simp at h'
    · exact hother a' b' (by rwa [lookup_erase_ne haa] at h') haa
  have htotal := total_erase h f
  have htotal' := total_erase h f'
  omega

omit [DecidableEq α] in
/-- Every key weighs one. -/
theorem total_one (m : AList fun _ : α => β) : (m.total fun _ => 1) = m.entries.length := by
  simp [total]

end AList

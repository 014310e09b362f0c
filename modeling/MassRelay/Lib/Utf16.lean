import Mathlib.Data.List.Lex

/-!
# MassRelay.Lib.Utf16

Strings in the order of their UTF-16 code units, by which JavaScript compares and sorts them.

A character outside the basic plane is a pair of surrogates, which no other character is or
starts with, so a string can be read back from its code units (`codeUnits_injective`) and the
order is total. Sorting puts the least element of a list first, wherever it stood (`head?_sort`).
-/

namespace Utf16

/-- The code units of a character. -/
def charUnits (c : Char) : List Nat :=
  if c.toNat < 0x10000 then [c.toNat]
  else [0xD800 + (c.toNat - 0x10000) / 0x400, 0xDC00 + (c.toNat - 0x10000) % 0x400]

def codeUnits (s : String) : List Nat := s.toList.flatMap charUnits

/-- `a <= b`. -/
def le (a b : String) : Bool := decide (codeUnits a ≤ codeUnits b)

/-- `strings.sort()`. -/
def sort (strings : List String) : List String := strings.mergeSort le

variable {a b c : String} {l : List String}

/-- No character is a surrogate. -/
theorem toNat_valid (c : Char) : c.toNat < 0xD800 ∨
    (0xDFFF < c.toNat ∧ c.toNat < 0x110000) := c.valid

theorem charUnits_append_inj {x y : Char} {xs ys : List Nat}
    (h : charUnits x ++ xs = charUnits y ++ ys) : x = y ∧ xs = ys := by
  have hx := toNat_valid x
  have hy := toNat_valid y
  unfold charUnits at h
  split at h <;> split at h
  · obtain ⟨hhead, rfl⟩ := List.cons.inj h
    exact ⟨Char.toNat_inj.mp hhead, rfl⟩
  · have hhead := (List.cons.inj h).1
    omega
  · have hhead := (List.cons.inj h).1
    omega
  · obtain ⟨hhigh, hrest⟩ := List.cons.inj h
    obtain ⟨hlow, rfl⟩ := List.cons.inj hrest
    exact ⟨Char.toNat_inj.mp (by omega), rfl⟩

theorem charUnits_ne_nil (x : Char) : charUnits x ≠ [] := by
  unfold charUnits
  split <;> simp

theorem codeUnits_injective : Function.Injective codeUnits := by
  have hchars : ∀ xs ys : List Char, xs.flatMap charUnits = ys.flatMap charUnits → xs = ys := by
    intro xs
    induction xs with
    | nil =>
      intro ys h
      cases ys with
      | nil => rfl
      | cons y ys => exact absurd (List.append_eq_nil_iff.mp h.symm).1 (charUnits_ne_nil y)
    | cons x xs ih =>
      intro ys h
      cases ys with
      | nil => exact absurd (List.append_eq_nil_iff.mp h).1 (charUnits_ne_nil x)
      | cons y ys =>
        obtain ⟨rfl, hrest⟩ := charUnits_append_inj h
        rw [ih ys hrest]
  intro a b h
  exact String.toList_injective (hchars _ _ h)

theorem le_trans (hab : le a b = true) (hbc : le b c = true) : le a c = true :=
  decide_eq_true (Preorder.le_trans _ _ _ (of_decide_eq_true hab) (of_decide_eq_true hbc))

theorem le_total (a b : String) : (le a b || le b a) = true := by
  rw [Bool.or_eq_true]
  exact (LinearOrder.le_total (codeUnits a) (codeUnits b)).imp decide_eq_true decide_eq_true

theorem le_antisymm (hab : le a b = true) (hba : le b a = true) : a = b :=
  codeUnits_injective
    (PartialOrder.le_antisymm _ _ (of_decide_eq_true hab) (of_decide_eq_true hba))

/-- The first of the sorted strings is the least. -/
theorem head?_sort : (sort l).head? = some a ↔ a ∈ l ∧ ∀ b ∈ l, le a b = true := by
  have hperm : (sort l).Perm l := List.mergeSort_perm l le
  have hsorted : (sort l).Pairwise fun x y => le x y = true :=
    @List.pairwise_mergeSort _ le (fun _ _ _ hab hbc => le_trans hab hbc) le_total l
  have hleast : ∀ {x xs}, sort l = x :: xs → x ∈ l ∧ ∀ b ∈ l, le x b = true := by
    intro x xs heq
    rw [heq] at hperm hsorted
    refine ⟨hperm.subset List.mem_cons_self, fun b hb => ?_⟩
    rcases List.mem_cons.mp (hperm.symm.subset hb) with rfl | hmem
    · simpa using le_total b b
    · exact (List.pairwise_cons.mp hsorted).1 b hmem
  cases heq : sort l with
  | nil =>
    rw [heq] at hperm
    simp [hperm.symm.eq_nil]
  | cons x xs =>
    obtain ⟨hmem, hle⟩ := hleast heq
    rw [List.head?_cons, Option.some.injEq]
    constructor
    · rintro rfl
      exact ⟨hmem, hle⟩
    · rintro ⟨ha, hle'⟩
      exact le_antisymm (hle a ha) (hle' x hmem)

end Utf16

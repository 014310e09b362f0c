import Mathlib.Data.List.Induction
import Mathlib.Data.Option.Basic
import Mathlib.Logic.Relation

/-!
# MassRelay.Lib.Machine

Runs of a machine whose step function is partial: `step s m = none` when move
`m` is not enabled in state `s`.

A run is the list of its moves, so a concrete one can be evaluated, and a
statement about every run is an induction over that list. `invariant_guarded`
is the rule for a property that may hold only along runs whose every move is made
from a state meeting a condition (`Guarded`), `invariant_tally` the one that also
counts moves along the run (`tally`), and `invariant_since` the one that remembers which
of two kinds of move came last (`since`); `exec_induction` is for one that speaks of the moves
made so far. `throughout_iff_guarded` finds the moves at which a
property is lost, when the state and the move say whether it is, or what an onlooker noted of the
moves before (`watch`).
-/

namespace Machine

variable {σ μ : Type}

/-- The state a list of moves leads to, `none` if one of them is not enabled. -/
def exec (step : σ → μ → Option σ) : σ → List μ → Option σ
  | s, [] => some s
  | s, m :: ms => (step s m).bind fun s' => exec step s' ms

/-- Every move of the run from `s` is made in a state that meets `G`. -/
def Guarded (step : σ → μ → Option σ) (G : σ → μ → Prop) : σ → List μ → Prop
  | _, [] => True
  | s, m :: ms => G s m ∧ ∀ s', step s m = some s' → Guarded step G s' ms

variable {step : σ → μ → Option σ} {G : σ → μ → Prop}

@[simp] theorem exec_nil (s : σ) : exec step s [] = some s := rfl

/-- Inverting a run at its first move. -/
theorem exec_cons_eq_some {s t : σ} {m : μ} {ms : List μ}
    (h : exec step s (m :: ms) = some t) :
    ∃ s', step s m = some s' ∧ exec step s' ms = some t :=
  Option.bind_eq_some_iff.mp h

/-- A condition that the moves of a run meet in every state. -/
theorem guarded_of_forall {s : σ} {ms : List μ} (h : ∀ m ∈ ms, ∀ s, G s m) :
    Guarded step G s ms := by
  induction ms generalizing s with
  | nil => trivial
  | cons m ms ih =>
    exact ⟨h m List.mem_cons_self s, fun s' _ => ih fun m hm => h m (List.mem_cons_of_mem _ hm)⟩

theorem Guarded.imp {G' : σ → μ → Prop} {s : σ} {ms : List μ} (hG : ∀ s m, G s m → G' s m)
    (h : Guarded step G s ms) : Guarded step G' s ms := by
  induction ms generalizing s with
  | nil => trivial
  | cons m ms ih => exact ⟨hG s m h.1, fun s' hm => ih (h.2 s' hm)⟩

theorem Guarded.and {G' : σ → μ → Prop} {s : σ} {ms : List μ} (h : Guarded step G s ms)
    (h' : Guarded step G' s ms) : Guarded step (fun s m => G s m ∧ G' s m) s ms := by
  induction ms generalizing s with
  | nil => trivial
  | cons m ms ih => exact ⟨⟨h.1, h'.1⟩, fun s' hm => ih (h.2 s' hm) (h'.2 s' hm)⟩

/-- The state a list of moves leads to, `none` if one of them is not enabled or does not
meet `G`. -/
def execIf (step : σ → μ → Option σ) (G : σ → μ → Prop) [∀ s m, Decidable (G s m)] :
    σ → List μ → Option σ :=
  exec fun s m => if G s m then step s m else none

/-- A run that was evaluated with its guards is a guarded run. -/
theorem execIf_eq_some [∀ s m, Decidable (G s m)] {s t : σ} {ms : List μ}
    (h : execIf step G s ms = some t) : Guarded step G s ms ∧ exec step s ms = some t := by
  induction ms generalizing s with
  | nil => exact ⟨trivial, h⟩
  | cons m ms ih =>
    obtain ⟨s', hm, hrest⟩ := exec_cons_eq_some h
    split at hm
    · rename_i hG
      obtain ⟨hguard, hexec⟩ := ih hrest
      refine ⟨⟨hG, fun s'' hm' => ?_⟩, ?_⟩
      · rwa [Option.some.inj (hm'.symm.trans hm)]
      · exact Option.bind_eq_some_iff.mpr ⟨s', hm, hexec⟩
    · simp at hm

/-- What holds at the start and survives every guarded move holds after every
guarded run. -/
theorem invariant_guarded {I : σ → Prop} {s t : σ} {ms : List μ}
    (hstep : ∀ s m s', I s → G s m → step s m = some s' → I s')
    (hs : I s) (hg : Guarded step G s ms) (h : exec step s ms = some t) : I t := by
  induction ms generalizing s with
  | nil =>
    obtain rfl := Option.some.inj h
    exact hs
  | cons m ms ih =>
    obtain ⟨s', hm, hrest⟩ := exec_cons_eq_some h
    exact ih (hstep s m s' hs hg.1 hm) (hg.2 s' hm) hrest

/-- What an invariant says of the states in which the moves of a guarded run are made. -/
theorem Guarded.of_invariant {G' : σ → μ → Prop} {I : σ → Prop} {s : σ} {ms : List μ}
    (hstep : ∀ s m s', I s → G s m → step s m = some s' → I s')
    (hI : ∀ s m, I s → G s m → G' s m) (hs : I s) (hg : Guarded step G s ms) :
    Guarded step G' s ms := by
  induction ms generalizing s with
  | nil => trivial
  | cons m ms ih =>
    exact ⟨hI s m hs hg.1, fun s' hm => ih (hstep s m s' hs hg.1 hm) (hg.2 s' hm)⟩

/-- `P` holds in every state that the run from `s` goes through. -/
def Throughout (step : σ → μ → Option σ) (P : σ → Prop) : σ → List μ → Prop
  | s, [] => P s
  | s, m :: ms => P s ∧ ∀ s', step s m = some s' → Throughout step P s' ms

/-- A property holds throughout exactly the guarded runs, where an invariant that implies it
survives every guarded move, and no other move leaves the property. -/
theorem throughout_iff_guarded {I P : σ → Prop} {s t : σ} {ms : List μ}
    (hP : ∀ s, I s → P s)
    (hkeeps : ∀ s m s', I s → G s m → step s m = some s' → I s')
    (hbreaks : ∀ s m s', I s → step s m = some s' → P s' → G s m)
    (hs : I s) (h : exec step s ms = some t) :
    Throughout step P s ms ↔ Guarded step G s ms := by
  induction ms generalizing s with
  | nil => exact iff_of_true (hP s hs) trivial
  | cons m ms ih =>
    obtain ⟨s', hm, hrest⟩ := exec_cons_eq_some h
    have hnext : ∀ {Q : σ → Prop}, (∀ s'', step s m = some s'' → Q s'') ↔ Q s' := by
      intro Q
      rw [hm]
      simp
    rw [Throughout, Guarded, hnext, hnext]
    constructor
    · rintro ⟨-, hthroughout⟩
      have hP' : P s' := by
        cases ms with
        | nil => exact hthroughout
        | cons => exact hthroughout.1
      have hG := hbreaks s m s' hs hm hP'
      exact ⟨hG, (ih (hkeeps s m s' hs hG hm) hrest).mp hthroughout⟩
    · rintro ⟨hG, hguarded⟩
      exact ⟨hP s hs, (ih (hkeeps s m s' hs hG hm) hrest).mpr hguarded⟩

/-- How many moves of the run from `s` are made as `c` says. -/
def tally (step : σ → μ → Option σ) (c : σ → μ → Bool) : σ → List μ → Nat
  | _, [] => 0
  | s, m :: ms => (c s m).toNat + ((step s m).elim 0 fun s' => tally step c s' ms)

/-- An invariant that speaks of how many moves of each kind were made so far. -/
theorem invariant_tally {ι : Type} {c : ι → σ → μ → Bool} {I : σ → (ι → Nat) → Prop} {s t : σ}
    {ms : List μ} {k : ι → Nat}
    (hstep : ∀ s k m s', I s k → G s m → step s m = some s' → I s' fun i => k i + (c i s m).toNat)
    (hs : I s k) (hg : Guarded step G s ms) (h : exec step s ms = some t) :
    I t fun i => k i + tally step (c i) s ms := by
  induction ms generalizing s k with
  | nil =>
    obtain rfl := Option.some.inj h
    exact hs
  | cons m ms ih =>
    obtain ⟨s', hm, hrest⟩ := exec_cons_eq_some h
    have hrun := ih (hstep s k m s' hs hg.1 hm) (hg.2 s' hm) hrest
    simpa only [tally, hm, Option.elim_some, Nat.add_assoc] using hrun

/-- Whether the run from `s` made a move as `c` says after its last one as `r` says, where `b` says
whether the run before it did. -/
def since (step : σ → μ → Option σ) (c r : σ → μ → Bool) (b : Bool) : σ → List μ → Bool
  | _, [] => b
  | s, m :: ms => (step s m).elim b fun s' => since step c r (c s m || (b && !r s m)) s' ms

/-- An invariant that speaks of which kind of move came last. -/
theorem invariant_since {c r : σ → μ → Bool} {I : σ → Bool → Prop} {s t : σ}
    {ms : List μ} {b : Bool}
    (hstep : ∀ s b m s', I s b → step s m = some s' → I s' (c s m || (b && !r s m)))
    (hs : I s b) (h : exec step s ms = some t) : I t (since step c r b s ms) := by
  induction ms generalizing s b with
  | nil =>
    obtain rfl := Option.some.inj h
    exact hs
  | cons m ms ih =>
    obtain ⟨s', hm, hrest⟩ := exec_cons_eq_some h
    have hrun := ih (hstep s b m s' hs hm) hrest
    simpa only [since, hm, Option.elim_some] using hrun

/-- What came after the last move of either kind came after the last of each. -/
theorem since_and {c r r' : σ → μ → Bool} {s : σ} {ms : List μ} {b b' : Bool} :
    (since step c r b s ms && since step c r' b' s ms) =
      since step c (fun s m => r s m || r' s m) (b && b') s ms := by
  induction ms generalizing s b b' with
  | nil => rfl
  | cons m ms ih =>
    unfold since
    cases step s m with
    | none => rfl
    | some s' =>
      simp only [Option.elim_some]
      rw [ih]
      cases c s m <;> simp [Bool.and_assoc, Bool.and_left_comm]

/-- The machine with an onlooker, who notes its moves. -/
def watch {ω : Type} (step : σ → μ → Option σ) (note : σ → μ → ω → ω) (s : σ × ω) (m : μ) :
    Option (σ × ω) :=
  (step s.1 m).map fun s' => (s', note s.1 m s.2)

/-- The onlooker keeps nothing from happening. -/
theorem exec_watch {ω : Type} {note : σ → μ → ω → ω} {s t : σ} {ms : List μ}
    (h : exec step s ms = some t) (o : ω) :
    ∃ o', exec (watch step note) (s, o) ms = some (t, o') := by
  induction ms generalizing s o with
  | nil =>
    obtain rfl := Option.some.inj h
    exact ⟨o, rfl⟩
  | cons m ms ih =>
    obtain ⟨s', hm, hrest⟩ := exec_cons_eq_some h
    obtain ⟨o', ho'⟩ := ih hrest (note s m o)
    exact ⟨o', Option.bind_eq_some_iff.mpr ⟨_, Option.map_eq_some_iff.mpr ⟨s', hm, rfl⟩, ho'⟩⟩

theorem exec_of_watch {ω : Type} {note : σ → μ → ω → ω} {s t : σ × ω} {ms : List μ}
    (h : exec (watch step note) s ms = some t) : exec step s.1 ms = some t.1 := by
  induction ms generalizing s with
  | nil =>
    obtain rfl := Option.some.inj h
    rfl
  | cons m ms ih =>
    obtain ⟨_, hm, hrest⟩ := exec_cons_eq_some h
    obtain ⟨s', hm', rfl⟩ := Option.map_eq_some_iff.mp hm
    exact Option.bind_eq_some_iff.mpr ⟨s', hm', ih hrest⟩

/-! ### Runs that go on -/

section Append

variable {s₀ s s' t : σ} {m : μ} {ms : List μ}

theorem exec_append (h : exec step s₀ ms = some s) (ms' : List μ) :
    exec step s₀ (ms ++ ms') = exec step s ms' := by
  induction ms generalizing s₀ with
  | nil =>
    obtain rfl := Option.some.inj h
    rfl
  | cons m ms ih =>
    obtain ⟨s₁, hm, hms⟩ := exec_cons_eq_some h
    simp [exec, hm, ih hms]

/-- Inverting a run at its last move. -/
theorem exec_concat_eq_some (h : exec step s₀ (ms ++ [m]) = some t) :
    ∃ s, exec step s₀ ms = some s ∧ step s m = some t := by
  induction ms generalizing s₀ with
  | nil =>
    obtain ⟨s, hm, hs⟩ := exec_cons_eq_some h
    obtain rfl := Option.some.inj hs
    exact ⟨s₀, rfl, hm⟩
  | cons m' ms ih =>
    obtain ⟨s₁, hm', hms⟩ := exec_cons_eq_some h
    obtain ⟨s, hs, hm⟩ := ih hms
    exact ⟨s, by simp [exec, hm', hs], hm⟩

/-- Induction over the moves of a run, along with the states that they lead to. -/
theorem exec_induction {P : σ → List μ → Prop} (hnil : P s₀ [])
    (hmove : ∀ {s m s' ms}, exec step s₀ ms = some s → P s ms → step s m = some s' →
      P s' (ms ++ [m]))
    (h : exec step s₀ ms = some t) : P t ms := by
  induction ms using List.reverseRecOn generalizing t with
  | nil =>
    obtain rfl := Option.some.inj h
    exact hnil
  | append_singleton ms m ih =>
    obtain ⟨s, hs, hm⟩ := exec_concat_eq_some h
    exact hmove hs (ih hs) hm

/-- What can be reached by moves of a machine, a run of it reaches. -/
theorem exec_of_moves {rel : σ → σ → Prop} (hmove : ∀ {s s'}, rel s s' → ∃ m, step s m = some s')
    (h : exec step s₀ ms = some s) (hs : Relation.ReflTransGen rel s s') :
    ∃ ms', exec step s₀ ms' = some s' := by
  induction hs with
  | refl => exact ⟨ms, h⟩
  | tail _ hrel ih =>
    obtain ⟨ms', hms'⟩ := ih
    obtain ⟨m, hm⟩ := hmove hrel
    exact ⟨ms' ++ [m], by rw [exec_append hms']; simp [exec, hm]⟩

end Append

end Machine

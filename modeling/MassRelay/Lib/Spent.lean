import MassRelay.Lib.Threads

/-!
# MassRelay.Lib.Spent

Threads that need nothing more of the others.

What a thread relies on may matter to a part of its program only. Once all it can still
come to are operations of `D` it is spent, and the others owe it nothing (`Prog.All D`).
`HoldsUntil` asks only the other threads for the `wp` of their programs, and a move has to
stay within what those rely on: the condition `C` on the moves may say so with a look at
what each thread has left to run.
-/

namespace Threads

variable {σ G O μ : Type} {R : O → Type}
variable {exec : G → Nat → (o : O) → σ → Option (σ × R o)}
variable {launch : μ → σ → Option (σ × Option (G × Prog O R Unit))}
variable {P : Protocol σ G O μ} {D : O → Prop} {C : Pool σ G O R → Move G μ → Prop}

/-- The moves that meet `C` stay within what the threads that are not spent rely on, and
operations of `D` need nothing but `C`. -/
structure SoundUntil (exec : G → Nat → (o : O) → σ → Option (σ × R o))
    (launch : μ → σ → Option (σ × Option (G × Prog O R Unit))) (P : Protocol σ G O μ)
    (D : O → Prop) (C : Pool σ G O R → Move G μ → Prop) : Prop where
  refl : ∀ {g s}, P.rely g s s
  trans : ∀ {g s₁ s₂ s₃}, P.rely g s₁ s₂ → P.rely g s₂ s₃ → P.rely g s₁ s₃
  ok : ∀ {t g n o k}, C t (.run g n) → t.threads g = some (.op o k) → P.ok g n o t.shared
  guarantee : ∀ {t g g' n o k s r p}, P.inv t.shared → C t (.run g n) →
    t.threads g = some (.op o k) → exec g n o t.shared = some (s, r) → g' ≠ g →
    t.threads g' = some p → ¬ p.All D → P.rely g' t.shared s
  spent : ∀ {t g n o k s r}, P.inv t.shared → C t (.run g n) → t.threads g = some (.op o k) →
    D o → exec g n o t.shared = some (s, r) → P.inv s
  launch_rely : ∀ {t m s start}, P.inv t.shared → C t (.launch m) →
    launch m t.shared = some (s, start) → ∀ g, P.rely g t.shared s
  launch_inv : ∀ {t m s start}, P.inv t.shared → C t (.launch m) →
    launch m t.shared = some (s, start) → P.inv s
  launch_start : ∀ {t m s g p}, P.inv t.shared → C t (.launch m) →
    launch m t.shared = some (s, some (g, p)) → t.threads g = none →
    wp exec P g p (fun _ _ => True) s

/-- The invariant holds, and every thread is spent or has its program ahead. -/
structure HoldsUntil (exec : G → Nat → (o : O) → σ → Option (σ × R o)) (P : Protocol σ G O μ)
    (D : O → Prop) (t : Pool σ G O R) : Prop where
  inv : P.inv t.shared
  running : ∀ {g p}, t.threads g = some p →
    p.All D ∨ wp exec P g p (fun _ _ => True) t.shared

/-- A pool in which nothing runs. -/
theorem HoldsUntil.init {s : σ} (h : P.inv s) : HoldsUntil exec P D ⟨s, fun _ => none⟩ :=
  ⟨h, fun hg => by simp at hg⟩

/-- A thread that is not spent performs an operation on the terms of the protocol. -/
theorem HoldsUntil.req {t : Pool σ G O R} {g : G} {o : O} {k : R o → Prog O R Unit}
    (hP : SoundUntil exec launch P D C) (ht : HoldsUntil exec P D t)
    (hg : t.threads g = some (.op o k)) (ho : ¬ D o) : P.req g o t.shared := by
  rcases ht.running hg with hspent | hp
  · exact absurd hspent.1 ho
  · exact (hp t.shared hP.refl ht.inv).1

variable [DecidableEq G]

/-- A thread moved, or one was started, and the others see a step they rely on, as far as
they are not spent. -/
theorem HoldsUntil.update {t : Pool σ G O R} {g : G} {s : σ} {p : Prog O R Unit}
    (hP : SoundUntil exec launch P D C) (ht : HoldsUntil exec P D t) (hinv : P.inv s)
    (hrely : ∀ g' p', g' ≠ g → t.threads g' = some p' → ¬ p'.All D → P.rely g' t.shared s)
    (hp : p.All D ∨ wp exec P g p (fun _ _ => True) s) :
    HoldsUntil exec P D ⟨s, Function.update t.threads g (left p)⟩ := by
  refine ⟨hinv, fun {g' p'} hg' => ?_⟩
  dsimp only at hg'
  by_cases hg : g' = g
  · subst hg
    rw [Function.update_self] at hg'
    obtain ⟨rfl, -⟩ := left_eq_some hg'
    exact hp
  · rw [Function.update_of_ne hg] at hg'
    by_cases hspent : p'.All D
    · exact Or.inl hspent
    · have hwp := (ht.running hg').resolve_left hspent
      have hstep := hrely g' p' hg hg' hspent
      cases p' with
      | ret a => exact absurd trivial hspent
      | op o k => exact Or.inr fun s₁ hrely₁ => hwp s₁ (hP.trans hstep hrely₁)

theorem HoldsUntil.step {t t' : Pool σ G O R} {m : Move G μ} (hP : SoundUntil exec launch P D C)
    (ht : HoldsUntil exec P D t) (hm : C t m) (h : step exec launch t m = some t') :
    HoldsUntil exec P D t' := by
  cases m with
  | run g n =>
    obtain ⟨o, k, s, r, hg, hx, rfl⟩ := step_run h
    have hnext : P.inv s ∧ ((k r).All D ∨ wp exec P g (k r) (fun _ _ => True) s) := by
      rcases ht.running hg with hspent | hp
      · exact ⟨hP.spent ht.inv hm hg hspent.1 hx, Or.inl (hspent.2 r)⟩
      · obtain ⟨hinv, hk⟩ := (hp t.shared hP.refl ht.inv).2 n s r (hP.ok hm hg) hx
        exact ⟨hinv, Or.inr hk⟩
    exact ht.update hP hnext.1 (fun g' p' hne hg' hspent =>
      hP.guarantee ht.inv hm hg hx hne hg' hspent) hnext.2
  | launch m =>
    rcases step_launch h with ⟨s, hl, rfl⟩ | ⟨s, g, p, hl, hg, rfl⟩
    · have hrely := hP.launch_rely ht.inv hm hl
      refine ⟨hP.launch_inv ht.inv hm hl, fun {g p} hg => ?_⟩
      rcases ht.running hg with hspent | hp
      · exact Or.inl hspent
      · cases p with
        | ret a => exact Or.inl trivial
        | op o k => exact Or.inr fun s₁ hrely₁ => hp s₁ (hP.trans (hrely g) hrely₁)
    · exact ht.update hP (hP.launch_inv ht.inv hm hl)
        (fun g' _ _ _ _ => hP.launch_rely ht.inv hm hl g')
        (Or.inr (hP.launch_start ht.inv hm hl hg))

/-- What the protocol says of the operations outside `D`, in every guarded run. -/
theorem HoldsUntil.guarded {G' : Pool σ G O R → Move G μ → Prop} {t : Pool σ G O R}
    {ms : List (Move G μ)} (hP : SoundUntil exec launch P D C)
    (hG : ∀ t m, HoldsUntil exec P D t → C t m → G' t m) (ht : HoldsUntil exec P D t)
    (hguard : Machine.Guarded (Threads.step exec launch) C t ms) :
    Machine.Guarded (Threads.step exec launch) G' t ms :=
  hguard.of_invariant (fun _ _ _ ht hm h => ht.step hP hm h) hG ht

end Threads

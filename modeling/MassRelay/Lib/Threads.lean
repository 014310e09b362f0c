import MassRelay.Lib.Machine
import MassRelay.Lib.Prog

/-!
# MassRelay.Lib.Threads

Threads that run programs on one shared state, and rules to reason about them.

A `Pool` is the shared state and what each thread has left to run. A move either
lets one thread perform its next operation (`run`) or is one of the environment
(`launch`), which may change the state and start an idle thread. Runs are those
of `MassRelay.Lib.Machine`.

The rules are those of rely and guarantee. A `Protocol` fixes an invariant of the
state, what each thread may *rely* on the others to do between two of its own
operations, and what holds of a thread that is not running (`idle`). `wp p Q s`
then says that from `s`, whatever the others do within the rely, program `p` keeps
the invariant with each of its operations and returns with `Q`. If every operation
and every launch stays within what the other threads rely on, and every program is
launched with its `wp`, the invariant holds throughout (`Sound.holds`). A protocol
can restrict the runs it speaks of, by the conditions `ok` and `okLaunch` on the
state before a move.
-/

namespace Threads

variable {σ G O μ : Type} {R : O → Type} {α β : Type}

/-! ### The machine -/

/-- The shared state, and what each thread has left to run. -/
structure Pool (σ G : Type) (O : Type) (R : O → Type) where
  shared : σ
  threads : G → Option (Prog O R Unit)

inductive Move (G μ : Type)
  | run (g : G) (n : Nat)
  | launch (m : μ)

/-- What is left of a program, `none` once it returned. -/
def left : Prog O R Unit → Option (Prog O R Unit)
  | .ret _ => none
  | .op o k => some (.op o k)

theorem left_eq_some {p p' : Prog O R Unit} (h : left p = some p') :
    p = p' ∧ ∃ o k, p' = .op o k := by
  cases p with
  | ret a => simp [left] at h
  | op o k =>
    obtain rfl := Option.some.inj h
    exact ⟨rfl, o, k, rfl⟩

section Step

variable [DecidableEq G] (exec : G → Nat → (o : O) → σ → Option (σ × R o))
variable (launch : μ → σ → Option (σ × Option (G × Prog O R Unit)))

/-- One move, `none` if it is not enabled: a thread is blocked or not running, or a
thread to be started is already. -/
def step (t : Pool σ G O R) : Move G μ → Option (Pool σ G O R)
  | .run g n =>
    match t.threads g with
    | some (.op o k) =>
      (exec g n o t.shared).map fun (s, r) => ⟨s, Function.update t.threads g (left (k r))⟩
    | _ => none
  | .launch m =>
    match launch m t.shared with
    | some (s, none) => some ⟨s, t.threads⟩
    | some (s, some (g, p)) =>
      if (t.threads g).isNone then some ⟨s, Function.update t.threads g (left p)⟩ else none
    | none => none

variable {exec launch}

/-- Inverting a move of a thread. -/
theorem step_run {t t' : Pool σ G O R} {g : G} {n : Nat}
    (h : step exec launch t (.run g n) = some t') :
    ∃ o k s r, t.threads g = some (.op o k) ∧ exec g n o t.shared = some (s, r) ∧
      t' = ⟨s, Function.update t.threads g (left (k r))⟩ := by
  simp only [step] at h
  split at h
  · rename_i o k hg
    obtain ⟨⟨s, r⟩, hx, rfl⟩ := Option.map_eq_some_iff.mp h
    exact ⟨o, k, s, r, hg, hx, rfl⟩
  · simp at h

/-- Inverting a launch. -/
theorem step_launch {t t' : Pool σ G O R} {m : μ}
    (h : step exec launch t (.launch m) = some t') :
    (∃ s, launch m t.shared = some (s, none) ∧ t' = ⟨s, t.threads⟩) ∨
    (∃ s g p, launch m t.shared = some (s, some (g, p)) ∧ t.threads g = none ∧
      t' = ⟨s, Function.update t.threads g (left p)⟩) := by
  simp only [step] at h
  split at h
  · rename_i s hl
    exact Or.inl ⟨s, hl, (Option.some.inj h).symm⟩
  · rename_i s g p hl
    split at h
    · rename_i hg
      exact Or.inr ⟨s, g, p, hl, Option.isNone_iff_eq_none.mp hg, (Option.some.inj h).symm⟩
    · simp at h
  · simp at h

/-- What holds of a running thread and what it has left, followed over one move: its own
operation, that of another thread, or a launch. -/
theorem running_step {J : σ → Prog O R Unit → Prop} {t t' : Pool σ G O R} {m : Move G μ} {g : G}
    {p p' : Prog O R Unit} (h : step exec launch t m = some t') (hg : t.threads g = some p)
    (hown : ∀ {n o k s r}, m = .run g n → p = .op o k → exec g n o t.shared = some (s, r) →
      J s (k r))
    (hother : ∀ {g' n o k s r}, m = .run g' n → g' ≠ g → t.threads g' = some (.op o k) →
      exec g' n o t.shared = some (s, r) → J s p)
    (hlaunch : ∀ {m' s start}, m = .launch m' → launch m' t.shared = some (s, start) → J s p)
    (hg' : t'.threads g = some p') : J t'.shared p' := by
  cases m with
  | run g' n =>
    obtain ⟨o, k, s, r, hrun, hx, rfl⟩ := step_run h
    dsimp only at hg'
    by_cases hne : g' = g
    · subst hne
      rw [Function.update_self] at hg'
      obtain ⟨rfl, -⟩ := left_eq_some hg'
      exact hown rfl (Option.some.inj (hg.symm.trans hrun)) hx
    · rw [Function.update_of_ne (Ne.symm hne), hg] at hg'
      obtain rfl := Option.some.inj hg'
      exact hother rfl hne hrun hx
  | launch m' =>
    rcases step_launch h with ⟨s, hl, rfl⟩ | ⟨s, g', q, hl, hidle, rfl⟩
    · obtain rfl := Option.some.inj (hg.symm.trans hg')
      exact hlaunch rfl hl
    · have hne : g ≠ g' := by
        rintro rfl
        simp [hg] at hidle
      dsimp only at hg'
      rw [Function.update_of_ne hne, hg] at hg'
      obtain rfl := Option.some.inj hg'
      exact hlaunch rfl hl

end Step

/-! ### The rules -/

/-- The terms on which threads share a state. -/
structure Protocol (σ G O μ : Type) where
  /-- What every operation keeps. -/
  inv : σ → Prop
  /-- What a thread sees of the others between two of its operations. -/
  rely : G → σ → σ → Prop
  /-- What holds of a thread that is not running. -/
  idle : G → σ → Prop
  /-- What holds whenever a thread has an operation ahead. -/
  req : G → O → σ → Prop
  /-- When a thread may perform an operation, in the runs considered. -/
  ok : G → Nat → O → σ → Prop
  /-- When a launch may happen, in the runs considered. -/
  okLaunch : μ → σ → Prop

variable (exec : G → Nat → (o : O) → σ → Option (σ × R o))

/-- Program `p` of thread `g`, started in `s`, keeps the invariant with each of its
operations and returns with `Q`. -/
def wp (P : Protocol σ G O μ) (g : G) : Prog O R α → (α → σ → Prop) → σ → Prop
  | .ret a, Q, s => Q a s
  | .op o k, Q, s => ∀ s₁, P.rely g s s₁ → P.inv s₁ → P.req g o s₁ ∧ ∀ n s₂ r, P.ok g n o s₁ →
      exec g n o s₁ = some (s₂, r) → P.inv s₂ ∧ wp P g (k r) Q s₂

variable {exec} {P : Protocol σ G O μ} {g : G} {s s' : σ}

theorem wp_mono {p : Prog O R α} {Q Q' : α → σ → Prop} (h : ∀ a s, Q a s → Q' a s)
    (hp : wp exec P g p Q s) : wp exec P g p Q' s := by
  induction p generalizing s with
  | ret a => exact h a s hp
  | op o k ih =>
    intro s₁ hrely hinv
    obtain ⟨hreq, hp⟩ := hp s₁ hrely hinv
    refine ⟨hreq, fun n s₂ r hok hx => ?_⟩
    obtain ⟨hinv₂, hk⟩ := hp n s₂ r hok hx
    exact ⟨hinv₂, ih r hk⟩

theorem wp_bind {p : Prog O R α} {f : α → Prog O R β} {Q : β → σ → Prop}
    (hp : wp exec P g p (fun a => wp exec P g (f a) Q) s) : wp exec P g (p >>= f) Q s := by
  induction p generalizing s with
  | ret a => exact hp
  | op o k ih =>
    intro s₁ hrely hinv
    obtain ⟨hreq, hp⟩ := hp s₁ hrely hinv
    refine ⟨hreq, fun n s₂ r hok hx => ?_⟩
    obtain ⟨hinv₂, hk⟩ := hp n s₂ r hok hx
    exact ⟨hinv₂, ih r hk⟩

/-- The rule of one operation: what holds before it is an assertion that the other
threads keep. -/
theorem wp_op {A : σ → Prop} {o : O} {k : R o → Prog O R α} {Q : α → σ → Prop}
    (hA : A s) (hstable : ∀ {s₁}, P.rely g s s₁ → A s → A s₁)
    (hreq : ∀ {s₁}, P.inv s₁ → A s₁ → P.req g o s₁)
    (h : ∀ {n s₁ s₂ r}, P.inv s₁ → A s₁ → P.ok g n o s₁ → exec g n o s₁ = some (s₂, r) →
      P.inv s₂ ∧ wp exec P g (k r) Q s₂) :
    wp exec P g (.op o k) Q s :=
  fun _ hrely hinv => ⟨hreq hinv (hstable hrely hA), fun _ _ _ hok hx =>
    h hinv (hstable hrely hA) hok hx⟩

/-- Program `p` keeps assertion `A`, along with the invariant. -/
def Keeps (exec : G → Nat → (o : O) → σ → Option (σ × R o)) (P : Protocol σ G O μ) (g : G)
    (A : σ → Prop) (p : Prog O R α) : Prop :=
  ∀ s, A s → wp exec P g p (fun _ => A) s

section Keeps

variable {A : σ → Prop}

theorem Keeps.ret (a : α) : Keeps exec P g A (.ret a : Prog O R α) := fun _ hA => hA

theorem Keeps.bind {p : Prog O R α} {f : α → Prog O R β} (hp : Keeps exec P g A p)
    (hf : ∀ a, Keeps exec P g A (f a)) : Keeps exec P g A (p >>= f) :=
  fun s hA => wp_bind (wp_mono (fun a s' hA' => hf a s' hA') (hp s hA))

theorem Keeps.onlyIf {c : Prop} [Decidable c] {p : Prog O R Unit} (hp : Keeps exec P g A p) :
    Keeps exec P g A (Prog.onlyIf c p) := by
  unfold Prog.onlyIf
  split
  · exact hp
  · exact .ret ()

/-- One operation, of an assertion that the other threads keep. -/
theorem Keeps.perform {o : O} (hstable : ∀ {s s₁}, P.rely g s s₁ → A s → A s₁)
    (hreq : ∀ {s}, P.inv s → A s → P.req g o s)
    (hop : ∀ {n s₁ s₂ r}, P.inv s₁ → A s₁ → P.ok g n o s₁ → exec g n o s₁ = some (s₂, r) →
      P.inv s₂ ∧ A s₂) : Keeps exec P g A (Prog.perform o : Prog O R (R o)) :=
  fun _ hA => wp_op hA (fun hrely => hstable hrely) hreq
    fun hinv hA hok hx => hop hinv hA hok hx

end Keeps

/-! ### A program as part of a larger one -/

section Embed

variable {σ' O' μ' : Type} {R' : O' → Type} {exec' : G → Nat → (o : O') → σ' → Option (σ' × R' o)}
variable {P' : Protocol σ' G O' μ'} {f : O → O'} {back : ∀ o, R' (f o) → R o} {π : σ' → σ}

/-- How a protocol for part of a state carries over to the whole: the part is `π`,
and its operations are those under `f`. -/
structure Part (exec : G → Nat → (o : O) → σ → Option (σ × R o)) (P : Protocol σ G O μ)
    (exec' : G → Nat → (o : O') → σ' → Option (σ' × R' o)) (P' : Protocol σ' G O' μ')
    (f : O → O') (back : ∀ o, R' (f o) → R o) (π : σ' → σ) (g : G) : Prop where
  rely : ∀ {s s'}, P'.rely g s s' → P.rely g (π s) (π s')
  inv : ∀ {s}, P'.inv s → P.inv (π s)
  req : ∀ {o s}, P.req g o (π s) → P'.req g (f o) s
  ok : ∀ {n o s}, P'.inv s → P'.ok g n (f o) s → P.ok g n o (π s)
  exec : ∀ {n o s s' r}, exec' g n (f o) s = some (s', r) →
    exec g n o (π s) = some (π s', back o r)
  keep : ∀ {n o s s' r}, P'.inv s → P.req g o (π s) → P'.ok g n (f o) s →
    exec' g n (f o) s = some (s', r) → P.inv (π s') → P'.inv s'

/-- A program for the part has the same effect in the whole, and leaves alone what the
operations on the part do (`B`). -/
theorem wp_embed {p : Prog O R α} {Q : α → σ → Prop} {B : σ' → Prop} {s : σ'}
    (hpart : Part exec P exec' P' f back π g)
    (hrely : ∀ {s s'}, P'.rely g s s' → B s → B s')
    (hB : ∀ {n o s s' r}, P'.inv s → P'.ok g n (f o) s → B s →
      exec' g n (f o) s = some (s', r) → B s')
    (hp : wp exec P g p Q (π s)) (hs : B s) :
    wp exec' P' g (p.embed f back) (fun a s => Q a (π s) ∧ B s) s := by
  induction p generalizing s with
  | ret a => exact ⟨hp, hs⟩
  | op o k ih =>
    intro s₁ hrely₁ hinv₁
    obtain ⟨hreq, hp⟩ := hp (π s₁) (hpart.rely hrely₁) (hpart.inv hinv₁)
    refine ⟨hpart.req hreq, fun n s₂ r hok hx => ?_⟩
    obtain ⟨hinv₂, hk⟩ := hp n (π s₂) (back o r) (hpart.ok hinv₁ hok) (hpart.exec hx)
    exact ⟨hpart.keep hinv₁ hreq hok hx hinv₂, ih _ hk (hB hinv₁ hok (hrely hrely₁ hs) hx)⟩

end Embed

/-! ### Soundness -/

section Sound

variable [DecidableEq G] {launch : μ → σ → Option (σ × Option (G × Prog O R Unit))}

/-- The moves that a protocol considers. -/
def Protocol.Ok (P : Protocol σ G O μ) (t : Pool σ G O R) : Move G μ → Prop
  | .run g n => ∀ o k, t.threads g = some (.op o k) → P.ok g n o t.shared
  | .launch m => P.okLaunch m t.shared

/-- The operations and launches stay within what the threads rely on. -/
structure Sound (exec : G → Nat → (o : O) → σ → Option (σ × R o))
    (launch : μ → σ → Option (σ × Option (G × Prog O R Unit))) (P : Protocol σ G O μ) : Prop where
  refl : ∀ {g s}, P.rely g s s
  trans : ∀ {g s₁ s₂ s₃}, P.rely g s₁ s₂ → P.rely g s₂ s₃ → P.rely g s₁ s₃
  idle_stable : ∀ {g s₁ s₂}, P.rely g s₁ s₂ → P.idle g s₁ → P.idle g s₂
  guarantee : ∀ {g g' n o s₁ s₂ r}, P.inv s₁ → P.req g o s₁ → P.ok g n o s₁ →
    exec g n o s₁ = some (s₂, r) → g' ≠ g → P.rely g' s₁ s₂
  launch_rely : ∀ {m s₁ s₂ start}, P.inv s₁ → P.okLaunch m s₁ →
    launch m s₁ = some (s₂, start) → ∀ g, P.rely g s₁ s₂
  launch_inv : ∀ {m s₁ s₂ start}, P.inv s₁ → P.okLaunch m s₁ →
    launch m s₁ = some (s₂, start) → P.inv s₂
  launch_start : ∀ {m s₁ s₂ g p}, P.inv s₁ → P.okLaunch m s₁ →
    launch m s₁ = some (s₂, some (g, p)) → P.idle g s₂ → wp exec P g p (fun _ => P.idle g) s₂

/-- The invariant holds, and every thread is idle or has its program ahead. -/
structure Holds (exec : G → Nat → (o : O) → σ → Option (σ × R o)) (P : Protocol σ G O μ)
    (t : Pool σ G O R) : Prop where
  inv : P.inv t.shared
  idle : ∀ {g}, t.threads g = none → P.idle g t.shared
  running : ∀ {g p}, t.threads g = some p →
    (∃ o k, p = .op o k) ∧ wp exec P g p (fun _ => P.idle g) t.shared

/-- A thread moved: it has the rest of its program ahead, and what the others have
ahead stays true, since they see a step they rely on. -/
theorem Holds.update {t : Pool σ G O R} {p : Prog O R Unit} (hP : Sound exec launch P)
    (ht : Holds exec P t) (hinv : P.inv s) (hrely : ∀ g', g' ≠ g → P.rely g' t.shared s)
    (hp : wp exec P g p (fun _ => P.idle g) s) :
    Holds exec P ⟨s, Function.update t.threads g (left p)⟩ := by
  refine ⟨hinv, ?_, ?_⟩
  · intro g' hg'
    dsimp only at hg'
    by_cases hg : g' = g
    · subst hg
      rw [Function.update_self] at hg'
      cases p with
      | ret a => exact hp
      | op o k => simp [left] at hg'
    · rw [Function.update_of_ne hg] at hg'
      exact hP.idle_stable (hrely g' hg) (ht.idle hg')
  · intro g' p' hg'
    dsimp only at hg'
    by_cases hg : g' = g
    · subst hg
      rw [Function.update_self] at hg'
      obtain ⟨rfl, hop⟩ := left_eq_some hg'
      exact ⟨hop, hp⟩
    · rw [Function.update_of_ne hg] at hg'
      obtain ⟨⟨o, k, rfl⟩, hp'⟩ := ht.running hg'
      exact ⟨⟨o, k, rfl⟩, fun s₁ hrely₁ => hp' s₁ (hP.trans (hrely g' hg) hrely₁)⟩

theorem Holds.step {t t' : Pool σ G O R} {m : Move G μ} (hP : Sound exec launch P)
    (ht : Holds exec P t) (hok : P.Ok t m) (h : step exec launch t m = some t') :
    Holds exec P t' := by
  cases m with
  | run g n =>
    obtain ⟨o, k, s, r, hg, hx, rfl⟩ := step_run h
    have hok := hok o k hg
    obtain ⟨hreq, hp⟩ := (ht.running hg).2 t.shared hP.refl ht.inv
    obtain ⟨hinv, hp⟩ := hp n s r hok hx
    exact ht.update hP hinv (fun g' hg' => hP.guarantee ht.inv hreq hok hx hg') hp
  | launch m =>
    rcases step_launch h with ⟨s, hl, rfl⟩ | ⟨s, g, p, hl, hg, rfl⟩
    · have hrely := hP.launch_rely ht.inv hok hl
      refine ⟨hP.launch_inv ht.inv hok hl, fun {g} hg => ?_, fun {g p} hg => ?_⟩
      · exact hP.idle_stable (hrely g) (ht.idle hg)
      · obtain ⟨⟨o, k, rfl⟩, hp⟩ := ht.running hg
        exact ⟨⟨o, k, rfl⟩, fun s₁ hrely₁ => hp s₁ (hP.trans (hrely g) hrely₁)⟩
    · have hrely := hP.launch_rely ht.inv hok hl
      refine ht.update hP (hP.launch_inv ht.inv hok hl) (fun g' _ => hrely g') ?_
      exact hP.launch_start ht.inv hok hl (hP.idle_stable (hrely g) (ht.idle hg))

/-- The invariant holds in every pool that a run within the protocol reaches. -/
theorem Sound.holds {t t' : Pool σ G O R} {ms : List (Move G μ)} (hP : Sound exec launch P)
    (ht : Holds exec P t) (hok : Machine.Guarded (Threads.step exec launch) P.Ok t ms)
    (h : Machine.exec (Threads.step exec launch) t ms = some t') : Holds exec P t' :=
  Machine.invariant_guarded (fun _ _ _ ht hok h => ht.step hP hok h) ht hok h

omit [DecidableEq G] in
/-- A thread's next operation comes when what it requires holds. -/
theorem Holds.req {t : Pool σ G O R} {o : O} {k : R o → Prog O R Unit} (hP : Sound exec launch P)
    (ht : Holds exec P t) (hg : t.threads g = some (.op o k)) : P.req g o t.shared :=
  ((ht.running hg).2 t.shared hP.refl ht.inv).1

/-- What every move keeps under the protocol holds as well, in the runs whose moves meet
`C`. -/
theorem Sound.invariant {C : Pool σ G O R → Move G μ → Prop} {I : Pool σ G O R → Prop}
    {t t' : Pool σ G O R} {ms : List (Move G μ)} (hP : Sound exec launch P)
    (hC : ∀ {t m}, C t m → P.Ok t m)
    (hstep : ∀ {t m t'}, Holds exec P t → C t m → I t → Threads.step exec launch t m = some t' →
      I t')
    (ht : Holds exec P t) (hs : I t)
    (hguard : Machine.Guarded (Threads.step exec launch) C t ms)
    (h : Machine.exec (Threads.step exec launch) t ms = some t') : Holds exec P t' ∧ I t' := by
  refine Machine.invariant_guarded (I := fun t => Holds exec P t ∧ I t) ?_ ⟨ht, hs⟩ hguard h
  rintro t m t' ⟨ht, hs⟩ hm hmove
  exact ⟨ht.step hP (hC hm) hmove, hstep ht hm hs hmove⟩

/-- The same of the state alone: what every operation and every launch keeps. -/
theorem Sound.also {C : Pool σ G O R → Move G μ → Prop} {I : σ → Prop}
    {t t' : Pool σ G O R} {ms : List (Move G μ)} (hP : Sound exec launch P)
    (hC : ∀ {t m}, C t m → P.Ok t m)
    (hexec : ∀ {t g n o k s r}, Holds exec P t → C t (.run g n) →
      t.threads g = some (.op o k) → I t.shared → exec g n o t.shared = some (s, r) → I s)
    (hlaunch : ∀ {t m s start}, Holds exec P t → C t (.launch m) → I t.shared →
      launch m t.shared = some (s, start) → I s)
    (ht : Holds exec P t) (hs : I t.shared)
    (hguard : Machine.Guarded (Threads.step exec launch) C t ms)
    (h : Machine.exec (Threads.step exec launch) t ms = some t') : I t'.shared := by
  refine (hP.invariant (I := fun t => I t.shared) hC ?_ ht hs hguard h).2
  intro t m t' ht hm hs hmove
  cases m with
  | run g n =>
    obtain ⟨o, k, s, r, hg, hx, rfl⟩ := step_run hmove
    exact hexec ht hm hg hs hx
  | launch m =>
    rcases step_launch hmove with ⟨s, hl, rfl⟩ | ⟨s, g, p, hl, -, rfl⟩
    · exact hlaunch ht hm hs hl
    · exact hlaunch ht hm hs hl

omit [DecidableEq G] in
/-- A pool in which nothing runs. -/
theorem Holds.init {s : σ} (hinv : P.inv s) (hidle : ∀ g, P.idle g s) :
    Holds exec P ⟨s, fun _ => none⟩ :=
  ⟨hinv, fun _ => hidle _, fun h => by simp at h⟩

end Sound

end Threads

import MassRelay.Lib.Threads

/-!
# MassRelay.Lib.Discipline

Programs that keep to a discipline.

A `Discipline` reads what a program does: in each of its states it says which operations
may come, and where an operation leads with its answer. That a program keeps to it
(`Prog.Follows`) is a fact about the text of the program alone, given what is known of the
answers its operations get.

In a pool of threads each of which follows one, the state a thread has come to is a
record of what it did and what it has still to do (`Disciplined`). An invariant can speak
of these records together with the shared state, and `Disciplined.step` is the case
analysis that proves it.
-/

/-- The states of a thread, which operations may come in one, and where they lead. -/
structure Discipline (O : Type) (R : O → Type) (Q : Type) where
  may : Q → O → Prop
  /-- What is known of an answer. -/
  answer : (o : O) → R o → Prop
  next : Q → (o : O) → R o → Q

namespace Prog

variable {O : Type} {R : O → Type} {Q α β : Type} {D : Discipline O R Q} {q : Q}

/-- From state `q` the program keeps to the discipline, and returns with `post`. -/
def Follows (D : Discipline O R Q) : Prog O R α → (α → Q → Prop) → Q → Prop
  | .ret a, post, q => post a q
  | .op o k, post, q => D.may q o ∧ ∀ r, D.answer o r → (k r).Follows D post (D.next q o r)

theorem Follows.mono {p : Prog O R α} {post post' : α → Q → Prop}
    (h : ∀ a q, post a q → post' a q) (hp : p.Follows D post q) : p.Follows D post' q := by
  induction p generalizing q with
  | ret a => exact h a q hp
  | op o k ih => exact ⟨hp.1, fun r hr => ih r (hp.2 r hr)⟩

theorem Follows.bind {p : Prog O R α} {f : α → Prog O R β} {post : β → Q → Prop}
    (hp : p.Follows D (fun a => (f a).Follows D post) q) : (p >>= f).Follows D post q := by
  induction p generalizing q with
  | ret a => exact hp
  | op o k ih => exact ⟨hp.1, fun r hr => ih r (hp.2 r hr)⟩

theorem Follows.op {o : O} {f : R o → Prog O R α} {post : α → Q → Prop} (hmay : D.may q o)
    (hf : ∀ r, D.answer o r → (f r).Follows D post (D.next q o r)) :
    (Prog.perform o >>= f).Follows D post q :=
  ⟨hmay, hf⟩

theorem Follows.onlyIf {c : Prop} [Decidable c] {p : Prog O R Unit} {post : Unit → Q → Prop}
    (hp : c → p.Follows D post q) (hret : ¬ c → post () q) :
    (Prog.onlyIf c p).Follows D post q := by
  unfold Prog.onlyIf
  split
  · exact hp ‹_›
  · exact hret ‹_›

/-- A discipline that knows more of the answers, and is otherwise the same. -/
theorem Follows.narrow {D' : Discipline O R Q} {p : Prog O R α} {post : α → Q → Prop}
    (hmay : ∀ {q o}, D.may q o → D'.may q o) (hanswer : ∀ {o r}, D'.answer o r → D.answer o r)
    (hnext : ∀ {q o r}, D'.next q o r = D.next q o r) (hp : p.Follows D post q) :
    p.Follows D' post q := by
  induction p generalizing q with
  | ret a => exact hp
  | op o k ih =>
    refine ⟨hmay hp.1, fun r hr => ?_⟩
    rw [hnext]
    exact ih r (hp.2 r (hanswer hr))

/-- What a program returns with, next to where it gets. -/
theorem Follows.returns {p : Prog O R α} {post : α → Q → Prop} {P : α → Prop}
    (hp : p.Follows D post q) (hP : p.Returns D.answer P) :
    p.Follows D (fun a q => post a q ∧ P a) q := by
  induction p generalizing q with
  | ret a => exact ⟨hp, hP⟩
  | op o k ih => exact ⟨hp.1, fun r hr => ih r (hp.2 r hr) (hP r hr)⟩

/-- A program as part of a larger one, whose discipline is that of the part on the
operations of the part. -/
theorem Follows.embed {O' : Type} {R' : O' → Type} {D' : Discipline O' R' Q} {f : O → O'}
    {back : ∀ o, R' (f o) → R o} {p : Prog O R α} {post : α → Q → Prop}
    (hmay : ∀ {q o}, D.may q o → D'.may q (f o))
    (hanswer : ∀ {o r}, D'.answer (f o) r → D.answer o (back o r))
    (hnext : ∀ {q o r}, D'.next q (f o) r = D.next q o (back o r))
    (hp : p.Follows D post q) : (p.embed f back).Follows D' post q := by
  induction p generalizing q with
  | ret a => exact hp
  | op o k ih =>
    refine ⟨hmay hp.1, fun r hr => ?_⟩
    rw [hnext]
    exact ih _ (hp.2 _ (hanswer hr))

/-- The program keeps to the discipline and leaves its state where it is. -/
def Stays (D : Discipline O R Q) (q : Q) (p : Prog O R α) : Prop :=
  p.Follows D (fun _ q' => q' = q) q

theorem Stays.ret (a : α) : (Prog.ret a : Prog O R α).Stays D q := rfl

theorem Stays.bind {p : Prog O R α} {f : α → Prog O R β} (hp : p.Stays D q)
    (hf : ∀ a, (f a).Stays D q) : (p >>= f).Stays D q := by
  refine Follows.bind (Follows.mono ?_ hp)
  rintro a q' rfl
  exact hf a

theorem Stays.perform {o : O} (hmay : D.may q o) (hnext : ∀ r, D.next q o r = q) :
    (Prog.perform o : Prog O R (R o)).Stays D q :=
  ⟨hmay, fun r _ => hnext r⟩

/-- An operation whose answer the rest of the program depends on. -/
theorem Stays.op {o : O} {f : R o → Prog O R α} (hmay : D.may q o) (hnext : ∀ r, D.next q o r = q)
    (hf : ∀ r, D.answer o r → (f r).Stays D q) : (Prog.perform o >>= f).Stays D q := by
  refine ⟨hmay, fun r hr => ?_⟩
  rw [hnext r]
  exact hf r hr

theorem Stays.onlyIf {c : Prop} [Decidable c] {p : Prog O R Unit} (hp : p.Stays D q) :
    (Prog.onlyIf c p).Stays D q :=
  Follows.onlyIf (fun _ => hp) fun _ => rfl

/-- A program none of whose operations leads out of the state. -/
theorem Stays.of_all {p : Prog O R α} (hp : p.All fun o => D.may q o ∧ ∀ r, D.next q o r = q) :
    p.Stays D q := by
  induction p with
  | ret a => exact .ret a
  | op o k ih => exact .op hp.1.1 hp.1.2 fun r _ => ih r (hp.2 r)

/-- In a state that no operation leads out of, every program stays. -/
theorem Stays.of_forall (h : ∀ o, D.may q o ∧ ∀ r, D.next q o r = q) (p : Prog O R α) :
    p.Stays D q :=
  .of_all (.of_forall h p)

/-- A program that stays where it is, and what comes after it. -/
theorem Stays.then {p : Prog O R α} {f : α → Prog O R β} {post : β → Q → Prop} (hp : p.Stays D q)
    (hf : ∀ a, (f a).Follows D post q) : (p >>= f).Follows D post q := by
  refine Follows.bind (Follows.mono ?_ hp)
  rintro a q' rfl
  exact hf a

end Prog

namespace Threads

variable {σ G O μ Q : Type} {R : O → Type} [DecidableEq G]
variable {exec : G → Nat → (o : O) → σ → Option (σ × R o)}
variable {launch : μ → σ → Option (σ × Option (G × Prog O R Unit))}

/-- Every thread follows its discipline from the state `q` says it has come to, and ends
where `idle` holds. -/
structure Disciplined (D : G → Discipline O R Q) (idle : G → Q → Prop) (t : Pool σ G O R)
    (q : G → Q) : Prop where
  resting : ∀ {g}, t.threads g = none → idle g (q g)
  running : ∀ {g p}, t.threads g = some p →
    (∃ o k, p = .op o k) ∧ p.Follows (D g) (fun _ => idle g) (q g)

variable {D : G → Discipline O R Q} {idle : G → Q → Prop} {t t' : Pool σ G O R} {q : G → Q}

omit [DecidableEq G] in
/-- The next operation of a thread is one it may perform. -/
theorem Disciplined.may {g : G} {o : O} {k : R o → Prog O R Unit} (ht : Disciplined D idle t q)
    (hg : t.threads g = some (.op o k)) : (D g).may (q g) o :=
  (ht.running hg).2.1

/-- One thread has come to state `q'` with program `p` left, and the others are where they
were. -/
theorem Disciplined.update {g : G} {s : σ} {p : Prog O R Unit} {q' : Q}
    (ht : Disciplined D idle t q) (hp : p.Follows (D g) (fun _ => idle g) q') :
    Disciplined D idle ⟨s, Function.update t.threads g (left p)⟩ (Function.update q g q') := by
  refine ⟨?_, ?_⟩
  · intro g' hg'
    dsimp only at hg'
    by_cases hg : g' = g
    · subst hg
      rw [Function.update_self] at hg' ⊢
      cases p with
      | ret a => exact hp
      | op o k => simp [left] at hg'
    · rw [Function.update_of_ne hg] at hg' ⊢
      exact ht.resting hg'
  · intro g' p' hg'
    dsimp only at hg'
    by_cases hg : g' = g
    · subst hg
      rw [Function.update_self] at hg' ⊢
      obtain ⟨rfl, hop⟩ := left_eq_some hg'
      exact ⟨hop, hp⟩
    · rw [Function.update_of_ne hg] at hg' ⊢
      exact ht.running hg'

/-- What a move does to a disciplined pool: a thread performs an operation it may, an
outside event starts nothing, or a thread that was idle is started, in a state its program
follows the discipline from. -/
theorem Disciplined.step {m : Move G μ} (ht : Disciplined D idle t q)
    (h : step exec launch t m = some t') :
    (∃ g n o k s r, m = .run g n ∧ t.threads g = some (.op o k) ∧
      exec g n o t.shared = some (s, r) ∧ (D g).may (q g) o ∧
      t' = ⟨s, Function.update t.threads g (left (k r))⟩ ∧
      ((D g).answer o r →
        Disciplined D idle t' (Function.update q g ((D g).next (q g) o r)))) ∨
    (∃ m' s, m = .launch m' ∧ launch m' t.shared = some (s, none) ∧ t' = ⟨s, t.threads⟩ ∧
      Disciplined D idle t' q) ∨
    (∃ m' s g p, m = .launch m' ∧ launch m' t.shared = some (s, some (g, p)) ∧
      t.threads g = none ∧ idle g (q g) ∧ t' = ⟨s, Function.update t.threads g (left p)⟩ ∧
      ∀ q', p.Follows (D g) (fun _ => idle g) q' →
        Disciplined D idle t' (Function.update q g q')) := by
  cases m with
  | run g n =>
    obtain ⟨o, k, s, r, hg, hx, rfl⟩ := step_run h
    have hp := (ht.running hg).2
    exact Or.inl ⟨g, n, o, k, s, r, rfl, hg, hx, hp.1, rfl, fun hr => ht.update (hp.2 r hr)⟩
  | launch m' =>
    rcases step_launch h with ⟨s, hl, rfl⟩ | ⟨s, g, p, hl, hg, rfl⟩
    · exact Or.inr (Or.inl ⟨m', s, rfl, hl, rfl, ht.resting, ht.running⟩)
    · exact Or.inr
        (Or.inr ⟨m', s, g, p, rfl, hl, hg, ht.resting hg, rfl, fun q' hp => ht.update hp⟩)

omit [DecidableEq G] in
/-- A pool in which nothing runs. -/
theorem Disciplined.init {s : σ} (hidle : ∀ g, idle g (q g)) :
    Disciplined (R := R) D idle ⟨s, fun _ => none⟩ q :=
  ⟨fun _ => hidle _, fun h => by simp at h⟩

end Threads

import Mathlib.Logic.Function.Basic

/-!
# MassRelay.Lib.Prog

Programs over atomic operations.

A program either returns or performs one operation `o : O` and goes on with its
answer, of type `R o`. What an operation does to the shared state is left to an
interpreter, so that the same program text can be run alone (`Runs`) or as one
thread among many (`MassRelay.Lib.Threads`). Between two operations of a program
anything may happen; within one nothing does.
-/

/-- A program: it returns, or performs an operation and continues with its answer. -/
inductive Prog (O : Type) (R : O → Type) (α : Type)
  | ret (a : α)
  | op (o : O) (k : R o → Prog O R α)

namespace Prog

variable {O : Type} {R : O → Type} {α β γ : Type}

/-- The program that performs one operation. -/
def perform (o : O) : Prog O R (R o) := .op o .ret

def bind : Prog O R α → (α → Prog O R β) → Prog O R β
  | .ret a, f => f a
  | .op o k, f => .op o fun r => (k r).bind f

instance : Monad (Prog O R) where
  pure := .ret
  bind := bind

/-- A program that runs only if `c` holds. -/
def onlyIf (c : Prop) [Decidable c] (p : Prog O R Unit) : Prog O R Unit := if c then p else .ret ()

@[simp] theorem pure_eq (a : α) : (pure a : Prog O R α) = .ret a := rfl

@[simp] theorem ret_bind (a : α) (f : α → Prog O R β) : (ret a : Prog O R α) >>= f = f a := rfl

@[simp] theorem op_bind (o : O) (k : R o → Prog O R α) (f : α → Prog O R β) :
    op o k >>= f = op o fun r => k r >>= f := rfl

@[simp] theorem perform_bind (o : O) (f : R o → Prog O R β) :
    perform o >>= f = op o f := rfl

theorem bind_assoc (p : Prog O R α) (f : α → Prog O R β) (f' : β → Prog O R γ) :
    p >>= f >>= f' = p >>= fun a => f a >>= f' := by
  induction p with
  | ret a => rfl
  | op o k ih =>
    simp only [op_bind]
    congr
    funext r
    exact ih r

/-- The operation a program performs next. -/
def next? : Prog O R α → Option O
  | .ret _ => none
  | .op o _ => some o

/-! ### Every operation of a program -/

/-- Every operation the program can come to satisfies `P`. -/
def All (P : O → Prop) : Prog O R α → Prop
  | .ret _ => True
  | .op o k => P o ∧ ∀ r, (k r).All P

theorem All.perform {P : O → Prop} {o : O} (h : P o) : (Prog.perform o : Prog O R (R o)).All P :=
  ⟨h, fun _ => trivial⟩

theorem All.bind {P : O → Prop} {p : Prog O R α} {f : α → Prog O R β} (hp : p.All P)
    (hf : ∀ a, (f a).All P) : (p >>= f).All P := by
  induction p with
  | ret a => exact hf a
  | op o k ih => exact ⟨hp.1, fun r => ih r (hp.2 r)⟩

theorem All.onlyIf {P : O → Prop} {c : Prop} [Decidable c] {p : Prog O R Unit} (hp : p.All P) :
    (Prog.onlyIf c p).All P := by
  unfold Prog.onlyIf
  split
  · exact hp
  · trivial

theorem All.of_forall {P : O → Prop} (h : ∀ o, P o) (p : Prog O R α) : p.All P := by
  induction p with
  | ret a => trivial
  | op o k ih => exact ⟨h o, ih⟩

/-- Every operation the program can come to satisfies `P`, up to a point where what is left
of it satisfies `Q`, if there is one. -/
def Until (Q : Prog O R α → Prop) (P : O → Prop) : Prog O R α → Prop
  | .ret _ => True
  | .op o k => Q (.op o k) ∨ (P o ∧ ∀ r, (k r).Until Q P)

theorem Until.of_all {Q : Prog O R α → Prop} {P : O → Prop} {p : Prog O R α} (hp : p.All P) :
    p.Until Q P := by
  induction p with
  | ret a => trivial
  | op o k ih => exact Or.inr ⟨hp.1, fun r => ih r (hp.2 r)⟩

theorem Until.bind {Q : Prog O R β → Prop} {P : O → Prop} {p : Prog O R α} {f : α → Prog O R β}
    (hp : p.All P) (hf : ∀ a, (f a).Until Q P) : (p >>= f).Until Q P := by
  induction p with
  | ret a => exact hf a
  | op o k ih => exact Or.inr ⟨hp.1, fun r => ih r (hp.2 r)⟩

/-! ### What a program returns -/

/-- Whatever its operations answer, as far as `A` says, the program returns with `P`. -/
def Returns (A : (o : O) → R o → Prop) (P : α → Prop) : Prog O R α → Prop
  | .ret a => P a
  | .op o k => ∀ r, A o r → (k r).Returns A P

theorem Returns.bind {A : (o : O) → R o → Prop} {P : β → Prop} (p : Prog O R α)
    {f : α → Prog O R β} (hf : ∀ a, (f a).Returns A P) : (p >>= f).Returns A P := by
  induction p with
  | ret a => exact hf a
  | op o k ih => exact fun r _ => ih r

theorem Returns.seq {A : (o : O) → R o → Prop} {P : α → Prop} {P' : β → Prop} {p : Prog O R α}
    {f : α → Prog O R β} (hp : p.Returns A P) (hf : ∀ a, P a → (f a).Returns A P') :
    (p >>= f).Returns A P' := by
  induction p with
  | ret a => exact hf a hp
  | op o k ih => exact fun r hr => ih r (hp r hr)

/-! ### A program as part of a larger one -/

section Embed

variable {O' : Type} {R' : O' → Type}

/-- The same program over more operations; `back` reads their answers. -/
def embed (f : O → O') (back : ∀ o, R' (f o) → R o) : Prog O R α → Prog O' R' α
  | .ret a => .ret a
  | .op o k => .op (f o) fun r => (k (back o r)).embed f back

theorem embed_bind (f : O → O') (back : ∀ o, R' (f o) → R o) (p : Prog O R α)
    (q : α → Prog O R β) :
    (p >>= q).embed f back = p.embed f back >>= fun a => (q a).embed f back := by
  induction p with
  | ret a => rfl
  | op o k ih =>
    simp only [op_bind, embed]
    congr
    funext r
    exact ih _

theorem All.embed {P : O' → Prop} {f : O → O'} {back : ∀ o, R' (f o) → R o} {p : Prog O R α}
    (hp : p.All fun o => P (f o)) : (p.embed f back).All P := by
  induction p with
  | ret a => trivial
  | op o k ih => exact ⟨hp.1, fun r => ih _ (hp.2 _)⟩

theorem Returns.embed {A : (o : O) → R o → Prop} {A' : (o : O') → R' o → Prop} {P : α → Prop}
    {f : O → O'} {back : ∀ o, R' (f o) → R o} {p : Prog O R α}
    (hA : ∀ {o r}, A' (f o) r → A o (back o r)) (hp : p.Returns A P) :
    (p.embed f back).Returns A' P := by
  induction p with
  | ret a => exact hp
  | op o k ih => exact fun r hr => ih _ (hp _ (hA hr))

end Embed

/-! ### Running alone -/

section Runs

variable {σ : Type} (exec : Nat → (o : O) → σ → Option (σ × R o))

/-- From state `s` the program returns `a` in state `s'`, for some resolution of the
choices its operations leave open, when nothing comes between them. -/
def Runs : Prog O R α → σ → α → σ → Prop
  | .ret a', s, a, s' => a' = a ∧ s = s'
  | .op o k, s, a, s' => ∃ n s₁ r, exec n o s = some (s₁, r) ∧ (k r).Runs s₁ a s'

variable {exec}

theorem Runs.bind {p : Prog O R α} {f : α → Prog O R β} {s s₁ s' : σ} {a : α} {b : β}
    (hp : p.Runs exec s a s₁) (hf : (f a).Runs exec s₁ b s') : (p >>= f).Runs exec s b s' := by
  induction p generalizing s with
  | ret a' =>
    obtain ⟨rfl, rfl⟩ := hp
    exact hf
  | op o k ih =>
    obtain ⟨n, s₂, r, hx, hp⟩ := hp
    exact ⟨n, s₂, r, hx, ih r hp⟩

/-- What every operation keeps, a run keeps. -/
theorem Runs.invariant {I : σ → Prop} {p : Prog O R α} {s s' : σ} {a : α}
    (hexec : ∀ {n o s s' r}, exec n o s = some (s', r) → I s → I s') (hp : p.Runs exec s a s')
    (hs : I s) : I s' := by
  induction p generalizing s with
  | ret a' =>
    obtain ⟨-, rfl⟩ := hp
    exact hs
  | op o k ih =>
    obtain ⟨n, s₁, r, hx, hp⟩ := hp
    exact ih r hp (hexec hx hs)

/-- A run from one state is matched by a run from another that every operation keeps
related to it. -/
theorem Runs.simulate {rel : σ → σ → Prop} {p : Prog O R α} {s s' t : σ} {a : α}
    (hexec : ∀ {n o s s' t r}, rel s t → exec n o s = some (s', r) →
      ∃ t', exec n o t = some (t', r) ∧ rel s' t')
    (hp : p.Runs exec s a s') (hrel : rel s t) : ∃ t', p.Runs exec t a t' ∧ rel s' t' := by
  induction p generalizing s t with
  | ret a' =>
    obtain ⟨rfl, rfl⟩ := hp
    exact ⟨t, ⟨rfl, rfl⟩, hrel⟩
  | op o k ih =>
    obtain ⟨n, s₁, r, hx, hp⟩ := hp
    obtain ⟨t₁, hx', hrel⟩ := hexec hrel hx
    obtain ⟨t', hp', hrel⟩ := ih r hp hrel
    exact ⟨t', ⟨n, t₁, r, hx', hp'⟩, hrel⟩

end Runs

end Prog

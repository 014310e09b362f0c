import Mathlib.Data.List.Basic

/-!
# MassRelay.Lib.Chan

Buffered channels, as a value.

A `Chan α cap` is the state of a Go channel made with `make(chan α, cap)`: what
is queued, oldest first, and whether it was closed. The capacity bound is a
field, so no operation has to prove that it respects it again. Blocking is left
to the caller: `push?` and `pop?` answer `none` where the Go operation would
wait, and a `select` with a default takes that branch instead. A send on a
closed channel and a second `close` panic in Go whatever the buffer holds, so a
caller looks at `closed` first.
-/

namespace Go

/-- A buffered channel: the queued values, oldest first, and the closed flag. -/
structure Chan (α : Type) (cap : Nat) where
  buf : List α
  closed : Bool
  bound : buf.length ≤ cap

namespace Chan

variable {α : Type} {cap : Nat}

/-- `make(chan α, cap)`. -/
def make : Chan α cap := ⟨[], false, Nat.zero_le _⟩

/-- A send that finds a free slot; `none` on a full buffer. -/
def push? (ch : Chan α cap) (a : α) : Option (Chan α cap) :=
  if h : ch.buf.length < cap then
    some ⟨ch.buf ++ [a], ch.closed, by rw [List.length_append]; exact h⟩
  else none

/-- A receive of a queued value; `none` on an empty buffer. -/
def pop? (ch : Chan α cap) : Option (α × Chan α cap) :=
  match h : ch.buf with
  | [] => none
  | a :: rest => some (a, ⟨rest, ch.closed, by
      have := ch.bound
      rw [h, List.length_cons] at this
      omega⟩)

/-- `close(ch)`: the buffer stays readable. -/
def close (ch : Chan α cap) : Chan α cap := { ch with closed := true }

@[simp] theorem make_buf : (make : Chan α cap).buf = [] := rfl
@[simp] theorem make_closed : (make : Chan α cap).closed = false := rfl
@[simp] theorem close_buf (ch : Chan α cap) : ch.close.buf = ch.buf := rfl
@[simp] theorem close_closed (ch : Chan α cap) : ch.close.closed = true := rfl

/-- Inverting a successful send: the value went to the end of the buffer. -/
theorem push?_eq_some {ch ch' : Chan α cap} {a : α} (h : ch.push? a = some ch') :
    ch'.buf = ch.buf ++ [a] ∧ ch'.closed = ch.closed := by
  unfold push? at h
  split at h
  · obtain rfl := Option.some.inj h
    exact ⟨rfl, rfl⟩
  · simp at h

/-- Inverting a successful receive: the value came off the front of the buffer. -/
theorem pop?_eq_some {ch ch' : Chan α cap} {a : α} (h : ch.pop? = some (a, ch')) :
    ch.buf = a :: ch'.buf ∧ ch'.closed = ch.closed := by
  unfold pop? at h
  split at h
  · simp at h
  · rename_i b rest hb
    simp only [Option.some.injEq, Prod.mk.injEq] at h
    obtain ⟨rfl, rfl⟩ := h
    exact ⟨hb, rfl⟩

theorem pop?_eq_none {ch : Chan α cap} : ch.pop? = none ↔ ch.buf = [] := by
  unfold pop?
  split
  · rename_i hb
    simp [hb]
  · rename_i hb
    simp [hb]

end Chan

end Go

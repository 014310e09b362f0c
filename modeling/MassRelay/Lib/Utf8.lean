import Mathlib.Data.List.Basic

/-!
# MassRelay.Lib.Utf8

The decoder of UTF-8 that browsers have, which replaces what is not well formed.

It reads a byte at a time. A byte that cannot go on with a character ends it, and starts another.
What Lean's own encoder makes of a character is read back as that character, whatever follows
(`run_utf8EncodeChar`), and so is what it makes of a string (`decode_encode`).
-/

namespace Utf8

/-- A character of which some bytes are read: how many are needed, the code point so far, and where
the next byte has to be. -/
structure Partial where
  needed : Nat
  codePoint : Nat
  lower : Nat := 0x80
  upper : Nat := 0xBF
  deriving DecidableEq

def replacement : Char := '\uFFFD'

/-- The first byte of a character of several bytes. -/
def lead (b : Nat) : Option Partial :=
  if 0xC2 ≤ b ∧ b ≤ 0xDF then some { needed := 1, codePoint := b % 0x20 }
  else if 0xE0 ≤ b ∧ b ≤ 0xEF then
    some
      { needed := 2
        codePoint := b % 0x10
        lower := if b = 0xE0 then 0xA0 else 0x80
        upper := if b = 0xED then 0x9F else 0xBF }
  else if 0xF0 ≤ b ∧ b ≤ 0xF4 then
    some
      { needed := 3
        codePoint := b % 0x08
        lower := if b = 0xF0 then 0x90 else 0x80
        upper := if b = 0xF4 then 0x8F else 0xBF }
  else none

/-- A byte between two characters: what it emits, and what it leaves unfinished. -/
def first (b : Nat) : List Char × Option Partial :=
  if b ≤ 0x7F then ([Char.ofNat b], none)
  else
    match lead b with
    | some p => ([], some p)
    | none => ([replacement], none)

def step (b : Nat) : Option Partial → List Char × Option Partial
  | none => first b
  | some p =>
    if p.lower ≤ b ∧ b ≤ p.upper then
      let codePoint := p.codePoint * 64 + b % 64
      if p.needed = 1 then ([Char.ofNat codePoint], none)
      else ([], some { needed := p.needed - 1, codePoint })
    else (replacement :: (first b).1, (first b).2)

def run : Option Partial → List UInt8 → List Char
  | none, [] => []
  | some _, [] => [replacement]
  | p, b :: bytes => (step b.toNat p).1 ++ run (step b.toNat p).2 bytes

def decode (bytes : List UInt8) : List Char := run none bytes

def encode (cs : List Char) : List UInt8 := cs.flatMap String.utf8EncodeChar

variable {p : Partial} {b n : Nat} {c : Char} {rest : List UInt8}

theorem toNat_ofNat (hb : b < 256) : (UInt8.ofNat b).toNat = b := by
  simpa using Nat.mod_eq_of_lt hb

theorem run_lead (hlead : lead b = some p) (hhigh : 0x7F < b) (hb : b < 256) :
    run none (UInt8.ofNat b :: rest) = run (some p) rest := by
  rw [run, toNat_ofNat hb, step, first, if_neg (Nat.not_le_of_lt hhigh), hlead]
  rfl

theorem run_more (hneeded : p.needed = n + 2) (hb : p.lower ≤ b ∧ b ≤ p.upper) (hlt : b < 256) :
    run (some p) (UInt8.ofNat b :: rest) =
      run (some { needed := n + 1, codePoint := p.codePoint * 64 + b % 64 }) rest := by
  rw [run, toNat_ofNat hlt, step, if_pos hb, if_neg (by omega), hneeded]
  rfl

theorem run_last (hneeded : p.needed = 1) (hb : p.lower ≤ b ∧ b ≤ p.upper) (hlt : b < 256)
    (hc : p.codePoint * 64 + b % 64 = c.toNat) :
    run (some p) (UInt8.ofNat b :: rest) = c :: run none rest := by
  rw [run, toNat_ofNat hlt, step, if_pos hb, if_pos hneeded, hc, Char.ofNat_toNat]
  rfl

theorem lead_two (hb : 0xC2 ≤ b ∧ b ≤ 0xDF) :
    lead b = some { needed := 1, codePoint := b % 0x20 } := if_pos hb

theorem lead_three (hb : 0xE0 ≤ b ∧ b ≤ 0xEF) : lead b = some
    { needed := 2
      codePoint := b % 0x10
      lower := if b = 0xE0 then 0xA0 else 0x80
      upper := if b = 0xED then 0x9F else 0xBF } :=
  (if_neg (by omega)).trans (if_pos hb)

theorem lead_four (hb : 0xF0 ≤ b ∧ b ≤ 0xF4) : lead b = some
    { needed := 3
      codePoint := b % 0x08
      lower := if b = 0xF0 then 0x90 else 0x80
      upper := if b = 0xF4 then 0x8F else 0xBF } :=
  (if_neg (by omega)).trans ((if_neg (by omega)).trans (if_pos hb))

/-- A character is read back from its bytes, whatever follows them. -/
theorem run_utf8EncodeChar (c : Char) (rest : List UInt8) :
    run none (String.utf8EncodeChar c ++ rest) = c :: run none rest := by
  have hvalid : c.toNat < 0xD800 ∨ (0xDFFF < c.toNat ∧ c.toNat < 0x110000) := c.valid
  have hval : c.val.toNat = c.toNat := rfl
  unfold String.utf8EncodeChar
  rw [hval]
  dsimp only
  split
  · rename_i hone
    have hlt : c.toNat < 256 := by omega
    rw [List.singleton_append, run, toNat_ofNat hlt, step, first, if_pos hone, Char.ofNat_toNat]
    rfl
  · split
    · refine (run_lead (lead_two (by omega)) (by omega) (by omega)).trans ?_
      refine run_last rfl ?_ (by omega) ?_
      · dsimp only
        omega
      · dsimp only
        omega
    · split
      · -- the second byte rules out surrogates, and what fits into two bytes
        refine (run_lead (lead_three (by omega)) (by omega) (by omega)).trans ?_
        refine (run_more rfl ?_ (by omega)).trans (run_last rfl ?_ (by omega) ?_)
        · dsimp only
          split <;> split <;> omega
        · dsimp only
          omega
        · dsimp only
          omega
      · -- the second byte rules out what is too large, and what fits into three bytes
        refine (run_lead (lead_four (by omega)) (by omega) (by omega)).trans ?_
        refine (run_more rfl ?_ (by omega)).trans ((run_more rfl ?_ (by omega)).trans
          (run_last rfl ?_ (by omega) ?_))
        · dsimp only
          split <;> split <;> omega
        · dsimp only
          omega
        · dsimp only
          omega
        · dsimp only
          omega

theorem decode_encode (cs : List Char) : decode (encode cs) = cs := by
  induction cs with
  | nil => rfl
  | cons c cs ih =>
    have hstep := run_utf8EncodeChar c (encode cs)
    rw [decode, encode, List.flatMap_cons]
    exact hstep.trans (congrArg (c :: ·) ih)

example : decode [0xE0, 0x80, 0x41, 0xF0, 0x9F] = ['\uFFFD', '\uFFFD', 'A', '\uFFFD'] := by decide

end Utf8

import Mathlib.Data.List.Basic

/-!
# MassRelay.Lib.PercentEncoding

Bytes in a URL, of which those that do not stand for themselves are `%` and two digits.

Which ones do is up to who encodes (`keep`). As long as `%` is none of them, what was encoded can be
decoded (`decode_encode`). Of what nobody encoded so, a decoder makes what it can (`decode`), or
refuses it (`decode?`).
-/

namespace PercentEncoding

def percent : UInt8 := 0x25

/-- A digit of `%XX`. -/
def hexDigit (n : Nat) : UInt8 := UInt8.ofNat (if n < 10 then 0x30 + n else 0x37 + n)

/-- Digits are read in either case. -/
def hexValue (b : UInt8) : Option Nat :=
  if 0x30 ≤ b ∧ b ≤ 0x39 then some (b.toNat - 0x30)
  else if 0x41 ≤ b ∧ b ≤ 0x46 then some (b.toNat - 0x37)
  else if 0x61 ≤ b ∧ b ≤ 0x66 then some (b.toNat - 0x57)
  else none

def escape (b : UInt8) : List UInt8 := [percent, hexDigit (b.toNat / 16), hexDigit (b.toNat % 16)]

def encodeByte (keep : UInt8 → Bool) (b : UInt8) : List UInt8 := if keep b then [b] else escape b

def encode (keep : UInt8 → Bool) (bytes : List UInt8) : List UInt8 :=
  bytes.flatMap (encodeByte keep)

/-- The byte that `%` and these two stand for. -/
def escaped (high low : UInt8) : Option UInt8 :=
  (hexValue high).bind fun h => (hexValue low).map fun l => UInt8.ofNat (16 * h + l)

/-- A `%` that two digits do not follow is left as it is. -/
def decode : List UInt8 → List UInt8
  | b :: high :: low :: rest =>
    match if b = percent then escaped high low else none with
    | some b' => b' :: decode rest
    | none => b :: decode (high :: low :: rest)
  | bytes => bytes

/-- None if two digits do not follow a `%`. -/
def decode? : List UInt8 → Option (List UInt8)
  | [] => some []
  | b :: high :: low :: rest =>
    if b = percent then (escaped high low).bind fun b' => (decode? rest).map (b' :: ·)
    else (decode? (high :: low :: rest)).map (b :: ·)
  | b :: rest => if b = percent then none else (decode? rest).map (b :: ·)

variable {keep : UInt8 → Bool} {b : UInt8} {rest bytes : List UInt8}

theorem hexValue_hexDigit : ∀ n < 16, hexValue (hexDigit n) = some n := by decide

theorem escaped_hexDigit (b : UInt8) :
    escaped (hexDigit (b.toNat / 16)) (hexDigit (b.toNat % 16)) = some b := by
  have hlt := b.toNat_lt
  rw [escaped, hexValue_hexDigit _ (by omega), hexValue_hexDigit _ (by omega), Option.bind_some,
    Option.map_some, Nat.div_add_mod, UInt8.ofNat_toNat]

theorem decode_cons (hb : b ≠ percent) : decode (b :: rest) = b :: decode rest := by
  match rest with
  | [] | [_] => rfl
  | _ :: _ :: _ => rw [decode, if_neg hb]

theorem decode_encodeByte (hkeep : keep percent = false) (b : UInt8) (rest : List UInt8) :
    decode (encodeByte keep b ++ rest) = b :: decode rest := by
  unfold encodeByte
  split
  · rename_i hb
    exact decode_cons fun heq => by simp [heq, hkeep] at hb
  · change decode (percent :: hexDigit (b.toNat / 16) :: hexDigit (b.toNat % 16) :: rest) = _
    rw [decode, if_pos rfl, escaped_hexDigit]

/-- Whatever is encoded can be decoded. -/
theorem decode_encode (hkeep : keep percent = false) (bytes : List UInt8) :
    decode (encode keep bytes) = bytes := by
  induction bytes with
  | nil => rfl
  | cons b bytes ih => rw [encode, List.flatMap_cons, ← encode, decode_encodeByte hkeep, ih]

theorem decode?_cons (hb : b ≠ percent) : decode? (b :: rest) = (decode? rest).map (b :: ·) := by
  match rest with
  | [] | [_] => simp [decode?, hb]
  | _ :: _ :: _ => rw [decode?, if_neg hb]

theorem decode?_encode (hkeep : keep percent = false) (bytes : List UInt8) :
    decode? (encode keep bytes) = some bytes := by
  induction bytes with
  | nil => rfl
  | cons b bytes ih =>
    rw [encode, List.flatMap_cons, ← encode, encodeByte]
    split
    · rename_i hb
      rw [List.singleton_append, decode?_cons fun heq => by simp [heq, hkeep] at hb, ih]
      rfl
    · change decode? (percent :: hexDigit (b.toNat / 16) :: hexDigit (b.toNat % 16) ::
        encode keep bytes) = _
      rw [decode?, if_pos rfl, escaped_hexDigit, ih]
      rfl

end PercentEncoding

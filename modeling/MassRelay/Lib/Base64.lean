import Mathlib.Data.List.DropRight

/-!
# MassRelay.Lib.Base64

Base64 as browsers have it: `btoa` and `atob`, on strings as lists of their code units.

Three bytes are four digits of six bits. Two bytes at the end are three digits, one byte is two,
and `=` fills them up to four. Decoding is forgiving: it passes over blanks, and `=` may be left
out. So the digits alone determine the bytes (`decode_digits`), with `=` or without.
-/

namespace Base64

/-- The alphabet, in order. -/
def alphabet : List Nat :=
  "ABCDEFGHIJKLMNOPQRSTUVWXYZabcdefghijklmnopqrstuvwxyz0123456789+/".toList.map Char.toNat

/-- `=` -/
def pad : Nat := 0x3D

/-- The digit for six bits. -/
def symbol (v : Nat) : Nat := alphabet.getD v pad

/-- The six bits of a digit. -/
def value (u : Nat) : Option Nat := alphabet.idxOf? u

/-- Tab, line feed, form feed, carriage return and space. -/
def isBlank (u : Nat) : Bool := u = 0x09 || u = 0x0A || u = 0x0C || u = 0x0D || u = 0x20

/-- Bytes in groups of six bits, the last of them filled with zeros. -/
def sextets : List UInt8 → List Nat
  | [] => []
  | [a] => [a.toNat / 4, a.toNat % 4 * 16]
  | [a, b] => [a.toNat / 4, a.toNat % 4 * 16 + b.toNat / 16, b.toNat % 16 * 4]
  | a :: b :: c :: rest =>
    a.toNat / 4 :: (a.toNat % 4 * 16 + b.toNat / 16) :: (b.toNat % 16 * 4 + c.toNat / 64) ::
      c.toNat % 64 :: sextets rest

/-- The bytes of groups of six bits. What is left of the last ones is dropped. -/
def octets : List Nat → List UInt8
  | v :: w :: x :: y :: rest =>
    UInt8.ofNat (v * 4 + w / 16) :: UInt8.ofNat (w % 16 * 16 + x / 4) ::
      UInt8.ofNat (x % 4 * 64 + y) :: octets rest
  | [v, w, x] => [UInt8.ofNat (v * 4 + w / 16), UInt8.ofNat (w % 16 * 16 + x / 4)]
  | [v, w] => [UInt8.ofNat (v * 4 + w / 16)]
  | _ => []

def digits (bytes : List UInt8) : List Nat := (sextets bytes).map symbol

def encode (bytes : List UInt8) : List Nat :=
  digits bytes ++ List.replicate ((3 - bytes.length % 3) % 3) pad

/-- Without the `=` at the end, if there is one. -/
def dropPad (text : List Nat) : List Nat :=
  if text.getLast? = some pad then text.dropLast else text

/-- Without one or two `=` at the end. -/
def unpad (text : List Nat) : List Nat := dropPad (dropPad text)

/-- Forgiving base64 decoding. -/
def decode (text : List Nat) : Option (List UInt8) :=
  let text := text.filter (!isBlank ·)
  let text := if text.length % 4 = 0 then unpad text else text
  if text.length % 4 = 1 then none else (text.mapM value).map octets

/-- `btoa`, which throws if a code unit is no byte. -/
def btoa (s : List Nat) : Option (List Nat) :=
  if s.all (· ≤ 0xFF) then some (encode (s.map UInt8.ofNat)) else none

def atob (s : List Nat) : Option (List Nat) := (decode s).map (·.map UInt8.toNat)

variable {bytes : List UInt8} {text : List Nat} {v : Nat}

/-- What is to know of the alphabet. -/
theorem symbol_spec : ∀ v < 64, value (symbol v) = some v ∧ symbol v ≠ pad ∧
    isBlank (symbol v) = false := by
  decide +kernel

theorem sextets_lt : ∀ v ∈ sextets bytes, v < 64 := by
  have hbyte : ∀ b : UInt8, b.toNat < 256 := UInt8.toNat_lt
  fun_induction sextets bytes with
  | case1 => simp
  | case2 a =>
    have := hbyte a
    simp only [List.mem_cons, List.not_mem_nil, or_false]
    omega
  | case3 a b =>
    have := hbyte a
    have := hbyte b
    simp only [List.mem_cons, List.not_mem_nil, or_false]
    omega
  | case4 a b c rest ih =>
    have := hbyte a
    have := hbyte b
    have := hbyte c
    simp only [List.mem_cons]
    intro v hv
    obtain rfl | rfl | rfl | rfl | hv := hv
    · omega
    · omega
    · omega
    · omega
    · exact ih v hv

theorem length_sextets : (sextets bytes).length = bytes.length + (bytes.length + 2) / 3 := by
  fun_induction sextets bytes with
  | case1 => rfl
  | case2 => simp
  | case3 => simp
  | case4 a b c rest ih =>
    simp only [List.length_cons, ih]
    omega

theorem ofNat_eq {n : Nat} {b : UInt8} (h : n = b.toNat) : UInt8.ofNat n = b := by
  rw [h, UInt8.ofNat_toNat]

/-- The groups of six bits are those of the bytes. -/
theorem octets_sextets : octets (sextets bytes) = bytes := by
  have hbyte : ∀ b : UInt8, b.toNat < 256 := UInt8.toNat_lt
  fun_induction sextets bytes with
  | case1 => rfl
  | case2 a =>
    rw [octets, ofNat_eq (by omega : _ = a.toNat)]
  | case3 a b =>
    have := hbyte b
    rw [octets, ofNat_eq (by omega : _ = a.toNat), ofNat_eq (by omega : _ = b.toNat)]
  | case4 a b c rest ih =>
    have := hbyte b
    have := hbyte c
    rw [octets, ofNat_eq (by omega : _ = a.toNat), ofNat_eq (by omega : _ = b.toNat),
      ofNat_eq (by omega : _ = c.toNat), ih]

theorem mem_digits {u : Nat} (h : u ∈ digits bytes) : u ≠ pad ∧ isBlank u = false := by
  obtain ⟨v, hv, rfl⟩ := List.mem_map.mp h
  exact (symbol_spec v (sextets_lt v hv)).2

theorem mapM_digits : (digits bytes).mapM value = some (sextets bytes) := by
  have hsymbols : ∀ vs : List Nat, (∀ v ∈ vs, v < 64) → (vs.map symbol).mapM value = some vs := by
    intro vs
    induction vs with
    | nil => exact fun _ => rfl
    | cons v vs ih =>
      intro hlt
      have hrest := ih fun w hw => hlt w (List.mem_cons_of_mem _ hw)
      simp [(symbol_spec v (hlt v List.mem_cons_self)).1, hrest]
  exact hsymbols _ fun _ hv => sextets_lt _ hv

theorem dropPad_concat : dropPad (text ++ [pad]) = text := by
  simp [dropPad]

theorem dropPad_of_not_mem (h : pad ∉ text) : dropPad text = text :=
  if_neg fun hlast => h (List.mem_of_getLast? hlast)

theorem unpad_append (h : pad ∉ text) {k : Nat} (hk : k ≤ 2) :
    unpad (text ++ List.replicate k pad) = text := by
  obtain rfl | rfl | rfl : k = 0 ∨ k = 1 ∨ k = 2 := by omega
  · rw [unpad, List.replicate_zero, List.append_nil, dropPad_of_not_mem h, dropPad_of_not_mem h]
  · rw [unpad, List.replicate_one, dropPad_concat, dropPad_of_not_mem h]
  · have htwo : text ++ List.replicate 2 pad = text ++ [pad] ++ [pad] := by simp
    rw [unpad, htwo, dropPad_concat, dropPad_concat]

/-- Digits are read with as many `=` as fill them up, or with none. -/
theorem decode_padded {k : Nat} (hk : k = 0 ∨ k = (3 - bytes.length % 3) % 3) :
    decode (digits bytes ++ List.replicate k pad) = some bytes := by
  have hpad : pad ∉ digits bytes := fun h => (mem_digits h).1 rfl
  have hblank : (digits bytes ++ List.replicate k pad).filter (!isBlank ·) =
      digits bytes ++ List.replicate k pad := by
    refine List.filter_eq_self.mpr fun u hu => ?_
    obtain hu | hu := List.mem_append.mp hu
    · rw [(mem_digits hu).2, Bool.not_false]
    · rw [List.eq_of_mem_replicate hu]
      rfl
  have hlength : (digits bytes).length = bytes.length + (bytes.length + 2) / 3 := by
    rw [digits, List.length_map, length_sextets]
  have hunpad : (if (digits bytes ++ List.replicate k pad).length % 4 = 0 then
      unpad (digits bytes ++ List.replicate k pad) else digits bytes ++ List.replicate k pad) =
        digits bytes := by
    split
    · exact unpad_append hpad (by omega)
    · rename_i hlen
      rw [List.length_append, List.length_replicate, hlength] at hlen
      obtain rfl : k = 0 := by omega
      rw [List.replicate_zero, List.append_nil]
  unfold decode
  rw [hblank]
  dsimp only
  rw [hunpad, if_neg (by omega), mapM_digits, Option.map_some, octets_sextets]

theorem decode_digits (bytes : List UInt8) : decode (digits bytes) = some bytes := by
  have h : decode (digits bytes ++ List.replicate 0 pad) = some bytes := decode_padded (Or.inl rfl)
  rwa [List.replicate_zero, List.append_nil] at h

theorem decode_encode (bytes : List UInt8) : decode (encode bytes) = some bytes :=
  decode_padded (Or.inr rfl)

/-- Without any `=` at the end, what is left are the digits. -/
theorem rdropWhile_encode (bytes : List UInt8) :
    (encode bytes).rdropWhile (· = pad) = digits bytes := by
  have hpads : ∀ k, (digits bytes ++ List.replicate k pad).rdropWhile (· = pad) = digits bytes := by
    intro k
    induction k with
    | zero =>
      rw [List.replicate_zero, List.append_nil, List.rdropWhile_eq_self_iff]
      exact fun hne => by simpa using (mem_digits (List.getLast_mem hne)).1
    | succ k ih =>
      rw [List.replicate_succ', ← List.append_assoc, List.rdropWhile_concat_pos _ _ _ (by simp), ih]
  exact hpads _

/-! ### Strings -/

theorem btoa_eq_some {s : List Nat} (h : ∀ u ∈ s, u ≤ 0xFF) :
    btoa s = some (encode (s.map UInt8.ofNat)) :=
  if_pos (List.all_eq_true.mpr fun u hu => decide_eq_true (h u hu))

/-- A string of bytes is read back from its digits. -/
theorem atob_digits {s : List Nat} (h : ∀ u ∈ s, u ≤ 0xFF) :
    atob (digits (s.map UInt8.ofNat)) = some s := by
  rw [atob, decode_digits, Option.map_some, List.map_map]
  refine congrArg some ((List.map_congr_left fun u hu => ?_).trans (List.map_id s))
  have hu := h u hu
  simpa using Nat.mod_eq_of_lt (Nat.lt_succ_of_le hu)

theorem atob_encode (bytes : List UInt8) : atob (encode bytes) = some (bytes.map UInt8.toNat) := by
  rw [atob, decode_encode, Option.map_some]

example : btoa ("fo".toList.map Char.toNat) = some ("Zm8=".toList.map Char.toNat) := by decide

end Base64

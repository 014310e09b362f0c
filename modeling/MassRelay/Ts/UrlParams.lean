import MassRelay.Lib.Base64
import MassRelay.Lib.Utf16

/-!
# MassRelay.Ts.UrlParams

The join codes of `ts/src/url-params.ts`: `base64url(relayUrl):sessionId`.

Strings are lists of their code units, for a session id may hold any. The code of a relay URL has no
colon, so the first one ends it, whatever the session id holds. Its `=` are not put back, and
`atob` does not need them.
-/

namespace MassRelay.Ts

open Utf16 (codeUnits)

/-- What a join code says. -/
structure JoinCode where
  relayUrl : List Nat
  sessionId : List Nat
  deriving DecidableEq

/-- `u`, or `new` if it is `old`. -/
def replaceUnit (old new : Char) (u : Nat) : Nat := if u = old.toNat then new.toNat else u

def encodeJoinCode (relayUrl sessionId : List Nat) : Option (List Nat) :=
  (Base64.btoa relayUrl).map fun encoded =>
    let encoded := ((encoded.map (replaceUnit '+' '-')).map (replaceUnit '/' '_')).rdropWhile
      (· = '='.toNat)
    encoded ++ ':'.toNat :: sessionId

/-- None if the code is malformed. -/
def decodeJoinCode (code : List Nat) : Option JoinCode :=
  match code.idxOf? ':'.toNat with
  | none => none
  | some colonIdx =>
    let b64 := code.take colonIdx
    let sessionId := code.drop (colonIdx + 1)
    if sessionId = [] then none
    else
      let padded := (b64.map (replaceUnit '-' '+')).map (replaceUnit '_' '/')
      (Base64.atob padded).map fun relayUrl => { relayUrl, sessionId }

variable {relayUrl sessionId : List Nat} {bytes : List UInt8}

/-- The digit of a URL for a digit. -/
def urlDigit (u : Nat) : Nat := replaceUnit '/' '_' (replaceUnit '+' '-' u)

/-- What is to know of the alphabet. -/
theorem urlDigit_spec : ∀ v < 64, urlDigit (Base64.symbol v) ≠ ':'.toNat ∧
    replaceUnit '_' '/' (replaceUnit '-' '+' (urlDigit (Base64.symbol v))) = Base64.symbol v := by
  decide +kernel

theorem urlDigit_eq_pad (u : Nat) : (urlDigit u = '='.toNat) ↔ u = Base64.pad := by
  unfold urlDigit replaceUnit Base64.pad
  split
  · simp_all
  · split <;> simp_all

/-- Only the digits are left of a relay URL. -/
theorem rdropWhile_urlDigit (bytes : List UInt8) :
    (((Base64.encode bytes).map (replaceUnit '+' '-')).map (replaceUnit '/' '_')).rdropWhile
      (· = '='.toNat) = (Base64.digits bytes).map urlDigit := by
  have hpad : ((fun u => decide (u = '='.toNat)) ∘ urlDigit) = fun u => decide (u = Base64.pad) :=
    funext fun u => decide_eq_decide.mpr (urlDigit_eq_pad u)
  rw [← Base64.rdropWhile_encode, List.map_map]
  change ((Base64.encode bytes).map urlDigit).rdropWhile _ = _
  rw [List.rdropWhile, ← List.map_reverse, List.dropWhile_map, hpad, ← List.map_reverse]
  rfl

theorem encodeJoinCode_eq (hlatin : ∀ u ∈ relayUrl, u ≤ 0xFF) (sessionId : List Nat) :
    encodeJoinCode relayUrl sessionId =
      some ((Base64.digits (relayUrl.map UInt8.ofNat)).map urlDigit ++
      ':'.toNat :: sessionId) := by
  rw [encodeJoinCode, Base64.btoa_eq_some hlatin, Option.map_some]
  dsimp only
  rw [rdropWhile_urlDigit]

theorem exists_sextet {u : Nat} (h : u ∈ Base64.digits bytes) : ∃ v < 64, Base64.symbol v = u := by
  obtain ⟨v, hv, rfl⟩ := List.mem_map.mp h
  exact ⟨v, Base64.sextets_lt v hv, rfl⟩

theorem colon_not_mem (bytes : List UInt8) : ':'.toNat ∉ (Base64.digits bytes).map urlDigit := by
  intro h
  obtain ⟨u, hu, heq⟩ := List.mem_map.mp h
  obtain ⟨v, hv, rfl⟩ := exists_sextet hu
  exact (urlDigit_spec v hv).1 heq

/-- The two substitutions are undone. -/
theorem map_urlDigit (bytes : List UInt8) :
    (((Base64.digits bytes).map urlDigit).map (replaceUnit '-' '+')).map (replaceUnit '_' '/') =
      Base64.digits bytes := by
  rw [List.map_map, List.map_map]
  refine (List.map_congr_left fun u hu => ?_).trans (List.map_id _)
  obtain ⟨v, hv, rfl⟩ := exists_sextet hu
  exact (urlDigit_spec v hv).2

/-- A code is split at its first colon. -/
theorem decodeJoinCode_append {b64 : List Nat} (hcolon : ':'.toNat ∉ b64) (hid : sessionId ≠ []) :
    decodeJoinCode (b64 ++ ':'.toNat :: sessionId) =
      (Base64.atob ((b64.map (replaceUnit '-' '+')).map (replaceUnit '_' '/'))).map
        fun relayUrl => { relayUrl, sessionId } := by
  have hfirst : (b64 ++ ':'.toNat :: sessionId).idxOf? ':'.toNat = some b64.length := by
    have hnone : b64.findIdx? (· == ':'.toNat) = none :=
      List.findIdx?_eq_none_iff.mpr fun u hu => beq_false_of_ne fun heq => hcolon (heq ▸ hu)
    rw [List.idxOf?, List.findIdx?_append, hnone]
    simp [List.findIdx?_cons]
  have hlength : b64.length + 1 = (b64 ++ [':'.toNat]).length := by simp
  have hrest : (b64 ++ ':'.toNat :: sessionId).drop (b64.length + 1) = sessionId := by
    rw [List.append_cons, hlength, List.drop_left]
  rw [decodeJoinCode, hfirst]
  dsimp only
  rw [hrest, if_neg hid, List.take_left]

/-- What a join code was made of is read back from it, so no two pairs have the same one. -/
theorem joinCode_roundTrip (hlatin : ∀ u ∈ relayUrl, u ≤ 0xFF) (hid : sessionId ≠ []) :
    (encodeJoinCode relayUrl sessionId).bind decodeJoinCode = some { relayUrl, sessionId } ∧
    ∀ relayUrl' sessionId', (∀ u ∈ relayUrl', u ≤ 0xFF) → sessionId' ≠ [] →
      encodeJoinCode relayUrl' sessionId' = encodeJoinCode relayUrl sessionId →
        relayUrl' = relayUrl ∧ sessionId' = sessionId := by
  have hread : ∀ {relayUrl sessionId}, (∀ u ∈ relayUrl, u ≤ 0xFF) → sessionId ≠ [] →
      (encodeJoinCode relayUrl sessionId).bind decodeJoinCode = some { relayUrl, sessionId } := by
    intro relayUrl sessionId hlatin hid
    rw [encodeJoinCode_eq hlatin, Option.bind_some, decodeJoinCode_append (colon_not_mem _) hid,
      map_urlDigit, Base64.atob_digits hlatin, Option.map_some]
  refine ⟨hread hlatin hid, fun relayUrl' sessionId' hlatin' hid' heq => ?_⟩
  have hsame := (hread hlatin' hid').symm.trans (heq ▸ hread hlatin hid)
  exact JoinCode.mk.inj (Option.some.inj hsame)

/-- A session id with colons, and a relay URL whose length is no multiple of three. -/
theorem joinCode_roundTrip_colons :
    (encodeJoinCode (codeUnits "wss://r?") (codeUnits ":a:b")).bind decodeJoinCode =
      some { relayUrl := codeUnits "wss://r?", sessionId := codeUnits ":a:b" } :=
  (joinCode_roundTrip (by decide) (by decide)).1

end MassRelay.Ts

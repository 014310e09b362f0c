import Mathlib.Data.List.Infix
import MassRelay.Models

/-!
# MassRelay.Services.Identity

What a connection authenticated as, and which sessions it may join
(`services/identity.go`).

`Principal.rooms` limits a connection when it is non-empty: each entry is a
session id, or a prefix ending in `*`. `allowsRoom` is the test the relay makes;
`Covers` is what an entry means, in terms of the strings alone, and
`allowsRoom_iff` says that the two agree.

Go compares strings by bytes. Every string that reaches these functions is valid
UTF-8, where a byte prefix or suffix at a character boundary is one of the
characters, so the tests are stated on `String.toList`.
-/

namespace MassRelay

/-- What a connection authenticated as, from its validated token. -/
structure Principal where
  subject : String
  clientID : String
  rooms : List String
  deriving DecidableEq

/-- A request context, as far as the service reads it: the `Principal` attached
by `WithPrincipal`, or `none` for an anonymous connection. -/
abbrev Ctx := Option Principal

/-- `strings.CutSuffix`. -/
def cutSuffix (s suffix : String) : Option String :=
  if suffix.toList <:+ s.toList then
    some (String.ofList (s.toList.take (s.toList.length - suffix.toList.length)))
  else none

/-- `strings.HasPrefix`. -/
def hasPrefix (s pre : String) : Bool := pre.toList.isPrefixOf s.toList

/-- The test of one entry of `rooms`: a trailing `*` makes it a prefix. -/
def entryAllows (r sessionId : String) : Bool :=
  match cutSuffix r "*" with
  | some pre => hasPrefix sessionId pre
  | none => r == sessionId

/-- `(p *Principal) AllowsRoom`. -/
def allowsRoom (p : Ctx) (sessionId : String) : Bool :=
  match p with
  | none => true
  | some p =>
    if p.rooms.isEmpty then true
    else if sessionId == "" then false
    else p.rooms.any (entryAllows · sessionId)

/-- `(p *Principal) identity`. -/
def identity (p : Ctx) : Option PeerIdentity :=
  match p with
  | none => none
  | some p => if p.subject = "" then none else some ⟨p.subject, p.clientID⟩

/-! ### What an entry means -/

/-- Some entry equals the session id, or is a prefix of it followed by `*`. -/
def Covers (entries : List String) (sessionId : String) : Prop :=
  ∃ r ∈ entries, r = sessionId ∨ ∃ pre, r = pre ++ "*" ∧ pre.toList <+: sessionId.toList

/-- Cutting a suffix off succeeds exactly on the strings that end in it. -/
theorem cutSuffix_eq_some {s suffix pre : String} :
    cutSuffix s suffix = some pre ↔ s = pre ++ suffix := by
  unfold cutSuffix
  constructor
  · intro h
    split at h
    · rename_i hsuf
      obtain ⟨front, hfront⟩ := hsuf
      obtain rfl := Option.some.inj h
      apply String.toList_injective
      simp [← hfront]
    · simp at h
  · rintro rfl
    simp

theorem cutSuffix_eq_none {s suffix : String} :
    cutSuffix s suffix = none ↔ ∀ pre, s ≠ pre ++ suffix := by
  rw [Option.eq_none_iff_forall_ne_some]
  exact forall_congr' fun pre => not_congr cutSuffix_eq_some

theorem hasPrefix_iff {s pre : String} : hasPrefix s pre = true ↔ pre.toList <+: s.toList :=
  List.isPrefixOf_iff_prefix

/-- The test of one entry is what the entry means. -/
theorem entryAllows_iff {r sessionId : String} :
    entryAllows r sessionId = true ↔
      r = sessionId ∨ ∃ pre, r = pre ++ "*" ∧ pre.toList <+: sessionId.toList := by
  unfold entryAllows
  cases hcut : cutSuffix r "*" with
  | some pre =>
    obtain rfl := cutSuffix_eq_some.mp hcut
    constructor
    · intro h
      exact Or.inr ⟨pre, rfl, hasPrefix_iff.mp h⟩
    · rintro (rfl | ⟨pre', hpre, hprefix⟩)
      -- an entry `pre*` that is the session id itself is also covered by its prefix
      · exact hasPrefix_iff.mpr (by simp)
      · obtain rfl : pre = pre' := by simpa using hpre
        exact hasPrefix_iff.mpr hprefix
  | none =>
    have hnot := cutSuffix_eq_none.mp hcut
    constructor
    · intro h
      exact Or.inl (by simpa using h)
    · rintro (rfl | ⟨pre, rfl, -⟩)
      · simp
      · exact absurd rfl (hnot pre)

/-- A restricted principal allows exactly the non-empty sessions its entries
cover; an anonymous or unrestricted one allows every session. -/
theorem allowsRoom_iff {p : Principal} {sessionId : String} :
    allowsRoom (some p) sessionId = true ↔
      p.rooms = [] ∨ (sessionId ≠ "" ∧ Covers p.rooms sessionId) := by
  unfold allowsRoom
  by_cases hrooms : p.rooms = []
  · simp [hrooms]
  · by_cases hsid : sessionId = ""
    · simp [hrooms, hsid]
    · simp [hrooms, hsid, Covers, entryAllows_iff]

end MassRelay

import Mathlib.Algebra.GroupWithZero.Nat
import MassRelay.Server.Stream
import MassRelay.Ts.CollabEngine

/-!
# MassRelay.Ts.Network

Any number of engines, each over its client, and the relay that they share.

The relay is the one of `MassRelay.Server.Stream`, whose goroutines and streams go on as they
like, also for clients without an engine. A `Wiring` says which stream serves which socket. What a
client sends on a socket reaches the `Send` of its stream in that order, and what the stream's
`Recv` returned reaches the client in that order (`step`). So a move of the network is a move of
one engine or of the relay, and what holds of every engine after its own moves holds of all of
them throughout a run of the network (`throughout_iff`).
-/

namespace MassRelay.Ts

/-- The streams that serve the sockets of the clients. -/
structure Wiring (ι : Type) where
  stream : ι → Nat → Nat
  socket : Nat → Option (ι × Nat)
  socket_eq_some : ∀ i x k, socket i = some (x, k) ↔ stream x k = i

structure Network (ι : Type) where
  relay : System
  engine : ι → CollabEngine
  /-- How many of the actions on a socket the relay has taken. -/
  taken : ι → Nat → Nat := fun _ _ => 0
  /-- How many of the events of its stream a socket has delivered. -/
  delivered : ι → Nat → Nat := fun _ _ => 0

inductive NetworkMove (ι : Type)
  /-- A move of an engine, other than to be delivered an event. -/
  | engine (x : ι) (move : EngineMove)
  | deliver (x : ι) (socket : Nat)
  | relay (move : MassRelay.Move)

/-- The actions that a client sent on a socket. -/
def CollabClient.actions (c : CollabClient) (socket : Nat) : List Action :=
  c.asked.filterMap fun
    | .send k action => if k = socket then some action else none
    | _ => none

def EngineMove.isMessage : EngineMove → Bool
  | .job (.message ..) => true
  | _ => false

/-- What the engines of a network run on. -/
structure Surroundings (ι : Type) where
  wiring : Wiring ι
  uuids : UuidSource
  streamConfig : Nat → StreamConfig
  document : ι → Document

namespace Network

variable {ι : Type} [DecidableEq ι] (w : Surroundings ι) (s : Network ι)

/-- The stream and the action that a move of the relay takes from a client. -/
def takes : MassRelay.Move → Option (ι × Nat × Option Action)
  | .launch (.send i a) => (w.wiring.socket i).map fun (x, k) => (x, k, a.action)
  | _ => none

/-- The event that a socket has to deliver next. -/
def nextEvent (x : ι) (socket : Nat) : Option CollabEvent :=
  ((s.relay.shared.streams (w.wiring.stream x socket)).returned[s.delivered x socket]?).map
    (·.event)

def moveEngine (x : ι) (move : EngineMove) : Option (Network ι) :=
  ((s.engine x).step (w.document x) move).map fun e =>
    { s with engine := Function.update s.engine x e }

/-- One more of a socket. -/
def advance (count : ι → Nat → Nat) (x : ι) (socket : Nat) : ι → Nat → Nat :=
  fun y k => if y = x ∧ k = socket then count y k + 1 else count y k

def step : NetworkMove ι → Option (Network ι)
  | .engine x move => if move.isMessage then none else s.moveEngine w x move
  | .deliver x socket =>
    (s.nextEvent w x socket).bind fun event =>
      (s.moveEngine w x (.job (.message socket event))).map fun s =>
        { s with delivered := advance s.delivered x socket }
  | .relay move =>
    match takes w move with
    | none => (System.step w.uuids w.streamConfig s.relay move).map fun relay => { s with relay }
    | some (x, socket, action) =>
      if (((s.engine x).client.actions socket)[s.taken x socket]?).map some = some action then
        (System.step w.uuids w.streamConfig s.relay move).map fun relay =>
          { s with relay, taken := advance s.taken x socket }
      else none

/-- The engine that moves, and its move. -/
def engineMove : NetworkMove ι → Option (ι × EngineMove)
  | .engine x move => some (x, move)
  | .deliver x socket => (s.nextEvent w x socket).map fun event => (x, .job (.message socket event))
  | .relay _ => none

/-- A condition on the moves of engines. -/
def EngineGuard (G : CollabEngine → EngineMove → Prop) (s : Network ι) (m : NetworkMove ι) : Prop :=
  ∀ x move, s.engineMove w m = some (x, move) → G (s.engine x) move

instance {G : CollabEngine → EngineMove → Prop} [∀ e m, Decidable (G e m)] (s : Network ι)
    (m : NetworkMove ι) : Decidable (EngineGuard w G s m) :=
  match h : s.engineMove w m with
  | none => isTrue fun x move hmove => by simp [h] at hmove
  | some (x, move) =>
    decidable_of_iff (G (s.engine x) move) ⟨fun hG x' move' hmove => by
      obtain ⟨rfl, rfl⟩ := Prod.mk.inj (Option.some.inj (h.symm.trans hmove))
      exact hG, fun hG => hG x move h⟩

/-- A relay that was just started, and engines that have not connected yet. -/
def start (maxPeers : Int) (engine : ι → CollabClientOptions × Nat × Option Nat) : Network ι where
  relay := System.init maxPeers
  engine x := .start (engine x).1 (engine x).2.1 (engine x).2.2

variable {w s} {s' : Network ι} {m : NetworkMove ι}

/-- At most one engine moves, by a move of its own. -/
theorem step_cases (h : s.step w m = some s') :
    (∃ x move e, s.engineMove w m = some (x, move) ∧
      (s.engine x).step (w.document x) move = some e ∧ s'.engine = Function.update s.engine x e) ∨
    s.engineMove w m = none ∧ s'.engine = s.engine := by
  cases m with
  | engine x move =>
    obtain ⟨-, hmove⟩ := Option.ite_none_left_eq_some.mp h
    obtain ⟨e, he, rfl⟩ := Option.map_eq_some_iff.mp hmove
    exact Or.inl ⟨x, move, e, rfl, he, rfl⟩
  | deliver x socket =>
    obtain ⟨event, hevent, hdeliver⟩ := Option.bind_eq_some_iff.mp h
    obtain ⟨s₁, hmove, rfl⟩ := Option.map_eq_some_iff.mp hdeliver
    obtain ⟨e, he, rfl⟩ := Option.map_eq_some_iff.mp hmove
    exact Or.inl ⟨x, _, e, by rw [engineMove, hevent, Option.map_some], he, rfl⟩
  | relay move =>
    refine Or.inr ⟨rfl, ?_⟩
    simp only [step] at h
    split at h
    · obtain ⟨relay, -, rfl⟩ := Option.map_eq_some_iff.mp h
      rfl
    · obtain ⟨-, hmove⟩ := Option.ite_none_right_eq_some.mp h
      obtain ⟨relay, -, rfl⟩ := Option.map_eq_some_iff.mp hmove
      rfl

/-- What the guarded moves of an engine keep of it, the guarded moves of the network keep of all
engines. -/
theorem step_keeps {I : CollabEngine → Prop} {G : CollabEngine → EngineMove → Prop}
    (hkeeps : ∀ doc e m e', I e → G e m → e.step doc m = some e' → I e')
    (hI : ∀ x, I (s.engine x)) (hG : EngineGuard w G s m) (h : s.step w m = some s') (x : ι) :
    I (s'.engine x) := by
  obtain ⟨y, move, e, hmove, he, hengine⟩ | ⟨-, hengine⟩ := step_cases h
  · rw [hengine]
    by_cases hx : x = y
    · subst hx
      rw [Function.update_self]
      exact hkeeps _ _ _ _ (hI x) (hG x move hmove) he
    · rw [Function.update_of_ne hx]
      exact hI x
  · rw [hengine]
    exact hI x

/-- What is true of each engine exactly after its moves of a kind is true of all engines
throughout a run exactly when all of their moves are of that kind. -/
theorem throughout_iff {I P : CollabEngine → Prop} {G : CollabEngine → EngineMove → Prop}
    (hP : ∀ e, I e → P e)
    (hkeeps : ∀ doc e m e', I e → G e m → e.step doc m = some e' → I e')
    (hbreaks : ∀ doc e m e', I e → e.step doc m = some e' → P e' → G e m)
    {t : Network ι} {ms : List (NetworkMove ι)} (hs : ∀ x, I (s.engine x))
    (h : Machine.exec (step w) s ms = some t) :
    Machine.Throughout (step w) (fun s => ∀ x, P (s.engine x)) s ms ↔
      Machine.Guarded (step w) (EngineGuard w G) s ms := by
  refine Machine.throughout_iff_guarded (I := fun s => ∀ x, I (s.engine x))
    (fun s hI x => hP _ (hI x)) (fun s m s' hI hG hstep => step_keeps hkeeps hI hG hstep) ?_ hs h
  intro s m s' hI hstep hP' x move hmove
  obtain ⟨y, move', e, hmove', he, hengine⟩ | ⟨hnone, -⟩ := step_cases hstep
  · obtain ⟨rfl, rfl⟩ := Prod.mk.inj (Option.some.inj (hmove.symm.trans hmove'))
    refine hbreaks _ _ _ _ (hI x) he ?_
    have := hP' x
    rwa [hengine, Function.update_self] at this
  · simp [hnone] at hmove

end Network

/-! ### A network to try -/

/-- The streams in turns: one for the first socket of each engine, one for the second of each. -/
def Wiring.inTurns (n : Nat) [NeZero n] : Wiring (Fin n) where
  stream x k := n * k + x
  socket i := some (Fin.ofNat n i, i / n)
  socket_eq_some i x k := by
    simp only [Option.some.injEq, Prod.mk.injEq, Fin.ext_iff, Fin.val_ofNat]
    constructor
    · rintro ⟨hx, rfl⟩
      rw [← hx, Nat.div_add_mod]
    · rintro rfl
      rw [Nat.mul_add_mod, Nat.mod_eq_of_lt x.isLt, Nat.mul_add_div (Nat.pos_of_neZero n),
        Nat.div_eq_of_lt x.isLt]
      exact ⟨rfl, rfl⟩

def Surroundings.plain (n : Nat) [NeZero n] : Surroundings (Fin n) where
  wiring := .inTurns n
  uuids := .unary
  streamConfig _ := {}
  document _ := .blank

namespace Network

variable {n : Nat}

/-- The relay takes an action from the first socket of an engine, and comes to its end. -/
def handle (x : Fin n) (action : Action) (steps : Nat) : List (NetworkMove (Fin n)) :=
  .relay (.launch (.send x { action := some action })) ::
    List.replicate steps (.relay (.run (.send x) 0))

/-- The first socket of an engine gets its next event. -/
def hear (x : Fin n) : List (NetworkMove (Fin n)) := [.relay (.launch (.recv x)), .deliver x 0]

/-- The bridge of its client passes on an event, and the engine hears it. -/
def pass (x : Fin n) (client : String) : List (NetworkMove (Fin n)) :=
  .relay (.launch (.bridge x client .chan)) :: .relay (.launch (.bridge x client .chan)) :: hear x

/-- An engine joins over its first socket, and hears of it. -/
def join (x : Fin n) (params : ConnectArgs) (steps : Nat) : List (NetworkMove (Fin n)) :=
  [.engine x (.call (.connect params)), .engine x (.job (.opened 0))] ++
    handle x (.join (({} : CollabClient).connect params).joinAction) steps ++ hear x

end Network

end MassRelay.Ts

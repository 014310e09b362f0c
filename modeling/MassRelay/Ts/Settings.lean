import MassRelay.Services.OwnerSettings
import MassRelay.Services.Welcome
import MassRelay.Ts.Replica

/-!
# MassRelay.Ts.Settings

The title and the encryption flag of a room, on the relay and at its clients.

A client takes both from its `RoomJoined` and then follows `TitleChanged` alone. So its copy
is out of date when the encryption flag goes down (the `CredentialsChanged` that says so is
passed on to the page, and `roomEncrypted` is left as it was) or up, when a join gives the
room its first title, and, at the client that renames the room, after its own
`TitleChanged`, which does not come back to it. `UnheardSetting` says which requests do
this. The copies agree with the relay all along exactly when none of them comes
(`settings_run_iff`).
-/

namespace MassRelay.Ts

open CollabService Ts.CollabClient

variable {u : UuidSource} {s s' : CollabService} {r : RoomRef} {c : String} {req : Request}

/-- A client that handles its answer and these events has the settings of the room. -/
def Settings (w : RoomJoined) (es : List Event) (v : RoomView) : Prop :=
  ∀ before : CollabClient, let replica := es.foldl after (before.after (.roomJoined w))
    replica.title = v.title ∧ replica.roomEncrypted = v.encrypted

/-- A join that is accepted declares the room encrypted, or gives it its title. -/
def Sets (join : JoinRoom) (v : RoomView) : Prop :=
  (join.isOwner = true ∧ join.encrypted = true ∧ v.encrypted = false) ∨
    (v.title = "" ∧ join.title ≠ "")

/-- The settings change, and nothing that client `c` is told makes it follow. -/
def Misses (v : RoomView) (c : String) : Happening → Prop
  | .relayed _ (.credentialsChanged cc) => cc.reason = "password_removed" ∧ v.encrypted = true
  | .relayed x (.titleChanged tc) => c = x ∧ tc.title ≠ v.title
  | .declared => v.encrypted = false
  | .joined _ join => Sets join v
  | _ => False

/-- A request that changes the settings of a room, with a client there that keeps up and does
not follow. -/
def UnheardSetting (u : UuidSource) (s : CollabService) : Request → Prop
  | .handle _ _ { clientId := x, action := some (.credentialsChanged cc), .. } _ =>
    cc.reason = "password_removed" ∧ ∃ r, s.findRoomForClient x = some r ∧
      (s.roomAt r).encrypted = true ∧ ∃ c ∈ (s.roomAt r).clients,
        (s.clientAt c).slow = false ∧ (c ≠ x → (s.clientAt c).sendCh.buf.length < 64)
  | .handle _ _ { clientId := x, action := some (.titleChanged tc), .. } _ =>
    ∃ r, s.findRoomForClient x = some r ∧ tc.title ≠ (s.roomAt r).title ∧
      (s.clientAt x).slow = false
  | .handle _ ctx { action := some (.join join), .. } _ =>
    allowsRoom ctx join.sessionId = true ∧
      ∃ r, s.getRoomByID (s.joinTarget u join) = some r ∧ ∃ c ∈ (s.roomAt r).clients,
        (s.clientAt c).slow = false ∧
        -- a declaration is silent even when its join is refused
        ((s.refuses join r = true ∧ s.declares join r = true ∧ (s.roomAt r).encrypted = false) ∨
          (s.refuses join r = false ∧ Sets join (s.view r) ∧
            (s.clientAt c).sendCh.buf.length < 64))
  | _ => False

/-! ### Events and settings -/

/-- Of what a room relays for a client, only a `TitleChanged` is about the settings. -/
theorem after_fanOut {action : Action} {e : Event} (h : action.fanOut = some e)
    (cl : CollabClient) : (cl.after e).roomEncrypted = cl.roomEncrypted ∧
      ((∀ tc, action ≠ .titleChanged tc) → (cl.after e).title = cl.title) := by
  cases action with
  | titleChanged tc =>
    obtain rfl := Option.some.inj h
    exact ⟨rfl, fun htitle => absurd rfl (htitle tc)⟩
  | appMessage am =>
    simp only [Action.fanOut] at h
    split at h
    · obtain rfl := Option.some.inj h
      exact ⟨rfl, fun _ => rfl⟩
    · simp at h
  | join _ | leave _ => simp [Action.fanOut] at h
  | _ =>
    obtain rfl := Option.some.inj h
    exact ⟨rfl, fun _ => rfl⟩

theorem told_relayed (v : RoomView) (x : String) (action : Action) (cl : CollabClient) :
    let replica := ((Happening.relayed x action).told v c).foldl after cl
    replica.roomEncrypted = cl.roomEncrypted ∧
      ((∀ tc, action ≠ .titleChanged tc) → replica.title = cl.title) := by
  simp only [Happening.told]
  split
  · exact ⟨rfl, fun _ => rfl⟩
  · cases hevent : action.fanOut with
    | none => exact ⟨rfl, fun _ => rfl⟩
    | some e => exact after_fanOut hevent cl

/-- A copy that is right stays right, unless its client misses something. -/
theorem told_settings_iff {h : Happening} {v : RoomView} {cl : CollabClient}
    (hc : c ∈ (h.apply v).clients) (htitle : cl.title = v.title)
    (henc : cl.roomEncrypted = v.encrypted) :
    (((h.told v c).foldl after cl).title = (h.apply v).title ∧
      ((h.told v c).foldl after cl).roomEncrypted = (h.apply v).encrypted) ↔ ¬ Misses v c h := by
  cases h with
  | messages told =>
    have hsame : (told c).foldl (fun cl msg => cl.after (.appMessage msg)) cl = cl :=
      List.foldl_fixed' (fun _ => rfl) _
    rw [Happening.told, List.foldl_map, hsame]
    exact iff_of_true ⟨htitle, henc⟩ not_false
  | relayed x action =>
    obtain ⟨hencrypted, hkept⟩ := told_relayed (c := c) v x action cl
    rw [hencrypted, henc]
    cases action with
    | titleChanged tc =>
      -- the sender is not told of its own title
      by_cases hx : c = x
      · simp [Happening.told, Happening.apply, Misses, hx, htitle, eq_comm]
      · simp [Happening.told, Happening.apply, Misses, hx, Action.fanOut, after_titleChanged]
    | credentialsChanged cc =>
      -- the client does not take the flag from this event
      rw [hkept (by simp), htitle]
      cases henc' : v.encrypted <;> simp [Happening.apply, Misses, henc']
    | _ =>
      rw [hkept (by simp), htitle]
      exact iff_of_true ⟨rfl, rfl⟩ not_false
  | declared => simp [Happening.told, Happening.apply, Misses, htitle, henc]
  | joined peer join =>
    rw [Happening.told, List.foldl_cons, List.foldl_nil, after_peerJoined, setPeer_eq]
    simp only [htitle, henc, Happening.apply, Misses, Sets]
    -- a join tells the others of the peer only, not of what it set
    by_cases htitle' : v.title = ""
    · cases v.encrypted <;> simp [htitle', and_comm, eq_comm (a := "")]
    · cases v.encrypted <;> simp [htitle']
  | left x reason =>
    refine iff_of_true ?_ not_false
    rw [Happening.told]
    split <;> exact ⟨htitle, henc⟩
  | moved x reason successor =>
    refine iff_of_true ?_ not_false
    rw [Happening.told]
    split <;> exact ⟨htitle, henc⟩
  | ended x => simp [Happening.apply] at hc

/-- A client that misses something has its copy wrong afterwards. -/
theorem not_agrees_of_misses {ws more : List (JoinRoom × RoomJoined)} {h : Happening}
    (hws : Recorded u s ws) (hsettings : Agrees Settings s ws) (hdoes : Happened s s' r h)
    (hc : c ∈ (s.roomAt r).clients) (hslow : (s.clientAt c).slow = false)
    (hlen : (h.told (s.view r) c).length ≤ 1)
    (hfree : h.told (s.view r) c ≠ [] → (s.clientAt c).sendCh.buf.length < 64)
    (hstays : c ∈ (h.apply (s.view r)).clients) (hmisses : Misses (s.view r) c h) :
    ¬ Agrees Settings s' (ws ++ more) := by
  intro hafter
  obtain ⟨p, hp, rfl⟩ := hws.member r c hc
  have hhears := hdoes.hears _ hc
  have hslow' := (hhears.slow_iff hlen).mpr ⟨hslow, hfree⟩
  obtain ⟨htitle, henc⟩ := hsettings p hp r hc hslow {}
  have hstays' : p.2.clientId ∈ (s'.roomAt r).clients := by
    change p.2.clientId ∈ (s'.view r).clients
    rwa [hdoes.view]
  have hnew := hafter p (List.mem_append_left _ hp) r hstays' hslow' {}
  rw [(hhears.kept hslow').2.1, List.foldl_append, hdoes.view] at hnew
  exact (told_settings_iff hstays htitle henc).mp hnew hmisses

/-! ### One request -/

theorem settings_welcomed {join : JoinRoom} {w : RoomJoined} (hw : Welcomed u s s' r join w) :
    Settings w [] (s'.view r) := by
  intro before
  obtain ⟨k, -, hk⟩ := hw.issued
  obtain ⟨peers, heq, -⟩ := after_roomJoined before w (hk ▸ u.new_ne_empty k) hw.peers
  rw [List.foldl_nil, heq, hw.title, hw.encrypted]
  exact ⟨rfl, rfl⟩

/-- Something that a client misses comes of such a request. -/
theorem unheardSetting_of_misses {h : Happening} (hhappens : Happens u s r req h)
    (hc : c ∈ (s.roomAt r).clients) (hslow : (s.clientAt c).slow = false)
    (hfree : h.told (s.view r) c ≠ [] → (s.clientAt c).sendCh.buf.length < 64)
    (hmisses : Misses (s.view r) c h) : UnheardSetting u s req := by
  cases hhappens with
  | messages req told => exact hmisses.elim
  | relayed g ctx actionId x action pick event hfind hevent =>
    cases action with
    | credentialsChanged cc =>
      obtain ⟨hreason, henc⟩ := hmisses
      refine ⟨hreason, r, hfind, henc, c, hc, hslow, fun hx => hfree ?_⟩
      simp [Happening.told, hx, Action.fanOut]
    | titleChanged tc =>
      obtain ⟨rfl, htitle⟩ := hmisses
      exact ⟨r, hfind, htitle, hslow⟩
    | _ => exact hmisses.elim
  | declared g ctx actionId clientId join pick hallows hr hrefuse hdeclares =>
    exact ⟨hallows, r, hr, c, hc, hslow, Or.inl ⟨hrefuse, hdeclares, hmisses⟩⟩
  | joined g ctx actionId clientId join pick peer hallows hr haccept hpeer hne =>
    exact ⟨hallows, r, hr, c, hc, hslow,
      Or.inr ⟨haccept, hmisses, hfree (List.cons_ne_nil _ _)⟩⟩
  | left g ctx actionId x leave pick hfind => exact hmisses.elim
  | moved g ctx actionId x leave pick successor hfind => exact hmisses.elim
  | ended g ctx actionId x leave pick hfind => exact hmisses.elim

theorem settings_serve_iff {ws : List (JoinRoom × RoomJoined)} (hs : RoomInv u s)
    (hopen : ChansOpen s) (hws : Recorded u s ws) (hsettings : Agrees Settings s ws)
    (req : Request) : Agrees Settings (s.serve u req) (ws ++ (s.joinAnswer u req).toList) ↔
      ¬ UnheardSetting u s req := by
  constructor
  · intro hafter hunheard
    unfold UnheardSetting at hunheard
    split at hunheard
    · rename_i g ctx actionId x cc pick
      obtain ⟨hreason, r, hfind, henc, c, hc, hslow, hfree⟩ := hunheard
      have hdoes : Does u s _ r (.relayed x (.credentialsChanged cc)) :=
        fanOut_does (g := g) hs.wf hopen hfind rfl rfl rfl
      refine not_agrees_of_misses hws hsettings hdoes.toHappened hc hslow ?_ ?_ hc ⟨hreason, henc⟩
        hafter
      · simp only [Happening.told]
        split <;> simp [Action.fanOut]
      · intro htold
        refine hfree fun hx => htold ?_
        rw [Happening.told, if_pos hx]
    · rename_i g ctx actionId x tc pick
      obtain ⟨r, hfind, htitle, hslow⟩ := hunheard
      have hdoes : Does u s _ r (.relayed x (.titleChanged tc)) :=
        fanOut_does (g := g) hs.wf hopen hfind rfl rfl rfl
      have hc := (findRoomForClient_eq_some hfind).2
      refine not_agrees_of_misses hws hsettings hdoes.toHappened hc hslow ?_ ?_ hc ⟨rfl, htitle⟩
        hafter
      · simp [Happening.told]
      · simp [Happening.told]
    · rename_i g ctx actionId clientId join pick
      obtain ⟨hallows, r, hr, c, hc, hslow, ⟨hrefuse, hdeclares, henc⟩ | ⟨haccept, hsets, hfree⟩⟩ :=
        hunheard
      · have hdoes := handleJoin_declared (u := u) g hallows hr hrefuse hdeclares
        exact not_agrees_of_misses hws hsettings hdoes.toHappened hc hslow (Nat.zero_le _)
          (fun h => absurd rfl h) hc henc hafter
      · obtain ⟨peer, -, -, hdoes⟩ := handleJoin_joined g hs.wf hopen hallows hr haccept
        exact not_agrees_of_misses hws hsettings hdoes.toHappened hc hslow le_rfl
          (fun _ => hfree) (List.mem_insert_of_mem hc) hsets hafter
    · exact hunheard
  -- a request that changes nothing unheard leaves each copy right
  · intro hheard
    refine Agrees.serve hs hopen hws hsettings (fun r join w hw => settings_welcomed hw) ?_
    intro r h w es hhappens hc hslow hfree hstays hP before
    rw [List.foldl_append]
    obtain ⟨htitle, henc⟩ := hP before
    refine (told_settings_iff hstays htitle henc).mpr fun hmisses => ?_
    exact hheard (unheardSetting_of_misses hhappens hc hslow hfree hmisses)

/-- In every run, the clients that keep up have the title and the encryption flag of their room
in all of its states exactly when no request changes these unheard. -/
theorem settings_run_iff (u : UuidSource) (maxPeers : Int) (reqs : List Request) :
    (∀ pre, pre <+: reqs → Agrees Settings (serveAll u (newCollabService maxPeers) pre)
      (welcomes u (newCollabService maxPeers) pre)) ↔
    ∀ pre req, pre ++ [req] <+: reqs →
      ¬ UnheardSetting u (serveAll u (newCollabService maxPeers) pre) req := by
  refine History.forall_prefix_iff ?_ fun pre req hsettings => ?_
  · intro p hp
    simp [welcomes] at hp
  · rw [welcomes_append, serveAll, List.foldl_append]
    exact settings_serve_iff (.serveAll maxPeers pre) (.serveAll maxPeers pre)
      (.serveAll maxPeers pre) hsettings req

/-- The owner removes the password, and the viewer takes the room for encrypted. -/
theorem passwordRemoved_stale : ¬ Agrees Settings
    (serveAll .unary (newCollabService 10) [capableS1 true, capableS1 false, removePassword "u"])
    (welcomes .unary (newCollabService 10)
      [capableS1 true, capableS1 false, removePassword "u"]) := by
  intro h
  have hviewer : ∃ p ∈ welcomes .unary (newCollabService 10)
      [capableS1 true, capableS1 false, removePassword "u"],
      let s := serveAll .unary (newCollabService 10)
        [capableS1 true, capableS1 false, removePassword "u"]
      p.2.clientId ∈ (s.roomAt 0).clients ∧ (s.clientAt p.2.clientId).slow = false ∧
        ((s.heard p.2.clientId).foldl after
          (CollabClient.after {} (.roomJoined p.2))).roomEncrypted ≠
          (s.view 0).encrypted := by
    decide
  obtain ⟨p, hp, hc, hslow, hne⟩ := hviewer
  exact hne (h p hp 0 hc hslow {}).2

end MassRelay.Ts

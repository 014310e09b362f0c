import Mathlib.Data.List.AList
import MassRelay.Server.Stream

/-!
# MassRelay.Server.AuthKeys

The signing keys of the relay (`web/server/authkeys.go`): the keys file, and which of the two
sources of keys the environment names.

The file is read entry by entry, each checked against those before it, and the first that is at
fault ends the start of the relay (`AuthKey.complaint`). A file that is accepted is well formed
as a whole, and the store then holds its entries and nothing else (`loadAuthKeysFile_spec`). The
file system, the decoders of JSON and PEM and the key stores of oneauth are parameters
(`KeyFiles`), the stores with what a store promises (`KeyStores.Lawful`).
-/

namespace MassRelay

/-- An entry of the file. -/
structure AuthKey where
  clientID : String
  algorithm : String
  key : String
  deriving DecidableEq

structure KeyRecord where
  clientID : String
  key : String
  algorithm : String
  deriving DecidableEq

def AuthKey.record (e : AuthKey) : KeyRecord where
  clientID := e.clientID
  key := e.key
  algorithm := e.algorithm

/-- The key stores of oneauth. -/
structure KeyStores (K : Type) where
  new : K
  putKey : KeyRecord → K → Except String K
  getKey : K → String → Option KeyRecord

/-- A key that is put is the one that is found under its id, and the others stay. -/
structure KeyStores.Lawful {K : Type} (keys : KeyStores K) : Prop where
  getKey_new : ∀ c, keys.getKey keys.new c = none
  getKey_putKey : ∀ {r ks ks'}, keys.putKey r ks = .ok ks' → ∀ c,
    keys.getKey ks' c = if c = r.clientID then some r else keys.getKey ks c

/-- What the start of the relay uses of the system and of libraries. -/
structure KeyFiles (K : Type) extends KeyStores K where
  readFile : String → Except String String
  /-- `json.Unmarshal` into a list of entries. -/
  unmarshal : String → Except String (List AuthKey)
  /-- Whether `pem.Decode` finds a block. -/
  isPEM : String → Bool
  /-- A JWKS key store, after its first fetch. -/
  startJWKS : String → Except String K

def authKeyAlgs : List String :=
  ["HS256", "HS384", "HS512", "RS256", "RS384", "RS512",
    "PS256", "PS384", "PS512", "ES256", "ES384", "ES512"]

/-- What is wrong with an entry, after those with the ids in `seen`. -/
def AuthKey.complaint (isPEM : String → Bool) (path : String) (seen : List String) (i : Nat)
    (e : AuthKey) : Option String :=
  if e.clientID = "" then
    some ("auth keys file " ++ path ++ ": entry " ++ toString i ++ ": client_id is required")
  else
    let client := "auth keys file " ++ path ++ ": client_id " ++ Stream.goQuote e.clientID
    if e.clientID ∈ seen then some (client ++ " appears twice")
    else if e.algorithm ∉ authKeyAlgs then
      some (client ++ ": unsupported alg " ++ Stream.goQuote e.algorithm)
    else if e.key = "" then some (client ++ ": key is required")
    else if !hasPrefix e.algorithm "HS" && !isPEM e.key then
      some (client ++ ": " ++ e.algorithm ++ " key is not PEM")
    else none

variable {K : Type} (files : KeyFiles K) (path : String)

/-- The error of a store that refuses a key. -/
def putFailed (e : AuthKey) (err : String) : String :=
  "auth keys file " ++ path ++ ": client_id " ++ Stream.goQuote e.clientID ++ ": " ++ err

/-- The loop over the entries, with the number of the next one. -/
def loadEntries (i : Nat) (seen : List String) (ks : K) : List AuthKey → Except String K
  | [] => .ok ks
  | e :: es =>
    match e.complaint files.isPEM path seen i with
    | some complaint => .error complaint
    | none =>
      match files.putKey e.record ks with
      | .error err => .error (putFailed path e err)
      | .ok ks => loadEntries (i + 1) (e.clientID :: seen) ks es

def loadAuthKeysFile : Except String K :=
  match files.readFile path with
  | .error err => .error ("auth keys file: " ++ err)
  | .ok data =>
    match files.unmarshal data with
    | .error err => .error ("auth keys file " ++ path ++ ": " ++ err)
    | .ok entries =>
      if entries = [] then .error ("auth keys file " ++ path ++ ": no keys")
      else loadEntries files path 0 [] files.new entries

/-- The environment, in which a variable that is not set reads as empty. -/
abbrev Env := String → String

/-- The key store and where it is from, `none` when no source is set. -/
def authKeyStoreFromEnv (env : Env) : Except String (Option (K × String)) :=
  let file := env "RELAY_AUTH_KEYS_FILE"
  let jwksURL := env "RELAY_AUTH_JWKS_URL"
  if file ≠ "" ∧ jwksURL ≠ "" then
    .error "set one of RELAY_AUTH_KEYS_FILE and RELAY_AUTH_JWKS_URL, not both"
  else if file ≠ "" then (loadAuthKeysFile files file).map fun ks => some (ks, "file")
  else if jwksURL ≠ "" then (files.startJWKS jwksURL).map fun ks => some (ks, "jwks")
  else .ok none

/-! ### Well-formed files -/

/-- An entry that can verify a token. -/
structure AuthKey.WellFormed (isPEM : String → Bool) (e : AuthKey) : Prop where
  clientID : e.clientID ≠ ""
  algorithm : e.algorithm ∈ authKeyAlgs
  key : e.key ≠ ""
  pem : hasPrefix e.algorithm "HS" = false → isPEM e.key = true

/-- The entries of a file that is accepted: one for each client. -/
structure ValidKeys (isPEM : String → Bool) (entries : List AuthKey) : Prop where
  wellFormed : ∀ e ∈ entries, e.WellFormed isPEM
  nodup : (entries.map (·.clientID)).Nodup

variable {files path}

theorem AuthKey.complaint_eq_none {isPEM : String → Bool} {seen : List String} {i : Nat}
    {e : AuthKey} :
    e.complaint isPEM path seen i = none ↔ e.WellFormed isPEM ∧ e.clientID ∉ seen := by
  unfold AuthKey.complaint
  constructor
  · intro h
    split at h
    · simp at h
    · rename_i hid
      dsimp only at h
      repeat' split at h
      any_goals simp at h
      rename_i hseen halg hkey hpem
      refine ⟨⟨hid, not_not.mp halg, hkey, fun hHS => ?_⟩, hseen⟩
      simpa [hHS] using hpem
  · rintro ⟨⟨hid, halg, hkey, hpem⟩, hseen⟩
    rw [if_neg hid]
    dsimp only
    rw [if_neg hseen, if_neg (not_not_intro halg), if_neg hkey, if_neg]
    cases hHS : hasPrefix e.algorithm "HS" with
    | true => simp
    | false => simp [hpem hHS]

/-! ### The loop over the entries -/

variable {entries : List AuthKey} {seen : List String} {ks ks' : K} {i : Nat} {msg : String}

/-- The entries are fine after those with the ids in `seen`. -/
structure ValidAfter (isPEM : String → Bool) (seen : List String) (entries : List AuthKey) :
    Prop extends ValidKeys isPEM entries where
  fresh : ∀ c ∈ entries.map (·.clientID), c ∉ seen

theorem validAfter_nil (isPEM : String → Bool) (seen : List String) : ValidAfter isPEM seen [] :=
  ⟨⟨nofun, List.nodup_nil⟩, nofun⟩

theorem validAfter_cons {isPEM : String → Bool} {e : AuthKey} :
    ValidAfter isPEM seen (e :: entries) ↔
      (e.WellFormed isPEM ∧ e.clientID ∉ seen) ∧
        ValidAfter isPEM (e.clientID :: seen) entries := by
  constructor
  · rintro ⟨⟨hwell, hnodup⟩, hfresh⟩
    obtain ⟨hnew, hnodup⟩ := List.nodup_cons.mp hnodup
    refine ⟨⟨hwell e List.mem_cons_self, hfresh _ List.mem_cons_self⟩,
      ⟨fun e' he' => hwell e' (List.mem_cons_of_mem _ he'), hnodup⟩, fun c hc hmem => ?_⟩
    rcases List.mem_cons.mp hmem with rfl | hmem
    · exact hnew hc
    · exact hfresh c (List.mem_cons_of_mem _ hc) hmem
  · rintro ⟨⟨he, hseen⟩, ⟨hwell, hnodup⟩, hfresh⟩
    refine ⟨⟨List.forall_mem_cons.mpr ⟨he, hwell⟩, ?_⟩, List.forall_mem_cons.mpr ⟨hseen, ?_⟩⟩
    · exact List.nodup_cons.mpr ⟨fun hmem => hfresh _ hmem List.mem_cons_self, hnodup⟩
    · exact fun c hc hmem => hfresh c hc (List.mem_cons_of_mem _ hmem)

/-- A loop that comes to its end has found every entry fine, and has put it into the store. -/
theorem loadEntries_ok (hkeys : files.Lawful)
    (h : loadEntries files path i seen ks entries = .ok ks') :
    ValidAfter files.isPEM seen entries ∧ ∀ c, files.getKey ks' c =
      ((entries.find? (·.clientID = c)).map AuthKey.record).or (files.getKey ks c) := by
  induction entries generalizing i seen ks with
  | nil =>
    obtain rfl := Except.ok.inj h
    exact ⟨validAfter_nil _ _, fun _ => rfl⟩
  | cons e es ih =>
    simp only [loadEntries] at h
    split at h
    · simp at h
    · rename_i hfine
      split at h
      · simp at h
      · rename_i ks₁ hput
        obtain ⟨hvalid, hstore⟩ := ih h
        refine ⟨validAfter_cons.mpr ⟨AuthKey.complaint_eq_none.mp hfine, hvalid⟩, fun c => ?_⟩
        rw [hstore, hkeys.getKey_putKey hput]
        by_cases hc : e.clientID = c
        · -- no later entry has this id
          have hnone : es.find? (·.clientID = c) = none := by
            rw [List.find?_eq_none]
            intro e' he' heq
            refine hvalid.fresh e'.clientID (List.mem_map_of_mem he') ?_
            rw [of_decide_eq_true heq, hc]
            exact List.mem_cons_self
          simp [hc, hnone, AuthKey.record]
        · simp [hc, Ne.symm hc, AuthKey.record]

/-- A loop that fails does so at the first entry that is not fine, or that the store refuses. -/
theorem loadEntries_error (h : loadEntries files path i seen ks entries = .error msg) :
    ∃ pre e post, entries = pre ++ e :: post ∧ ValidAfter files.isPEM seen pre ∧
      (e.complaint files.isPEM path ((pre.map (·.clientID)).reverse ++ seen) (i + pre.length) =
          some msg ∨
        ValidAfter files.isPEM seen (pre ++ [e]) ∧
          ∃ ks err, files.putKey e.record ks = .error err ∧ msg = putFailed path e err) := by
  induction entries generalizing i seen ks with
  | nil => simp [loadEntries] at h
  | cons e es ih =>
    simp only [loadEntries] at h
    split at h
    · rename_i complaint hcomplaint
      obtain rfl := Except.error.inj h
      exact ⟨[], e, es, rfl, validAfter_nil _ _, Or.inl hcomplaint⟩
    · rename_i hfine
      have he := AuthKey.complaint_eq_none.mp hfine
      split at h
      · rename_i err hput
        obtain rfl := Except.error.inj h
        exact ⟨[], e, es, rfl, validAfter_nil _ _,
          Or.inr ⟨validAfter_cons.mpr ⟨he, validAfter_nil _ _⟩, ks, err, hput, rfl⟩⟩
      · obtain ⟨pre, e', post, rfl, hpre, hfault⟩ := ih h
        refine ⟨e :: pre, e', post, rfl, validAfter_cons.mpr ⟨he, hpre⟩, ?_⟩
        refine hfault.imp (fun hcomplaint => ?_) fun hrefused => ?_
        · simpa [Nat.add_assoc, Nat.add_comm 1] using hcomplaint
        · exact ⟨validAfter_cons.mpr ⟨he, hrefused.1⟩, hrefused.2⟩

/-- The first entry to be at fault is the one that takes the file from well formed to not. -/
theorem ValidAfter.concat_iff {isPEM : String → Bool} {e : AuthKey}
    (h : ValidAfter isPEM seen entries) : ValidAfter isPEM seen (entries ++ [e]) ↔
      e.complaint isPEM path ((entries.map (·.clientID)).reverse ++ seen)
        (i + entries.length) = none := by
  rw [AuthKey.complaint_eq_none]
  induction entries generalizing seen with
  | nil => simp [validAfter_cons, validAfter_nil]
  | cons e' es ih =>
    obtain ⟨he', hes⟩ := validAfter_cons.mp h
    rw [List.cons_append, validAfter_cons, ih hes]
    simp [he']

/-! ### The file -/

/-- A file that is accepted is well formed as a whole, and the store finds under each id the
entry with that id, and nothing under others. A file of entries that is not accepted is empty,
or the error is about its first entry that is at fault, or that the store refused though it was
not. -/
theorem loadAuthKeysFile_spec (hkeys : files.Lawful) (path : String) :
    (∀ ks, loadAuthKeysFile files path = .ok ks → ∃ data entries,
      files.readFile path = .ok data ∧ files.unmarshal data = .ok entries ∧ entries ≠ [] ∧
        ValidKeys files.isPEM entries ∧
        ∀ c, files.getKey ks c = (entries.find? (·.clientID = c)).map AuthKey.record) ∧
    ∀ data entries msg, files.readFile path = .ok data → files.unmarshal data = .ok entries →
      loadAuthKeysFile files path = .error msg → entries = [] ∨
        ∃ pre e post, entries = pre ++ e :: post ∧ ValidKeys files.isPEM pre ∧
          (¬ ValidKeys files.isPEM (pre ++ [e]) ∧
              e.complaint files.isPEM path (pre.map (·.clientID)).reverse pre.length = some msg ∨
            ValidKeys files.isPEM (pre ++ [e]) ∧
              ∃ ks err, files.putKey e.record ks = .error err ∧ msg = putFailed path e err) := by
  have hvalid : ∀ {entries}, ValidKeys files.isPEM entries → ValidAfter files.isPEM [] entries :=
    fun h => ⟨h, fun _ _ => List.not_mem_nil⟩
  constructor
  · intro ks h
    unfold loadAuthKeysFile at h
    split at h
    · simp at h
    · rename_i data hdata
      split at h
      · simp at h
      · rename_i entries hentries
        split at h
        · simp at h
        · rename_i hne
          obtain ⟨hafter, hstore⟩ := loadEntries_ok hkeys h
          refine ⟨data, entries, hdata, hentries, hne, hafter.toValidKeys, fun c => ?_⟩
          rw [hstore, hkeys.getKey_new, Option.or_none]
  · intro data entries msg hdata hentries h
    unfold loadAuthKeysFile at h
    rw [hdata] at h
    dsimp only at h
    rw [hentries] at h
    dsimp only at h
    split at h
    · exact Or.inl ‹_›
    · obtain ⟨pre, e, post, hsplit, hpre, hfault⟩ := loadEntries_error h
      refine Or.inr ⟨pre, e, post, hsplit, hpre.toValidKeys, ?_⟩
      refine hfault.imp (fun hcomplaint => ⟨fun hwhole => ?_, ?_⟩)
        fun hrefused => ⟨hrefused.1.toValidKeys, hrefused.2⟩
      · rw [(hpre.concat_iff).mp (hvalid hwhole)] at hcomplaint
        simp at hcomplaint
      · simpa using hcomplaint

/-- Stores that are lists. -/
def listKeys : KeyStores (List KeyRecord) where
  new := []
  putKey r ks := .ok (r :: ks)
  getKey ks c := ks.find? (·.clientID = c)

theorem listKeys_lawful : listKeys.Lawful where
  getKey_new _ := rfl
  getKey_putKey {r ks ks'} h c := by
    obtain rfl := Except.ok.inj h
    by_cases hc : r.clientID = c
    · simp [listKeys, hc]
    · simp [listKeys, hc, Ne.symm hc]

/-- A file with the keys of two hosts, and one in which both are of the same. -/
def twoKeys : KeyFiles (List KeyRecord) where
  toKeyStores := listKeys
  readFile path := .ok path
  unmarshal data := .ok [⟨"app", "HS256", "secret"⟩, ⟨data, "ES256", "-----BEGIN PUBLIC KEY-----"⟩]
  isPEM key := hasPrefix key "-----BEGIN "
  startJWKS _ := .error "unreachable"

theorem loadAuthKeysFile_spec_twoKeys :
    (∃ ks, loadAuthKeysFile twoKeys "web" = .ok ks ∧
      ValidKeys twoKeys.isPEM [⟨"app", "HS256", "secret"⟩,
        ⟨"web", "ES256", "-----BEGIN PUBLIC KEY-----"⟩]) ∧
    loadAuthKeysFile twoKeys "app" =
      .error "auth keys file app: client_id \"app\" appears twice" := by
  refine ⟨⟨_, rfl, ?_⟩, by decide +kernel⟩
  have hlawful : twoKeys.Lawful := listKeys_lawful
  obtain ⟨data, entries, hdata, hentries, -, hvalid, -⟩ :=
    (loadAuthKeysFile_spec hlawful "web").1 _ rfl
  obtain rfl := Except.ok.inj hdata
  obtain rfl := Except.ok.inj hentries
  exact hvalid

end MassRelay

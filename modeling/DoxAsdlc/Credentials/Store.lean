import DoxAsdlc.Core.Events
import DoxAsdlc.Interaction.Pool
import DoxAsdlc.Redis.Keyspace

/-!
# Stored credentials

The keys of the LLM providers and the credentials of the integrations are records under keys of
two families.  A record is one JSON text: a field that another kind of record has may be
missing from it.

## Main definitions

* `Credential` — a record.
* `Cmd`, `serve` — the commands on the records.
* `Env` — what a call meets outside the store.
-/

namespace DoxAsdlc.Credentials

open Interaction Interaction.Program Redis

/-- A stored record. -/
structure Credential where
  id : String
  provider : Option String := none
  integrationType : Option String := none
  credentialType : Option String := none
  name : String
  keyEncrypted : String
  keyMasked : String
  createdAt : Time
  lastUsed : Option Time := none
  isValid : Bool := true
  deriving DecidableEq, Repr

/-! ## The store -/

inductive Cmd where
  | get (key : String)
  | set (key : String) (value : Credential)
  | keys (pattern : String)
  | delete (key : String)

/-- The answers: `delete` answers with the number of keys that it removed. -/
abbrev Reply : Cmd → Type
  | .get _ => Option Credential
  | .set _ _ => Unit
  | .keys _ => List String
  | .delete _ => ℕ

abbrev interface : Interface := ⟨Cmd, Reply⟩

abbrev Store := Keyspace Credential

/-- What each command does. -/
def serve (order : IterationOrder String) : Server interface Store
  | .get key, w => (w, w.lookup key)
  | .set key value, w => (w.insert key value, ())
  | .keys pattern, w => (w, w.matching order pattern)
  | .delete key, w => (w.erase key, if key ∈ w then 1 else 0)

abbrev Async (α : Type) := Program interface Error α

abbrev send (c : Cmd) : Async (Reply c) := command (I := interface) c

/-! ## Outside the store -/

/-- What Slack answers to `auth.test`. -/
structure SlackAnswer where
  ok : Bool
  error : Option String := none
  team : Option String := none
  teamId : Option String := none
  user : Option String := none
  botId : Option String := none

/-- What GitHub answers to a request for the user. -/
structure GithubAnswer where
  statusCode : ℕ
  login : Option String := none
  name : Option String := none
  id : Option String := none

/-- The clock, new ids, the encryption and the remote services as one call meets them. -/
structure Env where
  now : Time
  uuid : String
  encrypt : String → String
  decrypt : String → Except Error String
  /-- The number of models that are discovered for a provider with a key. -/
  discoverModels : String → String → Except Error ℕ
  slackAuthTest : String → Except Error SlackAnswer
  githubUser : String → Except Error GithubAnswer

/-- `mask_key`. -/
def maskKey (key : String) : String :=
  if key.length ≤ 10 then "***"
  else String.ofList (key.toList.take 7) ++ "..." ++ String.ofList (key.toList.drop (key.length - 3))

/-- `KeyError(message)`. -/
def keyError (message : String) : Error := { cls := .keyError, message := message }

/-- `d[field]`. -/
def required (field : String) : Option String → Except Error String
  | none => .error (keyError field)
  | some value => .ok value

/-- Read the records under some keys one after another, and keep what is made of each. -/
def readAll {β : Type} (f : Credential → Except Error (Option β)) : List String → Async (List β)
  | [] => return []
  | name :: names => do
      match ← send (.get name) with
      | none => readAll f names
      | some record =>
        match ← answer (f record) with
        | none => readAll f names
        | some b => return b :: (← readAll f names)

/-! ## Commands -/

variable {order : IterationOrder String} {w : Store} {key k : String} {record : Credential}

@[simp] theorem serve_get : serve order (.get key) w = (w, w.lookup key) := rfl
@[simp] theorem serve_set : serve order (.set key record) w = (w.insert key record, ()) := rfl
@[simp] theorem serve_delete :
    serve order (.delete key) w = (w.erase key, if key ∈ w then 1 else 0) := rfl

/-- A command leaves the keys that it does not write. -/
theorem lookup_serve {c : Cmd} (hset : ∀ record, c ≠ .set k record) (hdelete : c ≠ .delete k) :
    (serve order c w).1.lookup k = w.lookup k := by
  cases c with
  | get key => rfl
  | keys pattern => rfl
  | set key record =>
    have hne : k ≠ key := fun h => hset record (h ▸ rfl)
    simp [hne]
  | delete key =>
    have hne : k ≠ key := fun h => hdelete (h ▸ rfl)
    simp [hne]

end DoxAsdlc.Credentials

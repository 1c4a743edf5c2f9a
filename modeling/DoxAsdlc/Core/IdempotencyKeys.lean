import DoxAsdlc.Core.Events
import DoxAsdlc.Text.Joined

/-!
# Which calls share an idempotency key

The arguments of `generate_idempotency_key`, and what the key forgets of them.  The arguments
that are given are joined by `":"`, so that the key neither tells which of the optional fields an
argument was given for nor where a text with a `":"` of its own ends; an absent field and an
empty one are the same.

## Main definitions

* `KeyArgs`, `KeyArgs.key` — a call, and the key that it makes.
* `KeyArgs.pieces` — the texts that are given, cut at every `":"`.

## Main results

* `KeyArgs.key_inj_iff` — which calls share a key with no other.
* `ASDLCEvent.generatedKey_eq_iff` — which published events share a key.
-/

namespace DoxAsdlc

/-- The arguments of `generate_idempotency_key`. -/
structure KeyArgs where
  eventType : String
  sessionId : String
  taskId : Option String := none
  epicId : Option String := none
  extra : Option String := none
  deriving DecidableEq, Repr

namespace KeyArgs

/-- The components of the key of a call. -/
def components (args : KeyArgs) : List String :=
  keyComponents args.eventType args.sessionId args.taskId args.epicId args.extra

/-- `content`: the text that is hashed. -/
def content (args : KeyArgs) : String := ":".intercalate args.components

/-- The key that a call makes. -/
def key (digest : String → String) (args : KeyArgs) : String :=
  generateIdempotencyKey digest args.eventType args.sessionId args.taskId args.epicId args.extra

/-- The components, each cut at every `":"`. -/
def pieces (args : KeyArgs) : List String := args.components.flatMap (·.splitOn ":")

variable {digest : String → String} {a b : KeyArgs}

theorem key_eq_digest (digest : String → String) (args : KeyArgs) :
    args.key digest = digest args.content := rfl

theorem components_ne_nil (args : KeyArgs) : args.components ≠ [] := by
  simp [components, keyComponents]

/-- **What the key forgets.**  Two calls hash the same text exactly when their components, cut
at every `":"`, are the same. -/
theorem content_eq_iff : a.content = b.content ↔ a.pieces = b.pieces :=
  Joined.intercalate_inj ':' a.components_ne_nil b.components_ne_nil

/-- A text that ends another after a `":"` is cut like a text of its own. -/
theorem splitOn_append (s t : String) :
    (s ++ ":" ++ t).splitOn ":" = s.splitOn ":" ++ t.splitOn ":" := by
  have hjoin : ":".intercalate [s, t] = s ++ ":" ++ t := by simp
  have hcut := Joined.splitOn_intercalate_texts ':' (List.cons_ne_nil s [t])
  simpa [hjoin] using hcut

/-- Two calls share a key exactly when they hash the same text. -/
theorem key_eq_iff (hdigest : Set.InjOn digest (Set.range content)) :
    a.key digest = b.key digest ↔ a.pieces = b.pieces := by
  rw [key_eq_digest, key_eq_digest, ← content_eq_iff]
  exact hdigest.eq_iff (Set.mem_range_self a) (Set.mem_range_self b)

/-- **Which calls share a key.**  For a digest that is injective on the texts that are hashed, a
key that two calls share makes them the same call exactly when they are, or their components, cut
at every `":"`, differ. -/
theorem key_inj_iff (hdigest : Set.InjOn digest (Set.range content)) (a b : KeyArgs) :
    (a.key digest = b.key digest → a = b) ↔ (a.pieces ≠ b.pieces ∨ a = b) := by
  rw [key_eq_iff hdigest, imp_iff_not_or]

/-- A session with a task of its own, and the same session without. -/
theorem key_inj_iff_taskOfSession :
    (KeyArgs.key id { eventType := "task_created", sessionId := "s", taskId := some "x" }
        = KeyArgs.key id { eventType := "task_created", sessionId := "s" } →
      ({ eventType := "task_created", sessionId := "s", taskId := some "x" } : KeyArgs)
        = { eventType := "task_created", sessionId := "s" }) ↔
      (pieces { eventType := "task_created", sessionId := "s", taskId := some "x" }
          ≠ pieces { eventType := "task_created", sessionId := "s" } ∨
        ({ eventType := "task_created", sessionId := "s", taskId := some "x" } : KeyArgs)
          = { eventType := "task_created", sessionId := "s" }) :=
  key_inj_iff (Set.injOn_id _) _ _

/-- A task and an epic of the same name make the same key. -/
theorem not_key_inj_taskAsEpic :
    ¬ ∀ digest : String → String, Set.InjOn digest (Set.range content) →
      ∀ a b : KeyArgs, a.key digest = b.key digest → a = b := by
  intro h
  have heq := h id (Set.injOn_id _)
    { eventType := "task_created", sessionId := "s", taskId := some "x" }
    { eventType := "task_created", sessionId := "s", epicId := some "x" } rfl
  simp at heq

end KeyArgs

/-! ## Published events -/

/-- The call that `publish_event_model` makes for an event without a key. -/
def ASDLCEvent.keyArgs (e : ASDLCEvent) : KeyArgs where
  eventType := e.eventType.value
  sessionId := e.sessionId.val
  taskId := e.taskId
  epicId := e.epicId

theorem EventType.value_inj {t t' : EventType} : t.value = t'.value ↔ t = t' := by
  cases t <;> cases t' <;> decide

theorem EventType.splitOn_value (t : EventType) : t.value.splitOn ":" = [t.value] := by
  have hfree : ':' ∉ t.value.toList := by cases t <;> decide
  exact Joined.splitOn_of_not_mem hfree

/-- **Published events with one key** have the same type, and ids that are the same once they are
joined. -/
theorem ASDLCEvent.generatedKey_eq_iff {digest : String → String}
    (hdigest : Set.InjOn digest (Set.range KeyArgs.content)) (e e' : ASDLCEvent) :
    e.generatedKey digest = e'.generatedKey digest ↔
      e.eventType = e'.eventType ∧
        (e.keyArgs.components.tail.flatMap (·.splitOn ":"))
          = e'.keyArgs.components.tail.flatMap (·.splitOn ":") := by
  have hpieces : ∀ e : ASDLCEvent, e.keyArgs.pieces
      = e.eventType.value :: e.keyArgs.components.tail.flatMap (·.splitOn ":") := by
    intro e
    rw [KeyArgs.pieces, KeyArgs.components, keyComponents, List.append_assoc, List.append_assoc,
      List.cons_append, List.flatMap_cons]
    simp [keyArgs, EventType.splitOn_value]
  have hkey := @KeyArgs.key_eq_iff digest e.keyArgs e'.keyArgs hdigest
  rw [hpieces, hpieces, List.cons.injEq, EventType.value_inj] at hkey
  exact hkey

end DoxAsdlc

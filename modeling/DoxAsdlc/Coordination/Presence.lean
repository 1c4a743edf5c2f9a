import DoxAsdlc.Coordination.Client
import DoxAsdlc.Structures.OrderedDict
import DoxAsdlc.Text.Joined

/-!
# The presence hash

The presence of all instances is one hash.  The name of a field is the id of an instance and the
name of an attribute, with a dot between them, and is cut at its last dot when it is read.  As no
attribute has a dot in its name, the hash is the same as a record for each instance.

## Main definitions

* `FlatHash`, `PresenceCall.onHash`, `readPresence` — the hash as it is stored, written and read.
* `Represents` — a hash is records.

## Main results

* `Represents.run` — the hash stays the same as the records.
* `Represents.readPresence` — what is read is in the records.
-/

namespace DoxAsdlc.Coordination

open Redis

/-! ## The hash -/

/-- The text of a field.  A heartbeat is only ever written as a time, to the second. -/
inductive FieldText where
  | text (s : String)
  | time (t : Time)
  deriving DecidableEq

/-- The hash as it is stored. -/
abbrev FlatHash := OrderedDict String FieldText

/-- The name of an attribute. -/
def PresenceField.name : PresenceField → String
  | .active => "active"
  | .lastHeartbeat => "last_heartbeat"
  | .sessionId => "session_id"

/-- A call of the client. -/
inductive PresenceCall where
  | register (now : Time) (instanceId : String) (sessionId : Option String)
  | heartbeat (now : Time) (instanceId : String)
  | unregister (instanceId : String)
  deriving DecidableEq

/-- `HSET`. -/
def hsetFlat (h : FlatHash) (mapping : List (String × FieldText)) : FlatHash :=
  mapping.foldl (fun h e => h.set e.1 e.2) h

/-- `HDEL`. -/
def hdelFlat (h : FlatHash) (fields : List String) : FlatHash := fields.foldl OrderedDict.erase h

/-- What `register_instance`, `heartbeat` and `unregister_instance` do to the hash. -/
def PresenceCall.onHash (h : FlatHash) : PresenceCall → FlatHash
  | register now instanceId sessionId =>
    hsetFlat h ([(instanceId ++ ".active", .text "1"),
      (instanceId ++ ".last_heartbeat", .time (wholeSeconds now))] ++
        (given sessionId).toList.map fun s => (instanceId ++ ".session_id", .text s))
  | heartbeat now instanceId =>
    hsetFlat h [(instanceId ++ ".last_heartbeat", .time (wholeSeconds now))]
  | unregister instanceId =>
    hdelFlat h [instanceId ++ ".active", instanceId ++ ".last_heartbeat",
      instanceId ++ ".session_id"]

/-- `key.rsplit(".", 1)`, where it has two parts. -/
def rsplit (key : String) : Option (String × String) :=
  (Joined.splitLast '.' key.toList).map fun parts =>
    (String.ofList parts.1, String.ofList parts.2)

/-- A field, put to the others of its instance. -/
def addField (instances : OrderedDict String (OrderedDict String FieldText))
    (entry : String × FieldText) : OrderedDict String (OrderedDict String FieldText) :=
  match rsplit entry.1 with
  | some (instanceId, field) =>
    instances.set instanceId (((instances.get? instanceId).getD .empty).set field entry.2)
  | none => instances

/-- The fields by instance. -/
def groupFields (entries : List (String × FieldText)) :
    OrderedDict String (OrderedDict String FieldText) := entries.foldl addField .empty

/-- The time of the last heartbeat, if there is one; `none` where it is no time. -/
def heartbeatOf : Option FieldText → Option (Option Time)
  | some (.time t) => some (some t)
  | some (.text s) => if s = "" then some none else none
  | none => some none

/-- A text. -/
def FieldText.text? : FieldText → Option String
  | .text s => some s
  | .time _ => none

/-- What is read of the fields of an instance; `none` where a heartbeat is no time. -/
def fieldsOf (fields : OrderedDict String FieldText) : Option PresenceHash := do
  let lastHeartbeat ← heartbeatOf (fields.get? "last_heartbeat")
  return fun
    | .active => (fields.get? "active").map fun value => decide (value = .text "1")
    | .lastHeartbeat => lastHeartbeat
    | .sessionId => (fields.get? "session_id").bind FieldText.text?

/-- `timeout_minutes or self._config.presence_timeout_minutes`. -/
def effectiveTimeout (config : CoordinationConfig) (timeoutMinutes : Option ℤ) : ℤ :=
  match timeoutMinutes with
  | some t => if t = 0 then config.presenceTimeoutMinutes else t
  | none => config.presenceTimeoutMinutes

/-- `get_presence`, of a hash that is listed in some order; `none` where it raises. -/
def readPresence (order : IterationOrder (String × FieldText)) (config : CoordinationConfig)
    (now : Time) (timeoutMinutes : Option ℤ) (h : FlatHash) :
    Option (List (String × PresenceInfo)) :=
  (groupFields (order.list h.entries)).entries.mapM fun (instanceId, fields) =>
    (fieldsOf fields).map fun fields =>
      (instanceId, presenceInfo now (effectiveTimeout config timeoutMinutes) instanceId fields)

/-! ## Records -/

/-- What the calls do to the records of the instances. -/
def PresenceCall.onKeys (p : Keys String PresenceHash) : PresenceCall → Keys String PresenceHash
  | register now instanceId sessionId => p.modify instanceId (hset · (registration now sessionId))
  | heartbeat now instanceId =>
    p.modify instanceId (hset · (.field .lastHeartbeat (wholeSeconds now)))
  | unregister instanceId => p.modify instanceId fun _ => none

/-- The text of a value. -/
def PresenceField.encode : (f : PresenceField) → PresenceValue f → FieldText
  | .active, flag => .text (if flag then "1" else "0")
  | .lastHeartbeat, t => .time t
  | .sessionId, s => .text s

/-- The name of a field of an instance. -/
def fieldKey (instanceId : String) (f : PresenceField) : String := instanceId ++ "." ++ f.name

/-- A hash is records: it has their fields and no others, and no record is empty. -/
structure Represents (h : FlatHash) (p : Keys String PresenceHash) : Prop where
  fields : ∀ id f, h.get? (fieldKey id f) = (hget (p id) f).map f.encode
  keys : ∀ e ∈ h.entries, ∃ id f, e.1 = fieldKey id f
  filled : ∀ id, p id ≠ none → ∃ f, hget (p id) f ≠ none

variable {h : FlatHash} {p : Keys String PresenceHash}

theorem fieldKey_active (id : String) : id ++ ".active" = fieldKey id .active := by
  rw [fieldKey, String.append_assoc]
  rfl

theorem fieldKey_lastHeartbeat (id : String) :
    id ++ ".last_heartbeat" = fieldKey id .lastHeartbeat := by
  rw [fieldKey, String.append_assoc]
  rfl

theorem fieldKey_sessionId (id : String) : id ++ ".session_id" = fieldKey id .sessionId := by
  rw [fieldKey, String.append_assoc]
  rfl

theorem rsplit_append {id field : String} (hfield : '.' ∉ field.toList) :
    rsplit (id ++ "." ++ field) = some (id, field) := by
  have hlist : (id ++ "." ++ field).toList = id.toList ++ '.' :: field.toList := by simp
  rw [rsplit, hlist, Joined.splitLast_append hfield]
  simp

theorem eq_of_rsplit {key id field : String} (h : rsplit key = some (id, field)) :
    key = id ++ "." ++ field := by
  obtain ⟨parts, hparts, heq⟩ := Option.map_eq_some_iff.mp h
  cases heq
  obtain ⟨hlist, -⟩ := Joined.eq_of_splitLast hparts
  rw [← String.toList_inj, hlist]
  simp

theorem rsplit_fieldKey (id : String) (f : PresenceField) :
    rsplit (fieldKey id f) = some (id, f.name) :=
  rsplit_append (by cases f <;> decide)

theorem PresenceField.name_inj {f f' : PresenceField} : f.name = f'.name ↔ f = f' := by
  cases f <;> cases f' <;> decide

/-- The name of a field tells the instance and the attribute. -/
theorem fieldKey_inj {id id' : String} {f f' : PresenceField} :
    fieldKey id f = fieldKey id' f' ↔ id = id' ∧ f = f' := by
  constructor
  · intro h
    have hsplit := congrArg rsplit h
    rw [rsplit_fieldKey, rsplit_fieldKey] at hsplit
    simpa [PresenceField.name_inj] using hsplit
  · rintro ⟨rfl, rfl⟩
    rfl

/-- One field of an instance is written. -/
theorem Represents.setField (hp : Represents h p) (id : String) (f : PresenceField)
    (v : PresenceValue f) :
    Represents (h.set (fieldKey id f) (f.encode v)) (p.modify id (hset · (.field f v))) where
  fields := by
    intro id' f'
    simp only [OrderedDict.get?_set, fieldKey_inj, Keys.modify_apply]
    by_cases hid : id' = id
    · by_cases hf : f' = f
      · subst hf
        simp [hid, hget_hset]
      · simp [hid, hf, hget_hset, hp.fields]
    · simp [hid, hp.fields]
  keys := OrderedDict.forall_set hp.keys ⟨id, f, rfl⟩
  filled := by
    intro id' hne
    by_cases hid : id' = id
    · exact ⟨f, by simp [hid, hget_hset]⟩
    · rw [Keys.modify_of_ne _ _ hid] at hne ⊢
      exact hp.filled id' hne

/-- All fields of an instance are deleted. -/
theorem Represents.unregister (hp : Represents h p) (id : String) :
    Represents ((PresenceCall.unregister id).onHash h) (p.modify id fun _ => none) where
  fields := by
    intro id' f'
    simp only [PresenceCall.onHash, hdelFlat, List.foldl_cons, List.foldl_nil, fieldKey_active,
      fieldKey_lastHeartbeat, fieldKey_sessionId, OrderedDict.get?_erase, fieldKey_inj]
    by_cases hid : id' = id
    · cases f' <;> simp [hid]
    · simp [hid, hp.fields]
  keys := OrderedDict.forall_erase (OrderedDict.forall_erase (OrderedDict.forall_erase hp.keys))
  filled := by
    intro id' hne
    by_cases hid : id' = id
    · simp [hid] at hne
    · rw [Keys.modify_of_ne _ _ hid] at hne ⊢
      exact hp.filled id' hne

/-- A registration writes its fields one after another. -/
theorem modify_registration (p : Keys String PresenceHash) (now : Time) (id : String)
    (sessionId : Option String) :
    p.modify id (hset · (registration now sessionId)) =
      let q := (p.modify id (hset · (.field .active true))).modify id
        (hset · (.field .lastHeartbeat (wholeSeconds now)))
      match given sessionId with
      | some s => q.modify id (hset · (.field .sessionId s))
      | none => q := by
  cases hgiven : given sessionId
  all_goals
    funext id'
    by_cases hid : id' = id
    · cases p id' <;> simp [hid, hset]
      all_goals
        ext f : 1
        cases f <;> simp [registration, Hash.overlay_apply, hgiven]
    · simp [hid]

theorem Represents.onHash (hp : Represents h p) (c : PresenceCall) :
    Represents (c.onHash h) (c.onKeys p) := by
  cases c with
  | register now id sessionId =>
    have hboth := (hp.setField id .active true).setField id .lastHeartbeat (wholeSeconds now)
    rw [PresenceCall.onKeys, modify_registration]
    cases hgiven : given sessionId with
    | none =>
      simp [PresenceCall.onHash, hsetFlat, hgiven, fieldKey_active, fieldKey_lastHeartbeat]
      exact hboth
    | some s =>
      simp [PresenceCall.onHash, hsetFlat, hgiven, fieldKey_active, fieldKey_lastHeartbeat,
        fieldKey_sessionId]
      exact hboth.setField id .sessionId s
  | heartbeat now id =>
    simp only [PresenceCall.onHash, hsetFlat, List.foldl_cons, List.foldl_nil,
      fieldKey_lastHeartbeat]
    exact hp.setField id .lastHeartbeat (wholeSeconds now)
  | unregister id => exact hp.unregister id

/-- **The hash is records** after any calls, whatever the ids are. -/
theorem Represents.run (hp : Represents h p) (calls : List PresenceCall) :
    Represents (calls.foldl PresenceCall.onHash h) (calls.foldl PresenceCall.onKeys p) := by
  induction calls generalizing h p with
  | nil => exact hp
  | cons c calls ih => exact ih (hp.onHash c)

theorem represents_empty : Represents .empty fun _ => none where
  fields := by
    intro id f
    rfl
  keys := by simp [OrderedDict.empty]
  filled := by simp

/-! ## Reading -/

/-- What was grouped of an instance is its fields. -/
theorem get?_groupFields {entries : List (String × FieldText)}
    (hnodup : (entries.map Prod.fst).Nodup) {id field : String} (hfield : '.' ∉ field.toList) :
    ((groupFields entries).get? id).bind (·.get? field) =
      entries.lookup (id ++ "." ++ field) := by
  induction entries using List.reverseRecOn with
  | nil => rfl
  | append_singleton entries e ih =>
    have hstep : groupFields (entries ++ [e]) = addField (groupFields entries) e :=
      List.foldl_concat ..
    rw [List.map_append, List.nodup_append] at hnodup
    have hfresh : entries.lookup e.1 = none := by
      rw [List.lookup_eq_none_iff]
      intro x hx
      simpa using (hnodup.2.2 x.1 (List.mem_map_of_mem hx) e.1 (by simp)).symm
    rw [hstep, List.lookup_append, OrderedDict.lookup_cons_ite, addField]
    cases hsplit : rsplit e.1 with
    | none =>
      have hkey : id ++ "." ++ field ≠ e.1 := by
        intro hkey
        rw [← hkey, rsplit_append hfield] at hsplit
        cases hsplit
      simp [hkey, ih hnodup.1]
    | some parts =>
      obtain ⟨id', field'⟩ := parts
      have hkey := eq_of_rsplit hsplit
      by_cases hboth : id = id' ∧ field = field'
      · obtain ⟨rfl, rfl⟩ := hboth
        simp [OrderedDict.get?_set, ← hkey, hfresh]
      · have hne : id ++ "." ++ field ≠ e.1 := by
          intro heq
          rw [← heq, rsplit_append hfield] at hsplit
          cases hsplit
          exact hboth ⟨rfl, rfl⟩
        by_cases hid : id = id'
        · have hfield' : field ≠ field' := fun heq => hboth ⟨hid, heq⟩
          rw [← ih hnodup.1]
          cases hget : (groupFields entries).get? id <;>
            simp [OrderedDict.get?_set, ← hid, hfield', hne, hget]
        · simp [OrderedDict.get?_set, hid, hne, ih hnodup.1]

/-- An instance is grouped if it has a field. -/
theorem get?_groupFields_eq_none {entries : List (String × FieldText)} {id : String} :
    (groupFields entries).get? id = none ↔
      ∀ e ∈ entries, ∀ field, rsplit e.1 ≠ some (id, field) := by
  induction entries using List.reverseRecOn with
  | nil => simp [groupFields]
  | append_singleton entries e ih =>
    have hstep : groupFields (entries ++ [e]) = addField (groupFields entries) e :=
      List.foldl_concat ..
    rw [hstep, addField]
    cases hsplit : rsplit e.1 with
    | none => simp [ih, or_imp, forall_and, hsplit]
    | some parts =>
      obtain ⟨id', field⟩ := parts
      by_cases hid : id = id'
      · refine iff_of_false (by simp [hid, OrderedDict.get?_set]) fun h => ?_
        exact h e (by simp) field (hid ▸ hsplit)
      · simp [OrderedDict.get?_set, hid, ih, or_imp, forall_and, hsplit, Ne.symm hid]

/-- The fields of a record are read as they are. -/
theorem fieldsOf_eq {d : OrderedDict String FieldText} {fields : PresenceHash}
    (h : ∀ f : PresenceField, d.get? f.name = (fields f).map f.encode) :
    fieldsOf d = some fields := by
  have hactive : d.get? "active" = (fields .active).map PresenceField.active.encode := h .active
  have hheartbeat : d.get? "last_heartbeat" =
      (fields .lastHeartbeat).map PresenceField.lastHeartbeat.encode := h .lastHeartbeat
  have hsession : d.get? "session_id" =
      (fields .sessionId).map PresenceField.sessionId.encode := h .sessionId
  have hbeat : heartbeatOf (d.get? "last_heartbeat") = some (fields .lastHeartbeat) := by
    rw [hheartbeat]
    cases fields .lastHeartbeat <;> rfl
  rw [fieldsOf, hbeat]
  refine congrArg some (Hash.ext fun f => ?_)
  cases f with
  | active =>
    simp only [hactive]
    match fields .active with
    | none | some true | some false => decide
  | lastHeartbeat => rfl
  | sessionId =>
    simp only [hsession]
    cases fields .sessionId <;> rfl

theorem mapM_eq_some_map {α β : Type} {f : α → Option β} {g : α → β} {l : List α}
    (h : ∀ a ∈ l, f a = some (g a)) : l.mapM f = some (l.map g) := by
  induction l with
  | nil => rfl
  | cons a l ih =>
    rw [List.mapM_cons, h a List.mem_cons_self, ih fun x hx => h x (List.mem_cons_of_mem _ hx)]
    rfl

/-- What is grouped of an instance is its record. -/
theorem Represents.get?_groupFields (hp : Represents h p)
    (order : IterationOrder (String × FieldText)) (id : String) :
    (p id = none ∧ (groupFields (order.list h.entries)).get? id = none) ∨
      ∃ fields d, p id = some fields ∧
        (groupFields (order.list h.entries)).get? id = some d ∧ fieldsOf d = some fields := by
  have hperm := order.perm h.entries
  have hnodup : ((order.list h.entries).map Prod.fst).Nodup :=
    (hperm.map Prod.fst).nodup_iff.mpr h.nodup
  have hfields (f : PresenceField) : ((groupFields (order.list h.entries)).get? id).bind
      (·.get? f.name) = (hget (p id) f).map f.encode := by
    rw [Coordination.get?_groupFields hnodup (by cases f <;> decide), ← hp.fields id f]
    exact OrderedDict.get?_of_perm (d := ⟨order.list h.entries, hnodup⟩) hperm _
  cases hgroup : (groupFields (order.list h.entries)).get? id with
  | none =>
    refine .inl ⟨?_, rfl⟩
    by_contra hne
    obtain ⟨f, hf⟩ := hp.filled id hne
    have hnone := hfields f
    simp [hgroup, hf] at hnone
  | some d =>
    have hne : p id ≠ none := by
      intro hnone
      have hsome : (groupFields (order.list h.entries)).get? id ≠ none := by simp [hgroup]
      refine hsome (get?_groupFields_eq_none.mpr fun e he field hsplit => ?_)
      have hmem : e ∈ h.entries := hperm.mem_iff.mp he
      obtain ⟨id', f, hkey⟩ := hp.keys e hmem
      rw [hkey, rsplit_fieldKey] at hsplit
      cases hsplit
      have hvalue := h.get?_of_mem (k := fieldKey id f) (a := e.2) (by rwa [← hkey])
      rw [hp.fields, hnone] at hvalue
      cases hvalue
    obtain ⟨fields, hsome⟩ := Option.ne_none_iff_exists'.mp hne
    refine .inr ⟨fields, d, hsome, rfl, fieldsOf_eq fun f => ?_⟩
    have hf := hfields f
    rw [hgroup, hsome] at hf
    exact hf

/-- **The presence is read off the records**, each instance once. -/
theorem Represents.readPresence (hp : Represents h p) (order : IterationOrder (String × FieldText))
    (config : CoordinationConfig) (now : Time) (timeoutMinutes : Option ℤ) :
    ∃ result, readPresence order config now timeoutMinutes h = some result ∧
      (result.map Prod.fst).Nodup ∧ ∀ id info, (id, info) ∈ result ↔
        (p id).map (presenceInfo now (effectiveTimeout config timeoutMinutes) id) = some info := by
  let instances := groupFields (order.list h.entries)
  let read := presenceInfo now (effectiveTimeout config timeoutMinutes)
  have hread : Coordination.readPresence order config now timeoutMinutes h =
      some (instances.entries.map fun e => (e.1, read e.1 ((p e.1).getD .empty))) := by
    refine mapM_eq_some_map fun e he => ?_
    obtain ⟨-, hnone⟩ | ⟨fields, d, hsome, hd, hfields⟩ := hp.get?_groupFields order e.1
    · exact absurd (instances.get?_of_mem he) (by simp [instances, hnone])
    · obtain rfl : e.2 = d := by
        simpa [instances, hd] using (instances.get?_of_mem he).symm
      simp [hfields, hsome, read]
  refine ⟨_, hread, ?_, fun id info => ?_⟩
  · simpa [Function.comp_def] using instances.nodup
  · rw [List.mem_map]
    constructor
    · intro ⟨e, he, heq⟩
      cases heq
      obtain ⟨-, hnone⟩ | ⟨fields, d, hsome, -, -⟩ := hp.get?_groupFields order e.1
      · exact absurd (instances.get?_of_mem he) (by simp [instances, hnone])
      · simp [hsome, read]
    · intro hinfo
      obtain ⟨fields, hsome, rfl⟩ := Option.map_eq_some_iff.mp hinfo
      obtain ⟨hnone, -⟩ | ⟨_, d, -, hd, -⟩ := hp.get?_groupFields order id
      · simp [hsome] at hnone
      · exact ⟨(id, d), OrderedDict.get?_eq_some.mp hd, by simp [hsome, read]⟩

end DoxAsdlc.Coordination

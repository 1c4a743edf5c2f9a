import DoxAsdlc.Rlm.Models
import DoxAsdlc.Structures.OrderedDict

/-!
# Metadata on their way through JSON

The metadata of an event are a dictionary with anything in it.  They are dumped as a JSON document
and loaded again: a tuple comes back as a list, a key that is not a text as one, and what JSON has
no form for is refused.

A document is given by its tree; numbers are written so that they are read back as they were.

## Main definitions

* `PyKey`, `PyValue` — keys and values.
* `PyValue.dumps`, `PyValue.loads` — `json.dumps` and `json.loads`.
* `PyValue.Plain` — the values that come back as they were.
-/

namespace DoxAsdlc

open Rlm (Json)

/-- A key of a dictionary. -/
inductive PyKey where
  | none
  | bool (b : Bool)
  | int (n : ℤ)
  | float (repr : String)
  | str (s : String)
  | other (typeName : String)
  deriving DecidableEq, Repr

/-- A value; the keys of a dictionary are different. -/
inductive PyValue where
  | none
  | bool (b : Bool)
  | int (n : ℤ)
  | float (x : ℚ)
  | str (s : String)
  | list (items : List PyValue)
  | tuple (items : List PyValue)
  | dict (entries : List (PyKey × PyValue))
  | other (typeName : String)

/-- The error of `json.dumps`. -/
def notSerializable (message : String) : Error := ⟨.exception, message, []⟩

/-- The text of a key in a document. -/
def PyKey.text : PyKey → Except Error String
  | .none => .ok "null"
  | .bool b => .ok (if b then "true" else "false")
  | .int n => .ok (toString n)
  | .float repr => .ok repr
  | .str s => .ok s
  | .other typeName => .error (notSerializable
      ("keys must be str, int, float, bool or None, not " ++ typeName))

namespace PyValue

/-- The truth value. -/
def truthy : PyValue → Bool
  | .none => false
  | .bool b => b
  | .int n => n != 0
  | .float x => x != 0
  | .str s => s != ""
  | .list items => !items.isEmpty
  | .tuple items => !items.isEmpty
  | .dict entries => !entries.isEmpty
  | .other _ => true

mutual

/-- `json.dumps(value)`. -/
def dumps : PyValue → Except Error Json
  | .none => .ok .null
  | .bool b => .ok (.bool b)
  | .int n => .ok (.int n)
  | .float x => .ok (.float x)
  | .str s => .ok (.str s)
  | .list items => do return .arr (← dumpsItems items)
  | .tuple items => do return .arr (← dumpsItems items)
  | .dict entries => do return .obj (← dumpsEntries entries)
  | .other typeName => .error (notSerializable
      ("Object of type " ++ typeName ++ " is not JSON serializable"))

/-- The items of an array. -/
def dumpsItems : List PyValue → Except Error (List Json)
  | [] => .ok []
  | v :: vs => do
      let j ← dumps v
      let js ← dumpsItems vs
      return j :: js

/-- The fields of an object. -/
def dumpsEntries : List (PyKey × PyValue) → Except Error (List (String × Json))
  | [] => .ok []
  | (k, v) :: entries => do
      let key ← k.text
      let j ← dumps v
      let fields ← dumpsEntries entries
      return (key, j) :: fields

end

mutual

/-- `json.loads(text)`. -/
def loads : Json → PyValue
  | .null => .none
  | .bool b => .bool b
  | .int n => .int n
  | .float x => .float x
  | .str s => .str s
  | .arr items => .list (loadsItems items)
  | .obj fields => .dict (OrderedDict.entriesOf (loadsFields fields))

/-- The items of an array. -/
def loadsItems : List Json → List PyValue
  | [] => []
  | j :: js => loads j :: loadsItems js

/-- The fields of an object, those with the same key among them. -/
def loadsFields : List (String × Json) → List (PyKey × PyValue)
  | [] => []
  | (key, j) :: fields => (.str key, loads j) :: loadsFields fields

end

mutual

/-- A value of lists, dictionaries with texts as keys, texts, numbers and truth values. -/
def Plain : PyValue → Prop
  | .list items => PlainItems items
  | .dict entries => (entries.map Prod.fst).Nodup ∧ PlainEntries entries
  | .tuple _ | .other _ => False
  | _ => True

def PlainItems : List PyValue → Prop
  | [] => True
  | v :: vs => Plain v ∧ PlainItems vs

def PlainEntries : List (PyKey × PyValue) → Prop
  | [] => True
  | (k, v) :: entries => (∃ s, k = .str s) ∧ Plain v ∧ PlainEntries entries

end

/-- The value can be dumped, and is loaded as it was. -/
def Survives (v : PyValue) : Prop := ∃ j, v.dumps = .ok j ∧ loads j = v

theorem key_of_mem_loadsFields {fields : List (String × Json)} {e : PyKey × PyValue}
    (h : e ∈ loadsFields fields) : ∃ s, e.1 = .str s := by
  induction fields with
  | nil => cases h
  | cons f fields ih =>
    rcases List.mem_cons.mp h with rfl | h
    · exact ⟨f.1, rfl⟩
    · exact ih h

/-- Keys that are texts are the keys of the document. -/
theorem keys_loadsFields {entries : List (PyKey × PyValue)} {fields : List (String × Json)}
    (h : dumpsEntries entries = .ok fields) (hkeys : ∀ e ∈ entries, ∃ s, e.1 = .str s) :
    (loadsFields fields).map Prod.fst = entries.map Prod.fst := by
  induction entries generalizing fields with
  | nil =>
    cases h
    rfl
  | cons e entries ih =>
    obtain ⟨k, v⟩ := e
    obtain ⟨s, rfl⟩ : ∃ s, k = .str s := hkeys _ List.mem_cons_self
    simp only [dumpsEntries] at h
    obtain ⟨key, hkey, h⟩ := bind_eq_ok.mp h
    obtain ⟨j, hj, h⟩ := bind_eq_ok.mp h
    obtain ⟨rest, hrest, h⟩ := bind_eq_ok.mp h
    cases h
    cases hkey
    simp [loadsFields, ih hrest fun e he => hkeys e (List.mem_cons_of_mem _ he)]

mutual

/-- **What comes back as it was.** -/
theorem survives_iff : ∀ v : PyValue, v.Survives ↔ v.Plain
  | .none => iff_of_true ⟨_, rfl, rfl⟩ trivial
  | .bool b => iff_of_true ⟨_, rfl, rfl⟩ trivial
  | .int n => iff_of_true ⟨_, rfl, rfl⟩ trivial
  | .float x => iff_of_true ⟨_, rfl, rfl⟩ trivial
  | .str s => iff_of_true ⟨_, rfl, rfl⟩ trivial
  | .other typeName => by
    refine iff_of_false ?_ id
    intro ⟨j, hj, _⟩
    cases hj
  | .tuple items => by
    refine iff_of_false ?_ id
    intro ⟨j, hj, hloads⟩
    obtain ⟨js, hjs, h⟩ := bind_eq_ok.mp hj
    cases h
    cases hloads
  | .list items => by
    refine Iff.trans ?_ (survives_items items)
    constructor
    · intro ⟨j, hj, hloads⟩
      obtain ⟨js, hjs, h⟩ := bind_eq_ok.mp hj
      cases h
      exact ⟨js, hjs, by simpa [loads] using hloads⟩
    · intro ⟨js, hjs, hloads⟩
      exact ⟨.arr js, by rw [dumps, hjs]; rfl, by rw [loads, hloads]⟩
  | .dict entries => by
    constructor
    · intro ⟨j, hj, hloads⟩
      obtain ⟨fields, hfields, h⟩ := bind_eq_ok.mp hj
      cases h
      have hentries : OrderedDict.entriesOf (loadsFields fields) = entries := by
        simpa [loads] using hloads
      have hnodup : (entries.map Prod.fst).Nodup := by
        rw [← hentries]
        exact OrderedDict.nodup_entriesOf _
      have hkeys : ∀ e ∈ entries, ∃ s, e.1 = .str s := by
        intro e he
        rw [← hentries] at he
        exact key_of_mem_loadsFields (OrderedDict.mem_of_mem_entriesOf he)
      rw [OrderedDict.entriesOf_of_nodup (by rw [keys_loadsFields hfields hkeys]; exact hnodup)]
        at hentries
      exact ⟨hnodup, (survives_entries entries).mp ⟨fields, hfields, hentries⟩⟩
    · intro ⟨hnodup, hplain⟩
      obtain ⟨fields, hfields, hentries⟩ := (survives_entries entries).mpr hplain
      refine ⟨.obj fields, by rw [dumps, hfields]; rfl, ?_⟩
      rw [loads, hentries, OrderedDict.entriesOf_of_nodup hnodup]

theorem survives_items : ∀ vs : List PyValue,
    (∃ js, dumpsItems vs = .ok js ∧ loadsItems js = vs) ↔ PlainItems vs
  | [] => iff_of_true ⟨_, rfl, rfl⟩ trivial
  | v :: vs => by
    refine Iff.trans ?_ (and_congr (survives_iff v) (survives_items vs))
    constructor
    · intro ⟨js, hjs, hloads⟩
      obtain ⟨j, hj, h⟩ := bind_eq_ok.mp hjs
      obtain ⟨rest, hrest, h⟩ := bind_eq_ok.mp h
      cases h
      obtain ⟨hv, hvs⟩ := List.cons.inj hloads
      exact ⟨⟨j, hj, hv⟩, rest, hrest, hvs⟩
    · intro ⟨⟨j, hj, hv⟩, rest, hrest, hvs⟩
      exact ⟨j :: rest, by rw [dumpsItems, hj, hrest]; rfl, by rw [loadsItems, hv, hvs]⟩

theorem survives_entries : ∀ entries : List (PyKey × PyValue),
    (∃ fields, dumpsEntries entries = .ok fields ∧ loadsFields fields = entries) ↔
      PlainEntries entries
  | [] => iff_of_true ⟨_, rfl, rfl⟩ trivial
  | (k, v) :: entries => by
    refine Iff.trans ?_ (and_congr Iff.rfl (and_congr (survives_iff v) (survives_entries entries)))
    constructor
    · intro ⟨fields, hfields, hloads⟩
      obtain ⟨key, htext, h⟩ := bind_eq_ok.mp hfields
      obtain ⟨j, hj, h⟩ := bind_eq_ok.mp h
      obtain ⟨rest, hrest, h⟩ := bind_eq_ok.mp h
      cases h
      obtain ⟨hfirst, hothers⟩ := List.cons.inj hloads
      obtain ⟨hk, hv⟩ := Prod.mk.inj hfirst
      exact ⟨⟨key, hk.symm⟩, ⟨j, hj, hv⟩, rest, hrest, hothers⟩
    · intro ⟨⟨key, hk⟩, ⟨j, hj, hv⟩, rest, hrest, hothers⟩
      refine ⟨(key, j) :: rest, ?_, by rw [loadsFields, hv, hothers, hk]⟩
      rw [dumpsEntries, hk, hj, hrest]
      rfl

end

/-- A key that is a number comes back as a text, and a tuple as a list. -/
example : (dumps (.dict [(.int 1, .tuple [.none])])).map loads
    = .ok (.dict [(.str "1", .list [.none])]) := by rfl

end PyValue

end DoxAsdlc

import DoxAsdlc.Interaction.Awaiting
import Mathlib.Data.Rat.Defs

/-!
# The store of the architect board

The canvas is exported to SVG by the drawing library, and the exported SVG is translated to
other formats by the server.  Both are awaited, and written to the store when they arrive.

An element of the canvas is any value of a type `Element`.

Beside the store stands where its texts come from: the canvas that the exported drawing shows,
and the drawing that each translation was made from.  The store keeps neither, so it cannot see
that an answer is late: a new export leaves the translations of the previous one, and an export
or a translation that was asked for before a reset is written after it.

## Main definitions

* `ArchitectState` — the store, with `ArchitectState.initial`.
* `Action`, `Request`, `Answer` — what is done, what is awaited and what comes back.
* `architectStore` — the store with the requests it awaits.
* `Watched`, `watched` — the store with the origins of its texts.
* `Current` — every translation is one of the exported drawing, and that one of a canvas there
  has been since the last reset.
* `current_iff` — exactly when.
-/

namespace DoxAsdlc.HitlUi.Architect

open Interaction

/-- The formats the server translates to. -/
inductive TranslationFormat
  | png | mmd | drawio
  deriving DecidableEq

inductive ExportFormat
  | svg
  | translated (format : TranslationFormat)
  deriving DecidableEq

/-- A value for each format. -/
structure PerFormat (α : Type) where
  png : α
  mmd : α
  drawio : α
  deriving DecidableEq

namespace PerFormat

variable {α : Type}

def get (p : PerFormat α) : TranslationFormat → α
  | .png => p.png
  | .mmd => p.mmd
  | .drawio => p.drawio

def set (p : PerFormat α) : TranslationFormat → α → PerFormat α
  | .png, a => { p with png := a }
  | .mmd, a => { p with mmd := a }
  | .drawio, a => { p with drawio := a }

@[simp] theorem get_set (p : PerFormat α) (f g : TranslationFormat) (a : α) :
    (p.set f a).get g = if g = f then a else p.get g := by
  cases f <;> cases g <;> rfl

end PerFormat

abbrev TranslatedContent := PerFormat (Option String)

def TranslatedContent.empty : TranslatedContent := ⟨none, none, none⟩

@[simp] theorem TranslatedContent.get_empty (f : TranslationFormat) :
    TranslatedContent.empty.get f = none := by
  cases f <;> rfl

structure ArchitectAppState where
  viewBackgroundColor : String
  zoom : ℚ
  scrollX : ℚ
  scrollY : ℚ
  deriving DecidableEq

variable {Element : Type}

/-- The store of the board. -/
structure ArchitectState (Element : Type) where
  canvasId : Option String
  canvasName : String
  elements : List Element
  appState : ArchitectAppState
  exportedSvg : Option String
  isExporting : Bool
  isTranslating : Bool
  translationError : Option String
  translatedContent : TranslatedContent
  activeOutputTab : ExportFormat
  isToolsPanelOpen : Bool
  isOutputPanelOpen : Bool
  deriving DecidableEq

def ArchitectState.initial : ArchitectState Element where
  canvasId := none
  canvasName := "Untitled Architecture"
  elements := []
  appState := ⟨"#ffffff", 1, 0, 0⟩
  exportedSvg := none
  isExporting := false
  isTranslating := false
  translationError := none
  translatedContent := .empty
  activeOutputTab := .svg
  isToolsPanelOpen := false
  isOutputPanelOpen := false

/-! ## Requests and answers -/

/-- What the store awaits. -/
inductive Request (Element : Type)
  | exportToSvg (elements : List Element) (appState : ArchitectAppState)
      (exportWithDarkMode : Bool)
  | translateDiagram (svgContent : String) (format : TranslationFormat)
  deriving DecidableEq

/-- The text of an exported drawing, or the content of a translation; an exception comes with
its message if it is an `Error`. -/
abbrev Answer (_ : Request Element) : Type := Except (Option String) String

/-! ## Actions -/

inductive Action (Element : Type)
  | updateElements (elements : List Element)
  | performExport
  | translateTo (format : TranslationFormat)
  | clearTranslation (format : Option TranslationFormat)
  | resetCanvas
  deriving DecidableEq

namespace ArchitectState

def performExport (s : ArchitectState Element) :
    ArchitectState Element × Option (Request Element) :=
  if s.elements = [] then (s, none)
  else ({ s with isExporting := true }, some (.exportToSvg s.elements s.appState true))

def exported (answer : Except (Option String) String) (s : ArchitectState Element) :
    ArchitectState Element :=
  match answer with
  | .ok svgString => { s with exportedSvg := some svgString, isExporting := false }
  | .error _ => { s with isExporting := false }

/-- An empty text is no content to translate either. -/
def translateTo (format : TranslationFormat) (s : ArchitectState Element) :
    ArchitectState Element × Option (Request Element) :=
  match s.exportedSvg.filter (· ≠ "") with
  | none =>
    ({ s with translationError := some "No SVG content to translate. Export to SVG first." }, none)
  | some svg =>
    ({ s with isTranslating := true, translationError := none },
      some (.translateDiagram svg format))

def translated (format : TranslationFormat) (answer : Except (Option String) String)
    (s : ArchitectState Element) : ArchitectState Element :=
  match answer with
  | .ok content =>
    { s with
      isTranslating := false
      translatedContent := s.translatedContent.set format (some content)
      activeOutputTab := .translated format }
  | .error message =>
    { s with isTranslating := false, translationError := some (message.getD "Translation failed") }

def clearTranslation (format : Option TranslationFormat) (s : ArchitectState Element) :
    ArchitectState Element :=
  match format with
  | some format =>
    { s with translatedContent := s.translatedContent.set format none, translationError := none }
  | none => { s with translatedContent := .empty, translationError := none }

end ArchitectState

/-- What an action does before anything else runs. -/
def act : Action Element → ArchitectState Element →
    ArchitectState Element × Option (Request Element)
  | .updateElements elements, s => ({ s with elements := elements }, none)
  | .performExport, s => s.performExport
  | .translateTo format, s => s.translateTo format
  | .clearTranslation format, s => (s.clearTranslation format, none)
  | .resetCanvas, _ => (.initial, none)

/-- What the store does when it is answered. -/
def resume : (r : Request Element) → Answer r → ArchitectState Element → ArchitectState Element
  | .exportToSvg .., answer, s => s.exported answer
  | .translateDiagram _ format, answer, s => s.translated format answer

/-- The store with the requests it awaits. -/
def architectStore : Client (ArchitectState Element) (Action Element) (Request Element) Answer :=
  ⟨act, resume⟩

/-! ## What is left alone -/

namespace ArchitectState

variable (s : ArchitectState Element) (format : TranslationFormat)

@[simp] theorem exportedSvg_performExport : s.performExport.1.exportedSvg = s.exportedSvg := by
  simp only [performExport]
  split <;> rfl

@[simp] theorem translatedContent_performExport :
    s.performExport.1.translatedContent = s.translatedContent := by
  simp only [performExport]
  split <;> rfl

@[simp] theorem exportedSvg_translateTo : (s.translateTo format).1.exportedSvg = s.exportedSvg := by
  simp only [translateTo]
  split <;> rfl

@[simp] theorem translatedContent_translateTo :
    (s.translateTo format).1.translatedContent = s.translatedContent := by
  simp only [translateTo]
  split <;> rfl

@[simp] theorem exportedSvg_clearTranslation (format : Option TranslationFormat) :
    (s.clearTranslation format).exportedSvg = s.exportedSvg := by
  cases format <;> rfl

/-- Nothing appears when translations are cleared. -/
theorem get_clearTranslation {format : Option TranslationFormat} {f : TranslationFormat}
    {content : String} (h : (s.clearTranslation format).translatedContent.get f = some content) :
    s.translatedContent.get f = some content := by
  cases format with
  | none => simp [clearTranslation] at h
  | some g =>
    by_cases hf : f = g
    · simp [clearTranslation, hf] at h
    · simpa [clearTranslation, hf] using h

end ArchitectState
end DoxAsdlc.HitlUi.Architect

/-! ## Exports and translations that have grown old -/

namespace DoxAsdlc.HitlUi.Architect

open Interaction

variable {Element : Type}

/-- The store, what the canvas has been since the last reset, and what the texts were made
from. -/
structure Watched (Element : Type) where
  store : ArchitectState Element
  had : List (List Element)
  exportedFrom : Option (List Element)
  translatedFrom : PerFormat (Option String)

/-- The board as it is opened and after a reset. -/
def Watched.blank : Watched Element := ⟨.initial, [[]], none, ⟨none, none, none⟩⟩

/-- An action, with its effect on what the canvas has been. -/
def Watched.act (a : Action Element) (v : Watched Element) : Watched Element :=
  let v' := { v with store := (architectStore.act a v.store).1 }
  match a with
  | .updateElements elements => { v' with had := elements :: v.had }
  | .resetCanvas => .blank
  | _ => v'

/-- An answer, with the origin of what it brings. -/
def Watched.resume (r : Request Element) (answer : Answer r) (v : Watched Element) :
    Watched Element :=
  let v' := { v with store := architectStore.resume r answer v.store }
  match answer, r with
  | .error _, _ => v'
  | .ok _, .exportToSvg elements _ _ => { v' with exportedFrom := some elements }
  | .ok _, .translateDiagram svg format =>
    { v' with translatedFrom := v.translatedFrom.set format (some svg) }

/-- The store with the origins of its texts beside it. -/
def watched : Client (Watched Element) (Action Element) (Request Element) Answer where
  act a v := (v.act a, (architectStore.act a v.store).2)
  resume := Watched.resume

/-- The board before anything has happened. -/
def opened : Awaiting (Watched Element) (Request Element) := ⟨.blank, []⟩

/-- Nothing is older than it looks. -/
structure Current (v : Watched Element) : Prop where
  /-- What is translated is the exported drawing. -/
  translations : ∀ f content, v.store.translatedContent.get f = some content →
    ∃ svg, v.store.exportedSvg = some svg ∧ v.translatedFrom.get f = some svg
  /-- What is exported is a canvas there has been since the last reset. -/
  drawing : ∀ svg, v.store.exportedSvg = some svg →
    ∃ elements ∈ v.had, v.exportedFrom = some elements

/-- What the answers have to be like.  An export has to show a canvas there has been since the
last reset, and to be the drawing that everything was translated from which is still there; a
translation has to be one of the drawing that is exported by then. -/
def Timely (r : Request Element) (answer : Answer r) (v : Watched Element) : Prop :=
  match answer, r with
  | .error _, _ => True
  | .ok svg, .exportToSvg elements _ _ => elements ∈ v.had ∧
      ∀ f content, v.store.translatedContent.get f = some content →
        v.translatedFrom.get f = some svg
  | .ok _, .translateDiagram svg _ => v.store.exportedSvg = some svg

/-! ## Actions -/

theorem Current.blank : Current (.blank : Watched Element) := by
  constructor
  · intro f content hcontent
    simp [Watched.blank, ArchitectState.initial] at hcontent
  · intro svg hsvg
    simp [Watched.blank, ArchitectState.initial] at hsvg

/-- Where no text is new, nothing has grown old. -/
theorem Current.frame {v : Watched Element} (h : Current v) (v' : Watched Element)
    (htranslations : ∀ f content, v'.store.translatedContent.get f = some content →
      v.store.translatedContent.get f = some content)
    (hsvg : v'.store.exportedSvg = v.store.exportedSvg) (hhad : v.had ⊆ v'.had)
    (hfrom : v'.exportedFrom = v.exportedFrom) (hfrom' : v'.translatedFrom = v.translatedFrom) :
    Current v' := by
  constructor
  · intro f content hcontent
    rw [hsvg, hfrom']
    exact h.translations f content (htranslations f content hcontent)
  · intro svg hexported
    rw [hsvg] at hexported
    obtain ⟨elements, hmem, helements⟩ := h.drawing svg hexported
    exact ⟨elements, hhad hmem, hfrom.trans helements⟩

/-- **No action makes a text old.** -/
theorem Current.act {v : Watched Element} (h : Current v) (a : Action Element) :
    Current (v.act a) := by
  cases a with
  | updateElements elements =>
    exact h.frame _ (fun _ _ hcontent => hcontent) rfl (List.subset_cons_self _ _) rfl rfl
  | performExport =>
    refine h.frame (v.act .performExport) ?_ ?_ (List.Subset.refl _) rfl rfl
    · intro f content hcontent
      simpa [Watched.act, architectStore, Architect.act] using hcontent
    · simp [Watched.act, architectStore, Architect.act]
  | translateTo format =>
    refine h.frame (v.act (.translateTo format)) ?_ ?_ (List.Subset.refl _) rfl rfl
    · intro f content hcontent
      simpa [Watched.act, architectStore, Architect.act] using hcontent
    · simp [Watched.act, architectStore, Architect.act]
  | clearTranslation format =>
    refine h.frame (v.act (.clearTranslation format)) ?_ ?_ (List.Subset.refl _) rfl rfl
    · intro f content hcontent
      exact v.store.get_clearTranslation hcontent
    · simp [Watched.act, architectStore, Architect.act]
  | resetCanvas => exact Current.blank

/-! ## Answers -/

theorem current_exported {v : Watched Element} (elements : List Element)
    (appState : ArchitectAppState) (dark : Bool) (svg : String) :
    Current (v.resume (.exportToSvg elements appState dark) (.ok svg)) ↔
      Timely (.exportToSvg elements appState dark) (.ok svg) v := by
  constructor
  · intro h
    obtain ⟨shown, hshown, hfrom⟩ := h.drawing svg rfl
    cases hfrom
    refine ⟨hshown, ?_⟩
    intro f content hcontent
    obtain ⟨svg', hsvg', hfrom⟩ := h.translations f content hcontent
    cases hsvg'
    exact hfrom
  · rintro ⟨hshown, hfrom⟩
    constructor
    · intro f content hcontent
      exact ⟨svg, rfl, hfrom f content hcontent⟩
    · intro _ _
      exact ⟨elements, hshown, rfl⟩

theorem current_translated {v : Watched Element} (h : Current v) (svg content : String)
    (format : TranslationFormat) :
    Current (v.resume (.translateDiagram svg format) (.ok content)) ↔
      Timely (.translateDiagram svg format) (.ok content) v := by
  constructor
  · intro hcurrent
    obtain ⟨svg', hsvg', hfrom⟩ := hcurrent.translations format content
      (by simp [Watched.resume, architectStore, Architect.resume, ArchitectState.translated])
    have hsvg : svg = svg' := by simpa [Watched.resume] using hfrom
    exact hsvg ▸ hsvg'
  · intro hsvg
    refine ⟨?_, h.drawing⟩
    intro f content' hcontent
    refine ⟨svg, hsvg, ?_⟩
    by_cases hf : f = format
    · simp [Watched.resume, hf]
    · have hcontent' : v.store.translatedContent.get f = some content' := by
        simpa [Watched.resume, architectStore, Architect.resume, ArchitectState.translated, hf]
          using hcontent
      obtain ⟨svg', hsvg', hfrom⟩ := h.translations f content' hcontent'
      have heq : svg' = svg := by
        rw [show v.store.exportedSvg = some svg from hsvg] at hsvg'
        exact (Option.some.inj hsvg').symm
      simpa [Watched.resume, hf, heq] using hfrom

/-- An answer keeps everything current exactly when it is timely. -/
theorem current_resume {v : Watched Element} (h : Current v) (r : Request Element)
    (answer : Answer r) : Current (v.resume r answer) ↔ Timely r answer v := by
  cases answer with
  | ok text =>
    cases r with
    | exportToSvg elements appState dark => exact current_exported elements appState dark text
    | translateDiagram svg format => exact current_translated h svg text format
  | error message =>
    refine iff_of_true ?_ trivial
    cases r with
    | exportToSvg elements appState dark =>
      exact h.frame _ (fun _ _ hcontent => hcontent) rfl (List.Subset.refl _) rfl rfl
    | translateDiagram svg format =>
      exact h.frame _ (fun _ _ hcontent => hcontent) rfl (List.Subset.refl _) rfl rfl

/-- **When translated exports are never stale.** -/
theorem current_iff (turns : List (Turn (Action Element) (Request Element) Answer)) :
    Along watched.step (fun w => Current w.state) (fun _ _ _ => True) opened turns ↔
      Each watched.step (Turn.Meets (fun _ _ => True) Timely) opened turns :=
  watched.always_iff_each (P := Current) (fun a _ h => iff_of_true (h.act a) trivial)
    (fun r answer _ h => current_resume h r answer) Current.blank turns

/-- Two exports, the first of them translated in between. -/
def exampleTurns : List (Turn (Action ℕ) (Request ℕ) Answer) :=
  [.act (.updateElements [1]), .act .performExport, .arrive 0 fun _ => .ok "<svg>1</svg>",
    .act (.translateTo .mmd), .arrive 0 fun _ => .ok "graph 1",
    .act (.updateElements [1, 2]), .act .performExport, .arrive 0 fun _ => .ok "<svg>12</svg>"]

/-- **A stale translation**: after the second export the translation is still that of the
first. -/
theorem not_current_exampleTurns :
    ¬ Along watched.step (fun w => Current w.state) (fun _ _ _ => True) opened exampleTurns := by
  intro h
  obtain ⟨svg, hsvg, hfrom⟩ := h.last.translations .mmd "graph 1" (by decide)
  have hexported : (run watched.step opened exampleTurns).state.store.exportedSvg
      = some "<svg>12</svg>" := by decide
  rw [hexported] at hsvg
  cases hsvg
  exact absurd hfrom (by decide)

end DoxAsdlc.HitlUi.Architect

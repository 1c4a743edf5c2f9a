import Mathlib.Data.List.Count

/-!
# Counting semaphores

A semaphore has a counter and a queue of those who wait for it.  A release hands its slot to
the first who waits; until that one goes on, the slot is neither in the counter nor in use.
One who gives up waiting gives a slot that was handed to it to the next.

## Main definitions

* `Semaphore` — the counter, and the queue with who has been handed a slot.
* `Semaphore.free` — the slots that nobody uses.
* `acquire?`, `wait`, `resume`, `cancel`, `release` — the operations.
-/

namespace Interaction

/-- The counter, and who waits; the flag says that a slot has been handed over. -/
structure Semaphore (W : Type) where
  value : ℕ
  waiters : List (W × Bool) := []

namespace Semaphore

variable {W : Type} [DecidableEq W]

/-- The slots that have been handed over and not taken up. -/
def granted (s : Semaphore W) : ℕ := s.waiters.countP fun w => w.2

/-- The slots that nobody uses. -/
def free (s : Semaphore W) : ℕ := s.value + s.granted

/-- Hand a slot to the first who has none. -/
def grant : List (W × Bool) → Option (List (W × Bool))
  | [] => none
  | (w, false) :: waiters => some ((w, true) :: waiters)
  | (w, true) :: waiters => (grant waiters).map ((w, true) :: ·)

/-- Wake up the next who waits, if there is a slot and one who waits. -/
def wakeUpNext (s : Semaphore W) : Semaphore W :=
  match s.value, grant s.waiters with
  | value + 1, some waiters => ⟨value, waiters⟩
  | _, _ => s

/-- Wake up as many as there are slots. -/
def wakeUpAll : ℕ → List (W × Bool) → Semaphore W
  | 0, waiters => ⟨0, waiters⟩
  | value + 1, waiters =>
    match grant waiters with
    | none => ⟨value + 1, waiters⟩
    | some waiters => wakeUpAll value waiters

/-- Take a slot at once, if there is one and nobody waits. -/
def acquire? (s : Semaphore W) : Option (Semaphore W) :=
  match s.value, s.waiters with
  | value + 1, [] => some ⟨value, []⟩
  | _, _ => none

/-- Begin to wait. -/
def wait (s : Semaphore W) (w : W) : Semaphore W :=
  { s with waiters := s.waiters ++ [(w, false)] }

/-- Take up the slot that was handed over. -/
def resume (s : Semaphore W) (w : W) : Semaphore W :=
  wakeUpAll s.value (s.waiters.erase (w, true))

/-- Give up waiting. -/
def cancel (s : Semaphore W) (w : W) : Semaphore W :=
  if (w, true) ∈ s.waiters then
    wakeUpAll (s.value + 1) (s.waiters.erase (w, true))
  else wakeUpAll s.value (s.waiters.erase (w, false))

/-- Give a slot back. -/
def release (s : Semaphore W) : Semaphore W := wakeUpNext { s with value := s.value + 1 }

variable {s s' : Semaphore W}

omit [DecidableEq W] in
theorem countP_grant {l l' : List (W × Bool)} (h : grant l = some l') :
    l'.countP (fun w => w.2) = l.countP (fun w => w.2) + 1 := by
  induction l generalizing l' with
  | nil => cases h
  | cons w l ih =>
    obtain ⟨w, b⟩ := w
    cases b with
    | false =>
      cases h
      simp
    | true =>
      obtain ⟨rest, hrest, rfl⟩ := Option.map_eq_some_iff.mp h
      simp [ih hrest]

omit [DecidableEq W] in
/-- A slot that is handed over is still free. -/
theorem free_wakeUpNext (s : Semaphore W) : s.wakeUpNext.free = s.free := by
  unfold wakeUpNext
  split
  · next value waiters hvalue hgrant =>
    have hcount := countP_grant hgrant
    simp only [free, granted] at hcount ⊢
    omega
  · rfl

omit [DecidableEq W] in
theorem free_wakeUpAll (value : ℕ) (waiters : List (W × Bool)) :
    (wakeUpAll value waiters).free = value + waiters.countP fun w => w.2 := by
  induction value generalizing waiters with
  | zero => rfl
  | succ value ih =>
    rw [wakeUpAll]
    split
    · rfl
    · next rest hgrant =>
      have hcount := countP_grant hgrant
      rw [ih]
      omega

omit [DecidableEq W] in
theorem free_acquire (h : s.acquire? = some s') : s.free = s'.free + 1 := by
  unfold acquire? at h
  split at h
  · next value hvalue hwaiters =>
    cases h
    simp only [free, granted, hvalue, hwaiters]
    omega
  · cases h

omit [DecidableEq W] in
theorem free_wait (s : Semaphore W) (w : W) : (s.wait w).free = s.free := by
  simp [free, granted, wait]

theorem countP_erase {l : List (W × Bool)} {w : W} (h : (w, true) ∈ l) :
    l.countP (fun w => w.2) = (l.erase (w, true)).countP (fun w => w.2) + 1 := by
  rw [(List.perm_cons_erase h).countP_eq]
  simp

theorem free_resume {w : W} (h : (w, true) ∈ s.waiters) : s.free = (s.resume w).free + 1 := by
  have hcount := countP_erase h
  rw [resume, free_wakeUpAll]
  simp only [free, granted]
  omega

theorem free_cancel (s : Semaphore W) (w : W) : (s.cancel w).free = s.free := by
  unfold cancel
  split
  · next h =>
    have hcount := countP_erase h
    rw [free_wakeUpAll]
    simp only [free, granted]
    omega
  · rw [free_wakeUpAll, free, granted]
    by_cases h : (w, false) ∈ s.waiters
    · rw [(List.perm_cons_erase h).countP_eq]
      simp
    · rw [List.erase_of_not_mem h]

omit [DecidableEq W] in
theorem free_release (s : Semaphore W) : s.release.free = s.free + 1 := by
  rw [release, free_wakeUpNext]
  simp only [free, granted]
  omega

end Semaphore
end Interaction

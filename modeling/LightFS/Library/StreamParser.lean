import Mathlib.Data.List.Basic

/-!
# Parsers that are driven by their input

A parser that is handed its input piece by piece is described by what one symbol does: it is
refused with an error code, or it leads to a new state and emits events (`StreamParser`). Running
the parser on a buffer (`StreamParser.execute`) ends at the end of the buffer, at the first symbol
that is refused, or right after the first symbol with an event at which the consumer stops it.

## Main definitions

* `StreamParser`, `StreamParser.Execution`, `StreamParser.execute`.
* `StreamParser.Completes` — the input is one message: the run stops right at its end.

## Main results

* `StreamParser.execute_append` — a run that stopped does not depend on what follows.
* `StreamParser.Completes.execute_prefix` — a run on a proper beginning of a message goes on.
-/

namespace LightFS.Library

/-- A parser with symbols `α`, states `σ`, events `ε` and error codes `χ`. -/
structure StreamParser (α σ ε χ : Type*) where
  /-- What one symbol does. -/
  step : σ → α → Except χ (σ × List ε)
  /-- The consumer stops the parser at this event. -/
  stops : ε → Bool

namespace StreamParser

/-- How a run ended. -/
inductive Outcome (χ : Type*) where
  | ok
  | paused
  | error (code : χ)

/-- A run of the parser on a buffer. -/
structure Execution (σ ε χ : Type*) where
  events : List ε
  outcome : Outcome χ
  /-- The number of symbols before the place where the run ended. -/
  consumed : ℕ
  state : σ

variable {α σ ε χ : Type*} (P : StreamParser α σ ε χ)

/-- Run the parser on a buffer. -/
def execute : σ → List α → Execution σ ε χ
  | s, [] => ⟨[], .ok, 0, s⟩
  | s, a :: as =>
    match P.step s a with
    | .error code => ⟨[], .error code, 0, s⟩
    | .ok (s', events) =>
      if events.any P.stops then ⟨events, .paused, 1, s'⟩
      else
        let rest := execute s' as
        ⟨events ++ rest.events, rest.outcome, rest.consumed + 1, rest.state⟩

/-- The input is one message from the state `s`. -/
def Completes (s : σ) (as : List α) : Prop :=
  (P.execute s as).outcome = .paused ∧ (P.execute s as).consumed = as.length

variable {P} {s : σ} {as : List α}

theorem consumed_le : (P.execute s as).consumed ≤ as.length := by
  induction as generalizing s with
  | nil => exact Nat.le_refl _
  | cons a as ih =>
    rw [execute]
    cases hstep : P.step s a with
    | error code => exact Nat.zero_le _
    | ok r =>
      obtain ⟨s', events⟩ := r
      dsimp only
      split_ifs with hstop
      · exact Nat.succ_le_succ (Nat.zero_le _)
      · exact Nat.succ_le_succ ih

/-- A run that stopped, or failed, does not depend on what follows. -/
theorem execute_append (h : (P.execute s as).outcome ≠ .ok) (bs : List α) :
    P.execute s (as ++ bs) = P.execute s as := by
  induction as generalizing s with
  | nil => exact absurd rfl h
  | cons a as ih =>
    rw [List.cons_append, execute, execute]
    rw [execute] at h
    cases hstep : P.step s a with
    | error code => rfl
    | ok r =>
      obtain ⟨s', events⟩ := r
      rw [hstep] at h
      dsimp only at h ⊢
      split_ifs at h ⊢ with hstop
      · rfl
      · rw [ih h]

/-- A run that goes on has consumed everything and met no event to stop at. -/
theorem of_outcome_ok (h : (P.execute s as).outcome = .ok) :
    ∀ e ∈ (P.execute s as).events, P.stops e = false := by
  induction as generalizing s with
  | nil => exact fun e he => absurd he List.not_mem_nil
  | cons a as ih =>
    rw [execute] at h ⊢
    cases hstep : P.step s a with
    | error code =>
      rw [hstep] at h
      cases h
    | ok r =>
      obtain ⟨s', events⟩ := r
      rw [hstep] at h
      dsimp only at h ⊢
      split_ifs at h ⊢ with hstop
      intro e he
      rcases List.mem_append.mp he with he | he
      · simp only [List.any_eq_true, not_exists, not_and, Bool.not_eq_true] at hstop
        exact hstop e he
      · exact ih h e he

/-- The events of the first symbol come first. -/
theorem events_execute_cons {a : α} {s' : σ} {events : List ε}
    (hstep : P.step s a = .ok (s', events)) :
    ∃ rest, (P.execute s (a :: as)).events = events ++ rest := by
  rw [execute, hstep]
  dsimp only
  split_ifs with hstop
  · exact ⟨[], (List.append_nil _).symm⟩
  · exact ⟨_, rfl⟩

/-- A run on a proper beginning of a message goes on. -/
theorem Completes.execute_prefix {bs : List α} (h : P.Completes s (as ++ bs)) (hbs : bs ≠ []) :
    (P.execute s as).outcome = .ok := by
  by_contra hstopped
  have hconsumed := h.2
  rw [execute_append hstopped, List.length_append] at hconsumed
  have hle : (P.execute s as).consumed ≤ as.length := consumed_le
  have hpos := List.length_pos_of_ne_nil hbs
  omega

/-- What follows a message is not looked at. -/
theorem Completes.execute_append (h : P.Completes s as) (bs : List α) :
    P.execute s (as ++ bs) = P.execute s as :=
  StreamParser.execute_append (h.1 ▸ nofun) bs

end StreamParser

end LightFS.Library

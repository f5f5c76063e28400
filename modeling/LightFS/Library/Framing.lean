import Mathlib.Data.Nat.Notation
import Mathlib.Data.List.Basic

/-!
# Messages on a stream

A reader takes one message off the front of a stream. Read one behind the other, the messages of a
list are recovered if and only if each of them is, whatever follows it
(`MessageReader.readAll_flatMap_iff`).

## Main definitions

* `MessageReader`, `MessageReader.readAll`.

## Main results

* `MessageReader.readAll_flatMap_iff`.
-/

namespace LightFS.Library

/-- A reader of messages `β` on a stream of symbols `α`. -/
structure MessageReader (α β : Type*) where
  /-- The symbols of a message. -/
  symbols : β → List α
  /-- Take one message off the front. -/
  read : List α → Option (β × List α)
  append_of_read {stream rest : List α} {message : β}
    (h : read stream = some (message, rest)) : symbols message ++ rest = stream

namespace MessageReader

variable {α β ι : Type*} (R : MessageReader α β)

/-- Read at most `fuel` messages, up to the end of the stream. -/
def readUpTo : ℕ → List α → Option (List β)
  | _, [] => some []
  | 0, _ :: _ => none
  | fuel + 1, a :: stream =>
    (R.read (a :: stream)).bind fun read => (readUpTo fuel read.2).map (read.1 :: ·)

/-- Read messages up to the end of the stream. -/
def readAll (stream : List α) : Option (List β) := R.readUpTo stream.length stream

variable {R} {message : ι → β} {P : ι → Prop}

/-- The induction is on the list; the fuel is enough when it covers the symbols. -/
theorem readUpTo_flatMap_iff (l : List ι) (hne : ∀ i ∈ l, R.symbols (message i) ≠ [])
    (hread : ∀ i ∈ l, ∀ rest,
      R.read (R.symbols (message i) ++ rest) = some (message i, rest) ↔ P i)
    {fuel : ℕ} (hfuel : (l.flatMap fun i => R.symbols (message i)).length ≤ fuel) :
    R.readUpTo fuel (l.flatMap fun i => R.symbols (message i)) = some (l.map message) ↔
      ∀ i ∈ l, P i := by
  induction l generalizing fuel with
  | nil =>
    refine iff_of_true ?_ fun i hi => absurd hi List.not_mem_nil
    rw [List.flatMap_nil, readUpTo, List.map_nil]
  | cons i l ih =>
    rw [List.forall_mem_cons] at hne hread
    rw [List.flatMap_cons] at hfuel
    rw [List.flatMap_cons, List.map_cons, List.forall_mem_cons]
    generalize hrest : (l.flatMap fun i => R.symbols (message i)) = rest at hfuel ih ⊢
    obtain ⟨a, symbols, hsymbols⟩ := List.exists_cons_of_ne_nil hne.1
    have hone := hread.1 rest
    rw [hsymbols, List.cons_append] at hfuel hone ⊢
    obtain ⟨fuel, rfl⟩ : ∃ k, fuel = k + 1 :=
      Nat.exists_eq_add_one_of_ne_zero (by rw [List.length_cons] at hfuel; omega)
    have hleft : rest.length ≤ fuel := by
      rw [List.length_cons, List.length_append] at hfuel
      omega
    rw [readUpTo, ← hone, ← ih hne.2 hread.2 hleft]
    constructor
    · intro h
      obtain ⟨⟨first, rest'⟩, hfirst, htail⟩ := Option.bind_eq_some_iff.mp h
      obtain ⟨messages, hmessages, heq⟩ := Option.map_eq_some_iff.mp htail
      obtain ⟨rfl, rfl⟩ := List.cons.inj heq
      -- what is left is determined by the symbols of the first message
      have hrest' : rest' = rest := by
        have happend := R.append_of_read hfirst
        rw [← List.cons_append, ← hsymbols] at happend
        exact List.append_cancel_left happend
      subst hrest'
      exact ⟨hfirst, hmessages⟩
    · rintro ⟨hfirst, htail⟩
      rw [hfirst, Option.bind_some, htail, Option.map_some]

/-- A list of messages is recovered if and only if each of them is. -/
theorem readAll_flatMap_iff (l : List ι) (hne : ∀ i ∈ l, R.symbols (message i) ≠ [])
    (hread : ∀ i ∈ l, ∀ rest,
      R.read (R.symbols (message i) ++ rest) = some (message i, rest) ↔ P i) :
    R.readAll (l.flatMap fun i => R.symbols (message i)) = some (l.map message) ↔
      ∀ i ∈ l, P i :=
  readUpTo_flatMap_iff l hne hread (Nat.le_refl _)

end MessageReader

end LightFS.Library

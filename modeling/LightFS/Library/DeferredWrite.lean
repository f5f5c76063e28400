import Mathlib.Data.List.Infix
import Mathlib.Logic.Function.Basic
import LightFS.Library.Machine

/-!
# Writes that read their memory later

An asynchronous write is given addresses, not bytes: the memory behind them is read when the bytes
are transmitted, in pieces, and may have changed by then. This file describes channels with at most
one write in flight each (`deferredMachine`), and the channels that a writer has in mind, which copy
the bytes when the write is submitted (`copyMachine`). What is submitted is produced by code that
also changes the memory (`produce`).

The writer sees writes that are submitted and completed (`WriteEvent`), and not when the memory is
read. For a sequence of submissions and completions the two kinds of channels transmit the same,
whatever is read at whatever time in between, if and only if every write that is submitted keeps the
bytes of all writes that are in flight at that time (`results_eq_iff_compatible`).

## Main definitions

* `WriteEvent`, `WriteStep`, `eventsOf`, `Deferred`, `deferredMachine`, `copyMachine`.
* `inFlightMachine` — the writes that are submitted and not completed.
* `Compatible` — a write keeps the bytes of all writes in flight.

## Main results

* `results_eq_iff_compatible`.
-/

namespace LightFS.Library

variable {μ κ α ι V : Type*}

/-- What the writer does and sees. -/
inductive WriteEvent (κ ι : Type*) where
  /-- A write is submitted, if the channel has none in flight. -/
  | submit (k : κ) (i : ι)
  /-- The write in flight completes: all its bytes are transmitted, or it has failed and the rest is
  not transmitted. -/
  | finish (k : κ)

/-- What happens to the channels. -/
inductive WriteStep (κ ι : Type*) where
  | event (e : WriteEvent κ ι)
  /-- The next `n` bytes are read and transmitted, or what is left. -/
  | transmit (k : κ) (n : ℕ)

/-- The part of a run that the writer sees. -/
def eventsOf (steps : List (WriteStep κ ι)) : List (WriteEvent κ ι) :=
  steps.filterMap fun
    | .event e => some e
    | .transmit _ _ => none

/-- A memory, and the addresses that the write in flight of each channel has still to read. -/
structure Deferred (μ κ α : Type*) where
  memory : μ
  unsent : κ → Option (List α)

/-- Channels whose writes are read from memory when they are transmitted. No write is submitted when
`produce` gives no addresses. -/
def deferredMachine [DecidableEq κ] (load : μ → α → V) (produce : μ → ι → μ × Option (List α)) :
    Machine (Deferred μ κ α) (WriteStep κ ι) (List V) where
  step
    | s, .event (.submit k i) =>
      if (s.unsent k).isNone then
        (⟨(produce s.memory i).1, Function.update s.unsent k (produce s.memory i).2⟩, [])
      else (s, [])
    | s, .event (.finish k) => ({ s with unsent := Function.update s.unsent k none }, [])
    | s, .transmit k n =>
      ({ s with unsent := Function.update s.unsent k ((s.unsent k).map (·.drop n)) },
        (((s.unsent k).getD []).take n).map (load s.memory))

/-- Channels whose writes are copied when they are submitted. -/
def copyMachine [DecidableEq κ] (bytes : ι → Option (List V)) :
    Machine (κ → Option (List V)) (WriteStep κ ι) (List V) where
  step
    | t, .event (.submit k i) =>
      (if (t k).isNone then Function.update t k (bytes i) else t, [])
    | t, .event (.finish k) => (Function.update t k none, [])
    | t, .transmit k n =>
      (Function.update t k ((t k).map (·.drop n)), ((t k).getD []).take n)

/-- The writes in flight, from what the writer sees. Some are not submitted (`written`). -/
def inFlightMachine [DecidableEq κ] (written : ι → Bool) :
    Machine (κ → Option ι) (WriteEvent κ ι) Unit where
  step
    | l, .submit k i =>
      (if (l k).isNone then Function.update l k (if written i then some i else none) else l, ())
    | l, .finish k => (Function.update l k none, ())

/-- A write that is submitted keeps the bytes of all writes in flight. -/
def Compatible (Keeps : ι → ι → Prop) (inFlight : κ → Option ι) : WriteEvent κ ι → Prop
  | .submit k i => inFlight k = none → ∀ k' waiting, inFlight k' = some waiting → Keeps waiting i
  | .finish _ => True

/-- What is written: a write that is submitted has these bytes at its addresses, and another one
keeps those of a write in flight or not, whatever else is in the memory. -/
structure Produces (load : μ → α → V) (produce : μ → ι → μ × Option (List α))
    (bytes : ι → Option (List V)) (Keeps : ι → ι → Prop) : Prop where
  bytes_eq : ∀ m i, (produce m i).2.map (·.map (load (produce m i).1)) = bytes i
  keeps_iff : ∀ {m₀ m : μ} {waiting i : ι} {addresses : List α},
    (produce m₀ waiting).2 = some addresses → bytes waiting = some (addresses.map (load m)) →
      (bytes waiting = some (addresses.map (load (produce m i).1)) ↔ Keeps waiting i)

section Refinement

variable {load : μ → α → V} {produce : μ → ι → μ × Option (List α)} {bytes : ι → Option (List V)}
  {Keeps : ι → ι → Prop} {written : ι → Bool} {m : μ} {n : ℕ}

/-- A channel on which the write in flight, `n` bytes of which are transmitted, is intact: the
memory has the bytes that were copied. -/
inductive Channel (load : μ → α → V) (produce : μ → ι → μ × Option (List α))
    (bytes : ι → Option (List V)) (m : μ) (n : ℕ) :
    Option ι → Option (List α) → Option (List V) → Prop where
  | idle : Channel load produce bytes m n none none none
  | waiting {i : ι} {addresses : List α} (m₀ : μ) (hproduce : (produce m₀ i).2 = some addresses)
      (hbytes : bytes i = some (addresses.map (load m))) :
      Channel load produce bytes m n (some i) (some (addresses.drop n))
        (some ((addresses.map (load m)).drop n))

theorem Channel.isNone_eq {i : Option ι} {unsent : Option (List α)} {copied : Option (List V)}
    (h : Channel load produce bytes m n i unsent copied) :
    unsent.isNone = i.isNone ∧ copied.isNone = i.isNone := by
  cases h <;> exact ⟨rfl, rfl⟩

/-- The bytes that are transmitted are those that were copied. -/
theorem Channel.transmit_eq {i : Option ι} {unsent : Option (List α)} {copied : Option (List V)}
    (h : Channel load produce bytes m n i unsent copied) (k : ℕ) :
    ((unsent.getD []).take k).map (load m) = (copied.getD []).take k := by
  cases h with
  | idle => simp
  | waiting => simp only [Option.getD_some, List.map_take, List.map_drop]

theorem Channel.drop {i : Option ι} {unsent : Option (List α)} {copied : Option (List V)}
    (h : Channel load produce bytes m n i unsent copied) (k : ℕ) :
    Channel load produce bytes m (n + k) i (unsent.map (·.drop k)) (copied.map (·.drop k)) := by
  cases h with
  | idle => exact .idle
  | waiting m₀ hproduce hbytes =>
    simp only [Option.map_some, List.drop_drop]
    exact .waiting m₀ hproduce hbytes

/-- A write that is submitted. -/
theorem Produces.channel (h : Produces load produce bytes Keeps)
    (hwritten : ∀ i, written i = (bytes i).isSome) (m : μ) (i : ι) :
    Channel load produce bytes (produce m i).1 0 (if written i then some i else none)
      (produce m i).2 (bytes i) := by
  have hbytes := h.bytes_eq m i
  rw [hwritten]
  cases haddresses : (produce m i).2 with
  | none =>
    rw [haddresses, Option.map_none] at hbytes
    rw [← hbytes]
    exact .idle
  | some addresses =>
    rw [haddresses, Option.map_some] at hbytes
    rw [← hbytes]
    exact .waiting m haddresses hbytes.symm

/-- A write in flight that another one keeps. -/
theorem Channel.of_keeps (h : Produces load produce bytes Keeps) {waiting : Option ι}
    {unsent : Option (List α)} {copied : Option (List V)}
    (hchannel : Channel load produce bytes m n waiting unsent copied) {i : ι}
    (hkeeps : ∀ w, waiting = some w → Keeps w i) :
    Channel load produce bytes (produce m i).1 n waiting unsent copied := by
  cases hchannel with
  | idle => exact .idle
  | @waiting w addresses m₀ hproduce hbytes =>
    have hafter := (h.keeps_iff hproduce hbytes).mpr (hkeeps w rfl)
    have hsame : addresses.map (load m) = addresses.map (load (produce m i).1) :=
      Option.some.inj (hbytes.symm.trans hafter)
    rw [hsame]
    exact .waiting m₀ hproduce hafter

/-- A write in flight of which nothing is transmitted yet, and that another one does not keep, is
transmitted with other bytes. -/
theorem Channel.keeps_of_eq (h : Produces load produce bytes Keeps) {waiting i : ι}
    {unsent : Option (List α)} {copied : Option (List V)}
    (hchannel : Channel load produce bytes m 0 (some waiting) unsent copied)
    (hsame : ∀ k, ((unsent.getD []).take k).map (load (produce m i).1) =
      (copied.getD []).take k) : Keeps waiting i := by
  cases hchannel with
  | @waiting _ addresses m₀ hproduce hbytes =>
    have hall := hsame addresses.length
    simp only [Option.getD_some, List.drop_zero, List.take_length] at hall
    rw [List.take_of_length_le (List.length_map _).le] at hall
    exact (h.keeps_iff hproduce hbytes).mp (by rw [hbytes, hall])

/-- On every channel the write in flight is intact, and so many bytes of it are transmitted. -/
def Agrees (load : μ → α → V) (produce : μ → ι → μ × Option (List α)) (bytes : ι → Option (List V))
    (sent : κ → ℕ) (s : Deferred μ κ α) (t : κ → Option (List V)) (l : κ → Option ι) : Prop :=
  ∀ k, Channel load produce bytes s.memory (sent k) (l k) (s.unsent k) (t k)

variable [DecidableEq κ] {sent : κ → ℕ} {s : Deferred μ κ α} {t : κ → Option (List V)}
  {l : κ → Option ι}

/-- The channels after one of them has changed. -/
theorem channel_update {k : κ} {n : ℕ} {i : Option ι} {unsent : Option (List α)}
    {copied : Option (List V)} (hk : Channel load produce bytes m n i unsent copied)
    (hother : ∀ k' ≠ k, Channel load produce bytes m (sent k') (l k') (s.unsent k') (t k')) :
    Agrees load produce bytes (Function.update sent k n)
      ⟨m, Function.update s.unsent k unsent⟩ (Function.update t k copied)
      (Function.update l k i) := by
  intro k'
  by_cases hk' : k' = k
  · subst hk'
    simpa only [Function.update_self] using hk
  · simpa only [Function.update_of_ne hk'] using hother k' hk'

/-- An event keeps the writes intact, if a write that is submitted is compatible with them. -/
theorem Agrees.event (h : Produces load produce bytes Keeps)
    (hwritten : ∀ i, written i = (bytes i).isSome) (hagrees : Agrees load produce bytes sent s t l)
    {e : WriteEvent κ ι} (he : Compatible Keeps l e) :
    ∃ sent' : κ → ℕ, (∀ k, sent k = 0 → sent' k = 0) ∧
      Agrees load produce bytes sent' ((deferredMachine load produce).step s (.event e)).1
        ((copyMachine bytes).step t (.event e)).1 ((inFlightMachine written).step l e).1 := by
  have hzero (k k' : κ) (hk' : sent k' = 0) : Function.update sent k 0 k' = 0 := by
    rw [Function.update_apply, hk', ite_self]
  cases e with
  | finish k =>
    exact ⟨_, hzero k, channel_update .idle fun k' _ => hagrees k'⟩
  | submit k i =>
    obtain ⟨hunsent, hcopied⟩ := (hagrees k).isNone_eq
    rw [deferredMachine, copyMachine, inFlightMachine]
    dsimp only
    rw [hunsent, hcopied]
    by_cases hk : (l k).isNone = true
    · rw [if_pos hk, if_pos hk, if_pos hk]
      refine ⟨_, hzero k, channel_update (h.channel hwritten s.memory i) fun k' _ => ?_⟩
      exact (hagrees k').of_keeps h fun w hw => he (Option.isNone_iff_eq_none.mp hk) k' w hw
    · rw [if_neg hk, if_neg hk, if_neg hk]
      exact ⟨sent, fun _ hk' => hk', hagrees⟩

/-- With intact writes the same is transmitted. -/
theorem Agrees.result_eq (hagrees : Agrees load produce bytes sent s t l) (op : WriteStep κ ι) :
    ((deferredMachine load produce).step s op).2 = ((copyMachine bytes).step t op).2 := by
  match op with
  | .event (.submit k i) =>
    change (if (s.unsent k).isNone then _ else _ : _ × List V).2 = []
    split_ifs <;> rfl
  | .event (.finish k) => rfl
  | .transmit k n => exact (hagrees k).transmit_eq n

theorem Agrees.transmit (hagrees : Agrees load produce bytes sent s t l) (k : κ) (n : ℕ) :
    Agrees load produce bytes (Function.update sent k (sent k + n))
      ((deferredMachine load produce).step s (.transmit k n)).1
      ((copyMachine bytes).step t (.transmit k n)).1 l := by
  have hupdate := channel_update (k := k) ((hagrees k).drop n) fun k' _ => hagrees k'
  rwa [Function.update_eq_self] at hupdate

/-- Compatible writes are transmitted as they were submitted, whenever they are read. -/
theorem results_eq_of_compatible (h : Produces load produce bytes Keeps)
    (hwritten : ∀ i, written i = (bytes i).isSome) (hagrees : Agrees load produce bytes sent s t l)
    {steps : List (WriteStep κ ι)}
    (hmeets : (inFlightMachine written).Meets (Compatible Keeps) l (eventsOf steps)) :
    (deferredMachine load produce).results s steps = (copyMachine bytes).results t steps := by
  induction steps generalizing sent s t l with
  | nil => rfl
  | cons op steps ih =>
    rw [Machine.results_cons, Machine.results_cons, hagrees.result_eq]
    refine congrArg (_ :: ·) ?_
    cases op with
    | transmit k n => exact ih (hagrees.transmit k n) hmeets
    | event e =>
      obtain ⟨sent', -, hnext⟩ := hagrees.event h hwritten hmeets.1
      exact ih hnext hmeets.2

/-- A write that is submitted is compatible with the writes in flight, of which nothing is
transmitted yet, if they are transmitted as they were submitted when they are read next. -/
theorem compatible_of_results_eq (h : Produces load produce bytes Keeps)
    (hagrees : Agrees load produce bytes (fun _ => 0) s t l) {e : WriteEvent κ ι}
    (hresults : ∀ k n,
      ((deferredMachine load produce).step
        ((deferredMachine load produce).step s (.event e)).1 (.transmit k n)).2 =
      ((copyMachine bytes).step ((copyMachine bytes).step t (.event e)).1 (.transmit k n)).2) :
    Compatible Keeps l e := by
  cases e with
  | finish k => trivial
  | submit k i =>
    intro hk k' waiting hwaiting
    have hne : k' ≠ k := by
      rintro rfl
      exact absurd (hk.symm.trans hwaiting) (Option.some_ne_none waiting).symm
    obtain ⟨hunsent, hcopied⟩ := (hagrees k).isNone_eq
    rw [hk] at hunsent hcopied
    have hchannel := hagrees k'
    rw [hwaiting] at hchannel
    refine hchannel.keeps_of_eq h fun n => ?_
    have hread := hresults k' n
    simp only [deferredMachine, copyMachine, hunsent, hcopied, Option.isNone_none, if_true,
      Function.update_of_ne hne] at hread
    exact hread

/-- **When writes are transmitted as they were submitted.** For a sequence of submissions and
completions, and whatever is read and transmitted at whatever time in between, the bytes are those
that were submitted if and only if every write keeps the bytes of all writes in flight when it is
submitted. -/
theorem results_eq_iff_compatible (h : Produces load produce bytes Keeps)
    (hwritten : ∀ i, written i = (bytes i).isSome)
    (hagrees : Agrees load produce bytes (fun _ => 0) s t l) (events : List (WriteEvent κ ι)) :
    (∀ steps, eventsOf steps = events →
        (deferredMachine load produce).results s steps = (copyMachine bytes).results t steps) ↔
      (inFlightMachine written).Meets (Compatible Keeps) l events := by
  constructor
  · intro hall
    induction events generalizing s t l with
    | nil => trivial
    | cons e events ih =>
      have hcompatible : Compatible Keeps l e := by
        refine compatible_of_results_eq h hagrees fun k n => ?_
        -- the memory is read right after the event, and not before
        have hone := hall (.event e :: .transmit k n :: events.map .event) (by
          simp [eventsOf, List.filterMap_map])
        exact (List.cons.inj (List.cons.inj hone).2).1
      obtain ⟨sent', hzero, hnext⟩ := hagrees.event h hwritten hcompatible
      obtain rfl : sent' = fun _ => 0 := funext fun k => hzero k rfl
      refine ⟨hcompatible, ih hnext fun steps hsteps => ?_⟩
      exact (List.cons.inj (hall (.event e :: steps) (congrArg (e :: ·) hsteps))).2
  · rintro hmeets steps rfl
    exact results_eq_of_compatible h hwritten hagrees hmeets

end Refinement

end LightFS.Library

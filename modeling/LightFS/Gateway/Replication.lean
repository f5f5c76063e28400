import Mathlib.Data.List.MinMax
import Mathlib.Data.Multiset.Basic
import Mathlib.Data.Prod.Lex
import LightFS.Meta.Types

/-!
# Replication between datacenters

When an object is written in two datacenters, the writes reach each of them in some order, some of
them more than once. `replication_resolve_conflict` (`src/gateway/gateway_replication.c`) decides
whether an incoming write replaces the stored one, by the sequence numbers of the writes and then
by their datacenters.

The stored write is the first one with the greatest stamp (`applyWrites_eq_argmax`), so that
datacenters which have seen the same writes hold the same one.

## Main definitions

* `replicationResolveConflict`, `applyWrite`, `applyWrites`.
* `writeStamp` — what writes are compared by.

## Main results

* `replicationResolveConflict_eq_one_iff`, `applyWrites_eq_argmax`.
* `last_write_wins`.
-/

namespace LightFS.Gateway

open Meta

/-- `replication_resolve_conflict`. -/
def replicationResolveConflict (incomingWriteSequence : UInt64) (incomingDatacenterId : UInt32)
    (existingWriteSequence : UInt64) (existingDatacenterId : UInt32) : ℤ :=
  if incomingWriteSequence > existingWriteSequence then 1
  else if incomingWriteSequence < existingWriteSequence then 0
  else if incomingDatacenterId > existingDatacenterId then 1
  else 0

/-- A write reaches a datacenter: it is stored when there is none, or when it wins the
conflict. -/
def applyWrite : Option ObjectManifest → ObjectManifest → Option ObjectManifest
  | none, incoming => some incoming
  | some existing, incoming =>
    if replicationResolveConflict incoming.writeSequence incoming.datacenterId
        existing.writeSequence existing.datacenterId = 1 then some incoming
    else some existing

/-- Writes reach a datacenter one after the other. -/
def applyWrites (stored : Option ObjectManifest) (deliveries : List ObjectManifest) :
    Option ObjectManifest :=
  deliveries.foldl applyWrite stored

/-- The sequence number of a write and, for equal ones, its datacenter. -/
def writeStamp (write : ObjectManifest) : ℕ ×ₗ ℕ :=
  toLex (write.writeSequence.toNat, write.datacenterId.toNat)

/-- The incoming write wins when its stamp is greater. -/
theorem replicationResolveConflict_eq_one_iff (incoming existing : ObjectManifest) :
    replicationResolveConflict incoming.writeSequence incoming.datacenterId
        existing.writeSequence existing.datacenterId = 1 ↔
      writeStamp existing < writeStamp incoming := by
  rw [writeStamp, writeStamp, Prod.Lex.toLex_lt_toLex, replicationResolveConflict]
  simp only [gt_iff_lt, UInt64.lt_iff_toNat_lt, UInt32.lt_iff_toNat_lt]
  split_ifs with hgreater hless hdatacenter
  · exact iff_of_true rfl (Or.inl hgreater)
  · exact iff_of_false (by decide) (by omega)
  · exact iff_of_true rfl (Or.inr ⟨by omega, hdatacenter⟩)
  · exact iff_of_false (by decide) (by omega)

/-- The stored write is the first one with the greatest stamp. -/
theorem applyWrites_eq_argmax (deliveries : List ObjectManifest) :
    applyWrites none deliveries = deliveries.argmax writeStamp := by
  have hstep : applyWrite = List.argAux fun b c => writeStamp c < writeStamp b := by
    funext stored incoming
    cases stored with
    | none => rfl
    | some existing =>
      simp only [applyWrite, List.argAux, replicationResolveConflict_eq_one_iff]
  rw [applyWrites, hstep, List.argmax]

/-- Equal stamps have equal sequence numbers and datacenters. -/
theorem eq_of_writeStamp_eq {write write' : ObjectManifest}
    (h : writeStamp write = writeStamp write') :
    (write.writeSequence, write.datacenterId) = (write'.writeSequence, write'.datacenterId) := by
  obtain ⟨hsequence, hdatacenter⟩ := Prod.mk.inj (toLex.injective h)
  exact Prod.ext (UInt64.toNat_inj.mp hsequence) (UInt32.toNat_inj.mp hdatacenter)

/-- **Last write wins.** Let each of two datacenters receive all of `writes`, in any order and any
of them repeatedly, and let writes with equal sequence number and datacenter be the same. Then both
end with the same write, the one whose sequence number and datacenter are greatest. -/
theorem last_write_wins (writes : Multiset ObjectManifest)
    (hstamp : ∀ write ∈ writes, ∀ write' ∈ writes,
      (write.writeSequence, write.datacenterId) = (write'.writeSequence, write'.datacenterId) →
        write = write')
    (deliveries deliveries' : List ObjectManifest)
    (hdeliveries : ∀ write, write ∈ deliveries ↔ write ∈ writes)
    (hdeliveries' : ∀ write, write ∈ deliveries' ↔ write ∈ writes) :
    applyWrites none deliveries = applyWrites none deliveries' ∧
    (writes ≠ 0 → ∃ write ∈ writes, applyWrites none deliveries = some write ∧
      ∀ write' ∈ writes, writeStamp write' ≤ writeStamp write) := by
  rw [applyWrites_eq_argmax, applyWrites_eq_argmax]
  -- both lists have the same elements, and only one of these has the greatest stamp
  have hle {l l' : List ObjectManifest} (hl : ∀ write, write ∈ l ↔ write ∈ writes)
      (hl' : ∀ write, write ∈ l' ↔ write ∈ writes) {write : ObjectManifest}
      (h : write ∈ l.argmax writeStamp) : write ∈ l'.argmax writeStamp := by
    have hmem : write ∈ l' := (hl' write).mpr ((hl write).mp (List.argmax_mem h))
    cases hmax : l'.argmax writeStamp with
    | none =>
      rw [List.argmax_eq_none.mp hmax] at hmem
      exact absurd hmem List.not_mem_nil
    | some write' =>
      have hmem' : write' ∈ l := (hl write').mpr ((hl' write').mp (List.argmax_mem hmax))
      have heq : writeStamp write = writeStamp write' :=
        le_antisymm (List.le_of_mem_argmax hmem hmax) (List.le_of_mem_argmax hmem' h)
      exact congrArg some (hstamp write' ((hl write').mp hmem') write ((hl' write).mp hmem)
        (eq_of_writeStamp_eq heq.symm))
  constructor
  · exact Option.ext fun write => ⟨hle hdeliveries hdeliveries', hle hdeliveries' hdeliveries⟩
  · intro hne
    obtain ⟨write, hwrite⟩ := Multiset.exists_mem_of_ne_zero hne
    cases hmax : deliveries.argmax writeStamp with
    | none =>
      rw [← hdeliveries, List.argmax_eq_none.mp hmax] at hwrite
      exact absurd hwrite List.not_mem_nil
    | some last =>
      refine ⟨last, (hdeliveries last).mp (List.argmax_mem hmax), rfl, fun write' hwrite' => ?_⟩
      exact List.le_of_mem_argmax ((hdeliveries write').mpr hwrite') hmax

/-- Two writes with the same sequence number, from two datacenters. -/
theorem last_write_wins_two_datacenters :
    let first : ObjectManifest := { ObjectManifest.zero with writeSequence := 5, datacenterId := 1 }
    let second : ObjectManifest :=
      { ObjectManifest.zero with writeSequence := 5, datacenterId := 2 }
    applyWrites none [first, second, first] = applyWrites none [second, first] := by
  intro first second
  refine (last_write_wins {first, second} ?_ _ _ ?_ ?_).1
  · simp [first, second]
  · intro write
    simp [first, second, or_comm]
  · intro write
    simp [first, second, or_comm]

end LightFS.Gateway

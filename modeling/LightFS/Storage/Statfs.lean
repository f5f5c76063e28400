import Mathlib.Algebra.BigOperators.Fin
import Mathlib.Algebra.Order.BigOperators.Group.Finset
import Mathlib.Data.Nat.ModEq
import LightFS.Library.Interleaving
import LightFS.Storage.Server

/-!
# Aggregation of STATFS over the shards

A STATFS request is sent to every shard (`rpc_handler_statfs`); each shard adds its sizes, or an
error, to a shared aggregator and counts itself off, and the last one to do so sends the reply and
releases the aggregator (`collect_shard_statfs`). The executions run on the threads of the shards,
so every interleaving of their accesses to the aggregator can happen.

An execution is modelled by its program point with the local variables alive there; one step is
one access to shared memory. Accesses to a released aggregator are recorded (`faulted`). What
`shard_get_statfs` returns is a parameter, and allocations succeed.

## Main definitions

* `StatfsAggregator`, `CollectPoint`, `collectShardStatfs`, `rpcHandlerStatfs`.
* `statfsMachine` — all interleavings of the executions of one request.
* `statfsReply` — the reply the request should get.

## Main results

* `statfs_one_reply`.
-/

namespace LightFS.Storage

open Library

/-- `statfs_aggregator_t`. -/
structure StatfsAggregator where
  requestId : UInt64
  remaining : ℤ
  totalSize : UInt64
  usedSize : UInt64
  errorCount : UInt32

/-- The points of `collect_shard_statfs` between two accesses to shared memory. -/
inductive CollectPoint where
  | getStatfs
  | addTotal (total used : UInt64)
  | addUsed (used : UInt64)
  | addError
  | decrement
  | copyRequestId
  | testErrors (requestId : UInt64)
  | copyTotal (requestId : UInt64) (result : UInt32)
  | copyUsed (requestId : UInt64) (result : UInt32) (total : UInt64)
  | sendMsg (msg : ReplyMsg)
  | freeAgg
  | freeCtx
  | done

/-- What the executions for the shards `ι` share: the aggregator, `none` once it is released, the
messages sent to the RPC thread with their senders, and whether a released aggregator was
accessed. -/
structure StatfsShared (ι : Type) where
  agg : Option StatfsAggregator
  messages : List (ι × ReplyMsg)
  faulted : Bool

variable {ι : Type}

/-- An access to the aggregator at the point `l`. -/
def accessAgg (l : CollectPoint) (s : StatfsShared ι)
    (f : StatfsAggregator → CollectPoint × StatfsShared ι) : CollectPoint × StatfsShared ι :=
  match s.agg with
  | none => (l, { s with faulted := true })
  | some agg => f agg

/-- One step of `collect_shard_statfs` for the shard `i`, whose `shard_get_statfs` returns the two
sizes or fails. -/
def collectShardStatfs (i : ι) (sizes : Option (UInt64 × UInt64)) (l : CollectPoint)
    (s : StatfsShared ι) : CollectPoint × StatfsShared ι :=
  match l with
  | .getStatfs =>
    match sizes with
    | some (total, used) => (.addTotal total used, s)
    | none => (.addError, s)
  | .addTotal total used => accessAgg l s fun agg =>
    (.addUsed used, { s with agg := some { agg with totalSize := agg.totalSize + total } })
  | .addUsed used => accessAgg l s fun agg =>
    (.decrement, { s with agg := some { agg with usedSize := agg.usedSize + used } })
  | .addError => accessAgg l s fun agg =>
    (.decrement, { s with agg := some { agg with errorCount := agg.errorCount + 1 } })
  | .decrement => accessAgg l s fun agg =>
    let rem := agg.remaining - 1
    (if rem = 0 then .copyRequestId else .freeCtx,
      { s with agg := some { agg with remaining := rem } })
  | .copyRequestId => accessAgg l s fun agg => (.testErrors agg.requestId, s)
  | .testErrors requestId => accessAgg l s fun agg =>
    (.copyTotal requestId (if 0 < agg.errorCount then ioError else ioSuccess), s)
  | .copyTotal requestId result => accessAgg l s fun agg =>
    (.copyUsed requestId result agg.totalSize, s)
  | .copyUsed requestId result total => accessAgg l s fun agg =>
    (.sendMsg
      { requestId := requestId
        result := result
        opcode := .statfs
        extraData := some (leBytes 8 total.toNat ++ leBytes 8 agg.usedSize.toNat)
        extraLen := 16 }, s)
  | .sendMsg msg => accessAgg l s fun _ =>
    (.freeAgg, { s with messages := s.messages ++ [(i, msg)] })
  | .freeAgg => accessAgg l s fun _ => (.freeCtx, { s with agg := none })
  | .freeCtx => (.done, s)
  | .done => (.done, s)

/-- The executions of one request, none of which has started. -/
def statfsStart (requestId : UInt64) (n : ℕ) :
    Interleaved (Fin n) CollectPoint (StatfsShared (Fin n)) where
  threads _ := .getStatfs
  shared :=
    { agg := some
        { requestId := requestId, remaining := n, totalSize := 0, usedSize := 0, errorCount := 0 }
      messages := []
      faulted := false }

/-- `rpc_handler_statfs`: an answer at once when there are no shards, or an execution for each. -/
def rpcHandlerStatfs (requestId : UInt64) (numShards : ℕ) :
    Except (List UInt8) (Interleaved (Fin numShards) CollectPoint (StatfsShared (Fin numShards))) :=
  if numShards = 0 then .error (encodeSimpleError ioError)
  else .ok (statfsStart requestId numShards)

/-- All interleavings of the executions of one request. -/
def statfsMachine {n : ℕ} (sizes : Fin n → Option (UInt64 × UInt64)) :
    Machine (Interleaved (Fin n) CollectPoint (StatfsShared (Fin n))) (Fin n) Unit :=
  interleave fun i => collectShardStatfs i (sizes i)

/-! ### What an execution has contributed -/

/-- The total size of a shard, 0 when it failed. -/
def totalOf (sizes : Option (UInt64 × UInt64)) : ℕ := (sizes.map (·.1.toNat)).getD 0

/-- The used size of a shard, 0 when it failed. -/
def usedOf (sizes : Option (UInt64 × UInt64)) : ℕ := (sizes.map (·.2.toNat)).getD 0

/-- The number of failures of a shard. -/
def failureOf (sizes : Option (UInt64 × UInt64)) : ℕ := if sizes.isNone then 1 else 0

/-- What an execution has added to `total_size`. -/
def addedTotal (sizes : Option (UInt64 × UInt64)) : CollectPoint → ℕ
  | .getStatfs | .addTotal _ _ => 0
  | _ => totalOf sizes

/-- What an execution has added to `used_size`. -/
def addedUsed (sizes : Option (UInt64 × UInt64)) : CollectPoint → ℕ
  | .getStatfs | .addTotal _ _ | .addUsed _ => 0
  | _ => usedOf sizes

/-- What an execution has added to `error_count`. -/
def addedErrors (sizes : Option (UInt64 × UInt64)) : CollectPoint → ℕ
  | .getStatfs | .addError => 0
  | _ => failureOf sizes

/-- 1 as long as an execution has not counted itself off. -/
def pending : CollectPoint → ℕ
  | .getStatfs | .addTotal _ _ | .addUsed _ | .addError | .decrement => 1
  | _ => 0

/-- The points of an execution that has nothing left to do with the aggregator. -/
def CollectPoint.Leaves : CollectPoint → Prop
  | .freeCtx | .done => True
  | _ => False

/-- The points of an execution that does not reply, with the local variables as the sizes of the
shard have them. -/
def CollectPoint.Collects (sizes : Option (UInt64 × UInt64)) : CollectPoint → Prop
  | .addTotal total used => sizes = some (total, used)
  | .addUsed used => ∃ total, sizes = some (total, used)
  | .addError => sizes = none
  | .getStatfs | .decrement | .freeCtx | .done => True
  | _ => False

/-- The fields of the aggregator are the sums of what the executions have contributed. -/
structure Accounts {n : ℕ} (sizes : Fin n → Option (UInt64 × UInt64))
    (threads : Fin n → CollectPoint) (agg : StatfsAggregator) : Prop where
  total : agg.totalSize.toNat ≡ ∑ i, addedTotal (sizes i) (threads i) [MOD 2 ^ 64]
  used : agg.usedSize.toNat ≡ ∑ i, addedUsed (sizes i) (threads i) [MOD 2 ^ 64]
  errors : agg.errorCount.toNat ≡ ∑ i, addedErrors (sizes i) (threads i) [MOD 2 ^ 32]
  remaining : agg.remaining = ((∑ i, pending (threads i) : ℕ) : ℤ)

section Accounts

variable {n : ℕ} {sizes : Fin n → Option (UInt64 × UInt64)} {threads : Fin n → CollectPoint}
  {agg agg' : StatfsAggregator}

/-- A field that changes by what an execution contributes stays the sum of all contributions. -/
theorem modEq_sum_update {m a b : ℕ} (f : Fin n → CollectPoint → ℕ)
    (h : a ≡ ∑ j, f j (threads j) [MOD m]) {i : Fin n} {l : CollectPoint}
    (hstep : b + f i (threads i) ≡ a + f i l [MOD m]) :
    b ≡ ∑ j, f j (Function.update threads i l j) [MOD m] := by
  refine Nat.ModEq.add_right_cancel' (f i (threads i)) ?_
  rw [sum_threads_update]
  exact hstep.trans (h.add_right _)

/-- A step after which each field of the aggregator has changed by what the execution contributed
keeps the accounts. -/
theorem Accounts.update (h : Accounts sizes threads agg) {i : Fin n} {l : CollectPoint}
    (htotal : agg'.totalSize.toNat + addedTotal (sizes i) (threads i) ≡
      agg.totalSize.toNat + addedTotal (sizes i) l [MOD 2 ^ 64])
    (hused : agg'.usedSize.toNat + addedUsed (sizes i) (threads i) ≡
      agg.usedSize.toNat + addedUsed (sizes i) l [MOD 2 ^ 64])
    (herrors : agg'.errorCount.toNat + addedErrors (sizes i) (threads i) ≡
      agg.errorCount.toNat + addedErrors (sizes i) l [MOD 2 ^ 32])
    (hremaining : agg'.remaining + pending (threads i) = agg.remaining + pending l) :
    Accounts sizes (Function.update threads i l) agg' where
  total := modEq_sum_update (fun j => addedTotal (sizes j)) h.total htotal
  used := modEq_sum_update (fun j => addedUsed (sizes j)) h.used hused
  errors := modEq_sum_update (fun j => addedErrors (sizes j)) h.errors herrors
  remaining := by
    have hsum := sum_threads_update (fun _ => pending) threads i l
    have hold := h.remaining
    omega

end Accounts

/-! ### The reply -/

/-- The result the last execution puts in the reply. -/
def StatfsAggregator.result (agg : StatfsAggregator) : UInt32 :=
  if 0 < agg.errorCount then ioError else ioSuccess

/-- The reply the last execution builds. -/
def StatfsAggregator.reply (agg : StatfsAggregator) : ReplyMsg where
  requestId := agg.requestId
  result := agg.result
  opcode := .statfs
  extraData := some (leBytes 8 agg.totalSize.toNat ++ leBytes 8 agg.usedSize.toNat)
  extraLen := 16

/-- The reply to a request: an error if a shard failed, and the sums of the sizes, modulo `2 ^ 64`,
of the shards that did not. -/
def statfsReply (requestId : UInt64) {n : ℕ} (sizes : Fin n → Option (UInt64 × UInt64)) :
    ReplyMsg where
  requestId := requestId
  result := if ∃ i, sizes i = none then ioError else ioSuccess
  opcode := .statfs
  extraData := some (leBytes 8 ((∑ i, totalOf (sizes i)) % 2 ^ 64) ++
    leBytes 8 ((∑ i, usedOf (sizes i)) % 2 ^ 64))
  extraLen := 16

section Reply

variable {n : ℕ} {sizes : Fin n → Option (UInt64 × UInt64)} {threads : Fin n → CollectPoint}
  {agg : StatfsAggregator}

theorem added_of_pending_eq_zero {l : CollectPoint} (h : pending l = 0)
    (s : Option (UInt64 × UInt64)) :
    addedTotal s l = totalOf s ∧ addedUsed s l = usedOf s ∧ addedErrors s l = failureOf s := by
  cases l <;> first | exact ⟨rfl, rfl, rfl⟩ | exact absurd h Nat.one_ne_zero

theorem failureOf_pos_iff {s : Option (UInt64 × UInt64)} : 0 < failureOf s ↔ s = none := by
  cases s <;> simp [failureOf]

variable (sizes) in
theorem sum_failureOf_le : ∑ i, failureOf (sizes i) ≤ n := by
  have hle : ∀ i ∈ Finset.univ, failureOf (sizes i) ≤ 1 := by
    intro i _
    rw [failureOf]
    split <;> omega
  simpa using Finset.sum_le_card_nsmul Finset.univ (fun i => failureOf (sizes i)) 1 hle

theorem sum_failureOf_pos_iff : 0 < ∑ i, failureOf (sizes i) ↔ ∃ i, sizes i = none := by
  simp only [Finset.sum_pos_iff, Finset.mem_univ, true_and, failureOf_pos_iff]

/-- When every execution has counted itself off, the aggregator holds the reply. -/
theorem Accounts.reply_eq (h : Accounts sizes threads agg) (hn : n < 2 ^ 31)
    (hzero : ∀ i, pending (threads i) = 0) :
    agg.reply = statfsReply agg.requestId sizes := by
  have hadded (i : Fin n) := added_of_pending_eq_zero (hzero i) (sizes i)
  have htotal : agg.totalSize.toNat = (∑ i, totalOf (sizes i)) % 2 ^ 64 := by
    have hmod := h.total
    simp only [(hadded _).1] at hmod
    exact (Nat.mod_eq_of_lt agg.totalSize.toNat_lt).symm.trans hmod
  have hused : agg.usedSize.toNat = (∑ i, usedOf (sizes i)) % 2 ^ 64 := by
    have hmod := h.used
    simp only [(hadded _).2.1] at hmod
    exact (Nat.mod_eq_of_lt agg.usedSize.toNat_lt).symm.trans hmod
  have herrors : agg.errorCount.toNat = ∑ i, failureOf (sizes i) := by
    have hmod : agg.errorCount.toNat ≡ ∑ i, failureOf (sizes i) [MOD 2 ^ 32] := by
      simpa only [(hadded _).2.2] using h.errors
    refine hmod.eq_of_lt_of_lt agg.errorCount.toNat_lt ?_
    have hle := sum_failureOf_le sizes
    omega
  have hresult : agg.result = if ∃ i, sizes i = none then ioError else ioSuccess := by
    have hpos : 0 < agg.errorCount ↔ ∃ i, sizes i = none := by
      rw [UInt32.lt_iff_toNat_lt, herrors]
      exact sum_failureOf_pos_iff
    exact if_congr hpos rfl rfl
  simp only [StatfsAggregator.reply, statfsReply, htotal, hused, hresult]

end Reply

/-! ### The phases of a request -/

/-- The points of the execution `i` that replies: what it has copied from the aggregator, and the
messages sent so far. -/
def CollectPoint.Reports (agg : StatfsAggregator) (i : ι) (sent : List (ι × ReplyMsg)) :
    CollectPoint → Prop
  | .copyRequestId => sent = []
  | .testErrors requestId => sent = [] ∧ requestId = agg.requestId
  | .copyTotal requestId result => sent = [] ∧ requestId = agg.requestId ∧ result = agg.result
  | .copyUsed requestId result total =>
    sent = [] ∧ requestId = agg.requestId ∧ result = agg.result ∧ total = agg.totalSize
  | .sendMsg msg => sent = [] ∧ msg = agg.reply
  | .freeAgg => sent = [(i, agg.reply)]
  | _ => False

section Phases

variable {n : ℕ} (requestId : UInt64) (sizes : Fin n → Option (UInt64 × UInt64))

/-- Some execution has not counted itself off. -/
structure Collecting (agg : StatfsAggregator)
    (c : Interleaved (Fin n) CollectPoint (StatfsShared (Fin n))) : Prop where
  shared : c.shared = { agg := some agg, messages := [], faulted := false }
  requestId : agg.requestId = requestId
  accounts : Accounts sizes c.threads agg
  collects : ∀ j, (c.threads j).Collects (sizes j)
  remaining : 0 < agg.remaining

/-- The execution `i`, the last to count itself off, replies. -/
structure Reporting (i : Fin n) (agg : StatfsAggregator)
    (c : Interleaved (Fin n) CollectPoint (StatfsShared (Fin n))) : Prop where
  shared : ∃ sent, c.shared = { agg := some agg, messages := sent, faulted := false } ∧
    (c.threads i).Reports agg i sent
  reply : agg.reply = statfsReply requestId sizes
  leaves : ∀ j, j ≠ i → (c.threads j).Leaves

/-- The execution `i` has replied and released the aggregator. -/
structure Released (i : Fin n)
    (c : Interleaved (Fin n) CollectPoint (StatfsShared (Fin n))) : Prop where
  shared : c.shared =
    { agg := none, messages := [(i, statfsReply requestId sizes)], faulted := false }
  leaves : ∀ j, (c.threads j).Leaves

variable {requestId sizes} {c : Interleaved (Fin n) CollectPoint (StatfsShared (Fin n))}
  {agg : StatfsAggregator}

/-- The state after a step of which the outcome is known. -/
theorem statfsMachine_step {i : Fin n} {l : CollectPoint} {s : StatfsShared (Fin n)}
    (h : collectShardStatfs i (sizes i) (c.threads i) c.shared = (l, s)) :
    ((statfsMachine sizes).step c i).1 =
      { threads := Function.update c.threads i l, shared := s } := by
  simp only [statfsMachine, interleave, h]

/-- A step that does not count off the last execution. -/
theorem Collecting.update (h : Collecting requestId sizes agg c) {i : Fin n} {l : CollectPoint}
    {agg' : StatfsAggregator}
    (hstep : collectShardStatfs i (sizes i) (c.threads i) c.shared =
      (l, { agg := some agg', messages := [], faulted := false }))
    (hid : agg'.requestId = agg.requestId) (hcollects : l.Collects (sizes i))
    (hremaining : 0 < agg'.remaining)
    (haccounts : Accounts sizes (Function.update c.threads i l) agg') :
    Collecting requestId sizes agg' ((statfsMachine sizes).step c i).1 := by
  rw [statfsMachine_step hstep]
  refine ⟨rfl, hid.trans h.requestId, haccounts, fun j => ?_, hremaining⟩
  by_cases hj : j = i
  · subst hj
    simpa only [Function.update_self] using hcollects
  · simpa only [Function.update_of_ne hj] using h.collects j

/-- A step that does not touch the aggregator. -/
theorem Collecting.update_local (h : Collecting requestId sizes agg c) {i : Fin n}
    {l : CollectPoint}
    (hstep : collectShardStatfs i (sizes i) (c.threads i) c.shared = (l, c.shared))
    (hcollects : l.Collects (sizes i))
    (htotal : addedTotal (sizes i) l = addedTotal (sizes i) (c.threads i))
    (hused : addedUsed (sizes i) l = addedUsed (sizes i) (c.threads i))
    (herrors : addedErrors (sizes i) l = addedErrors (sizes i) (c.threads i))
    (hpending : pending l = pending (c.threads i)) :
    Collecting requestId sizes agg ((statfsMachine sizes).step c i).1 := by
  have hstep' := hstep.trans (congrArg (Prod.mk l) h.shared)
  refine h.update hstep' rfl hcollects h.remaining (h.accounts.update ?_ ?_ ?_ ?_)
  · rw [htotal]
  · rw [hused]
  · rw [herrors]
  · rw [hpending]

theorem CollectPoint.Leaves.eq_or_eq {l : CollectPoint} (h : l.Leaves) :
    l = .freeCtx ∨ l = .done := by
  cases l <;> first | exact .inl rfl | exact .inr rfl | exact h.elim

theorem leaves_of_collects {l : CollectPoint} {s : Option (UInt64 × UInt64)}
    (h : l.Collects s) (hzero : pending l = 0) : l.Leaves := by
  cases l <;> trivial

theorem pending_of_leaves {l : CollectPoint} (h : l.Leaves) : pending l = 0 := by
  cases l <;> first | rfl | exact h.elim

/-- When one execution is left to count itself off, the others have nothing left to do. -/
theorem Collecting.leaves (h : Collecting requestId sizes agg c) (hone : agg.remaining = 1)
    {i : Fin n} (hi : c.threads i = .decrement) {j : Fin n} (hj : j ≠ i) :
    (c.threads j).Leaves := by
  refine leaves_of_collects (h.collects j) ?_
  have hsum : ∑ k, pending (c.threads k) = 1 := by
    have hremaining := h.accounts.remaining
    omega
  rw [← Finset.add_sum_erase _ _ (Finset.mem_univ i), hi] at hsum
  have hrest : ∑ k ∈ Finset.univ.erase i, pending (c.threads k) = 0 := Nat.add_left_cancel hsum
  exact Finset.sum_eq_zero_iff.mp hrest j (Finset.mem_erase.mpr ⟨hj, Finset.mem_univ j⟩)

theorem Collecting.decrement_eq (h : Collecting requestId sizes agg c) {i : Fin n}
    (hi : c.threads i = .decrement) :
    collectShardStatfs i (sizes i) (c.threads i) c.shared =
      (if agg.remaining - 1 = 0 then .copyRequestId else .freeCtx,
        { agg := some { agg with remaining := agg.remaining - 1 }
          messages := []
          faulted := false }) := by
  rw [hi, h.shared]
  rfl

/-- The last execution that counts itself off replies. -/
theorem Collecting.step_last (hn : n < 2 ^ 31) (h : Collecting requestId sizes agg c)
    {i : Fin n} (hi : c.threads i = .decrement) (hone : agg.remaining = 1) :
    ∃ agg', Reporting requestId sizes i agg' ((statfsMachine sizes).step c i).1 := by
  have hstep := h.decrement_eq hi
  rw [if_pos (by omega)] at hstep
  have hleaves {j : Fin n} (hj : j ≠ i) := h.leaves hone hi hj
  have haccounts : Accounts sizes (Function.update c.threads i .copyRequestId)
      { agg with remaining := agg.remaining - 1 } := by
    refine h.accounts.update ?_ ?_ ?_ ?_ <;>
      simp [hi, addedTotal, addedUsed, addedErrors, pending, Nat.ModEq.refl]
  have hzero (j : Fin n) : pending (Function.update c.threads i .copyRequestId j) = 0 := by
    by_cases hj : j = i
    · subst hj
      simp only [Function.update_self, pending]
    · simpa only [Function.update_of_ne hj] using pending_of_leaves (hleaves hj)
  refine ⟨{ agg with remaining := agg.remaining - 1 }, ?_⟩
  rw [statfsMachine_step hstep]
  refine ⟨⟨[], rfl, ?_⟩, ?_, fun j hj => ?_⟩
  · simp only [Function.update_self]
    rfl
  · rw [haccounts.reply_eq hn hzero]
    exact congrArg (statfsReply · sizes) h.requestId
  · simpa only [Function.update_of_ne hj] using hleaves hj

/-- An execution counts itself off; if it is the last one, it replies. -/
theorem Collecting.step_decrement (hn : n < 2 ^ 31) (h : Collecting requestId sizes agg c)
    {i : Fin n} (hi : c.threads i = .decrement) :
    (∃ agg', Collecting requestId sizes agg' ((statfsMachine sizes).step c i).1) ∨
      (agg.remaining = 1 ∧
        ∃ agg', Reporting requestId sizes i agg' ((statfsMachine sizes).step c i).1) := by
  by_cases hlast : agg.remaining = 1
  · exact .inr ⟨hlast, h.step_last hn hi hlast⟩
  · left
    have hremaining := h.remaining
    have hstep := h.decrement_eq hi
    rw [if_neg (by omega)] at hstep
    have hpos : 0 < agg.remaining - 1 := by omega
    refine ⟨_, h.update hstep rfl trivial hpos (h.accounts.update ?_ ?_ ?_ ?_)⟩ <;>
      simp [hi, addedTotal, addedUsed, addedErrors, pending, Nat.ModEq.refl]

/-- An execution asks its shard for the sizes. -/
theorem Collecting.step_getStatfs (h : Collecting requestId sizes agg c) {i : Fin n}
    (hi : c.threads i = .getStatfs) :
    Collecting requestId sizes agg ((statfsMachine sizes).step c i).1 := by
  cases hs : sizes i with
  | none =>
    have hstep : collectShardStatfs i (sizes i) (c.threads i) c.shared =
        (.addError, c.shared) := by
      rw [hi, hs]
      rfl
    refine h.update_local hstep hs ?_ ?_ ?_ ?_ <;>
      simp [hi, hs, addedTotal, addedUsed, addedErrors, totalOf, usedOf, pending]
  | some s =>
    have hstep : collectShardStatfs i (sizes i) (c.threads i) c.shared =
        (.addTotal s.1 s.2, c.shared) := by
      rw [hi, hs]
      rfl
    refine h.update_local hstep hs ?_ ?_ ?_ ?_ <;>
      simp [hi, hs, addedTotal, addedUsed, addedErrors, failureOf, pending]

/-- An execution adds the total size of its shard. -/
theorem Collecting.step_addTotal (h : Collecting requestId sizes agg c) {i : Fin n}
    {total used : UInt64} (hi : c.threads i = .addTotal total used) :
    Collecting requestId sizes { agg with totalSize := agg.totalSize + total }
      ((statfsMachine sizes).step c i).1 := by
  have hs : sizes i = some (total, used) := by
    have hlocal := h.collects i
    rwa [hi] at hlocal
  have hstep : collectShardStatfs i (sizes i) (c.threads i) c.shared = (.addUsed used,
      { agg := some { agg with totalSize := agg.totalSize + total }
        messages := []
        faulted := false }) := by
    rw [hi, h.shared]
    rfl
  refine h.update hstep rfl ⟨total, hs⟩ h.remaining (h.accounts.update ?_ ?_ ?_ ?_)
  · simp [hi, hs, addedTotal, totalOf, Nat.mod_modEq]
  all_goals simp [hi, hs, addedUsed, addedErrors, failureOf, pending, Nat.ModEq.refl]

/-- An execution adds the used size of its shard. -/
theorem Collecting.step_addUsed (h : Collecting requestId sizes agg c) {i : Fin n}
    {used : UInt64} (hi : c.threads i = .addUsed used) :
    Collecting requestId sizes { agg with usedSize := agg.usedSize + used }
      ((statfsMachine sizes).step c i).1 := by
  obtain ⟨total, hs⟩ : ∃ total, sizes i = some (total, used) := by
    have hlocal := h.collects i
    rwa [hi] at hlocal
  have hstep : collectShardStatfs i (sizes i) (c.threads i) c.shared = (.decrement,
      { agg := some { agg with usedSize := agg.usedSize + used }
        messages := []
        faulted := false }) := by
    rw [hi, h.shared]
    rfl
  refine h.update hstep rfl trivial h.remaining (h.accounts.update ?_ ?_ ?_ ?_)
  · simp [hi, addedTotal, Nat.ModEq.refl]
  · simp [hi, hs, addedUsed, usedOf, Nat.mod_modEq]
  all_goals simp [hi, addedErrors, pending, Nat.ModEq.refl]

/-- An execution counts the failure of its shard. -/
theorem Collecting.step_addError (h : Collecting requestId sizes agg c) {i : Fin n}
    (hi : c.threads i = .addError) :
    Collecting requestId sizes { agg with errorCount := agg.errorCount + 1 }
      ((statfsMachine sizes).step c i).1 := by
  have hs : sizes i = none := by
    have hlocal := h.collects i
    rwa [hi] at hlocal
  have hstep : collectShardStatfs i (sizes i) (c.threads i) c.shared = (.decrement,
      { agg := some { agg with errorCount := agg.errorCount + 1 }
        messages := []
        faulted := false }) := by
    rw [hi, h.shared]
    rfl
  refine h.update hstep rfl trivial h.remaining (h.accounts.update ?_ ?_ ?_ ?_)
  · simp [hi, addedTotal, Nat.ModEq.refl]
  · simp [hi, addedUsed, Nat.ModEq.refl]
  · simp [hi, hs, addedErrors, failureOf, Nat.mod_modEq]
  · simp [hi, pending]

/-- **A step while sizes are collected.** Either the sizes are still being collected, or the step
is the last one to count an execution off, and that execution replies. -/
theorem Collecting.step (hn : n < 2 ^ 31) (h : Collecting requestId sizes agg c) (i : Fin n) :
    (∃ agg', Collecting requestId sizes agg' ((statfsMachine sizes).step c i).1) ∨
      (c.threads i = .decrement ∧ agg.remaining = 1 ∧
        ∃ agg', Reporting requestId sizes i agg' ((statfsMachine sizes).step c i).1) := by
  cases hi : c.threads i with
  | getStatfs => exact .inl ⟨_, h.step_getStatfs hi⟩
  | addTotal total used => exact .inl ⟨_, h.step_addTotal hi⟩
  | addUsed used => exact .inl ⟨_, h.step_addUsed hi⟩
  | addError => exact .inl ⟨_, h.step_addError hi⟩
  | decrement => exact (h.step_decrement hn hi).imp_right fun hlast => ⟨rfl, hlast⟩
  | freeCtx =>
    have hstep : collectShardStatfs i (sizes i) (c.threads i) c.shared = (.done, c.shared) := by
      rw [hi]
      rfl
    refine .inl ⟨agg, h.update_local hstep trivial ?_ ?_ ?_ ?_⟩ <;>
      simp [hi, addedTotal, addedUsed, addedErrors, pending]
  | done =>
    have hstep : collectShardStatfs i (sizes i) (c.threads i) c.shared = (.done, c.shared) := by
      rw [hi]
      rfl
    refine .inl ⟨agg, h.update_local hstep trivial ?_ ?_ ?_ ?_⟩ <;> rw [hi]
  | _ =>
    have hlocal := h.collects i
    rw [hi] at hlocal
    exact hlocal.elim

/-- A step of an execution that has nothing left to do with the aggregator. -/
theorem collectShardStatfs_of_leaves {i : Fin n} {l : CollectPoint} (h : l.Leaves)
    (s : Option (UInt64 × UInt64)) (shared : StatfsShared (Fin n)) :
    collectShardStatfs i s l shared = (.done, shared) := by
  cases l <;> first | rfl | exact h.elim

theorem leaves_update {threads : Fin n → CollectPoint} {i j : Fin n} {l : CollectPoint}
    (hl : l.Leaves) (h : (threads j).Leaves) : (Function.update threads i l j).Leaves := by
  rw [Function.update_apply]
  split
  · exact hl
  · exact h

/-- A step of the replying execution that keeps the aggregator. -/
theorem Reporting.update {i : Fin n} (h : Reporting requestId sizes i agg c) {l : CollectPoint}
    {sent : List (Fin n × ReplyMsg)}
    (hstep : collectShardStatfs i (sizes i) (c.threads i) c.shared =
      (l, { agg := some agg, messages := sent, faulted := false }))
    (hreports : l.Reports agg i sent) :
    Reporting requestId sizes i agg ((statfsMachine sizes).step c i).1 := by
  rw [statfsMachine_step hstep]
  refine ⟨⟨sent, rfl, ?_⟩, h.reply, fun j hj => ?_⟩
  · simpa only [Function.update_self] using hreports
  · simpa only [Function.update_of_ne hj] using h.leaves j hj

/-- A step of the replying execution. -/
theorem Reporting.step_self {i : Fin n} (h : Reporting requestId sizes i agg c) :
    Reporting requestId sizes i agg ((statfsMachine sizes).step c i).1 ∨
      Released requestId sizes i ((statfsMachine sizes).step c i).1 := by
  obtain ⟨sent, hshared, hreports⟩ := h.shared
  have hstep {l : CollectPoint} (hi : c.threads i = l) :
      collectShardStatfs i (sizes i) (c.threads i) c.shared =
        collectShardStatfs i (sizes i) l
          { agg := some agg, messages := sent, faulted := false } := by
    rw [hshared, hi]
  cases hi : c.threads i with
  | copyRequestId =>
    rw [hi] at hreports
    exact .inl (h.update (hstep hi) ⟨hreports, rfl⟩)
  | testErrors requestId =>
    rw [hi] at hreports
    exact .inl (h.update (hstep hi) ⟨hreports.1, hreports.2, rfl⟩)
  | copyTotal requestId result =>
    rw [hi] at hreports
    exact .inl (h.update (hstep hi) ⟨hreports.1, hreports.2.1, hreports.2.2, rfl⟩)
  | copyUsed requestId result total =>
    rw [hi] at hreports
    obtain ⟨hsent, rfl, rfl, rfl⟩ := hreports
    exact .inl (h.update (hstep hi) ⟨hsent, rfl⟩)
  | sendMsg msg =>
    rw [hi] at hreports
    obtain ⟨rfl, rfl⟩ := hreports
    exact .inl (h.update (hstep hi) rfl)
  | freeAgg =>
    rw [hi] at hreports
    obtain rfl : sent = [(i, agg.reply)] := hreports
    have hfree : collectShardStatfs i (sizes i) (c.threads i) c.shared =
        (.freeCtx, { agg := none, messages := [(i, agg.reply)], faulted := false }) := hstep hi
    right
    rw [statfsMachine_step hfree]
    refine ⟨?_, fun j => ?_⟩
    · rw [← h.reply]
    · by_cases hj : j = i
      · subst hj
        simp only [Function.update_self]
        trivial
      · simpa only [Function.update_of_ne hj] using h.leaves j hj
  | _ =>
    rw [hi] at hreports
    exact hreports.elim

/-- A step of any execution while `i` replies. -/
theorem Reporting.step {i : Fin n} (h : Reporting requestId sizes i agg c) (j : Fin n) :
    Reporting requestId sizes i agg ((statfsMachine sizes).step c j).1 ∨
      Released requestId sizes i ((statfsMachine sizes).step c j).1 := by
  by_cases hj : j = i
  · subst hj
    exact h.step_self
  · left
    obtain ⟨sent, hshared, hreports⟩ := h.shared
    rw [statfsMachine_step (collectShardStatfs_of_leaves (h.leaves j hj) (sizes j) c.shared)]
    refine ⟨⟨sent, hshared, ?_⟩, h.reply, fun k hk => leaves_update trivial (h.leaves k hk)⟩
    simpa only [Function.update_of_ne (Ne.symm hj)] using hreports

/-- Nothing happens to the aggregator once it is released. -/
theorem Released.step {i : Fin n} (h : Released requestId sizes i c) (j : Fin n) :
    Released requestId sizes i ((statfsMachine sizes).step c j).1 := by
  rw [statfsMachine_step (collectShardStatfs_of_leaves (h.leaves j) (sizes j) c.shared)]
  exact ⟨h.shared, fun k => leaves_update trivial (h.leaves k)⟩

/-! ### Runs -/

variable (requestId sizes) in
/-- The execution `i` replies or has replied. -/
def Replying (i : Fin n) (c : Interleaved (Fin n) CollectPoint (StatfsShared (Fin n))) : Prop :=
  (∃ agg, Reporting requestId sizes i agg c) ∨ Released requestId sizes i c

variable (requestId sizes) in
/-- The states that a request goes through. -/
def StatfsPhase (c : Interleaved (Fin n) CollectPoint (StatfsShared (Fin n))) : Prop :=
  (∃ agg, Collecting requestId sizes agg c) ∨ ∃ i, Replying requestId sizes i c

theorem Replying.step {i : Fin n} (h : Replying requestId sizes i c) (j : Fin n) :
    Replying requestId sizes i ((statfsMachine sizes).step c j).1 := by
  rcases h with ⟨agg, h⟩ | h
  · exact (h.step j).imp_left fun h' => ⟨agg, h'⟩
  · exact .inr (h.step j)

theorem StatfsPhase.step (hn : n < 2 ^ 31) (h : StatfsPhase requestId sizes c) (j : Fin n) :
    StatfsPhase requestId sizes ((statfsMachine sizes).step c j).1 := by
  rcases h with ⟨agg, h⟩ | ⟨i, h⟩
  · rcases h.step hn j with h' | ⟨-, -, h'⟩
    · exact .inl h'
    · exact .inr ⟨j, .inl h'⟩
  · exact .inr ⟨i, h.step j⟩

theorem collecting_statfsStart (hpos : 1 ≤ n) :
    Collecting requestId sizes
      { requestId := requestId, remaining := n, totalSize := 0, usedSize := 0, errorCount := 0 }
      (statfsStart requestId n) where
  shared := rfl
  requestId := rfl
  accounts := by
    constructor <;> simp [statfsStart, addedTotal, addedUsed, addedErrors, pending, Nat.ModEq.refl]
  collects _ := trivial
  remaining := by
    show (0 : ℤ) < n
    omega

/-- The steps an execution still has to take, at most. -/
def CollectPoint.rank : CollectPoint → ℕ
  | .getStatfs => 11
  | .addTotal _ _ => 10
  | .addUsed _ | .addError => 9
  | .decrement => 8
  | .copyRequestId => 7
  | .testErrors _ => 6
  | .copyTotal _ _ => 5
  | .copyUsed _ _ _ => 4
  | .sendMsg _ => 3
  | .freeAgg => 2
  | .freeCtx => 1
  | .done => 0

theorem eq_done_of_rank_le_zero {l : CollectPoint} (h : l.rank ≤ 0) : l = .done := by
  cases l <;> first | rfl | exact absurd h (Nat.not_succ_le_zero _)

theorem rank_collectShardStatfs_of_agg {s : StatfsShared (Fin n)} (hs : s.agg = some agg)
    (i : Fin n) (size : Option (UInt64 × UInt64)) (l : CollectPoint) :
    (collectShardStatfs i size l s).1.rank ≤ l.rank - 1 := by
  cases l with
  | getStatfs => cases size <;> exact Nat.le_of_ble_eq_true rfl
  | decrement =>
    simp only [collectShardStatfs, accessAgg, hs]
    split <;> exact Nat.le_of_ble_eq_true rfl
  | _ =>
    simp only [collectShardStatfs, accessAgg, hs]
    exact le_rfl

/-- Every step brings an execution closer to its end. -/
theorem StatfsPhase.rank_le (h : StatfsPhase requestId sizes c) (i : Fin n) :
    (collectShardStatfs i (sizes i) (c.threads i) c.shared).1.rank ≤ (c.threads i).rank - 1 := by
  rcases h with ⟨agg, h⟩ | ⟨j, ⟨agg, h⟩ | h⟩
  · exact rank_collectShardStatfs_of_agg (congrArg (·.agg) h.shared) i _ _
  · obtain ⟨sent, hshared, -⟩ := h.shared
    exact rank_collectShardStatfs_of_agg (congrArg (·.agg) hshared) i _ _
  · rw [collectShardStatfs_of_leaves (h.leaves i)]
    exact Nat.zero_le _

theorem StatfsPhase.faulted (h : StatfsPhase requestId sizes c) : c.shared.faulted = false := by
  rcases h with ⟨agg, h⟩ | ⟨j, ⟨agg, h⟩ | h⟩
  · exact congrArg (·.faulted) h.shared
  · obtain ⟨sent, hshared, -⟩ := h.shared
    exact congrArg (·.faulted) hshared
  · exact congrArg (·.faulted) h.shared

theorem Reporting.not_done {i : Fin n} (h : Reporting requestId sizes i agg c) :
    c.threads i ≠ .done := by
  intro hdone
  obtain ⟨sent, -, hreports⟩ := h.shared
  rw [hdone] at hreports
  exact hreports

theorem CollectPoint.Reports.sent {i : Fin n} {sent : List (Fin n × ReplyMsg)} {l : CollectPoint}
    (h : l.Reports agg i sent) : sent = [] ∨ sent = [(i, agg.reply)] := by
  cases l <;> first | exact .inl h | exact .inl h.1 | exact .inr h | exact h.elim

/-- Only the execution that replies has sent a message, and that is the reply. -/
theorem Replying.messages {i : Fin n} (h : Replying requestId sizes i c) :
    c.shared.messages = [] ∨ c.shared.messages = [(i, statfsReply requestId sizes)] := by
  rcases h with ⟨agg, h⟩ | h
  · obtain ⟨sent, hshared, hreports⟩ := h.shared
    rw [hshared, ← h.reply]
    exact hreports.sent
  · exact .inr (congrArg (·.messages) h.shared)

theorem Collecting.exists_not_done (h : Collecting requestId sizes agg c) :
    ∃ i, c.threads i ≠ .done := by
  by_contra hall
  push Not at hall
  have hsum : ∑ i, pending (c.threads i) = 0 := by
    simp only [hall, pending, Finset.sum_const_zero]
  have hremaining := h.remaining
  rw [h.accounts.remaining, hsum] at hremaining
  exact lt_irrefl _ hremaining

variable (requestId sizes) in
/-- **Runs.** The sizes are being collected, or an execution replies that has counted itself off
as the last one. -/
theorem statfs_run_phase (hn : n < 2 ^ 31) (hpos : 1 ≤ n) (schedule : List (Fin n)) :
    (∃ agg, Collecting requestId sizes agg
      ((statfsMachine sizes).run (statfsStart requestId n) schedule)) ∨
    ∃ i, Replying requestId sizes i
        ((statfsMachine sizes).run (statfsStart requestId n) schedule) ∧
      ∃ earlier later agg, schedule = earlier ++ i :: later ∧
        Collecting requestId sizes agg
          ((statfsMachine sizes).run (statfsStart requestId n) earlier) ∧
        ((statfsMachine sizes).run (statfsStart requestId n) earlier).threads i = .decrement ∧
        agg.remaining = 1 := by
  by_cases hend : ∃ agg, Collecting requestId sizes agg
      ((statfsMachine sizes).run (statfsStart requestId n) schedule)
  · exact .inl hend
  · right
    obtain ⟨earlier, i, later, rfl, hbefore, hafter⟩ := Machine.exists_step_of_run
      (P := fun c => ¬ ∃ agg, Collecting requestId sizes agg c)
      (not_not.mpr ⟨_, collecting_statfsStart hpos⟩) hend
    obtain ⟨agg, hcollecting⟩ := not_not.mp hbefore
    obtain ⟨hdecrement, hone, hreporting⟩ :=
      (hcollecting.step hn i).resolve_left hafter
    refine ⟨i, ?_, earlier, later, agg, rfl, hcollecting, hdecrement, hone⟩
    rw [Machine.run_append, Machine.run_cons]
    exact Machine.run_invariant (P := Replying requestId sizes i) (fun c j _ h => h.step j)
      (.inl hreporting)

end Phases

/-- **A STATFS request gets one reply.** For every number of shards, all outcomes on the shards and
every schedule of the executions that the handler starts: no execution accesses the aggregator after
its release; when all have had enough turns all are done; when all are done exactly one message was
sent and the aggregator is released; and a message that was sent is the only one, is the reply with
the sums and the error status of all shards, and was sent by the execution that counted itself off
when one was remaining and all others had contributed. -/
theorem statfs_one_reply (requestId : UInt64) {n : ℕ} (hpos : 1 ≤ n) (hn : n < 2 ^ 31)
    (sizes : Fin n → Option (UInt64 × UInt64)) (schedule : List (Fin n)) :
    rpcHandlerStatfs requestId n = .ok (statfsStart requestId n) ∧
    let c := (statfsMachine sizes).run (statfsStart requestId n) schedule
    c.shared.faulted = false ∧
    ((∀ i, 11 ≤ schedule.count i) → ∀ i, c.threads i = .done) ∧
    ((∀ i, c.threads i = .done) → c.shared.agg = none ∧
      ∃ i, c.shared.messages = [(i, statfsReply requestId sizes)]) ∧
    ∀ i msg, (i, msg) ∈ c.shared.messages →
      c.shared.messages = [(i, msg)] ∧ msg = statfsReply requestId sizes ∧
      ∃ earlier later agg, schedule = earlier ++ i :: later ∧
        let c' := (statfsMachine sizes).run (statfsStart requestId n) earlier
        c'.shared.agg = some agg ∧ agg.remaining = 1 ∧ c'.threads i = .decrement ∧
        ∀ j, j ≠ i → c'.threads j = .freeCtx ∨ c'.threads j = .done := by
  refine ⟨if_neg (Nat.one_le_iff_ne_zero.mp hpos), ?_⟩
  intro c
  have hstart : StatfsPhase requestId sizes (statfsStart requestId n) :=
    .inl ⟨_, collecting_statfsStart hpos⟩
  have hphase : StatfsPhase requestId sizes c :=
    Machine.run_invariant (fun _ j _ h => h.step hn j) hstart
  have hrun := statfs_run_phase requestId sizes hn hpos schedule
  refine ⟨hphase.faulted, ?_, ?_, ?_⟩
  · intro hcount i
    have hle : (c.threads i).rank ≤ 11 - schedule.count i :=
      interleave_rank_run_le (P := StatfsPhase requestId sizes) (fun _ j h => h.step hn j)
        (fun _ j h => h.rank_le j) hstart schedule i
    rw [Nat.sub_eq_zero_of_le (hcount i)] at hle
    exact eq_done_of_rank_le_zero hle
  · intro hdone
    rcases hphase with ⟨agg, h⟩ | ⟨i, ⟨agg, h⟩ | h⟩
    · obtain ⟨i, hi⟩ := h.exists_not_done
      exact absurd (hdone i) hi
    · exact absurd (hdone i) h.not_done
    · exact ⟨congrArg (·.agg) h.shared, i, congrArg (·.messages) h.shared⟩
  · intro k msg hmem
    rcases hrun with ⟨agg, h⟩ | ⟨i, hreplying, earlier, later, agg, hschedule, h, hdec, hone⟩
    · have hnone : c.shared.messages = [] := congrArg (·.messages) h.shared
      rw [hnone] at hmem
      exact absurd hmem List.not_mem_nil
    · rcases hreplying.messages with hnone | hsent
      · rw [show c.shared.messages = [] from hnone] at hmem
        exact absurd hmem List.not_mem_nil
      · have hsent : c.shared.messages = [(i, statfsReply requestId sizes)] := hsent
        rw [hsent] at hmem
        obtain ⟨rfl, rfl⟩ := Prod.mk.inj (List.mem_singleton.mp hmem)
        refine ⟨hsent, rfl, earlier, later, agg, hschedule, congrArg (·.agg) h.shared, hone, hdec,
          fun j hj => ?_⟩
        exact (h.leaves hone hdec hj).eq_or_eq

/-- Two shards, of which the second fails, taking turns. -/
theorem statfs_one_reply_two_shards :
    let sizes : Fin 2 → Option (UInt64 × UInt64) := ![some (10, 4), none]
    ∃ i, ((statfsMachine sizes).run (statfsStart 7 2)
      (List.replicate 11 [0, 1]).flatten).shared.messages = [(i, statfsReply 7 sizes)] := by
  intro sizes
  have hreply := statfs_one_reply 7 (by decide) (by decide) sizes (List.replicate 11 [0, 1]).flatten
  exact (hreply.2.2.2.1 (hreply.2.2.1 (by decide))).2

end LightFS.Storage

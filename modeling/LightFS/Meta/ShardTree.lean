import LightFS.Library.Machine
import LightFS.Meta.Shard

/-!
# Splits of a tree of shards

A shard may not be split while a child of it is loading (`src/meta/meta_shard.c`):
`meta_shard_split` sets the flag `has_loading_child` of the shard, and `meta_shard_child_activated`
on the shard clears it. The split sets the flag of the child too, which has no children. So the
flag of a shard says that a child of it is unacknowledged, unless the shard is itself a child that
`meta_shard_child_activated` was never called on (`split_gating_iff`): such a shard cannot be split
however many entries it gets.

A tree is the list of its shards in the order of their creation, and a shard is named by its place
in it. The calls on a tree leave a trace of the splits and activations, from which the
unacknowledged children are read.

## Main definitions

* `TreeOp`, `TreeEvent`, `treeMachine`.
* `Unacknowledged`, `NeverActivated` — read from the trace of a run.

## Main results

* `TreeFlags.step`, `split_gating_iff`.
-/

namespace LightFS.Meta

open Library

/-- `meta_shard_has_loading_child`. -/
def metaShardHasLoadingChild (shard : MetaShard) : ℤ := if shard.hasLoadingChild then 1 else 0

/-- A call on a tree of shards. -/
inductive TreeOp where
  | create (shardId parentShardId : UInt32) (bucketName : Option CString)
  | insert (alloc : AllocOutcome) (shard : ℕ) (manifest : ObjectManifest)
  | split (shard : ℕ) (newShardId : UInt32)
  | childActivated (shard : ℕ)

/-- What a call did to the children of the shards. -/
inductive TreeEvent where
  | split (parent child : ℕ)
  | activated (shard : ℕ)
deriving DecidableEq

/-- The calls on the shards of a tree; a name that no shard has is `NULL`. -/
def treeMachine : Machine (List MetaShard) TreeOp (List TreeEvent) where
  step
    | shards, .create shardId parentShardId bucketName =>
      (shards ++ [metaShardCreate shardId parentShardId bucketName], [])
    | shards, .insert alloc s manifest =>
      (shards.modify s fun shard => (metaShardInsert alloc shard manifest).1, [])
    | shards, .split s newShardId =>
      match shards[s]?.bind (metaShardSplit · newShardId) with
      | none => (shards, [])
      | some (parent, child) => (shards.set s parent ++ [child], [.split s shards.length])
    | shards, .childActivated s => (shards.modify s metaShardChildActivated, [.activated s])

/-! ### Traces -/

/-- An event with the property `p`, and since then no activation on the shard. -/
def PendingSince (p : TreeEvent → Prop) (s : ℕ) (events : List TreeEvent) : Prop :=
  ∃ earlier e later, events = earlier ++ e :: later ∧ p e ∧ .activated s ∉ later

/-- A child that a split of the shard returned was not acknowledged on the shard. -/
def Unacknowledged (events : List TreeEvent) (s : ℕ) : Prop :=
  PendingSince (fun e => ∃ child, e = .split s child) s events

/-- The shard was returned by a split, and `meta_shard_child_activated` was not called on it. -/
def NeverActivated (events : List TreeEvent) (s : ℕ) : Prop :=
  PendingSince (fun e => ∃ parent, e = .split parent s) s events

section Traces

variable {p : TreeEvent → Prop} {s : ℕ} {events : List TreeEvent}

theorem pendingSince_nil : ¬ PendingSince p s [] := by
  rintro ⟨earlier, e, later, h, -⟩
  exact absurd h.symm (by simp)

theorem PendingSince.exists_mem (h : PendingSince p s events) : ∃ e ∈ events, p e := by
  obtain ⟨earlier, e, later, rfl, he, -⟩ := h
  exact ⟨e, List.mem_append_right _ List.mem_cons_self, he⟩

/-- What is pending after one more event. -/
theorem pendingSince_append {e : TreeEvent} :
    PendingSince p s (events ++ [e]) ↔ p e ∨ PendingSince p s events ∧ e ≠ .activated s := by
  constructor
  · rintro ⟨earlier, e', later, heq, he', hlater⟩
    rcases List.eq_nil_or_concat later with rfl | ⟨later, last, rfl⟩
    · obtain ⟨-, hlast⟩ := List.append_inj' heq rfl
      obtain rfl := List.singleton_inj.mp hlast
      exact .inl he'
    · rw [List.concat_eq_append, ← List.cons_append, ← List.append_assoc] at heq
      obtain ⟨rfl, hlast⟩ := List.append_inj' heq rfl
      obtain rfl := List.singleton_inj.mp hlast
      rw [List.concat_eq_append, List.mem_append, List.mem_singleton, not_or] at hlater
      exact .inr ⟨⟨earlier, e', later, rfl, he', hlater.1⟩, fun h => hlater.2 h.symm⟩
  · rintro (he | ⟨⟨earlier, e', later, rfl, he', hlater⟩, hne⟩)
    · exact ⟨events, e, [], rfl, he, List.not_mem_nil⟩
    · refine ⟨earlier, e', later ++ [e], by simp, he', ?_⟩
      rw [List.mem_append, List.mem_singleton, not_or]
      exact ⟨hlater, fun h => hne h.symm⟩

theorem unacknowledged_split {parent child : ℕ} :
    Unacknowledged (events ++ [.split parent child]) s ↔ parent = s ∨ Unacknowledged events s := by
  rw [Unacknowledged, pendingSince_append]
  simp [Unacknowledged]

theorem neverActivated_split {parent child : ℕ} :
    NeverActivated (events ++ [.split parent child]) s ↔ child = s ∨ NeverActivated events s := by
  rw [NeverActivated, pendingSince_append]
  simp [NeverActivated]

theorem unacknowledged_activated {t : ℕ} :
    Unacknowledged (events ++ [.activated t]) s ↔ Unacknowledged events s ∧ t ≠ s := by
  rw [Unacknowledged, pendingSince_append]
  simp [Unacknowledged]

theorem neverActivated_activated {t : ℕ} :
    NeverActivated (events ++ [.activated t]) s ↔ NeverActivated events s ∧ t ≠ s := by
  rw [NeverActivated, pendingSince_append]
  simp [NeverActivated]

end Traces

/-! ### The flags of a tree -/

/-- What the flags say of a trace. -/
structure TreeFlags (shards : List MetaShard) (events : List TreeEvent) : Prop where
  flag_iff : ∀ s shard, shards[s]? = some shard →
    (shard.hasLoadingChild = true ↔ Unacknowledged events s ∨ NeverActivated events s)
  /-- The trace names only shards of the tree. -/
  parent_lt : ∀ s, Unacknowledged events s → s < shards.length
  child_lt : ∀ s, NeverActivated events s → s < shards.length
  /-- A child that was never activated has no children. -/
  childless : ∀ s, NeverActivated events s → ¬ Unacknowledged events s

theorem treeFlags_nil : TreeFlags [] [] where
  flag_iff s shard h := by simp at h
  parent_lt _ h := absurd h pendingSince_nil
  child_lt _ h := absurd h pendingSince_nil
  childless _ h := absurd h pendingSince_nil

@[simp] theorem hasLoadingChild_metaShardInsert (alloc : AllocOutcome) (shard : MetaShard)
    (manifest : ObjectManifest) :
    (metaShardInsert alloc shard manifest).1.hasLoadingChild = shard.hasLoadingChild := by
  rw [metaShardInsert]
  split
  · rfl
  · split_ifs <;> rfl

theorem metaShardSplit_eq_some {shard parent child : MetaShard} {newShardId : UInt32}
    (h : metaShardSplit shard newShardId = some (parent, child)) :
    shard.hasLoadingChild = false ∧ parent.hasLoadingChild = true ∧
      child.hasLoadingChild = true := by
  rw [metaShardSplit] at h
  split_ifs at h with hflag hhalf
  obtain ⟨rfl, rfl⟩ := Prod.mk.inj (Option.some.inj h)
  exact ⟨Bool.eq_false_iff.mpr hflag, rfl, rfl⟩

section Steps

variable {shards : List MetaShard} {events : List TreeEvent}

theorem TreeFlags.create (h : TreeFlags shards events) (shardId parentShardId : UInt32)
    (bucketName : Option CString) :
    TreeFlags (shards ++ [metaShardCreate shardId parentShardId bucketName]) events where
  flag_iff s shard hs := by
    rcases Nat.lt_or_ge s shards.length with hlt | hge
    · rw [List.getElem?_append_left hlt] at hs
      exact h.flag_iff s shard hs
    · rw [List.getElem?_append_right hge] at hs
      obtain rfl := List.mem_singleton.mp (List.mem_of_getElem? hs)
      simp only [metaShardCreate, Bool.false_eq_true, false_iff, not_or]
      exact ⟨fun hu => Nat.not_lt.mpr hge (h.parent_lt s hu),
        fun hn => Nat.not_lt.mpr hge (h.child_lt s hn)⟩
  parent_lt s hs := (h.parent_lt s hs).trans_le (by simp)
  child_lt s hs := (h.child_lt s hs).trans_le (by simp)
  childless := h.childless

/-- A change to one shard that keeps its flag. -/
theorem TreeFlags.modify (h : TreeFlags shards events) (t : ℕ) {f : MetaShard → MetaShard}
    (hf : ∀ shard, (f shard).hasLoadingChild = shard.hasLoadingChild) :
    TreeFlags (shards.modify t f) events where
  flag_iff s shard hs := by
    rw [List.getElem?_modify, Option.map_eq_map, Option.map_eq_some_iff] at hs
    obtain ⟨old, hold, rfl⟩ := hs
    rw [← h.flag_iff s old hold]
    split_ifs <;> simp only [hf]
  parent_lt s hs := (h.parent_lt s hs).trans_eq (by simp)
  child_lt s hs := (h.child_lt s hs).trans_eq (by simp)
  childless := h.childless

theorem TreeFlags.split (h : TreeFlags shards events) {t : ℕ} {newShardId : UInt32}
    {shard parent child : MetaShard} (ht : shards[t]? = some shard)
    (hsplit : metaShardSplit shard newShardId = some (parent, child)) :
    TreeFlags (shards.set t parent ++ [child]) (events ++ [.split t shards.length]) := by
  obtain ⟨hflag, hparent, hchild⟩ := metaShardSplit_eq_some hsplit
  have hlt : t < shards.length := (List.getElem?_eq_some_iff.mp ht).1
  have hnot : ¬ (Unacknowledged events t ∨ NeverActivated events t) := by
    rw [← h.flag_iff t shard ht, hflag]
    exact Bool.false_ne_true
  refine ⟨fun s new hs => ?_, fun s hs => ?_, fun s hs => ?_, fun s hn hu => ?_⟩
  · rw [unacknowledged_split, neverActivated_split]
    rcases Nat.lt_or_ge s shards.length with hslt | hsge
    · rw [List.getElem?_append_left (by simpa using hslt)] at hs
      by_cases hst : t = s
      · subst hst
        rw [List.getElem?_set_self hlt, Option.some.injEq] at hs
        simp [← hs, hparent]
      · rw [List.getElem?_set_ne hst] at hs
        rw [h.flag_iff s new hs]
        simp [hst, hslt.ne']
    · rw [List.getElem?_append_right (by simpa using hsge)] at hs
      obtain rfl := List.mem_singleton.mp (List.mem_of_getElem? hs)
      have hs := (List.getElem?_eq_some_iff.mp hs).1
      simp only [List.length_set, List.length_singleton] at hs
      simp [hchild, show shards.length = s by omega]
  · rw [List.length_append, List.length_set, List.length_singleton]
    rcases unacknowledged_split.mp hs with rfl | hs
    · omega
    · exact (h.parent_lt s hs).trans (Nat.lt_succ_self _)
  · rw [List.length_append, List.length_set, List.length_singleton]
    rcases neverActivated_split.mp hs with rfl | hs
    · exact Nat.lt_succ_self _
    · exact (h.child_lt s hs).trans (Nat.lt_succ_self _)
  · rcases unacknowledged_split.mp hu with rfl | hu <;>
      rcases neverActivated_split.mp hn with hn | hn
    · omega
    · exact hnot (.inr hn)
    · exact absurd (h.parent_lt s hu) (by omega)
    · exact h.childless s hn hu

theorem TreeFlags.childActivated (h : TreeFlags shards events) (t : ℕ) :
    TreeFlags (shards.modify t metaShardChildActivated) (events ++ [.activated t]) where
  flag_iff s shard hs := by
    rw [List.getElem?_modify, Option.map_eq_map, Option.map_eq_some_iff] at hs
    obtain ⟨old, hold, rfl⟩ := hs
    rw [unacknowledged_activated, neverActivated_activated]
    by_cases hst : t = s
    · simp [hst, metaShardChildActivated]
    · simp [hst, h.flag_iff s old hold]
  parent_lt s hs := (h.parent_lt s (unacknowledged_activated.mp hs).1).trans_eq (by simp)
  child_lt s hs := (h.child_lt s (neverActivated_activated.mp hs).1).trans_eq (by simp)
  childless s hn hu :=
    h.childless s (neverActivated_activated.mp hn).1 (unacknowledged_activated.mp hu).1

end Steps

/-- Every call keeps the meaning of the flags. -/
theorem TreeFlags.step {shards : List MetaShard} {events : List TreeEvent}
    (h : TreeFlags shards events) (op : TreeOp) :
    TreeFlags (treeMachine.step shards op).1 (events ++ (treeMachine.step shards op).2) := by
  cases op with
  | create shardId parentShardId bucketName =>
    exact (List.append_nil events).symm ▸ h.create shardId parentShardId bucketName
  | insert alloc s manifest =>
    exact (List.append_nil events).symm ▸
      h.modify s fun shard => hasLoadingChild_metaShardInsert alloc shard manifest
  | split s newShardId =>
    simp only [treeMachine]
    rcases hbind : shards[s]?.bind (metaShardSplit · newShardId) with _ | ⟨parent, child⟩
    · simpa only [List.append_nil] using h
    · obtain ⟨shard, hs, hsplit⟩ := Option.bind_eq_some_iff.mp hbind
      exact h.split hs hsplit
  | childActivated s => exact h.childActivated s

/-- **When the flag gates splits.** For every shard of every tree built by the calls: the flag
`has_loading_child` says whether a child of the shard is unacknowledged, the shard with two entries
and no such child can be split, and the shard with one cannot, if and only if the shard is not
itself a child on which `meta_shard_child_activated` was never called. -/
theorem split_gating_iff (ops : List TreeOp) (s : ℕ) (shard : MetaShard)
    (hshard : (treeMachine.run [] ops)[s]? = some shard) :
    ((metaShardHasLoadingChild shard ≠ 0 ↔ Unacknowledged (treeMachine.trace [] ops) s) ∧
      (2 ≤ shard.entryCount → ¬ Unacknowledged (treeMachine.trace [] ops) s →
        ∀ newShardId, (metaShardSplit shard newShardId).isSome) ∧
      (Unacknowledged (treeMachine.trace [] ops) s →
        ∀ newShardId, metaShardSplit shard newShardId = none)) ↔
      ¬ NeverActivated (treeMachine.trace [] ops) s := by
  have h : TreeFlags (treeMachine.run [] ops) ([] ++ treeMachine.trace [] ops) :=
    Machine.trace_invariant (fun _ _ op h => h.step op) treeFlags_nil ops
  rw [List.nil_append] at h
  have hflag := h.flag_iff s shard hshard
  have hquery : metaShardHasLoadingChild shard ≠ 0 ↔ shard.hasLoadingChild = true := by
    rw [metaShardHasLoadingChild]
    split_ifs with hset <;> simp [hset]
  rw [hquery]
  constructor
  · rintro ⟨hiff, -⟩ hnever
    exact h.childless s hnever (hiff.mp (hflag.mpr (.inr hnever)))
  · intro hnever
    have hiff : shard.hasLoadingChild = true ↔ Unacknowledged (treeMachine.trace [] ops) s := by
      rw [hflag, or_iff_left hnever]
    refine ⟨hiff, fun hcount hnone newShardId => ?_, fun hchild newShardId => ?_⟩
    · rw [metaShardSplit, if_neg (fun hset => hnone (hiff.mp hset)), if_neg (by omega)]
      rfl
    · rw [metaShardSplit, if_pos (hiff.mpr hchild)]

/-- A shard with two entries is split, and the child gets two entries. -/
def splitOnce : List TreeOp :=
  let second := { ObjectManifest.zero with key := .strncpy (.ofString "a") }
  [.create 1 0 none, .insert .success 0 .zero, .insert .success 0 second, .split 0 2,
    .insert .success 1 .zero, .insert .success 1 second]

theorem trace_splitOnce : treeMachine.trace [] splitOnce = [.split 0 1] := by decide +kernel

/-- The parent cannot be split again before the child is acknowledged. -/
theorem split_gating_parent :
    ∃ shard, (treeMachine.run [] splitOnce)[0]? = some shard ∧
      metaShardSplit shard 3 = none := by
  refine ⟨_, rfl, ?_⟩
  have hparent : ¬ NeverActivated (treeMachine.trace [] splitOnce) 0 := by
    rw [trace_splitOnce]
    exact fun h => by simpa using h.exists_mem
  refine ((split_gating_iff splitOnce 0 _ rfl).mpr hparent).2.2 ?_ 3
  rw [trace_splitOnce]
  exact ⟨[], _, [], rfl, ⟨1, rfl⟩, List.not_mem_nil⟩

/-- The child has two entries and no children, and yet its flag is set and it cannot be split, also
when its parent has acknowledged it. -/
theorem split_gating_child :
    ∃ shard, (treeMachine.run [] (splitOnce ++ [.childActivated 0]))[1]? = some shard ∧
      ¬ Unacknowledged (treeMachine.trace [] (splitOnce ++ [.childActivated 0])) 1 ∧
      shard.entryCount = 2 ∧ metaShardHasLoadingChild shard = 1 ∧
      metaShardSplit shard 3 = none := by
  have htrace : treeMachine.trace [] (splitOnce ++ [.childActivated 0]) =
      [.split 0 1, .activated 0] := by decide +kernel
  refine ⟨_, rfl, ?_, rfl, rfl, rfl⟩
  rw [htrace]
  exact fun h => by simpa using h.exists_mem

end LightFS.Meta

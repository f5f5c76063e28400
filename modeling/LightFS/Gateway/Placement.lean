import LightFS.Gateway.ObjectCalls

/-!
# Failure domains of fragments

The nodes that fragments are placed on are those of `src/gateway/gateway_placement.c`: a
registration appends a node to an array, even if the node or its host is there already, and a
selection takes the nodes from the start of the array. So the targets of an object are the first
nodes that were registered (`selectTargets_run`), and they are on different machines only if these
registrations are (`targets_apart_iff`).

## Main definitions

* `Registration`, `placementMachine`.
* `PlacementEngine.selectTargets` — `placement_select_targets` for counts of any sign.

## Main results

* `slots_run_register` — the nodes after any sequence of registrations.
* `targets_apart_iff`.
-/

namespace LightFS.Gateway

open Library

/-- The arguments of `placement_register_node`. -/
structure Registration where
  nodeId : UInt32
  datacenterId : UInt32
  rackId : UInt32
  hostId : UInt32
  freeBytes : UInt64

/-- The node that a registration appends, to an array that was zeroed. -/
def Registration.target (r : Registration) : PlacementTarget :=
  ⟨r.nodeId, 0, r.datacenterId, r.rackId, r.hostId, r.freeBytes⟩

/-- Registrations one after the other, with their results. -/
def placementMachine : Machine PlacementEngine Registration ℤ where
  step engine r :=
    placementRegisterNode engine r.nodeId r.datacenterId r.rackId r.hostId r.freeBytes

/-- `placement_select_targets`, for an `int` of any sign: the targets written, `none` for `-1`. -/
def PlacementEngine.selectTargets (engine : PlacementEngine)
    (dataFragmentCount parityFragmentCount maxTargets : ℤ) : Option (List PlacementTarget) :=
  let needed := dataFragmentCount + parityFragmentCount
  if maxTargets < needed ∨ engine.nodeCount < needed then none
  else some ((List.range needed.toNat).map fun i => engine.nodes (i % engine.nodeCount))

/-- The gateway calls it with the counts of an engine. -/
theorem placementSelectTargets_eq_selectTargets (engine : PlacementEngine) (k m maxTargets : ℕ) :
    placementSelectTargets engine k m maxTargets = engine.selectTargets k m maxTargets := by
  rw [placementSelectTargets, PlacementEngine.selectTargets, ← Nat.cast_add, Int.toNat_natCast]
  exact if_congr (or_congr Nat.cast_lt.symm Nat.cast_lt.symm) rfl rfl

/-! ### The array of nodes -/

/-- The disks of the free slots are zero. -/
def FreeSlotsZero (engine : PlacementEngine) : Prop :=
  ∀ i, engine.nodeCount ≤ i → (engine.nodes i).diskId = 0

section Register

variable {engine : PlacementEngine} (r : Registration)

theorem step_of_full (h : engine.nodeCount = placementMaxNodes) :
    (placementMachine.step engine r).1 = engine := by
  simp only [placementMachine, placementRegisterNode, dif_neg h.not_lt]

theorem step_of_lt (hzero : FreeSlotsZero engine) (h : engine.nodeCount < placementMaxNodes) :
    (placementMachine.step engine r).1.nodeCount = engine.nodeCount + 1 ∧
      (placementMachine.step engine r).1.nodes =
        Function.update engine.nodes engine.nodeCount r.target := by
  have hdisk := hzero engine.nodeCount le_rfl
  simp only [placementMachine, placementRegisterNode, dif_pos h, Registration.target, ← hdisk,
    and_self]

theorem FreeSlotsZero.step (hzero : FreeSlotsZero engine) :
    FreeSlotsZero (placementMachine.step engine r).1 := by
  rcases engine.count_le.eq_or_lt with hfull | hlt
  · rwa [step_of_full r hfull]
  · obtain ⟨hcount, hnodes⟩ := step_of_lt r hzero hlt
    intro i hi
    rw [hcount] at hi
    rw [hnodes, Function.update_of_ne (by omega)]
    exact hzero i (by omega)

end Register

/-- **The nodes that are registered.** They are appended until the array is full. -/
theorem slots_run_register {engine : PlacementEngine} (hzero : FreeSlotsZero engine)
    (rs : List Registration) :
    slots (placementMachine.run engine rs).nodes (placementMachine.run engine rs).nodeCount =
      slots engine.nodes engine.nodeCount ++
        (rs.take (placementMaxNodes - engine.nodeCount)).map Registration.target := by
  induction rs generalizing engine with
  | nil => rw [Machine.run_nil, List.take_nil, List.map_nil, List.append_nil]
  | cons r rs ih =>
    rw [Machine.run_cons, ih (hzero.step r)]
    rcases engine.count_le.eq_or_lt with hfull | hlt
    · rw [step_of_full r hfull, hfull, Nat.sub_self, List.take_zero, List.take_zero]
    · obtain ⟨hcount, hnodes⟩ := step_of_lt r hzero hlt
      have hroom : placementMaxNodes - engine.nodeCount =
          placementMaxNodes - (engine.nodeCount + 1) + 1 := by
        omega
      rw [hcount, hnodes, slots_update_succ, List.append_assoc, hroom, List.take_succ_cons]
      rfl

/-- The targets of a selection are the first nodes that were registered. -/
theorem selectTargets_run {rs : List Registration} {k m maxTargets : ℤ}
    {targets : List PlacementTarget}
    (h : (placementMachine.run placementEngineCreate rs).selectTargets k m maxTargets =
      some targets) :
    (k + m).toNat ≤ rs.length ∧ targets = (rs.take (k + m).toNat).map Registration.target := by
  have hzero : FreeSlotsZero placementEngineCreate := fun _ _ => rfl
  have hnodes := slots_run_register hzero rs
  generalize placementMachine.run placementEngineCreate rs = engine at h hnodes
  have hcreate : placementEngineCreate.nodeCount = 0 := rfl
  rw [hcreate, slots_zero, List.nil_append, Nat.sub_zero] at hnodes
  have hlength := congrArg List.length hnodes
  rw [length_slots, List.length_map, List.length_take] at hlength
  rw [PlacementEngine.selectTargets] at h
  split_ifs at h with hfew
  obtain rfl := Option.some.inj h
  have hcount : (k + m).toNat ≤ engine.nodeCount := by omega
  refine ⟨by omega, ?_⟩
  have htake : (rs.take (k + m).toNat).map Registration.target =
      (slots engine.nodes engine.nodeCount).take (k + m).toNat := by
    rw [hnodes, ← List.map_take, List.take_take, min_eq_left (by omega)]
  rw [htake, take_slots _ hcount]
  refine List.map_congr_left fun i hi => ?_
  have hlt := List.mem_range.mp hi
  rw [Nat.mod_eq_of_lt (by omega)]

/-- **When fragments are on different machines.** After any sequence of registrations, a selection
that succeeds gives as many targets as there are fragments, on different nodes and different hosts,
if and only if the first registrations, one for each fragment, are of different nodes and different
hosts. -/
theorem targets_apart_iff (rs : List Registration) {k m maxTargets : ℤ} (hneeded : 1 ≤ k + m)
    {targets : List PlacementTarget}
    (h : (placementMachine.run placementEngineCreate rs).selectTargets k m maxTargets =
      some targets) :
    ((targets.length : ℤ) = k + m ∧ (targets.map PlacementTarget.nodeId).Nodup ∧
      (targets.map PlacementTarget.hostId).Nodup) ↔
    ((rs.take (k + m).toNat).map Registration.nodeId).Nodup ∧
      ((rs.take (k + m).toNat).map Registration.hostId).Nodup := by
  obtain ⟨hle, rfl⟩ := selectTargets_run h
  have hlength : (((rs.take (k + m).toNat).map Registration.target).length : ℤ) = k + m := by
    rw [List.length_map, List.length_take, min_eq_left hle]
    omega
  rw [and_iff_right hlength, List.map_map, List.map_map]
  rfl

/-- Three nodes on three hosts. -/
theorem targets_apart_iff_three_nodes :
    ∃ targets, (placementMachine.run placementEngineCreate
        [⟨1, 0, 0, 1, 9⟩, ⟨2, 0, 0, 2, 9⟩, ⟨3, 0, 0, 3, 9⟩]).selectTargets 2 1 3 = some targets ∧
      (targets.length : ℤ) = 2 + 1 ∧ (targets.map PlacementTarget.nodeId).Nodup ∧
      (targets.map PlacementTarget.hostId).Nodup := by
  have hselect : (placementMachine.run placementEngineCreate
      [⟨1, 0, 0, 1, 9⟩, ⟨2, 0, 0, 2, 9⟩, ⟨3, 0, 0, 3, 9⟩]).selectTargets 2 1 3 = some _ := rfl
  exact ⟨_, hselect, (targets_apart_iff _ (by decide) hselect).mpr (by decide)⟩

/-- A node that is registered twice gets both fragments of an object, and two nodes of one host get
one each. -/
theorem targets_not_apart :
    (((placementMachine.run placementEngineCreate
      [⟨1, 0, 0, 1, 9⟩, ⟨1, 0, 0, 1, 9⟩]).selectTargets 1 1 2).map
        fun targets => targets.map fun t => (t.nodeId, t.hostId)) = some [(1, 1), (1, 1)] ∧
    (((placementMachine.run placementEngineCreate
      [⟨1, 0, 0, 1, 9⟩, ⟨2, 0, 0, 1, 9⟩]).selectTargets 1 1 2).map
        fun targets => targets.map fun t => (t.nodeId, t.hostId)) = some [(1, 1), (2, 1)] := by
  decide

end LightFS.Gateway

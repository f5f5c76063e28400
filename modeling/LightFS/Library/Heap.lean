import Mathlib.Data.List.Perm.Basic
import Mathlib.Logic.Function.Basic

/-!
# A heap whose blocks have owners

Programs that allocate, read, write and release blocks. A program that reads, writes or releases
what is not allocated has no result, so a program with a result has made no such access. An address
is never given out twice: a pointer to a released block stays one.

A heap *holds* a list of blocks if it consists of exactly these (`Heap.Holds`). A specification of a
program (`Spec`) says what becomes of the blocks that it is given. It holds next to any other
blocks, which are left alone, so that the owners of different blocks can be reasoned about one by
one, and a heap that holds nothing has no leaks. A program *fails* with given blocks if its
behaviour is undefined then (`Fails`). An address whose block was released is *dead*, and no program
brings it back (`KeepsDead`).

## Main definitions

* `Heap`, `HeapM`, `malloc`, `load`, `store`, `free`, `realloc`, `fault`.
* `Heap.Holds`, `Heap.Dead`, `Spec`, `Returns`, `Fails`, `KeepsDead`.
* `pointees` — the blocks of an array of pointers.

## Main results

* `Spec.bind`, `Spec.frame`, `Spec.of_perm`, `Returns.bind`, `Spec.bind_fails`.
* `Spec.bind_malloc`, `returns_load`, `returns_store`, `returns_free`, `spec_realloc`.
* `returns_forM_range`, `returns_store_pointee`, `returns_free_pointees`, `returns_mapM_load`.
-/

namespace LightFS.Library

/-- A heap with blocks `β`, and the next address that is given out. -/
structure Heap (β : Type) where
  blocks : ℕ → Option β
  next : ℕ

/-- A program on a heap, without a result if its behaviour is undefined. -/
abbrev HeapM (β α : Type) : Type := StateT (Heap β) Option α

variable {α γ β : Type}

/-- Nothing is allocated. -/
def Heap.empty : Heap β := ⟨fun _ => none, 0⟩

/-- Allocate a block with these contents, or nothing. -/
def malloc (succeeds : Bool) (b : β) : HeapM β (Option ℕ) := fun h =>
  if succeeds then some (some h.next, ⟨Function.update h.blocks h.next (some b), h.next + 1⟩)
  else some (none, h)

/-- Read a block, as what `view` sees in it. -/
def load (view : β → Option γ) (p : ℕ) : HeapM β γ := fun h =>
  ((h.blocks p).bind view).map (·, h)

/-- Write a block. -/
def store (p : ℕ) (b : β) : HeapM β Unit := fun h =>
  (h.blocks p).map fun _ => ((), { h with blocks := Function.update h.blocks p (some b) })

/-- A step whose behaviour is undefined. -/
def fault : HeapM β α := fun _ => none

/-- Release a block; the null pointer is ignored. -/
def free : Option ℕ → HeapM β Unit
  | none => pure ()
  | some p => fun h =>
    (h.blocks p).map fun _ => ((), { h with blocks := Function.update h.blocks p none })

/-- Allocate a block in place of another one, which stays if there is no memory. -/
def realloc (succeeds : Bool) (p : Option ℕ) (b : β) : HeapM β (Option ℕ) := do
  match ← malloc succeeds b with
  | none => return none
  | some q =>
    free p
    return some q

/-- The heap consists of exactly these blocks, at different addresses. -/
structure Heap.Holds (h : Heap β) (owned : List (ℕ × β)) : Prop where
  nodup : (owned.map Prod.fst).Nodup
  blocks_eq_some : ∀ p b, h.blocks p = some b ↔ (p, b) ∈ owned
  lt_next : ∀ p b, (p, b) ∈ owned → p < h.next

namespace Heap.Holds

variable {h : Heap β} {owned owned' : List (ℕ × β)} {p : ℕ} {b b' : β}

theorem empty : Heap.empty.Holds ([] : List (ℕ × β)) where
  nodup := List.nodup_nil
  blocks_eq_some p b := iff_of_false (fun h => by cases h) List.not_mem_nil
  lt_next p b h := absurd h List.not_mem_nil

theorem of_perm (hh : h.Holds owned) (hperm : owned.Perm owned') : h.Holds owned' where
  nodup := (hperm.map Prod.fst).nodup_iff.mp hh.nodup
  blocks_eq_some p b := (hh.blocks_eq_some p b).trans hperm.mem_iff
  lt_next p b hmem := hh.lt_next p b (hperm.mem_iff.mpr hmem)

/-- A heap that holds nothing has no blocks. -/
theorem blocks_eq_none (hh : h.Holds []) (p : ℕ) : h.blocks p = none := by
  cases hp : h.blocks p with
  | none => rfl
  | some b => exact absurd ((hh.blocks_eq_some p b).mp hp) List.not_mem_nil

/-- The next address belongs to no block. -/
theorem malloc (hh : h.Holds owned) (b : β) :
    Heap.Holds ⟨Function.update h.blocks h.next (some b), h.next + 1⟩ ((h.next, b) :: owned) where
  nodup := by
    refine List.nodup_cons.mpr ⟨fun hmem => ?_, hh.nodup⟩
    obtain ⟨⟨p, b'⟩, hmem, hp⟩ := List.mem_map.mp hmem
    exact Nat.ne_of_lt (hh.lt_next p b' hmem) hp
  blocks_eq_some p b' := by
    by_cases hp : p = h.next
    · subst hp
      have hnot : (h.next, b') ∉ owned := fun hmem => Nat.lt_irrefl _ (hh.lt_next _ _ hmem)
      simp [hnot, eq_comm]
    · simp [hp, hh.blocks_eq_some]
  lt_next p b' hmem := by
    rcases List.mem_cons.mp hmem with heq | hmem
    · exact Nat.lt_succ_of_le (Nat.le_of_eq (congrArg Prod.fst heq))
    · exact Nat.lt_succ_of_lt (hh.lt_next p b' hmem)

theorem blocks_head (hh : h.Holds ((p, b) :: owned)) : h.blocks p = some b :=
  (hh.blocks_eq_some p b).mpr List.mem_cons_self

/-- No other block has the address of the first one. -/
theorem notMem_tail (hh : h.Holds ((p, b) :: owned)) (b' : β) : (p, b') ∉ owned := fun hmem =>
  (List.nodup_cons.mp hh.nodup).1 (List.mem_map.mpr ⟨(p, b'), hmem, rfl⟩)

theorem store (hh : h.Holds ((p, b) :: owned)) (b' : β) :
    Heap.Holds { h with blocks := Function.update h.blocks p (some b') } ((p, b') :: owned) where
  nodup := hh.nodup
  blocks_eq_some q c := by
    by_cases hq : q = p
    · subst hq
      simp [hh.notMem_tail c, eq_comm]
    · simp [hq, hh.blocks_eq_some]
  lt_next q c hmem := by
    rcases List.mem_cons.mp hmem with heq | hmem
    · obtain ⟨rfl, -⟩ := Prod.mk.inj heq
      exact hh.lt_next q b List.mem_cons_self
    · exact hh.lt_next q c (List.mem_cons_of_mem _ hmem)

theorem free (hh : h.Holds ((p, b) :: owned)) :
    Heap.Holds { h with blocks := Function.update h.blocks p none } owned where
  nodup := (List.nodup_cons.mp hh.nodup).2
  blocks_eq_some q c := by
    by_cases hq : q = p
    · subst hq
      simp [hh.notMem_tail c]
    · simp [hq, hh.blocks_eq_some]
  lt_next q c hmem := hh.lt_next q c (List.mem_cons_of_mem _ hmem)

end Heap.Holds

/-- The address was given out, and its block is released. -/
def Heap.Dead (h : Heap β) (p : ℕ) : Prop := p < h.next ∧ h.blocks p = none

/-- The blocks of one owner, and those of the others. -/
theorem perm_flatMap_eraseIdx {ω : Type} (blocks : ω → List (ℕ × β)) {owners : List ω} {i : ℕ}
    {o : ω} (ho : owners[i]? = some o) :
    (owners.flatMap blocks).Perm (blocks o ++ (owners.eraseIdx i).flatMap blocks) := by
  obtain ⟨hi, rfl⟩ := List.getElem?_eq_some_iff.mp ho
  exact (List.Perm.flatMap_right blocks (List.getElem_cons_eraseIdx_perm hi)).symm

/-- The blocks when another owner takes the place of one. -/
theorem perm_flatMap_set {ω : Type} (blocks : ω → List (ℕ × β)) {owners : List ω} {i : ℕ} {o : ω}
    (ho : owners[i]? = some o) (o' : ω) :
    (blocks o' ++ owners.flatMap blocks).Perm ((owners.set i o').flatMap blocks ++ blocks o) := by
  obtain ⟨hi, -⟩ := List.getElem?_eq_some_iff.mp ho
  have hnew := List.Perm.flatMap_right blocks (List.set_perm_cons_eraseIdx hi o')
  rw [List.flatMap_cons] at hnew
  refine ((perm_flatMap_eraseIdx blocks ho).append_left _).trans ?_
  refine List.Perm.trans ?_ (hnew.append_right _).symm
  rw [List.append_assoc]
  exact List.perm_append_comm.append_left _

/-- An owner is the one at this place, or one of the others. -/
theorem eq_or_mem_eraseIdx {ω : Type} {owners : List ω} {i : ℕ} {o o' : ω}
    (ho : owners[i]? = some o) (ho' : o' ∈ owners) : o' = o ∨ o' ∈ owners.eraseIdx i := by
  obtain ⟨hi, rfl⟩ := List.getElem?_eq_some_iff.mp ho
  exact List.mem_cons.mp ((List.getElem_cons_eraseIdx_perm hi).mem_iff.mpr ho')

/-- The blocks of a new owner, and those of the others. -/
theorem perm_flatMap_append_singleton {ω : Type} (blocks : ω → List (ℕ × β)) (owners : List ω)
    (o : ω) : ((owners ++ [o]).flatMap blocks).Perm (blocks o ++ owners.flatMap blocks) :=
  List.Perm.flatMap_right blocks (List.perm_append_singleton o owners)

/-! ### Specifications -/

/-- A program behind one that has a result. -/
theorem run_bind {first : HeapM β γ} {c : γ} {h h' : Heap β} (hrun : first h = some (c, h'))
    (next : γ → HeapM β α) : (first >>= next) h = next c h' := by
  change (first h).bind (fun r => next r.1 r.2) = _
  rw [hrun]
  rfl

/-- A program behind one that has no result. -/
theorem run_bind_none {first : HeapM β γ} {h : Heap β} (hrun : first h = none)
    (next : γ → HeapM β α) : (first >>= next) h = none := by
  change (first h).bind (fun r => next r.1 r.2) = _
  rw [hrun]
  rfl

/-- Given the blocks `pre`, the program has a result and leaves blocks that `post` describes. It
does so next to any other blocks, which stay as they are. -/
def Spec (pre : List (ℕ × β)) (prog : HeapM β α) (post : α → List (ℕ × β) → Prop) : Prop :=
  ∀ ⦃h : Heap β⦄ ⦃rest : List (ℕ × β)⦄, h.Holds (pre ++ rest) →
    ∃ a h' owned, prog h = some (a, h') ∧ post a owned ∧ h'.Holds (owned ++ rest)

variable {pre pre' : List (ℕ × β)} {prog : HeapM β α} {post post' : α → List (ℕ × β) → Prop}

namespace Spec

theorem weaken (hprog : Spec pre prog post) (hpost : ∀ a owned, post a owned → post' a owned) :
    Spec pre prog post' := by
  intro h rest hh
  obtain ⟨a, h', owned, hrun, ha, hh'⟩ := hprog hh
  exact ⟨a, h', owned, hrun, hpost a owned ha, hh'⟩

/-- A run with the blocks of the program alone. -/
theorem exists_run {h : Heap β} (hprog : Spec pre prog post) (hh : h.Holds pre) :
    ∃ a h' owned, prog h = some (a, h') ∧ post a owned ∧ h'.Holds owned := by
  rw [← List.append_nil pre] at hh
  obtain ⟨a, h', owned, hrun, ha, hh'⟩ := hprog hh
  rw [List.append_nil] at hh'
  exact ⟨a, h', owned, hrun, ha, hh'⟩

theorem of_perm (hprog : Spec pre prog post) (hperm : pre'.Perm pre) : Spec pre' prog post :=
  fun _ _ hh => hprog (hh.of_perm (hperm.append_right _))

/-- The blocks are at different addresses. -/
theorem of_nodup (hprog : (pre.map Prod.fst).Nodup → Spec pre prog post) : Spec pre prog post := by
  intro h rest hh
  have hnodup := hh.nodup
  rw [List.map_append] at hnodup
  exact hprog (List.nodup_append.mp hnodup).1 hh

theorem pure {a : α} (ha : post a pre) : Spec pre (pure a : HeapM β α) post :=
  fun h _ hh => ⟨a, h, pre, rfl, ha, hh⟩

/-- The end of a program, with the blocks in another order. -/
theorem pure_of_perm {a : α} (hperm : pre.Perm pre') (ha : post a pre') :
    Spec pre (Pure.pure a : HeapM β α) post :=
  fun h _ hh => ⟨a, h, pre', rfl, ha, hh.of_perm (hperm.append_right _)⟩

/-- One program after the other. -/
theorem bind {mid : γ → List (ℕ × β) → Prop} {first : HeapM β γ} {next : γ → HeapM β α}
    (hfirst : Spec pre first mid) (hnext : ∀ c owned, mid c owned → Spec owned (next c) post) :
    Spec pre (first >>= next) post := by
  intro h rest hh
  obtain ⟨c, h₁, owned₁, hrun₁, hc, hh₁⟩ := hfirst hh
  obtain ⟨a, h₂, owned₂, hrun₂, ha, hh₂⟩ := hnext c owned₁ hc hh₁
  exact ⟨a, h₂, owned₂, (run_bind hrun₁ next).trans hrun₂, ha, hh₂⟩

/-- More blocks than the program needs. -/
theorem frame (hprog : Spec pre prog post) (more : List (ℕ × β)) :
    Spec (pre ++ more) prog fun a owned => ∃ owned', owned = owned' ++ more ∧ post a owned' := by
  intro h rest hh
  rw [List.append_assoc] at hh
  obtain ⟨a, h', owned, hrun, ha, hh'⟩ := hprog hh
  exact ⟨a, h', owned ++ more, hrun, ⟨owned, rfl, ha⟩, by rwa [List.append_assoc]⟩

end Spec

/-! ### Rules -/

/-- Given the blocks `pre`, the program returns `c` and leaves the blocks `owned`. -/
abbrev Returns (pre : List (ℕ × β)) (prog : HeapM β γ) (c : γ) (owned : List (ℕ × β)) : Prop :=
  Spec pre prog fun c' owned' => c' = c ∧ owned' = owned

/-- A program behind one whose result is known. -/
theorem Returns.bind {owned : List (ℕ × β)} {first : HeapM β γ} {c : γ} {next : γ → HeapM β α}
    (hfirst : Returns pre first c owned) (hnext : Spec owned (next c) post) :
    Spec pre (first >>= next) post := by
  refine Spec.bind hfirst ?_
  rintro _ _ ⟨rfl, rfl⟩
  exact hnext

/-- A program with more blocks than it needs. -/
theorem Returns.frame {owned : List (ℕ × β)} {first : HeapM β γ} {c : γ}
    (hfirst : Returns pre first c owned) (more : List (ℕ × β)) :
    Returns (pre ++ more) first c (owned ++ more) := by
  refine (Spec.frame hfirst more).weaken ?_
  rintro _ _ ⟨_, rfl, rfl, rfl⟩
  exact ⟨rfl, rfl⟩

/-- The blocks that are left, in another order. -/
theorem Returns.perm {owned owned' : List (ℕ × β)} {c : γ} {first : HeapM β γ}
    (hfirst : Returns pre first c owned) (hperm : owned.Perm owned') :
    Returns pre first c owned' := by
  intro h rest hh
  obtain ⟨_, h', _, hrun, ⟨rfl, rfl⟩, hh'⟩ := hfirst hh
  exact ⟨_, h', owned', hrun, ⟨rfl, rfl⟩, hh'.of_perm (hperm.append_right rest)⟩

/-- A program with more blocks than it needs, on both sides. -/
theorem Returns.between {owned : List (ℕ × β)} {c : γ} {first : HeapM β γ}
    (hfirst : Returns pre first c owned) (front back : List (ℕ × β)) :
    Returns (front ++ (pre ++ back)) first c (front ++ (owned ++ back)) := by
  have hperm (blocks : List (ℕ × β)) :
      (front ++ (blocks ++ back)).Perm (blocks ++ (front ++ back)) :=
    List.perm_append_comm_assoc _ _ _
  exact Returns.perm (Spec.of_perm (hfirst.frame (front ++ back)) (hperm pre)) (hperm owned).symm

theorem returns_malloc_false (b : β) : Returns pre (malloc false b) none pre :=
  fun h _ hh => ⟨none, h, pre, rfl, ⟨rfl, rfl⟩, hh⟩

/-- An allocation gives a block, or nothing. -/
theorem spec_malloc (succeeds : Bool) (b : β) :
    Spec pre (malloc succeeds b) fun p owned =>
      p.isSome = succeeds ∧ owned = p.toList.map (·, b) ++ pre := by
  cases succeeds
  · exact (returns_malloc_false b).weaken fun p owned h => by simp [h.1, h.2]
  · intro h rest hh
    exact ⟨_, _, _, rfl, ⟨rfl, rfl⟩, hh.malloc b⟩

/-- A program behind an allocation that succeeds has one more block. -/
theorem Spec.bind_malloc {b : β} {next : Option ℕ → HeapM β α}
    (hnext : ∀ p, Spec ((p, b) :: pre) (next (some p)) post) :
    Spec pre (malloc true b >>= next) post := by
  refine Spec.bind (spec_malloc true b) ?_
  rintro _ _ ⟨hsome, rfl⟩
  obtain ⟨p, rfl⟩ := Option.isSome_iff_exists.mp hsome
  exact hnext p

theorem returns_load {view : β → Option γ} {p : ℕ} {b : β} {c : γ} (hmem : (p, b) ∈ pre)
    (hview : view b = some c) : Returns pre (load view p) c pre := by
  intro h rest hh
  refine ⟨c, h, pre, ?_, ⟨rfl, rfl⟩, hh⟩
  have hp : h.blocks p = some b := (hh.blocks_eq_some p b).mpr (List.mem_append_left _ hmem)
  rw [load, hp, Option.bind_some, hview]
  rfl

theorem returns_store {p : ℕ} {b : β} (b' : β) (hperm : pre.Perm ((p, b) :: pre')) :
    Returns pre (store p b') () ((p, b') :: pre') := by
  intro h rest hh
  replace hh := hh.of_perm (hperm.append_right rest)
  refine ⟨(), _, (p, b') :: pre', ?_, ⟨rfl, rfl⟩, hh.store b'⟩
  rw [store, hh.blocks_head]
  rfl

/-- A block is written where it stands. -/
theorem returns_store_middle (front : List (ℕ × β)) {more : List (ℕ × β)} {p : ℕ} {b : β} (b' : β) :
    Returns (front ++ (p, b) :: more) (store p b') () (front ++ (p, b') :: more) :=
  (returns_store b' List.perm_middle).perm List.perm_middle.symm

theorem returns_free {p : ℕ} {b : β} (hperm : pre.Perm ((p, b) :: pre')) :
    Returns pre (free (some p)) () pre' := by
  intro h rest hh
  replace hh := hh.of_perm (hperm.append_right rest)
  refine ⟨(), _, pre', ?_, ⟨rfl, rfl⟩, hh.free⟩
  simp only [free, hh.blocks_head, Option.map_some]

theorem returns_free_none : Returns pre (free none) () pre :=
  Spec.pure ⟨rfl, rfl⟩

/-- A pointer is released with the block it points to. -/
theorem returns_free_pointer (p : Option ℕ) (b : β) :
    Returns (p.toList.map (·, b)) (free p) () [] := by
  cases p with
  | none => exact returns_free_none
  | some p => exact returns_free (List.Perm.refl _)

/-- Either nothing changes or the new block takes the place of the old one. -/
theorem spec_realloc (succeeds : Bool) {p : Option ℕ} (b : β) (hfree : Returns pre (free p) () []) :
    Spec pre (realloc succeeds p b) fun q owned =>
      succeeds = false ∧ q = none ∧ owned = pre ∨ ∃ q', q = some q' ∧ owned = [(q', b)] := by
  cases succeeds
  · exact Returns.bind (returns_malloc_false b) (Spec.pure (.inl ⟨rfl, rfl, rfl⟩))
  · refine Spec.bind_malloc fun q => ?_
    have hframed : Returns (pre ++ [(q, b)]) (free p) () [(q, b)] := hfree.frame [(q, b)]
    have hperm : ([(q, b)] ++ pre).Perm (pre ++ [(q, b)]) := List.perm_append_comm
    exact Returns.bind (hframed.of_perm hperm) (Spec.pure (.inr ⟨q, rfl, rfl⟩))

/-! ### Undefined behaviour -/

/-- Given the blocks `pre`, the behaviour of the program is undefined. -/
def Fails (pre : List (ℕ × β)) (prog : HeapM β α) : Prop :=
  ∀ ⦃h : Heap β⦄ ⦃rest : List (ℕ × β)⦄, h.Holds (pre ++ rest) → prog h = none

theorem fails_fault : Fails pre (fault : HeapM β α) := fun _ _ _ => rfl

/-- A program fails behind one that has a result. -/
theorem Spec.bind_fails {mid : γ → List (ℕ × β) → Prop} {first : HeapM β γ} {next : γ → HeapM β α}
    (hfirst : Spec pre first mid) (hnext : ∀ c owned, mid c owned → Fails owned (next c)) :
    Fails pre (first >>= next) := by
  intro h rest hh
  obtain ⟨c, h', owned, hrun, hc, hh'⟩ := hfirst hh
  rw [run_bind hrun, hnext c owned hc hh']

theorem Returns.bind_fails {owned : List (ℕ × β)} {first : HeapM β γ} {c : γ}
    {next : γ → HeapM β α} (hfirst : Returns pre first c owned) (hnext : Fails owned (next c)) :
    Fails pre (first >>= next) := by
  refine Spec.bind_fails hfirst ?_
  rintro _ _ ⟨rfl, rfl⟩
  exact hnext

theorem Fails.run {h : Heap β} (hprog : Fails pre prog) (hh : h.Holds pre) : prog h = none := by
  rw [← List.append_nil pre] at hh
  exact hprog hh

/-- More blocks do not help. -/
theorem Fails.frame (hprog : Fails pre prog) (more : List (ℕ × β)) : Fails (pre ++ more) prog := by
  intro h rest hh
  rw [List.append_assoc] at hh
  exact hprog hh

/-- More blocks on both sides do not help. -/
theorem Fails.between (hprog : Fails pre prog) (front back : List (ℕ × β)) :
    Fails (front ++ (pre ++ back)) prog := by
  intro h rest hh
  refine hprog.frame (front ++ back) (hh.of_perm (List.Perm.append_right rest ?_))
  exact List.perm_append_comm_assoc _ _ _

/-- What fails at once fails with anything behind it. -/
theorem Fails.bind {first : HeapM β γ} {next : γ → HeapM β α} (hfirst : Fails pre first) :
    Fails pre (first >>= next) :=
  fun _ _ hh => run_bind_none (hfirst hh) next

/-! ### Loops and arrays -/

/-- A loop over the first indices leads from blocks to blocks as its body does. -/
theorem returns_forM_range (blocks : ℕ → List (ℕ × β)) {body : ℕ → HeapM β Unit} {n : ℕ}
    (hbody : ∀ i < n, Returns (blocks i) (body i) () (blocks (i + 1))) :
    Returns (blocks 0) ((List.range n).forM body) () (blocks n) := by
  induction n with
  | zero => exact Spec.pure ⟨rfl, rfl⟩
  | succ n ih =>
    have hfirst := ih fun i hi => hbody i (Nat.lt_succ_of_lt hi)
    rw [List.forM_eq_forM, List.range_succ, List.forM_append]
    refine Returns.bind hfirst ?_
    rw [List.forM_cons]
    exact Returns.bind (hbody n n.lt_succ_self) (Spec.pure ⟨rfl, rfl⟩)

/-- The blocks that the pointers of an array point to. -/
def pointees (ptrs : List ℕ) (f : ℕ → β) : List (ℕ × β) := ptrs.mapIdx fun i p => (p, f i)

section Pointees

variable {ptrs : List ℕ} {f : ℕ → β} {i p : ℕ}

theorem mem_pointees (hp : ptrs[i]? = some p) : (p, f i) ∈ pointees ptrs f := by
  refine List.mem_of_getElem? (i := i) ?_
  rw [pointees, List.getElem?_mapIdx, hp]
  rfl

theorem pointees_congr {g : ℕ → β} (h : ∀ i < ptrs.length, f i = g i) :
    pointees ptrs f = pointees ptrs g := by
  refine List.ext_getElem (by simp [pointees]) fun i hi _ => ?_
  rw [pointees, List.length_mapIdx] at hi
  simp only [pointees, List.getElem_mapIdx, h i hi]

theorem pointees_concat : pointees (ptrs ++ [p]) f = pointees ptrs f ++ [(p, f ptrs.length)] := by
  rw [pointees, List.mapIdx_concat]
  rfl

/-- The block at one index, and the others, which do not depend on it. -/
theorem perm_pointees_update (hp : ptrs[i]? = some p) (b : β) :
    (pointees ptrs (Function.update f i b)).Perm ((p, b) :: (pointees ptrs f).eraseIdx i) := by
  obtain ⟨hi, rfl⟩ := List.getElem?_eq_some_iff.mp hp
  have hlength : i < (pointees ptrs (Function.update f i b)).length := by
    rwa [pointees, List.length_mapIdx]
  have hself : (pointees ptrs (Function.update f i b))[i] = (ptrs[i], b) := by
    simp [pointees]
  have hothers : (pointees ptrs (Function.update f i b)).eraseIdx i =
      (pointees ptrs f).eraseIdx i := by
    refine List.ext_getElem? fun j => ?_
    rw [List.getElem?_eraseIdx, List.getElem?_eraseIdx]
    split_ifs with hj <;> simp only [pointees, List.getElem?_mapIdx]
    · rw [Function.update_of_ne (by omega)]
    · rw [Function.update_of_ne (by omega)]
  rw [← hothers, ← hself]
  exact (List.getElem_cons_eraseIdx_perm hlength).symm

/-- A block of an array is written. -/
theorem returns_store_pointee {more : List (ℕ × β)} (hp : ptrs[i]? = some p) (b : β) :
    Returns (pointees ptrs f ++ more) (store p b) ()
      (pointees ptrs (Function.update f i b) ++ more) := by
  have hold : (pointees ptrs f).Perm ((p, f i) :: (pointees ptrs f).eraseIdx i) := by
    simpa using perm_pointees_update (f := f) hp (f i)
  have hnew := perm_pointees_update (f := f) hp b
  exact (returns_store b (hold.append_right more)).perm (hnew.append_right more).symm

end Pointees

/-- All blocks of an array are released. -/
theorem returns_free_pointees (ptrs : List ℕ) (f : ℕ → β) :
    Returns (pointees ptrs f ++ pre) (ptrs.forM fun p => free (some p)) () pre := by
  induction ptrs generalizing f with
  | nil => exact Spec.pure ⟨rfl, rfl⟩
  | cons p ptrs ih =>
    rw [List.forM_eq_forM, List.forM_cons, pointees, List.mapIdx_cons]
    exact Returns.bind (returns_free (List.Perm.refl _)) (ih fun i => f (i + 1))

/-- The blocks of an array are read. -/
theorem returns_mapM_load {view : β → Option γ} {ptrs : List ℕ} {cs : List γ}
    (h : List.Forall₂ (fun p c => ∃ b, (p, b) ∈ pre ∧ view b = some c) ptrs cs) :
    Returns pre (ptrs.mapM (load view)) cs pre := by
  induction h with
  | nil => exact Spec.pure ⟨rfl, rfl⟩
  | cons hp _ ih =>
    obtain ⟨b, hmem, hview⟩ := hp
    rw [List.mapM_cons]
    exact Returns.bind (returns_load hmem hview) (Returns.bind ih (Spec.pure ⟨rfl, rfl⟩))

/-! ### Dead addresses -/

/-- The program brings no dead address back. -/
def KeepsDead (prog : HeapM β α) : Prop :=
  ∀ ⦃h : Heap β⦄ ⦃a : α⦄ ⦃h' : Heap β⦄, prog h = some (a, h') → ∀ p, h.Dead p → h'.Dead p

namespace KeepsDead

theorem pure (a : α) : KeepsDead (pure a : HeapM β α) := by
  rintro h _ _ hrun p hp
  obtain ⟨rfl, rfl⟩ := Prod.mk.inj (Option.some.inj hrun)
  exact hp

theorem bind {first : HeapM β γ} {next : γ → HeapM β α} (hfirst : KeepsDead first)
    (hnext : ∀ c, KeepsDead (next c)) : KeepsDead (first >>= next) := by
  intro h a h₂ hrun p hp
  change (first h).bind (fun r => next r.1 r.2) = _ at hrun
  obtain ⟨⟨c, h₁⟩, hrun₁, hrun₂⟩ := Option.bind_eq_some_iff.mp hrun
  exact hnext c hrun₂ p (hfirst hrun₁ p hp)

theorem malloc (succeeds : Bool) (b : β) : KeepsDead (malloc succeeds b) := by
  intro h a h' hrun p hp
  cases succeeds
  · obtain ⟨-, rfl⟩ := Prod.mk.inj (Option.some.inj hrun)
    exact hp
  · obtain ⟨-, rfl⟩ := Prod.mk.inj (Option.some.inj hrun)
    refine ⟨Nat.lt_succ_of_lt hp.1, ?_⟩
    exact (Function.update_of_ne (Nat.ne_of_lt hp.1) _ _).trans hp.2

theorem fault : KeepsDead (fault : HeapM β α) := by
  rintro _ _ _ ⟨⟩

theorem load (view : β → Option γ) (q : ℕ) : KeepsDead (load view q) := by
  intro h a h' hrun p hp
  obtain ⟨_, -, heq⟩ := Option.map_eq_some_iff.mp hrun
  obtain ⟨-, rfl⟩ := Prod.mk.inj heq
  exact hp

theorem store (q : ℕ) (b : β) : KeepsDead (store q b) := by
  intro h a h' hrun p hp
  obtain ⟨b', hq, heq⟩ := Option.map_eq_some_iff.mp hrun
  obtain ⟨-, rfl⟩ := Prod.mk.inj heq
  have hne : p ≠ q := fun hpq => by
    rw [← hpq, hp.2] at hq
    cases hq
  exact ⟨hp.1, (Function.update_of_ne hne _ _).trans hp.2⟩

theorem free (q : Option ℕ) : KeepsDead (free q : HeapM β Unit) := by
  intro h a h' hrun p hp
  cases q with
  | none => exact pure () hrun p hp
  | some q =>
    obtain ⟨_, -, heq⟩ := Option.map_eq_some_iff.mp hrun
    obtain ⟨-, rfl⟩ := Prod.mk.inj heq
    refine ⟨hp.1, ?_⟩
    by_cases hpq : p = q
    · subst hpq
      exact Function.update_self ..
    · exact (Function.update_of_ne hpq _ _).trans hp.2

end KeepsDead

/-- A block that is released leaves its address dead. -/
theorem Heap.Holds.dead_of_free {h h' : Heap β} {owned : List (ℕ × β)} {p : ℕ} {b : β}
    (hh : h.Holds ((p, b) :: owned)) (hrun : Library.free (some p) h = some ((), h')) :
    h'.Dead p := by
  obtain ⟨_, -, heq⟩ := Option.map_eq_some_iff.mp hrun
  obtain ⟨-, rfl⟩ := Prod.mk.inj heq
  exact ⟨hh.lt_next p b List.mem_cons_self, Function.update_self ..⟩

/-- A dead address cannot be released. -/
theorem Heap.Dead.free {h : Heap β} {p : ℕ} (hp : h.Dead p) : Library.free (some p) h = none := by
  simp only [Library.free, hp.2, Option.map_none]

end LightFS.Library

import LightFS.Meta.ShardMap

/-!
# Pagination of listings

A client lists a bucket page by page: the first page with the empty marker, every further page
with the last key of the page before, until a page is empty (`Paginates`). The listing starts at
the first entry of the array, of any bucket, whose key is greater than the marker, and at the
front of the array when there is none. The array is in insertion order, so this visits every
matching key once, in increasing order, only for arrays of a special shape (`PagesInOrder`):

* the matching keys increase along the array;
* each matching key that ends a page — every `max_keys`-th one and the last one — is not empty,
  has no greater key of any bucket in front of it, and has some greater key behind it.

`pagination_complete_iff` says that this shape is exactly what the code needs.

## Main definitions

* `listPage`, `Paginates`, `PaginationComplete`.
* `PageEndOk`, `PagesInOrder`.

## Main results

* `pagination_complete_iff`.
-/

namespace LightFS.Meta

open Library

/-- One page: the keys a listing call returns for a marker. -/
def listPage (shard : MetaShard) (bucket : CString) (prefix_ : Option CString) (maxKeys : ℤ)
    (marker : CString) : List CString :=
  (metaShardList shard bucket prefix_ (some marker) maxKeys).map (·.toCString)

/-- A pagination from a marker ends after listing the given keys: page after page, each with the
last key of the page before as marker, until a page is empty. -/
inductive Paginates (shard : MetaShard) (bucket : CString) (prefix_ : Option CString)
    (maxKeys : ℤ) : CString → List CString → Prop
  | done {marker} (h : listPage shard bucket prefix_ maxKeys marker = []) :
      Paginates shard bucket prefix_ maxKeys marker []
  | more {marker last rest} (page : List CString)
      (h : listPage shard bucket prefix_ maxKeys marker = page ++ [last])
      (hrest : Paginates shard bucket prefix_ maxKeys last rest) :
      Paginates shard bucket prefix_ maxKeys marker (page ++ [last] ++ rest)

/-- The pagination from the empty marker ends and lists every key of the bucket with the prefix
exactly once, in strictly increasing `strcmp` order. -/
def PaginationComplete (shard : MetaShard) (bucket : CString) (prefix_ : Option CString)
    (maxKeys : ℤ) : Prop :=
  ∃ keys, Paginates shard bucket prefix_ maxKeys default keys ∧
    keys.Pairwise (fun a b => strcmp a.bytes b.bytes = .lt) ∧
    ∀ key, key ∈ keys ↔ ∃ e ∈ shard.contents, InListing bucket prefix_ e ∧ e.key.toCString = key

/-- The matching entries of a part of the array. -/
def matching (bucket : CString) (prefix_ : Option CString) (l : List ObjectManifest) :
    List ObjectManifest :=
  l.filter (InListing bucket prefix_ ·)

/-- The key of `e`, standing between `before` and `after` in the array, works as a marker: it is
not empty, no key in front of it is greater, and some key behind it is. -/
def PageEndOk (before : List ObjectManifest) (e : ObjectManifest) (after : List ObjectManifest) :
    Prop :=
  e.key.bytes ≠ [] ∧ (∀ x ∈ before, ¬ e.key.toCString < x.key.toCString) ∧
    ∃ x ∈ after, e.key.toCString < x.key.toCString

/-- The array lists the matching keys in increasing order, and each of them that ends a page
works as a marker. -/
def PagesInOrder (l : List ObjectManifest) (bucket : CString) (prefix_ : Option CString)
    (maxKeys : ℤ) : Prop :=
  (matching bucket prefix_ l).Pairwise (fun e e' => e.key.toCString < e'.key.toCString) ∧
    ∀ before e after, l = before ++ e :: after → InListing bucket prefix_ e →
      maxKeys.toNat ∣ (matching bucket prefix_ (before ++ [e])).length ∨
        matching bucket prefix_ after = [] →
      PageEndOk before e after

/-! ### The part of the array behind a marker -/

section Marker

variable {before after : List ObjectManifest} {e : ObjectManifest}

theorem fromMarker_suffix (marker : Option CString) (l : List ObjectManifest) :
    fromMarker marker l <:+ l := by
  cases marker with
  | none => exact List.suffix_rfl
  | some m =>
    rw [fromMarker]
    split_ifs
    · exact List.suffix_rfl
    · exact List.drop_suffix ..

/-- Behind a marker that works, the listing skips only entries whose keys are not greater. -/
theorem fromMarker_of_pageEndOk (h : PageEndOk before e after) :
    ∃ s t, after = s ++ t ∧
      fromMarker (some e.key.toCString) (before ++ e :: after) = t ∧
      ∀ x ∈ s, ¬ e.key.toCString < x.key.toCString := by
  obtain ⟨hne, hbefore, x, hx, hlt⟩ := h
  let p : ObjectManifest → Bool := fun x => decide (e.key.toCString < x.key.toCString)
  have hfront : ∀ y ∈ before ++ [e], p y = false := by
    intro y hy
    rcases List.mem_append.mp hy with hy | hy
    · exact decide_eq_false (hbefore y hy)
    · rw [List.mem_singleton.mp hy]
      exact decide_eq_false (lt_irrefl _)
  obtain ⟨i, hi⟩ : ∃ i, after.findIdx? p = some i := by
    refine Option.isSome_iff_exists.mp ?_
    rw [List.findIdx?_isSome]
    exact List.any_eq_true.mpr ⟨x, hx, decide_eq_true hlt⟩
  obtain ⟨hilt, -, hskip⟩ := List.findIdx?_eq_some_iff_getElem.mp hi
  have hsplit : before ++ e :: after = (before ++ [e]) ++ after := by simp
  have hfind : (before ++ [e] ++ after).findIdx? p = some (i + (before ++ [e]).length) := by
    have hnone : (before ++ [e]).findIdx? p = none := List.findIdx?_eq_none_iff.mpr hfront
    rw [List.findIdx?_append, hnone, hi]
    simp
  refine ⟨after.take i, after.drop i, (List.take_append_drop i after).symm, ?_, ?_⟩
  · rw [hsplit, fromMarker, if_neg hne, hfind, Option.getD_some, Nat.add_comm,
      ← List.drop_drop, List.drop_left]
  · intro y hy
    obtain ⟨j, hj, rfl⟩ := List.mem_take_iff_getElem.mp hy
    simpa [p] using hskip j (lt_of_lt_of_le hj (min_le_left _ _))

/-- A marker behind which its own entry does not stand works. -/
theorem pageEndOk_of_notMem
    (h : e ∉ fromMarker (some e.key.toCString) (before ++ e :: after)) :
    PageEndOk before e after := by
  have hmem : e ∈ before ++ e :: after := List.mem_append_right _ List.mem_cons_self
  have hne : e.key.bytes ≠ [] := by
    intro hnil
    rw [fromMarker, if_pos hnil] at h
    exact h hmem
  rw [fromMarker, if_neg hne] at h
  cases hi : (before ++ e :: after).findIdx?
      fun x => decide (e.key.toCString < x.key.toCString) with
  | none =>
    rw [hi] at h
    exact absurd hmem h
  | some i =>
    rw [hi, Option.getD_some] at h
    obtain ⟨hlt, hgt, hskip⟩ := List.findIdx?_eq_some_iff_getElem.mp hi
    -- the first greater key stands behind `e`
    have hpos : before.length < i := by
      by_contra hle
      rw [List.drop_append_of_le_length (not_lt.mp hle)] at h
      exact h (List.mem_append_right _ List.mem_cons_self)
    refine ⟨hne, fun x hx => ?_, ?_⟩
    · obtain ⟨j, hj, rfl⟩ := List.getElem_of_mem hx
      have := hskip j (hj.trans hpos)
      rw [List.getElem_append_left hj] at this
      simpa using this
    · obtain ⟨j, rfl⟩ : ∃ j, i = before.length + 1 + j := ⟨i - (before.length + 1), by omega⟩
      have hj : j < after.length := by
        simp only [List.length_append, List.length_cons] at hlt
        omega
      refine ⟨after[j], List.getElem_mem hj, ?_⟩
      rw [List.getElem_append_right (by omega)] at hgt
      have hidx : before.length + 1 + j - before.length = j + 1 := by omega
      simpa only [hidx, List.getElem_cons_succ, decide_eq_true_eq] using hgt

end Marker

/-! ### Pages -/

/-- Two ways to split a list at an element: at the same place, or one behind the other. -/
theorem append_cons_eq_append_cons_cases {α : Type*} {a b c d : List α} {x y : α}
    (h : a ++ x :: b = c ++ y :: d) :
    (a = c ∧ x = y ∧ b = d) ∨ (∃ r, c = a ++ x :: r ∧ b = r ++ y :: d) ∨
      ∃ r, a = c ++ y :: r ∧ d = r ++ x :: b := by
  rcases List.append_eq_append_iff.mp h with ⟨r, rfl, hr⟩ | ⟨r, rfl, hr⟩
  · cases r with
    | nil => simp_all
    | cons z r => simp_all
  · cases r with
    | nil => simp_all
    | cons z r => simp_all

/-- The page of at most `n` matching elements ends at one element of the list; what matches
behind it is left for the next pages. -/
theorem exists_page_end {α : Type*} {p : α → Bool} {l : List α} {n : ℕ} (hn : 1 ≤ n)
    (hl : l.filter p ≠ []) :
    ∃ l₁ x l₂, l = l₁ ++ x :: l₂ ∧ p x ∧ (l.filter p).take n = l₁.filter p ++ [x] ∧
      l₂.filter p = (l.filter p).drop n := by
  obtain ⟨init, x, htake⟩ : ∃ init x, (l.filter p).take n = init ++ [x] := by
    have hne : (l.filter p).take n ≠ [] := by simp [hl, Nat.one_le_iff_ne_zero.mp hn]
    exact ⟨_, _, (List.dropLast_append_getLast hne).symm⟩
  have hfilter : l.filter p = init ++ x :: (l.filter p).drop n := by
    rw [List.append_cons, ← htake, List.take_append_drop]
  obtain ⟨a, b, rfl, ha, hb⟩ := List.filter_eq_append_iff.mp hfilter
  obtain ⟨b₁, b₂, rfl, hb₁, hx, hb₂⟩ := List.filter_eq_cons_iff.mp hb
  refine ⟨a ++ b₁, x, b₂, by simp, hx, ?_, hb₂⟩
  have hskip : b₁.filter p = [] := List.filter_eq_nil_iff.mpr hb₁
  rw [htake, List.filter_append, ha, hskip, List.append_nil]

/-- What a pagination lists behind its first page `a`, when it lists the keys of `a ++ b` and
those of `a` are smaller than all that follow and none of `b`. -/
theorem mem_rest_iff {α κ : Type*} [Preorder κ] {f : α → κ} {a b : List α} {rest : List κ}
    (hlt : ∀ x ∈ a, ∀ k ∈ rest, f x < k) (hne : ∀ x ∈ a, ∀ y ∈ b, f x ≠ f y)
    (hmem : ∀ k, k ∈ a.map f ++ rest ↔ ∃ x ∈ a ++ b, f x = k) (k : κ) :
    k ∈ rest ↔ ∃ y ∈ b, f y = k := by
  constructor
  · intro hk
    obtain ⟨x, hx, rfl⟩ := (hmem k).mp (List.mem_append_right _ hk)
    rcases List.mem_append.mp hx with hx | hx
    · exact absurd (hlt x hx _ hk) (lt_irrefl _)
    · exact ⟨x, hx, rfl⟩
  · rintro ⟨y, hy, rfl⟩
    rcases List.mem_append.mp ((hmem (f y)).mpr ⟨y, List.mem_append_right _ hy, rfl⟩) with h | h
    · obtain ⟨x, hx, hxy⟩ := List.mem_map.mp h
      exact absurd hxy (hne x hx y hy)
    · exact h

section Pages

variable {shard : MetaShard} {bucket : CString} {prefix_ : Option CString} {maxKeys : ℤ}
  {l : List ObjectManifest}

@[simp] theorem matching_append (l l' : List ObjectManifest) :
    matching bucket prefix_ (l ++ l') = matching bucket prefix_ l ++ matching bucket prefix_ l' :=
  List.filter_append ..

@[simp] theorem matching_nil : matching bucket prefix_ [] = [] := rfl

theorem mem_matching {e : ObjectManifest} :
    e ∈ matching bucket prefix_ l ↔ e ∈ l ∧ InListing bucket prefix_ e := by
  simp [matching]

theorem matching_cons_of_inListing {e : ObjectManifest} (he : InListing bucket prefix_ e)
    (l : List ObjectManifest) :
    matching bucket prefix_ (e :: l) = e :: matching bucket prefix_ l :=
  List.filter_cons_of_pos (decide_eq_true he)

theorem matching_eq_nil_iff :
    matching bucket prefix_ l = [] ↔ ∀ e ∈ l, ¬ InListing bucket prefix_ e := by
  simp [matching]

/-- Matching entries at different places have different keys. -/
theorem key_ne_of_append {a b : List ObjectManifest} {x y : ObjectManifest}
    (hnodup : KeysNodup ObjectManifest.name (a ++ b)) (hx : x ∈ matching bucket prefix_ a)
    (hy : y ∈ matching bucket prefix_ b) : x.key.toCString ≠ y.key.toCString := by
  rw [mem_matching] at hx hy
  intro hkey
  have hname : x.name = y.name := Prod.ext (hx.2.1.trans hy.2.1.symm) hkey
  exact (List.pairwise_append.mp (List.pairwise_map.mp hnodup)).2.2 x hx.1 y hy.1 hname

theorem listPage_eq (hkeys : ∀ e ∈ shard.contents, e.key.bytes.length ≤ 63) (marker : CString) :
    listPage shard bucket prefix_ maxKeys marker =
      ((matching bucket prefix_ (fromMarker (some marker) shard.contents)).take
        maxKeys.toNat).map (·.key.toCString) :=
  map_toCString_metaShardList hkeys bucket prefix_ (some marker) maxKeys

/-- A page of a part `t` of the array with matching entries ends at one entry `e`; only the last
page may be short. -/
theorem exists_matching_page_end {t : List ObjectManifest} {n : ℕ} (hn : 1 ≤ n)
    (ht : matching bucket prefix_ t ≠ []) :
    ∃ t₁ e t₂, t = t₁ ++ e :: t₂ ∧ InListing bucket prefix_ e ∧
      (matching bucket prefix_ t).take n = matching bucket prefix_ t₁ ++ [e] ∧
      (matching bucket prefix_ t₁).length < n ∧
      (matching bucket prefix_ t₂ = [] ∨ (matching bucket prefix_ t₁).length + 1 = n) := by
  obtain ⟨t₁, e, t₂, rfl, he, htake, hdrop⟩ := exists_page_end hn ht
  refine ⟨t₁, e, t₂, rfl, of_decide_eq_true he, htake, ?_⟩
  have hlen := congrArg List.length htake
  rw [List.length_take, List.length_append, List.length_singleton] at hlen
  refine ⟨by simp only [matching]; omega, ?_⟩
  by_cases hle : (matching bucket prefix_ (t₁ ++ e :: t₂)).length ≤ n
  · exact .inl (hdrop.trans (List.drop_eq_nil_of_le hle))
  · refine .inr ?_
    simp only [matching] at hle ⊢
    omega

/-- When all that matches behind `e` is greater, the next page begins behind `e` and misses
nothing. -/
theorem exists_next_part {before after : List ObjectManifest} {e : ObjectManifest}
    (hok : PageEndOk before e after)
    (hgt : ∀ x ∈ matching bucket prefix_ after, e.key.toCString < x.key.toCString) :
    ∃ u v, after = u ++ v ∧ fromMarker (some e.key.toCString) (before ++ e :: after) = v ∧
      matching bucket prefix_ u = [] := by
  obtain ⟨u, v, rfl, hv, hu⟩ := fromMarker_of_pageEndOk hok
  refine ⟨u, v, rfl, hv, matching_eq_nil_iff.mpr fun x hx hmatch => ?_⟩
  exact hu x hx (hgt x (mem_matching.mpr ⟨List.mem_append_left _ hx, hmatch⟩))

/-- **Enough.** Over an array with pages in order, the pagination behind a part `s` of the array
lists the matching keys of the rest `t`, and ends. -/
theorem paginates_of_pagesInOrder (hkeys : ∀ e ∈ shard.contents, e.key.bytes.length ≤ 63)
    (hmax : 1 ≤ maxKeys.toNat)
    (h : PagesInOrder shard.contents bucket prefix_ maxKeys) {s t : List ObjectManifest}
    {marker : CString} (hsplit : shard.contents = s ++ t)
    (hmarker : matching bucket prefix_ (fromMarker (some marker) shard.contents) =
      matching bucket prefix_ t)
    (hdvd : matching bucket prefix_ t = [] ∨
      maxKeys.toNat ∣ (matching bucket prefix_ s).length) :
    Paginates shard bucket prefix_ maxKeys marker
      ((matching bucket prefix_ t).map (·.key.toCString)) := by
  -- induction on the number of matching keys still to list
  induction hlen : (matching bucket prefix_ t).length using Nat.strong_induction_on
    generalizing s t marker with
  | _ len ih =>
  by_cases hnil : matching bucket prefix_ t = []
  · rw [hnil]
    refine .done ?_
    rw [listPage_eq hkeys, hmarker, hnil, List.take_nil, List.map_nil]
  · obtain ⟨t₁, e, t₂, rfl, he, htake, -, hfull⟩ := exists_matching_page_end hmax hnil
    have hdvd' : matching bucket prefix_ t₂ = [] ∨
        maxKeys.toNat ∣ (matching bucket prefix_ (s ++ t₁ ++ [e])).length := by
      refine hfull.imp_right fun hfull => ?_
      have hlen : (matching bucket prefix_ (s ++ t₁ ++ [e])).length =
          (matching bucket prefix_ s).length + maxKeys.toNat := by
        simp [matching_cons_of_inListing he, ← hfull]
      rw [hlen]
      exact Nat.dvd_add (hdvd.resolve_left hnil) (Nat.dvd_refl _)
    have harray : shard.contents = s ++ t₁ ++ e :: t₂ := by simp [hsplit]
    have hok : PageEndOk (s ++ t₁) e t₂ := h.2 _ _ _ harray he hdvd'.symm
    have hgt : ∀ x ∈ matching bucket prefix_ t₂, e.key.toCString < x.key.toCString := by
      have hpairwise := h.1
      rw [harray, matching_append, matching_cons_of_inListing he, List.pairwise_append,
        List.pairwise_cons] at hpairwise
      exact hpairwise.2.1.1
    obtain ⟨u, v, rfl, hnext, hu⟩ := exists_next_part hok hgt
    have hpage : listPage shard bucket prefix_ maxKeys marker =
        (matching bucket prefix_ t₁).map (·.key.toCString) ++ [e.key.toCString] := by
      rw [listPage_eq hkeys, hmarker, htake, List.map_append]
      rfl
    have hrest : Paginates shard bucket prefix_ maxKeys e.key.toCString
        ((matching bucket prefix_ v).map (·.key.toCString)) := by
      refine ih (matching bucket prefix_ v).length ?_ (s := s ++ t₁ ++ e :: u) (by simp [harray])
        (by rw [harray, hnext]) ?_ rfl
      · rw [← hlen]
        simp only [matching_append, matching_cons_of_inListing he, List.length_append,
          List.length_cons]
        omega
      · simpa [matching_cons_of_inListing he, hu] using hdvd'
    have := Paginates.more _ hpage hrest
    simpa [matching_cons_of_inListing he, hu] using this

/-- Every entry that ends a page of the part `t` of the array, behind the part `s`, works as a
marker. -/
def PageEndsOk (bucket : CString) (prefix_ : Option CString) (maxKeys : ℤ)
    (s t : List ObjectManifest) : Prop :=
  ∀ before e after, t = before ++ e :: after → InListing bucket prefix_ e →
    maxKeys.toNat ∣ (matching bucket prefix_ (before ++ [e])).length ∨
      matching bucket prefix_ after = [] →
    PageEndOk (s ++ before) e after

/-- The page ends of an array part are the end `e` of its first page and the page ends of what
the second page starts with. -/
theorem PageEndsOk.of_first_page {s t₁ u v : List ObjectManifest} {e : ObjectManifest}
    (he : InListing bucket prefix_ e) (hlt : (matching bucket prefix_ t₁).length < maxKeys.toNat)
    (hfull : matching bucket prefix_ (u ++ v) = [] ∨
      (matching bucket prefix_ t₁).length + 1 = maxKeys.toNat)
    (hu : matching bucket prefix_ u = []) (hok : PageEndOk (s ++ t₁) e (u ++ v))
    (hrest : PageEndsOk bucket prefix_ maxKeys (s ++ t₁ ++ e :: u) v) :
    PageEndsOk bucket prefix_ maxKeys s (t₁ ++ e :: (u ++ v)) := by
  intro before e' after hsplit he' hend
  rcases append_cons_eq_append_cons_cases hsplit with
    ⟨rfl, rfl, rfl⟩ | ⟨r, rfl, hr⟩ | ⟨r, rfl, rfl⟩
  · exact hok
  · -- `e'` stands behind the first page, and not among the skipped entries `u`
    obtain ⟨b, rfl, rfl⟩ : ∃ b, r = u ++ b ∧ v = b ++ e' :: after := by
      rcases List.append_eq_append_iff.mp hr with h | ⟨c, rfl, hc⟩
      · exact h
      · cases c with
        | nil => exact ⟨[], by simp, hc.symm⟩
        | cons c cs =>
          obtain ⟨rfl, -⟩ := List.cons.inj hc
          exact absurd he' (matching_eq_nil_iff.mp hu _ (by simp))
    have hfull' : (matching bucket prefix_ t₁).length + 1 = maxKeys.toNat :=
      hfull.resolve_left (by simp [matching_cons_of_inListing he'])
    have hlen : (matching bucket prefix_ (t₁ ++ e :: (u ++ b) ++ [e'])).length =
        maxKeys.toNat + (matching bucket prefix_ (b ++ [e'])).length := by
      simp only [matching_append, matching_cons_of_inListing he, hu, List.nil_append,
        List.length_append, List.length_cons]
      omega
    rw [hlen, Nat.dvd_add_right (Nat.dvd_refl _)] at hend
    simpa using hrest b e' after rfl he' hend
  · -- inside the first page, short of its end, no page ends
    have hlt' : (matching bucket prefix_ (before ++ [e'])).length < maxKeys.toNat := by
      refine Nat.lt_of_le_of_lt ?_ hlt
      simp [matching_cons_of_inListing he']
    rcases hend with hdvd | hnil
    · have hpos : 0 < (matching bucket prefix_ (before ++ [e'])).length := by
        simp [matching_cons_of_inListing he']
      exact absurd (Nat.le_of_dvd hpos hdvd) (by omega)
    · simp [matching_cons_of_inListing he] at hnil

theorem Paginates.page_subset {marker : CString} {keys : List CString}
    (h : Paginates shard bucket prefix_ maxKeys marker keys) :
    listPage shard bucket prefix_ maxKeys marker ⊆ keys := by
  cases h with
  | done hpage => simp [hpage]
  | more page hpage hrest =>
    rw [hpage]
    exact List.subset_append_left ..

/-- A listing that reaches back to `e` runs over a part of the array that ends in `e` and what
is behind it. -/
theorem exists_fromMarker_append (hnodup : KeysNodup ObjectManifest.name shard.contents)
    {marker : Option CString} {before after : List ObjectManifest} {e : ObjectManifest}
    (hsplit : shard.contents = before ++ e :: after) (he : InListing bucket prefix_ e)
    (hmem : e ∈ fromMarker marker shard.contents) :
    ∃ w y, before = y ++ w ∧ fromMarker marker shard.contents = w ++ e :: after := by
  have hnodup' : KeysNodup ObjectManifest.name ((before ++ [e]) ++ after) := by
    simpa [hsplit] using hnodup
  obtain ⟨y, hy⟩ := fromMarker_suffix marker shard.contents
  rw [hsplit] at hy
  rcases List.append_eq_append_iff.mp hy with ⟨w, hw, hz⟩ | ⟨c, -, hz⟩
  · exact ⟨w, y, hw, by rw [hsplit, hz]⟩
  · rcases List.cons_eq_append_iff.mp hz with ⟨-, hz⟩ | ⟨c, -, hz⟩
    · exact ⟨[], before, by simp, by rw [hsplit, hz]; rfl⟩
    · -- only what is behind `e` is listed, and the keys are distinct
      have heafter : e ∈ after := by
        rw [hz, ← hsplit]
        exact List.mem_append_right _ hmem
      have hefront : e ∈ matching bucket prefix_ (before ++ [e]) :=
        mem_matching.mpr ⟨by simp, he⟩
      exact absurd rfl (key_ne_of_append hnodup' hefront (mem_matching.mpr ⟨heafter, he⟩))

/-- When the pages behind the marker `e.key` hold only keys from behind `e`, the listing from
that marker does not reach back to `e`. -/
theorem notMem_fromMarker_of_paginates
    (hkeys : ∀ e ∈ shard.contents, e.key.bytes.length ≤ 63) (hmax : 1 ≤ maxKeys.toNat)
    (hnodup : KeysNodup ObjectManifest.name shard.contents)
    {before after : List ObjectManifest} {e : ObjectManifest}
    (hsplit : shard.contents = before ++ e :: after) (he : InListing bucket prefix_ e)
    {rest : List CString} (h : Paginates shard bucket prefix_ maxKeys e.key.toCString rest)
    (hrest : ∀ key ∈ rest, ∃ x ∈ matching bucket prefix_ after, x.key.toCString = key) :
    e ∉ fromMarker (some e.key.toCString) shard.contents := by
  intro hmem
  have hnodup' : KeysNodup ObjectManifest.name ((before ++ [e]) ++ after) := by
    simpa [hsplit] using hnodup
  obtain ⟨w, y, hw, hpart⟩ := exists_fromMarker_append hnodup hsplit he hmem
  -- its first matching entry stands not behind `e`, and is listed
  obtain ⟨f, fs, hf⟩ : ∃ f fs, matching bucket prefix_ (w ++ [e]) = f :: fs :=
    List.exists_cons_of_ne_nil (by simp [matching_cons_of_inListing he])
  have hlisted : f.key.toCString ∈ rest := by
    refine h.page_subset ?_
    have hpart' : w ++ e :: after = (w ++ [e]) ++ after := by simp
    obtain ⟨n, hn⟩ := Nat.exists_eq_add_of_le' hmax
    rw [listPage_eq hkeys, hpart, hpart', matching_append, hf, hn]
    simp
  obtain ⟨x, hx, hkey⟩ := hrest _ hlisted
  refine key_ne_of_append hnodup' ?_ hx hkey.symm
  have hfmem : f ∈ matching bucket prefix_ (w ++ [e]) := hf ▸ List.mem_cons_self
  rw [hw, List.append_assoc, matching_append]
  exact List.mem_append_right _ hfmem

/-- **Needed.** A pagination that lists exactly the matching keys of the part `t` of the array,
in increasing order, lists them in array order, and every page end works as a marker. -/
theorem pageEndsOk_of_paginates (hkeys : ∀ e ∈ shard.contents, e.key.bytes.length ≤ 63)
    (hmax : 1 ≤ maxKeys.toNat) (hnodup : KeysNodup ObjectManifest.name shard.contents)
    {keys : List CString} {marker : CString}
    (h : Paginates shard bucket prefix_ maxKeys marker keys)
    (hsorted : keys.Pairwise (· < ·)) {s t : List ObjectManifest}
    (hsplit : shard.contents = s ++ t)
    (hmarker : matching bucket prefix_ (fromMarker (some marker) shard.contents) =
      matching bucket prefix_ t)
    (hmem : ∀ key, key ∈ keys ↔ ∃ e ∈ matching bucket prefix_ t, e.key.toCString = key) :
    keys = (matching bucket prefix_ t).map (·.key.toCString) ∧
      PageEndsOk bucket prefix_ maxKeys s t := by
  induction h generalizing s t with
  | done hpage =>
    have hnil : matching bucket prefix_ t = [] := by
      rw [matching_eq_nil_iff]
      intro e he hmatch
      simpa using (hmem e.key.toCString).mpr ⟨e, mem_matching.mpr ⟨he, hmatch⟩, rfl⟩
    refine ⟨by rw [hnil]; rfl, ?_⟩
    rintro before e after rfl he -
    exact absurd he (matching_eq_nil_iff.mp hnil e (by simp))
  | @more marker last rest page hpage hrest ih =>
    rw [listPage_eq hkeys, hmarker] at hpage
    have hnil : matching bucket prefix_ t ≠ [] := by
      rintro hnil
      simp [hnil] at hpage
    obtain ⟨t₁, e, t₂, rfl, he, htake, hlt, hfull⟩ := exists_matching_page_end hmax hnil
    rw [htake] at hpage
    obtain ⟨rfl⟩ : e.key.toCString = last := by
      simpa using congrArg List.getLast? hpage
    have harray : shard.contents = s ++ t₁ ++ e :: t₂ := by simp [hsplit]
    have hmatching : matching bucket prefix_ (t₁ ++ e :: t₂) =
        (matching bucket prefix_ t₁ ++ [e]) ++ matching bucket prefix_ t₂ := by
      simp [matching_cons_of_inListing he]
    rw [← hpage] at hsorted hmem ⊢
    obtain ⟨-, hsorted', hlt_rest⟩ := List.pairwise_append.mp hsorted
    have hlt_rest' : ∀ x ∈ matching bucket prefix_ t₁ ++ [e], ∀ key ∈ rest,
        x.key.toCString < key :=
      fun x hx => hlt_rest _ (List.mem_map.mpr ⟨x, hx, rfl⟩)
    -- the rest of the pagination lists what matches behind `e`
    have hmem' : ∀ key, key ∈ rest ↔
        ∃ x ∈ matching bucket prefix_ t₂, x.key.toCString = key := by
      refine mem_rest_iff hlt_rest' (fun x hx y hy => ?_) fun key => hmatching ▸ hmem key
      have hnodup' : KeysNodup ObjectManifest.name ((s ++ (t₁ ++ [e])) ++ t₂) := by
        simpa [hsplit] using hnodup
      refine key_ne_of_append hnodup' ?_ hy
      rw [matching_append, matching_append, matching_cons_of_inListing he, matching_nil]
      exact List.mem_append_right _ hx
    have hok : PageEndOk (s ++ t₁) e t₂ := by
      refine pageEndOk_of_notMem ?_
      rw [← harray]
      exact notMem_fromMarker_of_paginates hkeys hmax hnodup harray he hrest
        fun key hkey => (hmem' key).mp hkey
    have hgt : ∀ x ∈ matching bucket prefix_ t₂, e.key.toCString < x.key.toCString :=
      fun x hx => hlt_rest' e (by simp) _ ((hmem' _).mpr ⟨x, hx, rfl⟩)
    obtain ⟨u, v, rfl, hnext, hu⟩ := exists_next_part hok hgt
    rw [matching_append, hu, List.nil_append] at hmem'
    obtain ⟨hkeys_eq, hends⟩ := ih hsorted' (s := s ++ t₁ ++ e :: u) (by simp [hsplit])
      (by rw [harray, hnext]) hmem'
    refine ⟨?_, .of_first_page he hlt hfull hu hok hends⟩
    rw [hmatching, matching_append, hu, hkeys_eq]
    simp

/-- The pagination of a shard with distinct names is complete exactly when its pages are in
order. -/
theorem paginationComplete_iff_of_keysNodup
    (hkeys : ∀ e ∈ shard.contents, e.key.bytes.length ≤ 63) (hmax : 1 ≤ maxKeys)
    (hnodup : KeysNodup ObjectManifest.name shard.contents) :
    PaginationComplete shard bucket prefix_ maxKeys ↔
      PagesInOrder shard.contents bucket prefix_ maxKeys := by
  have hmax' : 1 ≤ maxKeys.toNat := by omega
  have hmarker : fromMarker (some default) shard.contents = shard.contents :=
    fromMarker_of_noMarker (by simp [NoMarker, default]) _
  have hmem : ∀ key : CString, (∃ e ∈ matching bucket prefix_ shard.contents,
      e.key.toCString = key) ↔
      ∃ e ∈ shard.contents, InListing bucket prefix_ e ∧ e.key.toCString = key := by
    simp [mem_matching, and_assoc]
  simp only [PaginationComplete, strcmp_eq_lt_iff]
  constructor
  · rintro ⟨keys, hpag, hsorted, hall⟩
    obtain ⟨rfl, hends⟩ := pageEndsOk_of_paginates hkeys hmax' hnodup hpag hsorted
      (List.nil_append _).symm (by rw [hmarker]) fun key => (hall key).trans (hmem key).symm
    exact ⟨List.pairwise_map.mp hsorted, hends⟩
  · intro h
    refine ⟨_, paginates_of_pagesInOrder hkeys hmax' h (List.nil_append _).symm (by rw [hmarker])
      (.inr (Nat.dvd_zero _)), List.pairwise_map.mpr h.1, fun key => ?_⟩
    rw [← hmem, List.mem_map]

/-- A marker whose page ends in the marker again is never left. -/
theorem not_paginates_of_page_eq {marker : CString} {page : List CString}
    (h : listPage shard bucket prefix_ maxKeys marker = page ++ [marker]) (keys : List CString) :
    ¬ Paginates shard bucket prefix_ maxKeys marker keys := by
  intro hpag
  induction hpag with
  | done hpage => simp [h] at hpage
  | more page' hpage _ ih =>
    obtain ⟨rfl, hlast⟩ := List.append_inj' (h.symm.trans hpage) rfl
    obtain rfl := List.singleton_inj.mp hlast
    exact ih h

end Pages

/-- **Pagination is complete exactly for arrays with pages in order.** For every shard that a run
of calls reaches from an empty one, with keys of at most 63 bytes, and every bucket, prefix and
`max_keys ≥ 1`, listing page by page ends and gives every key of the bucket with the prefix
exactly once, in increasing order, if and only if `PagesInOrder` holds of the live entries. -/
theorem pagination_complete_iff (shardId parentShardId : UInt32) (bucketName : Option CString)
    (ops : List ShardOp) (bucket : CString) (prefix_ : Option CString) (maxKeys : ℤ)
    (hkeys : ∀ e ∈ (shardMachine.run (metaShardCreate shardId parentShardId bucketName)
      ops).contents, e.key.bytes.length ≤ 63)
    (hmax : 1 ≤ maxKeys) :
    let shard := shardMachine.run (metaShardCreate shardId parentShardId bucketName) ops
    PaginationComplete shard bucket prefix_ maxKeys ↔
      PagesInOrder shard.contents bucket prefix_ maxKeys :=
  paginationComplete_iff_of_keysNodup hkeys hmax
    (represents_run shardId parentShardId bucketName ops).1.keysNodup

/-- An object of bucket `b` with a one-byte key. -/
def smallObject (key : UInt8) : ObjectManifest :=
  { ObjectManifest.zero with
    bucket := .strncpy (.ofMemory [98])
    key := .strncpy (.ofMemory [key]) }

theorem pagination_complete_iff_two_objects :
    let shard := shardMachine.run (metaShardCreate 1 0 none)
      [.insert (smallObject 97), .insert (smallObject 98)]
    (∀ e ∈ shard.contents, e.key.bytes.length ≤ 63) ∧
      (PaginationComplete shard (.ofMemory [98]) none 1 ↔
        PagesInOrder shard.contents (.ofMemory [98]) none 1) :=
  ⟨by decide, pagination_complete_iff 1 0 none
    [.insert (smallObject 97), .insert (smallObject 98)] (.ofMemory [98]) none 1
    (by decide) (by decide)⟩

/-- The pagination of a bucket with one object never ends: behind its only key the listing starts
again at the front. -/
theorem pagination_one_object_endless :
    ¬ PaginationComplete (shardMachine.run (metaShardCreate 1 0 none) [.insert (smallObject 97)])
      (.ofMemory [98]) none 1 := by
  rintro ⟨keys, hpag, -⟩
  have hpage : ∀ marker ∈ [default, .ofMemory [97]],
      listPage (shardMachine.run (metaShardCreate 1 0 none) [.insert (smallObject 97)])
        (.ofMemory [98]) none 1 marker = [] ++ [.ofMemory [97]] := by
    decide
  cases hpag with
  | done h => exact absurd (h.symm.trans (hpage default (by simp))) (by simp)
  | more page h hrest =>
    obtain ⟨rfl, hlast⟩ := List.append_inj' (h.symm.trans (hpage default (by simp))) rfl
    obtain rfl := List.singleton_inj.mp hlast
    exact not_paginates_of_page_eq (hpage (.ofMemory [97]) (by simp)) _ hrest

end LightFS.Meta

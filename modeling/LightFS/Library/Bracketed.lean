import Mathlib.Data.List.Infix

/-!
# Texts in brackets

A list of texts is written by putting each of them between an opening and a closing text, one behind
the other. Nothing is escaped, so a text may contain the closing text of one item followed by the
opening text of the next, and two items are written as one item that contains this separator
(`bracketed_join`).

An item is told from all other lists only if it does not contain the separator
(`eq_singleton_of_bracketed_eq`). Among the lists whose items do not contain it, the written text
determines the list, if the separator does not overlap itself (`bracketed_inj`).

## Main definitions

* `bracketed`, `Overlaps`.
-/

namespace LightFS.Library

variable {α : Type*} (opening closing : List α)

/-- The items between an opening and a closing text, one behind the other. -/
def bracketed (items : List (List α)) : List α :=
  items.flatMap fun item => opening ++ item ++ closing

variable {opening closing}

@[simp] theorem bracketed_nil : bracketed opening closing [] = [] := rfl

theorem bracketed_cons (item : List α) (items : List (List α)) :
    bracketed opening closing (item :: items) =
      opening ++ (item ++ (closing ++ bracketed opening closing items)) := by
  simp only [bracketed, List.flatMap_cons, List.append_assoc]

/-- Two items are written as one that contains the separator. -/
theorem bracketed_join (a b : List α) (items : List (List α)) :
    bracketed opening closing ((a ++ (closing ++ opening) ++ b) :: items) =
      bracketed opening closing (a :: b :: items) := by
  simp only [bracketed_cons, List.append_assoc]

variable (opening closing)

/-- What follows an item ends with the closing text. -/
theorem exists_closing (items : List (List α)) :
    ∃ text, closing ++ bracketed opening closing items = text ++ closing := by
  induction items with
  | nil => exact ⟨[], List.append_nil closing⟩
  | cons item items ih =>
    obtain ⟨text, htext⟩ := ih
    refine ⟨closing ++ (opening ++ (item ++ text)), ?_⟩
    rw [bracketed_cons, htext]
    simp only [List.append_assoc]

/-- Behind an item that is not the last one comes the separator, and the text ends with the closing
text. -/
theorem exists_separator (item : List α) (items : List (List α)) :
    ∃ text, closing ++ bracketed opening closing (item :: items) =
      closing ++ opening ++ (text ++ closing) := by
  obtain ⟨text, htext⟩ := exists_closing opening closing items
  refine ⟨item ++ text, ?_⟩
  rw [bracketed_cons, htext]
  simp only [List.append_assoc]

variable {opening closing}

theorem exists_separator_of_length_lt {items : List (List α)}
    (h : closing.length < (closing ++ bracketed opening closing items).length) :
    ∃ text, closing ++ bracketed opening closing items =
      closing ++ opening ++ (text ++ closing) := by
  cases items with
  | nil => exact absurd h (by simp)
  | cons item items => exact exists_separator opening closing item items

theorem bracketed_eq_nil (hne : opening ++ closing ≠ []) {items : List (List α)}
    (h : bracketed opening closing items = []) : items = [] := by
  cases items with
  | nil => rfl
  | cons item items =>
    rw [bracketed_cons] at h
    refine absurd ?_ hne
    simp only [List.append_eq_nil_iff] at h ⊢
    exact ⟨h.1, h.2.2.1⟩

/-- An item that does not contain the separator is the only list that is written so. -/
theorem eq_singleton_of_bracketed_eq (hne : opening ++ closing ≠ []) {item : List α}
    (hitem : ¬ closing ++ opening <:+: item) {items : List (List α)}
    (h : bracketed opening closing items = bracketed opening closing [item]) : items = [item] := by
  match items with
  | [] => exact absurd (bracketed_eq_nil hne h.symm) (List.cons_ne_nil _ _)
  | [a] =>
    rw [bracketed_cons, bracketed_cons] at h
    rw [List.append_cancel_right (List.append_cancel_left h)]
  | a :: b :: rest =>
    -- the separator behind the first item stands in the one item of the other list
    refine absurd ?_ hitem
    obtain ⟨text, htext⟩ := exists_separator opening closing b rest
    rw [bracketed_cons a, htext, bracketed_cons item] at h
    have hrest := List.append_cancel_left h
    rw [bracketed_nil, List.append_nil, ← List.append_assoc _ text, ← List.append_assoc] at hrest
    rw [← List.append_cancel_right hrest]
    exact ⟨a, text, List.append_assoc ..⟩

/-! ### Items without the separator -/

/-- A text overlaps itself: one of its ends is a beginning of it. -/
def Overlaps (text : List α) : Prop := ∃ k < text.length, 0 < k ∧ text.drop k <+: text

instance [DecidableEq α] (text : List α) : Decidable (Overlaps text) :=
  inferInstanceAs (Decidable (∃ k < text.length, 0 < k ∧ text.drop k <+: text))

/-- Behind an item comes its separator, so an item that does not contain it is not longer than the
one it is compared with. -/
theorem length_le_of_append_eq (hoverlap : ¬ Overlaps (closing ++ opening)) {x y : List α}
    (hy : ¬ closing ++ opening <:+: y) {xs ys : List (List α)}
    (h : x ++ (closing ++ bracketed opening closing xs) =
      y ++ (closing ++ bracketed opening closing ys)) : y.length ≤ x.length := by
  by_contra hlt
  obtain ⟨d, rfl⟩ : x <+: y :=
    List.prefix_of_prefix_length_le ⟨_, h⟩ (List.prefix_append _ _) (by omega)
  rw [List.append_assoc] at h
  have hrest := List.append_cancel_left h
  have hd : 0 < d.length := by
    rw [List.length_append] at hlt
    omega
  have hxs : closing.length < (closing ++ bracketed opening closing xs).length := by
    rw [hrest, List.length_append, List.length_append]
    omega
  obtain ⟨text, htext⟩ := exists_separator_of_length_lt hxs
  rw [htext] at hrest
  have hsep : closing ++ opening <+: d ++ (closing ++ bracketed opening closing ys) := ⟨_, hrest⟩
  rcases Nat.lt_or_ge d.length (closing ++ opening).length with hshort | hlong
  · -- the separator begins in the longer item and ends behind it
    obtain ⟨e, he⟩ := List.prefix_of_prefix_length_le (List.prefix_append d _) hsep hshort.le
    have hlengths : d.length + e.length = (closing ++ opening).length := by
      rw [← he, List.length_append]
    rw [← he, List.append_assoc] at hrest
    have htail := List.append_cancel_left hrest
    have hys : closing.length < (closing ++ bracketed opening closing ys).length := by
      rw [← htail, List.length_append, List.length_append]
      omega
    obtain ⟨text', htext'⟩ := exists_separator_of_length_lt hys
    have hbegins : e <+: closing ++ opening :=
      List.prefix_of_prefix_length_le ⟨_, htail⟩ ⟨_, htext'.symm⟩ (by omega)
    have hends : (closing ++ opening).drop d.length = e := by rw [← he, List.drop_left]
    exact hoverlap ⟨d.length, hshort, hd, by rwa [hends]⟩
  · -- the separator is in the longer item
    have hfound := List.prefix_of_prefix_length_le hsep (List.prefix_append d _) hlong
    exact hy (hfound.isInfix.trans (List.suffix_append x d).isInfix)

/-- **Items without the separator are told apart.** -/
theorem bracketed_inj (hne : opening ++ closing ≠ []) (hoverlap : ¬ Overlaps (closing ++ opening))
    {xs ys : List (List α)} (hxs : ∀ x ∈ xs, ¬ closing ++ opening <:+: x)
    (hys : ∀ y ∈ ys, ¬ closing ++ opening <:+: y)
    (h : bracketed opening closing xs = bracketed opening closing ys) : xs = ys := by
  induction xs generalizing ys with
  | nil => exact (bracketed_eq_nil hne h.symm).symm
  | cons x xs ih =>
    cases ys with
    | nil => exact bracketed_eq_nil hne h
    | cons y ys =>
      rw [bracketed_cons, bracketed_cons] at h
      have hrest := List.append_cancel_left h
      have hlength : x.length = y.length := Nat.le_antisymm
        (length_le_of_append_eq hoverlap (hxs x List.mem_cons_self) hrest.symm)
        (length_le_of_append_eq hoverlap (hys y List.mem_cons_self) hrest)
      obtain ⟨rfl, htails⟩ := List.append_inj hrest hlength
      rw [ih (fun x hx => hxs x (List.mem_cons_of_mem _ hx))
        (fun y hy => hys y (List.mem_cons_of_mem _ hy)) (List.append_cancel_left htails)]

end LightFS.Library

import Mathlib.Data.List.Basic

/-!
# Text in lines

Protocols such as HTTP send text in lines that are ended by CR LF, and end the head of a message by
an empty line. `splitLines` gives the lines of a text, `splitHead` cuts a byte stream behind the
first empty line. A head reads back whole exactly when none of its lines but the first is empty
(`splitHead_eq_iff`).

## Main definitions

* `crlf`, `splitLines`, `splitHead`.

## Main results

* `splitLines_append_crlf`, `splitLines_append_of_notMem`.
* `splitHead_eq_iff`.
-/

namespace LightFS.Library

/-- The end of a line. -/
def crlf : List UInt8 := [13, 10]

/-- Put a byte in front of the first line. -/
def consLine (b : UInt8) : List (List UInt8) → List (List UInt8)
  | [] => [[b]]
  | line :: lines => (b :: line) :: lines

/-- The lines of a text, which CR LF separates; the text behind the last CR LF is a line, too. -/
def splitLines : List UInt8 → List (List UInt8)
  | [] => [[]]
  | [b] => [[b]]
  | b :: c :: text =>
    if b = 13 ∧ c = 10 then [] :: splitLines text else consLine b (splitLines (c :: text))

/-- Cut a byte stream behind its first empty line. -/
def splitHead : List UInt8 → Option (List UInt8 × List UInt8)
  | [] => none
  | b :: text =>
    if crlf ++ crlf <+: b :: text then some (crlf ++ crlf, text.drop 3)
    else (splitHead text).map fun split => (b :: split.1, split.2)

/-! ### Lines -/

theorem splitLines_ne_nil (text : List UInt8) : splitLines text ≠ [] := by
  fun_induction splitLines text with
  | case1 => exact List.cons_ne_nil _ _
  | case2 => exact List.cons_ne_nil _ _
  | case3 => exact List.cons_ne_nil _ _
  | case4 b c text h ih =>
    rcases hlines : splitLines (c :: text) with _ | ⟨line, lines⟩
    · exact absurd hlines ih
    · exact List.cons_ne_nil _ _

theorem consLine_append (b : UInt8) {lines : List (List UInt8)} (h : lines ≠ [])
    (lines' : List (List UInt8)) : consLine b (lines ++ lines') = consLine b lines ++ lines' := by
  rcases lines with _ | ⟨line, lines⟩
  · exact absurd rfl h
  · rfl

theorem tail_consLine (b : UInt8) (lines : List (List UInt8)) :
    (consLine b lines).tail = lines.tail := by
  rcases lines with _ | ⟨line, lines⟩ <;> rfl

/-- A byte that does not begin a CR LF goes to the first line. -/
theorem splitLines_cons {b : UInt8} {text : List UInt8} (h : ¬ (b = 13 ∧ text.head? = some 10)) :
    splitLines (b :: text) = consLine b (splitLines text) := by
  rcases text with _ | ⟨c, text⟩
  · rfl
  · rw [splitLines, if_neg]
    simpa using h

/-- A line is ended by CR LF. -/
theorem splitLines_append_crlf (text text' : List UInt8) :
    splitLines (text ++ crlf ++ text') = splitLines text ++ splitLines text' := by
  rw [List.append_assoc]
  fun_induction splitLines text with
  | case1 => exact if_pos ⟨rfl, rfl⟩
  | case2 b =>
    have hb : ¬ (b = 13 ∧ (13 : UInt8) = 10) := by simp
    have htext : splitLines (crlf ++ text') = [] :: splitLines text' := if_pos ⟨rfl, rfl⟩
    exact (if_neg hb).trans (congrArg (consLine b) htext)
  | case3 b c text h ih =>
    obtain ⟨rfl, rfl⟩ := h
    exact (if_pos ⟨rfl, rfl⟩).trans (congrArg ([] :: ·) ih)
  | case4 b c text h ih =>
    rw [← consLine_append b (splitLines_ne_nil _), ← ih]
    exact if_neg h

/-- A text without CR goes to the first line. -/
theorem splitLines_append_of_notMem {a : List UInt8} (ha : 13 ∉ a) (text : List UInt8) :
    splitLines (a ++ text) =
      (a ++ (splitLines text).headD []) :: (splitLines text).tail := by
  induction a with
  | nil =>
    rcases hlines : splitLines text with _ | ⟨line, lines⟩
    · exact absurd hlines (splitLines_ne_nil text)
    · exact hlines
  | cons b a ih =>
    rw [List.mem_cons, not_or] at ha
    rw [List.cons_append, splitLines_cons fun h => ha.1 h.1.symm, ih ha.2]
    rfl

theorem splitLines_of_notMem {a : List UInt8} (ha : 13 ∉ a) : splitLines a = [a] := by
  have h := splitLines_append_of_notMem ha []
  rwa [List.append_nil, splitLines, List.headD_cons, List.append_nil] at h

/-- A text is cut at the first occurrence of a byte in one way. -/
theorem append_cons_inj_of_notMem {a a' text text' : List UInt8} {b : UInt8} (ha : b ∉ a)
    (ha' : b ∉ a') (h : a ++ b :: text = a' ++ b :: text') : a = a' ∧ text = text' := by
  induction a generalizing a' with
  | nil =>
    rcases a' with _ | ⟨c, a'⟩
    · exact ⟨rfl, (List.cons.inj h).2⟩
    · exact absurd ((List.cons.inj h).1 ▸ List.mem_cons_self) ha'
  | cons c a ih =>
    rcases a' with _ | ⟨c', a'⟩
    · exact absurd ((List.cons.inj h).1 ▸ List.mem_cons_self) ha
    · obtain ⟨rfl, htail⟩ := List.cons.inj h
      obtain ⟨rfl, rfl⟩ := ih (fun hmem => ha (List.mem_cons_of_mem c hmem))
        (fun hmem => ha' (List.mem_cons_of_mem c hmem)) htail
      exact ⟨rfl, rfl⟩

/-! ### Heads -/

theorem splitHead_cons_of_ne {b c : UInt8} {text : List UInt8} (h : ¬ (b = 13 ∧ c = 10)) :
    splitHead (b :: c :: text) =
      (splitHead (c :: text)).map fun split => (b :: split.1, split.2) := by
  rw [splitHead, if_neg]
  rintro ⟨rest, hrest⟩
  simp only [crlf, List.cons_append, List.nil_append, List.cons.injEq] at hrest
  exact h ⟨hrest.1.symm, hrest.2.1.symm⟩

theorem map_cons_eq_some_iff {b : UInt8} {split : Option (List UInt8 × List UInt8)}
    {head rest : List UInt8} :
    (split.map fun split => (b :: split.1, split.2)) = some (b :: head, rest) ↔
      split = some (head, rest) := by
  rw [Option.map_eq_some_iff]
  constructor
  · rintro ⟨⟨head', rest'⟩, rfl, heq⟩
    obtain ⟨hhead, rfl⟩ := Prod.mk.inj heq
    obtain rfl := (List.cons.inj hhead).2
    rfl
  · rintro rfl
    exact ⟨_, rfl, rfl⟩

/-- A head and what follows it are the text. -/
theorem append_of_splitHead {text head rest : List UInt8} (h : splitHead text = some (head, rest)) :
    head ++ rest = text := by
  induction text generalizing head with
  | nil => exact absurd h.symm (Option.some_ne_none _)
  | cons b text ih =>
    rw [splitHead] at h
    split_ifs at h with hblank
    · obtain ⟨rest', hrest'⟩ := hblank
      obtain ⟨rfl, rfl⟩ := Prod.mk.inj (Option.some.inj h)
      obtain ⟨rfl, rfl⟩ := List.cons.inj hrest'
      rfl
    · obtain ⟨⟨head', rest'⟩, hsplit, heq⟩ := Option.map_eq_some_iff.mp h
      obtain ⟨rfl, rfl⟩ := Prod.mk.inj heq
      exact congrArg (b :: ·) (ih hsplit)

/-- Whether a text begins with CR LF, when CR LF follows it: then its first line is empty. -/
theorem crlf_prefix_iff (text rest : List UInt8) :
    crlf <+: text ++ crlf ++ rest ↔ (splitLines text).headD [] = [] := by
  rcases text with _ | ⟨b, _ | ⟨c, text⟩⟩
  · exact iff_of_true ⟨rest, rfl⟩ rfl
  · refine iff_of_false ?_ (List.cons_ne_nil _ _)
    rintro ⟨rest', h⟩
    simp [crlf] at h
  · rw [splitLines]
    split_ifs with h
    · obtain ⟨rfl, rfl⟩ := h
      exact iff_of_true ⟨text ++ crlf ++ rest, rfl⟩ rfl
    · refine iff_of_false ?_ ?_
      · rintro ⟨rest', h'⟩
        simp only [crlf, List.cons_append, List.nil_append, List.cons.injEq] at h'
        exact h ⟨h'.1.symm, h'.2.1.symm⟩
      · rcases splitLines (c :: text) with _ | ⟨line, lines⟩ <;> exact List.cons_ne_nil _ _

/-- A CR LF that is followed by another one ends the head. -/
theorem splitHead_crlf_of_prefix {text : List UInt8} (h : crlf <+: text) :
    ∃ rest, splitHead (crlf ++ text) = some (crlf ++ crlf, rest) := by
  obtain ⟨rest, rfl⟩ := h
  exact ⟨rest, if_pos ⟨rest, rfl⟩⟩

/-- A CR LF that is not followed by another one belongs to the head. -/
theorem splitHead_crlf_of_not_prefix {text : List UInt8} (h : ¬ crlf <+: text) :
    splitHead (crlf ++ text) = ((splitHead text).map fun split => (10 :: split.1, split.2)).map
      fun split => (13 :: split.1, split.2) := by
  have hsecond : splitHead (10 :: text) =
      (splitHead text).map fun split => (10 :: split.1, split.2) := by
    rw [splitHead, if_neg]
    rintro ⟨rest, hrest⟩
    simp [crlf] at hrest
  have hblank : ¬ crlf ++ crlf <+: 13 :: 10 :: text := by
    rintro ⟨rest, hrest⟩
    refine h ⟨rest, ?_⟩
    simpa [crlf] using hrest
  rw [← hsecond]
  exact if_neg hblank

theorem mem_splitLines_iff (text line : List UInt8) : line ∈ splitLines text ↔
    line = (splitLines text).headD [] ∨ line ∈ (splitLines text).tail := by
  rcases hlines : splitLines text with _ | ⟨first, lines⟩
  · exact absurd hlines (splitLines_ne_nil text)
  · exact List.mem_cons

/-- A head is read back whole if and only if none of its lines but the first is empty. The induction
is on the lines of the text. -/
theorem splitHead_eq_iff (text rest : List UInt8) :
    splitHead (text ++ crlf ++ (crlf ++ rest)) = some (text ++ crlf ++ crlf, rest) ↔
      ∀ line ∈ (splitLines text).tail, line ≠ [] := by
  fun_induction splitLines text with
  | case1 => exact iff_of_true rfl fun line h => absurd h List.not_mem_nil
  | case2 b =>
    refine iff_of_true ?_ fun line h => absurd h List.not_mem_nil
    have hb : ¬ (b = 13 ∧ (13 : UInt8) = 10) := by simp
    exact (splitHead_cons_of_ne hb).trans rfl
  | case3 b c text h ih =>
    obtain ⟨rfl, rfl⟩ := h
    have hfirst := crlf_prefix_iff text (crlf ++ rest)
    simp only [List.tail_cons, mem_splitLines_iff, forall_eq_or_imp, ← ih]
    by_cases hempty : (splitLines text).headD [] = []
    · -- the empty line ends the head early
      refine iff_of_false (fun heq => ?_) fun hne => hne.1 hempty
      obtain ⟨rest', hsplit⟩ := splitHead_crlf_of_prefix (hfirst.mpr hempty)
      have hlength := congrArg (fun split => split.1.length)
        (Option.some.inj (hsplit.symm.trans heq))
      simp [crlf] at hlength
    · have hsplit := splitHead_crlf_of_not_prefix (mt hfirst.mp hempty)
      refine Iff.trans ?_ (and_iff_right hempty).symm
      refine Iff.trans (Eq.congr_left hsplit) ?_
      exact map_cons_eq_some_iff.trans map_cons_eq_some_iff
  | case4 b c text h ih =>
    rw [tail_consLine, ← ih]
    refine Iff.trans (Eq.congr_left (splitHead_cons_of_ne h)) ?_
    exact map_cons_eq_some_iff

end LightFS.Library

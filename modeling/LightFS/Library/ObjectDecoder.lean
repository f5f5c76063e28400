import Mathlib.Data.List.Nodup
import Mathlib.Logic.Relation

/-!
# Records decoded from objects

An object is a list of named values. A table of decoders says which members it may have, how the
value of each goes into a record, and which members may be missing (`MemberDecoder`).

A table *fills* a record if the record comes about by decoders of the table, one after the other
(`Fills`). What every decoder keeps holds of such a record (`Fills.invariant`), whoever calls the
decoders. `decodeObject` is a function that calls them: it goes through the members of an object and
fails for a name that is not in the table, for a name that occurs twice, for a value that its
decoder refuses, and for a required member that is missing. It fills its record
(`fills_of_decodeObject`), and it decodes an object with all the members of the table, in its order,
by all the decoders (`decodeObject_spelled`).

## Main definitions

* `MemberDecoder`, `MemberDecoder.field`, `Fills`.
* `decodeObject`, `findMember`.

## Main results

* `Fills.invariant`, `field_keeps`.
* `fills_of_decodeObject`, `decodeObject_spelled`.
-/

namespace LightFS.Library

variable {κ V σ α : Type}

/-- A member that an object may have: its name, how its value goes into the record, and whether it
may be missing. -/
structure MemberDecoder (κ V σ : Type) where
  name : κ
  decode : V → σ → Option σ
  optional : Bool

/-- A member whose value is decoded and put into a field. -/
def MemberDecoder.field (name : κ) (decode : V → Option α) (set : α → σ → σ) (optional : Bool) :
    MemberDecoder κ V σ where
  name := name
  decode v s := (decode v).map (set · s)
  optional := optional

/-! ### Records that a table fills -/

/-- The second record comes from the first one by decoders of the table. -/
def Fills (decoders : List (MemberDecoder κ V σ)) : σ → σ → Prop :=
  Relation.ReflTransGen fun s s' => ∃ d ∈ decoders, ∃ v, d.decode v s = some s'

/-- What every decoder keeps holds of the record. -/
theorem Fills.invariant {decoders : List (MemberDecoder κ V σ)} {P : σ → Prop} {s s' : σ}
    (h : Fills decoders s s')
    (hP : ∀ d ∈ decoders, ∀ v s s', P s → d.decode v s = some s' → P s') (hs : P s) : P s' := by
  induction h with
  | refl => exact hs
  | tail _ hstep ih =>
    obtain ⟨d, hd, v, hdecode⟩ := hstep
    exact hP d hd v _ _ ih hdecode

/-- A decoder that sets a field keeps what holds whatever value the field is given. -/
theorem field_keeps {name : κ} {decode : V → Option α} {set : α → σ → σ} {optional : Bool}
    {P : σ → Prop} (hset : ∀ v x s, decode v = some x → P s → P (set x s)) (v : V) (s s' : σ)
    (hs : P s) (hdecode : (MemberDecoder.field name decode set optional).decode v s = some s') :
    P s' := by
  obtain ⟨x, hx, rfl⟩ := Option.map_eq_some_iff.mp hdecode
  exact hset v x s hx hs

/-! ### Objects -/

variable [DecidableEq κ]

/-- The loop over the members, with the names that were seen. -/
def decodeMembers (decoders : List (MemberDecoder κ V σ)) :
    List (κ × V) → List κ → σ → Option (σ × List κ)
  | [], seen, s => some (s, seen)
  | (name, v) :: members, seen, s =>
    match decoders.find? (·.name = name) with
    | none => none
    | some d =>
      if name ∈ seen then none
      else (d.decode v s).bind (decodeMembers decoders members (name :: seen))

/-- Decode an object into a record. -/
def decodeObject (decoders : List (MemberDecoder κ V σ)) (members : List (κ × V)) (s : σ) :
    Option σ :=
  (decodeMembers decoders members [] s).bind fun (s, seen) =>
    if ∀ d ∈ decoders, d.optional ∨ d.name ∈ seen then some s else none

/-- The only member of a name, if the view sees it. -/
def findMember (view : V → Option α) (name : κ) (members : List (κ × V)) : Option α :=
  match members.filter (·.1 = name) with
  | [(_, v)] => view v
  | _ => none

/-! ### Names and values -/

variable {decoders : List (MemberDecoder κ V σ)} {members : List (κ × V)}

/-- What one member does to the record. -/
def decodeMember? (decoders : List (MemberDecoder κ V σ)) (s : Option σ) (member : κ × V) :
    Option σ :=
  s.bind fun s => (decoders.find? (·.name = member.1)).bind fun d => d.decode member.2 s

theorem foldl_decodeMember?_none (decoders : List (MemberDecoder κ V σ)) (members : List (κ × V)) :
    members.foldl (decodeMember? decoders) none = none := by
  induction members with
  | nil => rfl
  | cons member members ih => exact ih

theorem decodeMembers_eq (decoders : List (MemberDecoder κ V σ)) (members : List (κ × V))
    (seen : List κ) (s : σ) : decodeMembers decoders members seen s =
      if (members.map Prod.fst).Nodup ∧ ∀ member ∈ members, member.1 ∉ seen then
        (members.foldl (decodeMember? decoders) (some s)).map
          (·, (members.map Prod.fst).reverse ++ seen)
      else none := by
  induction members generalizing seen s with
  | nil => simp [decodeMembers]
  | cons member members ih =>
    obtain ⟨name, v⟩ := member
    rw [decodeMembers, List.foldl_cons]
    cases hfind : decoders.find? (·.name = name) with
    | none => simp [decodeMember?, hfind, foldl_decodeMember?_none]
    | some d =>
      dsimp only
      by_cases hseen : name ∈ seen
      · simp [hseen]
      rw [if_neg hseen]
      have hstep : decodeMember? decoders (some s) (name, v) = d.decode v s := by
        rw [decodeMember?, Option.bind_some, hfind, Option.bind_some]
      rw [hstep]
      cases hdecode : d.decode v s with
      | none => simp [foldl_decodeMember?_none]
      | some s' =>
        rw [Option.bind_some, ih]
        have hnames : ((members.map Prod.fst).Nodup ∧ ∀ member ∈ members, member.1 ∉ name :: seen) ↔
            (((name, v) :: members).map Prod.fst).Nodup ∧
              ∀ member ∈ (name, v) :: members, member.1 ∉ seen := by
          rw [List.map_cons, List.nodup_cons, List.forall_mem_cons]
          simp only [List.mem_cons, not_or, List.mem_map, not_exists, not_and]
          constructor
          · rintro ⟨hnodup, hne⟩
            exact ⟨⟨fun m hm heq => (hne m hm).1 heq, hnodup⟩, hseen, fun m hm => (hne m hm).2⟩
          · rintro ⟨⟨hne, hnodup⟩, -, hnot⟩
            exact ⟨hnodup, fun m hm => ⟨hne m hm, hnot m hm⟩⟩
        simp only [hnames]
        split_ifs
        · simp
        · rfl

/-- The names are different, and those of the required members are among them. -/
def NamesOk (decoders : List (MemberDecoder κ V σ)) (names : List κ) : Prop :=
  names.Nodup ∧ ∀ d ∈ decoders, d.optional ∨ d.name ∈ names

instance (decoders : List (MemberDecoder κ V σ)) (names : List κ) :
    Decidable (NamesOk decoders names) :=
  inferInstanceAs (Decidable (_ ∧ _))

/-- **A condition on the names and a loop over the values.** -/
theorem decodeObject_eq (decoders : List (MemberDecoder κ V σ)) (members : List (κ × V)) (s : σ) :
    decodeObject decoders members s = if NamesOk decoders (members.map Prod.fst) then
      members.foldl (decodeMember? decoders) (some s) else none := by
  rw [decodeObject, decodeMembers_eq]
  by_cases hnodup : (members.map Prod.fst).Nodup
  · rw [if_pos ⟨hnodup, fun _ _ => List.not_mem_nil⟩]
    cases hfold : members.foldl (decodeMember? decoders) (some s) with
    | none => simp
    | some s' => simp only [NamesOk, hnodup, true_and, Option.map_some, Option.bind_some,
        List.append_nil, List.mem_reverse]
  · rw [if_neg fun h => hnodup h.1, if_neg fun h => hnodup h.1]
    rfl

/-! ### Records -/

/-- **An object fills its record** by decoders of the table. -/
theorem fills_of_decodeObject {s s' : σ} (hok : decodeObject decoders members s = some s') :
    Fills decoders s s' := by
  rw [decodeObject_eq] at hok
  split_ifs at hok
  clear * - hok
  induction members generalizing s with
  | nil =>
    obtain rfl : s = s' := Option.some.inj hok
    exact .refl
  | cons member members ih =>
    rw [List.foldl_cons] at hok
    cases hstep : decodeMember? decoders (some s) member with
    | none =>
      rw [hstep, foldl_decodeMember?_none] at hok
      cases hok
    | some s₁ =>
      rw [hstep] at hok
      rw [decodeMember?, Option.bind_some] at hstep
      obtain ⟨d, hd, hdecode⟩ := Option.bind_eq_some_iff.mp hstep
      exact .head ⟨d, List.mem_of_find?_eq_some hd, member.2, hdecode⟩ (ih hok)

/-- A decoder of a table is found by its name. -/
theorem find?_name (hnodup : (decoders.map MemberDecoder.name).Nodup) {d : MemberDecoder κ V σ}
    (hd : d ∈ decoders) : decoders.find? (·.name = d.name) = some d := by
  cases hfind : decoders.find? (·.name = d.name) with
  | none => exact absurd (decide_eq_true rfl) (List.find?_eq_none.mp hfind d hd)
  | some d' =>
    have hname : d'.name = d.name := by simpa using List.find?_some hfind
    rw [List.inj_on_of_nodup_map hnodup (List.mem_of_find?_eq_some hfind) hd hname]

/-- **An object with all the members** of the table, in its order, is decoded by all the
decoders. -/
theorem decodeObject_spelled (hnodup : (decoders.map MemberDecoder.name).Nodup)
    (hmembers : members.map Prod.fst = decoders.map MemberDecoder.name) (s : σ) :
    decodeObject decoders members s =
      (decoders.zip (members.map Prod.snd)).foldl (fun s dv => s.bind (dv.1.decode dv.2))
        (some s) := by
  have hfold : ∀ (ds : List (MemberDecoder κ V σ)) (members : List (κ × V)) (s : Option σ),
      (∀ d ∈ ds, d ∈ decoders) → members.map Prod.fst = ds.map MemberDecoder.name →
      members.foldl (decodeMember? decoders) s =
        (ds.zip (members.map Prod.snd)).foldl (fun s dv => s.bind (dv.1.decode dv.2)) s := by
    intro ds members s hds hnames
    induction ds generalizing members s with
    | nil => rw [List.map_eq_nil_iff.mp hnames]; rfl
    | cons d ds ih =>
      obtain ⟨member, members, rfl, hname, hnames⟩ := List.map_eq_cons_iff.mp hnames
      obtain ⟨hd, hds⟩ := List.forall_mem_cons.mp hds
      have hstep : decodeMember? decoders s member = s.bind (d.decode member.2) := by
        rw [decodeMember?, hname, find?_name hnodup hd]
        rfl
      rw [List.foldl_cons, hstep, ih members _ hds hnames]
      rfl
  have hok : NamesOk decoders (members.map Prod.fst) := by
    rw [hmembers]
    exact ⟨hnodup, fun d hd => .inr (List.mem_map_of_mem hd)⟩
  rw [decodeObject_eq, if_pos hok, hfold decoders members _ (fun _ hd => hd) hmembers]

end LightFS.Library

import LightFS.Library.FormattedText
import LightFS.Library.ObjectDecoder

/-!
# Values of the configuration file

The configuration (`src/engine/src/config.c`) is a JSON text that SPDK parses. The code reads its
values through functions of SPDK, which are outside this repository: they are parameters of the
model (`SpdkJson`), and a configuration file is the root of the values that were parsed, together
with these functions (`ConfigFile`). Nothing is assumed of them, but for one fact where a result
needs it: `spdk_json_decode_object` changes a record only by the decoders of its table
(`SpdkJson.FillsRecords`).

For files that are written out there is an implementation on trees (`treeJson`). It has the fact
(`fillsRecords_treeJson`), and what it makes of integers and of objects whose members stand in the
order of the table is stated in the rest of the module.

## Main definitions

* `JsonType`, `SpdkJson`, `ConfigFile`, `SpdkJson.FillsRecords`.
* `JsonTree`, `treeJson`, `treeFile`.

## Main results

* `fillsRecords_treeJson`, `decodeObject_treeJson`.
-/

namespace LightFS.Engine

open Library

/-! ### The functions of SPDK -/

/-- The types of a value that the code asks for. -/
inductive JsonType where
  | string
  | number
  | true
  | false
  | objectBegin
  | other
  deriving DecidableEq

/-- A table of decoders, for pointers `V` to values. -/
abbrev Decoders (V σ : Type) := List (MemberDecoder (List UInt8) V σ)

/-- What the code uses of SPDK: the fields of a value and the functions on values, for pointers `V`.
A result `none` is a status other than `0`. -/
structure SpdkJson (V : Type) where
  /-- `val->type`. -/
  type : V → JsonType
  /-- The `val->len` bytes from `val->start` on. -/
  text : V → List UInt8
  /-- `spdk_json_find`, with the value it gives. -/
  find : V → List UInt8 → JsonType → Option V
  /-- `spdk_json_decode_object`. -/
  decodeObject : {σ : Type} → V → Decoders V σ → σ → Option σ
  /-- `spdk_json_decode_int32`. -/
  decodeInt32 : V → Option Int32
  /-- `spdk_json_decode_uint32`. -/
  decodeUint32 : V → Option UInt32
  /-- `spdk_json_decode_uint64`. -/
  decodeUint64 : V → Option UInt64
  /-- `spdk_json_val_len`. -/
  valLen : V → ℕ
  /-- `spdk_json_array_first`. -/
  arrayFirst : V → V
  /-- `spdk_json_next`. -/
  next : V → V

/-- A configuration file that was parsed: the functions that read its values, and its root. -/
structure ConfigFile where
  V : Type
  spdk : SpdkJson V
  root : V

/-- `spdk_json_decode_object` changes a record by decoders of its table only. -/
def SpdkJson.FillsRecords {V : Type} (spdk : SpdkJson V) : Prop :=
  ∀ {σ : Type} (v : V) (decoders : Decoders V σ) (s s' : σ),
    spdk.decodeObject v decoders s = some s' → Fills decoders s s'

/-! ### Trees -/

/-- A value as a tree. An integer has its digits as its text. -/
inductive JsonTree where
  | string (bytes : List UInt8)
  | int (n : ℤ)
  | number (text : List UInt8)
  | bool (b : Bool)
  | array (elements : List JsonTree)
  | object (members : List (List UInt8 × JsonTree))

namespace JsonTree

def type : JsonTree → JsonType
  | string _ => .string
  | int _ => .number
  | number _ => .number
  | bool true => .true
  | bool false => .false
  | array _ => .other
  | object _ => .objectBegin

def text : JsonTree → List UInt8
  | string bytes => bytes
  | int n => signedDecimal n
  | number text => text
  | _ => []

/-- An integer in a range. -/
def inRange (min max : ℤ) : JsonTree → Option ℤ
  | int n => if min ≤ n ∧ n < max then some n else none
  | _ => none

def elements : JsonTree → List JsonTree
  | array elements => elements
  | _ => []

/-- The members of an object, each with a pointer to its value. -/
def members : JsonTree → Option (List (List UInt8 × List JsonTree))
  | object members => some (members.map fun member => (member.1, [member.2]))
  | _ => none

end JsonTree

/-- An implementation of the functions of SPDK on trees. A pointer is the list of the values from
the one it points to on. -/
def treeJson : SpdkJson (List JsonTree) where
  type v := (v.head?.map JsonTree.type).getD .other
  text v := (v.head?.map JsonTree.text).getD []
  find v name type := do
    let members ← (← v.head?).members
    findMember (fun v => if (v.head?.map JsonTree.type) = some type then some v else none)
      name members
  decodeObject v decoders s := do
    let members ← (← v.head?).members
    Library.decodeObject decoders members s
  decodeInt32 v := (v.head?.bind (JsonTree.inRange (-2 ^ 31) (2 ^ 31))).map Int32.ofInt
  decodeUint32 v := (v.head?.bind (JsonTree.inRange 0 (2 ^ 32))).map fun n => UInt32.ofNat n.toNat
  decodeUint64 v := (v.head?.bind (JsonTree.inRange 0 (2 ^ 64))).map fun n => UInt64.ofNat n.toNat
  valLen v := ((v.head?.map JsonTree.elements).getD []).length + 2
  arrayFirst v := (v.head?.map JsonTree.elements).getD []
  next v := v.tail

/-- The file with these members. -/
def treeFile (members : List (List UInt8 × JsonTree)) : ConfigFile :=
  ⟨List JsonTree, treeJson, [.object members]⟩

theorem fillsRecords_treeJson : treeJson.FillsRecords := by
  intro σ v decoders s s' hok
  obtain ⟨members, -, hdecode⟩ := Option.bind_eq_some_iff.mp hok
  obtain ⟨members, -, hdecode⟩ := Option.bind_eq_some_iff.mp hdecode
  exact fills_of_decodeObject hdecode

section Spelled

variable {n : ℤ} {rest : List JsonTree}

theorem inRange_int {min max : ℤ} (h : min ≤ n ∧ n < max) :
    JsonTree.inRange min max (.int n) = some n :=
  if_pos h

theorem decodeInt32_int (h : -2 ^ 31 ≤ n ∧ n < 2 ^ 31) :
    (treeJson.decodeInt32 (.int n :: rest)).map Int32.toInt = some n := by
  have hdecode : treeJson.decodeInt32 (.int n :: rest) =
      (JsonTree.inRange (-2 ^ 31) (2 ^ 31) (.int n)).map Int32.ofInt := rfl
  rw [hdecode, inRange_int h, Option.map_some, Option.map_some,
    Int32.toInt_ofInt_of_le h.1 h.2]

theorem decodeUint32_int (h : 0 ≤ n ∧ n < 2 ^ 32) :
    (treeJson.decodeUint32 (.int n :: rest)).map UInt32.toNat = some n.toNat := by
  have hdecode : treeJson.decodeUint32 (.int n :: rest) =
      (JsonTree.inRange 0 (2 ^ 32) (.int n)).map fun n => UInt32.ofNat n.toNat := rfl
  have hsize : n.toNat < UInt32.size := by
    rw [UInt32.size]
    omega
  rw [hdecode, inRange_int h, Option.map_some, Option.map_some, UInt32.toNat_ofNat_of_lt' hsize]

theorem decodeUint64_int (h : 0 ≤ n ∧ n < 2 ^ 64) :
    (treeJson.decodeUint64 (.int n :: rest)).map UInt64.toNat = some n.toNat := by
  have hdecode : treeJson.decodeUint64 (.int n :: rest) =
      (JsonTree.inRange 0 (2 ^ 64) (.int n)).map fun n => UInt64.ofNat n.toNat := rfl
  have hsize : n.toNat < UInt64.size := by
    rw [UInt64.size]
    omega
  rw [hdecode, inRange_int h, Option.map_some, Option.map_some, UInt64.toNat_ofNat_of_lt' hsize]

/-- **An object with all the members** of a table, in its order, is decoded by all the decoders. -/
theorem decodeObject_treeJson {σ : Type} {decoders : Decoders (List JsonTree) σ}
    {members : List (List UInt8 × JsonTree)}
    (hnodup : (decoders.map MemberDecoder.name).Nodup)
    (hmembers : members.map Prod.fst = decoders.map MemberDecoder.name) (s : σ) :
    treeJson.decodeObject [.object members] decoders s =
      (decoders.zip (members.map fun member => [member.2])).foldl
        (fun s dv => s.bind (dv.1.decode dv.2)) (some s) := by
  have hnames : (members.map fun member => (member.1, [member.2])).map Prod.fst =
      decoders.map MemberDecoder.name := by
    rw [List.map_map]
    exact hmembers
  have hvalues : (members.map fun member => (member.1, [member.2])).map Prod.snd =
      members.map fun member => [member.2] := List.map_map
  change Library.decodeObject decoders (members.map fun member => (member.1, [member.2])) s = _
  rw [decodeObject_spelled hnodup hnames, hvalues]

end Spelled

end LightFS.Engine

import LightFS.Access.HttpResponse
import LightFS.Library.Bracketed

/-!
# XML documents

The documents of `src/access/s3_xml.c`, for every size of the buffer. The list of a bucket is put
together by any number of `snprintf` calls behind a cursor: it is written whole or the function
fails, and no byte is written behind the buffer (`list_document_exact`). The document of an error is
written by one `snprintf` whose result is returned as it is, so that a document that does not fit is
reported with the length it would have (`error_length_stored_iff`).

Keys are written as they are. Two keys in a list are written like one key that contains the markup
between them, and a list is told from all others only if it has at most one key without that markup
(`list_unambiguous_iff`); lists of keys without the markup are told apart from each other
(`listObjectsDocument_inj`).

## Main definitions

* `listObjectsDocument`, `Serialized`, `keySeparator`.

## Main results

* `list_document_exact`, `list_unambiguous_iff`, `listObjectsDocument_inj`.
* `error_length_stored_iff`.
-/

namespace LightFS.Access

open Library

/-! ### The cursor -/

section Cursor

variable {size : ℕ}

theorem foldl_xmlPut_none (buf : Buffer) (pieces : List (List UInt8)) :
    pieces.foldl (xmlPut size) (buf, none) = (buf, none) := by
  induction pieces with
  | nil => rfl
  | cons piece pieces ih => exact ih

/-- The pieces do not fit exactly when the text is too long in all. -/
theorem foldl_xmlPut_eq_none_iff (buf : Buffer) {pos : ℕ} (hpos : pos < size)
    (pieces : List (List UInt8)) :
    (pieces.foldl (xmlPut size) (buf, some pos)).2 = none ↔
      size ≤ pos + pieces.flatten.length := by
  induction pieces generalizing buf pos with
  | nil =>
    rw [List.foldl_nil, List.flatten_nil, List.length_nil]
    exact iff_of_false nofun (by omega)
  | cons piece pieces ih =>
    rw [List.foldl_cons, xmlPut, List.flatten_cons, List.length_append]
    split_ifs with hlong
    · rw [foldl_xmlPut_none]
      exact iff_of_true rfl (by omega)
    · rw [ih _ (by omega), Nat.add_assoc]

/-- Nothing is written behind the buffer. -/
theorem foldl_xmlPut_apply (buf : Buffer) {pos : ℕ} (hpos : pos ≤ size)
    (pieces : List (List UInt8)) {i : ℕ} (hi : size ≤ i) :
    (pieces.foldl (xmlPut size) (buf, some pos)).1 i = buf i := by
  induction pieces generalizing buf pos with
  | nil => rfl
  | cons piece pieces ih =>
    have hput : buf.snprintf pos (size - pos) piece i = buf i :=
      buf.snprintf_apply_of_le piece (by omega)
    rw [List.foldl_cons, xmlPut]
    split_ifs with hlong
    · rw [foldl_xmlPut_none]
      exact hput
    · rw [ih _ (by omega), hput]

end Cursor

/-! ### The list of a bucket -/

section List

variable (bucket keyPrefix marker : CString) (maxKeys : ℤ) (keys : List CString)
  (isTruncated : Bool)

/-- The document for the list of a bucket. -/
def listObjectsDocument : List UInt8 :=
  listHead bucket keyPrefix marker maxKeys ++ listTruncated marker isTruncated ++
    keys.flatMap listContents ++ literal "</ListBucketResult>\n"

theorem flatten_listPieces :
    (listPieces bucket keyPrefix marker maxKeys keys isTruncated).flatten =
      listObjectsDocument bucket keyPrefix marker maxKeys keys isTruncated := by
  rw [listPieces, List.flatten_cons, List.flatten_cons, List.flatten_append, List.flatten_singleton,
    listObjectsDocument, List.flatMap_def]
  simp only [List.append_assoc]

/-- The serializer fails exactly when the document and its NUL do not fit. -/
theorem s3XmlSerializeListObjects_eq_none_iff (buf : Buffer) (size : ℕ) :
    (s3XmlSerializeListObjects buf size bucket keyPrefix marker maxKeys keys isTruncated).2 =
        none ↔
      size ≤ (listObjectsDocument bucket keyPrefix marker maxKeys keys isTruncated).length := by
  rw [s3XmlSerializeListObjects]
  split_ifs with hsize
  · exact iff_of_true rfl (by omega)
  · rw [foldl_xmlPut_eq_none_iff buf (by omega), flatten_listPieces, Nat.zero_add]

/-- A document that fits is written whole. -/
theorem s3XmlSerializeListObjects_of_fits (buf : Buffer) {size : ℕ}
    (h : (listObjectsDocument bucket keyPrefix marker maxKeys keys isTruncated).length < size) :
    let document := listObjectsDocument bucket keyPrefix marker maxKeys keys isTruncated
    let result :=
      s3XmlSerializeListObjects buf size bucket keyPrefix marker maxKeys keys isTruncated
    result.2 = some document.length ∧ result.1 = buf.store 0 (document ++ [0]) := by
  dsimp only
  rw [← flatten_listPieces] at h ⊢
  rw [s3XmlSerializeListObjects_of_lt buf h]
  simp only [and_self]

/-- **The list of a bucket is exact.** For every size of the buffer and all arguments,
`s3_xml_serialize_list_objects` fails if and only if the document and its NUL do not fit; otherwise
it returns the length of the document, and the buffer holds the document and a NUL. Nothing is
written behind the buffer. -/
theorem list_document_exact (buf : Buffer) (size : ℕ) :
    let document := listObjectsDocument bucket keyPrefix marker maxKeys keys isTruncated
    let result :=
      s3XmlSerializeListObjects buf size bucket keyPrefix marker maxKeys keys isTruncated
    (result.2 = none ↔ size ≤ document.length) ∧
    (document.length < size →
      result.2 = some document.length ∧ result.1 = buf.store 0 (document ++ [0])) ∧
    ∀ i, size ≤ i → result.1 i = buf i := by
  intro document result
  refine ⟨s3XmlSerializeListObjects_eq_none_iff .., fun hfits => ?_, fun i hi => ?_⟩
  · exact s3XmlSerializeListObjects_of_fits _ _ _ _ _ _ buf hfits
  · dsimp only [result]
    rw [s3XmlSerializeListObjects]
    split_ifs
    · rfl
    · exact foldl_xmlPut_apply buf (Nat.zero_le _) _ hi

/-- The result of a serializer is a document that the buffer holds. -/
def Serialized (result : Buffer × Option ℕ) (document : List UInt8) : Prop :=
  result.2 = some document.length ∧ ∀ i (h : i < document.length), result.1 i = document[i]

/-- What `s3_xml_serialize_list_objects` produces is the document, if it fits. -/
theorem serialized_listObjects_iff (buf : Buffer) (size : ℕ) (document : List UInt8) :
    Serialized (s3XmlSerializeListObjects buf size bucket keyPrefix marker maxKeys keys isTruncated)
      document ↔
    document = listObjectsDocument bucket keyPrefix marker maxKeys keys isTruncated ∧
      document.length < size := by
  constructor
  · rintro ⟨hresult, hbytes⟩
    have hlt := Nat.lt_of_not_le (mt (s3XmlSerializeListObjects_eq_none_iff ..).mpr
      (hresult ▸ Option.some_ne_none _))
    obtain ⟨hlength, hbuffer⟩ := s3XmlSerializeListObjects_of_fits _ _ _ _ _ _ buf hlt
    have hlengths := Option.some.inj (hresult.symm.trans hlength)
    refine ⟨List.ext_getElem hlengths fun i hi hi' => ?_, hlengths.trans_lt hlt⟩
    rw [← hbytes i hi, hbuffer, Buffer.store_text_apply buf _ hi']
  · rintro ⟨hdocument, hlt⟩
    rw [hdocument] at hlt ⊢
    obtain ⟨hlength, hbuffer⟩ := s3XmlSerializeListObjects_of_fits _ _ _ _ _ _ buf hlt
    exact ⟨hlength, fun i hi => by rw [hbuffer, Buffer.store_text_apply buf _ hi]⟩

end List

/-! ### Keys in a list -/

/-- The markup between two keys. -/
def keySeparator : List UInt8 := literal "</Key></Contents>" ++ literal "<Contents><Key>"

/-- The keys of a list, in their markup. -/
theorem flatMap_listContents (keys : List CString) :
    keys.flatMap listContents = bracketed (literal "<Contents><Key>") (literal "</Key></Contents>")
      (keys.map CString.bytes) := by
  rw [bracketed, List.flatMap_map]
  rfl

theorem map_bytes_injective : Function.Injective (List.map CString.bytes) :=
  List.map_injective_iff.mpr fun _ _ => CString.ext

theorem keyMarkup_ne_nil : literal "<Contents><Key>" ++ literal "</Key></Contents>" ≠ [] := by
  decide

section Keys

variable {bucket keyPrefix marker : CString} {maxKeys : ℤ} {isTruncated : Bool}
  {keys keys' : List CString}

/-- Two documents are the same exactly when the keys are the same in their markup. -/
theorem listObjectsDocument_eq_iff :
    listObjectsDocument bucket keyPrefix marker maxKeys keys isTruncated =
      listObjectsDocument bucket keyPrefix marker maxKeys keys' isTruncated ↔
    bracketed (literal "<Contents><Key>") (literal "</Key></Contents>") (keys.map CString.bytes) =
      bracketed (literal "<Contents><Key>") (literal "</Key></Contents>")
        (keys'.map CString.bytes) := by
  rw [listObjectsDocument, listObjectsDocument, List.append_left_inj, List.append_right_inj,
    flatMap_listContents, flatMap_listContents]

/-- Lists of keys without the markup between keys are told apart by their documents. -/
theorem listObjectsDocument_inj (hkeys : ∀ key ∈ keys, ¬ keySeparator <:+: key.bytes)
    (hkeys' : ∀ key ∈ keys', ¬ keySeparator <:+: key.bytes)
    (h : listObjectsDocument bucket keyPrefix marker maxKeys keys isTruncated =
      listObjectsDocument bucket keyPrefix marker maxKeys keys' isTruncated) : keys = keys' := by
  refine map_bytes_injective (bracketed_inj keyMarkup_ne_nil (by decide) ?_ ?_
    (listObjectsDocument_eq_iff.mp h))
  · exact List.forall_mem_map.mpr hkeys
  · exact List.forall_mem_map.mpr hkeys'

/-- The key that is written like two keys. -/
def joinKeys (a b : CString) : CString where
  bytes := a.bytes ++ keySeparator ++ b.bytes
  nul_free h := by
    rw [List.mem_append, List.mem_append] at h
    rcases h with (h | h) | h
    · exact a.nul_free h
    · exact absurd h (by decide)
    · exact b.nul_free h

theorem listObjectsDocument_joinKeys (a b : CString) (keys : List CString) :
    listObjectsDocument bucket keyPrefix marker maxKeys (joinKeys a b :: keys) isTruncated =
      listObjectsDocument bucket keyPrefix marker maxKeys (a :: b :: keys) isTruncated :=
  listObjectsDocument_eq_iff.mpr (bracketed_join a.bytes b.bytes (keys.map CString.bytes))

/-- A key that contains the markup is written like two keys. -/
theorem exists_joinKeys {key : CString} (h : keySeparator <:+: key.bytes) :
    ∃ a b, joinKeys a b = key := by
  obtain ⟨x, y, hxy⟩ := h
  have hx : 0 ∉ x := fun hzero => key.nul_free (by simp [← hxy, hzero])
  have hy : 0 ∉ y := fun hzero => key.nul_free (by simp [← hxy, hzero])
  exact ⟨⟨x, hx⟩, ⟨y, hy⟩, CString.ext hxy⟩

/-- Which lists are the only ones with their document. -/
theorem listObjectsDocument_unique_iff :
    (∀ keys', listObjectsDocument bucket keyPrefix marker maxKeys keys isTruncated =
      listObjectsDocument bucket keyPrefix marker maxKeys keys' isTruncated → keys' = keys) ↔
    keys.length ≤ 1 ∧ ∀ key ∈ keys, ¬ keySeparator <:+: key.bytes := by
  rcases keys with _ | ⟨a, _ | ⟨b, rest⟩⟩
  · refine iff_of_true (fun keys' h => ?_) ⟨Nat.zero_le 1, List.forall_mem_nil _⟩
    exact List.map_eq_nil_iff.mp
      (bracketed_eq_nil keyMarkup_ne_nil (listObjectsDocument_eq_iff.mp h).symm)
  · rw [List.forall_mem_singleton, List.length_singleton, and_iff_right le_rfl]
    constructor
    · intro hunique hfound
      obtain ⟨x, y, rfl⟩ := exists_joinKeys hfound
      have hlength := congrArg List.length (hunique [x, y] (listObjectsDocument_joinKeys x y []))
      simp at hlength
    · intro hfound keys' h
      exact map_bytes_injective (eq_singleton_of_bracketed_eq keyMarkup_ne_nil hfound
        (listObjectsDocument_eq_iff.mp h).symm)
  · refine iff_of_false (fun hunique => ?_) fun h => absurd h.1 (by simp)
    have hlength := congrArg List.length
      (hunique (joinKeys a b :: rest) (listObjectsDocument_joinKeys a b rest).symm)
    simp at hlength

/-- **Which lists are unambiguous.** A list of keys for which `s3_xml_serialize_list_objects`
succeeds is the only one with its document if and only if it has at most one key, and not one that
contains the markup between two keys. -/
theorem list_unambiguous_iff {buf : Buffer} {size : ℕ} {document : List UInt8}
    (h : Serialized (s3XmlSerializeListObjects buf size bucket keyPrefix marker maxKeys keys
      isTruncated) document) :
    (∀ keys', Serialized (s3XmlSerializeListObjects buf size bucket keyPrefix marker maxKeys keys'
      isTruncated) document → keys' = keys) ↔
    keys.length ≤ 1 ∧ ∀ key ∈ keys, ¬ keySeparator <:+: key.bytes := by
  simp only [serialized_listObjects_iff] at h ⊢
  obtain ⟨hdocument, hlt⟩ := h
  simp only [hlt, and_true]
  rw [hdocument]
  exact listObjectsDocument_unique_iff

end Keys

/-- The document for keys of a bucket `b`. -/
def keysDocument (keys : List CString) : List UInt8 :=
  listObjectsDocument (.ofString "b") (.ofString "") (.ofString "") 1000 keys false

/-- The keys of a bucket `b`, written to a buffer of some size. -/
def serializeKeys (size : ℕ) (keys : List CString) : Buffer × Option ℕ :=
  s3XmlSerializeListObjects (fun _ => 0) size (.ofString "b") (.ofString "") (.ofString "") 1000
    keys false

theorem serialized_serializeKeys {keys keys' : List CString}
    (h : keysDocument keys' = keysDocument keys) :
    Serialized (serializeKeys ((keysDocument keys).length + 1) keys') (keysDocument keys) :=
  (serialized_listObjects_iff ..).mpr ⟨h.symm, Nat.lt_add_one _⟩

/-- A list of one key. -/
theorem list_unambiguous_iff_one_key :
    Serialized (serializeKeys ((keysDocument [.ofString "a"]).length + 1) [.ofString "a"])
      (keysDocument [.ofString "a"]) ∧
    ∀ keys', Serialized (serializeKeys ((keysDocument [.ofString "a"]).length + 1) keys')
      (keysDocument [.ofString "a"]) → keys' = [.ofString "a"] := by
  have hserialized := serialized_serializeKeys (Eq.refl (keysDocument [.ofString "a"]))
  exact ⟨hserialized, (list_unambiguous_iff hserialized).mpr (by decide)⟩

/-- Two keys, and one key that contains the markup between them, have the same document. -/
theorem list_ambiguous :
    let keys : List CString := [.ofString "a", .ofString "b"]
    let keys' : List CString := [.ofString "a</Key></Contents><Contents><Key>b"]
    keys ≠ keys' ∧
      Serialized (serializeKeys ((keysDocument keys).length + 1) keys) (keysDocument keys) ∧
      Serialized (serializeKeys ((keysDocument keys).length + 1) keys') (keysDocument keys) := by
  intro keys keys'
  have hkeys' : keys' = [joinKeys (.ofString "a") (.ofString "b")] := by decide
  refine ⟨by decide, serialized_serializeKeys rfl, serialized_serializeKeys ?_⟩
  rw [hkeys']
  exact listObjectsDocument_joinKeys (.ofString "a") (.ofString "b") []

/-! ### Errors -/

/-- What `s3_xml_serialize_error` does with a buffer. -/
theorem s3XmlSerializeError_eq (buf : Buffer) {size : ℕ} (hsize : 1 ≤ size)
    (code message : CString) :
    s3XmlSerializeError buf size code message =
      (buf.snprintf 0 size (errorDocument code message),
        snprintfResult (errorDocument code message)) :=
  if_neg (by omega)

theorem bodyLength_fillErrorResponseOf (mem : ScratchMemory) (status : UInt32)
    (code message : CString) :
    (fillErrorResponseOf mem status code message).2.bodyLength.toNat =
      if (errorDocument code message).length < 2 ^ 31 then (errorDocument code message).length
      else 0 := by
  have hpos := length_errorDocument_pos code message
  have hsize : UInt32.size = 2 ^ 32 := rfl
  rw [fillErrorResponseOf, s3XmlSerializeError_eq _ (by decide), snprintfResult]
  generalize (errorDocument code message).length = n at *
  dsimp only
  by_cases hn : n < 2 ^ 31
  · rw [if_pos hn, if_pos hn, if_pos (by omega), Int.toNat_natCast]
    exact UInt32.toNat_ofNat_of_lt' (by omega)
  · rw [if_neg hn, if_neg hn, if_neg (by omega)]
    rfl

/-- **When the length of an error document is right.** For every size of the buffer,
`s3_xml_serialize_error` returns a negative value, or the length of a document that the buffer
holds, if and only if the document and its NUL fit, or it has `2 ^ 31` bytes or more. The length of
the body that `fill_error_response` takes from the result is within its buffer if and only if the
document is, without its NUL, or is that long. -/
theorem error_length_stored_iff (buf : Buffer) {size : ℕ} (hsize : 1 ≤ size)
    (code message : CString) :
    let document := errorDocument code message
    let result := s3XmlSerializeError buf size code message
    ((result.2 < 0 ∨
        result.2 ≤ (size : ℤ) - 1 ∧ Serialized (result.1, some result.2.toNat) document) ↔
      document.length < size ∨ 2 ^ 31 ≤ document.length) ∧
    ∀ mem status,
      (fillErrorResponseOf mem status code message).2.bodyLength.toNat ≤ Scratch.errBuf.size ↔
        document.length ≤ Scratch.errBuf.size ∨ 2 ^ 31 ≤ document.length := by
  intro document result
  have hresult : result = (buf.snprintf 0 size document, snprintfResult document) :=
    s3XmlSerializeError_eq buf hsize code message
  rw [hresult]
  refine ⟨?_, fun mem status => ?_⟩
  · by_cases hlong : document.length < 2 ^ 31
    · have hreturned : snprintfResult document = document.length := if_pos hlong
      simp only [hreturned, Int.toNat_natCast]
      constructor
      · rintro (hneg | ⟨hle, -⟩)
        · omega
        · exact .inl (by omega)
      · intro hcond
        have hfits : document.length < size := hcond.resolve_right (by omega)
        rw [Buffer.snprintf_of_lt _ hfits]
        exact .inr ⟨by omega, rfl, fun i hi => Buffer.store_text_apply buf document hi⟩
    · have hreturned : snprintfResult document = -1 := if_neg hlong
      refine iff_of_true (.inl ?_) (.inr (by omega))
      rw [hreturned]
      exact neg_one_lt_zero
  · have hsize : Scratch.errBuf.size = 512 := rfl
    have hdocument : errorDocument code message = document := rfl
    rw [bodyLength_fillErrorResponseOf, hdocument]
    split_ifs <;> omega

/-- A document that fits. -/
theorem error_length_stored_iff_short :
    let result := s3XmlSerializeError (fun _ => 0) 512 (.ofString "NoSuchKey") (.ofString "")
    result.2 < 0 ∨ result.2 ≤ 511 ∧ Serialized (result.1, some result.2.toNat)
      (errorDocument (.ofString "NoSuchKey") (.ofString "")) :=
  ((error_length_stored_iff (fun _ => 0) (by decide) (.ofString "NoSuchKey") (.ofString "")).1).mpr
    (.inl (by decide))

/-- A message of 600 bytes does not fit, and the body has the length of the whole document. -/
theorem error_length_not_stored :
    let message := CString.ofMemory (List.replicate 600 97)
    (s3XmlSerializeError (fun _ => 0) 512 (.ofString "E") message).2 = 688 ∧
      (fillErrorResponseOf (fun _ _ => 0) 400 (.ofString "E") message).2.bodyLength = 688 := by
  decide +kernel

end LightFS.Access

import LightFS.Library.CString

/-!
# Object manifests

The records of the metadata service (`include/lightfs/meta/meta_types.h`, `bs_types.h`): where a
fragment of an object lies (`BlobLocation`) and the manifest of an object (`ObjectManifest`).
The pointer `fragments` is modelled by the array it points to, `none` for `NULL`; the array has
as many elements as `fragmentCount` says, which the record carries as a field.
-/

namespace LightFS.Meta

open Library

/-- `META_MAX_BUCKET_LENGTH`. -/
abbrev metaMaxBucketLength : ℕ := 255

/-- `META_MAX_KEY_LENGTH`. -/
abbrev metaMaxKeyLength : ℕ := 1024

/-- `blob_location_t`. -/
structure BlobLocation where
  segmentId : UInt64
  offset : UInt64
  size : UInt32
  checksum : UInt32
deriving DecidableEq

/-- `object_manifest_t`. -/
structure ObjectManifest where
  bucket : CharArray metaMaxBucketLength
  key : CharArray metaMaxKeyLength
  size : UInt64
  checksum : UInt32
  writeSequence : UInt64
  datacenterId : UInt32
  fragmentCount : UInt32
  fragments : Option (List BlobLocation)
  /-- A fragment array has `fragment_count` elements. -/
  fragments_length : ∀ l ∈ fragments, l.length = fragmentCount.toNat
deriving DecidableEq

namespace ObjectManifest

theorem length_of_mem_none :
    ∀ l ∈ (none : Option (List BlobLocation)), l.length = (0 : UInt32).toNat :=
  nofun

/-- The zeroed record, as `calloc` and `memset` leave it. -/
def zero : ObjectManifest where
  bucket := .empty
  key := .empty
  size := 0
  checksum := 0
  writeSequence := 0
  datacenterId := 0
  fragmentCount := 0
  fragments := none
  fragments_length := length_of_mem_none

/-- The pair of names that identifies an object. -/
def name (m : ObjectManifest) : CString × CString := (m.bucket.toCString, m.key.toCString)

/-- The fragment locations a manifest lists; a null pointer lists none. -/
def locations (m : ObjectManifest) : List BlobLocation := m.fragments.getD []

end ObjectManifest

end LightFS.Meta

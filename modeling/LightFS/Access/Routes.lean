import LightFS.Access.RequestIsolation
import LightFS.Library.StringSearch

/-!
# Routing of requests

From the method, the URI and the headers of a request `s3_route_parse` finds the operation, the
bucket and the key (`src/access/access_routes.c`). The path of the URI is what stands before the
first question mark; the bucket and the key are what the second slash of the path separates
(`parsePathStyle_eq`).

The operation is that of the method. If the key is empty and the query contains one of four texts it
becomes that of a list, whatever the method is and wherever the text stands; with an empty key and
none of the texts it stays the operation on an object. So only some requests are routed as the
operations mean it (`routed_soundly_iff`).

The pointers that `s3_route_parse` is given are not null, and it is given an even number of header
strings, which are modelled as pairs. A result of `0` is `true`.

## Main definitions

* `methodToOperation`, `parsePathStyle`, `routeHeader`, `s3RouteParse`.
* `uriPath`, `uriQuery`, `bucketPart`, `keyPart`, `IsPathStyle` — what a URI consists of.
* `RoutedSoundly`.

## Main results

* `path_style_parsed`, `routed_soundly_iff`.
-/

namespace LightFS.Access

open Library

/-! ### The code -/

/-- `S3_MAX_BUCKET_LENGTH`. -/
abbrev s3MaxBucketLength : ℕ := 255

/-- `S3_MAX_KEY_LENGTH`. -/
abbrev s3MaxKeyLength : ℕ := 1024

/-- `method_to_operation`. -/
def methodToOperation (method : CString) : S3Operation :=
  if strcmp method.bytes (CString.ofString "PUT").bytes = .eq then .putObject
  else if strcmp method.bytes (CString.ofString "GET").bytes = .eq then .getObject
  else if strcmp method.bytes (CString.ofString "DELETE").bytes = .eq then .deleteObject
  else if strcmp method.bytes (CString.ofString "HEAD").bytes = .eq then .headObject
  else .unknown

/-- `parse_path_style`. Pointers into the URI are positions, and bytes are copied from a position on
up to a given length. -/
def parsePathStyle (uri : CString) (request : S3Request) : S3Request × Bool :=
  if uri.bytes.head? ≠ some 47 then (request, false)
  else
    let query := strchr uri.bytes 63
    let afterBucket := query.getD uri.length
    let slash := ((strchr (uri.bytes.drop 1) 47).map (· + 1)).filter (· ≤ afterBucket)
    match slash with
    | some slash =>
      let bucketLength := slash - 1
      if s3MaxBucketLength < bucketLength then (request, false)
      else
        let request := { request with
          bucket := .strncpy (.ofMemory ((uri.bytes.drop 1).take bucketLength)) }
        let keyLength := afterBucket - slash - 1
        if s3MaxKeyLength < keyLength then (request, false)
        else
          ({ request with
            key := .strncpy (.ofMemory ((uri.bytes.drop (slash + 1)).take keyLength)) }, true)
    | none =>
      let length := afterBucket - 1
      if s3MaxBucketLength < length then (request, false)
      else
        ({ request with
          bucket := .strncpy (.ofMemory ((uri.bytes.drop 1).take length))
          key := .empty }, true)

/-- The texts that `s3_route_parse` looks for in the query. -/
def listTexts : List CString :=
  [.ofString "prefix=", .ofString "max-keys=", .ofString "marker=", .ofString "list-type="]

/-- A header of the request, read by `s3_route_parse`. -/
def routeHeader (s3 : S3Request) (name value : CString) : S3Request :=
  if strcmp name.bytes (CString.ofString "Content-Length").bytes = .eq then
    { s3 with contentLength := UInt64.ofInt (atoll value) }
  else if strcmp name.bytes (CString.ofString "Content-Type").bytes = .eq then
    { s3 with contentType := .strncpy value }
  else if strcmp name.bytes (CString.ofString "Authorization").bytes = .eq then
    { s3 with authorization := .strncpy value }
  else if strcmp name.bytes (CString.ofString "Host").bytes = .eq then
    { s3 with host := .strncpy value }
  else if strcmp name.bytes (CString.ofString "x-amz-date").bytes = .eq then
    { s3 with date := .strncpy value }
  else s3

/-- The loop of `s3_route_parse` over the headers. -/
def routeHeaders (s3 : S3Request) (headers : List (CString × CString)) : S3Request :=
  headers.foldl (fun s3 header => routeHeader s3 header.1 header.2) s3

/-- The operation of a request whose path was parsed. -/
def routeOperation (uri : CString) (request : S3Request) : S3Operation :=
  match strchr uri.bytes 63 with
  | none => request.operation
  | some query =>
    if request.key.bytes = [] ∧
        ∃ text ∈ listTexts, (strstr (uri.bytes.drop query) text.bytes).isSome then .listObjects
    else request.operation

/-- `s3_route_parse`. -/
def s3RouteParse (method uri : CString) (headers : List (CString × CString))
    (request : S3Request) : S3Request × Bool :=
  let request := { request with operation := methodToOperation method }
  if request.operation = .unknown then (request, false)
  else
    match parsePathStyle uri request with
    | (request, false) => (request, false)
    | (request, true) =>
      (routeHeaders { request with operation := routeOperation uri request } headers, true)

/-! ### What a URI consists of -/

/-- What stands before the first question mark. -/
def uriPath (uri : CString) : List UInt8 := uri.bytes.takeWhile (· ≠ 63)

/-- What stands behind the first question mark. -/
def uriQuery (uri : CString) : List UInt8 := (uri.bytes.dropWhile (· ≠ 63)).drop 1

/-- The path behind its first byte, up to the next slash. -/
def bucketPart (uri : CString) : List UInt8 := ((uriPath uri).drop 1).takeWhile (· ≠ 47)

/-- The path behind the slash that ends the bucket. -/
def keyPart (uri : CString) : List UInt8 := (((uriPath uri).drop 1).dropWhile (· ≠ 47)).drop 1

/-- The URI begins with a slash, and its bucket and its key are not too long. -/
structure IsPathStyle (uri : CString) : Prop where
  head_eq : uri.bytes.head? = some 47
  length_bucket_le : (bucketPart uri).length ≤ s3MaxBucketLength
  length_key_le : (keyPart uri).length ≤ s3MaxKeyLength

instance (uri : CString) : Decidable (IsPathStyle uri) :=
  decidable_of_iff (uri.bytes.head? = some 47 ∧ (bucketPart uri).length ≤ s3MaxBucketLength ∧
      (keyPart uri).length ≤ s3MaxKeyLength)
    ⟨fun h => ⟨h.1, h.2.1, h.2.2⟩, fun h => ⟨h.head_eq, h.length_bucket_le, h.length_key_le⟩⟩

/-- A URI that begins with a slash, in front of its query: its path without the slash, and a rest
that is empty or begins with a question mark. -/
structure UriSplit (uri : CString) (path rest : List UInt8) : Prop where
  bytes_eq : uri.bytes = 47 :: (path ++ rest)
  not_mem : 63 ∉ path
  rest_eq : rest = [] ∨ ∃ query, rest = 63 :: query

namespace UriSplit

variable {uri : CString} {path rest : List UInt8}

theorem exists_of_head (h : uri.bytes.head? = some 47) : ∃ path rest, UriSplit uri path rest := by
  obtain ⟨tail, htail⟩ : ∃ tail, uri.bytes = 47 :: tail := by
    rcases hbytes : uri.bytes with _ | ⟨b, tail⟩ <;> rw [hbytes] at h
    · cases h
    · cases h
      exact ⟨tail, rfl⟩
  obtain ⟨hpath, hsplit⟩ := exists_split tail 63
  rcases hsplit with hsame | ⟨query, hquery, -⟩
  · exact ⟨_, [], by rw [htail, List.append_nil, ← hsame], hpath, .inl rfl⟩
  · exact ⟨_, 63 :: query, by rw [htail, ← hquery], hpath, .inr ⟨query, rfl⟩⟩

variable (h : UriSplit uri path rest)

include h

theorem not_mem_cons : 63 ∉ 47 :: path := by
  rw [List.mem_cons, not_or]
  exact ⟨by decide, h.not_mem⟩

theorem uriPath_eq : uriPath uri = 47 :: path := by
  have hall := forall_ne_of_not_mem h.not_mem_cons
  rw [uriPath, h.bytes_eq, ← List.cons_append, List.takeWhile_append_of_pos hall]
  rcases h.rest_eq with rfl | ⟨query, rfl⟩ <;> simp

theorem uriQuery_eq : uriQuery uri = rest.drop 1 := by
  have hall := forall_ne_of_not_mem h.not_mem_cons
  rw [uriQuery, h.bytes_eq, ← List.cons_append, List.dropWhile_append_of_pos hall]
  rcases h.rest_eq with rfl | ⟨query, rfl⟩ <;> simp

/-- The end of the path. -/
theorem afterBucket_eq : (strchr uri.bytes 63).getD uri.length = path.length + 1 := by
  rw [CString.length, h.bytes_eq, ← List.cons_append]
  rcases h.rest_eq with rfl | ⟨query, rfl⟩
  · rw [List.append_nil, strchr_of_not_mem h.not_mem_cons]
    rfl
  · rw [strchr_append_cons h.not_mem_cons]
    rfl

/-- A slash in the path is found. -/
theorem slash_of_mem {bucket key : List UInt8} (hbucket : 47 ∉ bucket)
    (hpath : path = bucket ++ 47 :: key) :
    ((strchr (uri.bytes.drop 1) 47).map (· + 1)).filter (· ≤ path.length + 1) =
      some (bucket.length + 1) := by
  have hfound : strchr (uri.bytes.drop 1) 47 = some bucket.length := by
    rw [h.bytes_eq, List.drop_one, List.tail_cons, hpath, List.append_assoc]
    exact strchr_append_cons hbucket _
  rw [hfound, Option.map_some, Option.filter_some, if_pos]
  rw [decide_eq_true_iff, hpath, List.length_append]
  omega

/-- A slash in the query is ignored. -/
theorem slash_of_not_mem (hpath : 47 ∉ path) :
    ((strchr (uri.bytes.drop 1) 47).map (· + 1)).filter (· ≤ path.length + 1) = none := by
  rw [h.bytes_eq, List.drop_one, List.tail_cons, strchr_append_of_not_mem hpath]
  rcases h.rest_eq with rfl | ⟨query, rfl⟩
  · rfl
  · have hquery : strchr (63 :: query) 47 = (strchr query 47).map (· + 1) :=
      @strchr_append_of_not_mem [63] 47 (by decide) query
    rw [hquery]
    cases strchr query 47 with
    | none => rfl
    | some i =>
      rw [Option.map_some, Option.map_some, Option.map_some, Option.filter_some, if_neg]
      rw [decide_eq_true_iff]
      omega

/-- The parts of a path with a slash. -/
theorem parts_of_mem {bucket key : List UInt8} (hbucket : 47 ∉ bucket)
    (hpath : path = bucket ++ 47 :: key) : bucketPart uri = bucket ∧ keyPart uri = key := by
  have hall := forall_ne_of_not_mem hbucket
  rw [bucketPart, keyPart, h.uriPath_eq, List.drop_one, List.tail_cons, hpath,
    List.takeWhile_append_of_pos hall, List.dropWhile_append_of_pos hall]
  simp

/-- The parts of a path without a slash. -/
theorem parts_of_not_mem (hpath : 47 ∉ path) : bucketPart uri = path ∧ keyPart uri = [] := by
  have hall := forall_ne_of_not_mem hpath
  rw [bucketPart, keyPart, h.uriPath_eq, List.drop_one, List.tail_cons,
    List.takeWhile_eq_self_iff.mpr hall, List.dropWhile_eq_nil_iff.mpr hall]
  exact ⟨rfl, rfl⟩

/-- The bytes that are copied from a path without a slash. -/
theorem take_path : (uri.bytes.drop 1).take path.length = path := by
  rw [h.bytes_eq, List.drop_one, List.tail_cons, List.take_left]

/-- The bytes that are copied from a path with a slash. -/
theorem take_parts {bucket key : List UInt8} (hpath : path = bucket ++ 47 :: key) :
    (uri.bytes.drop 1).take bucket.length = bucket ∧
      (uri.bytes.drop (bucket.length + 1 + 1)).take key.length = key := by
  have hbytes : uri.bytes = 47 :: (bucket ++ 47 :: (key ++ rest)) := by
    rw [h.bytes_eq, hpath, List.append_assoc]
    rfl
  have hdrop : uri.bytes.drop (bucket.length + 1 + 1) = key ++ rest := by
    rw [hbytes, List.drop_succ_cons, List.drop_append, List.drop_of_length_le (Nat.le_succ _)]
    simp
  rw [hdrop, hbytes, List.drop_one, List.tail_cons]
  exact ⟨List.take_left, List.take_left⟩

end UriSplit

/-! ### The path -/

/-- What `parse_path_style` does with a URI that begins with a slash. -/
theorem parsePathStyle_eq {uri : CString} (h : uri.bytes.head? = some 47) (request : S3Request) :
    parsePathStyle uri request =
      if s3MaxBucketLength < (bucketPart uri).length then (request, false)
      else if s3MaxKeyLength < (keyPart uri).length then
        ({ request with bucket := .strncpy (.ofMemory (bucketPart uri)) }, false)
      else
        ({ request with
          bucket := .strncpy (.ofMemory (bucketPart uri))
          key := .strncpy (.ofMemory (keyPart uri)) }, true) := by
  obtain ⟨path, rest, huri⟩ := UriSplit.exists_of_head h
  rw [parsePathStyle, if_neg (not_not.mpr h)]
  dsimp only
  rw [huri.afterBucket_eq]
  obtain ⟨hbucket, hsplit⟩ := exists_split path 47
  rcases hsplit with hsame | ⟨key, hpath, -⟩
  · rw [← hsame] at hbucket
    obtain ⟨hbucketPart, hkeyPart⟩ := huri.parts_of_not_mem hbucket
    rw [huri.slash_of_not_mem hbucket, hbucketPart, hkeyPart]
    dsimp only
    rw [Nat.add_sub_cancel, huri.take_path]
    rfl
  · obtain ⟨hbucketPart, hkeyPart⟩ := huri.parts_of_mem hbucket hpath
    generalize path.takeWhile (· ≠ 47) = bucket at *
    obtain ⟨htakeBucket, htakeKey⟩ := huri.take_parts hpath
    have hlength : path.length + 1 - (bucket.length + 1) - 1 = key.length := by
      rw [hpath, List.length_append, List.length_cons]
      omega
    rw [huri.slash_of_mem hbucket hpath, hbucketPart, hkeyPart]
    dsimp only
    rw [hlength, Nat.add_sub_cancel, htakeBucket, htakeKey]

theorem not_mem_uriPath (uri : CString) : 0 ∉ uriPath uri := fun hzero =>
  uri.nul_free (List.takeWhile_subset _ hzero)

theorem bytes_bucketPart {uri : CString} (h : (bucketPart uri).length ≤ s3MaxBucketLength) :
    (CharArray.strncpy (.ofMemory (bucketPart uri)) : CharArray 255).bytes = bucketPart uri :=
  CharArray.bytes_strncpy_ofMemory (fun hzero => not_mem_uriPath uri
    (List.mem_of_mem_drop (List.takeWhile_subset _ hzero))) h

theorem bytes_keyPart {uri : CString} (h : (keyPart uri).length ≤ s3MaxKeyLength) :
    (CharArray.strncpy (.ofMemory (keyPart uri)) : CharArray 1024).bytes = keyPart uri :=
  CharArray.bytes_strncpy_ofMemory (fun hzero => not_mem_uriPath uri (List.mem_of_mem_drop
    ((List.dropWhile_sublist _).subset (List.mem_of_mem_drop hzero)))) h

/-- `parse_path_style` succeeds exactly on the URIs in path style. -/
theorem parsePathStyle_succeeds_iff (uri : CString) (request : S3Request) :
    (parsePathStyle uri request).2 = true ↔ IsPathStyle uri := by
  by_cases h : uri.bytes.head? = some 47
  · rw [parsePathStyle_eq h]
    constructor
    · intro hsuccess
      split_ifs at hsuccess with hbucket hkey
      exact ⟨h, not_lt.mp hbucket, not_lt.mp hkey⟩
    · intro huri
      rw [if_neg (not_lt.mpr huri.length_bucket_le), if_neg (not_lt.mpr huri.length_key_le)]
  · rw [parsePathStyle, if_pos h]
    exact iff_of_false Bool.false_ne_true fun huri => h huri.head_eq

/-- On a URI in path style the bucket and the key are its parts. -/
theorem parsePathStyle_of_isPathStyle {uri : CString} (h : IsPathStyle uri) (request : S3Request) :
    parsePathStyle uri request =
      ({ request with
        bucket := .strncpy (.ofMemory (bucketPart uri))
        key := .strncpy (.ofMemory (keyPart uri)) }, true) := by
  rw [parsePathStyle_eq h.head_eq, if_neg (not_lt.mpr h.length_bucket_le),
    if_neg (not_lt.mpr h.length_key_le)]

/-! ### The request -/

theorem names_routeHeader (s3 : S3Request) (name value : CString) :
    (routeHeader s3 name value).bucket = s3.bucket ∧ (routeHeader s3 name value).key = s3.key ∧
      (routeHeader s3 name value).operation = s3.operation := by
  rw [routeHeader]
  split_ifs <;> exact ⟨rfl, rfl, rfl⟩

/-- The headers leave the bucket, the key and the operation alone. -/
theorem names_routeHeaders (s3 : S3Request) (headers : List (CString × CString)) :
    (routeHeaders s3 headers).bucket = s3.bucket ∧ (routeHeaders s3 headers).key = s3.key ∧
      (routeHeaders s3 headers).operation = s3.operation := by
  induction headers generalizing s3 with
  | nil => exact ⟨rfl, rfl, rfl⟩
  | cons header headers ih =>
    obtain ⟨hbucket, hkey, hoperation⟩ := ih (routeHeader s3 header.1 header.2)
    obtain ⟨hbucket', hkey', hoperation'⟩ := names_routeHeader s3 header.1 header.2
    exact ⟨hbucket.trans hbucket', hkey.trans hkey', hoperation.trans hoperation'⟩

/-- The method is one of the four that are routed and the URI is in path style. -/
structure IsRouted (method uri : CString) : Prop where
  operation_ne : methodToOperation method ≠ .unknown
  isPathStyle : IsPathStyle uri

instance (method uri : CString) : Decidable (IsRouted method uri) :=
  decidable_of_iff (methodToOperation method ≠ .unknown ∧ IsPathStyle uri)
    ⟨fun h => ⟨h.1, h.2⟩, fun h => ⟨h.operation_ne, h.isPathStyle⟩⟩

/-- The request of a successful `s3_route_parse`, before its headers are read. -/
def routedRequest (method uri : CString) (request : S3Request) : S3Request :=
  { request with
    bucket := .strncpy (.ofMemory (bucketPart uri))
    key := .strncpy (.ofMemory (keyPart uri))
    operation :=
      if keyPart uri = [] ∧ ∃ text ∈ listTexts, text.bytes <:+: uriQuery uri then .listObjects
      else methodToOperation method }

/-- A text without a question mark is found in the query. -/
theorem infix_cons_question_iff {text query : List UInt8} (h : text.head? ≠ some 63)
    (hne : text ≠ []) : text <:+: 63 :: query ↔ text <:+: query := by
  rw [List.infix_cons_iff, or_iff_right]
  rintro ⟨rest, hrest⟩
  obtain ⟨b, tail, rfl⟩ := List.exists_cons_of_ne_nil hne
  obtain ⟨rfl, -⟩ := List.cons.inj hrest
  exact h rfl

theorem listTexts_heads : ∀ text ∈ listTexts, text.bytes.head? ≠ some 63 ∧ text.bytes ≠ [] := by
  decide

/-- The operation of a request whose path was parsed. -/
theorem routeOperation_eq {uri : CString} (h : IsPathStyle uri) {request : S3Request}
    (hkey : request.key.bytes = keyPart uri) :
    routeOperation uri request =
      if keyPart uri = [] ∧ ∃ text ∈ listTexts, text.bytes <:+: uriQuery uri then .listObjects
      else request.operation := by
  obtain ⟨path, rest, huri⟩ := UriSplit.exists_of_head h.head_eq
  rw [routeOperation, hkey, huri.uriQuery_eq]
  rcases huri.rest_eq with rfl | ⟨query, rfl⟩
  · have hnone : strchr uri.bytes 63 = none := by
      rw [huri.bytes_eq, List.append_nil]
      exact strchr_of_not_mem huri.not_mem_cons
    rw [hnone, if_neg]
    rintro ⟨-, text, htext, hfound⟩
    exact (listTexts_heads text htext).2 (List.infix_nil.mp hfound)
  · have hsome : strchr uri.bytes 63 = some (path.length + 1) := by
      rw [huri.bytes_eq]
      exact strchr_append_cons huri.not_mem_cons query
    have hdrop : uri.bytes.drop (path.length + 1) = 63 :: query := by
      rw [huri.bytes_eq, List.drop_succ_cons, List.drop_left]
    rw [hsome]
    dsimp only
    rw [hdrop]
    refine if_congr (and_congr_right fun _ => exists_congr fun text =>
      and_congr_right fun htext => ?_) rfl rfl
    obtain ⟨hhead, hne⟩ := listTexts_heads text htext
    rw [isSome_strstr_iff, infix_cons_question_iff hhead hne]
    rfl

/-- `s3_route_parse` succeeds exactly on routed requests. -/
theorem s3RouteParse_succeeds_iff (method uri : CString) (headers : List (CString × CString))
    (request : S3Request) :
    (s3RouteParse method uri headers request).2 = true ↔ IsRouted method uri := by
  rw [s3RouteParse]
  dsimp only
  by_cases hmethod : methodToOperation method = .unknown
  · rw [if_pos hmethod]
    exact iff_of_false Bool.false_ne_true fun h => h.operation_ne hmethod
  · rw [if_neg hmethod]
    have hpath := parsePathStyle_succeeds_iff uri
      { request with operation := methodToOperation method }
    rcases hparse : parsePathStyle uri { request with operation := methodToOperation method }
      with ⟨parsed, _ | _⟩ <;> rw [hparse] at hpath
    · exact iff_of_false Bool.false_ne_true fun h => Bool.false_ne_true (hpath.mpr h.isPathStyle)
    · exact iff_of_true rfl ⟨hmethod, hpath.mp rfl⟩

theorem s3RouteParse_of_isRouted {method uri : CString} (h : IsRouted method uri)
    (headers : List (CString × CString)) (request : S3Request) :
    s3RouteParse method uri headers request =
      (routeHeaders (routedRequest method uri request) headers, true) := by
  rw [s3RouteParse]
  dsimp only
  rw [if_neg h.operation_ne, parsePathStyle_of_isPathStyle h.isPathStyle]
  dsimp only
  rw [routeOperation_eq h.isPathStyle (bytes_keyPart h.isPathStyle.length_key_le)]
  rfl

/-- The bucket, the key and the operation of a routed request. -/
theorem names_s3RouteParse {method uri : CString} (h : IsRouted method uri)
    (headers : List (CString × CString)) (request : S3Request) :
    (s3RouteParse method uri headers request).1.bucket.bytes = bucketPart uri ∧
      (s3RouteParse method uri headers request).1.key.bytes = keyPart uri ∧
      (s3RouteParse method uri headers request).1.operation =
        if keyPart uri = [] ∧ ∃ text ∈ listTexts, text.bytes <:+: uriQuery uri then .listObjects
        else methodToOperation method := by
  obtain ⟨hbucket, hkey, hoperation⟩ :=
    names_routeHeaders (routedRequest method uri request) headers
  rw [s3RouteParse_of_isRouted h, hbucket, hkey, hoperation]
  exact ⟨bytes_bucketPart h.isPathStyle.length_bucket_le,
    bytes_keyPart h.isPathStyle.length_key_le, rfl⟩

/-- **A URI in path style is parsed exactly.** `parse_path_style` succeeds if and only if the URI
begins with a slash and its parts are not too long, and then leaves the parts, whatever stands in
the query and stood in the request; so does `s3_route_parse` for a method that is routed. A URI that
is put together from a bucket, a key and a query is parsed back. -/
theorem path_style_parsed (uri : CString) (request : S3Request) :
    ((parsePathStyle uri request).2 = true ↔ IsPathStyle uri) ∧
    (IsPathStyle uri → (parsePathStyle uri request).1.bucket.bytes = bucketPart uri ∧
      (parsePathStyle uri request).1.key.bytes = keyPart uri) ∧
    (∀ method headers, methodToOperation method ≠ .unknown →
      ((s3RouteParse method uri headers request).2 = true ↔ IsPathStyle uri) ∧
      (IsPathStyle uri → (s3RouteParse method uri headers request).1.bucket.bytes = bucketPart uri ∧
        (s3RouteParse method uri headers request).1.key.bytes = keyPart uri)) ∧
    ∀ bucket key query, uri.bytes = 47 :: (bucket ++ 47 :: (key ++ 63 :: query)) →
      47 ∉ bucket → 63 ∉ bucket → 63 ∉ key → bucket.length ≤ s3MaxBucketLength →
      key.length ≤ s3MaxKeyLength → (parsePathStyle uri request).2 = true ∧
        (parsePathStyle uri request).1.bucket.bytes = bucket ∧
        (parsePathStyle uri request).1.key.bytes = key := by
  have hparts : IsPathStyle uri → (parsePathStyle uri request).1.bucket.bytes = bucketPart uri ∧
      (parsePathStyle uri request).1.key.bytes = keyPart uri := by
    intro h
    rw [parsePathStyle_of_isPathStyle h]
    exact ⟨bytes_bucketPart h.length_bucket_le, bytes_keyPart h.length_key_le⟩
  refine ⟨parsePathStyle_succeeds_iff uri request, hparts, ?_, ?_⟩
  · intro method headers hmethod
    refine ⟨?_, fun h => ?_⟩
    · rw [s3RouteParse_succeeds_iff]
      exact ⟨IsRouted.isPathStyle, IsRouted.mk hmethod⟩
    · obtain ⟨hbucket, hkey, -⟩ := names_s3RouteParse ⟨hmethod, h⟩ headers request
      exact ⟨hbucket, hkey⟩
  · intro bucket key query hbytes hslash hbucket hkey hbucketLength hkeyLength
    have hpath : 63 ∉ bucket ++ 47 :: key := by
      rw [List.mem_append, List.mem_cons, not_or, not_or]
      exact ⟨hbucket, by decide, hkey⟩
    have huri : UriSplit uri (bucket ++ 47 :: key) (63 :: query) :=
      ⟨by rw [hbytes, List.append_assoc]; rfl, hpath, .inr ⟨query, rfl⟩⟩
    obtain ⟨hbucketPart, hkeyPart⟩ := huri.parts_of_mem hslash rfl
    have hstyle : IsPathStyle uri :=
      ⟨by rw [hbytes]; rfl, by rwa [hbucketPart], by rwa [hkeyPart]⟩
    rw [← hbucketPart, ← hkeyPart]
    exact ⟨(parsePathStyle_succeeds_iff uri request).mpr hstyle, hparts hstyle⟩

/-! ### Operations -/

/-- The names of the parameters of a query: between ampersands, what stands before an equals
sign. -/
def queryNames (uri : CString) : List (List UInt8) :=
  ((uriQuery uri).splitOn 38).map fun parameter => parameter.takeWhile (· ≠ 61)

/-- The parameters of a list request. -/
def listNames : List CString :=
  [.ofString "prefix", .ofString "max-keys", .ofString "marker", .ofString "list-type"]

/-- The query has a parameter of a list request. -/
def HasListParameter (uri : CString) : Prop := ∃ name ∈ listNames, name.bytes ∈ queryNames uri

/-- The zeroed request. -/
def S3Request.zero : S3Request := ⟨.empty, .empty, .putObject, 0, .empty, .empty, .empty, .empty⟩

/-- The operation is what the request asks for: a list is a `GET` of a bucket with a parameter for
lists, and an operation on an object has a key. -/
structure RoutedSoundly (method uri : CString) (s3 : S3Request) : Prop where
  list : s3.operation = .listObjects →
    method = .ofString "GET" ∧ s3.key.bytes = [] ∧ HasListParameter uri
  object : s3.operation = .putObject ∨ s3.operation = .getObject ∨ s3.operation = .headObject ∨
    s3.operation = .deleteObject → s3.key.bytes ≠ []

/-- The operation of a method that is routed is one on an object. -/
theorem methodToOperation_cases {method : CString} (h : methodToOperation method ≠ .unknown) :
    methodToOperation method ≠ .listObjects ∧
      (methodToOperation method = .putObject ∨ methodToOperation method = .getObject ∨
        methodToOperation method = .headObject ∨ methodToOperation method = .deleteObject) := by
  revert h
  rw [methodToOperation]
  split_ifs <;> decide

/-- **Which requests are routed soundly.** A request that `s3_route_parse` accepts has the operation
it asks for if and only if it has a key, or is a `GET` whose query has a parameter for lists, and
contains one of the texts that are looked for. -/
theorem routed_soundly_iff {method uri : CString} {headers : List (CString × CString)}
    {request : S3Request} (h : (s3RouteParse method uri headers request).2 = true) :
    RoutedSoundly method uri (s3RouteParse method uri headers request).1 ↔
      keyPart uri ≠ [] ∨
        method = .ofString "GET" ∧ HasListParameter uri ∧
          ∃ text ∈ listTexts, text.bytes <:+: uriQuery uri := by
  have hrouted := (s3RouteParse_succeeds_iff ..).mp h
  obtain ⟨hnotList, hobject⟩ := methodToOperation_cases hrouted.operation_ne
  obtain ⟨-, hkey, hoperation⟩ := names_s3RouteParse hrouted headers request
  by_cases hlist : keyPart uri = [] ∧ ∃ text ∈ listTexts, text.bytes <:+: uriQuery uri
  · rw [if_pos hlist] at hoperation
    rw [or_iff_right (not_not.mpr hlist.1)]
    constructor
    · intro hsound
      obtain ⟨hget, -, hparameter⟩ := hsound.list hoperation
      exact ⟨hget, hparameter, hlist.2⟩
    · rintro ⟨hget, hparameter, -⟩
      refine ⟨fun _ => ⟨hget, hkey.trans hlist.1, hparameter⟩, ?_⟩
      rw [hoperation]
      rintro (hop | hop | hop | hop) <;> cases hop
  · rw [if_neg hlist] at hoperation
    constructor
    · intro hsound
      rw [← hkey]
      exact .inl (hsound.object (by rwa [hoperation]))
    · intro hcond
      have hne : keyPart uri ≠ [] := by
        rcases hcond with hne | ⟨-, -, htext⟩
        · exact hne
        · exact fun hnil => hlist ⟨hnil, htext⟩
      refine ⟨fun hop => absurd (hoperation.symm.trans hop) hnotList, fun _ => ?_⟩
      rwa [hkey]

/-- A `GET` of an object. -/
theorem routed_soundly_iff_get_object :
    (s3RouteParse (.ofString "GET") (.ofString "/b/k") [] .zero).2 = true ∧
      RoutedSoundly (.ofString "GET") (.ofString "/b/k")
        (s3RouteParse (.ofString "GET") (.ofString "/b/k") [] .zero).1 := by
  have hrouted : (s3RouteParse (.ofString "GET") (.ofString "/b/k") [] .zero).2 = true := by decide
  exact ⟨hrouted, (routed_soundly_iff hrouted).mpr (.inl (by decide))⟩

/-- A `PUT` of a bucket whose query contains the text of a list parameter is routed as a list, and
without it as a `PUT` of an object without a key. -/
theorem put_bucket_not_routed_soundly :
    ((s3RouteParse (.ofString "PUT") (.ofString "/b?prefix=x") [] .zero).2 = true ∧
      ¬ RoutedSoundly (.ofString "PUT") (.ofString "/b?prefix=x")
        (s3RouteParse (.ofString "PUT") (.ofString "/b?prefix=x") [] .zero).1) ∧
    ((s3RouteParse (.ofString "PUT") (.ofString "/b") [] .zero).2 = true ∧
      ¬ RoutedSoundly (.ofString "PUT") (.ofString "/b")
        (s3RouteParse (.ofString "PUT") (.ofString "/b") [] .zero).1) := by
  refine ⟨⟨by decide, fun h => ?_⟩, by decide, fun h => ?_⟩
  · exact absurd (h.list (by decide)).1 (by decide)
  · exact absurd (by decide) (h.object (by decide))

end LightFS.Access

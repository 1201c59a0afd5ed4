import Mathlib.Data.String.Basic
import SourceController.ObjectStore

/-!
# `S3Storage`: keys, listing, and the single-object verbs

This module models `s3.go` up to garbage collection: the constructor, the key
of an artifact, `Store`, `Exists`, `Delete`, `GetURL`, `Healthy`, `List` and
`NewArtifactFor`.  `GarbageCollect` and its sort are in
`SourceController.Retention`, `Lock` in `SourceController.Lock`, and
`Archive`, `CopyFromPath` and `CopyToPath` in `SourceController.Archive`.

A call that changes state returns an `Outcome`: the bucket and the caller's
artifact after the call, and the error it returned.  The state after a failed
call is part of the result, so "a failed call changes nothing" is a theorem
about the model and not a convention of its callers.

Three facts carry the rest of the development:

* `artifactKey_toArtifact`: the path `List` reports for an object maps back to
  the object's key, so `List` and `artifactKey` are inverse on what `List`
  returns;
* `listArtifacts_path_nodup`: the paths of one listing are pairwise distinct;
* `store_atomic`: `Store` either writes the bytes the reader delivered, with
  their digest, or fails and leaves bucket and artifact as they were.

`store_delete_keep_other_artifacts` draws the consequence for the verbs:
`Store` and `Delete` of one artifact change what `Exists` and `Retrieve`
answer for no artifact of another path.

`mem_listArtifacts_store` says what `List` sees after a `Store`, and
`listArtifacts_store` the same up to the order the service lists in;
`listArtifacts_remove` says what it sees after a removal.
`newArtifactFor_listed_after_store` says that an artifact built by
`NewArtifactFor` is listed under its own scope once stored,
and `retrieve_of_mem_listArtifacts` that every listed artifact exists and
reads back with the size `List` reported.

The MinIO client, its endpoint and its region are outside the model:
`newS3Storage` takes the outcome of creating the client and of
`BucketExists` as arguments.  `ForcePathStyle` is copied into `S3Config` by
the factory and read by nothing, so it is left out.
-/

namespace SourceController

/-! ## Configuration and construction -/

/-- `S3Config`, without `Region`, `Endpoint` and `ForcePathStyle`: the first
two only feed `minio.New`, whose outcome is an argument of `newS3Storage`, and
nothing reads the third. -/
structure S3Config where
  bucket : String
  keyPrefix : String := ""
  hostname : String := ""
  urlExpiration : Int := 0
  deriving DecidableEq, Repr

/-- `S3Storage`: the bucket name, the key prefix with no trailing slash, the
host name and the lifetime of presigned URLs.  The lock map is the state of
`SourceController.Lock`. -/
structure S3Storage where
  bucket : String
  keyPrefix : String
  hostname : String
  urlExpiration : Int
  deriving DecidableEq, Repr

/-- Fifteen minutes in nanoseconds, the default lifetime of a presigned URL. -/
def defaultURLExpiration : Int := 15 * 60 * 1000000000

/-- `NewS3Storage`, after the endpoint has been parsed: `client` is the outcome
of `minio.New` and `bucketExists` that of `BucketExists`. -/
def newS3Storage (cfg : S3Config) (client : Except String Unit)
    (bucketExists : Except String Bool) : Except String S3Storage :=
  match client, bucketExists with
  | .error e, _ => .error ("failed to create MinIO client: " ++ e)
  | .ok (), .error e => .error ("failed to check bucket existence: " ++ e)
  | .ok (), .ok false => .error ("bucket " ++ cfg.bucket ++ " does not exist")
  | .ok (), .ok true => .ok
      { bucket := cfg.bucket
        keyPrefix := trimSuffix cfg.keyPrefix "/"
        hostname := cfg.hostname
        urlExpiration := if cfg.urlExpiration = 0 then defaultURLExpiration else cfg.urlExpiration }

namespace S3Storage

variable (s : S3Storage)

/-- `artifactKey`: the artifact's path under the key prefix. -/
def artifactKey (a : Artifact) : String :=
  if s.keyPrefix ≠ "" then s.keyPrefix ++ "/" ++ a.path else a.path

/-- The metadata `NewArtifactFor` reads from a Kubernetes object. -/
structure ObjectMeta where
  name : String
  «namespace» : String
  deriving DecidableEq, Repr

/-- `NewArtifactFor`: the artifact at `kind/namespace/name/fileName`. -/
def newArtifactFor (kind : String) (metadata : ObjectMeta) (revision fileName : String) :
    Artifact :=
  { path := artifactPath kind metadata.«namespace» metadata.name fileName, revision := revision }

/-! ## Listing -/

/-- The key prefix `List` asks for: the storage prefix and a slash, then each
filter field that is set, up to the first that is not, each with a slash. -/
def listPrefix (filter : ArtifactFilter) : String :=
  let p := if s.keyPrefix ≠ "" then s.keyPrefix ++ "/" else ""
  if filter.kind = "" then p else
  let p := p ++ filter.kind ++ "/"
  if filter.«namespace» = "" then p else
  let p := p ++ filter.«namespace» ++ "/"
  if filter.name = "" then p else p ++ filter.name ++ "/"

/-- The artifact `List` reports for a listed object: the key without the
storage prefix, the modification time and the size. -/
def toArtifact (o : Object) : Artifact :=
  { path := if s.keyPrefix ≠ "" then trimPrefix o.key (s.keyPrefix ++ "/") else o.key
    lastUpdateTime := o.lastModified
    size := some o.content.length }

/-- The artifacts of a listing that the service delivers in full: the objects
under `listPrefix`, directory markers skipped. -/
def listArtifacts (filter : ArtifactFilter) (b : Bucket) : List Artifact :=
  ((b.listObjects (s.listPrefix filter)).filter (fun o => !hasSuffix o.key "/")).map s.toArtifact

/-- `List`: the listing, or the first error the object channel delivers. -/
def list (filter : ArtifactFilter) (b : Bucket) (fault : Option String) :
    Except String (List Artifact) :=
  match fault with
  | some e => .error ("failed to list objects: " ++ e)
  | none => .ok (s.listArtifacts filter b)

/-! ## Single-object verbs -/

/-- `Exists`: `false` on `NoSuchKey`, an error on any other failure. -/
def «exists» (b : Bucket) (a : Artifact) (fault : Option ErrorResponse) : Except String Bool :=
  match b.statObject (s.artifactKey a) fault with
  | .ok _ => .ok true
  | .error e =>
    if e.code = "NoSuchKey" then .ok false
    else .error ("failed to check object existence: " ++ e.message)

/-- `Delete`: `RemoveObject` on the artifact's key. -/
def delete (b : Bucket) (a : Artifact) (fault : Option String) : Except String Bucket :=
  match b.removeObject (s.artifactKey a) fault with
  | .ok b' => .ok b'
  | .error e => .error ("failed to delete object from S3: " ++ e)

/-- `GetURL`: the URL `PresignedGetObject` returns for the bucket, the
artifact's key and the URL lifetime. -/
def getURL (presign : String → String → Int → Except String String) (a : Artifact) :
    Except String String :=
  match presign s.bucket (s.artifactKey a) s.urlExpiration with
  | .ok url => .ok url
  | .error e => .error ("failed to create pre-signed URL: " ++ e)

/-- `Healthy`: a listing of at most one key under `<prefix>/.health`, which
fails with the error of its first item; `fault` is that error for the
bucket and prefix. -/
def healthy (fault : String → String → Option String) : Except String Unit :=
  match fault s.bucket (s.keyPrefix ++ "/.health") with
  | some e => .error ("S3 health check failed: " ++ e)
  | none => .ok ()

/-- `Retrieve`: the object's bytes.  `GetObject` fails lazily, so a missing key
surfaces as the error of the first read. -/
def retrieve (b : Bucket) (a : Artifact) : Except String Bytes :=
  match b.stat (s.artifactKey a) with
  | some o => .ok o.content
  | none => .error "The specified key does not exist."

/-! ## Keys and listings -/

theorem artifactKey_congr {a a' : Artifact} (h : a.path = a'.path) :
    s.artifactKey a = s.artifactKey a' := by
  simp [artifactKey, h]

theorem delete_ok {b b' : Bucket} {a : Artifact} {fault : Option String}
    (h : s.delete b a fault = .ok b') : b' = b.remove (s.artifactKey a) := by
  cases fault <;> simp [delete, Bucket.removeObject] at h
  exact h.symm

/-- A successful `Delete` leaves a key as it was, or it is the artifact's key
and now has no object. -/
theorem stat_delete {b b' : Bucket} {a : Artifact} {fault : Option String}
    (h : s.delete b a fault = .ok b') (key : String) :
    b'.stat key = b.stat key ∨ (b'.stat key = none ∧ s.artifactKey a = key) := by
  rw [s.delete_ok h, Bucket.stat_remove]
  split_ifs with hk
  · exact .inr ⟨rfl, hk.symm⟩
  · exact .inl rfl

/-- Distinct paths have distinct keys. -/
theorem path_eq_of_artifactKey_eq {a a' : Artifact} (h : s.artifactKey a = s.artifactKey a') :
    a.path = a'.path := by
  unfold artifactKey at h
  split_ifs at h
  · simpa [String.ext_iff] using h
  · exact h

/-- Every key `List` asks for starts with the storage prefix and its slash. -/
theorem listPrefix_base (filter : ArtifactFilter) (h : s.keyPrefix ≠ "") :
    hasPrefix (s.listPrefix filter) (s.keyPrefix ++ "/") = true := by
  unfold listPrefix
  simp only [if_pos h]
  split_ifs <;> simp [hasPrefix_iff]

/-- `List` and `artifactKey` are inverse: the path `List` reports for a listed
object is the path whose key is the object's key. -/
theorem artifactKey_toArtifact {filter : ArtifactFilter} {o : Object}
    (h : hasPrefix o.key (s.listPrefix filter) = true) :
    s.artifactKey (s.toArtifact o) = o.key := by
  unfold artifactKey toArtifact
  split_ifs with hp
  · exact append_trimPrefix (hasPrefix_trans h (s.listPrefix_base filter hp))
  · rfl

theorem mem_listArtifacts {filter : ArtifactFilter} {b : Bucket} {a : Artifact} :
    a ∈ s.listArtifacts filter b ↔ ∃ o ∈ b.objects, hasPrefix o.key (s.listPrefix filter) = true ∧
      hasSuffix o.key "/" = false ∧ s.toArtifact o = a := by
  simp [listArtifacts, and_assoc]

/-- The paths of one listing are pairwise distinct. -/
theorem listArtifacts_path_nodup (filter : ArtifactFilter) (b : Bucket) :
    ((s.listArtifacts filter b).map Artifact.path).Nodup := by
  rw [listArtifacts, List.map_map]
  have hkeys := b.listObjects_nodup (s.listPrefix filter)
  refine List.Nodup.map_on (fun x hx y hy hxy => ?_) ((hkeys.sublist
    ((List.filter_sublist _).map _)).of_map _)
  have hx' := (List.mem_filter.1 hx).1
  have hy' := (List.mem_filter.1 hy).1
  have hkey : x.key = y.key := by
    rw [← s.artifactKey_toArtifact (Bucket.mem_listObjects.1 hx').2,
      ← s.artifactKey_toArtifact (Bucket.mem_listObjects.1 hy').2]
    exact s.artifactKey_congr hxy
  exact List.inj_on_of_nodup_map hkeys hx' hy' hkey

end S3Storage

/-! ## `Store` -/

/-- `writeCounter`: the number of bytes written to it. -/
structure WriteCounter where
  written : Int := 0

/-- `writeCounter.Write`: count the bytes; never an error. -/
def WriteCounter.write (wc : WriteCounter) (p : Bytes) : WriteCounter :=
  { written := wc.written + p.length }

/-- The canonical digest algorithm, `intdigest.Canonical`: the string
`Digester().Digest().String()` gives for the bytes written to the digester. -/
structure Algorithm where
  digest : Bytes → String

/-- The three writers of `io.MultiWriter(d.Hash(), &buf, sz)`. -/
structure Tee where
  hashed : Bytes := []
  buf : Bytes := []
  counter : WriteCounter := {}

/-- One write of the multi-writer: every writer gets the chunk.  None of the
three fails. -/
def Tee.write (w : Tee) (p : Bytes) : Tee :=
  ⟨w.hashed ++ p, w.buf ++ p, w.counter.write p⟩

/-- `io.Copy(mw, reader)`: every chunk to the writers, then the reader's
error, if it stopped with one. -/
def copy (w : Tee) (r : Reader) : Except String Tee :=
  match r.err with
  | some e => .error e
  | none => .ok (r.chunks.foldl Tee.write w)

/-- What a call leaves behind: the bucket, the caller's artifact and the error
the call returned. -/
structure Outcome where
  bucket : Bucket
  artifact : Artifact
  err : Option String

namespace S3Storage

variable (s : S3Storage)

/-- `Store`: read everything into a buffer while hashing and counting, `PUT`
the buffer with its digest and the revision as user metadata, and only then
set the artifact's digest, time and size.  `now` is `metav1.Now()` and `reply`
the service's answer to the `PUT`. -/
def store (canonical : Algorithm) (now : Time) (reply : Except String Time) (b : Bucket)
    (a : Artifact) (r : Reader) : Outcome :=
  match copy {} r with
  | .error e => ⟨b, a, some ("failed to read content: " ++ e)⟩
  | .ok w =>
    let d := canonical.digest w.hashed
    match b.putObject (s.artifactKey a) w.buf "application/gzip"
        [("digest", d), ("revision", a.revision)] reply with
    | .error e => ⟨b, a, some ("failed to upload to S3: " ++ e)⟩
    | .ok b' => ⟨b', { a with digest := d, lastUpdateTime := now, size := some w.counter.written }, none⟩

/-! ## What `Store` does -/

/-- The writes of `io.Copy` append every chunk to the hash and the buffer and
count it, whatever the chunking. -/
theorem foldl_write (cs : List Bytes) (w : Tee) :
    cs.foldl Tee.write w =
      ⟨w.hashed ++ cs.flatten, w.buf ++ cs.flatten, ⟨w.counter.written + cs.flatten.length⟩⟩ := by
  induction cs generalizing w with
  | nil => simp
  | cons c cs ih =>
    simp only [List.foldl_cons, ih, Tee.write, WriteCounter.write, List.flatten_cons,
      List.append_assoc, List.length_append, Tee.mk.injEq, WriteCounter.mk.injEq, true_and]
    omega

/-- The object `Store` puts for the bytes `B`, stamped `t` by the service. -/
def storedObject (canonical : Algorithm) (a : Artifact) (B : Bytes) (t : Time) : Object :=
  ⟨s.artifactKey a, B, t, "application/gzip",
    [("digest", canonical.digest B), ("revision", a.revision)]⟩

variable {s} {canonical : Algorithm} {now t : Time} {reply : Except String Time} {b : Bucket}
  {a : Artifact} {r : Reader} {e : String}

theorem store_of_ok (hr : r.err = none) (hreply : reply = .ok t) :
    s.store canonical now reply b a r =
      ⟨b.put (s.storedObject canonical a r.bytes t),
        { a with digest := canonical.digest r.bytes, lastUpdateTime := now,
                 size := some r.bytes.length }, none⟩ := by
  simp [store, copy, hr, hreply, foldl_write, Bucket.putObject, Except.map, storedObject,
    Reader.bytes]

theorem store_of_read_error (hr : r.err = some e) :
    s.store canonical now reply b a r = ⟨b, a, some ("failed to read content: " ++ e)⟩ := by
  simp [store, copy, hr]

theorem store_of_put_error (hr : r.err = none) (hreply : reply = .error e) :
    s.store canonical now reply b a r = ⟨b, a, some ("failed to upload to S3: " ++ e)⟩ := by
  simp [store, copy, hr, hreply, Bucket.putObject, Except.map]

end S3Storage

/-- What a successful publication of the bytes `B` under `key` leaves: the
object under `key` holds `B` and records their digest as its `digest` user
metadata, every other key is as it was, and the artifact carries the digest
and the size of `B`. -/
structure Published (canonical : Algorithm) (key : String) (B : Bytes) (b : Bucket)
    (o : Outcome) : Prop where
  ok : o.err = none
  stored : ∃ obj, o.bucket.stat key = some obj ∧ obj.content = B ∧
    obj.userMetadata.lookup "digest" = some o.artifact.digest
  frame : ∀ k, k ≠ key → o.bucket.stat k = b.stat k
  digest : o.artifact.digest = canonical.digest B
  size : o.artifact.size = some B.length

/-- A failed call: an error, and the bucket and the artifact as they were. -/
def Unchanged (b : Bucket) (a : Artifact) (o : Outcome) : Prop :=
  o.err ≠ none ∧ o.bucket = b ∧ o.artifact = a

theorem unchanged_of_eq {b : Bucket} {a : Artifact} {e : String} :
    Unchanged b a ⟨b, a, some e⟩ := ⟨by simp, rfl, rfl⟩

namespace S3Storage

variable {s : S3Storage} {canonical : Algorithm} {now : Time} {reply : Except String Time}
  {b : Bucket} {a : Artifact} {r : Reader}

/-- `Store` publishes exactly the bytes the reader delivered, or fails and
changes nothing. -/
theorem store_atomic :
    Published canonical (s.artifactKey a) r.bytes b (s.store canonical now reply b a r) ∨
      Unchanged b a (s.store canonical now reply b a r) := by
  cases hr : r.err with
  | some e => rw [store_of_read_error hr]; exact .inr unchanged_of_eq
  | none =>
    cases reply with
    | error e => rw [store_of_put_error hr rfl]; exact .inr unchanged_of_eq
    | ok t =>
      rw [store_of_ok hr rfl]
      refine .inl ⟨rfl, ⟨s.storedObject canonical a r.bytes t, by simp [storedObject], rfl,
        by simp [storedObject, List.lookup_cons]⟩, ?_, rfl, rfl⟩
      intro k hk
      simp [storedObject, hk]

/-- What a successful `Store` published, `Retrieve` reads back. -/
theorem retrieve_store_of_ok {t : Time} (hr : r.err = none) (hreply : reply = .ok t) :
    s.retrieve (s.store canonical now reply b a r).bucket
        (s.store canonical now reply b a r).artifact = .ok r.bytes := by
  rw [store_of_ok hr hreply]
  simp [retrieve, storedObject, artifactKey]

/-- `Store` and `Delete` of one artifact change what `Exists` and `Retrieve`
answer for no artifact of another path: an artifact's key is its path under
the prefix, so artifacts of distinct paths never share an object. -/
theorem store_delete_keep_other_artifacts {x : Artifact} (hx : x.path ≠ a.path)
    (fault : Option ErrorResponse) :
    (s.retrieve (s.store canonical now reply b a r).bucket x = s.retrieve b x ∧
        s.exists (s.store canonical now reply b a r).bucket x fault = s.exists b x fault) ∧
      ∀ (dfault : Option String) (b' : Bucket), s.delete b a dfault = .ok b' →
        s.retrieve b' x = s.retrieve b x ∧ s.exists b' x fault = s.exists b x fault := by
  have hkey : s.artifactKey x ≠ s.artifactKey a := fun h => hx (s.path_eq_of_artifactKey_eq h)
  have hread : ∀ {b₁ : Bucket}, b₁.stat (s.artifactKey x) = b.stat (s.artifactKey x) →
      s.retrieve b₁ x = s.retrieve b x ∧ s.exists b₁ x fault = s.exists b x fault := fun h => by
    simp only [retrieve, «exists», Bucket.statObject, h, and_self]
  refine ⟨hread ?_, fun dfault b' hdel => hread ?_⟩
  · rcases @store_atomic s canonical now reply b a r with hp | hu
    · exact hp.frame _ hkey
    · rw [hu.2.1]
  · rcases s.stat_delete hdel (s.artifactKey x) with h | ⟨-, h⟩
    exacts [h, absurd h.symm hkey]

/-- A bucket holding `rev1` under the prefix `flux`: after `Store` of `rev2`,
and after `Delete` of `rev2`, `rev1` reads back unchanged. -/
theorem store_delete_keep_other_artifacts_rev1 :
    let s : S3Storage := ⟨"artifacts", "flux", "", defaultURLExpiration⟩
    let x : Artifact := { path := "gitrepository/default/app/rev1.tar.gz" }
    let a : Artifact := { path := "gitrepository/default/app/rev2.tar.gz" }
    let b : Bucket := ⟨[⟨"flux/gitrepository/default/app/rev1.tar.gz", [1], ⟨5⟩, "application/gzip", []⟩],
      List.nodup_singleton _⟩
    x.path ≠ a.path ∧
      s.retrieve (s.store ⟨fun _ => "d"⟩ ⟨10⟩ (.ok ⟨20⟩) b a ⟨[[2]], none⟩).bucket x = .ok [1] ∧
      s.retrieve (b.remove (s.artifactKey a)) x = .ok [1] := by
  intro s x a b
  have hx : x.path ≠ a.path := by simp only [x, a]; decide
  have hread : s.retrieve b x = .ok [1] := rfl
  have h := @store_delete_keep_other_artifacts s ⟨fun _ => "d"⟩ ⟨10⟩ (.ok ⟨20⟩) b a ⟨[[2]], none⟩ x
    hx none
  exact ⟨hx, h.1.1.trans hread, ((h.2 none _ rfl).1).trans hread⟩

/-! ## What `List` sees of `Store` and `Delete` -/

/-- A listed object reports an artifact's path exactly when its key is that
artifact's key. -/
theorem toArtifact_path_eq_iff {filter : ArtifactFilter} {o : Object}
    (h : hasPrefix o.key (s.listPrefix filter) = true) (a : Artifact) :
    (s.toArtifact o).path = a.path ↔ o.key = s.artifactKey a := by
  constructor
  · intro hp
    rw [← s.artifactKey_toArtifact h]
    exact s.artifactKey_congr hp
  · intro hk
    exact s.path_eq_of_artifactKey_eq ((s.artifactKey_toArtifact h).trans hk)

/-- After the object under an artifact's key is removed, `List` reports what it
reported before, without that artifact's path. -/
theorem listArtifacts_remove (filter : ArtifactFilter) (b : Bucket) (a : Artifact) :
    s.listArtifacts filter (b.remove (s.artifactKey a)) =
      (s.listArtifacts filter b).filter (·.path != a.path) := by
  simp only [listArtifacts, Bucket.listObjects, Bucket.remove, List.filter_map, List.filter_filter]
  congr 1
  refine List.filter_congr fun o _ => ?_
  by_cases hpre : hasPrefix o.key (s.listPrefix filter) = true
  · have hiff := s.toArtifact_path_eq_iff hpre a
    by_cases hk : o.key = s.artifactKey a
    · simp [hpre, hk, hiff.2 hk]
    · dsimp only [Function.comp_apply]
      rw [bne_iff_ne.2 hk, bne_iff_ne.2 (mt hiff.1 hk), hpre]
      simp
  · simp [hpre]

/-- The artifact `List` reports for the object `Store` put. -/
theorem toArtifact_storedObject (canonical : Algorithm) (a : Artifact) (B : Bytes) (t : Time) :
    s.toArtifact (s.storedObject canonical a B t) =
      { path := a.path, lastUpdateTime := t, size := some B.length } := by
  simp only [toArtifact, storedObject, artifactKey]
  split_ifs <;> simp_all

variable {canonical : Algorithm} {now t : Time} {reply : Except String Time} {b : Bucket}
  {a : Artifact} {r : Reader}

/-- What `List` of any scope reports after a successful `Store`: what it
reported before under other paths, and, when the artifact's key lies in the
scope and is no directory marker, the artifact with the time the service
stamped and the size of the bytes read. -/
theorem mem_listArtifacts_store (hr : r.err = none) (hreply : reply = .ok t)
    (filter : ArtifactFilter) (x : Artifact) :
    x ∈ s.listArtifacts filter (s.store canonical now reply b a r).bucket ↔
      (x ∈ s.listArtifacts filter b ∧ x.path ≠ a.path) ∨
        (hasPrefix (s.artifactKey a) (s.listPrefix filter) = true ∧
          hasSuffix (s.artifactKey a) "/" = false ∧
          x = { path := a.path, lastUpdateTime := t, size := some r.bytes.length }) := by
  have hkey : (s.storedObject canonical a r.bytes t).key = s.artifactKey a := rfl
  simp only [store_of_ok hr hreply, mem_listArtifacts, Bucket.mem_put]
  constructor
  · rintro ⟨o, (⟨ho, hne⟩ | rfl), hpre, hdir, rfl⟩
    · exact .inl ⟨⟨o, ho, hpre, hdir, rfl⟩, fun hp => hne ((s.toArtifact_path_eq_iff hpre a).1 hp)⟩
    · exact .inr ⟨hkey ▸ hpre, hkey ▸ hdir, toArtifact_storedObject canonical a r.bytes t⟩
  · rintro (⟨⟨o, ho, hpre, hdir, rfl⟩, hne⟩ | ⟨hpre, hdir, rfl⟩)
    · exact ⟨o, .inl ⟨ho, fun hk => hne ((s.toArtifact_path_eq_iff hpre a).2 (hk.trans hkey))⟩,
        hpre, hdir, rfl⟩
    · exact ⟨_, .inr rfl, hkey ▸ hpre, hkey ▸ hdir, toArtifact_storedObject canonical a r.bytes t⟩

/-- After a successful `Store`, `List` of any scope reports, in some order,
what it reported before without the artifact's path and, when the artifact's
key lies in the scope and is no directory marker, the artifact with the time
the service stamped and the size of the bytes read.  The time is the
service's, not the `metav1.Now()` that `Store` gives the caller's artifact.
The order is the service's, so the statement is up to `List.Perm`. -/
theorem listArtifacts_store (hr : r.err = none) (hreply : reply = .ok t)
    (filter : ArtifactFilter) :
    (s.listArtifacts filter (s.store canonical now reply b a r).bucket).Perm
      ((s.listArtifacts filter b).filter (·.path != a.path) ++
        (if hasPrefix (s.artifactKey a) (s.listPrefix filter) && !hasSuffix (s.artifactKey a) "/"
          then [{ path := a.path, lastUpdateTime := t, size := some r.bytes.length }] else [])) := by
  have hnodup : ∀ b, (s.listArtifacts filter b).Nodup := fun b =>
    (s.listArtifacts_path_nodup filter b).of_map _
  refine (List.perm_ext_iff_of_nodup (hnodup _) (List.nodup_append.2
    ⟨(hnodup b).filter _, by split <;> simp, fun ⦃x⦄ hx hy => ?_⟩)).2 fun x => ?_
  · split at hy
    · rw [List.mem_singleton.1 hy] at hx
      simp at hx
    · exact absurd hy (List.not_mem_nil _)
  · rw [mem_listArtifacts_store hr hreply, List.mem_append, List.mem_filter, bne_iff_ne, ne_eq]
    by_cases hpre : hasPrefix (s.artifactKey a) (s.listPrefix filter) = true <;>
      by_cases hdir : hasSuffix (s.artifactKey a) "/" = true <;> simp [hpre, hdir]

/-- A second revision stored beside the first: the listing of the scope keeps
the first and adds the second, with the time the service stamped. -/
theorem listArtifacts_store_second_revision :
    let s : S3Storage := ⟨"artifacts", "", "", defaultURLExpiration⟩
    let o : Object := ⟨"gitrepository/default/app/rev1.tar.gz", [1], ⟨5⟩, "application/gzip", []⟩
    let b : Bucket := ⟨[o], List.nodup_singleton _⟩
    let a : Artifact := { path := "gitrepository/default/app/rev2.tar.gz" }
    let r : Reader := ⟨[[1, 2]], none⟩
    let filter : ArtifactFilter := ⟨"gitrepository", "default", "app"⟩
    r.err = none ∧
      (s.listArtifacts filter (s.store ⟨fun _ => "d"⟩ ⟨10⟩ (.ok ⟨20⟩) b a r).bucket).Perm
        ((s.listArtifacts filter b).filter (·.path != a.path) ++
          (if hasPrefix (s.artifactKey a) (s.listPrefix filter) && !hasSuffix (s.artifactKey a) "/"
            then [{ path := a.path, lastUpdateTime := ⟨20⟩, size := some r.bytes.length }]
            else [])) :=
  ⟨rfl, S3Storage.listArtifacts_store rfl rfl _⟩

/-- An artifact made by `NewArtifactFor` is listed in its scope after a
successful `Store`, under the lower-cased kind that `ArtifactPath` puts in its
path, with the time the service stamped and the size of the bytes read.  Its
file name must not end in a slash, which would make its key a directory
marker. -/
theorem newArtifactFor_listed_after_store (hr : r.err = none)
    (hreply : reply = .ok t) (kind : String) (metadata : ObjectMeta) (revision file : String)
    (hk : kind.toLower ≠ "") (hns : metadata.«namespace» ≠ "") (hn : metadata.name ≠ "")
    (hfile : file ≠ "") (hslash : hasSuffix file "/" = false) :
    { path := (newArtifactFor kind metadata revision file).path, lastUpdateTime := t,
        size := some r.bytes.length } ∈
      s.listArtifacts ⟨kind.toLower, metadata.«namespace», metadata.name⟩
        (s.store canonical now reply b (newArtifactFor kind metadata revision file) r).bucket := by
  have hkey : s.artifactKey (newArtifactFor kind metadata revision file) =
      s.listPrefix ⟨kind.toLower, metadata.«namespace», metadata.name⟩ ++ file := by
    by_cases hkp : s.keyPrefix = "" <;>
      simp [artifactKey, listPrefix, newArtifactFor, artifactPath, hk, hns, hn, hkp,
        String.append_assoc]
  have hlen : "/".length ≤ file.length := by
    rcases file with ⟨_ | ⟨c, cs⟩⟩
    · exact absurd rfl hfile
    · exact Nat.succ_le_succ (Nat.zero_le _)
  refine (mem_listArtifacts_store hr hreply _ _).2 (.inr ⟨?_, ?_, rfl⟩)
  · rw [hkey, hasPrefix_append]
  · rw [hkey, hasSuffix_append_of_length hlen, hslash]

/-- `GitRepository` `default/app` with the file `rev1.tar.gz`, under the key
prefix `flux`: after `Store`, its artifact is listed under
`gitrepository/default/app`. -/
theorem newArtifactFor_listed_after_store_gitrepository :
    let s : S3Storage := ⟨"artifacts", "flux", "", defaultURLExpiration⟩
    let r : Reader := ⟨[[1, 2]], none⟩
    let a := newArtifactFor "GitRepository" ⟨"app", "default"⟩ "main@sha1:0" "rev1.tar.gz"
    r.err = none ∧ "GitRepository".toLower ≠ "" ∧ hasSuffix "rev1.tar.gz" "/" = false ∧
      { path := a.path, lastUpdateTime := ⟨20⟩, size := some r.bytes.length } ∈
        s.listArtifacts ⟨"GitRepository".toLower, "default", "app"⟩
          (s.store ⟨fun _ => "d"⟩ ⟨10⟩ (.ok ⟨20⟩) Bucket.empty a r).bucket := by
  intro s r a
  have hk : "GitRepository".toLower ≠ "" := by
    rw [String.toLower, String.map_eq]
    decide
  exact ⟨rfl, hk, by decide, newArtifactFor_listed_after_store rfl rfl "GitRepository"
    ⟨"app", "default"⟩ "main@sha1:0" "rev1.tar.gz" hk (by decide) (by decide) (by decide)
    (by decide)⟩

/-- `List` reports only what `Exists` and `Retrieve` find: every listed
artifact exists, and `Retrieve` reads the bytes of the object it was listed
from, whose length is the size and whose time is the time `List` reported. -/
theorem retrieve_of_mem_listArtifacts {filter : ArtifactFilter} {b : Bucket} {x : Artifact}
    (hx : x ∈ s.listArtifacts filter b) :
    s.exists b x none = .ok true ∧ ∃ o : Object, s.retrieve b x = .ok o.content ∧
      x.size = some o.content.length ∧ x.lastUpdateTime = o.lastModified := by
  obtain ⟨o, ho, hpre, -, rfl⟩ := s.mem_listArtifacts.1 hx
  have hstat : b.stat (s.artifactKey (s.toArtifact o)) = some o := by
    rw [s.artifactKey_toArtifact hpre]
    exact Bucket.stat_eq_some_iff.2 ⟨ho, rfl⟩
  refine ⟨by simp [«exists», Bucket.statObject, hstat], o, by simp [retrieve, hstat], rfl, rfl⟩

/-- The one revision of a scope, listed and read back. -/
theorem retrieve_of_mem_listArtifacts_rev1 :
    let s : S3Storage := ⟨"artifacts", "", "", defaultURLExpiration⟩
    let o : Object := ⟨"gitrepository/default/app/rev1.tar.gz", [1, 2], ⟨5⟩, "application/gzip", []⟩
    let b : Bucket := ⟨[o], List.nodup_singleton _⟩
    let x : Artifact :=
      { path := "gitrepository/default/app/rev1.tar.gz", lastUpdateTime := ⟨5⟩, size := some 2 }
    x ∈ s.listArtifacts ⟨"gitrepository", "default", "app"⟩ b ∧
      s.exists b x none = .ok true ∧ ∃ o : Object, s.retrieve b x = .ok o.content ∧
        x.size = some o.content.length ∧ x.lastUpdateTime = o.lastModified := by
  intro s o b x
  have hx : x ∈ s.listArtifacts ⟨"gitrepository", "default", "app"⟩ b := by
    simp only [s, o, b, x]
    decide
  exact ⟨hx, retrieve_of_mem_listArtifacts hx⟩

/-- `List` misses nothing `Exists` finds: an artifact whose key lies under a
scope's prefix and is no directory marker, and whose object `Exists` reports,
is listed in that scope under its path. -/
theorem listed_of_exists {filter : ArtifactFilter} {b : Bucket} {a : Artifact}
    (hpre : hasPrefix (s.artifactKey a) (s.listPrefix filter) = true)
    (hdir : hasSuffix (s.artifactKey a) "/" = false) (hex : s.exists b a none = .ok true) :
    ∃ x ∈ s.listArtifacts filter b, x.path = a.path := by
  obtain ⟨o, ho⟩ : ∃ o, b.stat (s.artifactKey a) = some o := by
    cases hs : b.stat (s.artifactKey a) with
    | none => simp [«exists», Bucket.statObject, hs] at hex
    | some o => exact ⟨o, rfl⟩
  obtain ⟨hmem, hkey⟩ := Bucket.stat_eq_some_iff.1 ho
  exact ⟨s.toArtifact o, s.mem_listArtifacts.2 ⟨o, hmem, hkey ▸ hpre, hkey ▸ hdir, rfl⟩,
    (s.toArtifact_path_eq_iff (hkey ▸ hpre) a).2 hkey⟩

/-- The one revision of a scope, which `Exists` reports, is listed. -/
theorem listed_of_exists_rev1 :
    let s : S3Storage := ⟨"artifacts", "", "", defaultURLExpiration⟩
    let o : Object := ⟨"gitrepository/default/app/rev1.tar.gz", [1, 2], ⟨5⟩, "application/gzip", []⟩
    let b : Bucket := ⟨[o], List.nodup_singleton _⟩
    let filter : ArtifactFilter := ⟨"gitrepository", "default", "app"⟩
    let a : Artifact := { path := "gitrepository/default/app/rev1.tar.gz" }
    hasPrefix (s.artifactKey a) (s.listPrefix filter) = true ∧
      hasSuffix (s.artifactKey a) "/" = false ∧ s.exists b a none = .ok true ∧
      ∃ x ∈ s.listArtifacts filter b, x.path = a.path := by
  intro s o b filter a
  have hpre : hasPrefix (s.artifactKey a) (s.listPrefix filter) = true := by decide
  have hdir : hasSuffix (s.artifactKey a) "/" = false := by decide
  have hex : s.exists b a none = .ok true := rfl
  exact ⟨hpre, hdir, hex, listed_of_exists hpre hdir hex⟩

end S3Storage

end SourceController

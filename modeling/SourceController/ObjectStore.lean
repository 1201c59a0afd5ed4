import Mathlib.Data.List.Nodup
import SourceController.Artifact

/-!
# The object store behind `S3Storage`

`S3Storage` reaches an S3-compatible store through a MinIO client.  The store
is outside the repository.  This module models the state it keeps and the
verbs the storage package calls: `PutObject`, `StatObject`, `RemoveObject`,
`ListObjects` and `GetObject`.

A `Bucket` is a list of objects whose keys are pairwise distinct; the
structure carries that fact, so no bucket with two objects under one key can
be built.  `ListObjects` of S3 returns the keys in lexical order of their
UTF-8 bytes; the model returns them in the order of the list, and `put` adds
a new object at its end, so the model's order is not the service's.  What
the development says about a listing therefore does not rest on its order: it
is stated by membership (`mem_listObjects`, `mem_put`), up to `List.Perm`, or
for every bucket and so for every order, the lexical one among them.  A
filter keeps the relative order of what it keeps, so a listing after a
removal is the earlier listing filtered, in either order.

A verb that the service can refuse takes the service's reply as an argument:
`Bucket.putObject` takes the error or the modification time the service
stamps.  A refused request changes nothing, which is the service's contract
for a single `PUT` or `DELETE`.

The lemmas say what each verb does to `Bucket.stat`, the lookup by key, and
which objects `Bucket.listObjects` returns.
-/

namespace SourceController

/-- An object as the store keeps it: its key, its bytes, and what the `PUT`
that wrote it recorded. -/
structure Object where
  key : String
  content : Bytes
  lastModified : Time
  contentType : String
  userMetadata : List (String × String)
  deriving DecidableEq, Repr

/-- The objects of the bucket the storage is configured with.  Keys are
unique. -/
structure Bucket where
  objects : List Object
  nodup : (objects.map Object.key).Nodup

/-- `minio.ErrorResponse`, with the field `Exists` reads and the message it
wraps. -/
structure ErrorResponse where
  code : String
  message : String
  deriving DecidableEq, Repr

namespace Bucket

/-- The bucket with no object. -/
def empty : Bucket := ⟨[], List.nodup_nil⟩

/-- The object stored under `key`, if any. -/
def stat (b : Bucket) (key : String) : Option Object := b.objects.find? (·.key == key)

/-- The bucket without the object under `key`; a missing key is no error. -/
def remove (b : Bucket) (key : String) : Bucket where
  objects := b.objects.filter (·.key != key)
  nodup := b.nodup.sublist ((List.filter_sublist _).map _)

/-- The bucket after a successful `PUT` of `o`, which replaces any object under
`o.key`. -/
def put (b : Bucket) (o : Object) : Bucket where
  objects := (b.remove o.key).objects ++ [o]
  nodup := by
    rw [List.map_append, List.nodup_append]
    refine ⟨(b.remove o.key).nodup, List.nodup_singleton _, ?_⟩
    simp [remove, List.disjoint_singleton]

/-- `ListObjects` with `Recursive: true`: every object whose key starts with
`pre`, in the bucket's order. -/
def listObjects (b : Bucket) (pre : String) : List Object :=
  b.objects.filter (hasPrefix ·.key pre)

/-- `PutObject`: the object written under `key`, stamped with the time the
service replies with, or the service's error and the bucket unchanged. -/
def putObject (b : Bucket) (key : String) (content : Bytes) (contentType : String)
    (userMetadata : List (String × String)) (reply : Except String Time) :
    Except String Bucket :=
  reply.map fun t => b.put ⟨key, content, t, contentType, userMetadata⟩

/-- `StatObject`: the object under `key`, the `NoSuchKey` response when there is
none, or the error of a failed request. -/
def statObject (b : Bucket) (key : String) (fault : Option ErrorResponse) :
    Except ErrorResponse Object :=
  match fault, b.stat key with
  | some e, _ => .error e
  | none, some o => .ok o
  | none, none => .error ⟨"NoSuchKey", "The specified key does not exist."⟩

/-- `RemoveObject`: the bucket without `key`, or the service's error and the
bucket unchanged. -/
def removeObject (b : Bucket) (key : String) (fault : Option String) :
    Except String Bucket :=
  match fault with
  | some e => .error e
  | none => .ok (b.remove key)

/-! ## Lookup by key -/

theorem stat_eq_some_iff {b : Bucket} {key : String} {o : Object} :
    b.stat key = some o ↔ o ∈ b.objects ∧ o.key = key := by
  constructor
  · intro h
    have := List.find?_some h
    exact ⟨List.mem_of_find?_eq_some h, by simpa using this⟩
  · rintro ⟨hmem, rfl⟩
    obtain ⟨o', ho'⟩ := Option.isSome_iff_exists.1
      (List.find?_isSome.2 ⟨o, hmem, by simp⟩ : (b.stat o.key).isSome)
    have hmem' := List.mem_of_find?_eq_some ho'
    have hkey : o'.key = o.key := by simpa using List.find?_some ho'
    rw [stat, ho', (List.inj_on_of_nodup_map b.nodup hmem' hmem hkey)]

theorem stat_eq_none_iff {b : Bucket} {key : String} :
    b.stat key = none ↔ ∀ o ∈ b.objects, o.key ≠ key := by
  simp [stat, List.find?_eq_none]

@[simp] theorem stat_remove (b : Bucket) (k key : String) :
    (b.remove k).stat key = if key = k then none else b.stat key := by
  split_ifs with h
  · subst h
    simp [stat_eq_none_iff, remove]
  · simp only [stat, remove]
    rw [List.find?_filter]
    congr 1
    funext o
    by_cases ho : o.key = key
    · simp [ho, h]
    · simp [ho]

/-- The objects after a `PUT`: the new one, and every earlier one under
another key. -/
theorem mem_put {b : Bucket} {o o' : Object} :
    o' ∈ (b.put o).objects ↔ (o' ∈ b.objects ∧ o'.key ≠ o.key) ∨ o' = o := by
  simp [put, remove]

@[simp] theorem stat_put (b : Bucket) (o : Object) (key : String) :
    (b.put o).stat key = if key = o.key then some o else b.stat key := by
  split_ifs with h
  · subst h
    exact stat_eq_some_iff.2 ⟨by simp [put], rfl⟩
  · have hr := stat_remove b o.key key
    rw [if_neg h] at hr
    simp only [stat, put, List.find?_append] at hr ⊢
    rw [hr]
    cases b.stat key <;> simp [Ne.symm h]

/-! ## Listing -/

@[simp] theorem mem_listObjects {b : Bucket} {pre : String} {o : Object} :
    o ∈ b.listObjects pre ↔ o ∈ b.objects ∧ hasPrefix o.key pre = true := by
  simp [listObjects]

/-- The keys that `ListObjects` returns are pairwise distinct. -/
theorem listObjects_nodup (b : Bucket) (pre : String) :
    ((b.listObjects pre).map Object.key).Nodup :=
  b.nodup.sublist ((List.filter_sublist _).map _)

end Bucket

end SourceController

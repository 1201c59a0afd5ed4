import SourceController.Retention

/-!
# `AdaptedStorage` over an `S3Storage`

`AdaptedStorage` gives a provider the methods of the legacy
`controller.Storage`.  `RemoveAll` and `GarbageCollect` take an artifact,
build a filter from the first three segments of its path with `extractKind`,
`extractNamespace` and `extractName`, and hand the filter to the provider's
`List` and `Delete` or to its `GarbageCollect`.  This module models both over
an `S3Storage` provider; the filesystem provider delegates them to the legacy
storage, which is not among the sources.

The main result is `adapted_removeAll_garbageCollect_scoped`: for an artifact
whose path has at least three segments, both calls delete only objects whose
path starts with the same three segments.  It rests on
`listArtifacts_scopeFilter`: the prefix `List` asks for is the scope's three
segments each followed by a slash, so a listed path starts with them, and a
neighbouring name that merely extends the scope's name (`app2` next to `app`)
is never listed.

`removeAll_empties_scope` is the other half: after a `RemoveAll` that
succeeds, `List` of the scope is empty.  `removeAll_error_deletes_prefix` says
what one that fails leaves: the deletions stop at the first that fails, so
exactly the artifacts listed before it are gone.
-/

namespace SourceController

/-- The filter `RemoveAll` and `GarbageCollect` build from an artifact's path. -/
def scopeFilter (path : String) : ArtifactFilter :=
  { kind := extractKind path, «namespace» := extractNamespace path, name := extractName path }

/-- `AdaptedStorage` over an `S3Storage`: the retention settings of its
embedded `controller.Storage`, and the provider. -/
structure AdaptedStorage where
  retentionTTL : Int
  retentionRecords : Int
  provider : S3Storage

/-- `NewAdaptedStorage`; the base path and host name it also records are read
by no modelled method. -/
def newAdaptedStorage (provider : S3Storage) (retentionTTL retentionRecords : Int) :
    AdaptedStorage :=
  ⟨retentionTTL, retentionRecords, provider⟩

namespace AdaptedStorage

variable (st : AdaptedStorage)

/-- The loop of `RemoveAll`: `Delete` every listed artifact in turn, stopping at
the first error.  `fault key` is the error `RemoveObject` meets on `key`. -/
def deleteEach (s : S3Storage) (fault : String → Option String) :
    Bucket → List Artifact → Bucket × Option String
  | b, [] => (b, none)
  | b, a :: as =>
    match s.delete b a (fault (s.artifactKey a)) with
    | .ok b' => deleteEach s fault b' as
    | .error e => (b, some e)

/-- `RemoveAll`: list the artifact's scope and delete what is listed. -/
def removeAll (b : Bucket) (listFault : Option String) (fault : String → Option String)
    (artifact : Artifact) : Bucket × Except String String :=
  match st.provider.list (scopeFilter artifact.path) b listFault with
  | .error e => (b, .error e)
  | .ok artifacts =>
    match deleteEach st.provider fault b artifacts with
    | (b', some e) => (b', .error e)
    | (b', none) => (b', .ok ("removed " ++ toString artifacts.length ++ " artifacts"))

/-- `GarbageCollect`: the provider's collection of the artifact's scope under
the storage's retention settings.  The deadline shows as faults of the calls
it cuts short. -/
def garbageCollect (b : Bucket) (now : Time) (listFault : Option String)
    (fault : String → Option String) (artifact : Artifact) :
    Bucket × Except String (List String) :=
  st.provider.garbageCollect b (scopeFilter artifact.path) ⟨st.retentionTTL, st.retentionRecords⟩
    now listFault fault

end AdaptedStorage

/-! ## The scope of a path -/

theorem scopeFilter_of_splitPath {path k ns n : String} {rest : List String}
    (h : splitPath path = k :: ns :: n :: rest) : scopeFilter path = ⟨k, ns, n⟩ := by
  simp [scopeFilter, extractKind_eq_pathSegment, extractNamespace, extractName, pathSegment, h]

namespace S3Storage

variable (s : S3Storage)

/-- The prefix `List` asks for a scope of three segments. -/
theorem listPrefix_scope {k ns n : String} (hk : k ≠ "") (hns : ns ≠ "") (hn : n ≠ "") :
    s.listPrefix ⟨k, ns, n⟩ =
      (if s.keyPrefix ≠ "" then s.keyPrefix ++ "/" else "") ++
        (k ++ "/" ++ ns ++ "/" ++ n ++ "/") := by
  simp [listPrefix, hk, hns, hn, String.append_assoc]

/-- Every path `List` reports for the scope of a path with three segments or
more starts with the same three segments. -/
theorem listArtifacts_scopeFilter {path : String} (h : 3 ≤ (splitPath path).length)
    {b : Bucket} {a : Artifact} (ha : a ∈ s.listArtifacts (scopeFilter path) b) :
    (splitPath a.path).take 3 = (splitPath path).take 3 := by
  obtain ⟨k, ns, n, rest, hsplit⟩ : ∃ k ns n rest, splitPath path = k :: ns :: n :: rest := by
    match hs : splitPath path, h with
    | k :: ns :: n :: rest, _ => exact ⟨k, ns, n, rest, rfl⟩
  have hk := mem_splitPath (hsplit ▸ List.mem_cons_self k _ : k ∈ splitPath path)
  have hns := mem_splitPath (hsplit ▸ by simp : ns ∈ splitPath path)
  have hn := mem_splitPath (hsplit ▸ by simp : n ∈ splitPath path)
  obtain ⟨o, -, hpre, -, rfl⟩ := s.mem_listArtifacts.1 ha
  rw [scopeFilter_of_splitPath hsplit, s.listPrefix_scope hk.1 hns.1 hn.1] at hpre
  have hkey := append_trimPrefix hpre
  set rest' := trimPrefix o.key ((if s.keyPrefix ≠ "" then s.keyPrefix ++ "/" else "") ++
    (k ++ "/" ++ ns ++ "/" ++ n ++ "/"))
  have hpath : (s.toArtifact o).path = k ++ "/" ++ ns ++ "/" ++ n ++ "/" ++ rest' := by
    unfold toArtifact
    split_ifs with hp
    · rw [← hkey, if_pos hp, String.append_assoc, trimPrefix_append]
    · rw [← hkey, if_neg hp, String.empty_append]
  rw [hpath, splitPath_scope hk hns hn, hsplit]
  rfl

end S3Storage

/-! ## What the deletions touch -/

/-- `RemoveAll`'s loop leaves a key as it was or removes it, and removes only
keys of the artifacts it was given. -/
theorem stat_deleteEach (s : S3Storage) (fault : String → Option String) :
    ∀ (b : Bucket) (as : List Artifact) (key : String),
      (AdaptedStorage.deleteEach s fault b as).1.stat key = b.stat key ∨
        ((AdaptedStorage.deleteEach s fault b as).1.stat key = none ∧
          ∃ a ∈ as, s.artifactKey a = key)
  | b, [], key => .inl rfl
  | b, a :: as, key => by
    unfold AdaptedStorage.deleteEach
    split
    · rename_i b' hdel
      rcases stat_deleteEach s fault b' as key with h | ⟨h, a', ha', hk⟩
      · rcases s.stat_delete hdel key with h' | ⟨h', hk⟩
        · exact .inl (h.trans h')
        · exact .inr ⟨h.trans h', a, List.mem_cons_self _ _, hk⟩
      · exact .inr ⟨h, a', List.mem_cons_of_mem _ ha', hk⟩
    · exact .inl rfl

/-- After a listing that succeeds, `RemoveAll` leaves the bucket its loop
leaves, whether or not a deletion failed. -/
theorem AdaptedStorage.removeAll_bucket (st : AdaptedStorage) (b : Bucket)
    (fault : String → Option String) (a : Artifact) :
    (st.removeAll b none fault a).1 =
      (deleteEach st.provider fault b (st.provider.listArtifacts (scopeFilter a.path) b)).1 := by
  simp only [removeAll, S3Storage.list]
  split <;> rename_i heq <;> rw [heq]

/-- The objects a call may delete: it leaves every key as it was or removes
it, and it removes only keys of objects whose path starts with the three
segments `path` starts with. -/
def DeletesWithin (s : S3Storage) (path : String) (b b' : Bucket) : Prop :=
  ∀ key, b'.stat key ≠ b.stat key → b'.stat key = none ∧
    ∃ o ∈ b.objects, o.key = key ∧ (splitPath (s.toArtifact o).path).take 3 = (splitPath path).take 3

/-- A key of a listed artifact of the scope of `path` is the key of an object
of the bucket whose path starts with the scope's segments. -/
theorem listed_key_within {s : S3Storage} {path : String} (h : 3 ≤ (splitPath path).length)
    {b : Bucket} {a : Artifact} (ha : a ∈ s.listArtifacts (scopeFilter path) b) :
    ∃ o ∈ b.objects, o.key = s.artifactKey a ∧
      (splitPath (s.toArtifact o).path).take 3 = (splitPath path).take 3 := by
  have hscope := s.listArtifacts_scopeFilter h ha
  obtain ⟨o, ho, hpre, -, rfl⟩ := s.mem_listArtifacts.1 ha
  exact ⟨o, ho, (s.artifactKey_toArtifact hpre).symm, hscope⟩

/-- For every artifact whose path has at least three segments, `RemoveAll` and
`GarbageCollect` of an `AdaptedStorage` over an `S3Storage` delete only
objects whose path starts with the same three segments, whatever the bucket,
the clock, the retention settings and the faults. -/
theorem adapted_removeAll_garbageCollect_scoped (st : AdaptedStorage) (b : Bucket) (now : Time)
    (listFault : Option String) (fault : String → Option String) (a : Artifact)
    (h : 3 ≤ (splitPath a.path).length) :
    DeletesWithin st.provider a.path b (st.removeAll b listFault fault a).1 ∧
      DeletesWithin st.provider a.path b (st.garbageCollect b now listFault fault a).1 := by
  constructor
  · intro key hkey
    cases listFault with
    | some e => exact absurd rfl hkey
    | none =>
      rw [AdaptedStorage.removeAll_bucket] at hkey ⊢
      rcases stat_deleteEach st.provider fault b _ key with hc | ⟨hnone, a', ha', rfl⟩
      · exact absurd hc hkey
      · exact ⟨hnone, listed_key_within h ha'⟩
  · intro key hkey
    unfold AdaptedStorage.garbageCollect at hkey ⊢
    cases listFault with
    | some e => exact absurd rfl hkey
    | none =>
      rw [S3Storage.garbageCollect_of_listed] at hkey ⊢
      rcases st.provider.stat_deleteAll_cases fault b _ key with hc | ⟨hnone, p, hp, rfl⟩
      · exact absurd hc hkey
      · obtain ⟨a', ha', rfl⟩ := exists_of_mem_toDelete hp
        have ha'' := (sortArtifactsByTime_perm _).subset ha'
        obtain ⟨o, ho, hkey', hscope⟩ := listed_key_within h ha''
        exact ⟨hnone, o, ho, hkey'.trans (st.provider.artifactKey_congr rfl), hscope⟩

/-- A bucket that holds two revisions of `app` and one of its neighbour
`app2`, whose name has `app` as a string prefix, all older than the TTL: the
removals of `RemoveAll` and `GarbageCollect` for `app/rev1.tar.gz` stay within
`gitrepository/default/app`: both remove `app/rev2.tar.gz`, and both leave
`app2`'s object. -/
theorem adapted_removeAll_garbageCollect_scoped_app :
    let st : AdaptedStorage := newAdaptedStorage ⟨"artifacts", "", "", defaultURLExpiration⟩
      3600000000000 10
    let obj : String → Object := fun key => ⟨key, [1], ⟨0⟩, "application/gzip", []⟩
    let b : Bucket := ⟨[obj "gitrepository/default/app/rev1.tar.gz",
      obj "gitrepository/default/app/rev2.tar.gz", obj "gitrepository/default/app2/rev1.tar.gz"],
      by decide⟩
    let a : Artifact := { path := "gitrepository/default/app/rev1.tar.gz" }
    let now : Time := ⟨7200000000000⟩
    3 ≤ (splitPath a.path).length ∧
      (DeletesWithin st.provider a.path b (st.removeAll b none (fun _ => none) a).1 ∧
        DeletesWithin st.provider a.path b (st.garbageCollect b now none (fun _ => none) a).1) ∧
      (st.removeAll b none (fun _ => none) a).1.stat "gitrepository/default/app/rev2.tar.gz" = none ∧
      (st.garbageCollect b now none (fun _ => none) a).1.stat
          "gitrepository/default/app/rev2.tar.gz" = none ∧
      (st.removeAll b none (fun _ => none) a).1.stat "gitrepository/default/app2/rev1.tar.gz" =
        some (obj "gitrepository/default/app2/rev1.tar.gz") ∧
      (st.garbageCollect b now none (fun _ => none) a).1.stat
          "gitrepository/default/app2/rev1.tar.gz" =
        some (obj "gitrepository/default/app2/rev1.tar.gz") := by
  intro st obj b a now
  exact ⟨by decide, adapted_removeAll_garbageCollect_scoped st b now none _ a (by decide),
    by simp only [st, obj, b, a]; rfl, by simp only [st, obj, b, a, now]; rfl,
    by simp only [st, obj, b, a]; rfl, by simp only [st, obj, b, a, now]; rfl⟩

/-! ## What a successful `RemoveAll` leaves -/

/-- When every deletion of `RemoveAll`'s loop succeeds, the deleted paths are
gone from every listing. -/
theorem listArtifacts_deleteEach (s : S3Storage) (fault : String → Option String)
    (filter : ArtifactFilter) :
    ∀ (b : Bucket) (as : List Artifact) {b' : Bucket},
      AdaptedStorage.deleteEach s fault b as = (b', none) →
      s.listArtifacts filter b' =
        (s.listArtifacts filter b).filter (fun x => x.path ∉ as.map Artifact.path)
  | b, [], b', h => by
    cases h
    simp
  | b, a :: as, b', h => by
    unfold AdaptedStorage.deleteEach at h
    split at h
    · rename_i b₁ hdel
      rw [listArtifacts_deleteEach s fault filter b₁ as h, s.delete_ok hdel,
        S3Storage.listArtifacts_remove, List.filter_filter]
      refine List.filter_congr fun x _ => ?_
      by_cases hx : x.path = a.path <;> simp [hx]
    · cases h

/-- After a `RemoveAll` that succeeds, `List` of the artifact's scope is empty:
every artifact the scope held is gone, and under the scope's prefix only
directory markers can remain. -/
theorem removeAll_empties_scope (st : AdaptedStorage) (b : Bucket) (listFault : Option String)
    (fault : String → Option String) (a : Artifact) {msg : String}
    (h : (st.removeAll b listFault fault a).2 = .ok msg) :
    st.provider.listArtifacts (scopeFilter a.path) (st.removeAll b listFault fault a).1 = [] := by
  cases listFault with
  | some e => cases h
  | none =>
    simp only [AdaptedStorage.removeAll, S3Storage.list] at h ⊢
    rcases hd : AdaptedStorage.deleteEach st.provider fault b
      (st.provider.listArtifacts (scopeFilter a.path) b) with ⟨b', _ | e⟩
    · rw [listArtifacts_deleteEach st.provider fault _ b _ hd, List.filter_eq_nil_iff]
      exact fun x hx => by simpa using List.mem_map_of_mem Artifact.path hx
    · rw [hd] at h
      cases h

/-- A scope with two artifacts and a directory marker, beside another scope:
`RemoveAll` succeeds and the scope lists nothing afterwards. -/
theorem removeAll_empties_scope_app :
    let st : AdaptedStorage := newAdaptedStorage ⟨"artifacts", "", "", defaultURLExpiration⟩
      3600000000000 10
    let obj : String → Object := fun key => ⟨key, [1], ⟨0⟩, "application/gzip", []⟩
    let b : Bucket := ⟨[obj "gitrepository/default/app/", obj "gitrepository/default/app/rev1.tar.gz",
      obj "gitrepository/default/app/rev2.tar.gz", obj "gitrepository/default/app2/rev1.tar.gz"],
      by decide⟩
    let a : Artifact := { path := "gitrepository/default/app/rev2.tar.gz" }
    (st.removeAll b none (fun _ => none) a).2 = .ok "removed 2 artifacts" ∧
      st.provider.listArtifacts (scopeFilter a.path) (st.removeAll b none (fun _ => none) a).1 =
        [] := by
  intro st obj b a
  have h : (st.removeAll b none (fun _ => none) a).2 = .ok "removed 2 artifacts" := by
    simp only [st, obj, b, a]
    rfl
  exact ⟨h, removeAll_empties_scope st b none (fun _ => none) a h⟩

/-! ## What a failed `RemoveAll` leaves -/

/-- `RemoveAll`'s loop stops at the first deletion that fails: the objects of
the artifacts before it are gone, and every other key is as it was, the key
it failed on included. -/
theorem deleteEach_error (s : S3Storage) (fault : String → Option String) :
    ∀ (b : Bucket) (as : List Artifact) {b' : Bucket} {e : String},
      AdaptedStorage.deleteEach s fault b as = (b', some e) →
      ∃ pre x post, as = pre ++ x :: post ∧ (∀ y ∈ pre, fault (s.artifactKey y) = none) ∧
        fault (s.artifactKey x) ≠ none ∧
        ∀ key, b'.stat key = if key ∈ pre.map s.artifactKey then none else b.stat key
  | b, [], _, _, h => by cases h
  | b, a :: as, b', e, h => by
    unfold AdaptedStorage.deleteEach at h
    split at h
    · rename_i b₁ hdel
      obtain ⟨pre, x, post, rfl, hpre, hx, hstat⟩ := deleteEach_error s fault b₁ as h
      have hfa : fault (s.artifactKey a) = none := by
        revert hdel
        cases fault (s.artifactKey a) <;> simp [S3Storage.delete, Bucket.removeObject]
      refine ⟨a :: pre, x, post, rfl, List.forall_mem_cons.2 ⟨hfa, hpre⟩, hx, fun key => ?_⟩
      rw [hstat, s.delete_ok hdel, Bucket.stat_remove]
      by_cases hk : key = s.artifactKey a <;> simp [hk]
    · rename_i hdel
      cases h
      refine ⟨[], a, as, rfl, by simp, fun hnone => ?_, fun key => by simp⟩
      simp [S3Storage.delete, Bucket.removeObject, hnone] at hdel

/-- A `RemoveAll` that fails leaves a bucket one can name: a failed listing
deletes nothing, and after a successful listing the deletions stop at the
first that fails, so the objects of the artifacts listed before it are gone
and every other object, the one it failed on included, is as it was. -/
theorem removeAll_error_deletes_prefix (st : AdaptedStorage) (b : Bucket)
    (listFault : Option String) (fault : String → Option String) (a : Artifact) {e : String}
    (h : (st.removeAll b listFault fault a).2 = .error e) :
    (listFault ≠ none ∧ (st.removeAll b listFault fault a).1 = b) ∨
      (listFault = none ∧ ∃ pre x post,
        st.provider.listArtifacts (scopeFilter a.path) b = pre ++ x :: post ∧
        (∀ y ∈ pre, fault (st.provider.artifactKey y) = none) ∧
        fault (st.provider.artifactKey x) ≠ none ∧
        ∀ key, (st.removeAll b listFault fault a).1.stat key =
          if key ∈ pre.map st.provider.artifactKey then none else b.stat key) := by
  cases listFault with
  | some lf => exact .inl ⟨by simp, rfl⟩
  | none =>
    refine .inr ⟨rfl, ?_⟩
    simp only [AdaptedStorage.removeAll, S3Storage.list] at h ⊢
    rcases hd : AdaptedStorage.deleteEach st.provider fault b
      (st.provider.listArtifacts (scopeFilter a.path) b) with ⟨b', _ | e'⟩
    · rw [hd] at h
      cases h
    · exact deleteEach_error st.provider fault b _ hd

/-- A scope with two artifacts whose second deletion is refused: `RemoveAll`
fails after removing the first, and the second is still there. -/
theorem removeAll_error_deletes_prefix_denied :
    let st : AdaptedStorage := newAdaptedStorage ⟨"artifacts", "", "", defaultURLExpiration⟩
      3600000000000 10
    let obj : String → Object := fun key => ⟨key, [1], ⟨0⟩, "application/gzip", []⟩
    let b : Bucket := ⟨[obj "gitrepository/default/app/rev1.tar.gz",
      obj "gitrepository/default/app/rev2.tar.gz"], by decide⟩
    let fault : String → Option String := fun key =>
      if key = "gitrepository/default/app/rev2.tar.gz" then some "Access Denied." else none
    let a : Artifact := { path := "gitrepository/default/app/rev2.tar.gz" }
    (st.removeAll b none fault a).2 = .error "failed to delete object from S3: Access Denied." ∧
      ((none : Option String) ≠ none ∧ (st.removeAll b none fault a).1 = b ∨
        (none : Option String) = none ∧ ∃ pre x post,
          st.provider.listArtifacts (scopeFilter a.path) b = pre ++ x :: post ∧
          (∀ y ∈ pre, fault (st.provider.artifactKey y) = none) ∧
          fault (st.provider.artifactKey x) ≠ none ∧
          ∀ key, (st.removeAll b none fault a).1.stat key =
            if key ∈ pre.map st.provider.artifactKey then none else b.stat key) := by
  intro st obj b fault a
  have h : (st.removeAll b none fault a).2 = .error "failed to delete object from S3: Access Denied." := by
    simp only [st, obj, b, fault, a]
    rfl
  exact ⟨h, removeAll_error_deletes_prefix st b none fault a h⟩

end SourceController

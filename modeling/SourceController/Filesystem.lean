import SourceController.Archive

/-!
# The filesystem backend

`FilesystemStorage` wraps the legacy `controller.Storage` of
`internal/controller`, which is not among the sources.  The spec describes
that storage: artifacts are files `<base>/<kind>/<namespace>/<name>/<file>`,
`Store` creates the artifact's directory and writes the bytes to a temporary
file that it renames over the artifact's file, `Exists` stats the file, and
URLs are `http://<hostname>/<path>`.  `Storage` and its functions follow those
words; each says so.

`FilesystemStorage` itself is in the sources: its `Store`, `Retrieve`,
`Exists`, `GetURL`, `Healthy` and `List` are modelled as the code has them, over
the local file system of `LocalFs`.  `List` walks the directory of the
filter's scope and reports every file that is not a lock file and lies at
least four elements below the base path.

The main results are:

* `FilesystemStorage.resolve_store`: a successful `Store` leaves at the
  artifact's path a file of mode `0600` with the bytes the reader delivered;
* `FilesystemStorage.store_keeps_other_files`: and it changes no other file:
  `MkdirAll` only adds directories, and the `rename` of `AtomicWriteFile`
  replaces only the artifact's own entry;
* `FilesystemStorage.list_of_lstat_error`: for a scope that has no directory
  yet, `List` fails with the error `filepath.Walk` reports for its root;
* `filesystem_list_fails_for_unstored_scope`: so on the scope of an artifact
  that was never stored, the two backends disagree: `S3Storage.List` returns
  an empty listing.
-/

namespace SourceController

/-! ## The legacy storage -/

/-- Modelled from the spec: `controller.Storage`, from `internal/controller`,
which is not among the sources: the base path of the files, the host name of
their URLs, and the retention settings. -/
structure Storage where
  basePath : String
  hostname : String
  retentionTTL : Int
  retentionRecords : Int
  deriving DecidableEq, Repr

/-- The entry `rename(2)` leaves in a directory: any entry but a directory is
replaced. -/
def renameEntry (n : Node) (name : String) : Node → Except Errno Node
  | .dir es =>
    match es.lookup name with
    | some (.dir _) => .error .isdir
    | _ => .ok (.dir (setEntry es name n))
  | _ => .error .notdir

namespace Storage

variable (st : Storage)

/-- Modelled from the spec: `LocalPath`, the file of an artifact,
`<base>/<path>`. -/
def localPath (a : Artifact) : String := FilePath.join [st.basePath, a.path]

/-- Modelled from the spec: `ArtifactExist`, which stats the artifact's
file. -/
def artifactExist (fs : Fs) (a : Artifact) : Bool :=
  match fs.stat (st.localPath a) with
  | .ok _ => true
  | .error _ => false

/-- Modelled from the spec: `SetArtifactURL`, which stamps
`http://<hostname>/<path>`. -/
def setArtifactURL (a : Artifact) : Artifact :=
  { a with url := "http://" ++ st.hostname ++ "/" ++ a.path }

/-- Modelled from the spec: `MkdirAll`, which creates the directory of the
artifact's file. -/
def mkdirAll (fs : Fs) (a : Artifact) : Except String Fs :=
  fs.mkdirAll (FilePath.dir (st.localPath a))

/-- Modelled from the spec: `AtomicWriteFile`, which writes what the reader
delivers to a temporary file beside the artifact's file while hashing and
counting it, gives it `mode`, renames it over the artifact's file, and sets the
artifact's digest, size and time. -/
def atomicWriteFile (canonical : Algorithm) (now : Time) (fs : Fs) (a : Artifact) (r : Reader)
    (mode : Nat) : Except String (Fs × Artifact) :=
  match r.err with
  | some e => .error e
  | none =>
    match fs.changeEntry "rename" (st.localPath a) (renameEntry (.file mode r.bytes now fs.owner)) with
    | .error e => .error e
    | .ok fs' =>
      .ok (fs', { a with digest := canonical.digest r.bytes, size := some r.bytes.length,
                         lastUpdateTime := now })

end Storage

/-! ## `FilesystemStorage` -/

/-- `FilesystemStorage`: the legacy storage it embeds. -/
structure FilesystemStorage where
  storage : Storage
  deriving DecidableEq, Repr

/-- `NewFilesystemStorage`: `created` is the outcome of the legacy
`NewStorage`. -/
def newFilesystemStorage (basePath hostname : String) (retentionTTL retentionRecords : Int)
    (created : Except String Unit) : Except String FilesystemStorage :=
  match created with
  | .error e => .error ("failed to create legacy storage: " ++ e)
  | .ok () => .ok ⟨⟨basePath, hostname, retentionTTL, retentionRecords⟩⟩

namespace FilesystemStorage

variable (fss : FilesystemStorage)

/-- `Store`: `MkdirAll`, then `AtomicWriteFile` with mode `0600`. -/
def store (canonical : Algorithm) (now : Time) (fs : Fs) (a : Artifact) (r : Reader) :
    Except String (Fs × Artifact) :=
  match fss.storage.mkdirAll fs a with
  | .error e => .error ("failed to create artifact directory: " ++ e)
  | .ok fs₁ =>
    match fss.storage.atomicWriteFile canonical now fs₁ a r 0o600 with
    | .error e => .error ("failed to write artifact: " ++ e)
    | .ok res => .ok res

/-- `Retrieve`: the bytes of the artifact's file, if it exists. -/
def retrieve (fs : Fs) (a : Artifact) : Except String Reader :=
  if fss.storage.artifactExist fs a then
    match fs.open (fss.storage.localPath a) with
    | .error e => .error ("failed to open artifact: " ++ e)
    | .ok r => .ok r
  else .error ("artifact not found: " ++ a.path)

/-- `Exists`: `ArtifactExist`, never an error. -/
def «exists» (fs : Fs) (a : Artifact) : Except String Bool := .ok (fss.storage.artifactExist fs a)

/-- `GetURL`: the artifact's URL, stamped first when it has none. -/
def getURL (a : Artifact) : String × Artifact :=
  if a.url = "" then ((fss.storage.setArtifactURL a).url, fss.storage.setArtifactURL a)
  else (a.url, a)

/-- `Healthy`: whether the base path can be stat'ed. -/
def healthy (fs : Fs) : Except String Unit :=
  match fs.stat fss.storage.basePath with
  | .ok _ => .ok ()
  | .error e => .error ("storage path not accessible: " ++ e)

/-- The directory `List` walks: the base path joined with each filter field
that is set, up to the first that is not. -/
def listRoot (filter : ArtifactFilter) : String :=
  if filter.kind = "" then fss.storage.basePath else
  let p := FilePath.join [fss.storage.basePath, filter.kind]
  if filter.«namespace» = "" then p else
  let p := FilePath.join [p, filter.«namespace»]
  if filter.name = "" then p else FilePath.join [p, filter.name]

/-- The walk function of `List`: directories and lock files are skipped, and a
file at least four elements below the base path is reported under its path
relative to the base path, with its modification time and URL. -/
def listVisit (acc : List Artifact) (path : String) (info : Option FileInfo)
    (err : Option String) : List Artifact × WalkResult :=
  match err, info with
  | some e, _ => (acc, .error e)
  | none, none => (acc, .ok)
  | none, some info =>
    if info.isDir || hasSuffix path ".lock" then (acc, .ok)
    else
      match FilePath.rel fss.storage.basePath path with
      | .error e => (acc, .error e)
      | .ok relPath =>
        if (relPath.data.splitOn '/').length < 4 then (acc, .ok)
        else (acc ++ [fss.storage.setArtifactURL { path := relPath, lastUpdateTime := info.modTime }],
          .ok)

/-- `List`: walk the scope's directory. -/
def list (fs : Fs) (filter : ArtifactFilter) : Except String (List Artifact) :=
  match fs.walk fss.listVisit (fss.listRoot filter) [] with
  | (_, .error e) => .error ("failed to list artifacts: " ++ e)
  | (acc, _) => .ok acc

end FilesystemStorage

/-! ## What `Store` leaves on disk -/

theorem renameEntry_eq_ok {n : Node} {name : String} {m m' : Node}
    (h : renameEntry n name m = .ok m') : ∃ es, m = .dir es ∧ m' = .dir (setEntry es name n) := by
  cases m with
  | dir es =>
    simp only [renameEntry] at h
    split at h
    · cases h
    · exact ⟨es, rfl, (Except.ok.inj h).symm⟩
  | file _ _ _ _ => cases h
  | other => cases h

section Store

variable {canonical : Algorithm} {now : Time} {fs fs' : Fs} {a a' : Artifact} {r : Reader}

/-- A successful `AtomicWriteFile` read the whole reader, left a file of the
given mode with its bytes at the artifact's path, and stamped the artifact. -/
theorem Storage.resolve_atomicWriteFile {st : Storage} {mode : Nat}
    (h : st.atomicWriteFile canonical now fs a r mode = .ok (fs', a')) :
    r.err = none ∧ fs'.resolve (st.localPath a) = .ok (.file mode r.bytes now fs.owner) ∧
      a' = { a with digest := canonical.digest r.bytes, size := some r.bytes.length,
                    lastUpdateTime := now } := by
  unfold Storage.atomicWriteFile at h
  cases hr : r.err with
  | some e => simp [hr] at h
  | none =>
    cases hc : fs.changeEntry "rename" (st.localPath a)
        (renameEntry (.file mode r.bytes now fs.owner)) with
    | error e => simp [hr, hc] at h
    | ok fs₂ =>
      simp only [hr, hc, Except.ok.injEq, Prod.mk.injEq] at h
      obtain ⟨rfl, rfl⟩ := h
      obtain ⟨name, m, m', hm, hres⟩ := Fs.resolve_changeEntry hc
      obtain ⟨es, -, rfl⟩ := renameEntry_eq_ok hm
      exact ⟨rfl, by simp [hres], rfl⟩

theorem Storage.artifactExist_of_resolve {st : Storage} {n : Node}
    (h : fs.resolve (st.localPath a) = .ok n) : st.artifactExist fs a = true := by
  simp [Storage.artifactExist, Fs.stat, h, Except.mapError]

/-- A successful `Store` of the filesystem backend leaves a file of mode
`0600` with the reader's bytes at the artifact's path, owned by the
process. -/
theorem FilesystemStorage.resolve_store {fss : FilesystemStorage}
    (h : fss.store canonical now fs a r = .ok (fs', a')) :
    r.err = none ∧ fs'.resolve (fss.storage.localPath a) = .ok (.file 0o600 r.bytes now fs.owner) ∧
      a' = { a with digest := canonical.digest r.bytes, size := some r.bytes.length,
                    lastUpdateTime := now } := by
  unfold FilesystemStorage.store at h
  cases h₁ : fss.storage.mkdirAll fs a with
  | error e => simp [h₁] at h
  | ok fs₁ =>
    cases h₂ : fss.storage.atomicWriteFile canonical now fs₁ a r 0o600 with
    | error e => simp [h₁, h₂] at h
    | ok res =>
      simp only [h₁, h₂, Except.ok.injEq] at h
      rw [← Fs.owner_of_mkdirAll h₁]
      exact Storage.resolve_atomicWriteFile (h ▸ h₂)

theorem wellFormed_renameEntry {n : Node} (hn : n.wellFormed = true) {name : String}
    (hname : FilePath.IsName name) {m m' : Node} (h : renameEntry n name m = .ok m')
    (hm : m.wellFormed = true) : m'.wellFormed = true := by
  obtain ⟨es, rfl, rfl⟩ := renameEntry_eq_ok h
  exact entriesWellFormed_setEntry hname hn hm

theorem Storage.wellFormed_atomicWriteFile {st : Storage} {mode : Nat} (hwf : fs.WellFormed)
    (h : st.atomicWriteFile canonical now fs a r mode = .ok (fs', a')) : fs'.WellFormed := by
  unfold Storage.atomicWriteFile at h
  cases hr : r.err with
  | some e => simp [hr] at h
  | none =>
    cases hc : fs.changeEntry "rename" (st.localPath a)
        (renameEntry (.file mode r.bytes now fs.owner)) with
    | error e => simp [hr, hc] at h
    | ok fs₂ =>
      simp only [hr, hc, Except.ok.injEq, Prod.mk.injEq] at h
      obtain ⟨rfl, -⟩ := h
      exact Fs.wellFormed_changeEntry
        (fun hname hm hwf' => wellFormed_renameEntry (by rfl) hname hm hwf') hwf hc

/-- `Store` of the filesystem backend keeps the file system well formed. -/
theorem FilesystemStorage.wellFormed_store {fss : FilesystemStorage} (hwf : fs.WellFormed)
    (h : fss.store canonical now fs a r = .ok (fs', a')) : fs'.WellFormed := by
  unfold FilesystemStorage.store at h
  cases h₁ : fss.storage.mkdirAll fs a with
  | error e => simp [h₁] at h
  | ok fs₁ =>
    cases h₂ : fss.storage.atomicWriteFile canonical now fs₁ a r 0o600 with
    | error e => simp [h₁, h₂] at h
    | ok res =>
      simp only [h₁, h₂, Except.ok.injEq] at h
      exact Storage.wellFormed_atomicWriteFile (Fs.wellFormed_mkdirAll hwf h₁) (h ▸ h₂)

/-! ## What `Store` leaves of other files -/

/-- `rename` over an entry keeps every node that is not a directory, but at
the renamed entry. -/
theorem find_modifyAt_renameEntry {F : Node} {name : String} :
    ∀ {n n' : Node} {path ys : List String} {m : Node},
      n.modifyAt (renameEntry F name) path = .ok n' → n.find ys = .ok m → m.info.isDir = false →
        ys ≠ path ++ [name] → n'.find ys = .ok m
  | n, n', [], ys, m, h, hf, hm, hne => by
    rw [modifyAt_nil] at h
    obtain ⟨es, rfl, rfl⟩ := renameEntry_eq_ok h
    cases ys with
    | nil => cases hf; cases hm
    | cons y ys =>
      rw [find_dir_cons] at hf ⊢
      by_cases hy : y = name
      · subst hy
        cases hx : es.lookup y with
        | none => rw [hx] at hf; cases hf
        | some m₀ =>
          rw [hx] at hf
          cases ys with
          | nil => exact absurd rfl hne
          | cons z zs =>
            cases m₀ with
            | dir _ => simp [renameEntry, hx] at h
            | file _ _ _ _ => cases hf
            | other => cases hf
      · rwa [lookup_setEntry_ne es F hy]
  | .dir es, n', x :: xs, ys, m, h, hf, hm, hne => by
    simp only [Node.modifyAt] at h
    cases hx : es.lookup x with
    | none => rw [hx] at h; cases h
    | some m₀ =>
      rw [hx] at h
      obtain ⟨m₀', hm₀, rfl⟩ := map_eq_ok.1 h
      cases ys with
      | nil => cases hf; cases hm
      | cons y ys =>
        rw [find_dir_cons] at hf ⊢
        by_cases hy : y = x
        · subst hy
          rw [hx] at hf
          rw [lookup_setEntry_self]
          exact find_modifyAt_renameEntry hm₀ hf hm fun h' => hne (by rw [h']; rfl)
        · rwa [lookup_setEntry_ne es m₀' hy]
  | .file _ _ _ _, _, _ :: _, _, _, h, _, _, _ => by simp [Node.modifyAt] at h
  | .other, _, _ :: _, _, _, h, _, _, _ => by simp [Node.modifyAt] at h

/-- `AtomicWriteFile` keeps every node that is not a directory at every path
but the artifact's own. -/
theorem Storage.resolve_atomicWriteFile_other {st : Storage} {mode : Nat}
    (h : st.atomicWriteFile canonical now fs a r mode = .ok (fs', a')) {q : String} {m : Node}
    (hq : fs.resolve q = .ok m) (hm : m.info.isDir = false)
    (hne : fs.locate q ≠ fs.locate (st.localPath a)) : fs'.resolve q = .ok m := by
  unfold Storage.atomicWriteFile at h
  cases hr : r.err with
  | some e => simp [hr] at h
  | none =>
    cases hc : fs.changeEntry "rename" (st.localPath a)
        (renameEntry (.file mode r.bytes now fs.owner)) with
    | error e => simp [hr, hc] at h
    | ok fs₂ =>
      simp only [hr, hc, Except.ok.injEq, Prod.mk.injEq] at h
      obtain ⟨rfl, -⟩ := h
      obtain ⟨locs, name, root', hloc, hlast, hmod, rfl⟩ := Fs.changeEntry_eq_ok hc
      obtain ⟨ys, hys, hfind⟩ := bind_eq_ok.1 hq
      have hys' : ys ≠ locs.dropLast ++ [name] := by
        rw [List.dropLast_append_getLast? name hlast]
        rintro rfl
        exact hne (hys.trans hloc.symm)
      have hloc' : ({ fs with root := root' } : Fs).locate q = .ok ys := hys
      simp only [Fs.resolve, hloc', bind, Except.bind]
      exact find_modifyAt_renameEntry hmod hfind hm hys'

/-- `Store` of the filesystem backend changes no other file: a path that named
a node other than a directory, and whose elements are not those of the
artifact's path, names the same node after a successful `Store`. -/
theorem FilesystemStorage.store_keeps_other_files {fss : FilesystemStorage}
    (h : fss.store canonical now fs a r = .ok (fs', a')) {q : String} {m : Node}
    (hq : fs.resolve q = .ok m) (hm : m.info.isDir = false)
    (hne : fs.locate q ≠ fs.locate (fss.storage.localPath a)) : fs'.resolve q = .ok m := by
  unfold FilesystemStorage.store at h
  cases h₁ : fss.storage.mkdirAll fs a with
  | error e => simp [h₁] at h
  | ok fs₁ =>
    cases h₂ : fss.storage.atomicWriteFile canonical now fs₁ a r 0o600 with
    | error e => simp [h₁, h₂] at h
    | ok res =>
      simp only [h₁, h₂, Except.ok.injEq] at h
      obtain ⟨_, root₁, -, -, rfl⟩ := Fs.mkdirAll_eq_ok h₁
      exact Storage.resolve_atomicWriteFile_other (h ▸ h₂) (Fs.resolve_mkdirAll_of_not_dir h₁ hq hm) hm hne

/-- `Store` of a second revision beside the first on `/data`: the first
revision's file is still there. -/
theorem store_keeps_other_files_rev1 :
    let fss : FilesystemStorage := ⟨⟨"/data", "localhost:9090", 3600000000000, 2⟩⟩
    let rev1 : Node := .file 0o600 [1] ⟨5⟩ ⟨0, 0⟩
    let tree : List (String × Node) → Node := fun app =>
      .dir [("data", .dir [("gitrepository", .dir [("default", .dir [("app", .dir app)])])])]
    let fs : Fs := { root := tree [("rev1.tar.gz", rev1)] }
    let a : Artifact := { path := "gitrepository/default/app/rev2.tar.gz" }
    let fs' : Fs := { root := tree [("rev1.tar.gz", rev1), ("rev2.tar.gz", .file 0o600 [2] ⟨7⟩ ⟨0, 0⟩)] }
    let a' : Artifact := { a with digest := "d", size := some 1, lastUpdateTime := ⟨7⟩ }
    let q := "/data/gitrepository/default/app/rev1.tar.gz"
    fss.store ⟨fun _ => "d"⟩ ⟨7⟩ fs a ⟨[[2]], none⟩ = .ok (fs', a') ∧ fs.resolve q = .ok rev1 ∧
      rev1.info.isDir = false ∧ fs.locate q ≠ fs.locate (fss.storage.localPath a) ∧
      fs'.resolve q = .ok rev1 := by
  intro fss rev1 tree fs a fs' a' q
  have hst : fss.store ⟨fun _ => "d"⟩ ⟨7⟩ fs a ⟨[[2]], none⟩ = .ok (fs', a') := by
    simp only [fss, rev1, tree, fs, a, fs', a']; rfl
  have hq : fs.resolve q = .ok rev1 := by simp only [fs, tree, rev1, q]; rfl
  have hne : fs.locate q ≠ fs.locate (fss.storage.localPath a) := by
    simp only [fs, q, fss, a]
    exact fun h => absurd (Except.ok.inj h) (by decide)
  exact ⟨hst, hq, rfl, hne, FilesystemStorage.store_keeps_other_files hst hq rfl hne⟩

end Store

/-! ## Listing a scope that was never stored -/

/-- `List` of a scope whose directory `Lstat` cannot find fails with that
error: `Walk` hands it to the walk function, which returns every error it is
handed. -/
theorem FilesystemStorage.list_of_lstat_error {fss : FilesystemStorage} {fs : Fs}
    {filter : ArtifactFilter} {e : String} (h : fs.lstat (fss.listRoot filter) = .error e) :
    fss.list fs filter = .error ("failed to list artifacts: " ++ e) := by
  simp [FilesystemStorage.list, Fs.walk, h, FilesystemStorage.listVisit]

/-- `S3Storage.List` of a scope with no object under its prefix is empty. -/
theorem S3Storage.list_of_no_objects {s : S3Storage} {filter : ArtifactFilter} {b : Bucket}
    (h : b.listObjects (s.listPrefix filter) = []) : s.list filter b none = .ok [] := by
  simp [S3Storage.list, S3Storage.listArtifacts, h]

/-- With nothing stored on either backend, listing the scope
`gitrepository/default/app`: the filesystem backend fails, because the walk
function returns the error `Lstat` gave for the missing root, while the object
store returns an empty listing. -/
theorem filesystem_list_fails_for_unstored_scope :
    let fss : FilesystemStorage := ⟨⟨"/data", "localhost:9090", 3600000000000, 2⟩⟩
    let s : S3Storage := ⟨"artifacts", "", "", defaultURLExpiration⟩
    let fs : Fs := { root := .dir [("data", .dir [])] }
    let filter : ArtifactFilter := ⟨"gitrepository", "default", "app"⟩
    fss.list fs filter =
        .error "failed to list artifacts: lstat /data/gitrepository/default/app: no such file or directory" ∧
      s.list filter Bucket.empty none = .ok [] :=
  ⟨@FilesystemStorage.list_of_lstat_error _ _ _
      "lstat /data/gitrepository/default/app: no such file or directory" rfl,
    S3Storage.list_of_no_objects rfl⟩

end SourceController

import SourceController.Server

/-!
# Wiring: the factory and `main`

`factory.go` builds the provider a `Config` selects, `NewLegacyStorageAdapter`
of `adapter.go` derives from it the `controller.Storage` the reconcilers
publish through, and `main` hands the provider to the artifact server.  The
outcomes of what the factory calls outside the sources (the legacy
`NewStorage`, `minio.New`, `BucketExists`) are `InitReplies`.

The legacy storage of the object-store backend is a plain `controller.Storage`
on the local base path: what the reconcilers publish through it lands on the
local disk, which the object-store provider never reads.

The main results are:

* `wire_filesystem` and `wire_s3`: what `main` wires for each backend;
* `legacy_publication_served_on_filesystem`: on the filesystem backend, an
  artifact published through the legacy storage is served with its bytes;
* `legacy_publication_unserved_on_s3`: on the object-store backend, an
  artifact published through the legacy storage stays absent for the
  provider, and the server answers 404.
-/

namespace SourceController

/-! ## The factory -/

/-- `Config`, without `S3Region`, `S3Endpoint` and `S3ForcePathStyle`, which
the factory copies into `S3Config` and which only reach `minio.New`. -/
structure Config where
  backend : String
  hostname : String
  retentionTTL : Int
  retentionRecords : Int
  filesystemPath : String
  s3Bucket : String
  s3Prefix : String
  s3URLExpiration : Int
  deriving DecidableEq, Repr

/-- The outcomes of the calls the factory makes outside the sources: the legacy
`NewStorage`, `minio.New` and `BucketExists`. -/
structure InitReplies where
  newStorage : Except String Unit
  client : Except String Unit
  bucketExists : Except String Bool

/-- `newFilesystemProvider`. -/
def newFilesystemProvider (cfg : Config) (init : InitReplies) : Except String Provider :=
  if cfg.filesystemPath = "" then .error "filesystem path is required"
  else
    (newFilesystemStorage cfg.filesystemPath cfg.hostname cfg.retentionTTL cfg.retentionRecords
      init.newStorage).map .filesystem

/-- `newS3Provider`. -/
def newS3Provider (cfg : Config) (init : InitReplies) : Except String Provider :=
  if cfg.s3Bucket = "" then .error "S3 bucket is required"
  else
    (newS3Storage ⟨cfg.s3Bucket, cfg.s3Prefix, cfg.hostname, cfg.s3URLExpiration⟩ init.client
      init.bucketExists).map .s3

/-- `NewProvider`: the backend the configuration names. -/
def newProvider (cfg : Config) (init : InitReplies) : Except String Provider :=
  if cfg.backend = "filesystem" then newFilesystemProvider cfg init
  else if cfg.backend = "s3" then newS3Provider cfg init
  else .error ("unknown storage backend: " ++ cfg.backend)

/-- `NewLegacyStorageAdapter`: the embedded storage of the filesystem backend;
for any other backend a fresh `controller.Storage` on the given base path,
with a retention of one hour and ten records. -/
def newLegacyStorageAdapter (provider : Provider) (basePath hostname : String) : Storage :=
  match provider with
  | .filesystem fss => fss.storage
  | _ => ⟨basePath, hostname, 3600000000000, 10⟩

/-! ## `main` -/

/-- The flags `main` reads for storage. -/
structure Flags where
  storagePath : String
  storageAdvAddr : String
  artifactRetentionTTL : Int
  artifactRetentionRecords : Int
  storageBackend : String
  s3Bucket : String
  s3Prefix : String
  deriving DecidableEq, Repr

/-- The `Config` of `mustInitStorage`: presigned URLs live fifteen minutes. -/
def mainConfig (flags : Flags) : Config where
  backend := flags.storageBackend
  hostname := flags.storageAdvAddr
  retentionTTL := flags.artifactRetentionTTL
  retentionRecords := flags.artifactRetentionRecords
  filesystemPath := flags.storagePath
  s3Bucket := flags.s3Bucket
  s3Prefix := flags.s3Prefix
  s3URLExpiration := 15 * 60 * 1000000000

/-- What `main` builds for storage: the provider, the legacy storage the
reconcilers get, and the artifact server. -/
structure Wiring where
  provider : Provider
  legacy : Storage
  server : ArtifactServer

/-- `main`: `mustInitStorage`, which exits on an error, then
`NewLegacyStorageAdapter` on the storage path and advertised address, and the
artifact server on the provider. -/
def wire (flags : Flags) (init : InitReplies) : Except String Wiring :=
  match newProvider (mainConfig flags) init with
  | .error e => .error e
  | .ok p => .ok ⟨p, newLegacyStorageAdapter p flags.storagePath flags.storageAdvAddr, newArtifactServer p⟩

/-! ## What `main` wires -/

section Wire

variable {cfg : Config} {flags : Flags} {init : InitReplies} {wg : Wiring}

theorem newProvider_of_filesystem (h : cfg.backend = "filesystem") :
    newProvider cfg init = newFilesystemProvider cfg init := by
  simp [newProvider, h]

theorem newProvider_of_s3 (h : cfg.backend = "s3") :
    newProvider cfg init = newS3Provider cfg init := by
  simp [newProvider, h]

theorem wire_eq_ok (h : wire flags init = .ok wg) :
    newProvider (mainConfig flags) init = .ok wg.provider ∧
      wg.legacy = newLegacyStorageAdapter wg.provider flags.storagePath flags.storageAdvAddr ∧
      wg.server = newArtifactServer wg.provider := by
  unfold wire at h
  split at h
  · cases h
  · cases h; exact ⟨by assumption, rfl, rfl⟩

/-- On the filesystem backend the reconcilers publish through the provider's
own storage. -/
theorem wire_filesystem (h : wire flags init = .ok wg) (hb : flags.storageBackend = "filesystem") :
    ∃ fss, wg.provider = .filesystem fss ∧ wg.legacy = fss.storage ∧
      wg.server = newArtifactServer (.filesystem fss) := by
  obtain ⟨hp, hl, hs⟩ := wire_eq_ok h
  rw [newProvider_of_filesystem hb, newFilesystemProvider] at hp
  split at hp
  · cases hp
  · obtain ⟨fss, -, hfss⟩ := map_eq_ok.1 hp
    exact ⟨fss, hfss.symm, by rw [hl, ← hfss]; rfl, by rw [hs, ← hfss]⟩

/-- On the object-store backend the reconcilers publish through a local
storage on the storage path, apart from the provider. -/
theorem wire_s3 (h : wire flags init = .ok wg) (hb : flags.storageBackend = "s3") :
    ∃ s, wg.provider = .s3 s ∧ wg.legacy = ⟨flags.storagePath, flags.storageAdvAddr, 3600000000000, 10⟩ ∧
      wg.server = newArtifactServer (.s3 s) := by
  obtain ⟨hp, hl, hs⟩ := wire_eq_ok h
  rw [newProvider_of_s3 hb, newS3Provider] at hp
  split at hp
  · cases hp
  · obtain ⟨s, -, hs3⟩ := map_eq_ok.1 hp
    exact ⟨s, hs3.symm, by rw [hl, ← hs3]; rfl, by rw [hs, ← hs3]⟩

end Wire

/-! ## Publishing through the legacy storage -/

section Publish

variable {flags : Flags} {init : InitReplies} {wg : Wiring} {canonical : Algorithm} {now : Time}
  {fs' : Fs} {a a' : Artifact} {r : Reader} {mode : Nat}

/-- On the filesystem backend, an artifact a reconciler writes through the
legacy storage is present for the provider, and `GET` of its path answers 200
with the bytes written. -/
theorem legacy_publication_served_on_filesystem (h : wire flags init = .ok wg)
    (hb : flags.storageBackend = "filesystem") {fs : Fs}
    (hwrite : wg.legacy.atomicWriteFile canonical now fs a r mode = .ok (fs', a'))
    (code : Nat) (bucket : Bucket) (rp : Replies) (hne : a.path ≠ "")
    (hclean : cleanPath ("/" ++ a.path) = "/" ++ a.path) (hh : a.path ≠ "health") :
    wg.provider.exists ⟨fs', bucket⟩ rp a' = .ok true ∧
      wg.server.handler code ⟨fs', bucket⟩ rp "GET" ("/" ++ a'.path) ("/" ++ a'.path) =
        ⟨200, ArtifactServer.streamHeaders, r.bytes⟩ := by
  obtain ⟨fss, hp, hl, hs⟩ := wire_filesystem h hb
  rw [hl] at hwrite
  obtain ⟨-, hres, rfl⟩ := Storage.resolve_atomicWriteFile hwrite
  refine ⟨by rw [hp]; exact congrArg Except.ok (Storage.artifactExist_of_resolve hres), ?_⟩
  rw [hs, handler_of_clean hclean (slash_append_ne_health hh)]
  exact (@serveArtifact_file ⟨fs', bucket⟩ rp a.path fss hne _ _ _ _ hres).1

/-- The filesystem backend on `/data`: the write of
`gitrepository/default/app/rev1.tar.gz` through the legacy storage is present
for the provider and served. -/
theorem legacy_publication_served_on_filesystem_app :
    let flags : Flags := ⟨"/data", "localhost:9090", 60000000000, 2, "filesystem", "", ""⟩
    let fss : FilesystemStorage := ⟨⟨"/data", "localhost:9090", 60000000000, 2⟩⟩
    let wg : Wiring := ⟨.filesystem fss, fss.storage, ⟨.filesystem fss⟩⟩
    let tree : Node → Node := fun app =>
      .dir [("data", .dir [("gitrepository", .dir [("default", .dir [("app", app)])])])]
    let fs : Fs := { root := tree (.dir []) }
    let rp : Replies := ⟨none, fun _ _ _ => .error "no presigner", fun _ _ => none⟩
    let a : Artifact := { path := "gitrepository/default/app/rev1.tar.gz" }
    let a' : Artifact := { a with digest := "sha256:0", size := some 5, lastUpdateTime := ⟨1⟩ }
    let fs' : Fs := { root := tree (.dir [("rev1.tar.gz", .file 0o600 (stringBytes "hello") ⟨1⟩ ⟨0, 0⟩)]) }
    wire flags ⟨.ok (), .ok (), .ok true⟩ = .ok wg ∧
      wg.legacy.atomicWriteFile ⟨fun _ => "sha256:0"⟩ ⟨1⟩ fs a ⟨[stringBytes "hello"], none⟩ 0o600 =
        .ok (fs', a') ∧
      wg.provider.exists ⟨fs', Bucket.empty⟩ rp a' = .ok true ∧
      wg.server.handler 307 ⟨fs', Bucket.empty⟩ rp "GET" ("/" ++ a'.path) ("/" ++ a'.path) =
        ⟨200, ArtifactServer.streamHeaders, stringBytes "hello"⟩ := by
  intro flags fss wg _ fs rp a a' fs'
  have hwrite : wg.legacy.atomicWriteFile ⟨fun _ => "sha256:0"⟩ ⟨1⟩ fs a
      ⟨[stringBytes "hello"], none⟩ 0o600 = .ok (fs', a') := by
    simp only [wg, fss, fs, a, fs', a']
    rfl
  exact ⟨rfl, hwrite, @legacy_publication_served_on_filesystem flags ⟨.ok (), .ok (), .ok true⟩ wg
    ⟨fun _ => "sha256:0"⟩ ⟨1⟩ fs' a a' ⟨[stringBytes "hello"], none⟩ 0o600 rfl rfl fs hwrite
    307 Bucket.empty rp (by decide) rfl (by decide)⟩

/-- On the object-store backend, an artifact the provider does not have stays
absent after a reconciler writes it through the legacy storage: the write
goes to the local disk, and `GET` of its path answers 404. -/
theorem legacy_publication_unserved_on_s3 (h : wire flags init = .ok wg) (hb : flags.storageBackend = "s3")
    {w : World} {rp : Replies} (habsent : wg.provider.exists w rp a = .ok false)
    (hwrite : wg.legacy.atomicWriteFile canonical now w.fs a r mode = .ok (fs', a'))
    (hne : a.path ≠ "") (hclean : cleanPath ("/" ++ a.path) = "/" ++ a.path) (hh : a.path ≠ "health")
    (code : Nat) :
    wg.provider.exists ⟨fs', w.bucket⟩ rp a' = .ok false ∧
      wg.server.handler code ⟨fs', w.bucket⟩ rp "GET" ("/" ++ a'.path) ("/" ++ a'.path) =
        notFound := by
  obtain ⟨s, hp, -, hs⟩ := wire_s3 h hb
  obtain ⟨-, -, rfl⟩ := Storage.resolve_atomicWriteFile hwrite
  rw [hp] at habsent ⊢
  exact ⟨habsent, hs ▸ handler_get_absent _ code "GET" (.inl rfl) hne hclean hh habsent⟩

/-- The object-store backend on the bucket `artifacts` with the storage path
`/data`: the write of `gitrepository/default/app/rev1.tar.gz` through the
legacy storage puts the file on the local disk, and `GET` of its path is
404. -/
theorem legacy_publication_unserved_on_s3_app :
    let flags : Flags := ⟨"/data", "localhost:9090", 60000000000, 2, "s3", "artifacts", ""⟩
    let s : S3Storage := ⟨"artifacts", "", "localhost:9090", 900000000000⟩
    let wg : Wiring := ⟨.s3 s, ⟨"/data", "localhost:9090", 3600000000000, 10⟩, ⟨.s3 s⟩⟩
    let tree : Node → Node := fun app =>
      .dir [("data", .dir [("gitrepository", .dir [("default", .dir [("app", app)])])])]
    let w : World := ⟨{ root := tree (.dir []) }, Bucket.empty⟩
    let rp : Replies := ⟨none, fun _ key _ => .ok ("https://s3.local/artifacts/" ++ key), fun _ _ => none⟩
    let a : Artifact := { path := "gitrepository/default/app/rev1.tar.gz" }
    let a' : Artifact := { a with digest := "sha256:0", size := some 5, lastUpdateTime := ⟨1⟩ }
    let fs' : Fs := { root := tree (.dir [("rev1.tar.gz", .file 0o600 (stringBytes "hello") ⟨1⟩ ⟨0, 0⟩)]) }
    wire flags ⟨.ok (), .ok (), .ok true⟩ = .ok wg ∧
      wg.legacy.atomicWriteFile ⟨fun _ => "sha256:0"⟩ ⟨1⟩ w.fs a ⟨[stringBytes "hello"], none⟩ 0o600 =
        .ok (fs', a') ∧
      wg.provider.exists ⟨fs', w.bucket⟩ rp a' = .ok false ∧
      wg.server.handler 307 ⟨fs', w.bucket⟩ rp "GET" ("/" ++ a'.path) ("/" ++ a'.path) =
        notFound := by
  intro flags _ wg _ w rp a a' fs'
  have hwrite : wg.legacy.atomicWriteFile ⟨fun _ => "sha256:0"⟩ ⟨1⟩ w.fs a
      ⟨[stringBytes "hello"], none⟩ 0o600 = .ok (fs', a') := by
    simp only [wg, w, a, fs', a']
    rfl
  exact ⟨rfl, hwrite, @legacy_publication_unserved_on_s3 flags ⟨.ok (), .ok (), .ok true⟩ wg
    ⟨fun _ => "sha256:0"⟩ ⟨1⟩ fs' a a' ⟨[stringBytes "hello"], none⟩ 0o600 rfl rfl w rp rfl hwrite
    (by decide) rfl (by decide) 307⟩

end Publish

end SourceController

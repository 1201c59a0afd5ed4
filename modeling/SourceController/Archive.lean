import SourceController.LocalFs
import SourceController.S3Storage
import SourceController.Tar

/-!
# Archives: `Archive`, `CopyFromPath` and `CopyToPath` of `S3Storage`

`Archive` walks a source directory, writes a tar header and the bytes of every
regular file the filter keeps into a tar writer over a gzip writer over a
buffer, and stores the buffer.  `CopyFromPath` stores the bytes of one file.
`CopyToPath` reads a stored archive back and writes its entries below a
destination.

The tar and gzip layers belong to Go's library; `Codec` of `Tar` stands for
them, and `Codec.RoundTrips`, what the library keeps of the entries it
writes, is a hypothesis of the theorems that read back what `Archive` wrote.
The loop of `CopyToPath` reads nothing the round trip changes
(`extract_map_roundModTime`).  The writers write into a `bytes.Buffer`, which
never fails, so `tw.Close` and `gw.Close` cannot fail after a complete walk
and are not modelled.

Faults of the host are arguments: `ioFault path` is the error, if any, that
opening or reading the file at `path` meets (permissions, I/O errors, a file
that vanished), and `reply` is the object store's answer to the `PUT`.

The main results are:

* `archive_atomic` and `copyFromPath_atomic`: like `Store`, both either
  publish exactly the bytes they produced or fail with the bucket and the
  artifact unchanged;
* `extract_root_last`: with an empty `subPath`, every entry `CopyToPath`
  extracts is written to the destination itself, so a successful run leaves
  there the bytes of the last entry alone.
-/

namespace SourceController

/-- `ArchiveOptions`. -/
structure ArchiveOptions where
  sourcePath : String
  filter : Option ArchiveFilter := none

/-! ## `Archive` and `CopyFromPath` -/

/-- The header `tar.FileInfoHeader` makes of a regular file, with the name
`Archive` gives it: the mode bits below the file type, the modification time,
the owner's ids from the stat data, and their names as the host's user and
group databases give them, empty when they have none. -/
def fileInfoHeader (fs : Fs) (name : String) (info : FileInfo) (content : Bytes) : Entry :=
  ⟨name, info.mode % 0o10000, info.modTime, info.owner.uid, info.owner.gid,
    (fs.userName info.owner.uid).getD "", (fs.groupName info.owner.gid).getD "", content⟩

/-- The walk function of `Archive`.  An excluded directory is skipped whole and
an excluded file is left out; non-regular files are left out; a regular file
adds a header named by its path relative to the source and the file's bytes. -/
def archiveVisit (fs : Fs) (ioFault : String → Option String) (opts : ArchiveOptions)
    (entries : List Entry) (path : String) (info : Option FileInfo) (err : Option String) :
    List Entry × WalkResult :=
  match err, info with
  | some e, _ => (entries, .error e)
  | none, none => (entries, .ok)
  | none, some info =>
    let excluded := match opts.filter with
      | some f => f ((FilePath.rel opts.sourcePath path).toOption.getD "") info.isDir
      | none => false
    if excluded then (entries, if info.isDir then .skipDir else .ok)
    else if !info.isRegular then (entries, .ok)
    else
      match FilePath.rel opts.sourcePath path with
      | .error e => (entries, .error e)
      | .ok relPath =>
        match ioFault path, fs.open path with
        | some e, _ => (entries, .error e)
        | none, .error e => (entries, .error e)
        | none, .ok r =>
          match r.err with
          | some e => (entries, .error e)
          | none => (entries ++ [fileInfoHeader fs relPath info r.bytes], .ok)

namespace S3Storage

variable (s : S3Storage)

/-- `Archive`: walk the source into a buffer, then `Store` the buffer.  A
failed walk returns before anything is stored. -/
def archive (codec : Codec) (canonical : Algorithm) (now : Time) (reply : Except String Time)
    (fs : Fs) (ioFault : String → Option String) (b : Bucket) (a : Artifact)
    (opts : ArchiveOptions) : Outcome :=
  match fs.walk (archiveVisit fs ioFault opts) opts.sourcePath [] with
  | (_, .error e) => ⟨b, a, some ("failed to create archive: " ++ e)⟩
  | (entries, _) => s.store canonical now reply b a ⟨[codec.encode entries], none⟩

/-- `CopyFromPath`: open the file and `Store` what reading it delivers. -/
def copyFromPath (canonical : Algorithm) (now : Time) (reply : Except String Time) (fs : Fs)
    (ioFault : String → Option String) (b : Bucket) (a : Artifact) (path : String) : Outcome :=
  match ioFault path, fs.open path with
  | some e, _ => ⟨b, a, some ("failed to open file: " ++ e)⟩
  | none, .error e => ⟨b, a, some ("failed to open file: " ++ e)⟩
  | none, .ok r => s.store canonical now reply b a r

end S3Storage

/-! ## `CopyToPath` -/

/-- The loop of `CopyToPath` over the entries of a stream and the error it
ended with.  An entry is skipped unless `subPath` is empty or a string prefix
of its name; it goes to `toPath` itself when `subPath` is empty and to
`Join(toPath, Rel(subPath, name))` otherwise.  The loop stops after the entry
named `subPath`.  The result is the file system as the loop left it, and the
error it returned, if any. -/
def extract (now : Time) (subPath toPath : String) : Fs → List Entry → Option String →
    Fs × Option String
  | fs, [], err => (fs, err.map ("failed to read tar: " ++ ·))
  | fs, h :: rest, err =>
    if subPath ≠ "" ∧ hasPrefix h.name subPath = false then extract now subPath toPath fs rest err
    else
      let targetPath :=
        if subPath ≠ "" then FilePath.join [toPath, (FilePath.rel subPath h.name).toOption.getD ""]
        else toPath
      match fs.mkdirAll (FilePath.dir targetPath) with
      | .error e => (fs, some ("failed to create directory: " ++ e))
      | .ok fs₁ =>
        match fs₁.writeFile now targetPath h.mode h.content with
        | .error e => (fs₁, some ("failed to create file: " ++ e))
        | .ok fs₂ =>
          if subPath ≠ "" ∧ h.name = subPath then (fs₂, none)
          else extract now subPath toPath fs₂ rest err

/-- The loop reads of an entry its name, its mode and its bytes, so it does
the same with the modification times the tar writer rounded. -/
theorem extract_map_roundModTime (now : Time) (subPath toPath : String) :
    ∀ (fs : Fs) (es : List Entry) (err : Option String),
      extract now subPath toPath fs (es.map Entry.roundModTime) err =
        extract now subPath toPath fs es err
  | _, [], _ => rfl
  | fs, e :: es, err => by
    simp only [List.map_cons, extract, Entry.roundModTime_name, Entry.roundModTime_mode,
      Entry.roundModTime_content, extract_map_roundModTime now subPath toPath _ es err]

namespace S3Storage

variable (s : S3Storage)

/-- `CopyToPath`: read the stored archive and extract it.  `GetObject` fails
lazily, so a missing object surfaces in `gzip.NewReader`. -/
def copyToPath (codec : Codec) (b : Bucket) (now : Time) (fs : Fs) (a : Artifact)
    (subPath toPath : String) : Fs × Option String :=
  match s.retrieve b a >>= codec.decode with
  | .error e => (fs, some ("failed to create gzip reader: " ++ e))
  | .ok (entries, err) => extract now subPath toPath fs entries err

end S3Storage

/-! ## Atomicity of `Archive` and `CopyFromPath` -/

namespace S3Storage

variable {s : S3Storage} {canonical : Algorithm} {now : Time} {reply : Except String Time}
  {b : Bucket} {a : Artifact} {fs : Fs} {ioFault : String → Option String}

/-- `Archive` publishes exactly the encoding of the entries its walk produced,
or fails and changes nothing. -/
theorem archive_atomic (codec : Codec) (opts : ArchiveOptions) :
    (Published canonical (s.artifactKey a)
        (codec.encode (fs.walk (archiveVisit fs ioFault opts) opts.sourcePath []).1) b
        (s.archive codec canonical now reply fs ioFault b a opts)) ∨
      Unchanged b a (s.archive codec canonical now reply fs ioFault b a opts) := by
  unfold archive
  rcases hw : fs.walk (archiveVisit fs ioFault opts) opts.sourcePath [] with ⟨entries, _ | _ | e⟩
  · have h := @store_atomic s canonical now reply b a ⟨[codec.encode entries], none⟩
    simpa [Reader.bytes] using h
  · have h := @store_atomic s canonical now reply b a ⟨[codec.encode entries], none⟩
    simpa [Reader.bytes] using h
  · exact .inr unchanged_of_eq

/-- `CopyFromPath` publishes exactly the bytes of the file it opened, or fails
and changes nothing. -/
theorem copyFromPath_atomic (path : String) :
    (∃ r, fs.open path = .ok r ∧ Published canonical (s.artifactKey a) r.bytes b
        (s.copyFromPath canonical now reply fs ioFault b a path)) ∨
      Unchanged b a (s.copyFromPath canonical now reply fs ioFault b a path) := by
  unfold copyFromPath
  cases hf : ioFault path with
  | some e => exact .inr unchanged_of_eq
  | none =>
    cases ho : fs.open path with
    | error e => exact .inr unchanged_of_eq
    | ok r =>
      rcases @store_atomic s canonical now reply b a r with h | h
      · exact .inl ⟨r, rfl, h⟩
      · exact .inr h

end S3Storage

/-- `Store`, `Archive` and `CopyFromPath` are atomic: each either publishes
exactly the bytes it read, produced or opened, with their digest and size on
the artifact and as the object's `digest` metadata and every other key as it
was, or fails with the bucket and every field of the artifact unchanged. -/
theorem store_archive_copyFromPath_atomic (s : S3Storage) (canonical : Algorithm) (now : Time)
    (reply : Except String Time) (b : Bucket) (a : Artifact) :
    (∀ r : Reader, Published canonical (s.artifactKey a) r.bytes b
        (s.store canonical now reply b a r) ∨ Unchanged b a (s.store canonical now reply b a r)) ∧
    (∀ (codec : Codec) (fs : Fs) (ioFault : String → Option String) (opts : ArchiveOptions),
      Published canonical (s.artifactKey a)
          (codec.encode (fs.walk (archiveVisit fs ioFault opts) opts.sourcePath []).1) b
          (s.archive codec canonical now reply fs ioFault b a opts) ∨
        Unchanged b a (s.archive codec canonical now reply fs ioFault b a opts)) ∧
    (∀ (fs : Fs) (ioFault : String → Option String) (path : String),
      (∃ r, fs.open path = .ok r ∧ Published canonical (s.artifactKey a) r.bytes b
          (s.copyFromPath canonical now reply fs ioFault b a path)) ∨
        Unchanged b a (s.copyFromPath canonical now reply fs ioFault b a path)) :=
  ⟨fun _ => S3Storage.store_atomic, fun codec _ _ opts => S3Storage.archive_atomic codec opts,
    fun _ _ path => S3Storage.copyFromPath_atomic path⟩

/-! ## Extraction with an empty `subPath` -/

/-- With an empty `subPath`, a successful extraction of at least one entry
leaves at the destination a regular file with the bytes of the last entry. -/
theorem extract_root_last {now : Time} {toPath : String} :
    ∀ {fs fs' : Fs} {es : List Entry} {err : Option String} (hne : es ≠ []),
      extract now "" toPath fs es err = (fs', none) →
      ∃ mode owner, fs'.lstat toPath = .ok (.file mode (es.getLast hne).content now owner)
  | _, _, [], _, hne, _ => absurd rfl hne
  | fs, fs', h :: rest, err, _, hrun => by
    simp only [extract, ne_eq, not_true_eq_false, false_and, if_false] at hrun
    cases hdir : fs.mkdirAll (FilePath.dir toPath) with
    | error e => simp [hdir] at hrun
    | ok fs₁ =>
      cases hw : fs₁.writeFile now toPath h.mode h.content with
      | error e => simp [hdir, hw] at hrun
      | ok fs₂ =>
        simp only [hdir, hw] at hrun
        cases rest with
        | nil =>
          cases err with
          | some e => simp [extract] at hrun
          | none =>
            simp only [extract, Option.map_none', Prod.mk.injEq, and_true] at hrun
            subst hrun
            exact Fs.lstat_writeFile hw
        | cons h' rest => exact extract_root_last (List.cons_ne_nil h' rest) hrun

/-- `Archive` of a directory with two files, then `CopyToPath` with an empty
`subPath`: both entries are written to the destination itself, which ends up
a regular file with the bytes of `b.txt` and the mode of `a.txt`, and nothing
lies below it. -/
theorem archive_then_copyToPath_keeps_last_file (s : S3Storage) (codec : Codec)
    (canonical : Algorithm) :
    let fs : Fs := { root := .dir [("src", .dir [("a.txt", .file 0o644 [97] ⟨1⟩ ⟨0, 0⟩),
      ("b.txt", .file 0o600 [98] ⟨2⟩ ⟨0, 0⟩)])] }
    let es : List Entry :=
      [⟨"a.txt", 0o644, ⟨1⟩, 0, 0, "", "", [97]⟩, ⟨"b.txt", 0o600, ⟨2⟩, 0, 0, "", "", [98]⟩]
    codec.RoundTrips es →
    let a : Artifact := { path := "gitrepository/default/app/rev1.tar.gz" }
    let o := s.archive codec canonical ⟨10⟩ (.ok ⟨10⟩) fs (fun _ => none) Bucket.empty a ⟨"/src", none⟩
    let r := s.copyToPath codec o.bucket ⟨20⟩ fs o.artifact "" "/t"
    o.err = none ∧ r.2 = none ∧ r.1.lstat "/t" = .ok (.file 0o644 [98] ⟨20⟩ ⟨0, 0⟩) ∧
      r.1.lstat "/t/a.txt" = .error "lstat /t/a.txt: not a directory" := by
  intro fs es hcodec a o r
  have hwalk : fs.walk (archiveVisit fs (fun _ => none) ⟨"/src", none⟩) "/src" [] = (es, .ok) := by
    decide
  have ho : o = s.store canonical ⟨10⟩ (.ok ⟨10⟩) Bucket.empty a ⟨[codec.encode es], none⟩ := by
    simp only [o, S3Storage.archive, hwalk]
  have hr : r = extract ⟨20⟩ "" "/t" fs es none := by
    rw [Codec.RoundTrips] at hcodec
    rw [← extract_map_roundModTime]
    simp [r, ho, S3Storage.copyToPath, S3Storage.retrieve_store_of_ok, Reader.bytes, hcodec,
      bind, Except.bind]
  rw [hr, ho, S3Storage.store_of_ok rfl rfl]
  exact ⟨rfl, rfl, by simp only [fs, es]; rfl, rfl⟩

/-- `octalCodec` meets the hypothesis of
`archive_then_copyToPath_keeps_last_file`. -/
theorem archive_then_copyToPath_keeps_last_file_octal :
    let es : List Entry :=
      [⟨"a.txt", 0o644, ⟨1⟩, 0, 0, "", "", [97]⟩, ⟨"b.txt", 0o600, ⟨2⟩, 0, 0, "", "", [98]⟩]
    let s : S3Storage := ⟨"artifacts", "", "", defaultURLExpiration⟩
    let canonical : Algorithm := ⟨fun _ => "sha256:0"⟩
    let fs : Fs := { root := .dir [("src", .dir [("a.txt", .file 0o644 [97] ⟨1⟩ ⟨0, 0⟩),
      ("b.txt", .file 0o600 [98] ⟨2⟩ ⟨0, 0⟩)])] }
    octalCodec.RoundTrips es ∧
    let a : Artifact := { path := "gitrepository/default/app/rev1.tar.gz" }
    let o := s.archive octalCodec canonical ⟨10⟩ (.ok ⟨10⟩) fs (fun _ => none) Bucket.empty a
      ⟨"/src", none⟩
    let r := s.copyToPath octalCodec o.bucket ⟨20⟩ fs o.artifact "" "/t"
    o.err = none ∧ r.2 = none ∧ r.1.lstat "/t" = .ok (.file 0o644 [98] ⟨20⟩ ⟨0, 0⟩) ∧
      r.1.lstat "/t/a.txt" = .error "lstat /t/a.txt: not a directory" :=
  ⟨octalCodec_roundTrips _,
    archive_then_copyToPath_keeps_last_file _ octalCodec _ (octalCodec_roundTrips _)⟩

/-! ## Entries whose names share a prefix with `subPath` -/

/-- An archive entry `dir2/x` is extracted for the `subPath` `dir`, because
`dir` is a string prefix of its name, and `Rel` sends it up one level:
`CopyToPath` writes `/t/dir2/x`, outside the destination `/t/out`. -/
theorem copyToPath_writes_outside_toPath (s : S3Storage) (codec : Codec) (content : Bytes)
    (hcodec : codec.decode content = .ok ([⟨"dir2/x", 0o644, ⟨1⟩, 0, 0, "", "", [120]⟩], none)) :
    let a : Artifact := { path := "gitrepository/default/app/rev1.tar.gz" }
    let b := Bucket.empty.put ⟨s.artifactKey a, content, ⟨1⟩, "application/gzip", []⟩
    let r := s.copyToPath codec b ⟨2⟩ { root := .dir [("t", .dir [])] } a "dir" "/t/out"
    r.2 = none ∧ r.1.lstat "/t/dir2/x" = .ok (.file 0o644 [120] ⟨2⟩ ⟨0, 0⟩) ∧
      ¬ FilePath.Within "/t/out" "/t/dir2/x" := by
  intro a b r
  have hr : r = extract ⟨2⟩ "dir" "/t/out" { root := .dir [("t", .dir [])] }
      [⟨"dir2/x", 0o644, ⟨1⟩, 0, 0, "", "", [120]⟩] none := by
    simp [r, b, S3Storage.copyToPath, S3Storage.retrieve, hcodec, bind, Except.bind]
  rw [hr]
  exact ⟨rfl, rfl, by decide⟩

/-- A codec that reads every stream as the one entry `dir2/x` satisfies the
hypothesis of `copyToPath_writes_outside_toPath`. -/
theorem copyToPath_writes_outside_toPath_of_constCodec :
    let codec : Codec :=
      ⟨fun _ => [], fun _ => .ok ([⟨"dir2/x", 0o644, ⟨1⟩, 0, 0, "", "", [120]⟩], none)⟩
    let s : S3Storage := ⟨"artifacts", "", "", defaultURLExpiration⟩
    codec.decode [] = .ok ([⟨"dir2/x", 0o644, ⟨1⟩, 0, 0, "", "", [120]⟩], none) ∧
    let a : Artifact := { path := "gitrepository/default/app/rev1.tar.gz" }
    let b := Bucket.empty.put ⟨s.artifactKey a, [], ⟨1⟩, "application/gzip", []⟩
    let r := s.copyToPath codec b ⟨2⟩ { root := .dir [("t", .dir [])] } a "dir" "/t/out"
    r.2 = none ∧ r.1.lstat "/t/dir2/x" = .ok (.file 0o644 [120] ⟨2⟩ ⟨0, 0⟩) ∧
      ¬ FilePath.Within "/t/out" "/t/dir2/x" :=
  ⟨rfl, copyToPath_writes_outside_toPath _ _ _ rfl⟩

end SourceController

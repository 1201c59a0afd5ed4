import SourceController.Archive

/-!
# What `Archive` writes

`Archive` hands every path `filepath.Walk` visits to its walk function, with
the path relative to `SourcePath`, and writes a header and the bytes of every
regular file the filter does not exclude.  This module says which entries
that is, for every well-formed source tree and every filter.

`Node.included` is the declarative answer: the regular files below a node that
the filter keeps, depth first and in the order of each directory's entries,
with nothing from an excluded directory.  In a well-formed tree that order is
the lexical order of the names; every directory of a well-formed file system
is one (`Fs.wellFormed_resolve`), and the model's writes keep file systems
well formed.  `Below src rel p` is the invariant of the
walk: the path `p` it visits names the node at the elements `rel` below `src`,
so `Rel` gives `rel` back and `Open` finds the node.
`walkNode_archiveVisit` and `walkEntries_archiveVisit` prove that the walk
produces `Node.included`, one case per kind of node.

The walk function is also called on the source directory itself, with the
relative path `.`, and a filter that excludes `.` skips the whole tree.
`archive_eq_store_included` is the result: `Archive` stores the encoding of
the entries of the included files, or of no entry at all when the filter
excludes `.`.  It is stated for a host without faults; `archive_of_faults`
says that faults of opening and reading files can only make `Archive` fail.

Each entry carries what `tar.FileInfoHeader` copies from the stat data: the
owner's ids and the host's names for them, beside the mode and the
modification time.  `archive_differs_across_owners` shows that the bytes
differ between two hosts where one file has different owners.
-/

namespace SourceController

/-- A regular file of a source tree as the archive includes it: its path below
the source as elements, what `Lstat` reports of it, and its bytes. -/
structure SourceFile where
  rel : List String
  info : FileInfo
  content : Bytes
  deriving DecidableEq, Repr

mutual

/-- The regular files below the node at `rel` that the filter keeps, depth
first: an excluded directory contributes nothing, and neither do an excluded
file, a symbolic link, a device, a socket or a pipe. -/
def Node.included (f : ArchiveFilter) (rel : List String) : Node → List SourceFile
  | .dir es => if f (FilePath.joinSlash rel) true then [] else entriesIncluded f rel es
  | .file mode content modTime owner =>
    if f (FilePath.joinSlash rel) false then []
    else [⟨rel, (Node.file mode content modTime owner).info, content⟩]
  | .other => []

/-- The files a directory's entries contribute, in the directory's order. -/
def entriesIncluded (f : ArchiveFilter) (rel : List String) :
    List (String × Node) → List SourceFile
  | [] => []
  | (name, n) :: es => n.included f (rel ++ [name]) ++ entriesIncluded f rel es

end

example : (entriesIncluded (fun p _ => p == "b") []
    [("a.txt", .file 0o644 [97] ⟨1⟩ ⟨0, 0⟩), ("b", .dir [("c.txt", .file 0o644 [99] ⟨1⟩ ⟨0, 0⟩)]),
      ("d", .dir [("e.txt", .file 0o600 [101] ⟨1⟩ ⟨0, 0⟩), ("l", .other)])]).map SourceFile.rel =
    [["a.txt"], ["d", "e.txt"]] := by decide

/-- The entry `Archive` writes for a file: the header `tar.FileInfoHeader`
makes of it, named by its path below the source, and its bytes. -/
def SourceFile.entry (fs : Fs) (file : SourceFile) : Entry :=
  fileInfoHeader fs (FilePath.joinSlash file.rel) file.info file.content

/-- The path `p` names the node at the elements `rel` below `src`, lexically. -/
def Below (src : String) (rel : List String) (p : String) : Prop :=
  p ≠ "" ∧ hasPrefix p "/" = hasPrefix src "/" ∧ FilePath.elems p = FilePath.elems src ++ rel

theorem below_join {src p name : String} {rel : List String} (h : Below src rel p)
    (hname : FilePath.IsName name) : Below src (rel ++ [name]) (FilePath.join [p, name]) := by
  obtain ⟨hp, hroot, helems⟩ := h
  have hjoin := FilePath.elems_join_name hp hname
  exact ⟨FilePath.ne_empty_of_elems (by simp [hjoin]), (FilePath.hasPrefix_join hp).trans hroot,
    by rw [hjoin, helems, List.append_assoc]⟩

theorem rel_of_below {src p : String} {rel : List String} (h : Below src rel p) :
    FilePath.rel src p = .ok (if rel = [] then "." else FilePath.joinSlash rel) :=
  FilePath.rel_of_elems h.2.1 h.2.2

theorem rel_of_below_ne {src p : String} {rel : List String} (h : Below src rel p)
    (hne : rel ≠ []) : FilePath.rel src p = .ok (FilePath.joinSlash rel) := by
  rw [rel_of_below h, if_neg hne]

section Walk

/-! ## One visit -/

variable (fs : Fs) (f : ArchiveFilter) (src : String)

theorem archiveVisit_dir {p r : String} (hrel : FilePath.rel src p = .ok r) (acc : List Entry)
    (es : List (String × Node)) :
    archiveVisit fs (fun _ => none) ⟨src, some f⟩ acc p (some (Node.dir es).info) none =
      (acc, if f r true then .skipDir else .ok) := by
  by_cases hf : f r true <;> simp [archiveVisit, hrel, hf, Node.info, Except.toOption]

theorem archiveVisit_other {p r : String} (hrel : FilePath.rel src p = .ok r) (acc : List Entry) :
    archiveVisit fs (fun _ => none) ⟨src, some f⟩ acc p (some Node.other.info) none =
      (acc, .ok) := by
  by_cases hf : f r false <;> simp [archiveVisit, hrel, hf, Node.info, Except.toOption]

theorem archiveVisit_file {p r : String} {mode : Nat} {content : Bytes} {modTime : Time}
    {owner : Owner} (hrel : FilePath.rel src p = .ok r)
    (hres : fs.resolve p = .ok (.file mode content modTime owner)) (acc : List Entry) :
    archiveVisit fs (fun _ => none) ⟨src, some f⟩ acc p
        (some (Node.file mode content modTime owner).info) none =
      (if f r false then acc
        else acc ++ [fileInfoHeader fs r (Node.file mode content modTime owner).info content],
        .ok) := by
  by_cases hf : f r false <;>
    simp [archiveVisit, hrel, hf, Node.info, Except.toOption, Fs.open, hres, Reader.bytes]

/-! ## The walk -/

mutual

/-- The walk below the node at `rel` adds the entries of the files the filter
keeps there.  It returns `SkipDir` only from an excluded directory, which the
loop above passes over. -/
theorem walkNode_archiveVisit : ∀ (n : Node) (acc : List Entry) (p : String) (rel : List String),
    rel ≠ [] → Below src rel p → fs.resolve p = .ok n → n.wellFormed = true →
      walkNode (archiveVisit fs (fun _ => none) ⟨src, some f⟩) acc p n =
        (acc ++ (n.included f rel).map (SourceFile.entry fs),
          if n.info.isDir && f (FilePath.joinSlash rel) true then .skipDir else .ok)
  | .dir es, acc, p, rel, hne, hbelow, hres, hwf => by
    have hchildren : ∀ e ∈ es, fs.resolve (FilePath.join [p, e.1]) = .ok e.2 := fun e he =>
      fs.resolve_join_name hres (isName_of_mem_entriesWellFormed hwf he).1
        (lookup_of_mem_entriesWellFormed hwf he)
    rw [walkNode, archiveVisit_dir fs f src (rel_of_below_ne hbelow hne)]
    by_cases hf : f (FilePath.joinSlash rel) true
    · simp [hf, Node.included, Node.info]
    · rw [if_neg hf]
      dsimp only
      rw [walkEntries_archiveVisit es acc p rel hbelow hchildren hwf]
      simp [hf, Node.included, Node.info]
  | .file mode content modTime owner, acc, p, rel, hne, hbelow, hres, _ => by
    simp only [walkNode]
    rw [archiveVisit_file fs f src (rel_of_below_ne hbelow hne) hres]
    by_cases hf : f (FilePath.joinSlash rel) false <;>
      simp [hf, Node.included, Node.info, SourceFile.entry]
  | .other, acc, p, rel, hne, hbelow, _, _ => by
    simp only [walkNode]
    rw [archiveVisit_other fs f src (rel_of_below_ne hbelow hne)]
    simp [Node.included, Node.info]

/-- The loop over a directory's entries adds the entries of the files each
entry contributes, in the directory's order. -/
theorem walkEntries_archiveVisit :
    ∀ (es : List (String × Node)) (acc : List Entry) (p : String) (rel : List String),
      Below src rel p → (∀ e ∈ es, fs.resolve (FilePath.join [p, e.1]) = .ok e.2) →
      entriesWellFormed es = true →
      walkEntries (archiveVisit fs (fun _ => none) ⟨src, some f⟩) acc p es =
        (acc ++ (entriesIncluded f rel es).map (SourceFile.entry fs), .ok)
  | [], acc, _, _, _, _, _ => by simp [walkEntries, entriesIncluded]
  | (name, n) :: es, acc, p, rel, hbelow, hres, hwf => by
    obtain ⟨hname, -, hwfn, hwf'⟩ := entriesWellFormed_cons.1 hwf
    have hnode := walkNode_archiveVisit n acc (FilePath.join [p, name]) (rel ++ [name]) (by simp)
      (below_join hbelow hname) (hres _ (List.mem_cons_self _ _)) hwfn
    have hrest := walkEntries_archiveVisit es (acc ++ (n.included f (rel ++ [name])).map
      (SourceFile.entry fs)) p rel hbelow (fun e he => hres e (List.mem_cons_of_mem _ he)) hwf'
    rw [walkEntries, hnode]
    by_cases hskip : (n.info.isDir && f (FilePath.joinSlash (rel ++ [name])) true) = true
    · have hdir : n.info.isDir = true := by
        simp only [Bool.and_eq_true] at hskip
        exact hskip.1
      rw [if_pos hskip]
      dsimp only
      rw [if_pos hdir, hrest]
      simp [entriesIncluded]
    · rw [if_neg hskip]
      dsimp only
      rw [hrest]
      simp [entriesIncluded]

end

/-- `filepath.Walk` of a well-formed source directory with the walk function of
`Archive`, no filter fault and no host fault: the entries of the files the
filter keeps, or none when the filter excludes the source itself, which it
sees as `.`. -/
theorem walk_archiveVisit {es : List (String × Node)} (hres : fs.resolve src = .ok (.dir es))
    (hwf : entriesWellFormed es = true) :
    fs.walk (archiveVisit fs (fun _ => none) ⟨src, some f⟩) src [] =
      (if f "." true then [] else (entriesIncluded f [] es).map (SourceFile.entry fs), .ok) := by
  have hsrc : src ≠ "" := by
    rintro rfl
    simp [Fs.resolve, Fs.locate, bind, Except.bind] at hres
  have hbelow : Below src [] src := ⟨hsrc, rfl, by simp⟩
  have hrel : FilePath.rel src src = .ok "." := by simpa using rel_of_below hbelow
  have hlstat : fs.lstat src = .ok (.dir es) := by simp [Fs.lstat, hres, Except.mapError]
  have hchildren : ∀ e ∈ es, fs.resolve (FilePath.join [src, e.1]) = .ok e.2 := fun e he =>
    fs.resolve_join_name hres (isName_of_mem_entriesWellFormed hwf he).1
      (lookup_of_mem_entriesWellFormed hwf he)
  by_cases hf : f "." true
  · simp [Fs.walk, hlstat, walkNode, archiveVisit_dir fs f src hrel, hf]
  · simp [Fs.walk, hlstat, walkNode, archiveVisit_dir fs f src hrel, hf,
      walkEntries_archiveVisit fs f src es [] src [] hbelow hchildren hwf]

end Walk

/-! ## Host faults -/

/-- A step or a run of the walk with host faults ends as it does without them,
or in an error. -/
def SameOrFailed (r r₀ : List Entry × WalkResult) : Prop :=
  r = r₀ ∨ ∃ acc e, r = (acc, WalkResult.error e)

section Faults

variable (fs : Fs) (ioFault : String → Option String) (opts : ArchiveOptions)

/-- A host fault only matters where the walk function opens a file, and
there it is returned as the error. -/
theorem archiveVisit_sameOrFailed (acc : List Entry) (path : String) (info : Option FileInfo)
    (err : Option String) :
    SameOrFailed (archiveVisit fs ioFault opts acc path info err)
      (archiveVisit fs (fun _ => none) opts acc path info err) := by
  unfold archiveVisit
  rcases err with _ | e
  · rcases info with _ | info
    · exact .inl rfl
    · dsimp only
      split_ifs
      any_goals (left; rfl)
      split
      · exact .inl rfl
      · cases ioFault path with
        | none => exact .inl rfl
        | some e => exact .inr ⟨_, _, rfl⟩
  · exact .inl rfl

mutual

theorem walkNode_sameOrFailed : ∀ (n : Node) (acc : List Entry) (p : String),
    SameOrFailed (walkNode (archiveVisit fs ioFault opts) acc p n)
      (walkNode (archiveVisit fs (fun _ => none) opts) acc p n)
  | .dir es, acc, p => by
    simp only [walkNode]
    rcases archiveVisit_sameOrFailed fs ioFault opts acc p (some (Node.dir es).info) none with
      h | ⟨acc', e, h⟩
    · rw [h]
      split
      · exact walkEntries_sameOrFailed es _ p
      · exact .inl rfl
    · rw [h]
      exact .inr ⟨acc', e, rfl⟩
  | .file _ _ _ _, acc, p => by
    simp only [walkNode]
    exact archiveVisit_sameOrFailed fs ioFault opts acc p _ none
  | .other, acc, p => by
    simp only [walkNode]
    exact archiveVisit_sameOrFailed fs ioFault opts acc p _ none

theorem walkEntries_sameOrFailed : ∀ (es : List (String × Node)) (acc : List Entry) (p : String),
    SameOrFailed (walkEntries (archiveVisit fs ioFault opts) acc p es)
      (walkEntries (archiveVisit fs (fun _ => none) opts) acc p es)
  | [], _, _ => .inl rfl
  | (name, n) :: es, acc, p => by
    simp only [walkEntries]
    rcases walkNode_sameOrFailed n acc (FilePath.join [p, name]) with h | ⟨acc', e, h⟩
    · rw [h]
      split
      · exact walkEntries_sameOrFailed es _ p
      · split
        · exact walkEntries_sameOrFailed es _ p
        · exact .inl rfl
      · exact .inl rfl
    · rw [h]
      exact .inr ⟨acc', e, rfl⟩

end

theorem walk_sameOrFailed (root : String) :
    SameOrFailed (fs.walk (archiveVisit fs ioFault opts) root [])
      (fs.walk (archiveVisit fs (fun _ => none) opts) root []) := by
  unfold Fs.walk
  split
  · exact .inl rfl
  · rename_i n _
    rcases walkNode_sameOrFailed fs ioFault opts n [] root with h | ⟨acc', e, h⟩
    · rw [h]
      exact .inl rfl
    · rw [h]
      exact .inr ⟨acc', e, rfl⟩

end Faults

/-- Host faults only make `Archive` fail: under any faults of opening and
reading files, `Archive` does what it does without them, or fails with the
bucket and the artifact unchanged. -/
theorem archive_of_faults (s : S3Storage) (codec : Codec) (canonical : Algorithm) (now : Time)
    (reply : Except String Time) (fs : Fs) (ioFault : String → Option String) (b : Bucket)
    (a : Artifact) (opts : ArchiveOptions) :
    s.archive codec canonical now reply fs ioFault b a opts =
        s.archive codec canonical now reply fs (fun _ => none) b a opts ∨
      ∃ e, s.archive codec canonical now reply fs ioFault b a opts =
        ⟨b, a, some ("failed to create archive: " ++ e)⟩ := by
  unfold S3Storage.archive
  rcases walk_sameOrFailed fs ioFault opts opts.sourcePath with h | ⟨acc, e, h⟩
  · rw [h]
    exact .inl rfl
  · rw [h]
    exact .inr ⟨e, rfl⟩

/-! ## What `Archive` stores -/

/-- For every well-formed source directory and every filter, `Archive` stores
the encoding of one entry per regular file the filter keeps, in the walk's
depth-first lexical order, each named by its path below the source and
carrying its bytes.  The filter is also asked about the source itself, as
`.`, and when it excludes `.` the stream holds no entry at all. -/
theorem archive_eq_store_included (s : S3Storage) (codec : Codec) (canonical : Algorithm)
    (now : Time) (reply : Except String Time) (b : Bucket) (a : Artifact) (fs : Fs)
    (f : ArchiveFilter) (src : String) (es : List (String × Node))
    (hres : fs.resolve src = .ok (.dir es)) (hwf : entriesWellFormed es = true) :
    s.archive codec canonical now reply fs (fun _ => none) b a ⟨src, some f⟩ =
      s.store canonical now reply b a
        ⟨[codec.encode (if f "." true then []
          else (entriesIncluded f [] es).map (SourceFile.entry fs))], none⟩ := by
  rw [S3Storage.archive, walk_archiveVisit fs f src hres hwf]

/-- A filter that excludes hidden paths, those that start with `.`, also
excludes the source: `Archive` of a tree that holds `a.txt` stores the
encoding of no entry. -/
theorem archive_hidden_filter_stores_no_entry :
    let es : List (String × Node) := [("a.txt", .file 0o644 [97] ⟨1⟩ ⟨0, 0⟩)]
    let fs : Fs := { root := .dir [("src", .dir es)] }
    let f : ArchiveFilter := fun p _ => hasPrefix p "."
    let s : S3Storage := ⟨"artifacts", "", "", defaultURLExpiration⟩
    let codec : Codec := ⟨fun entries => entries.flatMap Entry.content, fun _ => .ok ([], none)⟩
    let canonical : Algorithm := ⟨fun _ => "sha256:0"⟩
    let a : Artifact := { path := "gitrepository/default/app/rev1.tar.gz" }
    fs.resolve "/src" = .ok (.dir es) ∧ entriesWellFormed es = true ∧
      (entriesIncluded f [] es).map (SourceFile.entry fs) =
        [⟨"a.txt", 0o644, ⟨1⟩, 0, 0, "", "", [97]⟩] ∧
      s.archive codec canonical ⟨10⟩ (.ok ⟨10⟩) fs (fun _ => none) Bucket.empty a ⟨"/src", some f⟩ =
        s.store canonical ⟨10⟩ (.ok ⟨10⟩) Bucket.empty a ⟨[codec.encode []], none⟩ := by
  intro es fs f s codec canonical a
  have hres : fs.resolve "/src" = .ok (.dir es) := rfl
  have hwf : entriesWellFormed es = true := rfl
  refine ⟨hres, hwf, rfl, ?_⟩
  rw [archive_eq_store_included s codec canonical ⟨10⟩ (.ok ⟨10⟩) Bucket.empty a fs f "/src" es
    hres hwf]
  rfl

/-- With the `PUT` accepted, `Archive` of a well-formed tree succeeds, and
`Retrieve` reads back the encoding of the entries of the files the filter
keeps, or of no entry when it excludes `.`. -/
theorem retrieve_archive (s : S3Storage) (codec : Codec) (canonical : Algorithm) (now t : Time)
    (b : Bucket) (a : Artifact) (fs : Fs) (f : ArchiveFilter) (src : String)
    (es : List (String × Node)) (hres : fs.resolve src = .ok (.dir es))
    (hwf : entriesWellFormed es = true) :
    (s.archive codec canonical now (.ok t) fs (fun _ => none) b a ⟨src, some f⟩).err = none ∧
      s.retrieve (s.archive codec canonical now (.ok t) fs (fun _ => none) b a ⟨src, some f⟩).bucket
          (s.archive codec canonical now (.ok t) fs (fun _ => none) b a ⟨src, some f⟩).artifact =
        .ok (codec.encode (if f "." true then []
          else (entriesIncluded f [] es).map (SourceFile.entry fs))) := by
  rw [S3Storage.archive, walk_archiveVisit fs f src hres hwf]
  dsimp only
  refine ⟨by rw [S3Storage.store_of_ok rfl rfl], ?_⟩
  rw [S3Storage.retrieve_store_of_ok (r := ⟨[codec.encode _], none⟩) rfl rfl]
  simp [Reader.bytes]

/-- Two hosts on which `a.txt` has different owners archive the same one-file
tree into different bytes: the header `tar.FileInfoHeader` makes carries the
owner's ids, and a codec that reads back the ids it wrote tells the two
streams apart. -/
theorem archive_differs_across_owners (s : S3Storage) (codec : Codec) (canonical : Algorithm)
    (now t : Time) (b : Bucket) (a : Artifact) (u₀ u₁ : Owner) (hu : u₀ ≠ u₁)
    (hcodec : ∀ u ∈ [u₀, u₁],
      codec.RoundTrips [⟨"a.txt", 0o644, ⟨1⟩, u.uid, u.gid, "", "", [97]⟩]) :
    let host : Owner → Fs := fun u =>
      { root := .dir [("src", .dir [("a.txt", .file 0o644 [97] ⟨1⟩ u)])] }
    let o : Owner → Outcome := fun u =>
      s.archive codec canonical now (.ok t) (host u) (fun _ => none) b a ⟨"/src", some fun _ _ => false⟩
    (o u₀).err = none ∧ (o u₁).err = none ∧
      s.retrieve (o u₀).bucket (o u₀).artifact ≠ s.retrieve (o u₁).bucket (o u₁).artifact := by
  intro host o
  have hret : ∀ u, (o u).err = none ∧ s.retrieve (o u).bucket (o u).artifact =
      .ok (codec.encode [⟨"a.txt", 0o644, ⟨1⟩, u.uid, u.gid, "", "", [97]⟩]) := fun u =>
    retrieve_archive s codec canonical now t b a (host u) (fun _ _ => false) "/src"
      [("a.txt", .file 0o644 [97] ⟨1⟩ u)] rfl rfl
  refine ⟨(hret u₀).1, (hret u₁).1, fun h => hu ?_⟩
  rw [(hret u₀).2, (hret u₁).2] at h
  have hdec := congrArg codec.decode (Except.ok.inj h)
  rw [hcodec u₀ (by simp), hcodec u₁ (by simp)] at hdec
  obtain ⟨uid₀, gid₀⟩ := u₀
  obtain ⟨uid₁, gid₁⟩ := u₁
  simp only [Except.ok.injEq, Prod.mk.injEq, List.map_cons, List.map_nil, List.cons.injEq,
    Entry.roundModTime, Entry.mk.injEq] at hdec
  simp [hdec]

/-- The owners `0:0` and `1000:1000`, with `octalCodec`, satisfy the
hypotheses of `archive_differs_across_owners`. -/
theorem archive_differs_across_owners_root_builder :
    let s : S3Storage := ⟨"artifacts", "", "", defaultURLExpiration⟩
    let canonical : Algorithm := ⟨fun _ => "sha256:0"⟩
    let a : Artifact := { path := "gitrepository/default/app/rev1.tar.gz" }
    let u₀ : Owner := ⟨0, 0⟩
    let u₁ : Owner := ⟨1000, 1000⟩
    u₀ ≠ u₁ ∧
      (∀ u ∈ [u₀, u₁], octalCodec.RoundTrips [⟨"a.txt", 0o644, ⟨1⟩, u.uid, u.gid, "", "", [97]⟩]) ∧
      let host : Owner → Fs := fun u =>
        { root := .dir [("src", .dir [("a.txt", .file 0o644 [97] ⟨1⟩ u)])] }
      let o : Owner → Outcome := fun u =>
        s.archive octalCodec canonical ⟨10⟩ (.ok ⟨10⟩) (host u) (fun _ => none) Bucket.empty a
          ⟨"/src", some fun _ _ => false⟩
      (o u₀).err = none ∧ (o u₁).err = none ∧
        s.retrieve (o u₀).bucket (o u₀).artifact ≠ s.retrieve (o u₁).bucket (o u₁).artifact :=
  ⟨by decide, fun _ _ => octalCodec_roundTrips _,
    archive_differs_across_owners _ octalCodec _ ⟨10⟩ ⟨10⟩ Bucket.empty _ _ _ (by decide)
      fun _ _ => octalCodec_roundTrips _⟩

end SourceController

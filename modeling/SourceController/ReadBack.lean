import SourceController.ArchiveContents

/-!
# Reading one file back with `CopyToPath`

With a non-empty `subPath`, the loop of `CopyToPath` skips every entry whose
name does not start with `subPath` as a string, writes the others, and stops
after the entry named `subPath`.  The test is on strings, not on path
elements, so whether the loop finds the entry named `subPath` before any
other depends on the order of the stream.

`Archive` writes the entries in the walk's order: depth first, and in every
directory in the strictly increasing order of the names.  In that order no
entry before the one of a file `x` has a name that starts with the name of
`x`.  An earlier entry leaves the directories of `x` at some level for a
smaller name; a smaller name is not a string extension of a larger one, and
a longer name that starts with it goes on with a character of the name,
never with the slash that follows it in the earlier entry.

The main result is `copyToPath_archived_file`: after `Archive` of a
well-formed source, `CopyToPath` with the path of an archived file as
`subPath` writes that file's entry and nothing else.

`archive_entry_names` says what the stream holds in general: the entries
read back have distinct names, each a relative path of names, so joined onto
any directory each stays inside it.

With an empty `subPath` the loop writes every entry to `toPath` itself, so
`copyToPath_root_keeps_last_archived` finds there the bytes of the last
archived file.

All three take as their hypothesis `Codec.RoundTrips` at the entries archived,
which Go's tar and gzip layers meet; the loop of `CopyToPath` reads nothing
of an entry that the round trip changes.  The cases at the end use
`octalCodec`, which meets it at every list of entries.
-/

namespace SourceController

/-! ## Names joined with slashes -/

theorem joinSlash_cons_ne_empty {e : String} (he : FilePath.IsName e) (es : List String) :
    FilePath.joinSlash (e :: es) ≠ "" := fun h => by
  have hd := congrArg String.data h
  rw [FilePath.joinSlash_cons_data] at hd
  exact he.1.1 (String.ext (List.append_eq_nil.1 hd).1)

/-- A string below a name without a slash, followed by nothing or by a slash,
does not start with that name followed by anything. -/
theorem not_prefix_of_charsLess : ∀ {a b : List Char} (X Y : List Char), charsLess a b = true →
    '/' ∉ b → (X = [] ∨ X.head? = some '/') → ¬ (b ++ Y) <+: (a ++ X)
  | [], [], _, _, h, _, _ => by simp [charsLess] at h
  | _ :: _, [], _, _, h, _, _ => by simp [charsLess] at h
  | [], c :: b, X, Y, _, hb, hX => by
    rintro ⟨t, ht⟩
    rcases hX with rfl | hX
    · simp at ht
    · rw [List.nil_append] at ht
      rw [← ht] at hX
      simp only [List.cons_append, List.head?_cons, Option.some.injEq] at hX
      exact hb (hX ▸ List.mem_cons_self _ _)
  | a₀ :: a, b₀ :: b, X, Y, h, hb, hX => by
    rw [List.cons_append, List.cons_append, List.cons_prefix_cons]
    rintro ⟨rfl, hpre⟩
    simp [charsLess] at h
    exact not_prefix_of_charsLess X Y h (fun h' => hb (List.mem_cons_of_mem _ h')) hX hpre

/-- Of two paths that part at one level, the one with the smaller name there
does not start with the other. -/
theorem hasPrefix_joinSlash_of_less {a b : String} (hab : stringLess a b = true)
    (hb : FilePath.IsName b) (r t t' : List String) :
    hasPrefix (FilePath.joinSlash (r ++ a :: t)) (FilePath.joinSlash (r ++ b :: t')) = false := by
  rw [Bool.eq_false_iff, ne_eq, hasPrefix_iff, FilePath.joinSlash_append_cons_data,
    FilePath.joinSlash_append_cons_data, FilePath.joinSlash_cons_data, FilePath.joinSlash_cons_data,
    List.prefix_append_right_inj]
  refine not_prefix_of_charsLess _ _ hab hb.1.2 ?_
  split_ifs <;> simp

/-! ## The order of the archived files -/

variable {f : ArchiveFilter}

mutual

/-- The files below a node lie at its path followed by more elements. -/
theorem rel_of_mem_included : ∀ {n : Node} {r : List String} {y : SourceFile},
    y ∈ n.included f r → ∃ t, y.rel = r ++ t
  | .dir es, r, y, h => by
    rw [Node.included] at h
    split_ifs at h
    · exact absurd h (List.not_mem_nil _)
    · obtain ⟨name, m, t, -, hrel⟩ := rel_of_mem_entriesIncluded h
      exact ⟨name :: t, hrel⟩
  | .file _ _ _ _, r, y, h => by
    rw [Node.included] at h
    split_ifs at h
    · exact absurd h (List.not_mem_nil _)
    · exact ⟨[], by rw [List.mem_singleton.1 h, List.append_nil]⟩
  | .other, _, _, h => absurd h (List.not_mem_nil _)

/-- The files a directory's entries contribute lie below one of the entries. -/
theorem rel_of_mem_entriesIncluded : ∀ {es : List (String × Node)} {r : List String}
    {y : SourceFile}, y ∈ entriesIncluded f r es →
      ∃ name m t, (name, m) ∈ es ∧ y.rel = r ++ name :: t
  | [], _, _, h => absurd h (List.not_mem_nil _)
  | (name, n) :: es, r, y, h => by
    rcases List.mem_append.1 h with h | h
    · obtain ⟨t, ht⟩ := rel_of_mem_included h
      exact ⟨name, n, t, List.mem_cons_self _ _, by simp [ht]⟩
    · obtain ⟨name', m, t, hm, ht⟩ := rel_of_mem_entriesIncluded h
      exact ⟨name', m, t, List.mem_cons_of_mem _ hm, ht⟩

end

/-- Of two archived files, the earlier one's path never starts with the later
one's. -/
def NotPrefixOfLater (y x : SourceFile) : Prop :=
  hasPrefix (FilePath.joinSlash y.rel) (FilePath.joinSlash x.rel) = false

mutual

theorem included_pairwise : ∀ (n : Node) (r : List String), n.wellFormed = true →
    (n.included f r).Pairwise NotPrefixOfLater
  | .dir es, r, hwf => by
    rw [Node.included]
    split_ifs
    · exact List.Pairwise.nil
    · exact entriesIncluded_pairwise es r hwf
  | .file _ _ _ _, r, _ => by
    rw [Node.included]
    split_ifs
    · exact List.Pairwise.nil
    · exact List.pairwise_singleton _ _
  | .other, _, _ => List.Pairwise.nil

theorem entriesIncluded_pairwise : ∀ (es : List (String × Node)) (r : List String),
    entriesWellFormed es = true → (entriesIncluded f r es).Pairwise NotPrefixOfLater
  | [], _, _ => List.Pairwise.nil
  | (name, n) :: es, r, hwf => by
    obtain ⟨-, hless, hn, hes⟩ := entriesWellFormed_cons.1 hwf
    refine List.pairwise_append.2 ⟨included_pairwise n (r ++ [name]) hn,
      entriesIncluded_pairwise es r hes, fun y hy x hx => ?_⟩
    obtain ⟨t, hy⟩ := rel_of_mem_included hy
    obtain ⟨name', m, t', hm, hx⟩ := rel_of_mem_entriesIncluded hx
    rw [NotPrefixOfLater, hy, hx, List.append_assoc, List.singleton_append]
    exact hasPrefix_joinSlash_of_less (hless _ hm) (isName_of_mem_entriesWellFormed hes hm).1
      r t t'

end

/-! ## The loop of `CopyToPath` with a sub-path -/

mutual

/-- The files below a node lie at its elements followed by names. -/
theorem names_of_mem_included : ∀ {n : Node} {r : List String} {y : SourceFile},
    n.wellFormed = true → y ∈ n.included f r → ∃ t, y.rel = r ++ t ∧ ∀ e ∈ t, FilePath.IsName e
  | .dir es, r, y, hwf, h => by
    rw [Node.included] at h
    split_ifs at h
    · exact absurd h (List.not_mem_nil _)
    · obtain ⟨t, ht, -, hnames⟩ := names_of_mem_entriesIncluded hwf h
      exact ⟨t, ht, hnames⟩
  | .file _ _ _ _, r, y, _, h => by
    rw [Node.included] at h
    split_ifs at h
    · exact absurd h (List.not_mem_nil _)
    · exact ⟨[], by rw [List.mem_singleton.1 h, List.append_nil], fun e he => absurd he (List.not_mem_nil _)⟩
  | .other, _, _, _, h => absurd h (List.not_mem_nil _)

/-- The files a directory's entries contribute lie at its elements followed by
at least one name. -/
theorem names_of_mem_entriesIncluded : ∀ {es : List (String × Node)} {r : List String}
    {y : SourceFile}, entriesWellFormed es = true → y ∈ entriesIncluded f r es →
      ∃ t, y.rel = r ++ t ∧ t ≠ [] ∧ ∀ e ∈ t, FilePath.IsName e
  | [], _, _, _, h => absurd h (List.not_mem_nil _)
  | (name, n) :: es, r, y, hwf, h => by
    obtain ⟨hname, -, hn, hes⟩ := entriesWellFormed_cons.1 hwf
    rcases List.mem_append.1 h with h | h
    · obtain ⟨t, ht, hnames⟩ := names_of_mem_included hn h
      exact ⟨name :: t, by simp [ht], List.cons_ne_nil _ _,
        fun e he => (List.mem_cons.1 he).elim (· ▸ hname) (hnames e)⟩
    · exact names_of_mem_entriesIncluded hes h

end

section Extract

variable {now : Time} {sub toPath : String}

/-- Entries whose names do not start with `subPath` are passed over. -/
theorem extract_skip (hsub : sub ≠ "") :
    ∀ (fs : Fs) (skipped rest : List Entry) (err : Option String),
      (∀ e ∈ skipped, hasPrefix e.name sub = false) →
      extract now sub toPath fs (skipped ++ rest) err = extract now sub toPath fs rest err
  | _, [], _, _, _ => rfl
  | fs, e :: skipped, rest, err, h => by
    rw [List.cons_append, extract, if_pos ⟨hsub, h e (List.mem_cons_self _ _)⟩]
    exact extract_skip hsub fs skipped rest err fun e' he' => h e' (List.mem_cons_of_mem _ he')

/-- The entry named `subPath` is the last one the loop looks at. -/
theorem extract_stop (hsub : sub ≠ "") {e : Entry} (he : e.name = sub) (fs : Fs)
    (rest : List Entry) (err : Option String) :
    extract now sub toPath fs (e :: rest) err = extract now sub toPath fs [e] none := by
  simp [extract, hsub, he]

end Extract

/-! ## Reading back an archived file -/

/-- What `CopyToPath` reads back of what `Archive` stored from a directory,
with a filter that keeps `.`: the entries of the archived files, every time
rounded to the second, and the end of the stream. -/
theorem decode_archive {s : S3Storage} {codec : Codec} {canonical : Algorithm}
    {now t : Time} {b : Bucket} {a : Artifact} {fs : Fs} {f : ArchiveFilter} {src : String}
    {es : List (String × Node)} (hres : fs.resolve src = .ok (.dir es))
    (hwf : entriesWellFormed es = true) (hdot : f "." true = false)
    (hcodec : codec.RoundTrips ((entriesIncluded f [] es).map (SourceFile.entry fs))) :
    let o := s.archive codec canonical now (.ok t) fs (fun _ => none) b a ⟨src, some f⟩
    (s.retrieve o.bucket o.artifact >>= codec.decode) =
      .ok (((entriesIncluded f [] es).map (SourceFile.entry fs)).map Entry.roundModTime, none) := by
  have hret := (retrieve_archive s codec canonical now t b a fs f src es hres hwf).2
  rw [hdot, if_neg Bool.false_ne_true] at hret
  exact (congrArg (· >>= codec.decode) hret).trans hcodec

/-- `CopyToPath` of what `Archive` stored from a directory, with a filter
that keeps `.`, runs the extraction loop over the entries of the archived
files. -/
theorem copyToPath_archive {s : S3Storage} {codec : Codec} {canonical : Algorithm}
    {now t : Time} {b : Bucket} {a : Artifact} {fs : Fs} {f : ArchiveFilter} {src : String}
    {es : List (String × Node)} (hres : fs.resolve src = .ok (.dir es))
    (hwf : entriesWellFormed es = true) (hdot : f "." true = false)
    (hcodec : codec.RoundTrips ((entriesIncluded f [] es).map (SourceFile.entry fs)))
    (now' : Time) (fs' : Fs) (subPath toPath : String) :
    let o := s.archive codec canonical now (.ok t) fs (fun _ => none) b a ⟨src, some f⟩
    s.copyToPath codec o.bucket now' fs' o.artifact subPath toPath =
      extract now' subPath toPath fs' ((entriesIncluded f [] es).map (SourceFile.entry fs)) none := by
  simp only [S3Storage.copyToPath, decode_archive hres hwf hdot hcodec, extract_map_roundModTime]

/-- For every well-formed source tree and filter that keeps `.`, and every
file `x` that `Archive` included, `CopyToPath` with `x`'s path as `subPath`
does what it does on a stream that holds `x`'s entry alone: the entries before
it are skipped, and the loop stops after it.  The codec is assumed to keep
what Go's tar layer keeps of the entries archived. -/
theorem copyToPath_archived_file (s : S3Storage) (codec : Codec) (canonical : Algorithm)
    (now t now' : Time) (b : Bucket) (a : Artifact) (fs fs' : Fs) (f : ArchiveFilter)
    (src toPath : String) (es : List (String × Node)) (hres : fs.resolve src = .ok (.dir es))
    (hwf : entriesWellFormed es = true) (hdot : f "." true = false)
    (hcodec : codec.RoundTrips ((entriesIncluded f [] es).map (SourceFile.entry fs)))
    (x : SourceFile) (hx : x ∈ entriesIncluded f [] es) :
    let o := s.archive codec canonical now (.ok t) fs (fun _ => none) b a ⟨src, some f⟩
    s.copyToPath codec o.bucket now' fs' o.artifact (FilePath.joinSlash x.rel) toPath =
      extract now' (FilePath.joinSlash x.rel) toPath fs' [x.entry fs] none := by
  intro o
  obtain ⟨name, m, tail, hm, hrel⟩ := rel_of_mem_entriesIncluded hx
  have hsub : FilePath.joinSlash x.rel ≠ "" := by
    rw [hrel, List.nil_append]
    exact joinSlash_cons_ne_empty (isName_of_mem_entriesWellFormed hwf hm).1 tail
  obtain ⟨before, after, hsplit⟩ := List.append_of_mem hx
  have hbefore : ∀ y ∈ before, NotPrefixOfLater y x := fun y hy =>
    (List.pairwise_append.1 (hsplit ▸ entriesIncluded_pairwise es [] hwf)).2.2 y hy x
      (List.mem_cons_self _ _)
  rw [copyToPath_archive hres hwf hdot hcodec, hsplit, List.map_append, List.map_cons]
  rw [extract_skip hsub fs' _ _ none (by simpa [SourceFile.entry, fileInfoHeader] using hbefore),
    extract_stop hsub rfl]

/-- A chart directory that holds `values.yaml` and `values.yaml.bak`, both
archived with `octalCodec`: reading back `chart/values.yaml` extracts its
entry alone, although the name of the later `values.yaml.bak` also starts
with it. -/
theorem copyToPath_archived_file_values :
    let es : List (String × Node) := [("chart", .dir [("values.yaml", .file 0o644 [1] ⟨1⟩ ⟨0, 0⟩),
      ("values.yaml.bak", .file 0o644 [2] ⟨1⟩ ⟨0, 0⟩)])]
    let fs : Fs := { root := .dir [("src", .dir es)] }
    let f : ArchiveFilter := fun _ _ => false
    let s : S3Storage := ⟨"artifacts", "", "", defaultURLExpiration⟩
    let x : SourceFile := ⟨["chart", "values.yaml"], (Node.file 0o644 [1] ⟨1⟩ ⟨0, 0⟩).info, [1]⟩
    let out : Fs := { root := .dir [("out", .dir [])] }
    let o := s.archive octalCodec ⟨fun _ => "sha256:0"⟩ ⟨1⟩ (.ok ⟨1⟩) fs (fun _ => none)
      Bucket.empty { path := "gitrepository/default/app/rev1.tar.gz" } ⟨"/src", some f⟩
    fs.resolve "/src" = .ok (.dir es) ∧ entriesWellFormed es = true ∧ f "." true = false ∧
      octalCodec.RoundTrips ((entriesIncluded f [] es).map (SourceFile.entry fs)) ∧
      x ∈ entriesIncluded f [] es ∧
      s.copyToPath octalCodec o.bucket ⟨2⟩ out o.artifact (FilePath.joinSlash x.rel)
          "/out/values.yaml" =
        extract ⟨2⟩ (FilePath.joinSlash x.rel) "/out/values.yaml" out [x.entry fs] none := by
  intro es fs f s x out o
  have hres : fs.resolve "/src" = .ok (.dir es) := rfl
  have hwf : entriesWellFormed es = true := rfl
  have hx : x ∈ entriesIncluded f [] es := by decide
  exact ⟨hres, hwf, rfl, octalCodec_roundTrips _, hx,
    copyToPath_archived_file s octalCodec ⟨fun _ => "sha256:0"⟩ ⟨1⟩ ⟨1⟩ ⟨2⟩ Bucket.empty
      { path := "gitrepository/default/app/rev1.tar.gz" } fs out f "/src" "/out/values.yaml" es
      hres hwf rfl (octalCodec_roundTrips _) x hx⟩

/-! ## The names of archived entries -/

/-- For every well-formed source tree and filter that keeps `.`, the entries
`Archive` stores read back, with a codec that keeps what Go's tar layer
keeps, as entries with distinct names, each a relative path of names: joined
onto any directory, each stays inside it. -/
theorem archive_entry_names (s : S3Storage) (codec : Codec) (canonical : Algorithm)
    (now t : Time) (b : Bucket) (a : Artifact) (fs : Fs) (f : ArchiveFilter) (src : String)
    (es : List (String × Node)) (hres : fs.resolve src = .ok (.dir es))
    (hwf : entriesWellFormed es = true) (hdot : f "." true = false)
    (hcodec : codec.RoundTrips ((entriesIncluded f [] es).map (SourceFile.entry fs))) :
    let o := s.archive codec canonical now (.ok t) fs (fun _ => none) b a ⟨src, some f⟩
    ∃ entries, (s.retrieve o.bucket o.artifact >>= codec.decode) = .ok (entries, none) ∧
      (entries.map Entry.name).Nodup ∧
      ∀ e ∈ entries, ∀ root, root ≠ "" → FilePath.Within root (FilePath.join [root, e.name]) := by
  refine ⟨_, decode_archive hres hwf hdot hcodec, ?_, ?_⟩
  · rw [List.map_map, show Entry.name ∘ Entry.roundModTime = Entry.name from rfl]
    refine List.pairwise_map.2 (List.pairwise_map.2
      ((entriesIncluded_pairwise es [] hwf).imp fun h heq => ?_))
    simp only [SourceFile.entry, fileInfoHeader] at heq
    rw [NotPrefixOfLater, heq, hasPrefix_self] at h
    cases h
  · intro e he root hroot
    obtain ⟨e', he', rfl⟩ := List.mem_map.1 he
    obtain ⟨x, hx, rfl⟩ := List.mem_map.1 he'
    rw [Entry.roundModTime_name]
    obtain ⟨t, ht, -, hnames⟩ := names_of_mem_entriesIncluded hwf hx
    have hname : (x.entry fs).name = FilePath.joinSlash t := by
      simpa [SourceFile.entry, fileInfoHeader] using congrArg FilePath.joinSlash ht
    obtain ⟨hr, helems⟩ := FilePath.elems_joinSlash hnames
    rw [hname]
    exact FilePath.within_join hroot hr (by rw [helems]; exact fun h => (hnames _ h).2.2 rfl)

/-- The chart directory of `values.yaml` and `values.yaml.bak`, archived from
`/src` with `octalCodec`: the two entries read back under distinct relative
names. -/
theorem archive_entry_names_values :
    let es : List (String × Node) := [("chart", .dir [("values.yaml", .file 0o644 [1] ⟨1⟩ ⟨0, 0⟩),
      ("values.yaml.bak", .file 0o644 [2] ⟨1⟩ ⟨0, 0⟩)])]
    let fs : Fs := { root := .dir [("src", .dir es)] }
    let f : ArchiveFilter := fun _ _ => false
    let s : S3Storage := ⟨"artifacts", "", "", defaultURLExpiration⟩
    let o := s.archive octalCodec ⟨fun _ => "sha256:0"⟩ ⟨1⟩ (.ok ⟨1⟩) fs (fun _ => none)
      Bucket.empty { path := "gitrepository/default/app/rev1.tar.gz" } ⟨"/src", some f⟩
    fs.resolve "/src" = .ok (.dir es) ∧ entriesWellFormed es = true ∧ f "." true = false ∧
      octalCodec.RoundTrips ((entriesIncluded f [] es).map (SourceFile.entry fs)) ∧
      ∃ entries, (s.retrieve o.bucket o.artifact >>= octalCodec.decode) = .ok (entries, none) ∧
        (entries.map Entry.name).Nodup ∧
        ∀ e ∈ entries, ∀ root, root ≠ "" → FilePath.Within root (FilePath.join [root, e.name]) := by
  intro es fs f s o
  have hres : fs.resolve "/src" = .ok (.dir es) := rfl
  have hwf : entriesWellFormed es = true := rfl
  exact ⟨hres, hwf, rfl, octalCodec_roundTrips _,
    archive_entry_names s octalCodec ⟨fun _ => "sha256:0"⟩ ⟨1⟩ ⟨1⟩ Bucket.empty
      { path := "gitrepository/default/app/rev1.tar.gz" } fs f "/src" es hres hwf rfl
      (octalCodec_roundTrips _)⟩

/-! ## Reading back with an empty sub-path -/

/-- With an empty `subPath`, `CopyToPath` of what `Archive` stored writes
every archived file to the destination itself: for every well-formed source
tree and filter that keeps `.`, a successful run leaves at the destination a
regular file with the bytes of the last archived file in the walk's order,
written at the time of the run. -/
theorem copyToPath_root_keeps_last_archived (s : S3Storage) (codec : Codec)
    (canonical : Algorithm) (now t now' : Time) (b : Bucket) (a : Artifact) (fs fs' fs'' : Fs)
    (f : ArchiveFilter) (src toPath : String) (es : List (String × Node))
    (hres : fs.resolve src = .ok (.dir es)) (hwf : entriesWellFormed es = true)
    (hdot : f "." true = false)
    (hcodec : codec.RoundTrips ((entriesIncluded f [] es).map (SourceFile.entry fs)))
    (x : SourceFile) (hx : (entriesIncluded f [] es).getLast? = some x) :
    let o := s.archive codec canonical now (.ok t) fs (fun _ => none) b a ⟨src, some f⟩
    s.copyToPath codec o.bucket now' fs' o.artifact "" toPath = (fs'', none) →
      ∃ mode owner, fs''.lstat toPath = .ok (.file mode x.content now' owner) := by
  intro o hrun
  rw [copyToPath_archive hres hwf hdot hcodec] at hrun
  have hne : entriesIncluded f [] es ≠ [] := List.ne_nil_of_mem (List.mem_of_getLast?_eq_some hx)
  obtain ⟨mode, owner, h⟩ := extract_root_last (mt List.eq_nil_of_map_eq_nil hne) hrun
  rw [List.getLast_map] at h
  rw [List.getLast?_eq_getLast _ hne, Option.some_inj] at hx
  subst hx
  exact ⟨mode, owner, h⟩

/-- `a.txt` and `b.txt` archived with `octalCodec`, then read back with an
empty `subPath` into `/t`: the destination holds the bytes of `b.txt`. -/
theorem copyToPath_root_keeps_last_archived_two_files :
    let es : List (String × Node) :=
      [("a.txt", .file 0o644 [97] ⟨1⟩ ⟨0, 0⟩), ("b.txt", .file 0o600 [98] ⟨2⟩ ⟨0, 0⟩)]
    let fs : Fs := { root := .dir [("src", .dir es)] }
    let f : ArchiveFilter := fun _ _ => false
    let s : S3Storage := ⟨"artifacts", "", "", defaultURLExpiration⟩
    let a : Artifact := { path := "gitrepository/default/app/rev1.tar.gz" }
    let x : SourceFile := ⟨["b.txt"], (Node.file 0o600 [98] ⟨2⟩ ⟨0, 0⟩).info, [98]⟩
    let o := s.archive octalCodec ⟨fun _ => "sha256:0"⟩ ⟨10⟩ (.ok ⟨10⟩) fs (fun _ => none)
      Bucket.empty a ⟨"/src", some f⟩
    let r := s.copyToPath octalCodec o.bucket ⟨20⟩ fs o.artifact "" "/t"
    fs.resolve "/src" = .ok (.dir es) ∧ entriesWellFormed es = true ∧ f "." true = false ∧
      octalCodec.RoundTrips ((entriesIncluded f [] es).map (SourceFile.entry fs)) ∧
      (entriesIncluded f [] es).getLast? = some x ∧ r = (r.1, none) ∧
      ∃ mode owner, r.1.lstat "/t" = .ok (.file mode x.content ⟨20⟩ owner) := by
  intro es fs f s a x o r
  have hres : fs.resolve "/src" = .ok (.dir es) := rfl
  have hwf : entriesWellFormed es = true := rfl
  have hx : (entriesIncluded f [] es).getLast? = some x := rfl
  have hcodec := octalCodec_roundTrips ((entriesIncluded f [] es).map (SourceFile.entry fs))
  have hentries : (entriesIncluded f [] es).map (SourceFile.entry fs) =
      [⟨"a.txt", 0o644, ⟨1⟩, 0, 0, "", "", [97]⟩, ⟨"b.txt", 0o600, ⟨2⟩, 0, 0, "", "", [98]⟩] := by
    decide
  have hrun : r = (r.1, none) := by
    rw [show r = _ from copyToPath_archive hres hwf rfl hcodec ⟨20⟩ fs "" "/t", hentries]
    rfl
  exact ⟨hres, hwf, rfl, hcodec, hx, hrun,
    copyToPath_root_keeps_last_archived s octalCodec ⟨fun _ => "sha256:0"⟩ ⟨10⟩ ⟨10⟩ ⟨20⟩ Bucket.empty
      a fs fs r.1 f "/src" "/t" es hres hwf rfl hcodec x hx hrun⟩

end SourceController

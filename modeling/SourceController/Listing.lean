import SourceController.ArchiveContents
import SourceController.Filesystem

/-!
# What `FilesystemStorage.List` reports

`List` of the filesystem backend walks the directory of its scope and reports
every object below it that is not a directory, whose path does not end in
`.lock`, and that lies at least four elements below the base path: its path
relative to the base path, its modification time, and the URL
`SetArtifactURL` gives it.  The walk function tests only `IsDir`, so symbolic
links and the other objects that are not regular files are reported as well.

`Node.listed` is the declarative answer, by the same mutual recursion as
`Node.included` of the archive.  `FilesystemStorage.list_eq_listed` proves
that `List` of a well-formed scope directory returns it, one case per kind of
node, with `Below` as the invariant of the walk.

`FilesystemStorage.list_after_store` is the round trip: after `Store` of the
artifact `kind/namespace/name/file`, `List` of its scope reports it with the
time of the write, unless the file's name ends in `.lock`, in which case no
listed artifact has its path.  `FilesystemStorage.list_paths_nodup` says that a
listing never holds a path twice, as the object store's does not.
-/

namespace SourceController

/-! ## The declarative listing -/

/-- What `List` reports of an object that is not a directory, at the
elements `rel` below the base path: nothing when its name ends in `.lock` or
it lies fewer than four elements down, else its elements and its modification
time. -/
def leafListed (rel : List String) (t : Time) : List (List String × Time) :=
  if hasSuffix (rel.getLastD "") ".lock" || decide (rel.length < 4) then [] else [(rel, t)]

mutual

/-- What `List` reports below the node at the elements `rel` below the base
path, depth first, in each directory's order. -/
def Node.listed (rel : List String) : Node → List (List String × Time)
  | .dir es => entriesListed rel es
  | .file _ _ modTime _ => leafListed rel modTime
  | .other => leafListed rel Node.other.info.modTime

/-- What a directory's entries contribute, in the directory's order. -/
def entriesListed (rel : List String) : List (String × Node) → List (List String × Time)
  | [] => []
  | (name, n) :: es => n.listed (rel ++ [name]) ++ entriesListed rel es

end

example : (entriesListed ["gitrepository", "default"]
    [("app", .dir [("a.tar.gz", .file 0o600 [1] ⟨5⟩ ⟨0, 0⟩), ("a.tar.gz.lock", .file 0o600 [] ⟨6⟩ ⟨0, 0⟩),
      ("latest.tar.gz", .other)])]).map Prod.fst =
    [["gitrepository", "default", "app", "a.tar.gz"],
      ["gitrepository", "default", "app", "latest.tar.gz"]] := by decide

/-- The elements `List` walks below the base path: each filter field that is
set, up to the first that is not. -/
def scopeElems (filter : ArtifactFilter) : List String :=
  if filter.kind = "" then [] else
  if filter.«namespace» = "" then [filter.kind] else
  if filter.name = "" then [filter.kind, filter.«namespace»] else
  [filter.kind, filter.«namespace», filter.name]

/-- The artifact `List` makes of a listed object. -/
def FilesystemStorage.listedArtifact (fss : FilesystemStorage) (x : List String × Time) :
    Artifact :=
  fss.storage.setArtifactURL { path := FilePath.joinSlash x.1, lastUpdateTime := x.2 }

theorem mem_leafListed {rel : List String} {t : Time} {x : List String × Time}
    (h : x ∈ leafListed rel t) : x = (rel, t) := by
  unfold leafListed at h
  split_ifs at h
  · exact absurd h (List.not_mem_nil _)
  · exact List.mem_singleton.1 h

theorem mem_entriesListed_of_mem {rel : List String} {x : List String × Time} {name : String}
    {m : Node} : ∀ {es : List (String × Node)}, (name, m) ∈ es → x ∈ m.listed (rel ++ [name]) →
      x ∈ entriesListed rel es
  | [], h, _ => absurd h (List.not_mem_nil _)
  | (name', n) :: es, h, hx => by
    rcases List.mem_cons.1 h with h | h
    · obtain ⟨rfl, rfl⟩ := Prod.mk.inj h
      exact List.mem_append_left _ hx
    · exact List.mem_append_right _ (mem_entriesListed_of_mem h hx)

mutual

/-- The objects below a node are listed at its elements followed by more. -/
theorem rel_of_mem_listed : ∀ {n : Node} {rel : List String} {x : List String × Time},
    x ∈ n.listed rel → ∃ t, x.1 = rel ++ t
  | .dir es, _, _, h => by
    obtain ⟨name, -, t, -, -, ht⟩ := rel_of_mem_entriesListed h
    exact ⟨name :: t, ht⟩
  | .file _ _ _ _, _, _, h => ⟨[], by rw [mem_leafListed h, List.append_nil]⟩
  | .other, _, _, h => ⟨[], by rw [mem_leafListed h, List.append_nil]⟩

/-- The objects a directory's entries contribute are listed below one of the
entries. -/
theorem rel_of_mem_entriesListed : ∀ {es : List (String × Node)} {rel : List String}
    {x : List String × Time}, x ∈ entriesListed rel es →
      ∃ name m t, (name, m) ∈ es ∧ x ∈ m.listed (rel ++ [name]) ∧ x.1 = rel ++ name :: t
  | [], _, _, h => absurd h (List.not_mem_nil _)
  | (name, n) :: es, rel, x, h => by
    rcases List.mem_append.1 h with h | h
    · obtain ⟨t, ht⟩ := rel_of_mem_listed h
      exact ⟨name, n, t, List.mem_cons_self _ _, h, by simp [ht]⟩
    · obtain ⟨name', m, t, hm, hx, ht⟩ := rel_of_mem_entriesListed h
      exact ⟨name', m, t, List.mem_cons_of_mem _ hm, hx, ht⟩

end

mutual

/-- Below a node of a well-formed tree, objects are listed at its elements
followed by names. -/
theorem names_of_mem_listed : ∀ {n : Node} {rel : List String} {x : List String × Time},
    n.wellFormed = true → x ∈ n.listed rel → ∃ t, x.1 = rel ++ t ∧ ∀ e ∈ t, FilePath.IsName e
  | .dir _, _, _, hwf, h => names_of_mem_entriesListed hwf h
  | .file _ _ _ _, _, _, _, h => ⟨[], by rw [mem_leafListed h, List.append_nil], by simp⟩
  | .other, _, _, _, h => ⟨[], by rw [mem_leafListed h, List.append_nil], by simp⟩

theorem names_of_mem_entriesListed : ∀ {es : List (String × Node)} {rel : List String}
    {x : List String × Time}, entriesWellFormed es = true → x ∈ entriesListed rel es →
      ∃ t, x.1 = rel ++ t ∧ ∀ e ∈ t, FilePath.IsName e
  | [], _, _, _, h => absurd h (List.not_mem_nil _)
  | (name, n) :: es, rel, x, hwf, h => by
    obtain ⟨hname, -, hwfn, hwf'⟩ := entriesWellFormed_cons.1 hwf
    rcases List.mem_append.1 h with h | h
    · obtain ⟨t, ht, hnames⟩ := names_of_mem_listed hwfn h
      exact ⟨name :: t, by simp [ht], List.forall_mem_cons.2 ⟨hname, hnames⟩⟩
    · exact names_of_mem_entriesListed hwf' h

end

theorem nodup_leafListed (rel : List String) (t : Time) :
    ((leafListed rel t).map Prod.fst).Nodup := by
  unfold leafListed
  split_ifs <;> simp

mutual

/-- A well-formed tree lists no elements twice: the entries of a directory
have distinct names, and what each lists lies below its own name. -/
theorem nodup_listed : ∀ {n : Node} {rel : List String}, n.wellFormed = true →
    ((n.listed rel).map Prod.fst).Nodup
  | .dir _, _, hwf => nodup_entriesListed hwf
  | .file _ _ modTime _, rel, _ => nodup_leafListed rel modTime
  | .other, rel, _ => nodup_leafListed rel _

theorem nodup_entriesListed : ∀ {es : List (String × Node)} {rel : List String},
    entriesWellFormed es = true → ((entriesListed rel es).map Prod.fst).Nodup
  | [], _, _ => List.nodup_nil
  | (name, n) :: es, rel, hwf => by
    obtain ⟨-, hless, hwfn, hwf'⟩ := entriesWellFormed_cons.1 hwf
    rw [entriesListed, List.map_append, List.nodup_append]
    refine ⟨nodup_listed hwfn, nodup_entriesListed hwf', fun p hp hq => ?_⟩
    obtain ⟨x, hx, rfl⟩ := List.mem_map.1 hp
    obtain ⟨y, hy, hxy⟩ := List.mem_map.1 hq
    obtain ⟨t, ht⟩ := rel_of_mem_listed hx
    obtain ⟨name', m, t', hm, -, ht'⟩ := rel_of_mem_entriesListed hy
    rw [← hxy, ht', List.append_assoc, List.singleton_append] at ht
    obtain ⟨rfl, -⟩ := List.cons.inj (List.append_cancel_left ht)
    simpa [stringLess, charsLess_irrefl] using hless _ hm

end

/-- Names joined after a common part: the one after the part and the rest
come back from the joined string when the rest is a single name. -/
theorem joinSlash_eq_append_name {r : List String} {name file : String} {t : List String}
    (hfile : '/' ∉ file.data)
    (h : FilePath.joinSlash (r ++ name :: t) = FilePath.joinSlash (r ++ [file])) :
    name = file ∧ t = [] := by
  have hd := congrArg String.data h
  rw [FilePath.joinSlash_append_cons_data, FilePath.joinSlash_append_cons_data,
    FilePath.joinSlash_cons_data, FilePath.joinSlash_cons_data, List.append_cancel_left_eq,
    if_pos rfl, List.append_nil] at hd
  by_cases ht : t = []
  · subst ht
    exact ⟨String.ext (by simpa using hd), rfl⟩
  · rw [if_neg ht] at hd
    exact (hfile (hd ▸ List.mem_append_right _ (List.mem_cons_self _ _))).elim

/-! ## The walk of `List` -/

/-- A path below `base` names what its elements lead to below `base`. -/
theorem Fs.resolve_of_below {fs : Fs} {base p : String} {rel : List String} (hbase : base ≠ "")
    (h : Below base rel p) (hnames : ∀ e ∈ rel, FilePath.IsName e) :
    fs.resolve p = fs.resolve base >>= fun n => n.find rel := by
  have hq : fs.locate p = (fs.locate base).map (· ++ rel) :=
    Fs.locate_of_elems hbase h.1 h.2.1 h.2.2 hnames
  simp only [Fs.resolve, hq]
  cases fs.locate base <;> simp [Except.map, bind, Except.bind, find_append]

section Walk

variable (fss : FilesystemStorage) (fs : Fs)

theorem listVisit_dir (acc : List Artifact) (p : String) (es : List (String × Node)) :
    fss.listVisit acc p (some (Node.dir es).info) none = (acc, .ok) := by
  simp [FilesystemStorage.listVisit, Node.info]

/-- A visit of an object that is not a directory reports what
`leafListed` says. -/
theorem listVisit_leaf (n : Node) (hn : n.info.isDir = false) {acc : List Artifact} {p : String}
    {rel : List String} (hne : rel ≠ []) (hnames : ∀ e ∈ rel, FilePath.IsName e)
    (hbelow : Below fss.storage.basePath rel p)
    (hlock : hasSuffix p ".lock" = hasSuffix (rel.getLastD "") ".lock") :
    fss.listVisit acc p (some n.info) none =
      (acc ++ (leafListed rel n.info.modTime).map fss.listedArtifact, .ok) := by
  have hcount : ((FilePath.joinSlash rel).data.splitOn '/').length = rel.length := by
    rw [FilePath.splitOn_joinSlash (fun e he => (hnames e he).1.2) hne, List.length_map]
  simp only [FilesystemStorage.listVisit, hn, hlock, Bool.false_or, rel_of_below_ne hbelow hne,
    hcount, leafListed]
  cases hasSuffix (rel.getLastD "") ".lock" <;> by_cases h4 : rel.length < 4 <;>
    simp [h4, FilesystemStorage.listedArtifact]

mutual

/-- The walk below an object at `rel` adds what `Node.listed` lists there. -/
theorem walkNode_listVisit : ∀ (n : Node) (acc : List Artifact) (p : String) (rel : List String),
    rel ≠ [] → (∀ e ∈ rel, FilePath.IsName e) → Below fss.storage.basePath rel p →
    hasSuffix p ".lock" = hasSuffix (rel.getLastD "") ".lock" →
    fs.resolve p = .ok n → n.wellFormed = true →
      walkNode fss.listVisit acc p n = (acc ++ (n.listed rel).map fss.listedArtifact, .ok)
  | .dir es, acc, p, rel, _, hnames, hbelow, _, hres, hwf => by
    rw [walkNode, listVisit_dir]
    exact walkEntries_listVisit es acc p rel hnames hbelow (fun e he =>
      fs.resolve_join_name hres (isName_of_mem_entriesWellFormed hwf he).1
        (lookup_of_mem_entriesWellFormed hwf he)) hwf
  | .file mode content modTime owner, acc, p, rel, hne, hnames, hbelow, hlock, _, _ => by
    simp only [walkNode]
    rw [listVisit_leaf fss (.file mode content modTime owner) rfl hne hnames hbelow hlock]
    rfl
  | .other, acc, p, rel, hne, hnames, hbelow, hlock, _, _ => by
    simp only [walkNode]
    rw [listVisit_leaf fss .other rfl hne hnames hbelow hlock]
    rfl

/-- The loop over a directory's entries adds what each entry lists, in the
directory's order. -/
theorem walkEntries_listVisit :
    ∀ (es : List (String × Node)) (acc : List Artifact) (p : String) (rel : List String),
      (∀ e ∈ rel, FilePath.IsName e) → Below fss.storage.basePath rel p →
      (∀ e ∈ es, fs.resolve (FilePath.join [p, e.1]) = .ok e.2) → entriesWellFormed es = true →
      walkEntries fss.listVisit acc p es = (acc ++ (entriesListed rel es).map fss.listedArtifact, .ok)
  | [], acc, _, _, _, _, _, _ => by simp [walkEntries, entriesListed]
  | (name, n) :: es, acc, p, rel, hnames, hbelow, hres, hwf => by
    obtain ⟨hname, -, hwfn, hwf'⟩ := entriesWellFormed_cons.1 hwf
    have hnames' : ∀ e ∈ rel ++ [name], FilePath.IsName e := by
      simpa [or_imp, forall_and] using ⟨hnames, hname⟩
    have hnode := walkNode_listVisit n acc (FilePath.join [p, name]) (rel ++ [name]) (by simp)
      hnames' (below_join hbelow hname)
      (by simpa using FilePath.hasSuffix_join_name hbelow.1 hname (by decide))
      (hres _ (List.mem_cons_self _ _)) hwfn
    rw [walkEntries, hnode]
    dsimp only
    rw [walkEntries_listVisit es _ p rel hnames hbelow (fun e he => hres e (List.mem_cons_of_mem _ he))
      hwf']
    simp [entriesListed]

end

end Walk

/-- The scope's directory lies below the base path at the scope's
elements. -/
theorem below_listRoot (fss : FilesystemStorage) (filter : ArtifactFilter)
    (hbase : fss.storage.basePath ≠ "") (hscope : ∀ e ∈ scopeElems filter, FilePath.IsName e) :
    Below fss.storage.basePath (scopeElems filter) (fss.listRoot filter) := by
  have h₀ : Below fss.storage.basePath [] fss.storage.basePath := ⟨hbase, rfl, by simp⟩
  dsimp only [FilesystemStorage.listRoot]
  unfold scopeElems at hscope ⊢
  split_ifs at hscope ⊢
  · exact h₀
  · exact below_join h₀ (hscope _ (by simp))
  · exact below_join (below_join h₀ (hscope _ (by simp))) (hscope _ (by simp))
  · exact below_join (below_join (below_join h₀ (hscope _ (by simp))) (hscope _ (by simp)))
      (hscope _ (by simp))

/-- The walk of `List` over a scope whose directory is a well-formed
directory visits what `Node.listed` lists below it, and ends without error. -/
theorem walk_listVisit (fss : FilesystemStorage) (fs : Fs) (filter : ArtifactFilter)
    (hbase : fss.storage.basePath ≠ "") (hscope : ∀ e ∈ scopeElems filter, FilePath.IsName e)
    {es : List (String × Node)} (hres : fs.resolve (fss.listRoot filter) = .ok (.dir es))
    (hwf : entriesWellFormed es = true) :
    fs.walk fss.listVisit (fss.listRoot filter) [] =
      ((entriesListed (scopeElems filter) es).map fss.listedArtifact, .ok) := by
  have hlstat : fs.lstat (fss.listRoot filter) = .ok (.dir es) := by
    simp [Fs.lstat, hres, Except.mapError]
  have hwalk := walkEntries_listVisit fss fs es [] (fss.listRoot filter) (scopeElems filter) hscope
    (below_listRoot fss filter hbase hscope) (fun e he =>
      fs.resolve_join_name hres (isName_of_mem_entriesWellFormed hwf he).1
        (lookup_of_mem_entriesWellFormed hwf he)) hwf
  simp [Fs.walk, hlstat, walkNode, listVisit_dir, hwalk]

/-- The scope of three names is walked at those names. -/
theorem scopeElems_names {k ns n file : String} (hnames : ∀ e ∈ [k, ns, n, file], FilePath.IsName e) :
    scopeElems ⟨k, ns, n⟩ = [k, ns, n] ∧ ∀ e ∈ scopeElems ⟨k, ns, n⟩, FilePath.IsName e := by
  have hscope : scopeElems ⟨k, ns, n⟩ = [k, ns, n] := by
    simp [scopeElems, (hnames k (by simp)).1.1, (hnames ns (by simp)).1.1, (hnames n (by simp)).1.1]
  exact ⟨hscope, hscope ▸ fun e he => hnames e (List.mem_append_left [file] he)⟩

/-- After a successful `Store` of the artifact `kind/namespace/name/file`,
the directory `List` walks for the scope `kind/namespace/name` holds the
stored file under `file`. -/
theorem FilesystemStorage.listRoot_after_store {fss : FilesystemStorage} {canonical : Algorithm}
    {now : Time} {fs fs' : Fs} {a a' : Artifact} {r : Reader} (hbase : fss.storage.basePath ≠ "")
    (h : fss.store canonical now fs a r = .ok (fs', a')) {k ns n file : String}
    (hnames : ∀ e ∈ [k, ns, n, file], FilePath.IsName e)
    (hpath : a.path = FilePath.joinSlash [k, ns, n, file]) :
    ∃ es, fs'.resolve (fss.listRoot ⟨k, ns, n⟩) = .ok (.dir es) ∧
      es.lookup file = some (.file 0o600 r.bytes now fs.owner) := by
  obtain ⟨hscope, hscopeNames⟩ := scopeElems_names hnames
  obtain ⟨-, hstored, -⟩ := FilesystemStorage.resolve_store h
  obtain ⟨hrel, helems⟩ := FilePath.elems_joinSlash hnames
  rw [Storage.localPath, hpath, Fs.resolve_join_of_names hbase hrel (by simp [helems]) (by rwa [helems]),
    helems, show [k, ns, n, file] = [k, ns, n] ++ [file] from rfl] at hstored
  have hroot := @Fs.resolve_of_below fs' _ _ _ hbase (below_listRoot fss ⟨k, ns, n⟩ hbase hscopeNames)
    hscopeNames
  rw [hscope] at hroot
  obtain ⟨B, hB, hfind⟩ := bind_eq_ok.1 hstored
  rw [find_append] at hfind
  obtain ⟨M, hM, hfile⟩ := bind_eq_ok.1 hfind
  cases M with
  | dir es =>
    refine ⟨es, by rw [hroot, hB]; exact hM, ?_⟩
    rw [find_dir_cons] at hfile
    cases hl : es.lookup file <;> simp [hl] at hfile ⊢
    exact hfile
  | file _ _ _ _ => cases hfile
  | other => cases hfile

/-- After a successful `Store` of the artifact `kind/namespace/name/file` on a
well-formed file system, `List` of the scope `kind/namespace/name` succeeds.
It reports the artifact, with the time of the write and its URL, when the
file's name does not end in `.lock`; when it does, no listed artifact has the
artifact's path. -/
theorem FilesystemStorage.list_after_store {fss : FilesystemStorage} {canonical : Algorithm}
    {now : Time} {fs fs' : Fs} {a a' : Artifact} {r : Reader} (hbase : fss.storage.basePath ≠ "")
    (hwf : fs.WellFormed) (h : fss.store canonical now fs a r = .ok (fs', a'))
    {k ns n file : String} (hnames : ∀ e ∈ [k, ns, n, file], FilePath.IsName e)
    (hpath : a.path = FilePath.joinSlash [k, ns, n, file]) :
    ∃ L, fss.list fs' ⟨k, ns, n⟩ = .ok L ∧
      (hasSuffix file ".lock" = false →
        fss.storage.setArtifactURL { path := a.path, lastUpdateTime := now } ∈ L) ∧
      (hasSuffix file ".lock" = true → ∀ y ∈ L, y.path ≠ a.path) := by
  obtain ⟨hscope, hscopeNames⟩ := scopeElems_names hnames
  obtain ⟨es, hres, hlookup⟩ := FilesystemStorage.listRoot_after_store hbase h hnames hpath
  have hwf' : entriesWellFormed es = true :=
    Fs.wellFormed_resolve (FilesystemStorage.wellFormed_store hwf h) hres
  refine ⟨(entriesListed (scopeElems ⟨k, ns, n⟩) es).map fss.listedArtifact,
    by simp [FilesystemStorage.list, walk_listVisit fss fs' _ hbase hscopeNames hres hwf'], ?_, ?_⟩
  · intro hlock
    rw [hscope]
    refine List.mem_map.2 ⟨([k, ns, n, file], now), mem_entriesListed_of_mem
      (mem_of_lookup_eq_some hlookup) ?_, by simp [FilesystemStorage.listedArtifact, hpath]⟩
    simp [Node.listed, leafListed, hlock]
  · intro hlock y hy hy'
    rw [hscope] at hy
    obtain ⟨x, hx, rfl⟩ := List.mem_map.1 hy
    obtain ⟨name, m, t, hm, hxm, ht⟩ := rel_of_mem_entriesListed hx
    have hjoin : FilePath.joinSlash ([k, ns, n] ++ name :: t) = FilePath.joinSlash ([k, ns, n] ++ [file]) := by
      rw [← ht]
      exact hy'.trans hpath
    obtain ⟨rfl, rfl⟩ := joinSlash_eq_append_name (hnames file (by simp)).1.2 hjoin
    rw [lookup_of_mem_entriesWellFormed hwf' hm] at hlookup
    cases hlookup
    simp [Node.listed, leafListed, hlock] at hxm

/-- `Store` of `gitrepository/default/app/a.tar.gz` on an empty base path
`/data`, then `List` of its scope. -/
theorem list_after_store_app :
    let fss : FilesystemStorage := ⟨⟨"/data", "localhost:9090", 3600000000000, 2⟩⟩
    let fs : Fs := { root := .dir [("data", .dir [])] }
    let a : Artifact := { path := "gitrepository/default/app/a.tar.gz" }
    let fs' : Fs := { root := .dir [("data", .dir [("gitrepository", .dir [("default",
      .dir [("app", .dir [("a.tar.gz", .file 0o600 [1, 2] ⟨7⟩ ⟨0, 0⟩)])])])])] }
    let a' : Artifact := { a with digest := "d", size := some 2, lastUpdateTime := ⟨7⟩ }
    fss.storage.basePath ≠ "" ∧ fs.WellFormed ∧
      fss.store ⟨fun _ => "d"⟩ ⟨7⟩ fs a ⟨[[1, 2]], none⟩ = .ok (fs', a') ∧
      (∀ e ∈ ["gitrepository", "default", "app", "a.tar.gz"], FilePath.IsName e) ∧
      a.path = FilePath.joinSlash ["gitrepository", "default", "app", "a.tar.gz"] ∧
      ∃ L, fss.list fs' ⟨"gitrepository", "default", "app"⟩ = .ok L ∧
        (hasSuffix "a.tar.gz" ".lock" = false →
          fss.storage.setArtifactURL { path := a.path, lastUpdateTime := ⟨7⟩ } ∈ L) ∧
        (hasSuffix "a.tar.gz" ".lock" = true → ∀ y ∈ L, y.path ≠ a.path) := by
  intro fss fs a fs' a'
  have hbase : fss.storage.basePath ≠ "" := by simp only [fss]; decide
  have hwf : fs.WellFormed := ⟨rfl, fun _ h => absurd h (List.not_mem_nil _)⟩
  have hst : fss.store ⟨fun _ => "d"⟩ ⟨7⟩ fs a ⟨[[1, 2]], none⟩ = .ok (fs', a') := by
    simp only [fss, fs, a, fs', a']; rfl
  have hnames : ∀ e ∈ ["gitrepository", "default", "app", "a.tar.gz"], FilePath.IsName e := by
    decide
  have hpath : a.path = FilePath.joinSlash ["gitrepository", "default", "app", "a.tar.gz"] := by
    simp only [a]; decide
  exact ⟨hbase, hwf, hst, hnames, hpath, FilesystemStorage.list_after_store hbase hwf hst hnames hpath⟩

/-! ## No path listed twice -/

theorem nodup_map_of_length_le_one {α β : Type} {f : α → β} :
    ∀ {l : List α}, l.length ≤ 1 → (l.map f).Nodup
  | [], _ => List.nodup_nil
  | [_], _ => List.nodup_singleton _
  | _ :: _ :: _, h => by simp at h

section Nodup

variable (fss : FilesystemStorage)

/-- A visit reports at most the object it is handed. -/
theorem listVisit_nil_length (p : String) (info : Option FileInfo) (err : Option String) :
    (fss.listVisit [] p info err).1.length ≤ 1 := by
  unfold FilesystemStorage.listVisit
  split
  · simp
  · simp
  · split_ifs
    · simp
    · split
      · simp
      · split_ifs <;> simp

/-- On a scope whose directory is an object other than a directory, the walk
visits that object alone. -/
theorem list_length_of_leaf_root {fs : Fs} {filter : ArtifactFilter} {n : Node}
    (hres : fs.resolve (fss.listRoot filter) = .ok n) (hn : n.info.isDir = false)
    {L : List Artifact} (h : fss.list fs filter = .ok L) : L.length ≤ 1 := by
  have hnode : walkNode fss.listVisit [] (fss.listRoot filter) n =
      fss.listVisit [] (fss.listRoot filter) (some n.info) none := by
    cases n with
    | dir es => cases hn
    | file _ _ _ _ => simp only [walkNode]
    | other => simp only [walkNode]
  have hlstat : fs.lstat (fss.listRoot filter) = .ok n := by simp [Fs.lstat, hres, Except.mapError]
  have hlen := listVisit_nil_length fss (fss.listRoot filter) (some n.info) none
  simp only [FilesystemStorage.list, Fs.walk, hlstat, hnode] at h
  revert hlen h
  rcases fss.listVisit [] (fss.listRoot filter) (some n.info) none with ⟨acc, _ | _ | e⟩ <;>
    rintro hlen ⟨⟩
  exacts [hlen, hlen]

end Nodup

/-- On a well-formed file system, `List` of the filesystem backend never
reports a path twice: the entries of a directory have distinct names, and the
relative path of a listed object gives back its elements. -/
theorem FilesystemStorage.list_paths_nodup (fss : FilesystemStorage) (fs : Fs)
    (filter : ArtifactFilter) (hbase : fss.storage.basePath ≠ "")
    (hscope : ∀ e ∈ scopeElems filter, FilePath.IsName e) (hwf : fs.WellFormed)
    {L : List Artifact} (h : fss.list fs filter = .ok L) : (L.map Artifact.path).Nodup := by
  cases hres : fs.resolve (fss.listRoot filter) with
  | error e =>
    have hlstat : fs.lstat (fss.listRoot filter) =
        .error (pathError "lstat" (fss.listRoot filter) e) := by
      simp [Fs.lstat, hres, Except.mapError]
    rw [FilesystemStorage.list_of_lstat_error hlstat] at h
    cases h
  | ok n =>
    cases n with
    | dir es =>
      have hwf' : entriesWellFormed es = true := Fs.wellFormed_resolve hwf hres
      rw [FilesystemStorage.list, walk_listVisit fss fs filter hbase hscope hres hwf'] at h
      cases h
      have hpath : Artifact.path ∘ fss.listedArtifact = FilePath.joinSlash ∘ Prod.fst := rfl
      rw [List.map_map, hpath, ← List.map_map]
      have hseg : ∀ z ∈ (entriesListed (scopeElems filter) es).map Prod.fst, ∀ e ∈ z, IsSegment e := by
        intro z hz e he
        obtain ⟨w, hw, rfl⟩ := List.mem_map.1 hz
        obtain ⟨t, ht, hnames⟩ := names_of_mem_entriesListed hwf' hw
        rw [ht] at he
        rcases List.mem_append.1 he with he | he
        exacts [(hscope e he).1, (hnames e he).1]
      exact (nodup_entriesListed hwf').map_on fun x hx y hy hxy =>
        FilePath.joinSlash_inj (hseg x hx) (hseg y hy) hxy
    | file _ _ _ _ => exact nodup_map_of_length_le_one (list_length_of_leaf_root fss hres rfl h)
    | other => exact nodup_map_of_length_le_one (list_length_of_leaf_root fss hres rfl h)

/-- The scope `gitrepository/default`, holding the same file name under two
names. -/
theorem list_paths_nodup_two_names :
    let fss : FilesystemStorage := ⟨⟨"/data", "localhost:9090", 3600000000000, 2⟩⟩
    let fs : Fs := { root := .dir [("data", .dir [("gitrepository", .dir [("default", .dir
      [("app", .dir [("a.tar.gz", .file 0o600 [1] ⟨5⟩ ⟨0, 0⟩)]),
        ("web", .dir [("a.tar.gz", .file 0o600 [2] ⟨6⟩ ⟨0, 0⟩)])])])])] }
    let filter : ArtifactFilter := ⟨"gitrepository", "default", ""⟩
    let L : List Artifact :=
      [{ path := "gitrepository/default/app/a.tar.gz", lastUpdateTime := ⟨5⟩,
          url := "http://localhost:9090/gitrepository/default/app/a.tar.gz" },
        { path := "gitrepository/default/web/a.tar.gz", lastUpdateTime := ⟨6⟩,
          url := "http://localhost:9090/gitrepository/default/web/a.tar.gz" }]
    fss.storage.basePath ≠ "" ∧ (∀ e ∈ scopeElems filter, FilePath.IsName e) ∧ fs.WellFormed ∧
      fss.list fs filter = .ok L ∧ (L.map Artifact.path).Nodup := by
  intro fss fs filter L
  have hbase : fss.storage.basePath ≠ "" := by simp only [fss]; decide
  have hscope : ∀ e ∈ scopeElems filter, FilePath.IsName e := by simp only [filter]; decide
  have hwf : fs.WellFormed := ⟨by simp only [fs]; decide, fun _ h => absurd h (List.not_mem_nil _)⟩
  have h : fss.list fs filter = .ok L := by simp only [fss, fs, filter, L]; rfl
  exact ⟨hbase, hscope, hwf, h, FilesystemStorage.list_paths_nodup fss fs filter hbase hscope hwf h⟩

end SourceController

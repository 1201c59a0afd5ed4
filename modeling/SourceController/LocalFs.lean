import SourceController.FilePath

/-!
# The local file system

`Archive` walks a source directory and opens its files, `CopyFromPath` opens a
file, `CopyToPath` creates directories and writes files, and the filesystem
backend keeps its artifacts as files.  This module models the part of `os` and
`path/filepath` those calls use: `Lstat`, `Open` with a read to the end,
`MkdirAll`, `OpenFile` with `O_CREATE|O_WRONLY|O_TRUNC` followed by a write,
and `filepath.Walk`.

A `Node` is a file-system object: a regular file with its permission bits,
bytes and modification time, a directory with its entries, or any other object
(a symbolic link, a device, a socket, a named pipe), whose content the model
does not represent.  `Fs` is the tree from `/` with the process's working
directory and umask.

Paths are resolved lexically: a relative path is put after the working
directory and the result cleaned as `filepath.Clean` does.  The kernel instead
follows the path element by element, which differs only when an element before
a `..` is missing, is not a directory, or is a symbolic link.  The model does
not follow links: opening an `other` node fails.

Failures carry the text of Go's `*PathError`, `op path: message`.  When
`MkdirAll` fails on an ancestor, Go names the ancestor; the model names the
argument.

`filepath.Walk` is the pair `walkNode`/`walkEntries`, by mutual structural
recursion on the tree, with the walk function's state threaded through as an
accumulator.  The main facts are:

* `find_modifyAt`: after a change at a path, the path holds what the change
  made of the node there;
* `lstat_writeFile`: after a successful write, the path is a regular file
  with the bytes written;
* `Fs.resolve_mkdirAll_of_not_dir`: `MkdirAll` only adds directories, and
  every other node stays where it was;
* `Fs.wellFormed_mkdirAll` and `Fs.wellFormed_writeFile`: the changes keep a
  file system well formed, every name one path element and every directory
  in strictly increasing name order, the order `filepath.Walk` reads it in.
-/

namespace SourceController

/-! ## Nodes -/

/-- The user and group ids `stat` reports for a file. -/
structure Owner where
  uid : Nat
  gid : Nat
  deriving DecidableEq, Repr

/-- A file-system object as `os.Lstat` sees it. -/
inductive Node where
  /-- A regular file: its mode bits (permissions, set-id and sticky bits),
  bytes, modification time and owner. -/
  | file (mode : Nat) (content : Bytes) (modTime : Time) (owner : Owner)
  /-- A directory: its entries by name, in the order `ReadDir` sorts them. -/
  | dir (entries : List (String × Node))
  /-- A symbolic link, a device, a socket or a named pipe. -/
  | other
  deriving Repr

/-- The part of `os.FileInfo` the storage package reads. -/
structure FileInfo where
  isDir : Bool
  isRegular : Bool
  mode : Nat
  size : Nat
  modTime : Time
  /-- The `Uid` and `Gid` of the `*syscall.Stat_t` behind `Sys()`. -/
  owner : Owner
  deriving DecidableEq, Repr

/-- What `os.Lstat` reports of a node. -/
def Node.info : Node → FileInfo
  | .file mode content modTime owner => ⟨false, true, mode, content.length, modTime, owner⟩
  | .dir _ => ⟨true, false, 0, 0, ⟨0⟩, ⟨0, 0⟩⟩
  | .other => ⟨false, false, 0, 0, ⟨0⟩, ⟨0, 0⟩⟩

/-- The `syscall.Errno`s the modelled calls return. -/
inductive Errno where
  | noent
  | notdir
  | isdir
  | notsup
  deriving DecidableEq, Repr

/-- `Errno.Error()`. -/
def Errno.text : Errno → String
  | .noent => "no such file or directory"
  | .notdir => "not a directory"
  | .isdir => "is a directory"
  | .notsup => "operation not supported"

/-- `(*os.PathError).Error()`. -/
def pathError (op path : String) (e : Errno) : String := op ++ " " ++ path ++ ": " ++ e.text

/-- The local file system of the process. -/
structure Fs where
  root : Node
  cwd : List String := []
  umask : Nat := 0o022
  /-- The user and group of the process, which own the files it creates. -/
  owner : Owner := ⟨0, 0⟩
  /-- The host's user database: the name of a user id, if it has one. -/
  userName : Nat → Option String := fun _ => none
  /-- The host's group database: the name of a group id, if it has one. -/
  groupName : Nat → Option String := fun _ => none

/-! ## Lookup -/

/-- The node at a path of elements below `n`. -/
def Node.find : Node → List String → Except Errno Node
  | n, [] => .ok n
  | .dir es, x :: xs =>
    match es.lookup x with
    | some n => n.find xs
    | none => .error .noent
  | _, _ :: _ => .error .notdir

namespace Fs

variable (fs : Fs)

/-- The elements of the absolute path `p` names; the empty path names
nothing. -/
def locate (p : String) : Except Errno (List String) :=
  if p = "" then .error .noent
  else .ok (FilePath.cleanElems true (if hasPrefix p "/" then splitPath p else fs.cwd ++ splitPath p))

/-- The node `p` names. -/
def resolve (p : String) : Except Errno Node := fs.locate p >>= fs.root.find

/-- `os.Lstat(p)`. -/
def lstat (p : String) : Except String Node := (fs.resolve p).mapError (pathError "lstat" p)

/-- `os.Stat(p)`.  The model follows no links, so it finds what `Lstat`
finds. -/
def stat (p : String) : Except String Node := (fs.resolve p).mapError (pathError "stat" p)

/-- `os.Open(p)` and a read to the end: the bytes of a regular file.  `Open`
succeeds on a directory and the first `Read` fails. -/
def «open» (p : String) : Except String Reader :=
  match fs.resolve p with
  | .error e => .error (pathError "open" p e)
  | .ok (.file _ content _ _) => .ok ⟨[content], none⟩
  | .ok (.dir _) => .ok ⟨[], some (pathError "read" p .isdir)⟩
  | .ok .other => .error (pathError "open" p .notsup)

end Fs

/-! ## Changes -/

/-- The entries with `name` bound to `n`: in place when `name` is there,
otherwise at its place in name order. -/
def setEntry : List (String × Node) → String → Node → List (String × Node)
  | [], name, n => [(name, n)]
  | (x, m) :: rest, name, n =>
    if x = name then (name, n) :: rest
    else if stringLess name x then (name, n) :: (x, m) :: rest
    else (x, m) :: setEntry rest name n

/-- `n` with `f` applied to the node at `path`; the way there must be
directories that exist. -/
def Node.modifyAt (f : Node → Except Errno Node) : Node → List String → Except Errno Node
  | n, [] => f n
  | .dir es, x :: xs =>
    match es.lookup x with
    | some m => (m.modifyAt f xs).map fun m' => .dir (setEntry es x m')
    | none => .error .noent
  | _, _ :: _ => .error .notdir

/-- `os.MkdirAll` on a path of elements: every missing directory on the way is
created; an existing non-directory on the way is an error. -/
def Node.mkdirAll : Node → List String → Except Errno Node
  | .dir es, [] => .ok (.dir es)
  | _, [] => .error .notdir
  | .dir es, x :: xs =>
    (((es.lookup x).getD (.dir [])).mkdirAll xs).map fun m => .dir (setEntry es x m)
  | _, _ :: _ => .error .notdir

/-- The permission bits `open(2)` gives a file it creates with `mode`: the
permission bits of `mode` without those of the umask. -/
def createMode (mode umask : Nat) : Nat := (mode % 512) &&& (511 - (umask &&& 511))

/-- `O_CREATE|O_TRUNC` of the entry `name` of a directory, and a write of
`content`: a new file gets `mode` less the umask and the process as its
owner, an existing file keeps its mode and owner. -/
def writeEntry (umask mode : Nat) (owner : Owner) (content : Bytes) (now : Time) (name : String) :
    Node → Except Errno Node
  | .dir es =>
    match es.lookup name with
    | none => .ok (.dir (setEntry es name (.file (createMode mode umask) content now owner)))
    | some (.file m _ _ o) => .ok (.dir (setEntry es name (.file m content now o)))
    | some (.dir _) => .error .isdir
    | some .other => .error .notsup
  | _ => .error .notdir

namespace Fs

variable (fs : Fs)

/-- `os.MkdirAll(p, perm)`. -/
def mkdirAll (p : String) : Except String Fs :=
  match fs.locate p >>= fs.root.mkdirAll with
  | .ok root => .ok { fs with root }
  | .error e => .error (pathError "mkdir" p e)

/-- A change of the entry `p` names in its parent directory; `op` names the
system call in the error. -/
def changeEntry (op p : String) (f : String → Node → Except Errno Node) : Except String Fs :=
  let r := fs.locate p >>= fun es =>
    match es.getLast? with
    | none => .error .isdir
    | some name => fs.root.modifyAt (f name) es.dropLast
  match r with
  | .ok root => .ok { fs with root }
  | .error e => .error (pathError op p e)

/-- `os.OpenFile(p, O_CREATE|O_WRONLY|O_TRUNC, mode)`, a write of `content`
and `Close`; `now` is the modification time the write stamps. -/
def writeFile (now : Time) (p : String) (mode : Nat) (content : Bytes) : Except String Fs :=
  fs.changeEntry "open" p (writeEntry fs.umask mode fs.owner content now)

end Fs

/-! ## What the changes do -/

theorem map_eq_ok {ε α β : Type} {f : α → β} {x : Except ε α} {b : β} :
    x.map f = .ok b ↔ ∃ a, x = .ok a ∧ f a = b := by
  cases x <;> simp [Except.map]

theorem bind_eq_ok {ε α β : Type} {f : α → Except ε β} {x : Except ε α} {b : β} :
    x >>= f = .ok b ↔ ∃ a, x = .ok a ∧ f a = .ok b := by
  cases x <;> simp [bind, Except.bind]

theorem lookup_cons_eq {β : Type} (k a : String) (b : β) (es : List (String × β)) :
    ((k, b) :: es).lookup a = if a = k then some b else es.lookup a := by
  by_cases h : a = k
  · simp [List.lookup_cons, h]
  · simp [List.lookup_cons, h, beq_false_of_ne h]

@[simp] theorem lookup_setEntry_self :
    ∀ (es : List (String × Node)) (name : String) (n : Node),
      (setEntry es name n).lookup name = some n
  | [], _, _ => by simp [setEntry, lookup_cons_eq]
  | (x, m) :: rest, name, n => by
    unfold setEntry
    split_ifs with h₁
    · simp [lookup_cons_eq]
    · simp [lookup_cons_eq]
    · simp [lookup_cons_eq, lookup_setEntry_self rest, Ne.symm h₁]

theorem lookup_setEntry_ne :
    ∀ (es : List (String × Node)) {name y : String} (n : Node), y ≠ name →
      (setEntry es name n).lookup y = es.lookup y
  | [], _, _, _, h => by simp [setEntry, lookup_cons_eq, h]
  | (x, m) :: rest, name, y, n, h => by
    unfold setEntry
    split_ifs with h₁
    · subst h₁; simp [lookup_cons_eq, h]
    · simp [lookup_cons_eq, h]
    · simp [lookup_cons_eq, lookup_setEntry_ne rest n h]

@[simp] theorem find_nil (n : Node) : n.find [] = .ok n := by
  cases n <;> rfl

@[simp] theorem find_dir_cons (es : List (String × Node)) (x : String) (xs : List String) :
    (Node.dir es).find (x :: xs) = match es.lookup x with
      | some n => n.find xs
      | none => .error .noent := rfl

/-- Looking up a path in two steps. -/
theorem find_append : ∀ (n : Node) (xs ys : List String),
    n.find (xs ++ ys) = n.find xs >>= fun m => m.find ys
  | n, [], ys => by simp [bind, Except.bind]
  | .dir es, x :: xs, ys => by
    simp only [List.cons_append, find_dir_cons]
    cases es.lookup x with
    | some m => exact find_append m xs ys
    | none => rfl
  | .file _ _ _ _, _ :: _, _ => rfl
  | .other, _ :: _, _ => rfl

@[simp] theorem modifyAt_nil (f : Node → Except Errno Node) (n : Node) : n.modifyAt f [] = f n := by
  cases n <;> rfl

/-- After a change at a path, the path holds what the change made of the node
that was there. -/
theorem find_modifyAt {f : Node → Except Errno Node} :
    ∀ {n n' : Node} {path : List String}, n.modifyAt f path = .ok n' →
      ∃ m m', n.find path = .ok m ∧ f m = .ok m' ∧ n'.find path = .ok m'
  | n, n', [], h => ⟨n, n', find_nil n, by rwa [modifyAt_nil] at h, find_nil n'⟩
  | .dir es, n', x :: xs, h => by
    simp only [Node.modifyAt] at h
    cases hx : es.lookup x with
    | none => simp [hx] at h
    | some m₀ =>
      rw [hx] at h
      obtain ⟨m₀', hm₀, rfl⟩ := map_eq_ok.1 h
      obtain ⟨m, m', hfind, hf, hfind'⟩ := find_modifyAt hm₀
      exact ⟨m, m', by simp [hx, hfind], hf, by simp [hfind']⟩
  | .file _ _ _ _, _, _ :: _, h => by simp [Node.modifyAt] at h
  | .other, _, _ :: _, h => by simp [Node.modifyAt] at h

/-- `MkdirAll` only adds directories: every node that is not a directory is
found where it was. -/
theorem find_mkdirAll_of_not_dir :
    ∀ {n n' : Node} {path ys : List String} {m : Node}, n.mkdirAll path = .ok n' →
      n.find ys = .ok m → m.info.isDir = false → n'.find ys = .ok m
  | .dir es, _, [], _, _, h, hf, _ => by cases h; exact hf
  | .dir es, _, x :: xs, ys, m, h, hf, hm => by
    simp only [Node.mkdirAll] at h
    obtain ⟨m', hm', rfl⟩ := map_eq_ok.1 h
    cases ys with
    | nil => cases hf; cases hm
    | cons y ys =>
      rw [find_dir_cons] at hf ⊢
      by_cases hy : y = x
      · subst hy
        rw [lookup_setEntry_self]
        cases hx : es.lookup y with
        | none => rw [hx] at hf; cases hf
        | some m₀ =>
          rw [hx] at hf
          rw [hx, Option.getD_some] at hm'
          exact find_mkdirAll_of_not_dir hm' hf hm
      · rwa [lookup_setEntry_ne es m' hy]
  | .file _ _ _ _, _, [], _, _, h, _, _ => by simp [Node.mkdirAll] at h
  | .other, _, [], _, _, h, _, _ => by simp [Node.mkdirAll] at h
  | .file _ _ _ _, _, _ :: _, _, _, h, _, _ => by simp [Node.mkdirAll] at h
  | .other, _, _ :: _, _, _, h, _, _ => by simp [Node.mkdirAll] at h

/-- A write into a directory leaves a regular file with the bytes written. -/
theorem writeEntry_eq_ok {umask mode : Nat} {owner : Owner} {content : Bytes} {now : Time}
    {name : String} {m r : Node} (h : writeEntry umask mode owner content now name m = .ok r) :
    ∃ es mode' owner', m = .dir es ∧
      r = .dir (setEntry es name (.file mode' content now owner')) := by
  cases m with
  | dir es =>
    refine ⟨es, ?_⟩
    simp only [writeEntry] at h
    split at h
    · exact ⟨_, _, rfl, (Except.ok.inj h).symm⟩
    · exact ⟨_, _, rfl, (Except.ok.inj h).symm⟩
    · cases h
    · cases h
  | file _ _ _ _ => cases h
  | other => cases h

namespace Fs

variable {fs fs' : Fs}

/-- What a successful change of an entry did: it changed the parent directory
of the path it resolved. -/
theorem changeEntry_eq_ok {op p : String} {f : String → Node → Except Errno Node}
    (h : fs.changeEntry op p f = .ok fs') :
    ∃ es name root', fs.locate p = .ok es ∧ es.getLast? = some name ∧
      fs.root.modifyAt (f name) es.dropLast = .ok root' ∧ fs' = { fs with root := root' } := by
  unfold changeEntry at h
  dsimp only at h
  split at h
  · rename_i root' hr
    obtain ⟨es, hloc, hmod⟩ := bind_eq_ok.1 hr
    split at hmod
    · cases hmod
    · exact ⟨es, _, root', hloc, by assumption, hmod, (Except.ok.inj h).symm⟩
  · cases h

theorem owner_of_mkdirAll {p : String} (h : fs.mkdirAll p = .ok fs') : fs'.owner = fs.owner := by
  unfold mkdirAll at h
  split at h
  · cases h; rfl
  · cases h

/-- What a successful `MkdirAll` did: it changed the tree along the path it
resolved, and nothing else of the file system. -/
theorem mkdirAll_eq_ok {p : String} (h : fs.mkdirAll p = .ok fs') :
    ∃ path root', fs.locate p = .ok path ∧ fs.root.mkdirAll path = .ok root' ∧
      fs' = { fs with root := root' } := by
  unfold mkdirAll at h
  split at h
  · rename_i root' hr
    obtain ⟨path, hloc, hm⟩ := bind_eq_ok.1 hr
    exact ⟨path, root', hloc, hm, (Except.ok.inj h).symm⟩
  · cases h

/-- `MkdirAll` keeps every node that is not a directory at every path that
named it. -/
theorem resolve_mkdirAll_of_not_dir {p q : String} {m : Node} (h : fs.mkdirAll p = .ok fs')
    (hq : fs.resolve q = .ok m) (hm : m.info.isDir = false) : fs'.resolve q = .ok m := by
  obtain ⟨_, root', -, hroot, rfl⟩ := mkdirAll_eq_ok h
  obtain ⟨ys, hys, hfind⟩ := bind_eq_ok.1 hq
  have hloc : ({ fs with root := root' } : Fs).locate q = .ok ys := hys
  simp only [resolve, hloc, bind, Except.bind]
  exact find_mkdirAll_of_not_dir hroot hfind hm

/-- After a successful change, `p` names the entry of its name in what the
change made of the parent directory. -/
theorem resolve_changeEntry {op p : String} {f : String → Node → Except Errno Node}
    (h : fs.changeEntry op p f = .ok fs') :
    ∃ name m m', f name m = .ok m' ∧ fs'.resolve p = m'.find [name] := by
  obtain ⟨es, name, root', hloc, hlast, hmod, rfl⟩ := changeEntry_eq_ok h
  obtain ⟨m, m', -, hm, hfind⟩ := find_modifyAt hmod
  have hes : es = es.dropLast ++ [name] := (List.dropLast_append_getLast? name hlast).symm
  have hloc' : ({ fs with root := root' } : Fs).locate p = .ok es := hloc
  refine ⟨name, m, m', hm, ?_⟩
  simp only [resolve, hloc', bind, Except.bind]
  rw [hes, find_append, hfind]
  rfl

/-- After a successful write, `p` is a regular file with the bytes written,
stamped with the time of the write. -/
theorem lstat_writeFile {now : Time} {p : String} {mode : Nat} {content : Bytes}
    (h : fs.writeFile now p mode content = .ok fs') :
    ∃ mode' owner', fs'.lstat p = .ok (.file mode' content now owner') := by
  obtain ⟨name, m, m', hm, hl⟩ := resolve_changeEntry h
  obtain ⟨es, mode', owner', -, rfl⟩ := writeEntry_eq_ok hm
  exact ⟨mode', owner', by simp [lstat, hl, Except.mapError]⟩

/-! ## Paths below a directory -/

/-- The elements a non-empty path names: its own when it is rooted, otherwise
the scan of the working directory followed by them. -/
theorem locate_eq {p : String} (hp : p ≠ "") :
    fs.locate p = .ok (if hasPrefix p "/" then FilePath.elems p
      else FilePath.cleanElems true (fs.cwd ++ FilePath.elems p)) := by
  unfold locate
  rw [if_neg hp]
  by_cases hr : hasPrefix p "/" = true
  · rw [if_pos hr, if_pos hr, FilePath.elems_clean, hr]
  · rw [if_neg hr, if_neg hr, FilePath.elems_clean, Bool.eq_false_iff.2 hr,
      FilePath.cleanElems_append_cleanElems]

/-- Two paths of one rootedness, the elements of the second those of the first
followed by names, locate to element lists that extend the same way. -/
theorem locate_of_elems {p q : String} {ys : List String} (hp : p ≠ "") (hq : q ≠ "")
    (hroot : hasPrefix q "/" = hasPrefix p "/") (helems : FilePath.elems q = FilePath.elems p ++ ys)
    (hys : ∀ y ∈ ys, FilePath.IsName y) : fs.locate q = (fs.locate p).map (· ++ ys) := by
  rw [locate_eq hp, locate_eq hq, hroot, helems]
  split_ifs
  · rfl
  · have hdd : ".." ∉ FilePath.cleanElems false ys := by
      rw [FilePath.cleanElems_names hys]
      exact fun h => (hys _ h).2.2 rfl
    rw [← List.append_assoc, FilePath.cleanElems_append _ _ _ hdd, FilePath.cleanElems_names hys]
    rfl

/-- The entry `name` of a directory is found at the directory's path joined
with `name`. -/
theorem resolve_join_name {p name : String} {es : List (String × Node)} {n : Node}
    (hres : fs.resolve p = .ok (.dir es)) (hname : FilePath.IsName name)
    (hlookup : es.lookup name = some n) : fs.resolve (FilePath.join [p, name]) = .ok n := by
  have hp : p ≠ "" := by
    rintro rfl
    simp [resolve, locate, bind, Except.bind] at hres
  have hjoin := FilePath.elems_join_name hp hname
  have hq : fs.locate (FilePath.join [p, name]) = (fs.locate p).map (· ++ [name]) :=
    locate_of_elems hp (FilePath.ne_empty_of_elems (by simp [hjoin])) (FilePath.hasPrefix_join hp)
      hjoin (by simpa using hname)
  obtain ⟨locs, hloc, hfind⟩ := bind_eq_ok.1 hres
  rw [hloc] at hq
  simp only [resolve, hq, Except.map, bind, Except.bind, find_append, hfind, find_dir_cons, hlookup,
    find_nil]

/-- A relative path of names joined onto `p` names what those names lead to
below the node `p` names. -/
theorem resolve_join_of_names {p r : String} (hp : p ≠ "") (hr : hasPrefix r "/" = false)
    (hne : FilePath.elems r ≠ []) (hnames : ∀ e ∈ FilePath.elems r, FilePath.IsName e) :
    fs.resolve (FilePath.join [p, r]) = fs.resolve p >>= fun n => n.find (FilePath.elems r) := by
  have hjoin := FilePath.elems_join hp hr fun h => (hnames _ h).2.2 rfl
  have hq : fs.locate (FilePath.join [p, r]) = (fs.locate p).map (· ++ FilePath.elems r) :=
    locate_of_elems hp (FilePath.ne_empty_of_elems (by simp [hjoin, hne]))
      (FilePath.hasPrefix_join hp) hjoin hnames
  simp only [resolve, hq]
  cases fs.locate p <;> simp [Except.map, bind, Except.bind, find_append]

end Fs

/-! ## Well-formed trees -/

mutual

/-- A tree as a file system holds one: in every directory each name is one
path element other than `.` and `..`, and the names are in strictly
increasing order, the order `ReadDir` returns them in, so none is there
twice. -/
def Node.wellFormed : Node → Bool
  | .dir es => entriesWellFormed es
  | _ => true

/-- The entries of a well-formed directory. -/
def entriesWellFormed : List (String × Node) → Bool
  | [] => true
  | (name, n) :: es =>
    decide (FilePath.IsName name) && es.all (fun e => stringLess name e.1) && n.wellFormed &&
      entriesWellFormed es

end

theorem entriesWellFormed_cons {name : String} {n : Node} {es : List (String × Node)} :
    entriesWellFormed ((name, n) :: es) = true ↔ FilePath.IsName name ∧
      (∀ e ∈ es, stringLess name e.1 = true) ∧ n.wellFormed = true ∧
        entriesWellFormed es = true := by
  simp [entriesWellFormed, and_assoc]

theorem isName_of_mem_entriesWellFormed {e : String × Node} :
    ∀ {es : List (String × Node)}, entriesWellFormed es = true → e ∈ es →
      FilePath.IsName e.1 ∧ e.2.wellFormed = true
  | [], _, h => absurd h (List.not_mem_nil _)
  | (x, m) :: es, hwf, h => by
    obtain ⟨hx, -, hm, hwf'⟩ := entriesWellFormed_cons.1 hwf
    rcases List.mem_cons.1 h with rfl | hmem
    · exact ⟨hx, hm⟩
    · exact isName_of_mem_entriesWellFormed hwf' hmem

/-- In a well-formed directory, looking up an entry's name finds that entry. -/
theorem lookup_of_mem_entriesWellFormed {name : String} {n : Node} :
    ∀ {es : List (String × Node)}, entriesWellFormed es = true → (name, n) ∈ es →
      es.lookup name = some n
  | [], _, h => absurd h (List.not_mem_nil _)
  | (x, m) :: es, hwf, h => by
    obtain ⟨-, hless, -, hwf'⟩ := entriesWellFormed_cons.1 hwf
    rw [lookup_cons_eq]
    rcases List.mem_cons.1 h with heq | hmem
    · obtain ⟨rfl, rfl⟩ := Prod.mk.inj heq
      exact if_pos rfl
    · have hne : name ≠ x := by
        rintro rfl
        simpa [stringLess, charsLess_irrefl] using hless _ hmem
      rw [if_neg hne]
      exact lookup_of_mem_entriesWellFormed hwf' hmem

theorem mem_setEntry {name : String} {n : Node} {e : String × Node} :
    ∀ {es : List (String × Node)}, e ∈ setEntry es name n → e = (name, n) ∨ e ∈ es
  | [], h => .inl (List.mem_singleton.1 h)
  | (x, m) :: rest, h => by
    unfold setEntry at h
    split_ifs at h
    · rcases List.mem_cons.1 h with h | h
      · exact .inl h
      · exact .inr (List.mem_cons_of_mem _ h)
    · exact List.mem_cons.1 h
    · rcases List.mem_cons.1 h with h | h
      · exact .inr (h ▸ List.mem_cons_self _ _)
      · exact (mem_setEntry h).imp_right (List.mem_cons_of_mem _)

/-- Binding a name in a well-formed directory keeps it well formed: the name
goes to its place in name order. -/
theorem entriesWellFormed_setEntry {name : String} {n : Node} (hname : FilePath.IsName name)
    (hn : n.wellFormed = true) :
    ∀ {es : List (String × Node)}, entriesWellFormed es = true →
      entriesWellFormed (setEntry es name n) = true
  | [], _ => by simp [setEntry, entriesWellFormed, hname, hn]
  | (x, m) :: rest, hwf => by
    obtain ⟨hx, hless, hm, hrest⟩ := entriesWellFormed_cons.1 hwf
    unfold setEntry
    split_ifs with h₁ h₂
    · subst h₁
      exact entriesWellFormed_cons.2 ⟨hname, hless, hn, hrest⟩
    · refine entriesWellFormed_cons.2 ⟨hname, fun e he => ?_, hn, hwf⟩
      rcases List.mem_cons.1 he with rfl | he
      · exact h₂
      · exact stringLess_trans h₂ (hless e he)
    · have hxname : stringLess x name = true := stringLess_of_not (Ne.symm h₁) (by simpa using h₂)
      refine entriesWellFormed_cons.2
        ⟨hx, fun e he => ?_, hm, entriesWellFormed_setEntry hname hn hrest⟩
      rcases mem_setEntry he with rfl | he
      · exact hxname
      · exact hless e he

theorem mem_of_lookup_eq_some {β : Type} :
    ∀ {es : List (String × β)} {x : String} {m : β}, es.lookup x = some m → (x, m) ∈ es
  | [], _, _, h => by simp at h
  | (k, b) :: es, x, m, h => by
    rw [lookup_cons_eq] at h
    split_ifs at h with hx
    · cases h
      subst hx
      exact List.mem_cons_self _ _
    · exact List.mem_cons_of_mem _ (mem_of_lookup_eq_some h)

theorem wellFormed_of_lookup {es : List (String × Node)} {x : String} {m : Node}
    (hwf : entriesWellFormed es = true) (h : es.lookup x = some m) : m.wellFormed = true :=
  (isName_of_mem_entriesWellFormed hwf (mem_of_lookup_eq_some h)).2

/-- Every node of a well-formed tree is well formed. -/
theorem wellFormed_find : ∀ {n m : Node} {path : List String}, n.wellFormed = true →
    n.find path = .ok m → m.wellFormed = true
  | n, m, [], hwf, h => by
    rw [find_nil] at h
    cases h
    exact hwf
  | .dir es, m, x :: xs, hwf, h => by
    rw [find_dir_cons] at h
    cases hx : es.lookup x with
    | none => rw [hx] at h; cases h
    | some n' =>
      rw [hx] at h
      exact wellFormed_find (wellFormed_of_lookup hwf hx) h
  | .file _ _ _ _, _, _ :: _, _, h => by cases h
  | .other, _, _ :: _, _, h => by cases h

/-- A change along a path of names keeps a tree well formed when the change
keeps the node it changes well formed. -/
theorem wellFormed_modifyAt {f : Node → Except Errno Node}
    (hf : ∀ {m m'}, f m = .ok m' → m.wellFormed = true → m'.wellFormed = true) :
    ∀ {n n' : Node} {path : List String}, (∀ x ∈ path, FilePath.IsName x) →
      n.wellFormed = true → n.modifyAt f path = .ok n' → n'.wellFormed = true
  | n, n', [], _, hwf, h => hf (by rwa [modifyAt_nil] at h) hwf
  | .dir es, n', x :: xs, hpath, hwf, h => by
    simp only [Node.modifyAt] at h
    cases hx : es.lookup x with
    | none => simp [hx] at h
    | some m =>
      rw [hx] at h
      obtain ⟨m', hm, rfl⟩ := map_eq_ok.1 h
      exact entriesWellFormed_setEntry (hpath x (List.mem_cons_self _ _))
        (wellFormed_modifyAt hf (fun y hy => hpath y (List.mem_cons_of_mem _ hy))
          (wellFormed_of_lookup hwf hx) hm) hwf
  | .file _ _ _ _, _, _ :: _, _, _, h => by simp [Node.modifyAt] at h
  | .other, _, _ :: _, _, _, h => by simp [Node.modifyAt] at h

/-- `MkdirAll` along a path of names keeps a tree well formed. -/
theorem wellFormed_mkdirAll :
    ∀ {n n' : Node} {path : List String}, (∀ x ∈ path, FilePath.IsName x) →
      n.wellFormed = true → n.mkdirAll path = .ok n' → n'.wellFormed = true
  | .dir es, n', [], _, hwf, h => by
    cases h
    exact hwf
  | .file _ _ _ _, _, [], _, _, h => by simp [Node.mkdirAll] at h
  | .other, _, [], _, _, h => by simp [Node.mkdirAll] at h
  | .dir es, n', x :: xs, hpath, hwf, h => by
    simp only [Node.mkdirAll] at h
    obtain ⟨m', hm, rfl⟩ := map_eq_ok.1 h
    have hstart : ((es.lookup x).getD (.dir [])).wellFormed = true := by
      cases hx : es.lookup x with
      | none => rfl
      | some m => exact wellFormed_of_lookup hwf hx
    exact entriesWellFormed_setEntry (hpath x (List.mem_cons_self _ _))
      (wellFormed_mkdirAll (fun y hy => hpath y (List.mem_cons_of_mem _ hy)) hstart hm) hwf
  | .file _ _ _ _, _, _ :: _, _, _, h => by simp [Node.mkdirAll] at h
  | .other, _, _ :: _, _, _, h => by simp [Node.mkdirAll] at h

theorem wellFormed_writeEntry {umask mode : Nat} {owner : Owner} {content : Bytes} {now : Time}
    {name : String} (hname : FilePath.IsName name) {m r : Node}
    (h : writeEntry umask mode owner content now name m = .ok r) (hm : m.wellFormed = true) :
    r.wellFormed = true := by
  obtain ⟨es, mode', owner', rfl, rfl⟩ := writeEntry_eq_ok h
  exact entriesWellFormed_setEntry hname (by rfl) hm

/-- A file system as a process sees one: a well-formed tree, and a working
directory whose elements are names. -/
def Fs.WellFormed (fs : Fs) : Prop := fs.root.wellFormed = true ∧ ∀ e ∈ fs.cwd, FilePath.IsName e

namespace Fs

variable {fs fs' : Fs}

/-- The elements a path locates to are names. -/
theorem isName_of_mem_locate (hcwd : ∀ e ∈ fs.cwd, FilePath.IsName e) {p : String}
    {es : List String} (h : fs.locate p = .ok es) : ∀ x ∈ es, FilePath.IsName x := by
  unfold locate at h
  split_ifs at h with hp hr <;> cases h
  · exact fun x hx => FilePath.isName_of_mem_cleanElems (fun e he => mem_splitPath he) hx
  · refine fun x hx => FilePath.isName_of_mem_cleanElems (fun e he => ?_) hx
    rcases List.mem_append.1 he with he | he
    · exact (hcwd e he).1
    · exact mem_splitPath he

/-- What a path of a well-formed file system names is well formed. -/
theorem wellFormed_resolve (hwf : fs.WellFormed) {p : String} {n : Node}
    (h : fs.resolve p = .ok n) : n.wellFormed = true := by
  obtain ⟨es, -, hfind⟩ := bind_eq_ok.1 h
  exact wellFormed_find hwf.1 hfind

/-- `MkdirAll` keeps a file system well formed. -/
theorem wellFormed_mkdirAll {p : String} (hwf : fs.WellFormed) (h : fs.mkdirAll p = .ok fs') :
    fs'.WellFormed := by
  unfold mkdirAll at h
  split at h
  · rename_i root hr
    cases h
    obtain ⟨es, hloc, hm⟩ := bind_eq_ok.1 hr
    exact ⟨SourceController.wellFormed_mkdirAll (isName_of_mem_locate hwf.2 hloc) hwf.1 hm, hwf.2⟩
  · cases h

/-- A change of an entry keeps a file system well formed when the change keeps
the parent directory well formed for every name. -/
theorem wellFormed_changeEntry {op p : String} {f : String → Node → Except Errno Node}
    (hf : ∀ {name m m'}, FilePath.IsName name → f name m = .ok m' → m.wellFormed = true →
      m'.wellFormed = true)
    (hwf : fs.WellFormed) (h : fs.changeEntry op p f = .ok fs') : fs'.WellFormed := by
  obtain ⟨es, name, root', hloc, hlast, hmod, rfl⟩ := changeEntry_eq_ok h
  have hnames := isName_of_mem_locate hwf.2 hloc
  exact ⟨wellFormed_modifyAt (hf (hnames name (List.mem_of_getLast?_eq_some hlast)))
    (fun x hx => hnames x (List.dropLast_subset _ hx)) hwf.1 hmod, hwf.2⟩

/-- A write keeps a file system well formed. -/
theorem wellFormed_writeFile {now : Time} {p : String} {mode : Nat} {content : Bytes}
    (hwf : fs.WellFormed) (h : fs.writeFile now p mode content = .ok fs') : fs'.WellFormed :=
  wellFormed_changeEntry (fun hname => wellFormed_writeEntry hname) hwf h

end Fs

/-! ## `filepath.Walk` -/

/-- What a `filepath.WalkFunc` returns: go on, `filepath.SkipDir`, or an
error. -/
inductive WalkResult where
  | ok
  | skipDir
  | error (e : String)
  deriving DecidableEq, Repr

section Walk

variable {σ : Type} (fn : σ → String → Option FileInfo → Option String → σ × WalkResult)

mutual

/-- `walk(path, info, fn)`: a file is visited; a directory is visited and,
unless the visit says otherwise, its entries are walked. -/
def walkNode (acc : σ) (path : String) : Node → σ × WalkResult
  | .dir es =>
    match fn acc path (some (Node.dir es).info) none with
    | (acc', .ok) => walkEntries acc' path es
    | r => r
  | n => fn acc path (some n.info) none

/-- The loop of `walk` over a directory's names.  `SkipDir` from a directory
skips that directory; from a file it skips the rest of the loop. -/
def walkEntries (acc : σ) (path : String) : List (String × Node) → σ × WalkResult
  | [] => (acc, .ok)
  | (name, n) :: es =>
    match walkNode acc (FilePath.join [path, name]) n with
    | (acc', .ok) => walkEntries acc' path es
    | (acc', .skipDir) => if n.info.isDir then walkEntries acc' path es else (acc', .skipDir)
    | r => r

end

/-- `filepath.Walk(root, fn)`: a root that `Lstat` cannot find is reported to
`fn` with the error; `SkipDir` at the top ends the walk without error. -/
def Fs.walk (fs : Fs) (root : String) (acc : σ) : σ × WalkResult :=
  let r := match fs.lstat root with
    | .error e => fn acc root none (some e)
    | .ok n => walkNode fn acc root n
  match r with
  | (acc', .skipDir) => (acc', .ok)
  | r => r

end Walk

end SourceController

import SourceController.Go

/-!
# Artifacts, filters and the path algebra

`v1.Artifact` lives in `api/v1`, which is not among the sources.  The storage
package reads and writes six of its fields: `Path`, `URL`, `Revision`,
`Digest`, `LastUpdateTime` and `Size`.  `Artifact` has those six and no
other; the defaults are Go's zero values.  `Size` is a pointer in Go, so it is
an `Option` here.

`ArtifactFilter`, `RetentionPolicy` and `ArchiveFilter` are the argument types
that `Interface` declares.

The rest of the module is the path algebra of `adapter.go`.  `splitPath` cuts a
path at every `/` and drops the empty pieces, and `extractKind`,
`extractNamespace` and `extractName` read the first three pieces.  The main
facts are:

* `splitPath_slash`: a segment followed by `/` is the first piece of what it
  starts;
* `splitPath_scope`: a key of the form `k/ns/n/rest` with segments `k`, `ns`,
  `n` splits into `k`, `ns`, `n` and the pieces of `rest`;
* `mem_splitPath`: every piece is a segment, nonempty and without `/`.

`v1.ArtifactPath` is not among the sources either; `artifactPath` follows the
spec's words for it.
-/

namespace SourceController

/-! ## The data model -/

/-- The fields of `v1.Artifact` that the storage package touches. -/
structure Artifact where
  path : String
  url : String := ""
  revision : String := ""
  digest : String := ""
  lastUpdateTime : Time := ⟨0⟩
  size : Option Int := none
  deriving DecidableEq, Repr

/-- `ArtifactFilter`: the scope a listing is restricted to; an empty field
does not restrict. -/
structure ArtifactFilter where
  kind : String := ""
  «namespace» : String := ""
  name : String := ""
  deriving DecidableEq, Repr

/-- `RetentionPolicy`: the age and the count that garbage collection keeps. -/
structure RetentionPolicy where
  ttl : Int
  maxRecords : Int
  deriving DecidableEq, Repr

/-- `ArchiveFilter`: `true` excludes the path; the second argument says whether
it is a directory. -/
abbrev ArchiveFilter := String → Bool → Bool

/-- Modelled from the spec: `v1.ArtifactPath`, from `api/v1`, which is not among
the sources.  The spec builds a path as the lower-cased kind, the namespace,
the name and the file name, joined with forward slashes. -/
def artifactPath (kind «namespace» name fileName : String) : String :=
  kind.toLower ++ "/" ++ «namespace» ++ "/" ++ name ++ "/" ++ fileName

/-! ## Splitting a path -/

/-- `splitPath`: the pieces of `path` between slashes, the empty ones
dropped. -/
def splitPath (path : String) : List String :=
  ((path.data.splitOn '/').map String.mk).filter (· != "")

/-- A path segment: nonempty and without a slash. -/
def IsSegment (s : String) : Prop := s ≠ "" ∧ '/' ∉ s.data

instance (s : String) : Decidable (IsSegment s) := inferInstanceAs (Decidable (_ ∧ _))

/-- The piece at position `i` of the path, or the empty string.  `extractNamespace`
and `extractName` are this function at `1` and `2`. -/
def pathSegment (i : Nat) (path : String) : String := (splitPath path).getD i ""

/-- `extractKind`: the first piece of the path.  It alone tests for the empty
path first; `extractKind_eq_pathSegment` shows the test changes nothing. -/
def extractKind (path : String) : String :=
  if path = "" then "" else
    match splitPath path with
    | p :: _ => p
    | [] => ""

/-- `extractNamespace`: the second piece of the path. -/
def extractNamespace (path : String) : String := pathSegment 1 path

/-- `extractName`: the third piece of the path. -/
def extractName (path : String) : String := pathSegment 2 path

@[simp] theorem splitPath_empty : splitPath "" = [] := rfl

theorem extractKind_eq_pathSegment (path : String) : extractKind path = pathSegment 0 path := by
  unfold extractKind pathSegment
  split_ifs with h
  · simp [h]
  · cases splitPath path <;> rfl

theorem data_slash (k rest : String) : (k ++ "/" ++ rest).data = k.data ++ '/' :: rest.data := by
  simp

/-- A segment followed by a slash is the first piece of the path it starts. -/
theorem splitPath_slash {k : String} (hk : IsSegment k) (rest : String) :
    splitPath (k ++ "/" ++ rest) = k :: splitPath rest := by
  have hsplit : (k ++ "/" ++ rest).data.splitOn '/' = k.data :: rest.data.splitOn '/' := by
    have hsep : ∀ x ∈ k.data, ¬((fun c : Char => c == '/') x = true) := by
      intro x hx hxs
      simp only [beq_iff_eq] at hxs
      exact hk.2 (hxs ▸ hx)
    rw [data_slash]
    exact List.splitOnP_first (fun c : Char => c == '/') k.data hsep '/' (by simp) rest.data
  have hne : (String.mk k.data != "") = true := by simpa using hk.1
  simp only [splitPath, hsplit, List.map_cons, List.filter_cons, hne, if_true]

/-- The three scope segments of a key `k/ns/n/rest`. -/
theorem splitPath_scope {k ns n : String} (hk : IsSegment k) (hns : IsSegment ns)
    (hn : IsSegment n) (rest : String) :
    splitPath (k ++ "/" ++ ns ++ "/" ++ n ++ "/" ++ rest) = k :: ns :: n :: splitPath rest := by
  have h : k ++ "/" ++ ns ++ "/" ++ n ++ "/" ++ rest =
      k ++ "/" ++ (ns ++ "/" ++ (n ++ "/" ++ rest)) := by
    simp only [String.append_assoc]
  rw [h, splitPath_slash hk, splitPath_slash hns, splitPath_slash hn]

/-- No piece that `splitOnP` returns holds a separator. -/
theorem not_sep_of_mem_splitOnP {α : Type} {p : α → Bool} :
    ∀ {xs l : List α}, l ∈ xs.splitOnP p → ∀ x ∈ l, p x = false
  | [], l, h => by simp_all
  | y :: ys, l, h => by
    rw [List.splitOnP_cons] at h
    split at h
    · rcases List.mem_cons.1 h with rfl | h
      · simp
      · exact not_sep_of_mem_splitOnP h
    · obtain ⟨t, ts, hts⟩ := List.exists_cons_of_ne_nil (List.splitOnP_ne_nil p ys)
      rw [hts] at h
      rcases List.mem_cons.1 h with rfl | h
      · intro x hx
        rcases List.mem_cons.1 hx with rfl | hx
        · simpa using ‹¬p x = true›
        · exact not_sep_of_mem_splitOnP (hts ▸ List.mem_cons_self t ts) x hx
      · exact not_sep_of_mem_splitOnP (hts ▸ List.mem_cons_of_mem t h)

/-- Every piece of a path is a segment. -/
theorem mem_splitPath {path s : String} (h : s ∈ splitPath path) : IsSegment s := by
  simp only [splitPath, List.mem_filter, List.mem_map, bne_iff_ne, ne_eq] at h
  obtain ⟨⟨l, hl, rfl⟩, hne⟩ := h
  refine ⟨hne, fun hs => ?_⟩
  simpa using not_sep_of_mem_splitOnP hl '/' hs

end SourceController

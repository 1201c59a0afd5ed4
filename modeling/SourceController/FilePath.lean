import SourceController.Artifact

/-!
# `path/filepath` on Unix

`CopyToPath` computes where an archive entry goes with `filepath.Rel`,
`filepath.Join` and `filepath.Dir`, `Archive` names entries with
`filepath.Rel`, and `FilesystemStorage.List` walks a root built with
`filepath.Join`.  This module models those four functions of the Go library
for the Unix separator `/`.

All four work on the *elements* of a path, the pieces between slashes.
`filepath.Clean` is a scan over the elements with a stack of kept elements:
`.` is dropped, `..` removes the element below it or, when there is none, is
kept in a relative path and dropped in a rooted one.  `cleanStep` is one
step of that scan and `cleanElems` the whole scan; `clean` writes the result
back as a string.  `rel` is the element-wise comparison of `filepath.Rel`, and
`join` and `dir` are `clean` of a string built from their arguments.

`Within root p` says that `p` is `root` or lies below it lexically: the
cleaned elements of `p` extend those of `root` by elements none of which is
`..`.  This is the sense of "inside" the safety statements use.

The main facts are:

* `elems_clean`: the elements of `clean p` are what the scan keeps of the
  elements of `p`;
* `cleanElems_append`: scanning `xs ++ ys` keeps what the scan of `xs` keeps,
  followed by what the scan of `ys` alone keeps, when the latter has no `..`;
* `within_join`: joining a relative path whose cleaned form has no `..` onto
  `root` stays within `root`.
-/

namespace SourceController

namespace FilePath

/-! ## Elements and their scan -/

/-- `strings.Join(elems, "/")`. -/
def joinSlash : List String → String
  | [] => ""
  | [e] => e
  | e :: es => e ++ "/" ++ joinSlash es

/-- One element of the scan of `Clean`.  The stack holds the kept elements,
the last kept one on top. -/
def cleanStep (rooted : Bool) (st : List String) (e : String) : List String :=
  if e = "." then st
  else if e = ".." then
    match st with
    | top :: rest => if top = ".." then ".." :: st else rest
    | [] => if rooted then [] else [".."]
  else e :: st

/-- The elements `Clean` keeps of a path's elements, in order. -/
def cleanElems (rooted : Bool) (es : List String) : List String :=
  (es.foldl (cleanStep rooted) []).reverse

/-- A path written out from whether it is rooted and from its elements. -/
def render (rooted : Bool) (es : List String) : String :=
  if rooted then "/" ++ joinSlash es else if es = [] then "." else joinSlash es

/-- `filepath.Clean`: the shortest path that names what `p` names lexically. -/
def clean (p : String) : String :=
  render (hasPrefix p "/") (cleanElems (hasPrefix p "/") (splitPath p))

/-- `filepath.Join`: the non-empty tail of the arguments joined with `/` and
cleaned, or the empty string when every argument is empty. -/
def join (elems : List String) : String :=
  match elems.dropWhile (· == "") with
  | [] => ""
  | es => clean (joinSlash es)

/-- `filepath.Dir`: everything before the last slash, cleaned. -/
def dir (p : String) : String :=
  clean ⟨(p.data.reverse.dropWhile (· != '/')).reverse⟩

/-- The element-wise comparison of `filepath.Rel`: drop the common leading
elements, then climb once per base element left and descend into the target
elements left.  `none` when the first base element left is `..`. -/
def relElems : List String → List String → Option (List String)
  | b :: bs, t :: ts =>
    if b = t then relElems bs ts
    else if b = ".." then none
    else some (List.replicate (bs.length + 1) ".." ++ t :: ts)
  | [], ts => some ts
  | b :: bs, [] => if b = ".." then none else some (List.replicate (bs.length + 1) "..")

/-- `filepath.Rel(basepath, targpath)`: a relative path that `Join`ed to
`basepath` names `targpath`, or the error `Rel` returns when there is none. -/
def rel (basepath targpath : String) : Except String String :=
  let base := clean basepath
  let targ := clean targpath
  if targ = base then .ok "."
  else
    let err : Except String String :=
      .error ("Rel: can't make " ++ targpath ++ " relative to " ++ basepath)
    if hasPrefix base "/" ≠ hasPrefix targ "/" then err
    else
      match relElems (if base = "." then [] else splitPath base) (splitPath targ) with
      | some r => .ok (joinSlash r)
      | none => err

/-- The elements of a path after `clean`; `.` has none. -/
def elems (p : String) : List String := (splitPath (clean p)).filter (· != ".")

/-- `p` is `root` or lies below it, lexically: same rootedness, and the elements
of `p` are those of `root` followed by elements none of which is `..`. -/
def Within (root p : String) : Prop :=
  hasPrefix p "/" = hasPrefix root "/" ∧ elems root <+: elems p ∧
    ".." ∉ (elems p).drop (elems root).length

instance (root p : String) : Decidable (Within root p) :=
  inferInstanceAs (Decidable (_ ∧ _ ∧ _))

/-- A name a directory can hold: one element, neither `.` nor `..`. -/
def IsName (e : String) : Prop := IsSegment e ∧ e ≠ "." ∧ e ≠ ".."

instance (e : String) : Decidable (IsName e) := inferInstanceAs (Decidable (_ ∧ _ ∧ _))

/-! ## Splitting at slashes -/

theorem splitOnP_append_sep {α : Type} {p : α → Bool} (sep : α) (hsep : p sep = true) :
    ∀ xs ys : List α, (xs ++ sep :: ys).splitOnP p = xs.splitOnP p ++ ys.splitOnP p
  | [], ys => by simp [List.splitOnP_cons, hsep]
  | x :: xs, ys => by
    rw [List.cons_append, List.splitOnP_cons, List.splitOnP_cons, splitOnP_append_sep sep hsep xs]
    split
    · rfl
    · obtain ⟨l, ls, h⟩ := List.exists_cons_of_ne_nil (List.splitOnP_ne_nil p xs)
      simp [h]

/-- Cutting at a slash splits the pieces. -/
theorem splitPath_append_slash (s t : String) :
    splitPath (s ++ "/" ++ t) = splitPath s ++ splitPath t := by
  have h := @splitOnP_append_sep Char (fun c => c == '/') '/' rfl s.data t.data
  simp only [splitPath, String.data_append, List.splitOn] at h ⊢
  simp [h]

@[simp] theorem splitPath_slash_append (t : String) : splitPath ("/" ++ t) = splitPath t := by
  simpa using splitPath_append_slash "" t

/-- A segment is its own only piece. -/
theorem splitPath_segment {e : String} (he : IsSegment e) : splitPath e = [e] := by
  have h := splitPath_slash he ""
  rwa [splitPath_append_slash, splitPath_empty, List.append_nil] at h

/-- Segments joined with slashes split back into themselves. -/
theorem splitPath_joinSlash : ∀ {es : List String}, (∀ e ∈ es, IsSegment e) →
    splitPath (joinSlash es) = es
  | [], _ => rfl
  | [e], h => splitPath_segment (h e (List.mem_singleton_self e))
  | e :: e' :: es, h => by
    show splitPath (e ++ "/" ++ joinSlash (e' :: es)) = _
    rw [splitPath_append_slash, splitPath_segment (h e (List.mem_cons_self _ _)),
      splitPath_joinSlash (fun x hx => h x (List.mem_cons_of_mem _ hx))]
    rfl

/-- Lists of segments are told apart by the paths they join to. -/
theorem joinSlash_inj {xs ys : List String} (hx : ∀ e ∈ xs, IsSegment e)
    (hy : ∀ e ∈ ys, IsSegment e) (h : joinSlash xs = joinSlash ys) : xs = ys := by
  rw [← splitPath_joinSlash hx, h, splitPath_joinSlash hy]

/-- A path that starts with a segment does not start with a slash. -/
theorem hasPrefix_joinSlash {e : String} (he : IsSegment e) (es : List String) :
    hasPrefix (joinSlash (e :: es)) "/" = false := by
  obtain ⟨c, cs, hc⟩ := List.exists_cons_of_ne_nil (fun h => he.1 (String.ext h))
  have hc' : c ≠ '/' := fun h => he.2 (by simp [hc, h])
  have hdata : ∃ rest, (joinSlash (e :: es)).data = c :: rest := by
    cases es with
    | nil => exact ⟨cs, by simp [joinSlash, hc]⟩
    | cons e' es =>
      exact ⟨cs ++ '/' :: (joinSlash (e' :: es)).data,
        by show (e ++ "/" ++ joinSlash (e' :: es)).data = _; simp [hc]⟩
  obtain ⟨rest, hrest⟩ := hdata
  simp [hasPrefix, hrest, List.isPrefixOf, Ne.symm hc']

theorem joinSlash_cons_data (e : String) (es : List String) :
    (joinSlash (e :: es)).data = e.data ++ (if es = [] then [] else '/' :: (joinSlash es).data) := by
  cases es with
  | nil => simp [joinSlash]
  | cons e' es => simp [joinSlash]

/-- The elements before a given one contribute a common part, followed by a
slash when there are any. -/
theorem joinSlash_append_cons_data (e : String) (es : List String) :
    ∀ r : List String, (joinSlash (r ++ e :: es)).data =
      (if r = [] then [] else (joinSlash r).data ++ ['/']) ++ (joinSlash (e :: es)).data
  | [] => by simp
  | x :: r => by
    have hne : r ++ e :: es ≠ [] := by simp
    rw [List.cons_append, joinSlash_cons_data, if_neg hne, joinSlash_append_cons_data e es r,
      if_neg (List.cons_ne_nil x r), joinSlash_cons_data x r]
    by_cases hr : r = [] <;> simp [hr]

theorem joinSlash_data : ∀ es : List String,
    (joinSlash es).data = ['/'].intercalate (es.map String.data)
  | [] => rfl
  | [e] => by simp [joinSlash, List.intercalate]
  | e :: e' :: es => by
    rw [joinSlash_cons_data, if_neg (List.cons_ne_nil e' es), joinSlash_data (e' :: es)]
    simp [List.intercalate, List.intersperse_cons_cons]

/-- `strings.Split(strings.Join(es, "/"), "/")` gives back elements without a
slash. -/
theorem splitOn_joinSlash {es : List String} (h : ∀ e ∈ es, '/' ∉ e.data) (hne : es ≠ []) :
    (joinSlash es).data.splitOn '/' = es.map String.data := by
  rw [joinSlash_data, List.splitOn_intercalate]
  · simpa using h
  · simpa using hne

/-- A string without a slash ends a path of elements joined after a slash
exactly when it ends the last element. -/
theorem suffix_append_slash {T X N : List Char} (hT : '/' ∉ T) (hX : X = [] ∨ X.getLast? = some '/') :
    T <:+ X ++ N ↔ T <:+ N := by
  refine ⟨fun h => ?_, fun h => h.trans (List.suffix_append X N)⟩
  by_cases hlen : T.length ≤ N.length
  · exact List.suffix_of_suffix_length_le h (List.suffix_append X N) hlen
  obtain ⟨U, hU⟩ := h
  rcases List.append_eq_append_iff.1 hU.symm with ⟨a', -, hN⟩ | ⟨c', hX', hT'⟩
  · exact absurd (by rw [hN, List.length_append]; omega) hlen
  · have hc' : c' ≠ [] := by rintro rfl; simp [hT'] at hlen
    have hlast : c'.getLast? = some '/' := by
      rcases hX with rfl | hX
      · simp [List.append_eq_nil.1 hX'.symm] at hc'
      · rwa [hX', List.getLast?_append_of_ne_nil _ hc'] at hX
    exact (hT (hT' ▸ List.mem_append_left N (List.mem_of_getLast?_eq_some hlast))).elim

/-! ## The scan of `Clean` -/

@[simp] theorem cleanStep_dot (rooted : Bool) (st : List String) : cleanStep rooted st "." = st := rfl

@[simp] theorem cleanStep_dotdot_nil (rooted : Bool) :
    cleanStep rooted [] ".." = if rooted then [] else [".."] := rfl

@[simp] theorem cleanStep_dotdot_cons (rooted : Bool) (top : String) (rest : List String) :
    cleanStep rooted (top :: rest) ".." = if top = ".." then ".." :: top :: rest else rest := rfl

theorem cleanStep_of_ne {rooted : Bool} {st : List String} {e : String} (h₁ : e ≠ ".")
    (h₂ : e ≠ "..") : cleanStep rooted st e = e :: st := by
  simp [cleanStep, h₁, h₂]

/-- What the scan keeps: segments, never `.`. -/
def Kept (st : List String) : Prop := ∀ e ∈ st, IsSegment e ∧ e ≠ "."

theorem kept_cleanStep {rooted : Bool} {st : List String} {e : String} (hst : Kept st)
    (he : IsSegment e) : Kept (cleanStep rooted st e) := by
  have hdd : IsSegment ".." ∧ ".." ≠ "." := by decide
  by_cases h₁ : e = "."
  · rwa [h₁, cleanStep_dot]
  by_cases h₂ : e = ".."
  · rw [h₂]
    rcases st with _ | ⟨top, rest⟩
    · cases rooted <;> simp [Kept, hdd]
    · rw [cleanStep_dotdot_cons]
      split_ifs
      · exact List.forall_mem_cons.2 ⟨hdd, hst⟩
      · exact fun x hx => hst x (List.mem_cons_of_mem _ hx)
  · rw [cleanStep_of_ne h₁ h₂]
    exact List.forall_mem_cons.2 ⟨⟨he, h₁⟩, hst⟩

theorem kept_foldl {rooted : Bool} :
    ∀ {st es : List String}, Kept st → (∀ e ∈ es, IsSegment e) →
      Kept (es.foldl (cleanStep rooted) st)
  | _, [], hst, _ => hst
  | _, e :: es, hst, hes => by
    rw [List.foldl_cons]
    exact kept_foldl (kept_cleanStep hst (hes e (List.mem_cons_self _ _)))
      fun x hx => hes x (List.mem_cons_of_mem _ hx)

/-- The scan of a path's elements keeps segments other than `.`. -/
theorem kept_cleanElems (rooted : Bool) (p : String) : Kept (cleanElems rooted (splitPath p)) := by
  have h := @kept_foldl rooted [] (splitPath p) (List.forall_mem_nil _) fun _ he => mem_splitPath he
  exact fun e he => h e (List.mem_reverse.1 he)

/-- A `..` on the stack stays there. -/
theorem mem_cleanStep_of_mem {rooted : Bool} {st : List String} (e : String) (h : ".." ∈ st) :
    ".." ∈ cleanStep rooted st e := by
  by_cases h₁ : e = "."
  · rwa [h₁, cleanStep_dot]
  by_cases h₂ : e = ".."
  · rw [h₂]
    rcases st with _ | ⟨top, rest⟩
    · simp at h
    · rw [cleanStep_dotdot_cons]
      split_ifs with h₃
      · exact List.mem_cons_of_mem _ h
      · exact (List.mem_cons.1 h).resolve_left (Ne.symm h₃)
  · rw [cleanStep_of_ne h₁ h₂]
    exact List.mem_cons_of_mem _ h

theorem mem_foldl_of_mem {rooted : Bool} :
    ∀ {st : List String} (es : List String), ".." ∈ st → ".." ∈ es.foldl (cleanStep rooted) st
  | _, [], h => h
  | _, e :: es, h => mem_foldl_of_mem es (mem_cleanStep_of_mem e h)

/-- One step of a scan that never climbs out of its own stack does the same on
top of any stack below. -/
theorem cleanStep_append {rooted : Bool} {acc : List String} (st : List String) {e : String}
    (hacc : ".." ∉ acc) (he : ".." ∉ cleanStep false acc e) :
    cleanStep rooted (acc ++ st) e = cleanStep false acc e ++ st := by
  unfold cleanStep at he ⊢
  by_cases h₁ : e = "."
  · simp [h₁]
  by_cases h₂ : e = ".."
  · cases acc with
    | nil => simp [h₂] at he
    | cons top rest =>
      have htop : top ≠ ".." := fun h => hacc (h ▸ List.mem_cons_self _ _)
      simp [h₂, htop]
  · simp [h₁, h₂]

theorem foldl_cleanStep_append {rooted : Bool} (st : List String) :
    ∀ {acc : List String} (es : List String), ".." ∉ acc →
      ".." ∉ es.foldl (cleanStep false) acc →
      es.foldl (cleanStep rooted) (acc ++ st) = es.foldl (cleanStep false) acc ++ st
  | _, [], _, _ => rfl
  | acc, e :: es, hacc, hes => by
    have he : ".." ∉ cleanStep false acc e := fun h => hes (mem_foldl_of_mem es h)
    rw [List.foldl_cons, List.foldl_cons, cleanStep_append st hacc he]
    exact foldl_cleanStep_append st es he hes

/-- Scanning `xs ++ ys`: what the scan of `ys` keeps is added after what the scan
of `xs` keeps, when the former has no `..`. -/
theorem cleanElems_append (rooted : Bool) (xs ys : List String)
    (h : ".." ∉ cleanElems false ys) :
    cleanElems rooted (xs ++ ys) = cleanElems rooted xs ++ cleanElems false ys := by
  have h' : ".." ∉ ys.foldl (cleanStep false) [] := fun hm => h (List.mem_reverse.2 hm)
  have := @foldl_cleanStep_append rooted (xs.foldl (cleanStep rooted) []) [] ys
    (List.not_mem_nil _) h'
  rw [List.nil_append] at this
  simp only [cleanElems, List.foldl_append, this, List.reverse_append]

/-! ## `Clean` as a normal form -/

/-- The scan never pushes `.`. -/
theorem ne_dot_cleanStep {rooted : Bool} {T : List String} (y : String) (hT : ∀ e ∈ T, e ≠ ".") :
    ∀ e ∈ cleanStep rooted T y, e ≠ "." := by
  by_cases h₁ : y = "."
  · rwa [h₁, cleanStep_dot]
  by_cases h₂ : y = ".."
  · subst h₂
    rcases T with _ | ⟨top, rest⟩
    · cases rooted <;> simp
    · rw [cleanStep_dotdot_cons]
      split_ifs
      · simpa using hT
      · exact fun e he => hT e (List.mem_cons_of_mem _ he)
  · rw [cleanStep_of_ne h₁ h₂]
    simpa [h₁] using hT

/-- One element after a stack the relative scan built: the scan from any stack
`S` ends where it ends on the relative scan's own step. -/
theorem foldl_cleanStep_snoc (rooted : Bool) (S : List String) {T : List String} (y : String)
    (hT : ∀ e ∈ T, e ≠ ".") :
    (T.reverse ++ [y]).foldl (cleanStep rooted) S =
      (cleanStep false T y).reverse.foldl (cleanStep rooted) S := by
  by_cases h₁ : y = "."
  · simp [h₁]
  by_cases h₂ : y = ".."
  · subst h₂
    rcases T with _ | ⟨top, rest⟩
    · rfl
    · by_cases htop : top = ".."
      · simp [htop]
      · have hdot : top ≠ "." := hT top (List.mem_cons_self _ _)
        simp [htop, cleanStep_of_ne hdot htop]
  · rw [cleanStep_of_ne h₁ h₂, List.reverse_cons]

/-- The scan from any stack reads a list of elements as the relative scan's
result for it. -/
theorem foldl_cleanStep_normal (rooted : Bool) (S : List String) :
    ∀ (ys T : List String), (∀ e ∈ T, e ≠ ".") →
      (T.reverse ++ ys).foldl (cleanStep rooted) S =
        (ys.foldl (cleanStep false) T).reverse.foldl (cleanStep rooted) S
  | [], _, _ => by simp
  | y :: ys, T, hT =>
    calc (T.reverse ++ y :: ys).foldl (cleanStep rooted) S
        = ((cleanStep false T y).reverse ++ ys).foldl (cleanStep rooted) S := by
          rw [← List.singleton_append, ← List.append_assoc, List.foldl_append,
            foldl_cleanStep_snoc rooted S y hT, List.foldl_append]
      _ = _ := foldl_cleanStep_normal rooted S ys _ (ne_dot_cleanStep y hT)

/-- `Clean` of a relative path is a normal form for the scan: scanning its
elements after any others does what scanning the path's own elements does. -/
theorem cleanElems_append_cleanElems (rooted : Bool) (xs ys : List String) :
    cleanElems rooted (xs ++ cleanElems false ys) = cleanElems rooted (xs ++ ys) := by
  have h := foldl_cleanStep_normal rooted (xs.foldl (cleanStep rooted) []) ys [] (by simp)
  simp only [List.reverse_nil, List.nil_append] at h
  simp only [cleanElems, List.foldl_append, h]

/-! ## The shape of the stack -/

/-- The shape of a scan's stack: kept names above a run of `..`. -/
def StackShape (st : List String) : Prop :=
  ∃ names k, st = names ++ List.replicate k ".." ∧ ".." ∉ names

theorem stackShape_cleanStep {rooted : Bool} {st : List String} (e : String)
    (h : StackShape st) : StackShape (cleanStep rooted st e) := by
  obtain ⟨names, k, rfl, hnames⟩ := h
  by_cases h₁ : e = "."
  · exact ⟨names, k, by rw [h₁, cleanStep_dot], hnames⟩
  by_cases h₂ : e = ".."
  · rw [h₂]
    rcases names with _ | ⟨top, rest⟩
    · rcases k with _ | k
      · cases rooted
        · exact ⟨[], 1, rfl, List.not_mem_nil _⟩
        · exact ⟨[], 0, rfl, List.not_mem_nil _⟩
      · exact ⟨[], k + 2, by simp [List.replicate_succ], List.not_mem_nil _⟩
    · have htop : top ≠ ".." := fun h => hnames (h ▸ List.mem_cons_self _ _)
      exact ⟨rest, k, by simp [htop], fun h => hnames (List.mem_cons_of_mem _ h)⟩
  · rw [cleanStep_of_ne h₁ h₂]
    exact ⟨e :: names, k, rfl, by simp [Ne.symm h₂, hnames]⟩

theorem stackShape_foldl {rooted : Bool} :
    ∀ {st : List String} (es : List String), StackShape st →
      StackShape (es.foldl (cleanStep rooted) st)
  | _, [], h => h
  | _, e :: es, h => stackShape_foldl es (stackShape_cleanStep e h)

/-- A rooted scan never keeps `..`. -/
theorem not_mem_cleanStep_rooted {st : List String} (e : String) (h : ".." ∉ st) :
    ".." ∉ cleanStep true st e := by
  by_cases h₁ : e = "."
  · rwa [h₁, cleanStep_dot]
  by_cases h₂ : e = ".."
  · rw [h₂]
    rcases st with _ | ⟨top, rest⟩
    · simp
    · have htop : top ≠ ".." := fun h' => h (h' ▸ List.mem_cons_self _ _)
      simpa [htop] using fun h' => h (List.mem_cons_of_mem _ h')
  · rw [cleanStep_of_ne h₁ h₂]
    simp [Ne.symm h₂, h]

theorem not_mem_foldl_rooted :
    ∀ {st : List String} (es : List String), ".." ∉ st → ".." ∉ es.foldl (cleanStep true) st
  | _, [], h => h
  | _, e :: es, h => not_mem_foldl_rooted es (not_mem_cleanStep_rooted e h)

/-- Names other than `.` and `..` are pushed as they come. -/
theorem foldl_cleanStep_names {rooted : Bool} :
    ∀ {st : List String} {es : List String}, (∀ e ∈ es, e ≠ "." ∧ e ≠ "..") →
      es.foldl (cleanStep rooted) st = es.reverse ++ st
  | _, [], _ => rfl
  | _, e :: es, h => by
    have he := h e (List.mem_cons_self _ _)
    rw [List.foldl_cons, cleanStep_of_ne he.1 he.2,
      foldl_cleanStep_names fun x hx => h x (List.mem_cons_of_mem _ hx)]
    simp

/-- A relative scan keeps a leading run of `..`. -/
theorem foldl_cleanStep_dotdots : ∀ k : Nat,
    (List.replicate k "..").foldl (cleanStep false) [] = List.replicate k ".."
  | 0 => rfl
  | 1 => rfl
  | k + 2 => by
    have h : List.replicate (k + 2) ".." = List.replicate (k + 1) ".." ++ [".."] :=
      List.replicate_succ' ..
    calc (List.replicate (k + 2) "..").foldl (cleanStep false) []
        = cleanStep false (List.replicate (k + 1) "..") ".." := by
          rw [h, List.foldl_append, foldl_cleanStep_dotdots (k + 1)]; rfl
      _ = List.replicate (k + 2) ".." := by simp [List.replicate_succ]

/-- The scan leaves what it returns unchanged. -/
theorem cleanElems_canonical {rooted : Bool} {names : List String} {k : Nat}
    (hnames : ∀ e ∈ names, e ≠ "." ∧ e ≠ "..") (hk : rooted = true → k = 0) :
    cleanElems rooted (List.replicate k ".." ++ names) = List.replicate k ".." ++ names := by
  have hrun : (List.replicate k "..").foldl (cleanStep rooted) [] = List.replicate k ".." := by
    cases rooted
    · exact foldl_cleanStep_dotdots k
    · rw [hk rfl]; rfl
  rw [cleanElems, List.foldl_append, hrun, foldl_cleanStep_names hnames]
  simp

/-- What the scan keeps of a path is a run of `..`, none in a rooted path,
followed by names. -/
theorem cleanElems_shape (rooted : Bool) (p : String) :
    ∃ names k, cleanElems rooted (splitPath p) = List.replicate k ".." ++ names ∧
      (∀ e ∈ names, e ≠ "." ∧ e ≠ "..") ∧ (rooted = true → k = 0) := by
  obtain ⟨names, k, hst, hnames⟩ :=
    @stackShape_foldl rooted [] (splitPath p) ⟨[], 0, rfl, List.not_mem_nil _⟩
  have hkept := kept_cleanElems rooted p
  have heq : cleanElems rooted (splitPath p) = List.replicate k ".." ++ names.reverse := by
    simp [cleanElems, hst]
  refine ⟨names.reverse, k, heq, fun e he => ⟨(hkept e (heq ▸ by simp [he])).2,
    fun h => hnames (List.mem_reverse.1 (h ▸ he))⟩, fun hr => ?_⟩
  subst hr
  have hnot := not_mem_foldl_rooted (splitPath p) (List.not_mem_nil "..")
  rw [hst] at hnot
  rcases k with _ | k
  · rfl
  · exact absurd (by simp [List.replicate_succ]) hnot

/-! ## `Clean` -/

/-- The elements of a written-out path are the elements it was written from. -/
theorem elems_render (rooted : Bool) {es : List String} (h : Kept es) :
    (splitPath (render rooted es)).filter (· != ".") = es := by
  have hseg : ∀ e ∈ es, IsSegment e := fun e he => (h e he).1
  have hfilter : es.filter (· != ".") = es :=
    List.filter_eq_self.2 fun e he => by simpa using (h e he).2
  unfold render
  split_ifs with hr hnil
  · rw [splitPath_slash_append, splitPath_joinSlash hseg, hfilter]
  · subst hnil; rfl
  · rw [splitPath_joinSlash hseg, hfilter]

theorem hasPrefix_render (rooted : Bool) {es : List String} (h : Kept es) :
    hasPrefix (render rooted es) "/" = rooted := by
  unfold render
  split_ifs with hr hnil
  · simp [hr]
  · simp only [hr]; decide
  · obtain ⟨e, es', rfl⟩ := List.exists_cons_of_ne_nil hnil
    simp [hr, hasPrefix_joinSlash (h e (List.mem_cons_self _ _)).1]

/-- `Clean` keeps whether a path is rooted. -/
@[simp] theorem hasPrefix_clean (p : String) : hasPrefix (clean p) "/" = hasPrefix p "/" :=
  hasPrefix_render _ (kept_cleanElems _ p)

/-- The elements of `clean p` are what the scan keeps of the elements of `p`. -/
theorem elems_clean (p : String) :
    elems p = cleanElems (hasPrefix p "/") (splitPath p) :=
  elems_render _ (kept_cleanElems _ p)

/-- The scan finds nothing left to do in a path it wrote. -/
theorem cleanElems_splitPath_clean (p : String) :
    cleanElems (hasPrefix p "/") (splitPath (clean p)) =
      cleanElems (hasPrefix p "/") (splitPath p) := by
  obtain ⟨names, k, hK, hnames, hk⟩ := cleanElems_shape (hasPrefix p "/") p
  have hfix := cleanElems_canonical hnames hk
  rw [← hK] at hfix
  have hseg : ∀ e ∈ cleanElems (hasPrefix p "/") (splitPath p), IsSegment e :=
    fun e he => (kept_cleanElems _ p e he).1
  unfold clean render
  split_ifs with hr hnil
  · rwa [splitPath_slash_append, splitPath_joinSlash hseg]
  · rw [Bool.not_eq_true] at hr
    rw [hnil, hr]
    rfl
  · rwa [splitPath_joinSlash hseg]

/-- `Clean` is idempotent. -/
@[simp] theorem clean_clean (p : String) : clean (clean p) = clean p := by
  conv_lhs => rw [clean, hasPrefix_clean, cleanElems_splitPath_clean]
  rfl

@[simp] theorem elems_clean_eq (p : String) : elems (clean p) = elems p := by
  simp only [elems, clean_clean]

/-! ## `Join` -/

theorem hasPrefix_append_of_ne {s : String} (hs : s ≠ "") (t : String) :
    hasPrefix (s ++ t) "/" = hasPrefix s "/" := by
  obtain ⟨c, cs, hc⟩ := List.exists_cons_of_ne_nil (fun h => hs (String.ext h))
  simp [hasPrefix, hc, List.isPrefixOf]

theorem hasPrefix_append_slash {root : String} (hroot : root ≠ "") (r : String) :
    hasPrefix (root ++ "/" ++ r) "/" = hasPrefix root "/" := by
  rw [String.append_assoc, hasPrefix_append_of_ne hroot]

/-- `Join` of two arguments, the first non-empty, cleans them joined by a slash. -/
theorem join_pair {root : String} (hroot : root ≠ "") (r : String) :
    join [root, r] = clean (root ++ "/" ++ r) := by
  have h : [root, r].dropWhile (· == "") = [root, r] := by simp [hroot]
  simp only [join, h]
  rfl

/-- The elements of a relative path joined onto `root` follow those of `root`,
when the relative path does not climb. -/
theorem elems_join {root r : String} (hroot : root ≠ "") (hr : hasPrefix r "/" = false)
    (hdd : ".." ∉ elems r) : elems (join [root, r]) = elems root ++ elems r := by
  rw [join_pair hroot, elems_clean_eq, elems_clean, elems_clean, elems_clean, hr,
    hasPrefix_append_slash hroot, splitPath_append_slash, cleanElems_append]
  rwa [elems_clean, hr] at hdd

/-- Joining a relative path that does not climb onto `root` stays within
`root`. -/
theorem within_join {root r : String} (hroot : root ≠ "") (hr : hasPrefix r "/" = false)
    (hdd : ".." ∉ elems r) : Within root (join [root, r]) := by
  refine ⟨?_, ?_, ?_⟩
  · rw [join_pair hroot, hasPrefix_clean, hasPrefix_append_slash hroot]
  · rw [elems_join hroot hr hdd]
    exact List.prefix_append _ _
  · rwa [elems_join hroot hr hdd, List.drop_left]

/-! ## Names below a root -/

/-- `Clean` writes out a path's elements. -/
theorem clean_eq_render (p : String) : clean p = render (hasPrefix p "/") (elems p) := by
  rw [elems_clean]; rfl

theorem kept_elems (p : String) : Kept (elems p) := by
  rw [elems_clean]; exact kept_cleanElems _ p

theorem hasPrefix_name {e : String} (he : IsName e) : hasPrefix e "/" = false :=
  hasPrefix_joinSlash he.1 []

theorem elems_name {e : String} (he : IsName e) : elems e = [e] := by
  rw [elems_clean, hasPrefix_name he, splitPath_segment he.1]
  simp [cleanElems, cleanStep_of_ne he.2.1 he.2.2]

theorem ne_empty_of_elems {p : String} (h : elems p ≠ []) : p ≠ "" := by
  rintro rfl; exact h rfl

/-- Joining a name onto a path adds the name to its elements. -/
theorem elems_join_name {p e : String} (hp : p ≠ "") (he : IsName e) :
    elems (join [p, e]) = elems p ++ [e] := by
  rw [elems_join hp (hasPrefix_name he) (by simp [elems_name he, Ne.symm he.2.2]), elems_name he]

/-- Joining a name onto a path puts the name last, after a slash unless it
stands alone. -/
theorem join_name_data {p e : String} (hp : p ≠ "") (he : IsName e) :
    ∃ X : List Char, (join [p, e]).data = X ++ e.data ∧ (X = [] ∨ X.getLast? = some '/') := by
  have hj : join [p, e] = render (hasPrefix p "/") (elems p ++ [e]) := by
    have h := elems_join_name hp he
    rw [join_pair hp, elems_clean_eq] at h
    rw [join_pair hp, clean_eq_render, hasPrefix_append_slash hp, h]
  have hdata := joinSlash_append_cons_data e [] (elems p)
  rw [hj, render]
  by_cases hE : elems p = [] <;> cases hasPrefix p "/"
  · exact ⟨[], by simp [hE, joinSlash], .inl rfl⟩
  · exact ⟨['/'], by simp [hE, joinSlash], .inr rfl⟩
  · exact ⟨(joinSlash (elems p)).data ++ ['/'], by simp [hdata, hE, joinSlash], .inr (by simp)⟩
  · exact ⟨('/' :: (joinSlash (elems p)).data) ++ ['/'], by simp [hdata, hE, joinSlash],
      .inr (by rw [List.getLast?_append_of_ne_nil _ (List.cons_ne_nil _ _)]; rfl)⟩

/-- A path joined from a name ends with a string without a slash exactly when
the name does. -/
theorem hasSuffix_join_name {p e T : String} (hp : p ≠ "") (he : IsName e) (hT : '/' ∉ T.data) :
    hasSuffix (join [p, e]) T = hasSuffix e T := by
  obtain ⟨X, hX, hXs⟩ := join_name_data hp he
  rw [Bool.eq_iff_iff, hasSuffix, hasSuffix, hX, List.isSuffixOf_iff_suffix,
    List.isSuffixOf_iff_suffix]
  exact suffix_append_slash hT hXs

theorem hasPrefix_join {p e : String} (hp : p ≠ "") :
    hasPrefix (join [p, e]) "/" = hasPrefix p "/" := by
  rw [join_pair hp, hasPrefix_clean, hasPrefix_append_slash hp]

/-- The scan keeps names as they are. -/
theorem cleanElems_names {rooted : Bool} {ys : List String} (h : ∀ y ∈ ys, IsName y) :
    cleanElems rooted ys = ys := by
  simp [cleanElems, foldl_cleanStep_names fun y hy => (h y hy).2]

/-- What a rooted scan of segments keeps are names. -/
theorem isName_of_mem_cleanElems {xs : List String} (hxs : ∀ e ∈ xs, IsSegment e) {x : String}
    (hx : x ∈ cleanElems true xs) : IsName x := by
  have hkept := @kept_foldl true [] xs (List.forall_mem_nil _) hxs
  have hdd := not_mem_foldl_rooted xs (List.not_mem_nil "..")
  have hx' := List.mem_reverse.1 hx
  exact ⟨(hkept x hx').1, (hkept x hx').2, fun h => hdd (h ▸ hx')⟩

/-- Splitting a cleaned path other than `.` gives its elements. -/
theorem splitPath_clean {p : String} (h : clean p ≠ ".") : splitPath (clean p) = elems p := by
  have hseg : ∀ e ∈ elems p, IsSegment e := fun e he => (kept_elems p e he).1
  rw [clean_eq_render] at h ⊢
  unfold render at h ⊢
  split_ifs at h ⊢
  · rw [splitPath_slash_append, splitPath_joinSlash hseg]
  · exact absurd rfl h
  · exact splitPath_joinSlash hseg

theorem relElems_append : ∀ (es ys : List String), relElems es (es ++ ys) = some ys
  | [], ys => by cases ys <;> rfl
  | e :: es, ys => by simp [relElems, relElems_append es ys]

/-- `Rel` from a path to one whose elements extend its own by `ys` is `ys`
written out, or `.` when `ys` is empty. -/
theorem rel_of_elems {b t : String} {ys : List String} (hroot : hasPrefix t "/" = hasPrefix b "/")
    (helems : elems t = elems b ++ ys) :
    rel b t = .ok (if ys = [] then "." else joinSlash ys) := by
  have hclean : clean t = clean b ↔ ys = [] := by
    constructor
    · intro h
      have h' := congrArg elems h
      rw [elems_clean_eq, elems_clean_eq, helems] at h'
      simpa using h'
    · rintro rfl
      rw [clean_eq_render, clean_eq_render b, hroot, helems, List.append_nil]
  unfold rel
  by_cases hys : ys = []
  · simp only [if_pos (hclean.2 hys), if_pos hys]
  have htarg : clean t ≠ "." := fun h => hys (by
    have h' := congrArg elems h
    rw [elems_clean_eq, helems] at h'
    exact (List.append_eq_nil.1 h').2)
  have hbase : (if clean b = "." then [] else splitPath (clean b)) = elems b := by
    split_ifs with h
    · rw [← elems_clean_eq, h]; rfl
    · exact splitPath_clean h
  simp only [if_neg (mt hclean.1 hys), if_neg hys, hasPrefix_clean, hroot, ne_eq, not_true_eq_false,
    if_false, hbase, splitPath_clean htarg, helems, relElems_append]

/-- Names joined with slashes make a relative path whose elements are those
names. -/
theorem elems_joinSlash {es : List String} (h : ∀ e ∈ es, IsName e) :
    hasPrefix (joinSlash es) "/" = false ∧ elems (joinSlash es) = es := by
  have hroot : hasPrefix (joinSlash es) "/" = false := by
    cases es with
    | nil => rfl
    | cons e es => exact hasPrefix_joinSlash (h e (List.mem_cons_self _ _)).1 es
  refine ⟨hroot, ?_⟩
  rw [elems_clean, hroot, splitPath_joinSlash fun e he => (h e he).1, cleanElems_names h]

example : clean "a//b/./../c/" = "a/c" := by decide
example : clean "/../x" = "/x" := by decide
example : rel "dir" "dir2/x" = .ok "../dir2/x" := rfl
example : join ["/t/out", "../dir2/x"] = "/t/dir2/x" := by decide

end FilePath

end SourceController

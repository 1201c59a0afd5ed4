import Mathlib.Data.List.Sort
import SourceController.S3Storage

/-!
# The retention engine of `S3Storage`

`GarbageCollect` lists a scope, sorts the listing with `sortArtifactsByTime`,
marks every artifact older than the TTL or at a position past `MaxRecords`,
and removes the marked paths one by one, skipping those whose removal fails.

`sortArtifactsByTime` is a nested loop over the indices of the slice: for each
`i` it compares position `i` with every later position `j` and swaps the two
when `j` is strictly after `i`.  `innerLoop` and `outerLoop` are the two loops,
each recursing on the number of iterations left.

The proof reads the inner loop as a single pass: `pickNewest p rest` carries
the newest artifact seen so far and leaves each artifact it overtakes where
the overtaking one stood.  `innerLoop_eq` is that reading, and
`outerLoop_sorted` turns it into the loop invariant of the outer loop: the
positions already visited hold a sorted prefix, and the rest is a permutation
of what was there.  `sortArtifactsByTime_perm` and
`sortArtifactsByTime_newestFirst` are the results the retention proofs use.

The order is by `LastUpdateTime` alone.  Two artifacts with the same time are
left in whatever order the swaps put them, and nothing breaks the tie by
`Path`: `garbageCollect_eq_of_listing_perm` needs distinct times for the
result not to depend on the order the service lists in.

What a collection keeps is within the TTL and at most `MaxRecords` long
(`garbageCollect_unmarked_bounds`), so a second collection at the same
instant marks nothing: `garbageCollect_idempotent`.  With `MaxRecords` at
most zero nothing is kept (`garbageCollect_of_maxRecords_nonpos`).
`listArtifacts_after_garbageCollect` says what `List` sees afterwards: the
listing before, without the paths the collection returned.
-/

namespace SourceController

/-- The sort key: `LastUpdateTime` in nanoseconds. -/
def Artifact.time (a : Artifact) : Int := a.lastUpdateTime.nanos

/-- Newest first: no artifact is later than one before it. -/
def NewestFirst (as : List Artifact) : Prop := as.Pairwise (fun x y => y.time ≤ x.time)

/-! ## The nested loop -/

/-- One step of the inner loop: swap positions `i` and `j` when artifact `j`
is after artifact `i`. -/
def swapIfAfter (as : List Artifact) (i j : Nat) : List Artifact :=
  match as[i]?, as[j]? with
  | some ai, some aj =>
    if aj.lastUpdateTime.after ai.lastUpdateTime then (as.set i aj).set j ai else as
  | _, _ => as

/-- `for j := i + 1; j < len(artifacts); j++`, from `j`, with `k` iterations
left. -/
def innerLoop (i : Nat) : Nat → Nat → List Artifact → List Artifact
  | _, 0, as => as
  | j, k + 1, as => innerLoop i (j + 1) k (swapIfAfter as i j)

/-- `for i := 0; i < len(artifacts); i++`, from `i`, with `k` iterations
left. -/
def outerLoop : Nat → Nat → List Artifact → List Artifact
  | _, 0, as => as
  | i, k + 1, as => outerLoop (i + 1) k (innerLoop i (i + 1) (as.length - (i + 1)) as)

/-- `sortArtifactsByTime`: the slice, newest first. -/
def sortArtifactsByTime (artifacts : List Artifact) : List Artifact :=
  outerLoop 0 artifacts.length artifacts

/-! ## One pass of the inner loop -/

/-- The inner loop on `p :: rest`: the newest artifact seen so far moves
along, and each artifact it overtakes takes its place. -/
def pickNewest (p : Artifact) : List Artifact → Artifact × List Artifact
  | [] => (p, [])
  | x :: xs =>
    if x.lastUpdateTime.after p.lastUpdateTime then
      ((pickNewest x xs).1, p :: (pickNewest x xs).2)
    else ((pickNewest p xs).1, x :: (pickNewest p xs).2)

theorem pickNewest_perm (p : Artifact) (xs : List Artifact) :
    ((pickNewest p xs).1 :: (pickNewest p xs).2).Perm (p :: xs) := by
  induction xs generalizing p with
  | nil => rfl
  | cons x xs ih =>
    unfold pickNewest
    split
    · exact (List.Perm.swap _ _ _).trans ((ih x).cons p)
    · exact (List.Perm.swap _ _ _).trans (((ih p).cons x).trans (List.Perm.swap _ _ _))

theorem pickNewest_length (p : Artifact) (xs : List Artifact) :
    (pickNewest p xs).2.length = xs.length := by
  simpa using (pickNewest_perm p xs).length_eq

/-- The artifact the pass ends with is no earlier than any it passed. -/
theorem pickNewest_newest (p : Artifact) (xs : List Artifact) :
    ∀ y ∈ p :: xs, y.time ≤ (pickNewest p xs).1.time := by
  induction xs generalizing p with
  | nil => simp [pickNewest]
  | cons x xs ih =>
    unfold pickNewest
    split
    · rename_i h
      intro y hy
      rcases List.mem_cons.1 hy with rfl | hy
      · exact (le_of_lt (Time.after_iff.1 h)).trans (ih x x (List.mem_cons_self _ _))
      · exact ih x y hy
    · rename_i h
      intro y hy
      rcases List.mem_cons.1 hy with rfl | hy
      · exact ih y y (List.mem_cons_self _ _)
      rcases List.mem_cons.1 hy with rfl | hy
      · have hyp : y.time ≤ p.time := le_of_not_lt (fun h' => h (Time.after_iff.2 h'))
        exact hyp.trans (ih p p (List.mem_cons_self _ _))
      · exact ih p y (List.mem_cons_of_mem _ hy)

/-- The step of the inner loop at the pivot `p` and the artifact `x`, with
`mid` between them. -/
theorem swapIfAfter_eq (pre mid xs : List Artifact) (p x : Artifact) :
    swapIfAfter (pre ++ p :: (mid ++ x :: xs)) pre.length (pre.length + (mid.length + 1)) =
      if x.lastUpdateTime.after p.lastUpdateTime then pre ++ x :: (mid ++ p :: xs)
      else pre ++ p :: (mid ++ x :: xs) := by
  have hi : (pre ++ p :: (mid ++ x :: xs))[pre.length]? = some p := by
    rw [List.getElem?_append_right (le_refl _), Nat.sub_self, List.getElem?_cons_zero]
  have hj : (pre ++ p :: (mid ++ x :: xs))[pre.length + (mid.length + 1)]? = some x := by
    rw [List.getElem?_append_right (by omega), Nat.add_sub_cancel_left, List.getElem?_cons_succ,
      List.getElem?_append_right (le_refl _), Nat.sub_self, List.getElem?_cons_zero]
  rw [swapIfAfter, hi, hj]
  dsimp only
  split_ifs
  · rw [List.set_append_right _ _ (le_refl _), Nat.sub_self, List.set_cons_zero,
      List.set_append_right _ _ (by omega), Nat.add_sub_cancel_left, List.set_cons_succ,
      List.set_append_right _ _ (le_refl _), Nat.sub_self, List.set_cons_zero]
  · rfl

/-- The inner loop for position `i = pre.length` is one pass of `pickNewest`
over the positions after `i`. -/
theorem innerLoop_eq (pre rest : List Artifact) :
    ∀ (mid : List Artifact) (p : Artifact) (j : Nat), j = pre.length + (mid.length + 1) →
      innerLoop pre.length j rest.length (pre ++ p :: (mid ++ rest)) =
        pre ++ (pickNewest p rest).1 :: (mid ++ (pickNewest p rest).2) := by
  induction rest with
  | nil => intro mid p j _; simp [innerLoop, pickNewest]
  | cons x xs ih =>
    rintro mid p j rfl
    rw [List.length_cons, innerLoop, swapIfAfter_eq, pickNewest]
    split_ifs
    · simpa using ih (mid ++ [p]) x _ (by simp; omega)
    · simpa using ih (mid ++ [x]) p _ (by simp; omega)

/-! ## The outer loop -/

/-- The outer loop after `m` of its iterations from position `pre.length`: the
`m` positions it visited hold newest-first artifacts, each no earlier than any
artifact after them, the rest is a permutation of what was there, and the
positions before `pre.length` are untouched. -/
theorem outerLoop_front : ∀ (m : Nat) (pre suf : List Artifact), m ≤ suf.length →
    ∃ t u, outerLoop pre.length m (pre ++ suf) = pre ++ (t ++ u) ∧ t.length = m ∧
      (t ++ u).Perm suf ∧ NewestFirst t ∧ ∀ x ∈ t, ∀ y ∈ u, y.time ≤ x.time
  | 0, pre, suf, _ => ⟨[], suf, by simp [outerLoop, NewestFirst]⟩
  | _ + 1, _, [], h => absurd h (by simp)
  | m + 1, pre, p :: rest, h => by
    have hinner := innerLoop_eq pre rest [] p (pre.length + 1) (by simp)
    have hlen : (pre ++ p :: rest).length - (pre.length + 1) = rest.length := by simp; omega
    simp only [List.nil_append] at hinner
    have hm : m ≤ (pickNewest p rest).2.length := by
      rw [pickNewest_length]; simpa using h
    obtain ⟨t, u, ht, htlen, hperm, hsorted, hnewer⟩ :=
      outerLoop_front m (pre ++ [(pickNewest p rest).1]) (pickNewest p rest).2 hm
    -- the artifact the inner pass settles at `pre.length` is the newest of all
    have hnewest : ∀ y ∈ t ++ u, y.time ≤ (pickNewest p rest).1.time := fun y hy =>
      pickNewest_newest p rest y
        ((pickNewest_perm p rest).subset (List.mem_cons_of_mem _ (hperm.subset hy)))
    refine ⟨(pickNewest p rest).1 :: t, u, ?_, by simp [htlen],
      (hperm.cons _).trans (pickNewest_perm p rest),
      List.pairwise_cons.2 ⟨fun y hy => hnewest y (List.mem_append_left _ hy), hsorted⟩, ?_⟩
    · rw [outerLoop, hlen, hinner]
      simpa using ht
    · intro x hx y hy
      rcases List.mem_cons.1 hx with rfl | hx
      · exact hnewest y (List.mem_append_right _ hy)
      · exact hnewer x hx y hy

/-- The invariant of the outer loop: from position `pre.length` on, the loop
leaves a newest-first permutation of what it found, and it never touches the
positions before. -/
theorem outerLoop_sorted (k : Nat) (pre suf : List Artifact) (h : suf.length = k) :
    ∃ t, outerLoop pre.length k (pre ++ suf) = pre ++ t ∧ t.Perm suf ∧ NewestFirst t := by
  obtain ⟨t, u, ht, htlen, hperm, hsorted, -⟩ := outerLoop_front k pre suf h.ge
  have hu : u = [] := List.length_eq_zero.1 (by simpa [htlen, h] using hperm.length_eq)
  subst hu
  exact ⟨t, by simpa using ht, by simpa using hperm, hsorted⟩

theorem sortArtifactsByTime_spec (artifacts : List Artifact) :
    (sortArtifactsByTime artifacts).Perm artifacts ∧
      NewestFirst (sortArtifactsByTime artifacts) := by
  obtain ⟨t, ht, hperm, hsorted⟩ := outerLoop_sorted artifacts.length [] artifacts rfl
  simp only [List.nil_append, List.length_nil] at ht
  rw [sortArtifactsByTime, ht]
  exact ⟨hperm, hsorted⟩

theorem sortArtifactsByTime_perm (artifacts : List Artifact) :
    (sortArtifactsByTime artifacts).Perm artifacts :=
  (sortArtifactsByTime_spec artifacts).1

theorem sortArtifactsByTime_newestFirst (artifacts : List Artifact) :
    NewestFirst (sortArtifactsByTime artifacts) :=
  (sortArtifactsByTime_spec artifacts).2

/-- The state of the slice after the outer iterations for positions `0..k-1`:
a permutation of the input whose first `k` artifacts are newest first and no
earlier than any artifact after them. -/
structure OuterInvariant (input as : List Artifact) (k : Nat) : Prop where
  perm : as.Perm input
  sorted : NewestFirst (as.take k)
  newer : ∀ x ∈ as.take k, ∀ y ∈ as.drop k, y.time ≤ x.time

theorem outerInvariant_outerLoop {artifacts : List Artifact} {k : Nat}
    (hk : k ≤ artifacts.length) : OuterInvariant artifacts (outerLoop 0 k artifacts) k := by
  obtain ⟨t, u, ht, htlen, hperm, hsorted, hnewer⟩ := outerLoop_front k [] artifacts hk
  simp only [List.nil_append, List.length_nil] at ht
  rw [ht]
  refine ⟨hperm, ?_, ?_⟩
  · rwa [← htlen, List.take_left]
  · rwa [← htlen, List.take_left, List.drop_left]

/-- Running the outer loop for `m + n` iterations is running it for `m`, then
for `n` more from where it stopped. -/
theorem outerLoop_add (n : Nat) : ∀ (m i : Nat) (as : List Artifact),
    outerLoop i (m + n) as = outerLoop (i + m) n (outerLoop i m as)
  | 0, i, as => by simp [outerLoop]
  | m + 1, i, as => by
    rw [Nat.add_right_comm, outerLoop, outerLoop, outerLoop_add n m, Nat.add_right_comm i 1 m,
      Nat.add_assoc]

/-- `sortArtifactsByTime` leaves a newest-first permutation of its input, and
after the outer iteration for each `i` the slice satisfies the loop invariant
at `i + 1`; the rest of the loop runs on from that state. -/
theorem sortArtifactsByTime_outerInvariant (artifacts : List Artifact) :
    (sortArtifactsByTime artifacts).Perm artifacts ∧ NewestFirst (sortArtifactsByTime artifacts) ∧
      ∀ i < artifacts.length,
        OuterInvariant artifacts (outerLoop 0 (i + 1) artifacts) (i + 1) ∧
          sortArtifactsByTime artifacts =
            outerLoop (i + 1) (artifacts.length - (i + 1)) (outerLoop 0 (i + 1) artifacts) := by
  refine ⟨sortArtifactsByTime_perm artifacts, sortArtifactsByTime_newestFirst artifacts,
    fun i hi => ⟨outerInvariant_outerLoop hi, ?_⟩⟩
  have h := outerLoop_add (artifacts.length - (i + 1)) (i + 1) 0 artifacts
  rwa [Nat.add_sub_cancel' hi, Nat.zero_add] at h

/-! ## Marking -/

/-- The first loop of `GarbageCollect`, over the sorted artifacts from index
`i`: an artifact older than the TTL is marked and the loop moves on
(`continue`); any other is marked when its index is at or past `MaxRecords`. -/
def toDelete (now : Time) (policy : RetentionPolicy) : Nat → List Artifact → List String
  | _, [] => []
  | i, a :: as =>
    if now.sub a.lastUpdateTime > policy.ttl then a.path :: toDelete now policy (i + 1) as
    else if (i : Int) ≥ policy.maxRecords then a.path :: toDelete now policy (i + 1) as
    else toDelete now policy (i + 1) as

/-- Whether the first loop marks the artifact at index `i`. -/
def marked (now : Time) (policy : RetentionPolicy) (i : Nat) (a : Artifact) : Bool :=
  decide (now.sub a.lastUpdateTime > policy.ttl) || decide ((i : Int) ≥ policy.maxRecords)

/-- The artifacts the first loop leaves unmarked, in order. -/
def kept (now : Time) (policy : RetentionPolicy) : Nat → List Artifact → List Artifact
  | _, [] => []
  | i, a :: as =>
    if marked now policy i a then kept now policy (i + 1) as else a :: kept now policy (i + 1) as

section Marking

variable {now : Time} {policy : RetentionPolicy}

theorem toDelete_cons (i : Nat) (a : Artifact) (as : List Artifact) :
    toDelete now policy i (a :: as) =
      if marked now policy i a then a.path :: toDelete now policy (i + 1) as
      else toDelete now policy (i + 1) as := by
  by_cases h₁ : now.sub a.lastUpdateTime > policy.ttl <;>
    by_cases h₂ : (i : Int) ≥ policy.maxRecords <;> simp [toDelete, marked, h₁, h₂]

/-- With `MaxRecords` at most zero the first loop marks every artifact. -/
theorem toDelete_of_maxRecords_nonpos (h : policy.maxRecords ≤ 0) :
    ∀ (i : Nat) (as : List Artifact), toDelete now policy i as = as.map Artifact.path
  | _, [] => rfl
  | i, a :: as => by
    rw [toDelete_cons, if_pos (by simp only [marked, Bool.or_eq_true, decide_eq_true_eq]; omega),
      toDelete_of_maxRecords_nonpos h (i + 1) as, List.map_cons]

/-- Only listed paths are marked. -/
theorem exists_of_mem_toDelete {i : Nat} {as : List Artifact} {p : String}
    (h : p ∈ toDelete now policy i as) : ∃ a ∈ as, a.path = p := by
  induction as generalizing i with
  | nil => simp [toDelete] at h
  | cons a as ih =>
    rw [toDelete_cons] at h
    split at h
    · rcases List.mem_cons.1 h with rfl | h
      · exact ⟨a, List.mem_cons_self _ _, rfl⟩
      · obtain ⟨x, hx, rfl⟩ := ih h
        exact ⟨x, List.mem_cons_of_mem _ hx, rfl⟩
    · obtain ⟨x, hx, rfl⟩ := ih h
      exact ⟨x, List.mem_cons_of_mem _ hx, rfl⟩

/-- When paths are distinct, the artifacts whose path is not marked are the
ones `kept` collects. -/
theorem filter_not_mem_toDelete {i : Nat} {as : List Artifact}
    (hnodup : (as.map Artifact.path).Nodup) :
    as.filter (fun a => a.path ∉ toDelete now policy i as) = kept now policy i as := by
  induction as generalizing i with
  | nil => rfl
  | cons a as ih =>
    rw [List.map_cons, List.nodup_cons] at hnodup
    have hfresh : ∀ x ∈ as, x.path ≠ a.path := fun x hx h =>
      hnodup.1 (List.mem_map.2 ⟨x, hx, h⟩)
    have htail : as.filter (fun x => x.path ∉ toDelete now policy i (a :: as)) =
        as.filter (fun x => x.path ∉ toDelete now policy (i + 1) as) := by
      refine List.filter_congr (fun x hx => ?_)
      rw [toDelete_cons]
      split <;> simp [hfresh x hx]
    have hhead : a.path ∉ toDelete now policy (i + 1) as := fun h => by
      obtain ⟨x, hx, hxa⟩ := exists_of_mem_toDelete h
      exact hfresh x hx hxa
    rw [List.filter_cons, htail, ih hnodup.2, kept]
    rw [toDelete_cons]
    split <;> simp_all

/-- A kept artifact is within the TTL, and `MaxRecords` is past its index. -/
theorem of_mem_kept {i : Nat} {as : List Artifact} {x : Artifact}
    (h : x ∈ kept now policy i as) :
    ¬ now.sub x.lastUpdateTime > policy.ttl ∧ (i : Int) < policy.maxRecords := by
  induction as generalizing i with
  | nil => simp [kept] at h
  | cons a as ih =>
    unfold kept at h
    split at h
    · have := (ih h).2
      exact ⟨(ih h).1, by omega⟩
    · rename_i hm
      simp only [marked, Bool.or_eq_true, decide_eq_true_eq, not_or] at hm
      rcases List.mem_cons.1 h with rfl | h
      · exact ⟨hm.1, by omega⟩
      · exact ⟨(ih h).1, by have := (ih h).2; omega⟩

/-- At most `MaxRecords` artifacts are kept. -/
theorem kept_length_le (i : Nat) (as : List Artifact) :
    ((kept now policy i as).length : Int) ≤ max (policy.maxRecords - i) 0 := by
  induction as generalizing i with
  | nil => simp [kept]
  | cons a as ih =>
    have := ih (i + 1)
    unfold kept
    split
    · omega
    · rename_i hm
      simp only [marked, Bool.or_eq_true, decide_eq_true_eq, not_or] at hm
      simp only [List.length_cons]
      omega

theorem kept_sublist (i : Nat) (as : List Artifact) : (kept now policy i as).Sublist as := by
  induction as generalizing i with
  | nil => exact List.Sublist.slnil
  | cons a as ih =>
    unfold kept
    split
    · exact (ih (i + 1)).cons a
    · exact (ih (i + 1)).cons₂ a

/-- In a newest-first list, an artifact later than a kept one is kept. -/
theorem mem_kept_of_later {i : Nat} {as : List Artifact} (hsorted : NewestFirst as)
    {x y : Artifact} (hx : x ∈ kept now policy i as) (hy : y ∈ as) (hxy : x.time < y.time) :
    y ∈ kept now policy i as := by
  induction as generalizing i with
  | nil => simp at hy
  | cons a as ih =>
    have hrest : ∀ z ∈ as, z.time ≤ a.time := fun z hz => List.rel_of_pairwise_cons hsorted hz
    unfold kept at hx ⊢
    split at hx
    · rename_i hm
      have hxa := hrest x ((kept_sublist _ _).subset hx)
      rcases List.mem_cons.1 hy with rfl | hy
      · -- a later artifact than a kept one is within the TTL and before the cut
        obtain ⟨hxttl, hxrec⟩ := of_mem_kept hx
        have hage := now.sub_antitone (le_of_lt hxy)
        simp only [marked, Bool.or_eq_true, decide_eq_true_eq] at hm
        omega
      · rw [if_pos hm]; exact ih hsorted.of_cons hx hy
    · rename_i hm
      rw [if_neg hm]
      rcases List.mem_cons.1 hy with rfl | hy'
      · exact List.mem_cons_self _ _
      rcases List.mem_cons.1 hx with rfl | hx'
      · exact absurd hxy (by have := hrest y hy'; omega)
      · exact List.mem_cons_of_mem _ (ih hsorted.of_cons hx' hy')

end Marking

/-! ## Deleting -/

namespace S3Storage

variable (s : S3Storage)

/-- The second loop of `GarbageCollect`: `Delete` each marked path in turn,
skip a path whose removal fails, and collect the others.  `fault key` is the
service's answer to the `RemoveObject` of `key`. -/
def deleteAll (fault : String → Option String) : Bucket → List String → Bucket × List String
  | b, [] => (b, [])
  | b, p :: ps =>
    match s.delete b { path := p } (fault (s.artifactKey { path := p })) with
    | .error _ => deleteAll fault b ps
    | .ok b' => ((deleteAll fault b' ps).1, p :: (deleteAll fault b' ps).2)

/-- `GarbageCollect`: list the scope, sort newest first, mark, delete.  The
result is the bucket after the deletions, and the deleted paths or the error
of the listing. -/
def garbageCollect (b : Bucket) (filter : ArtifactFilter) (policy : RetentionPolicy) (now : Time)
    (listFault : Option String) (fault : String → Option String) :
    Bucket × Except String (List String) :=
  match s.list filter b listFault with
  | .error e => (b, .error e)
  | .ok artifacts =>
    let r := s.deleteAll fault b (toDelete now policy 0 (sortArtifactsByTime artifacts))
    (r.1, .ok r.2)

variable {s}

theorem deleteAll_sublist (fault : String → Option String) (b : Bucket) (ps : List String) :
    (s.deleteAll fault b ps).2.Sublist ps := by
  induction ps generalizing b with
  | nil => exact List.Sublist.slnil
  | cons p ps ih =>
    unfold deleteAll
    split
    · exact (ih b).cons p
    · exact (ih _).cons₂ p

/-- The deletions of `GarbageCollect` leave a key as it was or remove it, and
remove only keys of the paths they were given. -/
theorem stat_deleteAll_cases (fault : String → Option String) :
    ∀ (b : Bucket) (ps : List String) (key : String),
      (s.deleteAll fault b ps).1.stat key = b.stat key ∨
        ((s.deleteAll fault b ps).1.stat key = none ∧ ∃ p ∈ ps, s.artifactKey { path := p } = key)
  | b, [], key => .inl rfl
  | b, p :: ps, key => by
    unfold deleteAll
    split
    · rcases stat_deleteAll_cases fault b ps key with h | ⟨h, q, hq, hk⟩
      · exact .inl h
      · exact .inr ⟨h, q, List.mem_cons_of_mem _ hq, hk⟩
    · rename_i b' hdel
      rcases stat_deleteAll_cases fault b' ps key with h | ⟨h, q, hq, hk⟩
      · rcases s.stat_delete hdel key with h' | ⟨h', hk⟩
        · exact .inl (h.trans h')
        · exact .inr ⟨h.trans h', p, List.mem_cons_self _ _, hk⟩
      · exact .inr ⟨h, q, List.mem_cons_of_mem _ hq, hk⟩

/-- `deleteAll` leaves every key that no path of the list maps to. -/
theorem stat_deleteAll (fault : String → Option String) (b : Bucket) (ps : List String)
    {key : String} (h : ∀ p ∈ ps, s.artifactKey { path := p } ≠ key) :
    (s.deleteAll fault b ps).1.stat key = b.stat key :=
  (s.stat_deleteAll_cases fault b ps key).resolve_right fun ⟨_, p, hp, hk⟩ => h p hp hk

theorem garbageCollect_of_listed (b : Bucket) (filter : ArtifactFilter) (policy : RetentionPolicy)
    (now : Time) (fault : String → Option String) :
    s.garbageCollect b filter policy now none fault =
      ((s.deleteAll fault b (toDelete now policy 0 (sortArtifactsByTime (s.listArtifacts filter b)))).1,
        .ok (s.deleteAll fault b
          (toDelete now policy 0 (sortArtifactsByTime (s.listArtifacts filter b)))).2) := rfl

/-- The deletions report the paths whose removal the service accepted, in
order: a failed one neither stops the later ones nor is reported. -/
theorem deleteAll_deleted (fault : String → Option String) (b : Bucket) (ps : List String) :
    (s.deleteAll fault b ps).2 =
      ps.filter (fun p => (fault (s.artifactKey { path := p })).isNone) := by
  induction ps generalizing b with
  | nil => rfl
  | cons p ps ih =>
    unfold deleteAll
    cases hf : fault (s.artifactKey { path := p }) <;>
      simp [delete, Bucket.removeObject, hf, ih, List.filter_cons]

/-- After the deletions a key has no object when it is the key of a reported
path, and is as it was otherwise. -/
theorem stat_deleteAll_eq (fault : String → Option String) :
    ∀ (b : Bucket) (ps : List String) (key : String),
      (s.deleteAll fault b ps).1.stat key =
        if key ∈ (s.deleteAll fault b ps).2.map (fun p => s.artifactKey { path := p }) then none
        else b.stat key
  | b, [], key => by simp [deleteAll]
  | b, p :: ps, key => by
    unfold deleteAll
    split
    · exact stat_deleteAll_eq fault b ps key
    · rename_i b' hdel
      rw [stat_deleteAll_eq fault b' ps key, s.delete_ok hdel, Bucket.stat_remove]
      by_cases hk : key = s.artifactKey { path := p } <;> simp [hk]

/-- For every bucket, storage prefix, scope, policy and pattern of
`RemoveObject` failures, `GarbageCollect` removes exactly the objects whose
keys are those of the paths it returns, and leaves every other key as it was.
The returned paths are the marked ones whose removal succeeded, in order; each
is the path `List` reported for an object `ListObjects` enumerated under the
scope's prefix, and `artifactKey` gives that object's key back.  A failed
listing changes nothing. -/
theorem garbageCollect_removes_returned_keys (s : S3Storage) (b : Bucket) (filter : ArtifactFilter)
    (policy : RetentionPolicy) (now : Time) (listFault : Option String)
    (fault : String → Option String) :
    let marked := toDelete now policy 0 (sortArtifactsByTime (s.listArtifacts filter b))
    let deleted := marked.filter (fun p => (fault (s.artifactKey { path := p })).isNone)
    let r := s.garbageCollect b filter policy now listFault fault
    (∀ e, listFault = some e → r = (b, .error ("failed to list objects: " ++ e))) ∧
      (listFault = none →
        r.2 = .ok deleted ∧
          (∀ key, r.1.stat key =
            if key ∈ deleted.map (fun p => s.artifactKey { path := p }) then none else b.stat key) ∧
          ∀ p ∈ deleted, ∃ o ∈ b.listObjects (s.listPrefix filter), hasSuffix o.key "/" = false ∧
            (s.toArtifact o).path = p ∧ s.artifactKey { path := p } = o.key) := by
  dsimp only
  refine ⟨fun e he => by subst he; rfl, fun hnone => ?_⟩
  subst hnone
  rw [garbageCollect_of_listed, ← deleteAll_deleted fault b]
  refine ⟨rfl, fun key => stat_deleteAll_eq fault b _ key, fun p hp => ?_⟩
  obtain ⟨a, ha, rfl⟩ := exists_of_mem_toDelete ((deleteAll_sublist _ _ _).subset hp)
  obtain ⟨o, ho, hpre, hdir, rfl⟩ := s.mem_listArtifacts.1 ((sortArtifactsByTime_perm _).subset ha)
  exact ⟨o, Bucket.mem_listObjects.2 ⟨ho, hpre⟩, hdir, rfl, s.artifactKey_toArtifact hpre⟩

end S3Storage

/-! ## What garbage collection keeps -/

section Keeps

variable {now : Time} {policy : RetentionPolicy}

/-- The artifacts of a listing whose path `GarbageCollect` does not mark. -/
def unmarked (now : Time) (policy : RetentionPolicy) (listing : List Artifact) : List Artifact :=
  listing.filter (fun a => a.path ∉ toDelete now policy 0 (sortArtifactsByTime listing))

/-- On a listing with distinct paths, the unmarked artifacts are, up to order,
those `kept` collects from the sorted listing. -/
theorem unmarked_perm_kept {listing : List Artifact} (h : (listing.map Artifact.path).Nodup) :
    (unmarked now policy listing).Perm (kept now policy 0 (sortArtifactsByTime listing)) := by
  have hperm := sortArtifactsByTime_perm listing
  have hnodup : ((sortArtifactsByTime listing).map Artifact.path).Nodup :=
    (hperm.map _).nodup_iff.2 h
  rw [← filter_not_mem_toDelete hnodup]
  exact (hperm.filter _).symm

/-- What `GarbageCollect` keeps of a listing with distinct paths: nothing past
the TTL, at most `MaxRecords` artifacts, and every artifact later than one it
keeps. -/
theorem unmarked_bounds {listing : List Artifact} (h : (listing.map Artifact.path).Nodup) :
    (∀ a ∈ unmarked now policy listing, ¬ now.sub a.lastUpdateTime > policy.ttl) ∧
      ((unmarked now policy listing).length : Int) ≤ max policy.maxRecords 0 ∧
      ∀ a ∈ unmarked now policy listing, ∀ c ∈ listing,
        a.lastUpdateTime.nanos < c.lastUpdateTime.nanos → c ∈ unmarked now policy listing := by
  have hk : (unmarked now policy listing).Perm (kept now policy 0 (sortArtifactsByTime listing)) :=
    unmarked_perm_kept h
  have hperm := sortArtifactsByTime_perm listing
  refine ⟨fun a ha => (of_mem_kept (hk.subset ha)).1, ?_, fun a ha c hc hac => ?_⟩
  · rw [hk.length_eq]
    simpa using @kept_length_le now policy 0 (sortArtifactsByTime listing)
  · exact hk.symm.subset (mem_kept_of_later (sortArtifactsByTime_newestFirst listing)
      (hk.subset ha) (hperm.symm.subset hc) hac)

end Keeps

namespace S3Storage

variable {s : S3Storage}

/-- For every bucket, scope, `MaxRecords` and `TTL`, the listed artifacts
that `GarbageCollect` does not mark, which are those whose path it does not
report deleted when the service accepts every removal, are within the TTL,
at most `max MaxRecords 0` of them, and closed upward in recency. -/
theorem garbageCollect_unmarked_bounds (filter : ArtifactFilter) (b : Bucket) (now : Time)
    (policy : RetentionPolicy) :
    ∃ deleted, (s.garbageCollect b filter policy now none fun _ => none).2 = .ok deleted ∧
      let K := (s.listArtifacts filter b).filter (fun a => a.path ∉ deleted)
      (∀ a ∈ K, ¬ now.sub a.lastUpdateTime > policy.ttl) ∧
        (K.length : Int) ≤ max policy.maxRecords 0 ∧
        ∀ a ∈ K, ∀ c ∈ s.listArtifacts filter b,
          a.lastUpdateTime.nanos < c.lastUpdateTime.nanos → c ∈ K := by
  refine ⟨toDelete now policy 0 (sortArtifactsByTime (s.listArtifacts filter b)), ?_,
    unmarked_bounds (s.listArtifacts_path_nodup filter b)⟩
  rw [garbageCollect_of_listed, deleteAll_deleted]
  simp

/-- The newest listed artifact is not marked when `MaxRecords` is positive and
it is within the TTL. -/
theorem head_not_mem_toDelete {filter : ArtifactFilter} {b : Bucket} {now : Time}
    {policy : RetentionPolicy} {a : Artifact} {rest : List Artifact}
    (hhead : sortArtifactsByTime (s.listArtifacts filter b) = a :: rest)
    (hrecords : 1 ≤ policy.maxRecords) (hage : ¬ now.sub a.lastUpdateTime > policy.ttl) :
    a.path ∉ toDelete now policy 0 (sortArtifactsByTime (s.listArtifacts filter b)) := by
  have hkept : a ∈ kept now policy 0 (sortArtifactsByTime (s.listArtifacts filter b)) := by
    have hm : marked now policy 0 a = false := by simp [marked, hage]; omega
    simp [hhead, kept, hm]
  have hmem := (unmarked_perm_kept (s.listArtifacts_path_nodup filter b)).symm.subset hkept
  simpa [unmarked] using (List.mem_filter.1 hmem).2

/-- Garbage collection of a scope whose newest listed artifact is within the
TTL, with `MaxRecords` positive, deletes neither that artifact's path nor its
object. -/
theorem garbageCollect_keeps_head {filter : ArtifactFilter} {b : Bucket} {now : Time}
    {policy : RetentionPolicy} {listFault : Option String} {fault : String → Option String}
    {a : Artifact} {rest : List Artifact}
    (hhead : sortArtifactsByTime (s.listArtifacts filter b) = a :: rest)
    (hrecords : 1 ≤ policy.maxRecords) (hage : ¬ now.sub a.lastUpdateTime > policy.ttl) :
    (∀ deleted, (s.garbageCollect b filter policy now listFault fault).2 = .ok deleted →
        a.path ∉ deleted) ∧
      (s.garbageCollect b filter policy now listFault fault).1.stat (s.artifactKey a) =
        b.stat (s.artifactKey a) := by
  cases listFault with
  | some e => exact ⟨fun _ h => by simp [garbageCollect, list] at h, rfl⟩
  | none =>
    have hnot := head_not_mem_toDelete hhead hrecords hage
    rw [garbageCollect_of_listed]
    refine ⟨fun deleted h => ?_, stat_deleteAll _ _ _ fun p hp hkey => ?_⟩
    · cases h
      exact fun hmem => hnot ((deleteAll_sublist _ _ _).subset hmem)
    · exact hnot (path_eq_of_artifactKey_eq s hkey ▸ hp)

/-- A scope holds an artifact when some object under its prefix is not a
directory marker. -/
theorem listArtifacts_ne_nil_iff {filter : ArtifactFilter} {b : Bucket} :
    s.listArtifacts filter b ≠ [] ↔ ∃ k, (b.stat k).isSome ∧
      hasPrefix k (s.listPrefix filter) = true ∧ hasSuffix k "/" = false := by
  constructor
  · intro hne
    obtain ⟨a, ha⟩ := List.exists_mem_of_ne_nil _ hne
    obtain ⟨o, ho, hpre, hdir, -⟩ := s.mem_listArtifacts.1 ha
    exact ⟨o.key, by simp [Bucket.stat_eq_some_iff.2 ⟨ho, rfl⟩], hpre, hdir⟩
  · rintro ⟨k, hk, hpre, hdir⟩
    obtain ⟨o, ho⟩ := Option.isSome_iff_exists.1 hk
    obtain ⟨hmem, rfl⟩ := Bucket.stat_eq_some_iff.1 ho
    exact List.ne_nil_of_mem (s.mem_listArtifacts.2 ⟨o, hmem, hpre, hdir, rfl⟩)

/-- `Store` removes no key. -/
theorem stat_isSome_store {canonical : Algorithm} {now : Time} {reply : Except String Time}
    {b : Bucket} {a : Artifact} {r : Reader} {k : String} (hk : (b.stat k).isSome) :
    ((s.store canonical now reply b a r).bucket.stat k).isSome := by
  rcases @store_atomic s canonical now reply b a r with hpub | ⟨-, hb, -⟩
  · by_cases hka : k = s.artifactKey a
    · obtain ⟨obj, hobj, -⟩ := hpub.stored
      simp [hka, hobj]
    · rwa [hpub.frame k hka]
  · rwa [hb]

end S3Storage

/-! ## Runs of `Store` and `GarbageCollect` on one scope -/

/-- A call of a run that publishes into and collects one scope. -/
inductive ScopeCall where
  | store (canonical : Algorithm) (now : Time) (reply : Except String Time) (a : Artifact)
      (r : Reader)
  | collect (policy : RetentionPolicy) (now : Time) (listFault : Option String)
      (fault : String → Option String)

namespace ScopeCall

/-- The bucket after the call. -/
def apply (s : S3Storage) (filter : ArtifactFilter) (b : Bucket) : ScopeCall → Bucket
  | store canonical now reply a r => (s.store canonical now reply b a r).bucket
  | collect policy now listFault fault => (s.garbageCollect b filter policy now listFault fault).1

/-- A collection that keeps the newest artifact: `MaxRecords` is positive and
the newest listed artifact is within the TTL.  A `Store` needs nothing. -/
def Fresh (s : S3Storage) (filter : ArtifactFilter) (b : Bucket) : ScopeCall → Prop
  | store .. => True
  | collect policy now _ _ => 1 ≤ policy.maxRecords ∧
      ∀ a rest, sortArtifactsByTime (s.listArtifacts filter b) = a :: rest →
        ¬ now.sub a.lastUpdateTime > policy.ttl

/-- One call keeps a scope that holds an artifact from being emptied. -/
theorem apply_ne_nil {s : S3Storage} {filter : ArtifactFilter} {b : Bucket} {c : ScopeCall}
    (hc : c.Fresh s filter b) (hne : s.listArtifacts filter b ≠ []) :
    s.listArtifacts filter (c.apply s filter b) ≠ [] := by
  cases c with
  | store canonical now reply a r =>
    obtain ⟨k, hk, hpre, hdir⟩ := S3Storage.listArtifacts_ne_nil_iff.1 hne
    exact S3Storage.listArtifacts_ne_nil_iff.2 ⟨k, S3Storage.stat_isSome_store hk, hpre, hdir⟩
  | collect policy now listFault fault =>
    have hsort : sortArtifactsByTime (s.listArtifacts filter b) ≠ [] := fun h =>
      hne (by simpa [h] using (sortArtifactsByTime_perm (s.listArtifacts filter b)).symm)
    obtain ⟨a, rest, hhead⟩ := List.exists_cons_of_ne_nil hsort
    have ha : a ∈ s.listArtifacts filter b :=
      (sortArtifactsByTime_perm _).subset (by rw [hhead]; exact List.mem_cons_self a rest)
    obtain ⟨o, ho, hpre, hdir, rfl⟩ := s.mem_listArtifacts.1 ha
    have hkeep : (s.garbageCollect b filter policy now listFault fault).1.stat _ = _ :=
      (S3Storage.garbageCollect_keeps_head hhead hc.1 (hc.2 _ _ hhead)).2
    rw [s.artifactKey_toArtifact hpre, Bucket.stat_eq_some_iff.2 ⟨ho, rfl⟩] at hkeep
    exact S3Storage.listArtifacts_ne_nil_iff.2 ⟨o.key, by simp [apply, hkeep], hpre, hdir⟩

end ScopeCall

/-- The bucket after a run of calls. -/
def runScope (s : S3Storage) (filter : ArtifactFilter) : Bucket → List ScopeCall → Bucket
  | b, [] => b
  | b, c :: cs => runScope s filter (c.apply s filter b) cs

/-- Every call of the run is fresh when it is made. -/
def FreshRun (s : S3Storage) (filter : ArtifactFilter) : Bucket → List ScopeCall → Prop
  | _, [] => True
  | b, c :: cs => c.Fresh s filter b ∧ FreshRun s filter (c.apply s filter b) cs

/-- A scope that holds an artifact still holds one after any fresh run. -/
theorem runScope_ne_nil {s : S3Storage} {filter : ArtifactFilter} {calls : List ScopeCall} :
    ∀ {b : Bucket}, FreshRun s filter b calls →
      s.listArtifacts filter b ≠ [] → s.listArtifacts filter (runScope s filter b calls) ≠ [] := by
  induction calls with
  | nil => exact fun _ hne => hne
  | cons c cs ih => exact fun ⟨hc, hrun⟩ hne => ih hrun (ScopeCall.apply_ne_nil hc hne)

/-- A collection with `MaxRecords` positive and the newest listed artifact
within the TTL deletes neither that artifact's path nor its object; so a run
of `Store` calls and such collections never empties a scope that holds an
artifact. -/
theorem fresh_collection_keeps_newest :
    (∀ (s : S3Storage) (filter : ArtifactFilter) (b : Bucket) (policy : RetentionPolicy)
        (now : Time) (listFault : Option String) (fault : String → Option String) (a : Artifact)
        (rest : List Artifact),
        sortArtifactsByTime (s.listArtifacts filter b) = a :: rest → 1 ≤ policy.maxRecords →
        ¬ now.sub a.lastUpdateTime > policy.ttl →
        (∀ deleted, (s.garbageCollect b filter policy now listFault fault).2 = .ok deleted →
            a.path ∉ deleted) ∧
          (s.garbageCollect b filter policy now listFault fault).1.stat (s.artifactKey a) =
            b.stat (s.artifactKey a)) ∧
      ∀ (s : S3Storage) (filter : ArtifactFilter) (b : Bucket) (calls : List ScopeCall),
        FreshRun s filter b calls → s.listArtifacts filter b ≠ [] →
        s.listArtifacts filter (runScope s filter b calls) ≠ [] :=
  ⟨fun _ _ _ _ _ _ _ _ _ hhead hrecords hage =>
      S3Storage.garbageCollect_keeps_head hhead hrecords hage,
    fun _ _ _ _ => runScope_ne_nil⟩

/-- The newest artifact of a scope is deleted once it is older than the TTL:
one artifact, a TTL of one second, `MaxRecords` five, collected ten seconds
after its last update. -/
theorem garbageCollect_deletes_expired_newest :
    let s : S3Storage := ⟨"artifacts", "", "", defaultURLExpiration⟩
    let o : Object := ⟨"gitrepository/default/app/rev1.tar.gz", [104, 101, 108, 108, 111], ⟨0⟩,
      "application/gzip", []⟩
    let b : Bucket := ⟨[o], List.nodup_singleton _⟩
    let filter : ArtifactFilter := { kind := "gitrepository", «namespace» := "default", name := "app" }
    sortArtifactsByTime (s.listArtifacts filter b) = [s.toArtifact o] ∧
      (s.garbageCollect b filter ⟨1000000000, 5⟩ ⟨10000000000⟩ none fun _ => none).2 =
        .ok ["gitrepository/default/app/rev1.tar.gz"] ∧
      (s.garbageCollect b filter ⟨1000000000, 5⟩ ⟨10000000000⟩ none fun _ => none).1.objects = [] :=
  ⟨rfl, rfl, rfl⟩

/-- Two revisions of a scope, the newer within the TTL, collected with
`MaxRecords` one: the collection spares the newer one, and a run of that one
collection leaves the scope holding an artifact. -/
theorem fresh_collection_keeps_newest_two_revisions :
    let s : S3Storage := ⟨"artifacts", "", "", defaultURLExpiration⟩
    let o₁ : Object := ⟨"gitrepository/default/app/rev1.tar.gz", [1], ⟨1⟩, "application/gzip", []⟩
    let o₂ : Object := ⟨"gitrepository/default/app/rev2.tar.gz", [2], ⟨2⟩, "application/gzip", []⟩
    let b : Bucket := ⟨[o₁, o₂], by decide⟩
    let filter : ArtifactFilter := ⟨"gitrepository", "default", "app"⟩
    let policy : RetentionPolicy := ⟨1000000000, 1⟩
    let collect : ScopeCall := .collect policy ⟨3⟩ none fun _ => none
    sortArtifactsByTime (s.listArtifacts filter b) = [s.toArtifact o₂, s.toArtifact o₁] ∧
      1 ≤ policy.maxRecords ∧ ¬ (⟨3⟩ : Time).sub (s.toArtifact o₂).lastUpdateTime > policy.ttl ∧
      ((∀ deleted, (s.garbageCollect b filter policy ⟨3⟩ none fun _ => none).2 = .ok deleted →
          (s.toArtifact o₂).path ∉ deleted) ∧
        (s.garbageCollect b filter policy ⟨3⟩ none fun _ => none).1.stat
            (s.artifactKey (s.toArtifact o₂)) = b.stat (s.artifactKey (s.toArtifact o₂))) ∧
      FreshRun s filter b [collect] ∧ s.listArtifacts filter b ≠ [] ∧
      s.listArtifacts filter (runScope s filter b [collect]) ≠ [] := by
  intro s o₁ o₂ b filter policy collect
  have hsort : sortArtifactsByTime (s.listArtifacts filter b) = [s.toArtifact o₂, s.toArtifact o₁] := by
    decide
  have hage : ¬ (⟨3⟩ : Time).sub (s.toArtifact o₂).lastUpdateTime > policy.ttl := by decide
  have hfresh : FreshRun s filter b [collect] :=
    ⟨⟨by decide, fun a rest h => by rw [hsort] at h; cases h; exact hage⟩, trivial⟩
  have hne : s.listArtifacts filter b ≠ [] := by decide
  exact ⟨hsort, by decide, hage,
    fresh_collection_keeps_newest.1 s filter b policy ⟨3⟩ none _ _ _ hsort (by decide) hage,
    hfresh, hne, fresh_collection_keeps_newest.2 s filter b [collect] hfresh hne⟩

/-! ## The order of a listing -/

/-- With pairwise distinct times, the sort of a listing does not depend on the
listing's order, and neither do the marks. -/
theorem toDelete_sorted_eq_of_perm {l₁ l₂ : List Artifact} (hperm : l₁.Perm l₂)
    (hdistinct : l₁.Pairwise (fun x y => x.time ≠ y.time)) (now : Time)
    (policy : RetentionPolicy) :
    toDelete now policy 0 (sortArtifactsByTime l₁) = toDelete now policy 0 (sortArtifactsByTime l₂) := by
  have hstrict : ∀ l, l.Perm l₁ → (sortArtifactsByTime l).Sorted (fun x y => y.time < x.time) := by
    intro l hl
    have hd :=
      ((sortArtifactsByTime_perm l).trans hl).pairwise_iff (fun h => Ne.symm h) |>.2 hdistinct
    exact ((sortArtifactsByTime_newestFirst l).and hd).imp fun h => lt_of_le_of_ne h.1 h.2.symm
  haveI : IsAntisymm Artifact (fun x y => y.time < x.time) :=
    ⟨fun _ _ h₁ h₂ => absurd (h₁.trans h₂) (lt_irrefl _)⟩
  congr 1
  exact List.eq_of_perm_of_sorted
    (((sortArtifactsByTime_perm l₁).trans hperm).trans (sortArtifactsByTime_perm l₂).symm)
    (hstrict l₁ (List.Perm.refl _)) (hstrict l₂ hperm.symm)

/-- For two buckets whose listings of a scope hold the same artifacts in any
order, with pairwise distinct times, `GarbageCollect` marks the same paths:
it reports the same result for every answer of the service to the listing
and to the removals. -/
theorem garbageCollect_eq_of_listing_perm (s : S3Storage) {b₁ b₂ : Bucket}
    {filter : ArtifactFilter} (hperm : (s.listArtifacts filter b₁).Perm (s.listArtifacts filter b₂))
    (hdistinct : (s.listArtifacts filter b₁).Pairwise (fun x y => x.time ≠ y.time))
    (policy : RetentionPolicy) (now : Time) (listFault : Option String)
    (fault : String → Option String) :
    (s.garbageCollect b₁ filter policy now listFault fault).2 =
      (s.garbageCollect b₂ filter policy now listFault fault).2 := by
  cases listFault with
  | some e => rfl
  | none =>
    rw [S3Storage.garbageCollect_of_listed, S3Storage.garbageCollect_of_listed]
    dsimp only
    rw [S3Storage.deleteAll_deleted, S3Storage.deleteAll_deleted,
      toDelete_sorted_eq_of_perm hperm hdistinct]

/-- The same two artifacts of distinct times, listed in either order. -/
theorem garbageCollect_eq_of_listing_perm_two :
    let s : S3Storage := ⟨"artifacts", "", "", defaultURLExpiration⟩
    let oa : Object := ⟨"gitrepository/default/app/a.tar.gz", [1], ⟨1⟩, "application/gzip", []⟩
    let ob : Object := ⟨"gitrepository/default/app/b.tar.gz", [2], ⟨2⟩, "application/gzip", []⟩
    let filter : ArtifactFilter := ⟨"gitrepository", "default", "app"⟩
    let b₁ : Bucket := ⟨[oa, ob], by decide⟩
    let b₂ : Bucket := ⟨[ob, oa], by decide⟩
    (s.listArtifacts filter b₁).Perm (s.listArtifacts filter b₂) ∧
      (s.listArtifacts filter b₁).Pairwise (fun x y => x.time ≠ y.time) ∧
      (s.garbageCollect b₁ filter ⟨maxDuration, 1⟩ ⟨0⟩ none fun _ => none).2 =
        (s.garbageCollect b₂ filter ⟨maxDuration, 1⟩ ⟨0⟩ none fun _ => none).2 := by
  intro s oa ob filter b₁ b₂
  have hperm : (s.listArtifacts filter b₁).Perm (s.listArtifacts filter b₂) := List.Perm.swap _ _ _
  have hdistinct : (s.listArtifacts filter b₁).Pairwise (fun x y => x.time ≠ y.time) := by decide
  exact ⟨hperm, hdistinct, garbageCollect_eq_of_listing_perm s hperm hdistinct _ _ _ _⟩

/-- With a tie at the cut, the marks follow the listing's order: two artifacts
of one time, `MaxRecords` one, and the store lists them in either order. -/
theorem garbageCollect_depends_on_listing_order :
    let s : S3Storage := ⟨"artifacts", "", "", defaultURLExpiration⟩
    let oa : Object := ⟨"gitrepository/default/app/a.tar.gz", [1], ⟨0⟩, "application/gzip", []⟩
    let ob : Object := ⟨"gitrepository/default/app/b.tar.gz", [2], ⟨0⟩, "application/gzip", []⟩
    let filter : ArtifactFilter := { kind := "gitrepository", «namespace» := "default", name := "app" }
    let policy : RetentionPolicy := ⟨maxDuration, 1⟩
    [oa, ob].Perm [ob, oa] ∧
      (s.garbageCollect ⟨[oa, ob], by decide⟩ filter policy ⟨0⟩ none fun _ => none).2 =
        .ok ["gitrepository/default/app/b.tar.gz"] ∧
      (s.garbageCollect ⟨[ob, oa], by decide⟩ filter policy ⟨0⟩ none fun _ => none).2 =
        .ok ["gitrepository/default/app/a.tar.gz"] :=
  ⟨List.Perm.swap _ _ _, rfl, rfl⟩

/-! ## A second collection -/

/-- The first loop marks nothing in a list within the TTL whose last index is
below `MaxRecords`. -/
theorem toDelete_eq_nil {now : Time} {policy : RetentionPolicy} : ∀ (i : Nat) (as : List Artifact),
    (∀ a ∈ as, ¬ now.sub a.lastUpdateTime > policy.ttl) →
    ((i + as.length : Nat) : Int) ≤ max policy.maxRecords i → toDelete now policy i as = []
  | _, [], _, _ => rfl
  | i, a :: as, hage, hlen => by
    have hcut : ((i + (as.length + 1) : Nat) : Int) ≤ policy.maxRecords := by
      simp only [List.length_cons] at hlen; omega
    rw [toDelete_cons, if_neg (by simp [marked, hage a (List.mem_cons_self _ _)]; omega)]
    exact toDelete_eq_nil (i + 1) as (fun x hx => hage x (List.mem_cons_of_mem _ hx)) (by omega)

namespace S3Storage

variable {s : S3Storage}

/-- The deletions remove from every listing exactly the paths they report,
whatever removals the service refuses. -/
theorem listArtifacts_deleteAll_eq (fault : String → Option String) (filter : ArtifactFilter) :
    ∀ (b : Bucket) (ps : List String), s.listArtifacts filter (s.deleteAll fault b ps).1 =
      (s.listArtifacts filter b).filter (fun x => x.path ∉ (s.deleteAll fault b ps).2)
  | b, [] => by simp [deleteAll]
  | b, p :: ps => by
    unfold deleteAll
    split
    · exact listArtifacts_deleteAll_eq fault filter b ps
    · rename_i b' hdel
      rw [listArtifacts_deleteAll_eq fault filter b' ps, s.delete_ok hdel, listArtifacts_remove,
        List.filter_filter]
      refine List.filter_congr fun x _ => ?_
      by_cases hx : x.path = p <;> simp [hx]

/-- Deletions that the service all accepts remove their paths from every
listing. -/
theorem listArtifacts_deleteAll (filter : ArtifactFilter) (b : Bucket) (ps : List String) :
    s.listArtifacts filter (s.deleteAll (fun _ => none) b ps).1 =
      (s.listArtifacts filter b).filter (fun x => x.path ∉ ps) := by
  rw [listArtifacts_deleteAll_eq, deleteAll_deleted]
  simp

/-- `List` after `GarbageCollect`: for every scope, what `List` reports
afterwards is what it reported before without the paths the collection
returned as deleted, whatever removals the service refused. -/
theorem listArtifacts_after_garbageCollect (s : S3Storage) (b : Bucket) (filter filter' : ArtifactFilter)
    (policy : RetentionPolicy) (now : Time) (listFault : Option String)
    (fault : String → Option String) {D : List String}
    (h : (s.garbageCollect b filter policy now listFault fault).2 = .ok D) :
    s.listArtifacts filter' (s.garbageCollect b filter policy now listFault fault).1 =
      (s.listArtifacts filter' b).filter (fun x => x.path ∉ D) := by
  cases listFault with
  | some e => cases h
  | none =>
    rw [garbageCollect_of_listed] at h ⊢
    cases h
    exact listArtifacts_deleteAll_eq fault filter' b _

/-- Three revisions collected with `MaxRecords` one while the service refuses
to remove `rev1`: only `rev2` is reported deleted, and the listing afterwards
is the one before without it. -/
theorem listArtifacts_after_garbageCollect_refused :
    let s : S3Storage := ⟨"artifacts", "", "", defaultURLExpiration⟩
    let obj : String → Int → Object := fun key t => ⟨key, [1], ⟨t⟩, "application/gzip", []⟩
    let b : Bucket := ⟨[obj "gitrepository/default/app/rev1.tar.gz" 1,
      obj "gitrepository/default/app/rev2.tar.gz" 2, obj "gitrepository/default/app/rev3.tar.gz" 3],
      by decide⟩
    let filter : ArtifactFilter := ⟨"gitrepository", "default", "app"⟩
    let fault : String → Option String := fun key =>
      if key = "gitrepository/default/app/rev1.tar.gz" then some "Access Denied." else none
    let gc := s.garbageCollect b filter ⟨1000000000000, 1⟩ ⟨4⟩ none fault
    gc.2 = .ok ["gitrepository/default/app/rev2.tar.gz"] ∧
      s.listArtifacts filter gc.1 =
        (s.listArtifacts filter b).filter (fun x => x.path ∉ ["gitrepository/default/app/rev2.tar.gz"]) := by
  intro s obj b filter fault gc
  have h : gc.2 = .ok ["gitrepository/default/app/rev2.tar.gz"] := by
    simp only [gc, s, obj, b, filter, fault]
    rfl
  exact ⟨h, listArtifacts_after_garbageCollect s b filter filter _ _ none fault h⟩

/-- With `MaxRecords` at most zero nothing of a scope is spared:
`GarbageCollect` marks every listed artifact, newest first, so it reports
deleted every listed path whose removal the service accepts, and when the
service accepts them all it leaves the scope empty. -/
theorem garbageCollect_of_maxRecords_nonpos (s : S3Storage) (b : Bucket) (filter : ArtifactFilter)
    (policy : RetentionPolicy) (now : Time) (fault : String → Option String)
    (h : policy.maxRecords ≤ 0) :
    (s.garbageCollect b filter policy now none fault).2 =
        .ok (((sortArtifactsByTime (s.listArtifacts filter b)).map Artifact.path).filter
          fun p => (fault (s.artifactKey { path := p })).isNone) ∧
      s.listArtifacts filter (s.garbageCollect b filter policy now none fun _ => none).1 = [] := by
  refine ⟨by rw [garbageCollect_of_listed, deleteAll_deleted,
    toDelete_of_maxRecords_nonpos h], ?_⟩
  rw [garbageCollect_of_listed, listArtifacts_deleteAll,
    toDelete_of_maxRecords_nonpos h, List.filter_eq_nil_iff]
  intro x hx
  simpa using List.mem_map_of_mem Artifact.path ((sortArtifactsByTime_perm _).symm.subset hx)

/-- Two revisions collected with `MaxRecords` zero: both are reported deleted,
newest first, and the scope is left empty. -/
theorem garbageCollect_of_maxRecords_nonpos_two_revisions :
    let s : S3Storage := ⟨"artifacts", "", "", defaultURLExpiration⟩
    let o₁ : Object := ⟨"gitrepository/default/app/rev1.tar.gz", [1], ⟨1⟩, "application/gzip", []⟩
    let o₂ : Object := ⟨"gitrepository/default/app/rev2.tar.gz", [2], ⟨2⟩, "application/gzip", []⟩
    let b : Bucket := ⟨[o₁, o₂], by decide⟩
    let filter : ArtifactFilter := ⟨"gitrepository", "default", "app"⟩
    let policy : RetentionPolicy := ⟨1000000000, 0⟩
    policy.maxRecords ≤ 0 ∧
      (s.garbageCollect b filter policy ⟨3⟩ none fun _ => none).2 =
        .ok ["gitrepository/default/app/rev2.tar.gz", "gitrepository/default/app/rev1.tar.gz"] ∧
      s.listArtifacts filter (s.garbageCollect b filter policy ⟨3⟩ none fun _ => none).1 = [] := by
  intro s o₁ o₂ b filter policy
  have h := garbageCollect_of_maxRecords_nonpos s b filter policy ⟨3⟩ (fun _ => none) (by decide)
  exact ⟨by decide, h.1.trans (congrArg Except.ok (by decide)), h.2⟩

/-- Garbage collection settles in one pass: when the service accepts every
removal, a second `GarbageCollect` of the same scope at the same instant
deletes nothing and leaves the bucket as the first one left it. -/
theorem garbageCollect_idempotent (s : S3Storage) (b : Bucket) (filter : ArtifactFilter)
    (policy : RetentionPolicy) (now : Time) :
    let r := s.garbageCollect b filter policy now none (fun _ => none)
    s.garbageCollect r.1 filter policy now none (fun _ => none) = (r.1, .ok []) := by
  intro r
  let kept := unmarked now policy (s.listArtifacts filter b)
  have hlist : s.listArtifacts filter r.1 = kept := by
    simp only [r, garbageCollect_of_listed, listArtifacts_deleteAll, kept, unmarked]
  have hbounds : (∀ a ∈ kept, ¬ now.sub a.lastUpdateTime > policy.ttl) ∧
      (kept.length : Int) ≤ max policy.maxRecords 0 ∧ _ :=
    unmarked_bounds (s.listArtifacts_path_nodup filter b)
  have hperm := sortArtifactsByTime_perm kept
  have hnil : toDelete now policy 0 (sortArtifactsByTime kept) = [] :=
    toDelete_eq_nil 0 _ (fun a ha => hbounds.1 a (hperm.subset ha))
      (by rw [hperm.length_eq, Nat.zero_add]; exact hbounds.2.1)
  rw [garbageCollect_of_listed, hlist, hnil]
  rfl

end S3Storage

end SourceController

import Mathlib.Logic.Function.Basic
import SourceController.S3Storage

/-!
# The lock map of `S3Storage`

`S3Storage.Lock` keeps a `sync.Map` from keys to mutexes.  A call allocates a
fresh mutex, asks `LoadOrStore` for the mutex under the artifact's key, which
stores the fresh one only when the key is new, locks the mutex it got back,
and returns a function that unlocks that mutex.

The state of the map and of the calls in flight is `LockState`.  A call is
`idle` until it starts, `waiting` on a mutex after `LoadOrStore`, `holding` it
once `Lock` returned, and `done` once its unlock function ran.  The three
actions are the atomic steps of the code: `lock` is the allocation and the
`LoadOrStore`, `acquire` is the return of `mu.Lock()`, enabled only while the
mutex is unlocked, and `unlock` is the call of the returned function, enabled
only while the call holds its mutex: that is the hypothesis that every unlock
function runs at most once.  A run is any list of actions, so any number of
calls in any interleaving.

`LockInv` is the invariant: every waiting or holding call names the mutex the
map holds for its key, a held mutex is locked, and no two calls hold one
mutex.  `lockInv_step` proves that each
action keeps it and `lockInv_run` that every run from the empty map does.
Mutual exclusion per key follows, and `step_extends_locks` says the map only
grows, so the mutex first stored for a key is the one every later `Lock` on
that key gets.

`LockProgress` is what progress rests on: every locked mutex has a holder, and
distinct keys have distinct mutexes.  `waiting_lock_completes` follows: in
every reachable state a waiting call waits only for a holder of its own key,
and three more steps at most let it finish.
-/

namespace SourceController

/-! ## State and steps -/

/-- Where one `Lock` call is. -/
inductive Phase where
  | idle
  | waiting (key : String) (mu : Nat)
  | holding (key : String) (mu : Nat)
  | done
  deriving DecidableEq, Repr

/-- The lock map, the next mutex `&sync.Mutex{}` allocates, which mutexes are
locked, and the phase of every call. -/
structure LockState where
  locks : List (String × Nat) := []
  fresh : Nat := 0
  locked : Nat → Bool := fun _ => false
  phase : Nat → Phase := fun _ => .idle

/-- The atomic steps of `Lock` calls, each naming its call. -/
inductive LockAction where
  | lock (c : Nat) (a : Artifact)
  | acquire (c : Nat)
  | unlock (c : Nat)

/-- `sync.Map.LoadOrStore(key, mu)`: the mutex stored under `key`, or `mu`,
stored now. -/
def loadOrStore (locks : List (String × Nat)) (key : String) (mu : Nat) :
    Nat × List (String × Nat) :=
  match locks.lookup key with
  | some m => (m, locks)
  | none => (mu, locks ++ [(key, mu)])

namespace LockState

/-- One step of the calls of `s.Lock`; `none` when the step is not enabled. -/
def step (s : S3Storage) (st : LockState) : LockAction → Option LockState
  | .lock c a =>
    if st.phase c = .idle then
      let r := loadOrStore st.locks (s.artifactKey a) st.fresh
      some { st with locks := r.2, fresh := st.fresh + 1,
                     phase := Function.update st.phase c (.waiting (s.artifactKey a) r.1) }
    else none
  | .acquire c =>
    match st.phase c with
    | .waiting key mu =>
      if st.locked mu then none
      else some { st with locked := Function.update st.locked mu true,
                          phase := Function.update st.phase c (.holding key mu) }
    | _ => none
  | .unlock c =>
    match st.phase c with
    | .holding _ mu =>
      some { st with locked := Function.update st.locked mu false,
                     phase := Function.update st.phase c .done }
    | _ => none

/-- A run of steps; `none` when one of them is not enabled. -/
def run (s : S3Storage) : LockState → List LockAction → Option LockState
  | st, [] => some st
  | st, act :: acts => (st.step s act).bind fun st' => run s st' acts

end LockState

/-! ## The invariant -/

/-- What every reachable state satisfies. -/
structure LockInv (st : LockState) : Prop where
  bound : ∀ c key mu, (st.phase c = .waiting key mu ∨ st.phase c = .holding key mu) →
    st.locks.lookup key = some mu
  held : ∀ c key mu, st.phase c = .holding key mu → st.locked mu = true
  unique : ∀ c c' key key' mu, st.phase c = .holding key mu → st.phase c' = .holding key' mu →
    c = c'

theorem lookup_append_of_lookup {locks t : List (String × Nat)} {k : String} {m : Nat}
    (h : locks.lookup k = some m) : (locks ++ t).lookup k = some m := by
  induction locks with
  | nil => simp at h
  | cons p ps ih =>
    obtain ⟨x, m'⟩ := p
    by_cases hk : k = x
    · simpa [List.lookup_cons, hk] using h
    · simp only [List.lookup_cons, beq_false_of_ne hk, List.cons_append] at h ⊢
      exact ih h

/-- `LoadOrStore` returns the mutex the map holds for the key afterwards, and
the map only grows: it keeps every key it had with its mutex. -/
theorem loadOrStore_spec (locks : List (String × Nat)) (key : String) (mu : Nat) :
    (loadOrStore locks key mu).2.lookup key = some (loadOrStore locks key mu).1 ∧
      locks <+: (loadOrStore locks key mu).2 := by
  unfold loadOrStore
  cases hk : locks.lookup key with
  | some m => exact ⟨hk, List.prefix_refl _⟩
  | none =>
    refine ⟨?_, List.prefix_append _ _⟩
    induction locks with
    | nil => simp [List.lookup_cons]
    | cons p ps ih =>
      obtain ⟨x, m⟩ := p
      have hx : key ≠ x := fun h => by simp [List.lookup_cons, h] at hk
      simp only [List.lookup_cons, beq_false_of_ne hx, List.cons_append] at hk ⊢
      exact ih hk

/-- A key the map had keeps its mutex in any map that extends it. -/
theorem lookup_of_prefix {locks locks' : List (String × Nat)} (h : locks <+: locks')
    {k : String} {m : Nat} (hk : locks.lookup k = some m) : locks'.lookup k = some m := by
  obtain ⟨t, rfl⟩ := h
  exact lookup_append_of_lookup hk

/-! ## Each step keeps the invariant -/

namespace LockState

variable {s : S3Storage} {st st' : LockState}

/-- The empty map of a new `S3Storage`, with no call started. -/
theorem lockInv_init : LockInv {} :=
  ⟨fun _ _ _ h => by simp at h, fun _ _ _ h => by simp at h, fun _ _ _ _ _ h => by simp at h⟩

/-- Everything a step can do. -/
theorem step_cases {act : LockAction} (h : st.step s act = some st') :
    (∃ c a, st.phase c = .idle ∧
      st' = { st with locks := (loadOrStore st.locks (s.artifactKey a) st.fresh).2,
                      fresh := st.fresh + 1,
                      phase := Function.update st.phase c
                        (.waiting (s.artifactKey a) (loadOrStore st.locks (s.artifactKey a) st.fresh).1) }) ∨
    (∃ c key mu, st.phase c = .waiting key mu ∧ st.locked mu = false ∧
      st' = { st with locked := Function.update st.locked mu true,
                      phase := Function.update st.phase c (.holding key mu) }) ∨
    (∃ c key mu, st.phase c = .holding key mu ∧
      st' = { st with locked := Function.update st.locked mu false,
                      phase := Function.update st.phase c .done }) := by
  cases act with
  | lock c a =>
    simp only [step] at h
    split_ifs at h with hidle
    exact .inl ⟨c, a, hidle, (Option.some.inj h).symm⟩
  | acquire c =>
    simp only [step] at h
    split at h
    · rename_i key mu hw
      split_ifs at h with hl
      exact .inr (.inl ⟨c, key, mu, hw, by simpa using hl, (Option.some.inj h).symm⟩)
    · cases h
  | unlock c =>
    simp only [step] at h
    split at h
    · rename_i key mu hh
      exact .inr (.inr ⟨c, key, mu, hh, (Option.some.inj h).symm⟩)
    · cases h

/-- What an updated phase map says of a call: it is the updated call with the
new phase, or another call with its old phase. -/
theorem update_phase_eq {φ : Nat → Phase} {c c' : Nat} {v p : Phase}
    (h : Function.update φ c v c' = p) : (c' = c ∧ v = p) ∨ (c' ≠ c ∧ φ c' = p) := by
  by_cases hc : c' = c
  · subst hc; exact .inl ⟨rfl, by simpa using h⟩
  · exact .inr ⟨hc, by rwa [Function.update_noteq hc] at h⟩

/-- A `lock` step: the call now waits on the mutex the map holds for its key. -/
theorem lockInv_lock {c : Nat} {key : String} (hinv : LockInv st) :
    LockInv { st with locks := (loadOrStore st.locks key st.fresh).2, fresh := st.fresh + 1,
                      phase := Function.update st.phase c
                        (.waiting key (loadOrStore st.locks key st.fresh).1) } := by
  obtain ⟨hself, hpre⟩ := loadOrStore_spec st.locks key st.fresh
  have hnew : ∀ c' k m, Function.update st.phase c
      (.waiting key (loadOrStore st.locks key st.fresh).1) c' = .holding k m →
      st.phase c' = .holding k m := fun _ _ _ h => by
    rcases update_phase_eq h with ⟨-, h⟩ | ⟨-, h⟩
    · cases h
    · exact h
  refine ⟨fun c' k m hc' => ?_, fun c' k m hc' => hinv.held c' k m (hnew c' k m hc'),
    fun c₁ c₂ k₁ k₂ m h₁ h₂ => hinv.unique c₁ c₂ k₁ k₂ m (hnew _ _ _ h₁) (hnew _ _ _ h₂)⟩
  rcases hc' with hc' | hc'
  · rcases update_phase_eq hc' with ⟨-, h⟩ | ⟨-, h⟩
    · cases h; exact hself
    · exact lookup_of_prefix hpre (hinv.bound c' k m (.inl h))
  · exact lookup_of_prefix hpre (hinv.bound c' k m (.inr (hnew c' k m hc')))

/-- An `acquire` step: the call holds a mutex that was free. -/
theorem lockInv_acquire {c : Nat} {key : String} {mu : Nat} (hinv : LockInv st)
    (hw : st.phase c = .waiting key mu) (hfree : st.locked mu = false) :
    LockInv { st with locked := Function.update st.locked mu true,
                      phase := Function.update st.phase c (.holding key mu) } := by
  have hother : ∀ c' k, st.phase c' ≠ .holding k mu := fun c' k h => by
    simp [hinv.held c' k mu h] at hfree
  refine ⟨fun c' k m hc' => ?_, fun c' k m hc' => ?_, fun c₁ c₂ k₁ k₂ m h₁ h₂ => ?_⟩
  · rcases hc' with hc' | hc' <;> rcases update_phase_eq hc' with ⟨-, h⟩ | ⟨-, h⟩
    · cases h
    · exact hinv.bound c' k m (.inl h)
    · cases h; exact hinv.bound c key mu (.inl hw)
    · exact hinv.bound c' k m (.inr h)
  · rcases update_phase_eq hc' with ⟨-, h⟩ | ⟨-, h⟩
    · cases h; simp
    · have hm : m ≠ mu := fun hm => hother c' k (hm ▸ h)
      simpa [Function.update_noteq hm] using hinv.held c' k m h
  · rcases update_phase_eq h₁ with ⟨hc₁, h₁⟩ | ⟨-, h₁⟩ <;>
      rcases update_phase_eq h₂ with ⟨hc₂, h₂⟩ | ⟨-, h₂⟩
    · exact hc₁.trans hc₂.symm
    · cases h₁; exact (hother c₂ k₂ h₂).elim
    · cases h₂; exact (hother c₁ k₁ h₁).elim
    · exact hinv.unique c₁ c₂ k₁ k₂ m h₁ h₂

/-- An `unlock` step: the call is done and its mutex is free again. -/
theorem lockInv_unlock {c : Nat} {key : String} {mu : Nat} (hinv : LockInv st)
    (hh : st.phase c = .holding key mu) :
    LockInv { st with locked := Function.update st.locked mu false,
                      phase := Function.update st.phase c .done } := by
  have hold : ∀ {c' p}, Function.update st.phase c .done c' = p → p ≠ .done →
      c' ≠ c ∧ st.phase c' = p := fun h hp => by
    rcases update_phase_eq h with ⟨-, rfl⟩ | h
    · exact (hp rfl).elim
    · exact h
  refine ⟨fun c' k m hc' => ?_, fun c' k m hc' => ?_, fun c₁ c₂ k₁ k₂ m h₁ h₂ => ?_⟩
  · rcases hc' with hc' | hc'
    · exact hinv.bound c' k m (.inl (hold hc' (by simp)).2)
    · exact hinv.bound c' k m (.inr (hold hc' (by simp)).2)
  · obtain ⟨hc, h⟩ := hold hc' (by simp)
    have hm : m ≠ mu := fun hm => hc (hinv.unique c' c k key m h (hm ▸ hh))
    simpa [Function.update_noteq hm] using hinv.held c' k m h
  · exact hinv.unique c₁ c₂ k₁ k₂ m (hold h₁ (by simp)).2 (hold h₂ (by simp)).2

/-- Every step keeps the invariant. -/
theorem lockInv_step {act : LockAction} (hinv : LockInv st) (h : st.step s act = some st') :
    LockInv st' := by
  rcases step_cases h with ⟨c, a, -, rfl⟩ | ⟨c, key, mu, hw, hfree, rfl⟩ | ⟨c, key, mu, hh, rfl⟩
  · exact lockInv_lock hinv
  · exact lockInv_acquire hinv hw hfree
  · exact lockInv_unlock hinv hh

/-- Every run keeps the invariant. -/
theorem lockInv_run : ∀ {st st' : LockState} (acts : List LockAction), LockInv st →
    run s st acts = some st' → LockInv st'
  | _, _, [], hinv, h => by cases h; exact hinv
  | st, st', act :: acts, hinv, h => by
    simp only [run, Option.bind_eq_some] at h
    obtain ⟨st₁, h₁, h₂⟩ := h
    exact lockInv_run acts (lockInv_step hinv h₁) h₂

/-- A step only adds to the lock map. -/
theorem step_extends_locks {act : LockAction} (h : st.step s act = some st') :
    st.locks <+: st'.locks := by
  rcases step_cases h with ⟨c, a, -, rfl⟩ | ⟨c, key, mu, -, -, rfl⟩ | ⟨c, key, mu, -, rfl⟩
  · exact (loadOrStore_spec _ _ _).2
  · exact List.prefix_refl _
  · exact List.prefix_refl _

/-- A run only adds to the lock map. -/
theorem run_extends_locks : ∀ {st st' : LockState} (acts : List LockAction),
    run s st acts = some st' → st.locks <+: st'.locks
  | _, _, [], h => by cases h; exact List.prefix_refl _
  | st, st', act :: acts, h => by
    simp only [run, Option.bind_eq_some] at h
    obtain ⟨st₁, h₁, h₂⟩ := h
    exact (step_extends_locks h₁).trans (run_extends_locks acts h₂)

end LockState

/-- Mutual exclusion per key: two calls that hold locks for the same key are
the same call. -/
def KeyExclusive (st : LockState) : Prop :=
  ∀ c c' key mu mu', st.phase c = .holding key mu → st.phase c' = .holding key mu' → c = c'

theorem keyExclusive_of_lockInv {st : LockState} (hinv : LockInv st) : KeyExclusive st := by
  intro c c' key mu mu' h h'
  have hmu := hinv.bound c key mu (.inr h)
  rw [hinv.bound c' key mu' (.inr h'), Option.some.injEq] at hmu
  exact hinv.unique c c' key key mu h (hmu ▸ h')

/-- For every run of `Lock` calls and unlock functions on a new `S3Storage`,
in any interleaving: no two calls hold locks for the same key at once; a call
that waits for or holds a lock on a key uses the mutex the map holds for that
key; and that mutex stays the key's mutex in every later state. -/
theorem lock_run_exclusive (s : S3Storage) (acts : List LockAction) (st : LockState)
    (h : LockState.run s {} acts = some st) :
    KeyExclusive st ∧
      (∀ c key mu, (st.phase c = .waiting key mu ∨ st.phase c = .holding key mu) →
        st.locks.lookup key = some mu) ∧
      (∀ key mu, st.locks.lookup key = some mu → ∀ acts' st',
        LockState.run s st acts' = some st' → st'.locks.lookup key = some mu) := by
  have hinv := LockState.lockInv_run acts LockState.lockInv_init h
  exact ⟨keyExclusive_of_lockInv hinv, hinv.bound,
    fun _ _ hk acts' _ h' => lookup_of_prefix (LockState.run_extends_locks acts' h') hk⟩

/-- Two calls lock the same artifact.  The second cannot acquire while the
first holds the lock; once the first unlocks, the second acquires, and at the
end the first is done and the second holds the mutex the first released, the
one the map keeps for the key. -/
theorem lock_run_exclusive_two_calls :
    let s : S3Storage := ⟨"artifacts", "", "", defaultURLExpiration⟩
    let a : Artifact := { path := "gitrepository/default/app/rev1.tar.gz" }
    let acts : List LockAction := [.lock 0 a, .acquire 0, .lock 1 a, .unlock 0, .acquire 1]
    let st := (LockState.run s {} acts).getD {}
    LockState.run s {} [.lock 0 a, .acquire 0, .lock 1 a, .acquire 1] = none ∧
      LockState.run s {} acts = some st ∧
      st.phase 0 = .done ∧ st.phase 1 = .holding "gitrepository/default/app/rev1.tar.gz" 0 ∧
      st.locks.lookup "gitrepository/default/app/rev1.tar.gz" = some 0 ∧
      (KeyExclusive st ∧
        (∀ c key mu, (st.phase c = .waiting key mu ∨ st.phase c = .holding key mu) →
          st.locks.lookup key = some mu) ∧
        (∀ key mu, st.locks.lookup key = some mu → ∀ acts' st',
          LockState.run s st acts' = some st' → st'.locks.lookup key = some mu)) := by
  intro s a acts st
  exact ⟨rfl, rfl, rfl, rfl, rfl, lock_run_exclusive s acts st rfl⟩

/-! ## Progress -/

/-- What progress rests on: every locked mutex has a holder, and the map gives
its keys distinct mutexes, each allocated before the next fresh one. -/
structure LockProgress (st : LockState) : Prop where
  held : ∀ mu, st.locked mu = true → ∃ c key, st.phase c = .holding key mu
  nodup : (st.locks.map Prod.snd).Nodup
  allocated : ∀ p ∈ st.locks, p.2 < st.fresh

/-- `LoadOrStore` of the next fresh mutex keeps the map's mutexes distinct and
allocated. -/
theorem loadOrStore_fresh {locks : List (String × Nat)} {n : Nat} (key : String)
    (hnodup : (locks.map Prod.snd).Nodup) (halloc : ∀ p ∈ locks, p.2 < n) :
    ((loadOrStore locks key n).2.map Prod.snd).Nodup ∧
      ∀ p ∈ (loadOrStore locks key n).2, p.2 < n + 1 := by
  unfold loadOrStore
  split
  · exact ⟨hnodup, fun p hp => Nat.lt_succ_of_lt (halloc p hp)⟩
  · refine ⟨?_, fun p hp => ?_⟩
    · rw [List.map_append, List.nodup_append]
      refine ⟨hnodup, List.nodup_singleton _, List.disjoint_singleton.2 fun h => ?_⟩
      obtain ⟨p, hp, hpn⟩ := List.mem_map.1 h
      exact absurd (halloc p hp) (by omega)
    · rcases List.mem_append.1 hp with hp | hp
      · exact Nat.lt_succ_of_lt (halloc p hp)
      · rw [List.mem_singleton.1 hp]
        exact Nat.lt_succ_self n

theorem mem_locks_of_lookup :
    ∀ {locks : List (String × Nat)} {k : String} {m : Nat}, locks.lookup k = some m → (k, m) ∈ locks
  | [], _, _, h => by simp at h
  | (k', m') :: locks, k, m, h => by
    by_cases hk : k = k'
    · subst hk
      simp only [List.lookup_cons, beq_self_eq_true, Option.some.injEq] at h
      subst h
      exact List.mem_cons_self _ _
    · simp only [List.lookup_cons, beq_false_of_ne hk] at h
      exact List.mem_cons_of_mem _ (mem_locks_of_lookup h)

namespace LockState

variable {s : S3Storage} {st st' : LockState}

theorem lockProgress_init : LockProgress {} :=
  ⟨fun _ h => by simp at h, List.nodup_nil, fun _ h => by simp at h⟩

/-- Every step keeps the facts progress rests on. -/
theorem lockProgress_step {act : LockAction} (hprog : LockProgress st)
    (h : st.step s act = some st') : LockProgress st' := by
  rcases step_cases h with ⟨c, a, hidle, rfl⟩ | ⟨c, key, mu, hw, -, rfl⟩ | ⟨c, key, mu, hh, rfl⟩
  · obtain ⟨hnodup, halloc⟩ := loadOrStore_fresh (s.artifactKey a) hprog.nodup hprog.allocated
    refine ⟨fun mu hmu => ?_, hnodup, halloc⟩
    obtain ⟨c', k, hc'⟩ := hprog.held mu hmu
    have hne : c' ≠ c := fun he => by rw [he, hidle] at hc'; cases hc'
    exact ⟨c', k, by dsimp only; rwa [Function.update_noteq hne]⟩
  · refine ⟨fun mu' hmu' => ?_, hprog.nodup, hprog.allocated⟩
    by_cases hm : mu' = mu
    · exact ⟨c, key, by simp [hm]⟩
    · obtain ⟨c', k, hc'⟩ := hprog.held mu' (by simpa [Function.update_noteq hm] using hmu')
      have hne : c' ≠ c := fun he => by rw [he, hw] at hc'; cases hc'
      exact ⟨c', k, by dsimp only; rwa [Function.update_noteq hne]⟩
  · refine ⟨fun mu' hmu' => ?_, hprog.nodup, hprog.allocated⟩
    have hm : mu' ≠ mu := fun hm => by subst hm; simp at hmu'
    obtain ⟨c', k, hc'⟩ := hprog.held mu' (by simpa [Function.update_noteq hm] using hmu')
    have hne : c' ≠ c := fun he => by
      rw [he, hh] at hc'
      exact hm (Phase.holding.inj hc').2.symm
    exact ⟨c', k, by dsimp only; rwa [Function.update_noteq hne]⟩

/-- Every run keeps the facts progress rests on. -/
theorem lockProgress_run : ∀ {st st' : LockState} (acts : List LockAction), LockProgress st →
    run s st acts = some st' → LockProgress st'
  | _, _, [], hprog, h => by cases h; exact hprog
  | st, st', act :: acts, hprog, h => by
    simp only [run, Option.bind_eq_some] at h
    obtain ⟨st₁, h₁, h₂⟩ := h
    exact lockProgress_run acts (lockProgress_step hprog h₁) h₂

/-- A call waiting on a free mutex acquires it and unlocks it. -/
theorem run_acquire_unlock {c : Nat} {key : String} {mu : Nat} (hw : st.phase c = .waiting key mu)
    (hfree : st.locked mu = false) :
    ∃ st', run s st [.acquire c, .unlock c] = some st' ∧ st'.phase c = .done :=
  ⟨{ st with locked := Function.update (Function.update st.locked mu true) mu false,
             phase := Function.update (Function.update st.phase c (.holding key mu)) c .done },
    by simp [run, step, hw, hfree], by simp⟩

end LockState

/-- The mutex a call waits on is held, if at all, by a call on the same key. -/
theorem holder_key_eq {st : LockState} (hinv : LockInv st) (hprog : LockProgress st)
    {c c' : Nat} {key key' : String} {mu : Nat} (hw : st.phase c = .waiting key mu)
    (hh : st.phase c' = .holding key' mu) : key' = key := by
  have h₁ := mem_locks_of_lookup (hinv.bound c key mu (.inl hw))
  have h₂ := mem_locks_of_lookup (hinv.bound c' key' mu (.inr hh))
  exact (Prod.mk.inj (List.inj_on_of_nodup_map hprog.nodup h₂ h₁ rfl)).1

/-- For every run of `Lock` calls and unlock functions on a new `S3Storage`, in
any interleaving, a call that waits for its mutex waits only for a call that
holds the same key, and it can always finish: at most three more steps, the
holder's unlock, its own acquire and its own unlock, bring it to `done`. -/
theorem waiting_lock_completes (s : S3Storage) (acts : List LockAction) (st : LockState)
    (h : LockState.run s {} acts = some st) {c : Nat} {key : String} {mu : Nat}
    (hw : st.phase c = .waiting key mu) :
    (st.locked mu = false ∨ ∃ c', c' ≠ c ∧ st.phase c' = .holding key mu) ∧
      ∃ more st', more.length ≤ 3 ∧ LockState.run s st more = some st' ∧ st'.phase c = .done := by
  have hinv := LockState.lockInv_run acts LockState.lockInv_init h
  have hprog := LockState.lockProgress_run acts LockState.lockProgress_init h
  cases hl : st.locked mu with
  | false =>
    obtain ⟨st', hrun, hdone⟩ := LockState.run_acquire_unlock (s := s) hw hl
    exact ⟨.inl rfl, [.acquire c, .unlock c], st', by simp, hrun, hdone⟩
  | true =>
    obtain ⟨c', key', hh⟩ := hprog.held mu hl
    have hkey := holder_key_eq hinv hprog hw hh
    subst hkey
    have hne : c' ≠ c := fun he => by rw [he, hw] at hh; cases hh
    let st₁ : LockState := { st with locked := Function.update st.locked mu false,
                                     phase := Function.update st.phase c' .done }
    have hw₁ : st₁.phase c = .waiting key' mu := by simp [st₁, Function.update_noteq hne.symm, hw]
    obtain ⟨st', hrun, hdone⟩ := LockState.run_acquire_unlock (s := s) hw₁ (by simp [st₁])
    refine ⟨.inr ⟨c', hne, hh⟩, .unlock c' :: [.acquire c, .unlock c], st', by simp, ?_, hdone⟩
    simp only [LockState.run, LockState.step, hh, Option.some_bind]
    exact hrun

/-- Two calls lock the same artifact; the second waits on the mutex the first
holds. -/
theorem waiting_lock_completes_two_calls :
    let s : S3Storage := ⟨"artifacts", "", "", defaultURLExpiration⟩
    let a : Artifact := { path := "gitrepository/default/app/rev1.tar.gz" }
    let acts : List LockAction := [.lock 0 a, .acquire 0, .lock 1 a]
    let st := (LockState.run s {} acts).getD {}
    LockState.run s {} acts = some st ∧ st.phase 1 = .waiting (s.artifactKey a) 0 ∧
      ((st.locked 0 = false ∨ ∃ c', c' ≠ 1 ∧ st.phase c' = .holding (s.artifactKey a) 0) ∧
        ∃ more st', more.length ≤ 3 ∧ LockState.run s st more = some st' ∧ st'.phase 1 = .done) := by
  intro s a acts st
  have hw : st.phase 1 = .waiting (s.artifactKey a) 0 := rfl
  exact ⟨rfl, hw, waiting_lock_completes s acts st rfl hw⟩

end SourceController
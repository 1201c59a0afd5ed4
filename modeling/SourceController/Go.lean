import Mathlib.Data.List.Basic

/-!
# The parts of the Go library that the storage package calls

The storage package reads keys and paths with `strings.HasPrefix`,
`strings.HasSuffix`, `strings.TrimPrefix` and `strings.TrimSuffix`, drains
`io.Reader`s with `io.Copy`, and reads the clock with `time.Time.Sub` and
`time.Time.After`.  This module models those calls; `FilePath` and `LocalFs`
model `path/filepath` and `os`.

Strings are Lean `String`s.  Every function here works on the character list
`String.data`, so a proof about a Go string is a proof about a `List Char`,
and `decide` evaluates a model on a literal.  Go compares bytes and Lean
compares characters.  UTF-8 is prefix-free, so the two agree on prefixes and
suffixes of valid strings.

A `Time` counts nanoseconds since Go's zero time, January 1 of year 1, UTC.
A `time.Duration` is an `Int` of nanoseconds that stands for Go's `int64`.
`Time.sub` saturates at the `int64` bounds, as `time.Time.Sub` is documented
to do.  The times the storage package compares come from object listings and
carry no monotonic clock reading, so `Sub` and `After` compare wall clocks.
-/

namespace SourceController

/-- Go's `[]byte`. -/
abbrev Bytes := List UInt8

/-- The bytes of a Go string: its UTF-8 encoding. -/
def stringBytes (s : String) : Bytes := s.data.flatMap String.utf8EncodeChar

/-! ## Strings -/

/-- `strings.HasPrefix(s, p)`. -/
def hasPrefix (s p : String) : Bool := p.data.isPrefixOf s.data

/-- `strings.HasSuffix(s, p)`. -/
def hasSuffix (s p : String) : Bool := p.data.isSuffixOf s.data

/-- The byte order of UTF-8 strings, which is the order of their code points:
Go's `<` on strings. -/
def charsLess : List Char → List Char → Bool
  | [], [] => false
  | [], _ :: _ => true
  | _ :: _, [] => false
  | c :: cs, d :: ds => c.toNat < d.toNat || (c.toNat = d.toNat && charsLess cs ds)

/-- Go's `s < t` on strings. -/
def stringLess (s t : String) : Bool := charsLess s.data t.data

/-- `strings.TrimPrefix(s, p)`: `s` without a leading `p`, or `s` itself. -/
def trimPrefix (s p : String) : String :=
  if hasPrefix s p then ⟨s.data.drop p.length⟩ else s

/-- `strings.TrimSuffix(s, p)`: `s` without a trailing `p`, or `s` itself. -/
def trimSuffix (s p : String) : String :=
  if hasSuffix s p then ⟨s.data.take (s.length - p.length)⟩ else s

theorem hasPrefix_iff {s p : String} : hasPrefix s p = true ↔ p.data <+: s.data := by
  simp [hasPrefix]

@[simp] theorem hasPrefix_append (p s : String) : hasPrefix (p ++ s) p = true :=
  hasPrefix_iff.2 (List.prefix_append _ _)

@[simp] theorem hasPrefix_self (s : String) : hasPrefix s s = true :=
  hasPrefix_iff.2 (List.prefix_refl _)

theorem hasPrefix_trans {s p q : String} (h₁ : hasPrefix s p = true)
    (h₂ : hasPrefix p q = true) : hasPrefix s q = true :=
  hasPrefix_iff.2 ((hasPrefix_iff.1 h₂).trans (hasPrefix_iff.1 h₁))

/-- Whether a string ends with `p` depends only on its last part, once that
part is as long as `p`. -/
theorem hasSuffix_append_of_length {s t p : String} (h : p.length ≤ t.length) :
    hasSuffix (s ++ t) p = hasSuffix t p := by
  rw [Bool.eq_iff_iff, hasSuffix, hasSuffix, List.isSuffixOf_iff_suffix, List.isSuffixOf_iff_suffix,
    String.data_append]
  exact ⟨fun hp => List.suffix_of_suffix_length_le hp (List.suffix_append _ _) h,
    fun hp => hp.trans (List.suffix_append _ _)⟩

/-- A string that starts with `p` is `p` followed by what `trimPrefix` leaves. -/
theorem append_trimPrefix {s p : String} (h : hasPrefix s p = true) :
    p ++ trimPrefix s p = s := by
  obtain ⟨t, ht⟩ := hasPrefix_iff.1 h
  have hl : p.length = p.data.length := rfl
  rw [trimPrefix, if_pos h, String.ext_iff, String.data_append, ← ht, hl, List.drop_left]

@[simp] theorem trimPrefix_append (p s : String) : trimPrefix (p ++ s) p = s := by
  have h := append_trimPrefix (hasPrefix_append p s)
  rw [String.ext_iff, String.data_append, String.data_append] at h
  exact String.ext (List.append_cancel_left h)

/-! ## The order of strings -/

theorem charsLess_irrefl : ∀ cs : List Char, charsLess cs cs = false
  | [] => rfl
  | c :: cs => by simp [charsLess, charsLess_irrefl cs]

theorem charsLess_trans : ∀ {as bs cs : List Char}, charsLess as bs = true →
    charsLess bs cs = true → charsLess as cs = true
  | [], [], _, h₁, _ => by simp [charsLess] at h₁
  | _ :: _, [], _, h₁, _ => by simp [charsLess] at h₁
  | _, _ :: _, [], _, h₂ => by simp [charsLess] at h₂
  | [], _ :: _, _ :: _, _, _ => rfl
  | a :: as, b :: bs, c :: cs, h₁, h₂ => by
    simp only [charsLess, Bool.or_eq_true, decide_eq_true_eq, Bool.and_eq_true] at h₁ h₂ ⊢
    rcases h₁ with h₁ | ⟨e₁, h₁⟩ <;> rcases h₂ with h₂ | ⟨e₂, h₂⟩
    · exact .inl (by omega)
    · exact .inl (by omega)
    · exact .inl (by omega)
    · exact .inr ⟨e₁.trans e₂, charsLess_trans h₁ h₂⟩

/-- Of two different strings, one is below the other. -/
theorem charsLess_of_not : ∀ {as bs : List Char}, as ≠ bs → charsLess as bs = false →
    charsLess bs as = true
  | [], [], hne, _ => absurd rfl hne
  | [], _ :: _, _, h => by simp [charsLess] at h
  | _ :: _, [], _, _ => rfl
  | a :: as, b :: bs, hne, h => by
    simp only [charsLess, Bool.or_eq_false_iff, decide_eq_false_iff_not, Bool.and_eq_false_iff,
      decide_eq_true_eq] at h
    simp only [charsLess, Bool.or_eq_true, decide_eq_true_eq, Bool.and_eq_true]
    by_cases hab : a.toNat = b.toNat
    · have hc : a = b := Char.eq_of_val_eq (UInt32.eq_of_val_eq (Fin.ext hab))
      subst hc
      exact .inr ⟨rfl, charsLess_of_not (fun h' => hne (h' ▸ rfl))
        (h.2.resolve_left (not_not.2 rfl))⟩
    · exact .inl (by omega)

theorem stringLess_trans {s t u : String} (h₁ : stringLess s t = true)
    (h₂ : stringLess t u = true) : stringLess s u = true :=
  charsLess_trans h₁ h₂

theorem stringLess_of_not {s t : String} (hne : s ≠ t) (h : stringLess s t = false) :
    stringLess t s = true :=
  charsLess_of_not (fun h' => hne (String.ext h')) h

/-! ## Readers -/

/-- An `io.Reader` as `io.Copy` drains it: the chunks its `Read` calls return,
then `io.EOF` (`err = none`) or a read error. -/
structure Reader where
  chunks : List Bytes
  err : Option String := none

/-- The bytes a reader delivers before it stops. -/
def Reader.bytes (r : Reader) : Bytes := r.chunks.flatten

/-! ## The clock -/

/-- `time.Time`, as nanoseconds since January 1 of year 1, UTC. -/
structure Time where
  nanos : Int
  deriving DecidableEq, Repr

/-- `math.MinInt64`, the value `Sub` returns for a difference below the range. -/
def minDuration : Int := -9223372036854775808

/-- `math.MaxInt64`, the value `Sub` returns for a difference above the range. -/
def maxDuration : Int := 9223372036854775807

/-- `t.Sub(u)`: the duration `t - u`, or the bound of the `int64` range that it
passes. -/
def Time.sub (t u : Time) : Int :=
  if t.nanos - u.nanos < minDuration then minDuration
  else if maxDuration < t.nanos - u.nanos then maxDuration
  else t.nanos - u.nanos

/-- `t.After(u)`: whether `t` is strictly later than `u`. -/
def Time.after (t u : Time) : Bool := decide (u.nanos < t.nanos)

@[simp] theorem Time.after_iff {t u : Time} : t.after u = true ↔ u.nanos < t.nanos := by
  simp [Time.after]

/-- The saturated difference only shrinks when the subtrahend grows: a later
artifact is never older than an earlier one. -/
theorem Time.sub_antitone (now : Time) {u v : Time} (h : u.nanos ≤ v.nanos) :
    now.sub v ≤ now.sub u := by
  simp only [Time.sub, minDuration, maxDuration]
  split_ifs <;> omega

end SourceController

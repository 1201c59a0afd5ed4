import Mathlib.Data.Nat.Digits
import SourceController.Go

/-!
# Tar entries and the codec of Go's library

`Archive` writes tar entries through a `tar.Writer` over a `gzip.Writer`, and
`CopyToPath` reads them back through `gzip.NewReader` and a `tar.Reader`.
Both layers belong to Go's library, and `Codec` stands for them.

What the library keeps of an entry is `Codec.RoundTrips`: the stream the
writers leave for a list of entries reads back as the same entries, but for
the modification time.  `tar.FileInfoHeader` leaves the header's `Format`
unset, and for such a header `Writer.WriteHeader` rounds `ModTime` to the
nearest second.  The theorems that read back what `Archive` stored take
`RoundTrips` at the entries archived as their hypothesis.

`octalCodec` is a codec in tar's manner: every number is written as octal
digits, and a time as whole seconds.  `octalCodec_roundTrips` shows that it
meets `RoundTrips` at every list of entries, so the hypothesis of the
read-back theorems is met by a codec whose decoder reads its input.
-/

namespace SourceController

/-! ## Entries and the codec -/

/-- A tar entry as `Archive` writes it and `CopyToPath` reads it: the header
fields `tar.FileInfoHeader` fills for a regular file and `CopyToPath` reads,
and the bytes after the header.  The header's size is the length of the
bytes. -/
structure Entry where
  name : String
  mode : Nat
  modTime : Time
  uid : Nat
  gid : Nat
  uname : String
  gname : String
  content : Bytes
  deriving DecidableEq, Repr

/-- The tar and gzip layers of Go's library.  `encode` is the buffer a
`tar.Writer` over a `gzip.Writer` leaves for a list of entries.  `decode` is
what `gzip.NewReader` and the loop over `tar.Reader.Next` return for a
stream: the entries read before the stream ended, and the error it ended with
(`none` for `io.EOF`); an outer error is the stream `gzip.NewReader` refuses.
An entry whose bytes end early is reported by its error, not as an entry. -/
structure Codec where
  encode : List Entry → Bytes
  decode : Bytes → Except String (List Entry × Option String)

/-- `t.Round(time.Second)`: the nearest whole second, a half rounded up.  The
zero time is a whole second, so this is the rounding of the nanosecond
count. -/
def Time.roundSecond (t : Time) : Time :=
  ⟨(t.nanos + 500000000) / 1000000000 * 1000000000⟩

/-- The entry as `Writer.WriteHeader` writes a header whose `Format` is unset:
with its modification time rounded to the second. -/
def Entry.roundModTime (e : Entry) : Entry := { e with modTime := e.modTime.roundSecond }

@[simp] theorem Entry.roundModTime_name (e : Entry) : e.roundModTime.name = e.name := rfl
@[simp] theorem Entry.roundModTime_mode (e : Entry) : e.roundModTime.mode = e.mode := rfl
@[simp] theorem Entry.roundModTime_uid (e : Entry) : e.roundModTime.uid = e.uid := rfl
@[simp] theorem Entry.roundModTime_gid (e : Entry) : e.roundModTime.gid = e.gid := rfl
@[simp] theorem Entry.roundModTime_content (e : Entry) : e.roundModTime.content = e.content := rfl

/-- The round trip of Go's tar and gzip layers at `es`: the stream the writers
leave for `es` reads back as `es`, every modification time rounded to the
second, and ends with `io.EOF`. -/
def Codec.RoundTrips (codec : Codec) (es : List Entry) : Prop :=
  codec.decode (codec.encode es) = .ok (es.map Entry.roundModTime, none)

/-! ## A codec that meets the round trip -/

namespace OctalCodec

/-- A number as its octal digits, least significant first, one byte each,
closed by the byte `8`. -/
def putOctal (n : Nat) : Bytes := (Nat.digits 8 n).map UInt8.ofNat ++ [8]

/-- Reads a `putOctal` field: the digits up to the first byte that is not
one. -/
def readOctal : Bytes → Option (Nat × Bytes)
  | [] => none
  | b :: rest =>
    if b.toNat < 8 then (readOctal rest).map fun r => (b.toNat + 8 * r.1, r.2)
    else some (0, rest)

/-- An integer as a sign byte and the octal digits of its magnitude. -/
def putInt (i : Int) : Bytes := (if i < 0 then 1 else 0) :: putOctal i.natAbs

/-- Reads a `putInt` field. -/
def readInt : Bytes → Option (Int × Bytes)
  | [] => none
  | b :: rest => (readOctal rest).map fun r => (if b = 1 then -(r.1 : Int) else r.1, r.2)

/-- A string as its length and the octal code point of each character. -/
def putString (s : String) : Bytes := putOctal s.length ++ s.data.flatMap (putOctal ·.toNat)

/-- Reads `n` characters. -/
def readChars : Nat → Bytes → Option (List Char × Bytes)
  | 0, bs => some ([], bs)
  | n + 1, bs => do
    let (c, bs) ← readOctal bs
    let (cs, bs) ← readChars n bs
    pure (Char.ofNat c :: cs, bs)

/-- Reads a `putString` field. -/
def readString (bs : Bytes) : Option (String × Bytes) := do
  let (n, bs) ← readOctal bs
  let (cs, bs) ← readChars n bs
  pure (⟨cs⟩, bs)

/-- Bytes as their count and themselves. -/
def putBytes (b : Bytes) : Bytes := putOctal b.length ++ b

/-- Reads a `putBytes` field; a stream that ends early is refused. -/
def readBytes (bs : Bytes) : Option (Bytes × Bytes) := do
  let (n, bs) ← readOctal bs
  if n ≤ bs.length then pure (bs.take n, bs.drop n) else none

/-- An entry as its fields in order, the time as whole seconds. -/
def putEntry (e : Entry) : Bytes :=
  putString e.name ++ putOctal e.mode ++ putInt ((e.modTime.nanos + 500000000) / 1000000000) ++
    putOctal e.uid ++ putOctal e.gid ++ putString e.uname ++ putString e.gname ++
    putBytes e.content

/-- Reads a `putEntry` record. -/
def readEntry (bs : Bytes) : Option (Entry × Bytes) := do
  let (name, bs) ← readString bs
  let (mode, bs) ← readOctal bs
  let (secs, bs) ← readInt bs
  let (uid, bs) ← readOctal bs
  let (gid, bs) ← readOctal bs
  let (uname, bs) ← readString bs
  let (gname, bs) ← readString bs
  let (content, bs) ← readBytes bs
  pure (⟨name, mode, ⟨secs * 1000000000⟩, uid, gid, uname, gname, content⟩, bs)

/-- Reads `n` entries. -/
def readEntries : Nat → Bytes → Option (List Entry × Bytes)
  | 0, bs => some ([], bs)
  | n + 1, bs => do
    let (e, bs) ← readEntry bs
    let (es, bs) ← readEntries n bs
    pure (e :: es, bs)

theorem readOctal_digits (rest : Bytes) : ∀ ds : List Nat, (∀ d ∈ ds, d < 8) →
    readOctal (ds.map UInt8.ofNat ++ 8 :: rest) = some (Nat.ofDigits 8 ds, rest)
  | [], _ => rfl
  | d :: ds, h => by
    have hd : d < 8 := h d (List.mem_cons_self _ _)
    have hb : (UInt8.ofNat d).toNat = d := UInt8.toNat_ofNat_of_lt (by unfold UInt8.size; omega)
    rw [List.map_cons, List.cons_append, readOctal, hb, if_pos hd,
      readOctal_digits rest ds fun d' hd' => h d' (List.mem_cons_of_mem _ hd')]
    simp [Nat.ofDigits_cons]

@[simp] theorem readOctal_putOctal (n : Nat) (rest : Bytes) :
    readOctal (putOctal n ++ rest) = some (n, rest) := by
  rw [putOctal, List.append_assoc, List.singleton_append,
    readOctal_digits rest _ fun _ hd => Nat.digits_lt_base (by norm_num) hd, Nat.ofDigits_digits]

@[simp] theorem readInt_putInt (i : Int) (rest : Bytes) :
    readInt (putInt i ++ rest) = some (i, rest) := by
  rw [putInt, List.cons_append, readInt, readOctal_putOctal]
  by_cases hi : i < 0
  · simp [hi, abs_of_neg hi]
  · simpa [hi] using not_lt.1 hi

theorem readChars_putOctal (rest : Bytes) : ∀ cs : List Char,
    readChars cs.length (cs.flatMap (putOctal ·.toNat) ++ rest) = some (cs, rest)
  | [] => rfl
  | c :: cs => by
    simp [readChars, List.append_assoc, readChars_putOctal rest cs]

@[simp] theorem readString_putString (s : String) (rest : Bytes) :
    readString (putString s ++ rest) = some (s, rest) := by
  obtain ⟨cs⟩ := s
  simp only [readString, putString, List.append_assoc, readOctal_putOctal]
  simp [String.length, readChars_putOctal]

@[simp] theorem readBytes_putBytes (b rest : Bytes) :
    readBytes (putBytes b ++ rest) = some (b, rest) := by
  simp [readBytes, putBytes]

/-- A field reader that reads back what its writer wrote hands the rest of
the stream to the next read. -/
theorem bind_read {α β : Type} {read : Bytes → Option (α × Bytes)} {put : α → Bytes}
    (h : ∀ x rest, read (put x ++ rest) = some (x, rest)) (x : α) (rest : Bytes)
    (k : α × Bytes → Option β) : (read (put x ++ rest) >>= k) = k (x, rest) := by
  rw [h]; rfl

theorem readEntry_putEntry (e : Entry) (rest : Bytes) :
    readEntry (putEntry e ++ rest) = some (e.roundModTime, rest) := by
  simp only [readEntry, putEntry, List.append_assoc, bind_read readString_putString,
    bind_read readOctal_putOctal, bind_read readInt_putInt, bind_read readBytes_putBytes]
  rfl

theorem readEntries_putEntry (rest : Bytes) : ∀ es : List Entry,
    readEntries es.length (es.flatMap putEntry ++ rest) = some (es.map Entry.roundModTime, rest)
  | [] => rfl
  | e :: es => by
    simp [readEntries, List.append_assoc, readEntry_putEntry, readEntries_putEntry rest es]

end OctalCodec

/-- A codec in tar's manner: the count of entries, then each entry's fields
in order, every number as octal digits and the time as whole seconds.  A
stream it cannot read is refused, as `gzip.NewReader` refuses one; bytes left
after the last entry end the read with an error. -/
def octalCodec : Codec where
  encode es := OctalCodec.putOctal es.length ++ es.flatMap OctalCodec.putEntry
  decode bs :=
    match OctalCodec.readOctal bs >>= fun r => OctalCodec.readEntries r.1 r.2 with
    | some (es, []) => .ok (es, none)
    | some (es, _) => .ok (es, some "archive/tar: invalid tar header")
    | none => .error "gzip: invalid header"

/-- `octalCodec` keeps every field of every entry but the modification time,
which it rounds to the second. -/
theorem octalCodec_roundTrips (es : List Entry) : octalCodec.RoundTrips es := by
  have h := OctalCodec.readEntries_putEntry [] es
  rw [List.append_nil] at h
  simp [Codec.RoundTrips, octalCodec, h]

end SourceController

import SqlScript.Utf8

/-!
# Drawing from bytes

A `Draw` takes what it needs from given bytes and leaves the rest, so that the same bytes always
give the same values. Numbers are taken from the front. A text has its size at the far end, in one
byte or, where one byte could not name all sizes, in more (`Draw.text`). Bytes that are not there
count for nothing, and no draw fails.
-/

namespace SqlScript

/-- A value that is drawn from bytes, and the bytes that are left. -/
abbrev Draw := StateM Bytes

namespace Draw

/-- The number that bytes spell in base 256, the first byte the most significant. -/
def spelled (bytes : Bytes) : Nat := bytes.foldl (fun n b => 256 * n + b.toNat) 0

/-- The number of bytes that tell `n` values apart. -/
def width (n : Nat) : Nat := if n ≤ 1 then 0 else Nat.log2 (n - 1) / 8 + 1

/-- A number below `n`, from the first bytes. -/
def below (n : Nat) : Draw Nat := fun bytes =>
  (spelled (bytes.take (width n)) % n, bytes.drop (width n))

/-- True in `n` of `d` cases. -/
def chance (n d : Nat) : Draw Bool := do
  return (← below d) < n

/-- A member of a list that is not empty. -/
def pick {α : Type} (xs : List α) (h : xs ≠ []) : Draw α := do
  return xs.getD (← below xs.length) (xs.head h)

/-- The number of bytes at the end that hold the size of a text, among `n` bytes. -/
def sizeWidth (n : Nat) : Nat :=
  if n ≤ 0x100 then 1 else if n ≤ 0x10001 then 2 else if n ≤ 0x100000003 then 4 else 8

/-- The size of a text: at most the number of bytes that are left once the size is taken. A byte
that is the only one is lost. -/
def size : Draw Nat := fun bytes =>
  if bytes.length ≤ 1 then (0, [])
  else
    let n := bytes.length - sizeWidth bytes.length
    (((below (n + 1)).run (bytes.drop n)).1, bytes.take n)

/-- A text of a size that is drawn first. It ends early where the bytes are not UTF-8, and the
bytes from there on are left. -/
def text : Draw Text := do
  let n ← size
  fun bytes =>
    let t := Text.ofUtf8 (bytes.take n)
    (t, bytes.drop (Text.byteLen t))

end Draw

end SqlScript

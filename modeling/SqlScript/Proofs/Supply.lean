import Mathlib.Algebra.Order.Ring.Nat
import SqlScript.Sample.Script

/-!
# Bytes for every sample

Every configuration and every script can be drawn. For each kind of draw there are bytes that give a
value asked for and leave a rest asked for: `Draw.run_below` for numbers, `Draw.run_text` for texts,
`Sample.run_token` for tokens.

Numbers stand at the front, and the size of a text stands at the end of all bytes that are left. How
many bytes a size takes, and which sizes they can name, depends on how many bytes stand before it.
The bytes are therefore found from the last draw to the first: what is drawn from the bytes around a
rest depends on the length of the rest only.
-/

namespace SqlScript

namespace Draw

variable {α β : Type} {bytes rest : Bytes} {n v w m : Nat}

/-- Two draws, one after the other. -/
theorem run_bind_of_run {x : Draw α} {f : α → Draw β} {a : α} (h : x.run bytes = (a, rest)) :
    (x >>= f).run bytes = (f a).run rest := by
  rw [StateT.run_bind, h]
  rfl

/-! ### Numbers -/

/-- The last `w` digits of `v` in base 256, the most significant first. -/
def spell : Nat → Nat → Bytes
  | 0, _ => []
  | w + 1, v => spell w (v / 256) ++ [UInt8.ofNat v]

@[simp] theorem length_spell (w v : Nat) : (spell w v).length = w := by
  induction w generalizing v with
  | zero => rfl
  | succ w ih => rw [spell, List.length_append, ih, List.length_singleton]

theorem spelled_concat (bytes : Bytes) (b : UInt8) :
    spelled (bytes ++ [b]) = 256 * spelled bytes + b.toNat := by
  unfold spelled
  rw [List.foldl_append]
  rfl

/-- Digits that suffice for a number spell it. -/
theorem spelled_spell (h : v < 256 ^ w) : spelled (spell w v) = v := by
  induction w generalizing v with
  | zero =>
    rw [pow_zero] at h
    show 0 = v
    omega
  | succ w ih =>
    rw [pow_succ] at h
    have hv : v / 256 < 256 ^ w := by omega
    rw [spell, spelled_concat, ih hv, UInt8.toNat_ofNat']
    omega

/-- The bytes of a draw tell all numbers apart that it may give. -/
theorem lt_pow_width (h : v < n) : v < 256 ^ width n := by
  unfold width
  split
  · rw [pow_zero]
    omega
  · -- the greatest number has so many bits, and these bytes have at least as many
    have hlog : n - 1 < 2 ^ ((n - 1).log2 + 1) := Nat.lt_log2_self
    have hpow : 2 ^ ((n - 1).log2 + 1) ≤ 2 ^ (8 * ((n - 1).log2 / 8 + 1)) :=
      Nat.pow_le_pow_right (by omega) (by omega)
    have hbyte : (2 : Nat) ^ 8 = 256 := rfl
    rw [pow_mul, hbyte] at hpow
    omega

/-- Every number can be drawn. -/
theorem run_below (h : v < n) (rest : Bytes) :
    (below n).run (spell (width n) v ++ rest) = (v, rest) := by
  have hlen : (spell (width n) v).length = width n := length_spell _ _
  show (spelled ((spell (width n) v ++ rest).take (width n)) % n,
    (spell (width n) v ++ rest).drop (width n)) = _
  rw [List.take_left' hlen, List.drop_left' hlen, spelled_spell (lt_pow_width h),
    Nat.mod_eq_of_lt h]

theorem run_chance (h : v < n) (k : Nat) (rest : Bytes) :
    (chance k n).run (spell (width n) v ++ rest) = (decide (v < k), rest) :=
  run_bind_of_run (run_below h rest)

/-! ### Texts -/

/-- The number of bytes that hold a size behind `m` other bytes. -/
def sizeRoom (m : Nat) : Nat :=
  if m ≤ 0xff then 1 else if m ≤ 0xffff then 2 else if m ≤ 0xffffffff then 4 else 8

theorem sizeRoom_bounds (m : Nat) : 1 ≤ sizeRoom m ∧ sizeRoom m ≤ 8 := by
  unfold sizeRoom
  split_ifs <;> omega

/-- Together with the bytes of the size, there are as many bytes as make the size take that room. -/
theorem sizeWidth_add_sizeRoom (m : Nat) : sizeWidth (m + sizeRoom m) = sizeRoom m := by
  unfold sizeWidth sizeRoom
  split_ifs <;> omega

/-- The room of a size is enough to tell all sizes apart that may stand there. -/
theorem width_le_sizeRoom (h : m < 2 ^ 64) : width (m + 1) ≤ sizeRoom m := by
  by_cases hm : m = 0
  · rw [hm]
    decide
  have hlog (k : Nat) (hk : m < 2 ^ k) : m.log2 < k := (Nat.log2_lt hm).2 hk
  unfold width sizeRoom
  rw [if_neg (by omega), Nat.add_sub_cancel]
  split_ifs with h1 h2 h4
  · have := hlog 8 (by omega)
    omega
  · have := hlog 16 (by omega)
    omega
  · have := hlog 32 (by omega)
    omega
  · have := hlog 64 (by omega)
    omega

/-- The size `v` of a text, as it stands behind `m` other bytes. Only as many bytes are looked at as
are needed to tell the sizes up to `m` apart. -/
def sizeBytes (v m : Nat) : Bytes :=
  spell (width (m + 1)) v ++ List.replicate (sizeRoom m - width (m + 1)) 0

theorem length_sizeBytes (h : m < 2 ^ 64) :
    (sizeBytes v m).length = sizeRoom m := by
  have hle := width_le_sizeRoom h
  rw [sizeBytes, List.length_append, length_spell, List.length_replicate]
  omega

/-- Every size can be drawn that is not more than the bytes before it. -/
theorem run_size (hv : v ≤ bytes.length) (hm : bytes.length < 2 ^ 64) :
    size.run (bytes ++ sizeBytes v bytes.length) = (v, bytes) := by
  have hroom := sizeWidth_add_sizeRoom bytes.length
  have hlen : (bytes ++ sizeBytes v bytes.length).length =
      bytes.length + sizeRoom bytes.length := by
    rw [List.length_append, length_sizeBytes hm]
  by_cases hnil : bytes = []
  · -- the only byte is lost, and there is one size only
    subst hnil
    obtain rfl : v = 0 := Nat.le_zero.1 hv
    rfl
  have hpos : 0 < bytes.length := List.length_pos_iff.2 hnil
  have hone : 1 ≤ sizeRoom bytes.length := (sizeRoom_bounds _).1
  show (if (bytes ++ sizeBytes v bytes.length).length ≤ 1 then (0, [])
    else _ : Nat × Bytes) = _
  rw [if_neg (by omega), hlen, hroom, Nat.add_sub_cancel, List.take_left, List.drop_left]
  have hbelow := run_below (v := v) (n := bytes.length + 1) (by omega)
    (List.replicate (sizeRoom bytes.length - width (bytes.length + 1)) 0)
  rw [sizeBytes, hbelow]

theorem length_utf8_append (t : Text) (rest : Bytes) :
    (Text.utf8 t ++ rest).length = Text.byteLen t + rest.length := by
  rw [List.length_append, Text.length_utf8]

/-- Bytes from which the text `t` is drawn, and `rest` is left. -/
def supplyText (t : Text) (rest : Bytes) : Bytes :=
  Text.utf8 t ++ rest ++ sizeBytes (Text.byteLen t) (Text.utf8 t ++ rest).length

variable {t : Text}

/-- Every text can be drawn, whatever is to be left. -/
theorem run_text (h : Text.byteLen t + rest.length < 2 ^ 64) :
    text.run (supplyText t rest) = (t, rest) := by
  have hutf8 : (Text.utf8 t).length = Text.byteLen t := Text.length_utf8 t
  have hlen := length_utf8_append t rest
  have hsize : size.run (supplyText t rest) = (Text.byteLen t, Text.utf8 t ++ rest) :=
    run_size (by omega) (by omega)
  -- the bytes of the text are at the front, and it is read to their end
  unfold text
  rw [run_bind_of_run hsize]
  show (Text.ofUtf8 ((Text.utf8 t ++ rest).take (Text.byteLen t)),
    (Text.utf8 t ++ rest).drop
      (Text.byteLen (Text.ofUtf8 ((Text.utf8 t ++ rest).take (Text.byteLen t))))) = _
  rw [List.take_left' hutf8, Text.ofUtf8_utf8, List.drop_left' hutf8]

theorem length_supplyText_le (t : Text) (rest : Bytes)
    (h : Text.byteLen t + rest.length < 2 ^ 64) :
    (supplyText t rest).length ≤ Text.byteLen t + rest.length + 8 := by
  have hlen := length_utf8_append t rest
  have hroom : sizeRoom (Text.byteLen t + rest.length) ≤ 8 := (sizeRoom_bounds _).2
  rw [supplyText, List.length_append, hlen, length_sizeBytes h]
  omega

end Draw

/-! ### Samples -/

namespace Sample

variable {k : Token} {rest : Bytes}

/-- Bytes from which the token `k` is drawn as a text of its own, and `rest` is left. -/
def supplyToken (k : Token) (rest : Bytes) : Bytes :=
  Draw.spell (Draw.width 4) 3 ++ Draw.supplyText k rest

/-- Every token can be drawn, as a text of its own. -/
theorem run_token (common : List Token) (hne : common ≠ [])
    (h : Text.byteLen k + rest.length < 2 ^ 64) :
    (token common hne).run (supplyToken k rest) = (k, rest) := by
  have hchance : (Draw.chance 3 4).run (supplyToken k rest) = (false, Draw.supplyText k rest) :=
    Draw.run_chance (by omega) 3 _
  unfold token
  rw [Draw.run_bind_of_run hchance, if_neg Bool.false_ne_true,
    Draw.run_bind_of_run (Draw.run_text h), dif_neg k.property]
  rfl

theorem length_supplyToken_le (k : Token) (rest : Bytes)
    (h : Text.byteLen k + rest.length < 2 ^ 64) :
    (supplyToken k rest).length ≤ Text.byteLen k + rest.length + 9 := by
  have htext := Draw.length_supplyText_le k rest h
  have hwidth : Draw.width 4 = 1 := by decide
  rw [supplyToken, List.length_append, Draw.length_spell, hwidth]
  omega

/-- Bytes from which a script is drawn in one piece. -/
def supplyScript (script : Text) : Bytes :=
  Draw.spell (Draw.width 65) 1 ++
    (Draw.spell (Draw.width 8) 0 ++ Draw.supplyText script [])

variable {s : Text}

/-- Every script can be drawn, as one piece. -/
theorem run_script (h : Text.byteLen s < 2 ^ 64) :
    script.run (supplyScript s) = (s, []) := by
  have hpiece : piece.run (Draw.spell (Draw.width 8) 0 ++ Draw.supplyText s []) = (s, []) := by
    unfold piece
    rw [Draw.run_bind_of_run (Draw.run_chance (by omega) 1 _), if_pos (by decide)]
    exact Draw.run_text h
  unfold script
  rw [supplyScript, Draw.run_bind_of_run (Draw.run_below (by omega) _), textOf,
    Draw.run_bind_of_run hpiece]
  show (s ++ [], []) = (s, [])
  rw [List.append_nil]

theorem length_supplyScript_le (s : Text) (h : Text.byteLen s < 2 ^ 64) :
    (supplyScript s).length ≤ Text.byteLen s + 10 := by
  have htext := Draw.length_supplyText_le s [] h
  have hwidth : Draw.width 65 = 1 ∧ Draw.width 8 = 1 := by decide
  rw [supplyScript, List.length_append, List.length_append, Draw.length_spell, Draw.length_spell,
    hwidth.1, hwidth.2]
  rw [List.length_nil] at htext
  omega

/-- Bytes from which a configuration and a script are drawn. -/
def supply (d : Delimiters) (s : Text) : Bytes :=
  supplyToken d.separator <| supplyToken d.lineComment <| supplyToken d.blockOpen <|
    supplyToken d.blockClose <| supplyScript s

/-- **Every sample can be drawn**: for every configuration and every script of at most 60000 bytes
together there are bytes that give them, and no byte is left. -/
theorem exists_run_both_eq (d : Delimiters) (s : Text)
    (h : Text.byteLen d.separator + Text.byteLen d.lineComment + Text.byteLen d.blockOpen +
      Text.byteLen d.blockClose + Text.byteLen s ≤ 60000) :
    ∃ bytes : Bytes, both.run bytes = ((d, s), []) := by
  -- the bytes of each draw stand around those of all later ones
  have hscript := length_supplyScript_le s (by omega)
  have hclose := length_supplyToken_le d.blockClose (supplyScript s) (by omega)
  have hopen := length_supplyToken_le d.blockOpen
    (supplyToken d.blockClose (supplyScript s)) (by omega)
  have hline := length_supplyToken_le d.lineComment
    (supplyToken d.blockOpen (supplyToken d.blockClose (supplyScript s))) (by omega)
  refine ⟨supply d s, ?_⟩
  have hd : delimiters.run (supply d s) = (d, supplyScript s) := by
    unfold delimiters supply
    rw [Draw.run_bind_of_run (run_token separators _ (by omega)),
      Draw.run_bind_of_run (run_token lineComments _ (by omega)),
      Draw.run_bind_of_run (run_token blockOpens _ (by omega)),
      Draw.run_bind_of_run (run_token blockCloses _ (by omega))]
    rfl
  unfold both
  rw [Draw.run_bind_of_run hd, Draw.run_bind_of_run (run_script (by omega))]
  rfl

/-- None of the tokens is in use, and the size of the script takes more than one byte. -/
theorem exists_run_both_eq_of_long :
    ∃ bytes : Bytes, both.run bytes =
      ((⟨Token.cons '\x22' ['é'], Token.cons '\\' [], Token.cons ' ' ['\n'],
        Token.cons '😀' []⟩, List.replicate 300 '§'), []) :=
  exists_run_both_eq _ _ (by decide +kernel)

end Sample

end SqlScript

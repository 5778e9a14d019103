/-!
# Texts

A text is the list of its characters. Lengths and offsets count the bytes that the characters take
in UTF-8 (`Text.byteLen`).

Two searches carry the scan. `Text.after?` looks for a text at the start of another one
(`after?_eq_some_iff`), and `Text.cutAt?` cuts a text at the first place where another one stands
(`cutAt?_eq_some_iff`, `cutAt?_eq_none_iff`).
-/

namespace SqlScript

/-- A text: its characters in order. -/
abbrev Text := List Char

namespace Text

/-! ### Bytes -/

/-- The number of bytes that `t` takes in UTF-8. -/
def byteLen (t : Text) : Nat := t.foldr (fun c n => c.utf8Size + n) 0

@[simp] theorem byteLen_nil : byteLen [] = 0 := rfl

@[simp] theorem byteLen_cons (c : Char) (t : Text) :
    byteLen (c :: t) = c.utf8Size + byteLen t := rfl

@[simp] theorem byteLen_append (s t : Text) : byteLen (s ++ t) = byteLen s + byteLen t := by
  induction s with
  | nil => simp
  | cons c s ih => rw [List.cons_append, byteLen_cons, byteLen_cons, ih, Nat.add_assoc]

theorem byteLen_pos {t : Text} (h : t ≠ []) : 0 < byteLen t := by
  obtain ⟨c, t, rfl⟩ := List.exists_cons_of_ne_nil h
  exact Nat.add_pos_left c.utf8Size_pos _

/-- What stands from byte `n` of the text on, if a character starts there or the text ends
there. -/
def fromByte? : Nat → Text → Option Text
  | 0, t => some t
  | _ + 1, [] => none
  | n + 1, c :: t => if c.utf8Size ≤ n + 1 then fromByte? (n + 1 - c.utf8Size) t else none

/-- The offsets at which a text can be entered are the lengths of what stands before. -/
theorem fromByte?_byteLen_append (s t : Text) : fromByte? (byteLen s) (s ++ t) = some t := by
  induction s with
  | nil => simp [fromByte?]
  | cons c s ih =>
    obtain ⟨n, hn⟩ : ∃ n, byteLen (c :: s) = n + 1 :=
      ⟨byteLen (c :: s) - 1, by have := c.utf8Size_pos; rw [byteLen_cons]; omega⟩
    rw [hn, List.cons_append, fromByte?]
    rw [byteLen_cons] at hn
    rw [if_pos (by omega), show n + 1 - c.utf8Size = byteLen s by omega, ih]

/-- From byte `n` on stands what follows `n` bytes of text. -/
theorem fromByte?_eq_some_iff {n : Nat} {t r : Text} :
    fromByte? n t = some r ↔ ∃ s, t = s ++ r ∧ byteLen s = n := by
  constructor
  · intro h
    fun_induction fromByte? n t with
    | case1 t => exact ⟨[], Option.some.inj h, rfl⟩
    | case2 => cases h
    | case3 n c t hle ih =>
      obtain ⟨s, rfl, hs⟩ := ih h
      refine ⟨c :: s, rfl, ?_⟩
      rw [byteLen_cons]
      omega
    | case4 => cases h
  · rintro ⟨s, rfl, rfl⟩
    exact fromByte?_byteLen_append s r

/-! ### Searches -/

/-- What follows `u` in a text that starts with it. -/
def after? : Text → Text → Option Text
  | [], t => some t
  | _ :: _, [] => none
  | a :: u, b :: t => if a = b then after? u t else none

/-- The search at the start of a text finds what stands there, and gives what follows. -/
theorem after?_eq_some_iff {u t r : Text} : after? u t = some r ↔ t = u ++ r := by
  fun_induction after? u t <;> simp_all [eq_comm]

theorem after?_append (u r : Text) : after? u (u ++ r) = some r :=
  after?_eq_some_iff.2 rfl

/-- It finds nothing exactly if the text starts with something else. -/
theorem after?_eq_none_iff {u t : Text} : after? u t = none ↔ ¬ u <+: t := by
  rw [Option.eq_none_iff_forall_ne_some]
  exact ⟨fun h ⟨r, hr⟩ => h r (after?_eq_some_iff.2 hr.symm),
    fun h r hr => h ⟨r, (after?_eq_some_iff.1 hr).symm⟩⟩

/-- What follows the token `u` in a text that starts with it. An empty token is never found. -/
def afterToken? (u t : Text) : Option Text := if u = [] then none else after? u t

@[simp] theorem afterToken?_nil (t : Text) : afterToken? [] t = none := rfl

/-- An empty token is not found, and any other one as a text. -/
theorem afterToken?_eq_some_iff {u t r : Text} :
    afterToken? u t = some r ↔ u ≠ [] ∧ t = u ++ r := by
  unfold afterToken?
  split <;> simp_all [after?_eq_some_iff]

/-- Whether the token `u` stands at the start of `t`. An empty token stands nowhere. -/
def Starts (u t : Text) : Prop := u ≠ [] ∧ u <+: t

theorem Starts.append {u t : Text} (h : u.Starts t) (r : Text) : u.Starts (t ++ r) :=
  ⟨h.1, h.2.trans (List.prefix_append t r)⟩

theorem isSome_afterToken?_iff {u t : Text} : (afterToken? u t).isSome = true ↔ u.Starts t := by
  rw [Option.isSome_iff_exists]
  constructor
  · rintro ⟨r, hr⟩
    obtain ⟨hu, rfl⟩ := afterToken?_eq_some_iff.1 hr
    exact ⟨hu, List.prefix_append u r⟩
  · rintro ⟨hu, r, rfl⟩
    exact ⟨r, afterToken?_eq_some_iff.2 ⟨hu, rfl⟩⟩

theorem afterToken?_eq_none_iff {u t : Text} : afterToken? u t = none ↔ ¬ u.Starts t := by
  rw [← isSome_afterToken?_iff, Option.not_isSome_iff_eq_none]

/-- Cuts a text at the first place where `u` stands: what stands before it, and what follows. -/
def cutAt? (u : Text) : Text → Option (Text × Text)
  | [] => if u = [] then some ([], []) else none
  | c :: t =>
    match after? u (c :: t) with
    | some r => some ([], r)
    | none => (cutAt? u t).map fun (before, r) => (c :: before, r)

/-- Whether `u` stands somewhere in `t`. -/
def occursIn (u t : Text) : Bool := (cutAt? u t).isSome

/-- A cut loses nothing but the text that was looked for. -/
theorem eq_of_cutAt? {u t before r : Text} (h : cutAt? u t = some (before, r)) :
    t = before ++ (u ++ r) := by
  fun_induction cutAt? u t generalizing before r with
  | case1 => simp_all
  | case2 => simp at h
  | case3 c t r' hr =>
    simp only [Option.some.injEq, Prod.mk.injEq] at h
    obtain ⟨rfl, rfl⟩ := h
    simpa using after?_eq_some_iff.1 hr
  | case4 c t hn ih =>
    obtain ⟨⟨b, q⟩, hb, heq⟩ := Option.map_eq_some_iff.1 h
    simp only [Prod.mk.injEq] at heq
    obtain ⟨rfl, rfl⟩ := heq
    simp [ih hb]

/-- A text that cannot be cut holds `u` nowhere. -/
theorem cutAt?_eq_none_iff {u t : Text} : cutAt? u t = none ↔ ¬ u <:+: t := by
  fun_induction cutAt? u t with
  | case1 => simp_all
  | case2 => simp_all
  | case3 c t r hr =>
    simpa using ⟨[], r, by simpa using (after?_eq_some_iff.1 hr).symm⟩
  | case4 c t hn ih =>
    rw [Option.map_eq_none_iff, ih, List.infix_cons_iff]
    exact ⟨fun h => not_or.2 ⟨after?_eq_none_iff.1 hn, h⟩, fun h => (not_or.1 h).2⟩

/-- The cut is at the first place. -/
theorem length_le_of_cutAt? {u t before r : Text} (h : cutAt? u t = some (before, r))
    {before' r' : Text} (h' : t = before' ++ (u ++ r')) : before.length ≤ before'.length := by
  fun_induction cutAt? u t generalizing before r before' r' with
  | case1 =>
    simp only [Option.some.injEq, Prod.mk.injEq] at h
    simp [← h.1]
  | case2 => simp at h
  | case3 c t r'' hr =>
    simp only [Option.some.injEq, Prod.mk.injEq] at h
    simp [← h.1]
  | case4 c t hn ih =>
    obtain ⟨⟨b, q⟩, hb, heq⟩ := Option.map_eq_some_iff.1 h
    simp only [Prod.mk.injEq] at heq
    obtain ⟨rfl, rfl⟩ := heq
    -- an earlier place is not the start, where the search finds nothing
    cases before' with
    | nil => exact absurd ⟨r', h'.symm⟩ (after?_eq_none_iff.1 hn)
    | cons c' b' =>
      simp only [List.cons_append, List.cons.injEq] at h'
      simpa using ih hb h'.2

/-- A cut is the first place where the text that was looked for stands. -/
theorem cutAt?_eq_some_iff {u t before r : Text} :
    cutAt? u t = some (before, r) ↔
      t = before ++ (u ++ r) ∧
        ∀ before' r', t = before' ++ (u ++ r') → before.length ≤ before'.length := by
  constructor
  · intro h
    exact ⟨eq_of_cutAt? h, fun before' r' h' => length_le_of_cutAt? h h'⟩
  · rintro ⟨ht, hmin⟩
    cases hc : cutAt? u t with
    | none => exact absurd ⟨before, r, by simp [ht]⟩ (cutAt?_eq_none_iff.1 hc)
    | some p =>
      obtain ⟨b, q⟩ := p
      have hb := eq_of_cutAt? hc
      have hlen : b.length = before.length :=
        Nat.le_antisymm (length_le_of_cutAt? hc ht) (hmin b q hb)
      obtain ⟨rfl, hrest⟩ := List.append_inj (hb.symm.trans ht) hlen
      rw [List.append_cancel_left hrest]

/-- The search in a text finds what stands somewhere in it. -/
theorem occursIn_iff {u t : Text} : occursIn u t = true ↔ u <:+: t := by
  rw [occursIn, Option.isSome_iff_ne_none, ne_eq, cutAt?_eq_none_iff, Decidable.not_not]

end Text

end SqlScript

import SqlScript.Delimiters
import SqlScript.Json.Value
import SqlScript.Text.Shown

/-!
# Delimiters as settings

Delimiters are kept as a JSON object with one member for each role (`Delimiters.toJson`).
`Delimiters.ofJson` reads such an object, with its members in any order and others among them, or
an array of up to four texts in the order of the roles. A role that is not given has its usual
token. Reading goes from left to right and stops at the first error: the text is not JSON
(`ReadError.malformed`), or it is, and something else is wrong with it.
-/

namespace SqlScript

/-- The key of a role. -/
def Role.key : Role → Text
  | separator => "separator".toList
  | lineComment => "comment_prefix".toList
  | blockOpen => "block_comment_start".toList
  | blockClose => "block_comment_end".toList

/-- The role of a key. -/
def Role.ofKey? (key : Text) : Option Role := Role.all.find? fun r => r.key == key

/-! ### Errors -/

/-- A value that was found where another one was expected. -/
inductive Found where
  /-- A word. -/
  | word (w : Json.Word)
  /-- A number. -/
  | number (n : Json.Number)
  /-- A text. -/
  | text (t : Text)
  /-- An array. -/
  | array
  /-- An object. -/
  | object
deriving DecidableEq, Repr

/-- The value in words. -/
def Found.describe : Found → String
  | word .null => "null"
  | word .true => "boolean `true`"
  | word .false => "boolean `false`"
  | number (.integer n) => "integer `" ++ toString n ++ "`"
  | number (.floating negative x) =>
    "floating point `" ++ String.ofList (x.toText negative) ++ "`"
  | text t => "string " ++ String.ofList (Text.shown t)
  | array => "sequence"
  | object => "map"

/-- What is expected at a place. -/
inductive Expected where
  /-- A text for a role. -/
  | token
  /-- An object or an array. -/
  | settings
deriving DecidableEq, Repr

/-- What is expected, in words. -/
def Expected.describe : Expected → String
  | token => "a string"
  | settings => "struct RawDelimiters"

/-- Why settings cannot be read. -/
inductive ReadError where
  /-- The text is not JSON. -/
  | malformed
  /-- A value is of another kind than expected. -/
  | unexpected (found : Found) (expected : Expected)
  /-- A role is given twice. -/
  | duplicate (role : Role)
  /-- The tokens are no configuration. -/
  | refused (e : DelimiterError)
deriving DecidableEq, Repr

/-- The error in words. Of a text that is not JSON there is nothing to say. -/
def ReadError.message? : ReadError → Option String
  | malformed => none
  | unexpected found expected =>
    some ("invalid type: " ++ found.describe ++ ", expected " ++ expected.describe)
  | duplicate role => some ("duplicate field `" ++ String.ofList role.key ++ "`")
  | refused e => some e.message

namespace Settings

/-- The texts that are given, with their roles. -/
abbrev Given := List (Role × Text)

/-- The tokens that are given, and the usual ones for all other roles. -/
def Given.complete (given : Given) : Tokens :=
  .ofFn fun r => (given.lookup r).getD (Delimiters.standard.tokens.get r)

/-! ### Reading -/

/-- What starts a text that has no blanks at its start. Of arrays and objects only the bracket is
looked at. -/
def readFound (t : Text) : Option Found :=
  match t with
  | [] => none
  | c :: r =>
    match Json.Bracket.opened? c with
    | some .array => some .array
    | some .object => some .object
    | none =>
      if c = Json.mark then (Json.readBody r).map fun (s, _) => .text s
      else if c = '-' ∨ c.isDigit then (Json.readNumber t).map fun (n, _) => .number n
      else (Json.readWord t).map fun (w, _) => .word w

/-- The error of a text that starts with something else than `expected`. -/
def unexpected (expected : Expected) (t : Text) : ReadError :=
  match readFound t with
  | some found => .unexpected found expected
  | none => .malformed

/-- What follows a quotation mark. -/
def dropMark (t : Text) : Option Text := Text.after? [Json.mark] t

/-- Reads the text for a role. -/
def readToken (t : Text) : Except ReadError (Text × Text) :=
  match dropMark (Json.dropSpace t) with
  | none => .error (unexpected .token (Json.dropSpace t))
  | some r =>
    match Json.readBody r with
    | none => .error .malformed
    | some p => .ok p

/-- Reads a member of an object, and adds what it gives. -/
def readMember (given : Given) (t : Text) : Except ReadError (Given × Text) :=
  match dropMark (Json.dropSpace t) with
  | none => .error .malformed
  | some r =>
    match Json.readBody r with
    | none => .error .malformed
    | some (key, r) =>
      match Role.ofKey? key with
      | none =>
        match (Json.skipColon r).bind Json.skipValue with
        | none => .error .malformed
        | some r => .ok (given, r)
      | some role =>
        if (given.lookup role).isSome then .error (.duplicate role)
        else
          match Json.skipColon r with
          | none => .error .malformed
          | some r =>
            match readToken r with
            | .error e => .error e
            | .ok (value, r) => .ok ((role, value) :: given, r)

theorem length_lt_of_dropMark {t r : Text} (h : dropMark t = some r) :
    r.length < t.length := by
  rw [dropMark, Text.after?_eq_some_iff] at h
  simp [h]

/-- A text for a role takes at least its two marks. -/
theorem length_lt_of_readToken {t s r : Text} (h : readToken t = .ok (s, r)) :
    r.length < t.length := by
  unfold readToken at h
  split at h
  · simp at h
  · next u hu =>
    split at h
    · simp at h
    · next p hp =>
      simp only [Except.ok.injEq] at h
      subst h
      exact Nat.lt_of_lt_of_le
        (Nat.lt_trans (Json.length_lt_of_readBody hp) (length_lt_of_dropMark hu))
        (Json.length_dropSpace_le t)

/-- A member takes its key and its value. -/
theorem length_lt_of_readMember {given given' : Given} {t r : Text}
    (h : readMember given t = .ok (given', r)) : r.length < t.length := by
  unfold readMember at h
  split at h
  · simp at h
  next u hu =>
  split at h
  · simp at h
  next key v hv =>
  have hlt := Nat.lt_of_lt_of_le
    (Nat.lt_trans (Json.length_lt_of_readBody hv) (length_lt_of_dropMark hu))
    (Json.length_dropSpace_le t)
  -- the value of any other key is passed over, and that of a role is read
  split at h
  · split at h
    · simp at h
    · next w hw =>
      obtain ⟨x, hx, hs⟩ := Option.bind_eq_some_iff.1 hw
      simp only [Except.ok.injEq, Prod.mk.injEq] at h
      rw [← h.2]
      exact Nat.lt_of_le_of_lt (Json.length_le_of_skipOpen hs)
        (Nat.lt_trans (Json.length_lt_of_skipColon hx) hlt)
  · split at h
    · simp at h
    split at h
    · simp at h
    next x hx =>
    split at h
    · simp at h
    next value y hy =>
    simp only [Except.ok.injEq, Prod.mk.injEq] at h
    rw [← h.2]
    exact Nat.lt_trans (length_lt_of_readToken hy)
      (Nat.lt_trans (Json.length_lt_of_skipColon hx) hlt)

/-- Reads the members of an object, of which there is at least one, and the closing bracket. -/
def readMembers (given : Given) (t : Text) : Except ReadError (Given × Text) :=
  match _hm : readMember given t with
  | .error e => .error e
  | .ok (given, r) =>
    match _hr : Json.dropSpace r with
    | [] => .error .malformed
    | c :: u =>
      if c = Json.Bracket.object.closing then .ok (given, u)
      else if c = ',' then readMembers given u
      else .error .malformed
termination_by t.length
decreasing_by
  exact Nat.lt_trans (Json.length_lt_of_dropSpace _hr) (length_lt_of_readMember _hm)

/-- Members are a member and, after a comma, members. -/
theorem readMembers_eq (given : Given) (t : Text) :
    readMembers given t =
      match readMember given t with
      | .error e => .error e
      | .ok (given, r) =>
        match Json.dropSpace r with
        | [] => .error .malformed
        | c :: u =>
          if c = Json.Bracket.object.closing then .ok (given, u)
          else if c = ',' then readMembers given u
          else .error .malformed := by
  rw [readMembers]
  split
  · simp only [*]
  · next given' r h =>
    simp only [h]
    split <;> simp only [*]

/-- Reads what follows the opening bracket of an object. -/
def readObject (t : Text) : Except ReadError (Given × Text) :=
  match Text.after? [Json.Bracket.object.closing] (Json.dropSpace t) with
  | some r => .ok ([], r)
  | none => readMembers [] t

/-- Reads the elements of an array, of which there is at least one, for these roles, and the
closing bracket. -/
def readItems : List Role → Text → Except ReadError (Given × Text)
  | [], _ => .error .malformed
  | role :: roles, t =>
    match readToken t with
    | .error e => .error e
    | .ok (value, r) =>
      match Json.dropSpace r with
      | [] => .error .malformed
      | c :: u =>
        if c = Json.Bracket.array.closing then .ok ([(role, value)], u)
        else if c = ',' then
          match readItems roles u with
          | .error e => .error e
          | .ok (given, r) => .ok ((role, value) :: given, r)
        else .error .malformed

/-- Reads what follows the opening bracket of an array. -/
def readArray (t : Text) : Except ReadError (Given × Text) :=
  match Text.after? [Json.Bracket.array.closing] (Json.dropSpace t) with
  | some r => .ok ([], r)
  | none => readItems Role.all t

/-- Reads the texts that are given. -/
def read (t : Text) : Except ReadError (Given × Text) :=
  match Json.dropSpace t with
  | [] => .error .malformed
  | c :: r =>
    match Json.Bracket.opened? c with
    | some .array => readArray r
    | some .object => readObject r
    | none => .error (unexpected .settings (c :: r))

end Settings

namespace Delimiters

/-- The delimiters that settings give. Nothing but blanks may follow the settings. -/
def ofJson (t : Text) : Except ReadError Delimiters :=
  match Settings.read t with
  | .error e => .error e
  | .ok (given, r) =>
    match ofTokens given.complete with
    | .error e => .error (.refused e)
    | .ok d => if Json.dropSpace r = [] then .ok d else .error .malformed

/-- The settings that give the delimiters. -/
def toJson (d : Delimiters) : Text :=
  '\x7b' :: (List.intercalate [','] (Role.all.map fun r =>
    Json.encode r.key ++ ':' :: Json.encode (d.tokens.get r)) ++ ['\x7d'])

end Delimiters

end SqlScript

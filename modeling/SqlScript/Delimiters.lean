import SqlScript.Tokens

/-!
# Delimiters

A `Delimiters` is a configuration in which no token is empty. It is built from any four texts by
`ofTokens`, which refuses the first empty one in the order of the roles
(`ofTokens_eq_ok_iff`, `ofTokens_eq_error_iff`), and changed one role at a time; the two tokens
of block comments are changed together.
-/

namespace SqlScript

/-- A text that is not empty, so that it can stand somewhere. -/
abbrev Token := { t : Text // t ≠ [] }

/-- The token of a first character and others. -/
def Token.cons (c : Char) (t : Text) : Token := ⟨c :: t, List.cons_ne_nil c t⟩

/-- Why a configuration is refused. -/
inductive DelimiterError where
  /-- The token in this role is empty. -/
  | empty (role : Role)
deriving DecidableEq, Repr

/-- The refusal in words. -/
def DelimiterError.message : DelimiterError → String
  | empty role => "The " ++ role.title ++ " must not be empty"

/-- The text as a token for a role. -/
def Token.ofText (role : Role) (t : Text) : Except DelimiterError Token :=
  if h : t = [] then .error (.empty role) else .ok ⟨t, h⟩

@[simp] theorem Token.ofText_nil (role : Role) : ofText role [] = .error (.empty role) := rfl

@[simp] theorem Token.ofText_val (role : Role) (k : Token) : ofText role k.val = .ok k := by
  simp [ofText, k.property]

/-- A text is accepted as it was given. -/
theorem Token.ofText_eq_ok_iff {role : Role} {t : Text} {k : Token} :
    ofText role t = .ok k ↔ k.val = t := by
  constructor
  · intro h
    by_cases ht : t = []
    · simp [ofText, ht] at h
    · simp only [ofText, ht, ↓reduceDIte, Except.ok.injEq] at h
      exact h ▸ rfl
  · rintro rfl
    exact ofText_val role k

/-- Four tokens, none of them empty. They may overlap: the separator is then found before a line
comment, and a line comment before a block comment. -/
structure Delimiters where
  /-- Ends a statement. -/
  separator : Token
  /-- Starts a line comment. -/
  lineComment : Token
  /-- Starts a block comment. -/
  blockOpen : Token
  /-- Ends a block comment. -/
  blockClose : Token
deriving DecidableEq, Repr

namespace Delimiters

/-- The texts of the four tokens. -/
def tokens (d : Delimiters) : Tokens :=
  ⟨d.separator, d.lineComment, d.blockOpen, d.blockClose⟩

/-- The usual tokens of SQL: a semicolon, two dashes, a slash and a star, a star and a slash. -/
def standard : Delimiters where
  separator := Token.cons ';' []
  lineComment := Token.cons '-' ['-']
  blockOpen := Token.cons '/' ['*']
  blockClose := Token.cons '*' ['/']

instance : Inhabited Delimiters := ⟨standard⟩

/-- The configuration with these tokens, checked in the order of their roles. -/
def ofTokens (k : Tokens) : Except DelimiterError Delimiters := do
  let separator ← Token.ofText .separator k.separator
  let lineComment ← Token.ofText .lineComment k.lineComment
  let blockOpen ← Token.ofText .blockOpen k.blockOpen
  let blockClose ← Token.ofText .blockClose k.blockClose
  return { separator, lineComment, blockOpen, blockClose }

/-- The configuration with another separator. -/
def withSeparator (d : Delimiters) (t : Text) : Except DelimiterError Delimiters := do
  let separator ← Token.ofText .separator t
  return { d with separator }

/-- The configuration with another start of line comments. -/
def withLineComment (d : Delimiters) (t : Text) : Except DelimiterError Delimiters := do
  let lineComment ← Token.ofText .lineComment t
  return { d with lineComment }

/-- The configuration with other block comments. -/
def withBlockComment (d : Delimiters) (start stop : Text) :
    Except DelimiterError Delimiters := do
  let blockOpen ← Token.ofText .blockOpen start
  let blockClose ← Token.ofText .blockClose stop
  return { d with blockOpen, blockClose }

/-! ### What is accepted -/

/-- No token of a configuration is empty. -/
theorem get_tokens_ne_nil (d : Delimiters) (r : Role) : d.tokens.get r ≠ [] := by
  cases r
  · exact d.separator.property
  · exact d.lineComment.property
  · exact d.blockOpen.property
  · exact d.blockClose.property

/-- A configuration is accepted as it was given. -/
theorem ofTokens_eq_ok_iff {k : Tokens} {d : Delimiters} : ofTokens k = .ok d ↔ d.tokens = k := by
  constructor
  · intro h
    obtain ⟨a, b, c, e⟩ := k
    -- all four texts are accepted, since the first that is not ends the checks
    unfold ofTokens at h
    cases ha : Token.ofText .separator a with
    | error x => simp [ha, bind, Except.bind] at h
    | ok a' =>
      cases hb : Token.ofText .lineComment b with
      | error x => simp [ha, hb, bind, Except.bind] at h
      | ok b' =>
        cases hc : Token.ofText .blockOpen c with
        | error x => simp [ha, hb, hc, bind, Except.bind] at h
        | ok c' =>
          cases he : Token.ofText .blockClose e with
          | error x => simp [ha, hb, hc, he, bind, Except.bind] at h
          | ok e' =>
            simp only [ha, hb, hc, he, bind, Except.bind, pure, Except.pure,
              Except.ok.injEq] at h
            subst h
            simp [tokens, Token.ofText_eq_ok_iff.1 ha, Token.ofText_eq_ok_iff.1 hb,
              Token.ofText_eq_ok_iff.1 hc, Token.ofText_eq_ok_iff.1 he]
  · rintro rfl
    simp [ofTokens, tokens, bind, Except.bind, pure, Except.pure]

/-- A configuration is refused for the first role whose token is empty. -/
theorem ofTokens_eq_error_iff {k : Tokens} {e : DelimiterError} :
    ofTokens k = .error e ↔
      (Role.all.find? fun r => k.get r = []).map DelimiterError.empty = some e := by
  obtain ⟨a, b, c, d⟩ := k
  by_cases ha : a = [] <;> by_cases hb : b = [] <;> by_cases hc : c = [] <;>
    by_cases hd : d = [] <;>
    simp [ofTokens, Token.ofText, Role.all, Tokens.get, ha, hb, hc, hd, bind, Except.bind, pure,
      Except.pure]

end Delimiters

end SqlScript

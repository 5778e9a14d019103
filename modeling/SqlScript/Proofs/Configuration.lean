import SqlScript.Change
import SqlScript.Sample.Script

/-!
# No configuration has an empty token

A configuration is set up by changes of texts that may be empty, and it is drawn from bytes that
may spell nothing. `Delimiters` promises that none of its tokens is empty; here the same is done
with `Tokens`, which promise nothing. `Tokens.change` stores texts first and looks at all four
afterwards, and `Sample.plainTokens` takes a usual token only where the bytes gave no text.
`Delimiters.configuration_laws` says that both come to the same, so that the promise is kept on
every way to a configuration, and what each single change does (`Delimiters.Obeys`):

* it fails exactly if it would store an empty text or its settings cannot be read,
* the error about an empty token names the first such role among those that are stored,
* it sets the roles it is about and no others, so that every role holds the last text that was
  stored in it (`Delimiters.get_afterChanges`).

That only the stored texts count, although all four are looked at, is because no token was empty
before (`find?_update`).
-/

namespace SqlScript

/-! ### Plain tokens -/

namespace Tokens

/-- The tokens with other texts in the roles that `f` names. -/
def update (k : Tokens) (f : Role → Option Text) : Tokens := .ofFn fun r => (f r).getD (k.get r)

/-- The tokens, unless one of them is empty. All roles are looked at in their order. -/
def checked (k : Tokens) : Except DelimiterError Tokens :=
  match Role.all.find? fun r => k.get r = [] with
  | some r => .error (.empty r)
  | none => .ok k

@[simp] theorem get_update (k : Tokens) (f : Role → Option Text) (r : Role) :
    (k.update f).get r = (f r).getD (k.get r) :=
  get_ofFn _ r

@[simp] theorem update_some (k : Tokens) (f : Role → Text) :
    (k.update fun r => some (f r)) = .ofFn f :=
  rfl

end Tokens

/-- The text that a change would store in a role, if it would store one there. -/
def Change.stored (c : Change) (r : Role) : Option Text :=
  match c with
  | .standard => some (Delimiters.standard.tokens.get r)
  | .tokens k => some (k.get r)
  | .separator t => if r = .separator then some t else none
  | .lineComment t => if r = .lineComment then some t else none
  | .blockComment start stop =>
    if r = .blockOpen then some start else if r = .blockClose then some stop else none
  | .settings json =>
    match Settings.read json with
    | .error _ => none
    | .ok (given, _) => some (given.complete.get r)

/-- The first role in which a change would store an empty text. -/
def Change.firstEmpty? (c : Change) : Option Role :=
  Role.all.find? fun r => c.stored r = some []

/-- A change has settings that are malformed or of the wrong type. -/
inductive Change.Unreadable : Change → Prop
  /-- The text is not JSON. -/
  | malformed {json : Text} (h : Settings.read json = .error .malformed) :
      Unreadable (.settings json)
  /-- Something else than settings, or than a text for a role, is found. -/
  | unexpected {json : Text} {found : Found} {expected : Expected}
      (h : Settings.read json = .error (.unexpected found expected)) :
      Unreadable (.settings json)
  /-- A role is given twice. -/
  | duplicate {json : Text} {r : Role} (h : Settings.read json = .error (.duplicate r)) :
      Unreadable (.settings json)
  /-- The settings are not all there is. -/
  | followed {json rest : Text} {given : Settings.Given}
      (h : Settings.read json = .ok (given, rest)) (hrest : Json.dropSpace rest ≠ []) :
      Unreadable (.settings json)

/-- The role whose token would be empty, if that is the error. -/
def ReadError.role? : ReadError → Option Role
  | refused (.empty r) => some r
  | malformed | unexpected _ _ | duplicate _ => none

/-- The role whose token would be empty, if that is the error. -/
def ChangeError.role? : ChangeError → Option Role
  | refused (.empty r) => some r
  | unreadable e => e.role?

namespace Tokens

/-- A change of plain tokens. Texts are stored first, and then all tokens are checked. -/
def change (k : Tokens) (c : Change) : Except ChangeError Tokens :=
  match c with
  | .standard => .ok Delimiters.standard.tokens
  | .settings json =>
    match Settings.read json with
    | .error e => .error (.unreadable e)
    | .ok (given, rest) =>
      match given.complete.checked with
      | .error e => .error (.unreadable (.refused e))
      | .ok k => if Json.dropSpace rest = [] then .ok k else .error (.unreadable .malformed)
  | .tokens _ | .separator _ | .lineComment _ | .blockComment _ _ =>
    (k.update c.stored).checked.mapError .refused

/-- The plain tokens after a change, or the old ones if the change is refused. -/
def changedOrKept (k : Tokens) (c : Change) : Tokens :=
  match k.change c with
  | .ok k => k
  | .error _ => k

/-- The plain tokens after changes. -/
def afterChanges (k : Tokens) (cs : List Change) : Tokens := cs.foldl changedOrKept k

end Tokens

/-! ### Storing first and checking all -/

section Checked

variable {k : Tokens}

/-- Where no token was empty, only a text that is stored can be. -/
theorem find?_update (d : Delimiters) (c : Change) :
    Role.all.find? (fun r => (d.tokens.update c.stored).get r = []) = c.firstEmpty? := by
  unfold Change.firstEmpty?
  congr 1
  funext r
  rw [Tokens.get_update]
  cases c.stored r with
  | none => simpa using d.get_tokens_ne_nil r
  | some t => simp

/-- Checking all tokens after an update finds the first empty text among those that were stored. -/
theorem checked_update (d : Delimiters) (c : Change) :
    (d.tokens.update c.stored).checked =
      match c.firstEmpty? with
      | some r => .error (.empty r)
      | none => .ok (d.tokens.update c.stored) := by
  rw [Tokens.checked, find?_update]

theorem find?_tokens (d : Delimiters) : Role.all.find? (fun r => d.tokens.get r = []) = none := by
  rw [List.find?_eq_none]
  intro r _
  simpa using d.get_tokens_ne_nil r

/-- Building a configuration and checking plain tokens accept and refuse the same texts, with the
same error. -/
theorem map_tokens_ofTokens (k : Tokens) :
    (Delimiters.ofTokens k).map Delimiters.tokens = k.checked := by
  unfold Tokens.checked
  cases h : Delimiters.ofTokens k with
  | error e =>
    obtain ⟨r, hr, rfl⟩ := Option.map_eq_some_iff.1 (Delimiters.ofTokens_eq_error_iff.1 h)
    rw [hr]
    rfl
  | ok d =>
    obtain rfl := Delimiters.ofTokens_eq_ok_iff.1 h
    rw [find?_tokens]
    rfl

theorem map_tokens_mapError (x : Except DelimiterError Delimiters) :
    (x.mapError ChangeError.refused).map Delimiters.tokens =
      (x.map Delimiters.tokens).mapError ChangeError.refused := by
  cases x <;> rfl

/-- Settings become a configuration exactly if they become checked tokens. -/
theorem map_tokens_ofJson (json : Text) :
    ((Delimiters.ofJson json).mapError ChangeError.unreadable).map Delimiters.tokens =
      k.change (.settings json) := by
  simp only [Delimiters.ofJson, Tokens.change]
  cases Settings.read json with
  | error e => rfl
  | ok p =>
    obtain ⟨given, rest⟩ := p
    simp only [← map_tokens_ofTokens]
    cases Delimiters.ofTokens given.complete with
    | error e => rfl
    | ok d =>
      by_cases hrest : Json.dropSpace rest = []
      · simp only [hrest, ↓reduceIte]
        rfl
      · simp only [hrest, ↓reduceIte]
        rfl

/-- A change of a configuration is the change of its tokens. -/
theorem map_tokens_change (d : Delimiters) (c : Change) :
    (d.change c).map Delimiters.tokens = d.tokens.change c := by
  cases c with
  | standard => rfl
  | tokens k =>
    show ((Delimiters.ofTokens k).mapError _).map _ = k.checked.mapError _
    rw [map_tokens_mapError, map_tokens_ofTokens]
  -- the tokens that stay are not empty, so that only the stored ones are to be compared
  | separator t =>
    show _ = (d.tokens.update (Change.separator t).stored).checked.mapError _
    rw [checked_update]
    cases t <;> rfl
  | lineComment t =>
    show _ = (d.tokens.update (Change.lineComment t).stored).checked.mapError _
    rw [checked_update]
    cases t <;> rfl
  | blockComment start stop =>
    show _ = (d.tokens.update (Change.blockComment start stop).stored).checked.mapError _
    rw [checked_update]
    cases start <;> cases stop <;> rfl
  | settings json => exact map_tokens_ofJson json

/-- A refused change is refused for the plain tokens as well. -/
theorem tokens_changedOrKept (d : Delimiters) (c : Change) :
    (d.changedOrKept c).tokens = d.tokens.changedOrKept c := by
  rw [Delimiters.changedOrKept, Tokens.changedOrKept, ← map_tokens_change]
  cases d.change c <;> rfl

/-- After any changes a configuration has the tokens that plain tokens would have. -/
theorem tokens_afterChanges (d : Delimiters) (cs : List Change) :
    (d.afterChanges cs).tokens = d.tokens.afterChanges cs := by
  induction cs generalizing d with
  | nil => rfl
  | cons c cs ih =>
    show ((d.changedOrKept c).afterChanges cs).tokens = (d.tokens.changedOrKept c).afterChanges cs
    rw [ih, tokens_changedOrKept]

end Checked

/-! ### What reading can fail with -/

namespace Settings

variable {given : Given} {e : ReadError} {t : Text}

/-- A value of the wrong type is not an empty text. -/
theorem role?_unexpected (expected : Expected) (t : Text) :
    (unexpected expected t).role? = none := by
  unfold unexpected
  split <;> rfl

/-- Reading a text for a role does not look whether it is empty. -/
theorem role?_of_readToken (h : readToken t = .error e) : e.role? = none := by
  unfold readToken at h
  split at h
  · obtain rfl := Except.error.inj h
    exact role?_unexpected _ _
  · split at h
    · obtain rfl := Except.error.inj h
      rfl
    · cases h

/-- A member fails because it is malformed, because of its type or because its role was given
before. -/
theorem role?_of_readMember (h : readMember given t = .error e) : e.role? = none := by
  unfold readMember at h
  split at h
  · obtain rfl := Except.error.inj h
    rfl
  split at h
  · obtain rfl := Except.error.inj h
    rfl
  split at h
  · split at h
    · obtain rfl := Except.error.inj h
      rfl
    · cases h
  split at h
  · obtain rfl := Except.error.inj h
    rfl
  split at h
  · obtain rfl := Except.error.inj h
    rfl
  split at h
  · next e' he' =>
    obtain rfl := Except.error.inj h
    exact role?_of_readToken he'
  · cases h

theorem role?_of_readMembers (h : readMembers given t = .error e) : e.role? = none := by
  fun_induction readMembers given t with
  | case1 given t e' hm =>
    obtain rfl := Except.error.inj h
    exact role?_of_readMember hm
  | case2 =>
    obtain rfl := Except.error.inj h
    rfl
  | case3 => cases h
  | case4 given t given' r hm u hr hne ih => exact ih h
  | case5 =>
    obtain rfl := Except.error.inj h
    rfl

theorem role?_of_readItems {roles : List Role} (h : readItems roles t = .error e) :
    e.role? = none := by
  induction roles generalizing t with
  | nil =>
    obtain rfl := Except.error.inj h
    rfl
  | cons role roles ih =>
    unfold readItems at h
    split at h
    · next e' he' =>
      obtain rfl := Except.error.inj h
      exact role?_of_readToken he'
    split at h
    · obtain rfl := Except.error.inj h
      rfl
    split at h
    · cases h
    split at h
    · split at h
      · next e' he' =>
        obtain rfl := Except.error.inj h
        exact ih he'
      · cases h
    · obtain rfl := Except.error.inj h
      rfl

/-- Reading does not look whether texts are empty. -/
theorem role?_of_read (h : read t = .error e) : e.role? = none := by
  unfold read at h
  split at h
  · obtain rfl := Except.error.inj h
    rfl
  split at h
  · unfold readArray at h
    split at h
    · cases h
    · exact role?_of_readItems h
  · unfold readObject at h
    split at h
    · cases h
    · exact role?_of_readMembers h
  · obtain rfl := Except.error.inj h
    exact role?_unexpected _ _

end Settings

/-- Whatever reading fails with, the settings are unreadable. -/
theorem Change.Unreadable.of_read {json : Text} {e : ReadError}
    (h : Settings.read json = .error e) : (Change.settings json).Unreadable := by
  have hrole := Settings.role?_of_read h
  cases e with
  | malformed => exact .malformed h
  | unexpected found expected => exact .unexpected h
  | duplicate r => exact .duplicate h
  | refused e => cases hrole

/-! ### What comes of a change -/

/-- What can come of a change `c` of `d`. -/
inductive Change.Outcome (d : Delimiters) (c : Change) : Except ChangeError Delimiters → Prop
  /-- The settings cannot be read, and no text of theirs is empty. -/
  | unread {e : ChangeError} (hc : c.Unreadable) (hfirst : c.firstEmpty? = none)
      (he : e.role? = none) : Outcome d c (.error e)
  /-- A text is empty. -/
  | empty {e : ChangeError} {r : Role} (hfirst : c.firstEmpty? = some r)
      (he : e.role? = some r) : Outcome d c (.error e)
  /-- The texts are stored. -/
  | done {e : Delimiters} (hc : ¬ c.Unreadable) (hfirst : c.firstEmpty? = none)
      (he : e.tokens = d.tokens.update c.stored) : Outcome d c (.ok e)

section Outcome

variable {d e : Delimiters} {c : Change}

/-- A change that stores first and checks afterwards is refused for the first empty text that it
stores. -/
theorem outcome_of_update (hc : ¬ c.Unreadable)
    (h : d.tokens.change c = (d.tokens.update c.stored).checked.mapError .refused) :
    c.Outcome d (d.change c) := by
  have hmap := (map_tokens_change d c).trans h
  rw [checked_update] at hmap
  -- the outcome has the same tokens or the same error as the one for plain tokens
  cases hfirst : c.firstEmpty? with
  | some r =>
    rw [hfirst] at hmap
    cases hx : d.change c with
    | ok e =>
      rw [hx] at hmap
      cases hmap
    | error e =>
      rw [hx] at hmap
      obtain rfl := Except.error.inj hmap
      exact .empty hfirst rfl
  | none =>
    rw [hfirst] at hmap
    cases hx : d.change c with
    | ok e =>
      rw [hx] at hmap
      exact .done hc hfirst (Except.ok.inj hmap)
    | error e =>
      rw [hx] at hmap
      cases hmap

/-- Settings are read to their end before a text can be refused, and what follows them is looked at
last. -/
theorem outcome_settings (d : Delimiters) (json : Text) :
    (Change.settings json).Outcome d (d.change (.settings json)) := by
  simp only [Delimiters.change, Delimiters.ofJson]
  cases hread : Settings.read json with
  | error e =>
    have hfirst : (Change.settings json).firstEmpty? = none := by
      simp [Change.firstEmpty?, Change.stored, hread]
    exact .unread (.of_read hread) hfirst (Settings.role?_of_read hread)
  | ok p =>
    -- the settings were read, and give a text for every role
    obtain ⟨given, rest⟩ := p
    have hstored : (Change.settings json).stored = fun r => some (given.complete.get r) := by
      funext r
      simp only [Change.stored, hread]
    have hfirst : (Change.settings json).firstEmpty? =
        Role.all.find? fun r => given.complete.get r = [] := by
      simp [Change.firstEmpty?, hstored]
    cases hk : Delimiters.ofTokens given.complete with
    | error e =>
      obtain ⟨r, hr, rfl⟩ := Option.map_eq_some_iff.1 (Delimiters.ofTokens_eq_error_iff.1 hk)
      simp only [hk]
      exact .empty (hfirst.trans hr) rfl
    | ok e =>
      have he := Delimiters.ofTokens_eq_ok_iff.1 hk
      have hnone : (Change.settings json).firstEmpty? = none := by
        rw [hfirst, ← he, find?_tokens]
      -- only blanks may follow the settings
      by_cases hrest : Json.dropSpace rest = []
      · simp only [hk, hrest, ↓reduceIte]
        refine .done ?_ hnone ?_
        · intro hc
          cases hc <;> simp_all
        · rw [hstored, he, Tokens.update_some, Tokens.ofFn_get]
      · simp only [hk, hrest, ↓reduceIte]
        exact .unread (.followed hread hrest) hnone rfl

/-- Every change comes to one of these. -/
theorem outcome_change (d : Delimiters) (c : Change) : c.Outcome d (d.change c) := by
  cases c with
  | settings json => exact outcome_settings d json
  | standard => exact .done nofun rfl rfl
  | tokens k => exact outcome_of_update nofun rfl
  | separator t => exact outcome_of_update nofun rfl
  | lineComment t => exact outcome_of_update nofun rfl
  | blockComment start stop => exact outcome_of_update nofun rfl

theorem firstEmpty?_eq_none_iff : c.firstEmpty? = none ↔ ∀ r, c.stored r ≠ some [] := by
  simp [Change.firstEmpty?, Role.mem_all]

theorem firstEmpty?_eq_some {r : Role} (h : c.firstEmpty? = some r) : c.stored r = some [] := by
  simpa using List.find?_some h

namespace Change.Outcome

variable {x : Except ChangeError Delimiters}

/-- A change fails because of an empty text, or because it cannot be read. -/
theorem fails_iff (h : c.Outcome d x) :
    (∃ e, x = .error e) ↔ (∃ r, c.stored r = some []) ∨ c.Unreadable := by
  cases h with
  | unread hc hfirst he => exact iff_of_true ⟨_, rfl⟩ (Or.inr hc)
  | empty hfirst he => exact iff_of_true ⟨_, rfl⟩ (Or.inl ⟨_, firstEmpty?_eq_some hfirst⟩)
  | done hc hfirst he =>
    refine iff_of_false nofun ?_
    rintro (⟨r, hr⟩ | hun)
    · exact firstEmpty?_eq_none_iff.1 hfirst r hr
    · exact hc hun

theorem names_iff (h : c.Outcome d x) (r : Role) :
    (∃ e, x = .error e ∧ e.role? = some r) ↔ c.firstEmpty? = some r := by
  cases h with
  | unread hc hfirst he => simp [hfirst, he]
  | empty hfirst he => simp [hfirst, he]
  | done hc hfirst he => simp [hfirst]

theorem stores (h : c.Outcome d (.ok e)) (r : Role) :
    e.tokens.get r = (c.stored r).getD (d.tokens.get r) := by
  cases h with
  | done hc hfirst he => rw [he, Tokens.get_update]

end Change.Outcome

end Outcome

/-! ### One change and many -/

namespace Delimiters

/-- What holds of a change `c` of `d`. -/
structure Obeys (d : Delimiters) (c : Change) : Prop where
  /-- Checking all texts afterwards comes to the same. -/
  plain : (d.change c).map tokens = d.tokens.change c
  /-- The change fails exactly if a text is empty or settings cannot be read. -/
  fails_iff : (∃ e, d.change c = .error e) ↔ (∃ r, c.stored r = some []) ∨ c.Unreadable
  /-- The first role with an empty text is named, whenever there is one. -/
  names_iff (r : Role) :
    (∃ e, d.change c = .error e ∧ e.role? = some r) ↔ c.firstEmpty? = some r
  /-- Only a role that was about to get an empty text is named. -/
  names_stored (e : ChangeError) (r : Role) :
    d.change c = .error e → e.role? = some r → c.stored r = some []
  /-- The roles that get a text have this text, and the others have theirs. -/
  stores (e : Delimiters) (r : Role) :
    d.change c = .ok e → e.tokens.get r = (c.stored r).getD (d.tokens.get r)

/-- The texts that changes store in a role, in order. One that is refused stores nothing. -/
def storedIn (r : Role) (d : Delimiters) : List Change → List Text
  | [] => []
  | c :: cs =>
    match d.change c with
    | .ok e => (c.stored r).toList ++ storedIn r e cs
    | .error _ => storedIn r d cs

theorem obeys (d : Delimiters) (c : Change) : d.Obeys c where
  plain := map_tokens_change d c
  fails_iff := (outcome_change d c).fails_iff
  names_iff r := (outcome_change d c).names_iff r
  names_stored e r he hr := firstEmpty?_eq_some (((outcome_change d c).names_iff r).1 ⟨e, he, hr⟩)
  stores _ r he := (he ▸ outcome_change d c).stores r

/-- A role has the last text that was stored in it, or the one it started with. -/
theorem get_afterChanges (d : Delimiters) (cs : List Change) (r : Role) :
    (d.afterChanges cs).tokens.get r = (d.storedIn r cs).getLast?.getD (d.tokens.get r) := by
  -- the texts of the later changes come behind the one that the first change stores
  induction cs generalizing d with
  | nil => rfl
  | cons c cs ih =>
    show ((d.changedOrKept c).afterChanges cs).tokens.get r = _
    rw [ih, changedOrKept, storedIn]
    cases hx : d.change c with
    | error e => rfl
    | ok e =>
      rw [(d.obeys c).stores e r hx, List.getLast?_append]
      cases (e.storedIn r cs).getLast? with
      | some t => rfl
      | none => cases c.stored r <;> rfl

end Delimiters

/-! ### Drawn configurations -/

/-- A function of what is picked can be applied to the choices before. -/
theorem Draw.map_pick {α β : Type} (f : α → β) (xs : List α) (h : xs ≠ []) :
    f <$> pick xs h = pick (xs.map f) (by simpa using h) := by
  have hget (n : Nat) : f (xs.getD n (xs.head h)) =
      (xs.map f).getD n ((xs.map f).head (by simpa using h)) := by
    simp [List.getD_eq_getElem?_getD, Option.getD_map]
  simp only [pick, map_bind, map_pure, hget, List.length_map]

namespace Sample

/-- A text, in three of four cases one in use, and also if the bytes give no text. -/
def plainToken (common : List Text) (h : common ≠ []) : Draw Text := do
  if ← Draw.chance 3 4 then Draw.pick common h
  else
    let t ← Draw.text
    if t = [] then Draw.pick common h else return t

/-- Four texts, none of which is looked at again. -/
def plainTokens : Draw Tokens := do
  let separator ← plainToken (separators.map (·.val)) (by decide)
  let lineComment ← plainToken (lineComments.map (·.val)) (by decide)
  let blockOpen ← plainToken (blockOpens.map (·.val)) (by decide)
  let blockClose ← plainToken (blockCloses.map (·.val)) (by decide)
  return { separator, lineComment, blockOpen, blockClose }

/-- A drawn token is the text that would have been drawn unchecked: a text that is empty is replaced
in both. -/
theorem map_token (common : List Token) (h : common ≠ []) :
    (·.val) <$> token common h =
      plainToken (common.map (·.val)) (mt List.map_eq_nil_iff.1 h) := by
  unfold token plainToken
  rw [map_bind]
  congr 1
  funext usual
  -- a usual token is drawn, or a text that may be empty
  cases usual with
  | true => exact Draw.map_pick _ common h
  | false =>
    simp only [Bool.false_eq_true, ↓reduceIte, map_bind]
    congr 1
    funext t
    by_cases ht : t = []
    · simp only [ht, ↓reduceDIte, ↓reduceIte]
      exact Draw.map_pick _ common h
    · simp [ht]

/-- Drawing texts that are not looked at again comes to the same. -/
theorem map_delimiters : Delimiters.tokens <$> delimiters = plainTokens := by
  simp only [delimiters, plainTokens, ← map_token separators (by decide),
    ← map_token lineComments (by decide), ← map_token blockOpens (by decide),
    ← map_token blockCloses (by decide), map_bind, bind_map_left, map_pure]
  rfl

theorem tokens_run_delimiters (bytes : Bytes) :
    (delimiters.run bytes).1.tokens = (plainTokens.run bytes).1 := by
  rw [← map_delimiters, StateT.run_map]
  rfl

end Sample

/-! ### Every way to a configuration -/

/-- **No way leads to an empty token.** Texts that are stored by changes and then checked, and
texts that are drawn from bytes and not checked, are never empty and are the tokens of the
configurations that are reached. Every change obeys its laws on the way, and at the end each role
holds the last text that was stored in it. -/
theorem Delimiters.configuration_laws :
    (∀ cs : List Change,
      (standard.afterChanges cs).tokens = standard.tokens.afterChanges cs ∧
      (∀ r, (standard.tokens.afterChanges cs).get r ≠ []) ∧
      (∀ c, (standard.afterChanges cs).Obeys c) ∧
      ∀ r, (standard.afterChanges cs).tokens.get r =
        (standard.storedIn r cs).getLast?.getD (standard.tokens.get r)) ∧
    ∀ bytes : Bytes,
      (Sample.delimiters.run bytes).1.tokens = (Sample.plainTokens.run bytes).1 ∧
      ∀ r, (Sample.plainTokens.run bytes).1.get r ≠ [] := by
  constructor
  · intro cs
    have htokens := tokens_afterChanges standard cs
    refine ⟨htokens, ?_, obeys _, get_afterChanges standard cs⟩
    intro r
    rw [← htokens]
    exact get_tokens_ne_nil _ r
  · intro bytes
    have htokens := Sample.tokens_run_delimiters bytes
    refine ⟨htokens, ?_⟩
    intro r
    rw [← htokens]
    exact get_tokens_ne_nil _ r

/-- A change that is refused stores nothing, also where only one of its texts is empty. -/
example :
    (Delimiters.standard.afterChanges
      [.separator ['G', 'O'], .blockComment ['<'] [], .separator []]).tokens =
      ⟨['G', 'O'], ['-', '-'], ['/', '*'], ['*', '/']⟩ := by
  decide

end SqlScript

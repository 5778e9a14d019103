import SqlScript.Settings
import SqlScript.Proofs.Grammar

/-!
# Settings as they are written

The same settings can be written in many ways. `Settings.IsObject` says which objects give a text
for some roles: members stand in any order, keys and texts are spelled in any way, blanks stand
anywhere, and there are any other members among them, with values of any kind. `Settings.IsArray`
says which arrays list texts.

* `Delimiters.ofJson_decorated`: only the given texts count. They are completed by the usual tokens
  and become a configuration, or the error says why not. A role that is given again is an error as
  soon as its key is read.
* `Delimiters.ofJson_toJson`: the settings that are written for a configuration give it back.
-/

namespace SqlScript

open Json (Quoted Spaces Written Follows dropSpace mark)

theorem Role.ofKey?_key (role : Role) : ofKey? role.key = some role := by
  cases role with
  | separator => decide
  | lineComment => decide
  | blockOpen => decide
  | blockClose => decide

theorem Role.ofKey?_eq_none {key : Text} (h : ∀ r : Role, key ≠ r.key) : ofKey? key = none := by
  rw [ofKey?, List.find?_eq_none]
  intro r _
  simpa using (h r).symm

namespace Settings

/-! ### What is written -/

/-- A member of an object as it is written, and what it gives. -/
inductive Member : Given → Text → Prop
  /-- A key of a role, which gives a text for it. -/
  | known {role : Role} {value k s v s' : Text} (hk : Quoted role.key k) (hs : Spaces s)
      (hv : Quoted value v) (hs' : Spaces s') :
      Member [(role, value)] (k ++ (s ++ ':' :: (v ++ s')))
  /-- Any other key, whose value gives nothing. -/
  | other {key k s w v s' : Text} (hkey : ∀ r : Role, key ≠ r.key) (hk : Quoted key k)
      (hs : Spaces s) (hw : Spaces w) (hv : Written .value v) (hs' : Spaces s') :
      Member [] (k ++ (s ++ ':' :: (w ++ (v ++ s'))))

/-- Members with commas between them, and what they give. -/
inductive Members : Given → Text → Prop
  /-- A single member. -/
  | one {g : Given} {t : Text} (ht : Member g t) : Members g t
  /-- A member, a comma and the other members. -/
  | more {g g' : Given} {t u : Text} (ht : Member g t) (hu : Members g' u) :
      Members (g ++ g') (t ++ ',' :: u)

/-- An object up to its closing bracket. It has members, and gives no role twice. -/
inductive Opened (g : Given) : Text → Prop
  /-- An opening bracket and members. Blanks may stand before it. -/
  | members {s t : Text} (hs : Spaces s) (ht : Members g t) (hg : (g.map Prod.fst).Nodup) :
      Opened g (s ++ '\x7b' :: t)

/-- An object that gives the texts `f` for the roles that have one. -/
inductive IsObject (f : Role → Option Text) : Text → Prop
  /-- An object without members gives nothing. -/
  | empty {s w s' : Text} (hs : Spaces s) (hw : Spaces w) (hs' : Spaces s')
      (hf : ∀ r, f r = none) : IsObject f (s ++ '\x7b' :: (w ++ '\x7d' :: s'))
  /-- An object that gives what its members give, in whatever order they come. -/
  | closed {g : Given} {t s : Text} (ht : Opened g t) (hs : Spaces s)
      (hf : ∀ r value, f r = some value ↔ (r, value) ∈ g) : IsObject f (t ++ '\x7d' :: s)

/-- Texts with commas between them. -/
inductive Elements : List Text → Text → Prop
  /-- A single text. -/
  | one {value v s : Text} (hv : Quoted value v) (hs : Spaces s) : Elements [value] (v ++ s)
  /-- A text, a comma and the other texts. -/
  | more {value v s t : Text} {values : List Text} (hv : Quoted value v) (hs : Spaces s)
      (ht : Elements values t) : Elements (value :: values) (v ++ (s ++ ',' :: t))

/-- An array of these texts. -/
inductive IsArray : List Text → Text → Prop
  /-- An array without texts. -/
  | empty {s w s' : Text} (hs : Spaces s) (hw : Spaces w) (hs' : Spaces s') :
      IsArray [] (s ++ '[' :: (w ++ ']' :: s'))
  /-- An array of at least one text. -/
  | closed {values : List Text} {s t s' : Text} (hs : Spaces s) (ht : Elements values t)
      (hs' : Spaces s') : IsArray values (s ++ '[' :: (t ++ ']' :: s'))

/-! ### Reading members -/

variable {f : Role → Option Text} {acc g : Given} {role : Role} {k r s t v value : Text}
  {values : List Text}

/-- Behind its first mark a quoted text is read up to its second one. -/
theorem dropMark_quoted (h : Quoted value v) (r : Text) :
    ∃ u, dropMark (dropSpace (v ++ r)) = some u ∧ Json.readBody u = some (value, r) := by
  obtain ⟨u, hu, hread⟩ := h.exists_dropSpace r
  exact ⟨u, by rw [hu, dropMark]; exact Text.after?_append [mark] u, hread⟩

theorem readToken_quoted (h : Quoted value v) (r : Text) : readToken (v ++ r) = .ok (value, r) := by
  obtain ⟨u, hu, hread⟩ := dropMark_quoted h r
  simp only [readToken, hu, hread]

theorem skipColon_colon (hs : Spaces s) (r : Text) : Json.skipColon (s ++ ':' :: r) = some r := by
  simp only [Json.skipColon, Json.dropSpace_append_cons hs (c := ':') rfl]

/-- A text for a role that has none yet is added. -/
theorem readMember_known (hk : Quoted role.key k) (hnew : acc.lookup role = none) (hs : Spaces s)
    (hv : Quoted value v) (r : Text) :
    readMember acc (k ++ (s ++ ':' :: (v ++ r))) = .ok ((role, value) :: acc, r) := by
  obtain ⟨u, hu, hread⟩ := dropMark_quoted hk (s ++ ':' :: (v ++ r))
  simp only [readMember, hu, hread, Role.ofKey?_key, hnew, Option.isSome_none,
    Bool.false_eq_true, ↓reduceIte, skipColon_colon hs, readToken_quoted hv]

/-- A member with another key adds nothing, whatever its value is. -/
theorem readMember_other (acc : Given) {key w : Text} (hkey : ∀ r : Role, key ≠ r.key)
    (hk : Quoted key k) (hs : Spaces s) (hw : Spaces w) (hv : Written .value v) (hr : Follows r) :
    readMember acc (k ++ (s ++ ':' :: (w ++ (v ++ r)))) = .ok (acc, r) := by
  obtain ⟨u, hu, hread⟩ := dropMark_quoted hk (s ++ ':' :: (w ++ (v ++ r)))
  simp only [readMember, hu, hread, Role.ofKey?_eq_none hkey, skipColon_colon hs,
    Option.bind_some, Json.skipValue_written hv hw hr]

/-- A role that is given is not given again. What follows its key does not matter. -/
theorem readMember_duplicate (hk : Quoted role.key k) (h : (acc.lookup role).isSome = true)
    (r : Text) : readMember acc (k ++ r) = .error (.duplicate role) := by
  obtain ⟨u, hu, hread⟩ := dropMark_quoted hk r
  simp only [readMember, hu, hread, Role.ofKey?_key, h, ↓reduceIte]

/-- A member adds what it gives. -/
theorem readMember_member (h : Member g t) (hnew : ∀ p ∈ g, acc.lookup p.1 = none)
    (hr : Follows r) :
    ∃ u, readMember acc (t ++ r) = .ok (g.reverse ++ acc, u) ∧ dropSpace u = dropSpace r := by
  cases h with
  | @known role value k s v s' hk hs hv hs' =>
    have hread := readMember_known hk (hnew _ List.mem_cons_self) hs hv (s' ++ r)
    refine ⟨s' ++ r, ?_, Json.dropSpace_append hs' r⟩
    simp only [List.append_assoc, List.cons_append]
    exact hread
  | @other key k s w v s' hkey hk hs hw hv hs' =>
    have hread := readMember_other acc hkey hk hs hw hv (hr.append hs')
    refine ⟨s' ++ r, ?_, Json.dropSpace_append hs' r⟩
    simp only [List.append_assoc, List.cons_append]
    exact hread

/-- Roles that are not given again are not yet given. -/
theorem lookup_eq_none_of_nodup (h : ((g ++ acc).map Prod.fst).Nodup) :
    ∀ p ∈ g, acc.lookup p.1 = none := by
  intro p hp
  rw [List.map_append, List.nodup_append] at h
  rw [List.lookup_eq_none_iff]
  intro q hq
  exact bne_iff_ne.2 (h.2.2 _ (List.mem_map_of_mem hp) _ (List.mem_map_of_mem hq))

/-- A member ends at the closing bracket, or at a comma behind which others follow. -/
theorem readMembers_member (h : Member g t) (hnew : ((g ++ acc).map Prod.fst).Nodup) {c : Char}
    (hc : c = '\x7d' ∨ c = ',') (r : Text) :
    readMembers acc (t ++ c :: r) =
      if c = '\x7d' then .ok (g.reverse ++ acc, r) else readMembers (g.reverse ++ acc) r := by
  have hend : Follows (c :: r) ∧ Json.isSpace c = false := by
    obtain rfl | rfl := hc
    · exact ⟨Json.follows_closing .object r, rfl⟩
    · exact ⟨Json.follows_comma r, rfl⟩
  obtain ⟨u, hread, hu⟩ := readMember_member h (lookup_eq_none_of_nodup hnew) hend.1
  rw [readMembers_eq, hread]
  simp only [hu, Json.dropSpace_cons hend.2]
  obtain rfl | rfl := hc
  · rfl
  · rfl

/-- Members add what they give, and the last one comes first. -/
theorem readMembers_members (h : Members g t) (hnew : ((g ++ acc).map Prod.fst).Nodup) {c : Char}
    (hc : c = '\x7d' ∨ c = ',') (r : Text) :
    readMembers acc (t ++ c :: r) =
      if c = '\x7d' then .ok (g.reverse ++ acc, r) else readMembers (g.reverse ++ acc) r := by
  induction h generalizing acc with
  | one ht => exact readMembers_member ht hnew hc r
  | @more g g' t u ht hu ih =>
    -- what the first member gives is there when the others are read, and is none of theirs
    have hfirst : ((g ++ acc).map Prod.fst).Nodup :=
      hnew.sublist (((List.sublist_append_left g g').append_right acc).map Prod.fst)
    have hperm : (g ++ g' ++ acc).Perm (g' ++ (g.reverse ++ acc)) := by
      calc (g ++ g' ++ acc).Perm (g' ++ g ++ acc) := List.perm_append_comm.append_right acc
        _ = g' ++ (g ++ acc) := List.append_assoc ..
        (g' ++ (g ++ acc)).Perm _ := (g.reverse_perm.symm.append_right acc).append_left g'
    rw [List.append_assoc, List.cons_append, readMembers_member ht hfirst (Or.inr rfl),
      if_neg (by decide), ih ((hperm.map Prod.fst).nodup_iff.1 hnew), List.reverse_append,
      List.append_assoc]

/-! ### Reading objects and arrays -/

/-- What is given for a role does not depend on the order. -/
theorem lookup_eq_some_iff_mem (h : (g.map Prod.fst).Nodup) :
    g.lookup role = some value ↔ (role, value) ∈ g := by
  induction g with
  | nil => simp
  | cons p g ih =>
    obtain ⟨role', value'⟩ := p
    rw [List.map_cons, List.nodup_cons] at h
    rw [List.lookup_cons, List.mem_cons]
    by_cases hrole : role = role'
    · -- the first member is the only one for its role
      subst hrole
      have hnot : (role, value) ∉ g := fun hmem => h.1 (List.mem_map.2 ⟨_, hmem, rfl⟩)
      simp [hnot, eq_comm]
    · have hne : (role == role') = false := beq_false_of_ne hrole
      simp [hne, hrole, ih h.2]

/-- The last members come first, but that makes no difference. -/
theorem lookup_reverse_eq (hg : (g.map Prod.fst).Nodup)
    (hf : ∀ r value, f r = some value ↔ (r, value) ∈ g) (role : Role) :
    g.reverse.lookup role = f role := by
  have hrev : (g.reverse.map Prod.fst).Nodup :=
    (g.reverse_perm.map Prod.fst).nodup_iff.2 hg
  ext value
  rw [lookup_eq_some_iff_mem hrev, List.mem_reverse, hf]

/-- What starts with a quoted text starts with a mark. -/
theorem exists_dropSpace_of_quoted (h : Quoted value v) (t r : Text) :
    ∃ u, dropSpace (v ++ t ++ r) = mark :: u := by
  obtain ⟨u, hu, -⟩ := h.exists_dropSpace (t ++ r)
  exact ⟨u, by rw [List.append_assoc, hu]⟩

/-- A member starts with the mark of its key. -/
theorem exists_dropSpace_of_member (h : Member g t) (r : Text) :
    ∃ u, dropSpace (t ++ r) = mark :: u := by
  cases h with
  | known hk => exact exists_dropSpace_of_quoted hk _ r
  | other hkey hk => exact exists_dropSpace_of_quoted hk _ r

theorem exists_dropSpace_of_members (h : Members g t) (r : Text) :
    ∃ u, dropSpace (t ++ r) = mark :: u := by
  cases h with
  | one ht => exact exists_dropSpace_of_member ht r
  | more ht hu =>
    rw [List.append_assoc]
    exact exists_dropSpace_of_member ht _

theorem Opened.nodup (h : Opened g t) : (g.map Prod.fst).Nodup := by
  cases h with
  | members hs ht hg => exact hg

/-- What follows the opening bracket of an object is read as members. -/
theorem read_opened (h : Opened g t) (r : Text) :
    ∃ u, Members g u ∧ read (t ++ r) = readMembers [] (u ++ r) := by
  cases h with
  | @members s u hs ht =>
    refine ⟨u, ht, ?_⟩
    obtain ⟨w, hw⟩ := exists_dropSpace_of_members ht r
    rw [List.append_assoc, List.cons_append]
    simp only [read, Json.dropSpace_append_cons hs (c := '\x7b') rfl, Json.Bracket.opened?,
      readObject, hw]
    rfl

/-- An object is read to its end, and nothing but blanks is left. -/
theorem read_isObject (h : IsObject f t) :
    ∃ given rest, read t = .ok (given, rest) ∧ Spaces rest ∧ ∀ r, given.lookup r = f r := by
  cases h with
  | @empty s w s' hs hw hs' hf =>
    refine ⟨[], s', ?_, hs', fun r => (hf r).symm⟩
    simp only [read, Json.dropSpace_append_cons hs (c := '\x7b') rfl, Json.Bracket.opened?,
      readObject, Json.dropSpace_append_cons hw (c := '\x7d') rfl]
    rfl
  | @closed g t s ht hs hf =>
    obtain ⟨u, hu, hread⟩ := read_opened ht ('\x7d' :: s)
    refine ⟨g.reverse, s, ?_, hs, lookup_reverse_eq ht.nodup hf⟩
    rw [hread, readMembers_members hu (by simpa using ht.nodup) (Or.inl rfl), if_pos rfl,
      List.append_nil]

/-- A known key that comes again is an error as soon as it is read. -/
theorem read_duplicate (h : Opened g t) (hrole : role ∈ g.map Prod.fst) (hk : Quoted role.key k)
    (r : Text) : read (t ++ ',' :: (k ++ r)) = .error (.duplicate role) := by
  obtain ⟨u, hu, hread⟩ := read_opened h (',' :: (k ++ r))
  -- the role was read before, since it is among those that the object gives so far
  have hsome : (g.reverse.lookup role).isSome = true := by
    rw [Option.isSome_iff_ne_none, ne_eq, List.lookup_eq_none_iff]
    intro hnone
    obtain ⟨p, hp, rfl⟩ := List.mem_map.1 hrole
    exact bne_iff_ne.1 (hnone p (List.mem_reverse.2 hp)) rfl
  rw [hread, readMembers_members hu (by simpa using h.nodup) (Or.inr rfl), if_neg (by decide),
    List.append_nil, readMembers_eq, readMember_duplicate hk hsome]

/-- The elements of an array are for the first roles, in their order. -/
theorem readItems_elements (h : Elements values t) {roles : List Role}
    (hlen : values.length ≤ roles.length) (r : Text) :
    readItems roles (t ++ ']' :: r) = .ok (roles.zip values, r) := by
  -- each text takes the first role that is left
  induction h generalizing roles with
  | one hv hs =>
    cases roles with
    | nil => simp at hlen
    | cons role roles =>
      rw [List.append_assoc]
      simp only [readItems, readToken_quoted hv, Json.dropSpace_append_cons hs (c := ']') rfl]
      simp [Json.Bracket.closing]
  | more hv hs ht ih =>
    cases roles with
    | nil => simp at hlen
    | cons role roles =>
      have hlen' : _ ≤ roles.length := Nat.le_of_succ_le_succ hlen
      have htail := ih hlen'
      simp only [List.append_assoc, List.cons_append]
      simp only [readItems, readToken_quoted hv, Json.dropSpace_append_cons hs (c := ',') rfl]
      simp [Json.Bracket.closing, htail]

theorem exists_dropSpace_of_elements (h : Elements values t) (r : Text) :
    ∃ u, dropSpace (t ++ r) = mark :: u := by
  cases h with
  | one hv => exact exists_dropSpace_of_quoted hv _ r
  | more hv => exact exists_dropSpace_of_quoted hv _ r

/-- An array is read to its end, and nothing but blanks is left. -/
theorem read_isArray (h : IsArray values t) (hlen : values.length ≤ Role.all.length) :
    ∃ rest, read t = .ok (Role.all.zip values, rest) ∧ Spaces rest := by
  cases h with
  | @empty s w s' hs hw hs' =>
    refine ⟨s', ?_, hs'⟩
    simp only [read, Json.dropSpace_append_cons hs (c := '[') rfl, Json.Bracket.opened?,
      readArray, Json.dropSpace_append_cons hw (c := ']') rfl]
    rfl
  | @closed values s t s' hs ht hs' =>
    refine ⟨s', ?_, hs'⟩
    obtain ⟨w, hw⟩ := exists_dropSpace_of_elements ht (']' :: s')
    have hitems := readItems_elements ht hlen s'
    simp only [read, Json.dropSpace_append_cons hs (c := '[') rfl, Json.Bracket.opened?,
      readArray, hw]
    exact hitems

end Settings

/-! ### From texts to configurations -/

namespace Delimiters

open Settings

variable {f : Role → Option Text} {g given : Given} {role : Role} {k rest t : Text}
  {values : List Text}

/-- What is given is completed by the usual tokens and checked. -/
theorem ofJson_of_read (h : Settings.read t = .ok (given, rest)) (hrest : Spaces rest)
    (hf : ∀ r, given.lookup r = f r) :
    ofJson t =
      (ofTokens (.ofFn fun r => (f r).getD (standard.tokens.get r))).mapError .refused := by
  have hcomplete : given.complete = .ofFn fun r => (f r).getD (standard.tokens.get r) := by
    simp only [Given.complete, hf]
  rw [ofJson, h]
  simp only [hcomplete, Json.dropSpace_spaces hrest, ↓reduceIte]
  cases ofTokens _ with
  | error e => rfl
  | ok d => rfl

/-- An object becomes the configuration of what it gives. -/
theorem ofJson_isObject (h : IsObject f t) :
    ofJson t =
      (ofTokens (.ofFn fun r => (f r).getD (standard.tokens.get r))).mapError .refused := by
  obtain ⟨given, rest, hread, hrest, hf⟩ := read_isObject h
  exact ofJson_of_read hread hrest hf

theorem ofJson_isArray (h : IsArray values t) (hlen : values.length ≤ Role.all.length) :
    ofJson t = (ofTokens (.ofFn fun r =>
      ((Role.all.zip values).lookup r).getD (standard.tokens.get r))).mapError .refused := by
  obtain ⟨rest, hread, hrest⟩ := read_isArray h hlen
  exact ofJson_of_read hread hrest fun r => rfl

theorem ofJson_duplicate (h : Opened g t) (hrole : role ∈ g.map Prod.fst)
    (hk : Quoted role.key k) (r : Text) :
    ofJson (t ++ ',' :: (k ++ r)) = .error (.duplicate role) := by
  rw [ofJson, read_duplicate h hrole hk]

/-- **Settings are what they give.** The members of an object may stand in any order and be spelled
in any way, and others may stand among them: only what they give for the roles counts. An array
gives its texts to the first roles. A key of a role that is given already is an error, and what
follows the key does not matter. -/
theorem ofJson_decorated :
    (∀ f t, IsObject f t → ofJson t =
      (ofTokens (.ofFn fun r => (f r).getD (standard.tokens.get r))).mapError .refused) ∧
    (∀ values t, IsArray values t → values.length ≤ Role.all.length →
      ofJson t = (ofTokens (.ofFn fun r =>
        ((Role.all.zip values).lookup r).getD (standard.tokens.get r))).mapError .refused ∧
      ∀ u, IsObject (fun r => (Role.all.zip values).lookup r) u → ofJson t = ofJson u) ∧
    ∀ g t, Opened g t → ∀ role ∈ g.map Prod.fst, ∀ k, Quoted role.key k →
      ∀ rest, ofJson (t ++ ',' :: (k ++ rest)) = .error (.duplicate role) := by
  refine ⟨fun f t h => ofJson_isObject h, ?_, ?_⟩
  · intro values t h hlen
    have harray := ofJson_isArray h hlen
    refine ⟨harray, ?_⟩
    intro u hu
    rw [harray, ofJson_isObject hu]
  · intro g t h role hrole k hk rest
    exact ofJson_duplicate h hrole hk rest

/-- A text for line comments, spelled by its code unit, behind an array whose text holds a bracket
and half a pair of surrogates; an array with an empty text; and a separator that is given again,
where the text ends. -/
theorem ofJson_decorated_of_escapes :
    (IsObject (fun r => if r = .lineComment then some ['#'] else none)
        "\r\x7b \"x\" : [\"\x7d\\udC00\"],\"comment_prefix\":\"\\u0023\"\x7d\n".toList ∧
      ofJson "\r\x7b \"x\" : [\"\x7d\\udC00\"],\"comment_prefix\":\"\\u0023\"\x7d\n".toList =
        .ok { standard with lineComment := .cons '#' [] }) ∧
    (IsArray [['G'], []] "[\"G\", \"\"]".toList ∧ [['G'], []].length ≤ Role.all.length ∧
      ofJson "[\"G\", \"\"]".toList = .error (.refused (.empty .lineComment))) ∧
    Opened [(.separator, ['a'])] "\x7b\"separator\":\"a\"".toList ∧
      ofJson "\x7b\"separator\":\"a\",\"separator\"".toList = .error (.duplicate .separator) := by
  have hspace : Spaces [' '] := by simp [Spaces, Json.isSpace]
  have hnil := Json.spaces_nil
  have hquoted := Json.quoted_encode
  have hbracket : Json.Quotable ['\x7d', '\\', 'u', 'd', 'C', '0', '0'] :=
    .plain (by decide) (by decide) (by decide)
      (.unit (n := 0xdc00) (.digits ⟨by decide, Or.inl rfl⟩ ⟨by decide, Or.inr rfl⟩
        ⟨by decide, Or.inl rfl⟩ ⟨by decide, Or.inl rfl⟩) .nil)
  have hother : Member [] " \"x\" : [\"\x7d\\udC00\"]".toList :=
    .other (by intro r; cases r <;> decide) (.marks hspace (Json.spells_encodeBody ['x'])) hspace
      hspace (.brackets (.one (.item .array hnil (.scalar (.text hbracket)) hnil))) hnil
  have hcoded : Quoted ['#'] "\"\\u0023\"".toList :=
    .marks hnil (.cons (.unit (.digits ⟨by decide, Or.inl rfl⟩ ⟨by decide, Or.inl rfl⟩
      ⟨by decide, Or.inl rfl⟩ ⟨by decide, Or.inl rfl⟩)) .nil)
  have hknown : Member [(.lineComment, ['#'])] "\"comment_prefix\":\"\\u0023\"".toList :=
    .known (hquoted Role.lineComment.key) hnil hcoded hnil
  have hobject : IsObject (fun r => if r = .lineComment then some ['#'] else none)
      "\r\x7b \"x\" : [\"\x7d\\udC00\"],\"comment_prefix\":\"\\u0023\"\x7d\n".toList :=
    .closed (.members (s := ['\r']) (by simp [Spaces, Json.isSpace]) (.more hother (.one hknown))
      (by decide)) (s := ['\n']) (by simp [Spaces, Json.isSpace])
      (by intro r value; cases r <;> simp [eq_comm])
  have harray : IsArray [['G'], []] "[\"G\", \"\"]".toList :=
    .closed hnil (.more (hquoted ['G']) hnil (.one (.marks hspace .nil) hnil)) hnil
  have hopened : Opened [(.separator, ['a'])] "\x7b\"separator\":\"a\"".toList :=
    .members hnil (.one (.known (hquoted Role.separator.key) hnil (hquoted ['a']) hnil)) (by decide)
  refine ⟨⟨hobject, (ofJson_decorated.1 _ _ hobject).trans rfl⟩, ⟨harray, by decide,
    (ofJson_decorated.2.1 _ _ harray (by decide)).1.trans rfl⟩, hopened, ?_⟩
  exact ofJson_decorated.2.2 _ _ hopened .separator (by decide) _ (hquoted Role.separator.key) []

end Delimiters

/-! ### Writing and reading back -/

/-- What is written for a role is a member that gives its text. -/
theorem Settings.member_encode (role : Role) (value : Text) :
    Settings.Member [(role, value)] (Json.encode role.key ++ ':' :: Json.encode value) := by
  have h := Member.known (Json.quoted_encode role.key) Json.spaces_nil (Json.quoted_encode value)
    Json.spaces_nil
  rwa [List.append_nil] at h

/-- What is written for some roles is members that give their texts. -/
theorem Settings.members_encode (f : Role → Text) (role : Role) (roles : List Role) :
    Settings.Members ((role :: roles).map fun r => (r, f r))
      (List.intercalate [','] ((role :: roles).map fun r =>
        Json.encode r.key ++ ':' :: Json.encode (f r))) := by
  induction roles generalizing role with
  | nil =>
    simp only [List.map_cons, List.map_nil, List.intercalate_singleton]
    exact .one (member_encode role (f role))
  | cons role' roles ih =>
    have hmore := Members.more (member_encode role (f role)) (ih role')
    simp only [List.map_cons, List.intercalate_cons_cons, List.append_assoc] at hmore ⊢
    exact hmore

namespace Delimiters

open Settings

/-- What is written for a configuration is an object that gives all of its tokens. -/
theorem isObject_toJson (d : Delimiters) {before after : Text} (hbefore : Spaces before)
    (hafter : Spaces after) :
    IsObject (fun r => some (d.tokens.get r)) (before ++ (d.toJson ++ after)) := by
  have hmembers := members_encode d.tokens.get .separator [.lineComment, .blockOpen, .blockClose]
  have hf (r : Role) (value : Text) : some (d.tokens.get r) = some value ↔
      (r, value) ∈ Role.all.map fun r => (r, d.tokens.get r) := by
    simp [Role.mem_all, eq_comm]
  have hroles : ((Role.all.map fun r => (r, d.tokens.get r)).map Prod.fst).Nodup := by
    show Role.all.Nodup
    decide
  have hobject := IsObject.closed (.members hbefore hmembers hroles) hafter hf
  simp only [List.append_assoc, List.cons_append] at hobject
  simp only [toJson, List.append_assoc, List.cons_append, List.nil_append]
  exact hobject

/-- **What is written can be read back.** The settings that are written for a configuration are an
object that gives its tokens, and whatever characters the tokens hold, and with any blanks around
the object, reading it gives the configuration. So different configurations are written in different
ways. -/
theorem ofJson_toJson :
    (∀ (d : Delimiters) (before after : Text), Spaces before → Spaces after →
      IsObject (fun r => some (d.tokens.get r)) (before ++ (d.toJson ++ after)) ∧
      ofJson (before ++ (d.toJson ++ after)) = .ok d) ∧
    ∀ d e : Delimiters, d ≠ e → d.toJson ≠ e.toJson := by
  have hback (d : Delimiters) {before after : Text} (hbefore : Spaces before)
      (hafter : Spaces after) : ofJson (before ++ (d.toJson ++ after)) = .ok d := by
    have hall : ofTokens (.ofFn fun r => (some (d.tokens.get r)).getD (standard.tokens.get r)) =
        .ok d := ofTokens_eq_ok_iff.2 rfl
    rw [ofJson_isObject (d.isObject_toJson hbefore hafter), hall]
    rfl
  constructor
  · intro d before after hbefore hafter
    exact ⟨d.isObject_toJson hbefore hafter, hback d hbefore hafter⟩
  · intro d e hne heq
    apply hne
    have hd := hback d Json.spaces_nil Json.spaces_nil
    rw [heq, hback e Json.spaces_nil Json.spaces_nil] at hd
    exact (Except.ok.inj hd).symm

/-- Marks, backslashes, controls and characters beyond the first plane are written and read back. -/
theorem ofJson_toJson_of_controls :
    Spaces ['\r', ' '] ∧ Spaces ['\n'] ∧
      ofJson (['\r', ' '] ++ (toJson ⟨.cons mark ['\\'], .cons '\x00' ['\x1f', '\t'],
          .cons '\x7f' ['\u2028'], .cons '😀' ['/']⟩ ++ ['\n'])) =
        .ok ⟨.cons mark ['\\'], .cons '\x00' ['\x1f', '\t'], .cons '\x7f' ['\u2028'],
          .cons '😀' ['/']⟩ ∧
      standard.toJson ≠ toJson { standard with separator := .cons mark [] } := by
  have hbefore : Spaces ['\r', ' '] := by simp [Spaces, Json.isSpace]
  have hafter : Spaces ['\n'] := by simp [Spaces, Json.isSpace]
  exact ⟨hbefore, hafter, (ofJson_toJson.1 _ _ _ hbefore hafter).2,
    ofJson_toJson.2 _ _ (by decide)⟩

end Delimiters

end SqlScript

import SqlScript.Proofs.Items

/-!
# Calls in any order

Statements may be asked for one at a time or collected, and the position may be asked for in
between. `Statements.calls` makes such `Call`s one after the other. `Statements.agrees_calls` says
that they agree with one full run (`Statements.Agrees`): in whatever order they are made, they hand
out its items in order, and nothing after its end.

Collecting hands out all statements that are left, or, where the run meets an error, the error and
none of them. The statements on the way are then lost (`items_call`).
-/

namespace SqlScript

/-- What may be asked of the statements of a script. -/
inductive Call where
  /-- The next statement. -/
  | next
  /-- All statements that are left. -/
  | collect
  /-- The number of bytes that were read. -/
  | position
deriving DecidableEq, Repr

/-- The reply to a call. -/
inductive Reply where
  /-- The next statement, or the error, or nothing at the end. -/
  | next (item : Option (Except SplitError Text))
  /-- All statements that were left, or the error. -/
  | collect (outcome : Except SplitError (List Text))
  /-- The number of bytes that were read. -/
  | position (n : Nat)
deriving DecidableEq

namespace Reply

/-- The items that a reply hands out. -/
def items : Reply → List (Except SplitError Text)
  | next item => item.toList
  | collect (.ok ts) => ts.map .ok
  | collect (.error e) => [.error e]
  | position _ => []

/-- Whether the reply tells of the end or of an error. -/
def isLast : Reply → Bool
  | next (some (.ok _)) | position _ => false
  | next (some (.error _)) | next none | collect _ => true

end Reply

/-- The reply to a call when nothing is left and `p` bytes were read. -/
def Call.replyAtEnd (p : Nat) : Call → Reply
  | next => .next none
  | collect => .collect (.ok [])
  | position => .position p

namespace Statements

/-- The reply to a call, and what is left. -/
def call (it : Statements) : Call → Reply × Statements
  | .next => (.next it.next.1, it.next.2)
  | .collect => (.collect it.collect.1, it.collect.2)
  | .position => (.position it.position, it)

/-- The replies to calls, and what is left after them. -/
def calls (it : Statements) : List Call → List Reply × Statements
  | [] => ([], it)
  | c :: cs => ((it.call c).1 :: ((it.call c).2.calls cs).1, ((it.call c).2.calls cs).2)

variable {it : Statements} {c : Call} {cs : List Call}

/-! ### At the end -/

theorem calls_of_finished (h : it.finished = true) (cs : List Call) :
    it.calls cs = (cs.map (Call.replyAtEnd it.position), it) := by
  induction cs with
  | nil => rfl
  | cons c cs ih =>
    have hc : it.call c = (c.replyAtEnd it.position, it) := by
      cases c with
      | next => rw [call, next_of_finished h]; rfl
      | collect => rw [call, collect_of_finished h]; rfl
      | position => rfl
    rw [calls, hc, ih, List.map_cons]

/-- After a reply that tells of the end or of an error nothing is left. -/
theorem finished_call (h : (it.call c).1.isLast = true) : (it.call c).2.finished = true := by
  cases c with
  | next =>
    apply finished_pull
    intro t ht
    have hnext : it.next.1 = some (.ok t) := ht
    rw [call, hnext] at h
    cases h
  | collect => exact finished_collect it
  | position => cases h

theorem finished_calls (h : ∃ reply ∈ (it.calls cs).1, reply.isLast = true) :
    (it.calls cs).2.finished = true := by
  induction cs generalizing it with
  | nil =>
    obtain ⟨reply, hmem, -⟩ := h
    cases hmem
  | cons c cs ih =>
    obtain ⟨reply, hmem, hlast⟩ := h
    rcases List.mem_cons.1 hmem with rfl | hmem
    · have hfin := finished_call hlast
      rw [calls, calls_of_finished hfin]
      exact hfin
    · exact ih ⟨reply, hmem, hlast⟩

/-- Whatever is asked, the run comes to the same end. -/
theorem collect_call (it : Statements) (c : Call) : (it.call c).2.collect.2 = it.collect.2 := by
  cases c with
  | next => exact collect_next it
  | collect =>
    show it.collect.2.collect.2 = it.collect.2
    rw [collect_of_finished (finished_collect it)]
  | position => rfl

theorem collect_calls (it : Statements) (cs : List Call) :
    (it.calls cs).2.collect.2 = it.collect.2 := by
  induction cs generalizing it with
  | nil => rfl
  | cons c cs ih =>
    rw [calls]
    exact (ih (it.call c).2).trans (collect_call it c)

/-! ### What is handed out -/

/-- A call hands out items in their order, or it collects and meets the error. -/
theorem items_call (it : Statements) (c : Call) :
    (it.call c).1.items ++ (it.call c).2.items = it.items ∨
      ∃ (us : List Text) (e : SplitError), (it.call c).1 = .collect (.error e) ∧
        (it.call c).2.items = [] ∧ it.items = us.map .ok ++ [.error e] := by
  cases c with
  | next =>
    left
    show it.next.1.toList ++ it.next.2.items = it.items
    rw [items_next, ← head?_items]
    cases it.items <;> rfl
  | collect =>
    show Reply.items (.collect it.collect.1) ++ it.collect.2.items = it.items ∨
      ∃ (us : List Text) (e : SplitError), Reply.collect it.collect.1 = .collect (.error e) ∧
        it.collect.2.items = [] ∧ it.items = us.map .ok ++ [.error e]
    obtain ⟨us, hus | ⟨e, hus⟩⟩ := items_eq_map it
    · left
      rw [items_collect, collect_fst, hus, gather_ok, List.append_nil]
      rfl
    · right
      refine ⟨us, e, ?_, items_collect it, hus⟩
      rw [collect_fst, hus, gather_error]
  | position => exact Or.inl rfl

/-- What comes before other items are statements. -/
theorem exists_map_of_append {xs ys : List (Except SplitError Text)} (h : it.items = xs ++ ys)
    (hne : ys ≠ []) : ∃ ts : List Text, xs = ts.map .ok := by
  obtain ⟨ts, hts | ⟨e, hts⟩⟩ := items_eq_map it
  · rw [h] at hts
    obtain ⟨us, vs, -, hus, -⟩ := List.append_eq_map_iff.1 hts
    exact ⟨us, hus.symm⟩
  · -- the error is the last of all items, and so it is the last of those that follow
    obtain ⟨zs, z, rfl⟩ := (List.eq_nil_or_concat ys).resolve_left hne
    rw [h, List.concat_eq_append, ← List.append_assoc] at hts
    obtain ⟨us, vs, -, hus, -⟩ := List.append_eq_map_iff.1 (List.append_inj' hts rfl).1
    exact ⟨us, hus.symm⟩

/-- Calls hand out items in their order, up to where collecting meets the error. -/
theorem items_calls (it : Statements) (cs : List Call) :
    (it.calls cs).1.flatMap Reply.items ++ (it.calls cs).2.items = it.items ∨
      ∃ (ts us : List Text) (e : SplitError), .collect (.error e) ∈ (it.calls cs).1 ∧
        (it.calls cs).2.items = [] ∧
        (it.calls cs).1.flatMap Reply.items = ts.map .ok ++ [.error e] ∧
        it.items = (ts ++ us).map .ok ++ [.error e] := by
  induction cs generalizing it with
  | nil => exact Or.inl rfl
  | cons c cs ih =>
    rw [calls]
    dsimp only
    rw [List.flatMap_cons]
    rcases items_call it c with hone | ⟨us, e, hreply, hnil, hus⟩
    · -- what the call handed out comes before what the other calls do
      rcases ih (it.call c).2 with hall | ⟨ts, us, e, hmem, hnil, hts, hus⟩
      · left
        rw [List.append_assoc, hall, hone]
      · right
        rw [hus] at hone
        obtain ⟨vs, hvs⟩ := exists_map_of_append hone.symm (by simp)
        refine ⟨vs ++ ts, us, e, List.mem_cons_of_mem _ hmem, hnil, ?_, ?_⟩
        · rw [hvs, hts, List.map_append, List.append_assoc]
        · rw [← hone, hvs]
          simp
    · -- nothing is left for the other calls
      right
      rcases ih (it.call c).2 with hall | ⟨ts, vs, e', -, -, -, hvs⟩
      · rw [hnil, List.append_eq_nil_iff] at hall
        refine ⟨[], us, e, ?_, hall.2, ?_, hus⟩
        · rw [hreply]
          exact List.mem_cons_self
        · rw [hall.1, hreply]
          rfl
      · rw [hnil] at hvs
        simp at hvs

/-! ### Agreement with one run -/

/-- The replies to calls, and the statements `it` that are left, agree with the full run of a
script. -/
structure Agrees (d : Delimiters) (script : Text) (replies : List Reply) (it : Statements) :
    Prop where
  /-- What was handed out and what is left make up the full run, unless collecting met the error:
  then the statements `us` on the way are lost, and nothing is left. -/
  items : replies.flatMap Reply.items ++ it.items = (ofScript d script).items ∨
    ∃ (ts us : List Text) (e : SplitError), .collect (.error e) ∈ replies ∧ it.items = [] ∧
      replies.flatMap Reply.items = ts.map .ok ++ [.error e] ∧
      (ofScript d script).items = (ts ++ us).map .ok ++ [.error e]
  /-- As long as there was no error, collecting gives all statements that were not handed out, or
  the error of the full run. -/
  collect : (∀ e, .error e ∉ replies.flatMap Reply.items) →
    it.collect.1 =
      gather ((ofScript d script).items.drop (replies.flatMap Reply.items).length)
  /-- Once a reply told of the end or of an error, nothing is handed out, and the position stays. -/
  ended : (∃ reply ∈ replies, reply.isLast = true) →
    ∀ cs, it.calls cs = (cs.map (Call.replyAtEnd it.position), it)
  /-- The position is then the end of the script, if the script is split. -/
  position_ok : (∃ reply ∈ replies, reply.isLast = true) →
    ∀ ts, SqlScript.split d script = .ok ts → it.position = Text.byteLen script
  /-- Otherwise it is the place of the error. -/
  position_error : (∃ reply ∈ replies, reply.isLast = true) →
    ∀ expected p, SqlScript.split d script = .error (.unterminated expected p) → it.position = p

/-- **Calls agree with one full run**, in whatever order statements are asked for one at a time,
collected, and the position is asked for. Collecting from the start is splitting. -/
theorem agrees_calls (d : Delimiters) (script : Text) (cs : List Call) :
    Agrees d script ((ofScript d script).calls cs).1 ((ofScript d script).calls cs).2 ∧
      (ofScript d script).collect.1 = SqlScript.split d script ∧
      SqlScript.split d script = splitTokens d.tokens script ∧
      SqlScript.split d script = gather (ofScript d script).items := by
  have hitems := items_calls (ofScript d script) cs
  -- where nothing is left, the calls came to the end of the run
  have hend (hlast : ∃ reply ∈ ((ofScript d script).calls cs).1, reply.isLast = true) :
      ((ofScript d script).calls cs).2 = (ofTokens d.tokens script).collect.2 := by
    have hcollect := collect_calls (ofScript d script) cs
    rw [collect_of_finished (finished_calls hlast)] at hcollect
    exact hcollect
  refine ⟨⟨hitems, ?_, ?_, ?_, ?_⟩, rfl, rfl, collect_fst _⟩
  · intro hok
    rw [collect_fst]
    rcases hitems with hall | ⟨ts, us, e, -, -, hts, -⟩
    · rw [← hall, List.drop_left]
    · rw [hts] at hok
      exact absurd (by simp) (hok e)
  · intro hlast
    exact calls_of_finished (finished_calls hlast)
  · intro hlast ts hts
    rw [hend hlast]
    exact (position_collect d.tokens script).1 ts hts
  · intro hlast expected p hp
    rw [hend hlast]
    exact (position_collect d.tokens script).2 expected p hp

/-- Collecting after one request meets the error and loses a statement; after that nothing is handed
out, and the position stays where the comment starts. -/
theorem agrees_calls_of_unterminated :
    ((ofScript .standard ['a', ';', 'b', ';', '/', '*']).calls [.next]).2.collect.1 =
        .error (.unterminated ['*', '/'] 4) ∧
      ((ofScript .standard ['a', ';', 'b', ';', '/', '*']).calls
        [.next, .collect]).2.position = 4 ∧
      (((ofScript .standard ['a', ';', 'b', ';', '/', '*']).calls [.next, .collect]).2.calls
        [.next, .collect, .position]).1 = [.next none, .collect (.ok []), .position 4] := by
  have hfirst := (agrees_calls .standard ['a', ';', 'b', ';', '/', '*'] [.next]).1
  have hsecond := (agrees_calls .standard ['a', ';', 'b', ';', '/', '*'] [.next, .collect]).1
  have hone : ((ofScript .standard ['a', ';', 'b', ';', '/', '*']).calls [.next]).1 =
      [.next (some (.ok ['a']))] := by decide +kernel
  have hlast : ∃ reply ∈ ((ofScript .standard ['a', ';', 'b', ';', '/', '*']).calls
      [.next, .collect]).1, reply.isLast = true :=
    ⟨.collect (.error (.unterminated ['*', '/'] 4)), by decide +kernel, rfl⟩
  have hposition := hsecond.position_error hlast ['*', '/'] 4 (by decide +kernel)
  refine ⟨?_, hposition, ?_⟩
  · rw [hfirst.collect (by rw [hone]; simp [Reply.items]), hone]
    decide +kernel
  · rw [hsecond.ended hlast, hposition]
    rfl

end Statements

end SqlScript

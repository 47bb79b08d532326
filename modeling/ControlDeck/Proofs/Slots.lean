import ControlDeck.Proofs.Reading

namespace ControlDeck

def Warning.isEvaluation : Warning → Bool
  | evaluationFailed .. => true
  | _ => false

namespace Slot

/-- What the users of a slot ask of it. -/
inductive Call where
  | update (labels : Option Labels) (text : String)
  | eval (read : Readings)
  | isActive (read : Readings)
  | display (read : Readings)

def apply (s : Slot) : Call → Slot × List Warning
  | .update labels text => s.update labels text
  | .eval read => (s.eval read).2
  | .isActive read => (s.isActive read).2
  | .display read => (s.display read).2

/-- A slot after some calls, and what was logged at each. -/
def run (s : Slot) : List Call → Slot × List (List Warning)
  | [] => (s, [])
  | call :: calls =>
    let (s, warnings) := s.apply call
    let (s, log) := s.run calls
    (s, warnings :: log)

theorem run_cons (s : Slot) (call : Call) (calls : List Call) :
    s.run (call :: calls) =
      let later := (s.apply call).1.run calls
      (later.1, (s.apply call).2 :: later.2) := rfl

/-- The text that a call writes, and what becomes of it. Calls of the past are listed the latest
first, which is the order in which they are looked through. -/
def Call.writing? : Call → Option (String × Except ExpressionError Compiled)
  | update labels text => some (text, Compiled.ofText labels text)
  | eval _ | isActive _ | display _ => none

/-- The expression that a call puts into effect. -/
def Call.compiled? (call : Call) : Option Compiled :=
  call.writing?.bind (·.2.toOption)

/-- Whether a call evaluates an expression in vain, and the evaluation does not break off. -/
def Call.fails (c : Compiled) (format : Formatter) : Call → Bool
  | update .. => false
  | eval read | isActive read | display read =>
    match c.expression.eval read format with
    | .ok _ | .error (.unwritable _) => false
    | .error _ => true

/-- The text that was written last. -/
def written (past : List Call) : String :=
  ((past.findSome? Call.writing?).map (·.1)).getD ""

/-- Why the text that was written last does not compile. -/
def fault? (past : List Call) : Option ExpressionError :=
  match past.findSome? Call.writing? with
  | some (_, .error e) => some e
  | _ => none

/-- The last expression that was put into effect. -/
def effective (past : List Call) : Compiled :=
  (past.findSome? Call.compiled?).getD .empty

/-- The calls since the last one that put an expression into effect. -/
def sinceCompiled (past : List Call) : List Call :=
  past.takeWhile (·.compiled?.isNone)

variable {s : Slot} {call : Call} {past : List Call} {format : Formatter}

theorem effective_cons :
    effective (call :: past) = call.compiled?.getD (effective past) := by
  rw [effective, List.findSome?_cons]
  cases call.compiled? <;> rfl

theorem sinceCompiled_of_some {compiled : Compiled} (h : call.compiled? = some compiled) :
    sinceCompiled (call :: past) = [] := by
  rw [sinceCompiled, List.takeWhile_cons, h]
  rfl

theorem sinceCompiled_of_none (h : call.compiled? = none) :
    sinceCompiled (call :: past) = call :: sinceCompiled past := by
  rw [sinceCompiled, List.takeWhile_cons, h]
  rfl

/-- A call that writes nothing leaves the expression in effect. -/
theorem Call.compiled?_eq_none (h : call.writing? = none) : call.compiled? = none := by
  rw [compiled?, h, Option.bind_none]

/-- What an evaluation makes of a slot: the first one that fails is reported. -/
structure Evaluates (s : Slot) (fails : Bool) (after : Slot × List Warning) : Prop where
  slot : after.1 = { s with reported := fails || s.reported }
  logged : after.2.countP Warning.isEvaluation = (fails && !s.reported).toNat

theorem eval_evaluates (s : Slot) (read : Readings) :
    s.Evaluates ((Call.eval read).fails s.compiled s.format) (s.eval read).2 := by
  rw [eval, Call.fails]
  cases s.compiled.expression.eval read s.format with
  | ok v => exact ⟨rfl, rfl⟩
  | error e =>
    cases e with
    | unwritable pattern => exact ⟨rfl, rfl⟩
    | typeMismatch | invalidOperand | divisionByZero | conversion | format =>
      refine ⟨rfl, ?_⟩
      cases s.reported <;> rfl

/-- An empty expression has a value, so that nothing is lost where it is not evaluated. -/
theorem evaluates_empty (h : s.compiled.isEmpty) (read : Readings) :
    s.Evaluates ((Call.eval read).fails s.compiled s.format) (s, []) := by
  have passes : (Call.eval read).fails s.compiled s.format = false := by
    rw [Call.fails, of_decide_eq_true h]
    rfl
  rw [passes]
  exact ⟨rfl, rfl⟩

theorem isActive_evaluates (s : Slot) (read : Readings) :
    s.Evaluates ((Call.isActive read).fails s.compiled s.format) (s.isActive read).2 := by
  rw [isActive]
  split
  · rename_i empty
    exact evaluates_empty empty read
  · exact s.eval_evaluates read

theorem display_evaluates (s : Slot) (read : Readings) :
    s.Evaluates ((Call.display read).fails s.compiled s.format) (s.display read).2 := by
  rw [display]
  split
  · rename_i empty
    exact evaluates_empty empty read
  · exact s.eval_evaluates read

theorem logged_cons (h : call.compiled? = none) (warnings : List Warning)
    (log : List (List Warning)) :
    ((warnings :: log).take (sinceCompiled (call :: past)).length).flatten.countP
        Warning.isEvaluation =
      warnings.countP Warning.isEvaluation +
        (log.take (sinceCompiled past).length).flatten.countP Warning.isEvaluation := by
  rw [sinceCompiled_of_none h, List.length_cons, List.take_succ_cons, List.flatten_cons,
    List.countP_append]

/-- What a slot holds after some calls, of which those since the last expression was put into effect
logged so much. -/
structure Keeps (s : Slot) (format : Formatter) (past : List Call) (log : List (List Warning)) :
    Prop where
  format_eq : s.format = format
  source : s.source = written past
  compiled : s.compiled = effective past
  lastError : s.lastError = fault? past
  reported : s.reported = (sinceCompiled past).any (·.fails s.compiled format)
  logged : (log.take (sinceCompiled past).length).flatten.countP Warning.isEvaluation =
    s.reported.toNat

namespace Keeps

variable {log : List (List Warning)}

theorem start (format : Formatter) : Keeps { format } format [] [] where
  format_eq := rfl
  source := rfl
  compiled := rfl
  lastError := rfl
  reported := rfl
  logged := rfl

/-- A text that compiles begins anew. -/
theorem compile (h : s.Keeps format past log) {labels : Option Labels} {text : String}
    {compiled : Compiled} (hc : Compiled.ofText labels text = .ok compiled) :
    (s.update labels text).1.Keeps format (.update labels text :: past)
      ((s.update labels text).2 :: log) := by
  have puts : (Call.update labels text).compiled? = some compiled := by
    rw [Call.compiled?, Call.writing?, hc]
    rfl
  rw [update, hc]
  refine ⟨h.format_eq, rfl, ?_, ?_, ?_, ?_⟩
  · rw [effective_cons, puts]
    rfl
  · simp only [fault?, List.findSome?_cons, Call.writing?, hc]
  · rw [sinceCompiled_of_some puts]
    rfl
  · rw [sinceCompiled_of_some puts]
    rfl

/-- A text that does not compile has no part in what is evaluated. -/
theorem keep (h : s.Keeps format past log) {labels : Option Labels} {text : String}
    {e : ExpressionError} (hc : Compiled.ofText labels text = .error e) :
    (s.update labels text).1.Keeps format (.update labels text :: past)
      ((s.update labels text).2 :: log) := by
  have puts : (Call.update labels text).compiled? = none := by
    rw [Call.compiled?, Call.writing?, hc]
    rfl
  rw [update, hc]
  refine ⟨h.format_eq, rfl, ?_, ?_, ?_, ?_⟩
  · rw [effective_cons, puts]
    exact h.compiled
  · simp only [fault?, List.findSome?_cons, Call.writing?, hc]
  · rw [sinceCompiled_of_none puts, List.any_cons]
    exact h.reported
  · rw [logged_cons puts, h.logged]
    exact Nat.zero_add _

theorem evaluate (h : s.Keeps format past log) (hw : call.writing? = none)
    {after : Slot × List Warning} (he : s.Evaluates (call.fails s.compiled format) after) :
    after.1.Keeps format (call :: past) (after.2 :: log) := by
  have puts := Call.compiled?_eq_none hw
  have written : (call :: past).findSome? Call.writing? = past.findSome? Call.writing? := by
    rw [List.findSome?_cons, hw]
  rw [he.slot]
  refine ⟨h.format_eq, ?_, ?_, ?_, ?_, ?_⟩
  · rw [Slot.written, written]
    exact h.source
  · rw [effective_cons, puts]
    exact h.compiled
  · rw [fault?, written]
    exact h.lastError
  · rw [sinceCompiled_of_none puts, List.any_cons, ← h.reported]
  · rw [logged_cons puts, h.logged, he.logged]
    cases s.reported <;> cases call.fails s.compiled format <;> rfl

theorem apply (h : s.Keeps format past log) (call : Call) :
    (s.apply call).1.Keeps format (call :: past) ((s.apply call).2 :: log) := by
  cases call with
  | update labels text =>
    cases hc : Compiled.ofText labels text with
    | ok compiled => exact h.compile hc
    | error e => exact h.keep hc
  | eval read => exact h.evaluate rfl (h.format_eq ▸ s.eval_evaluates read)
  | isActive read => exact h.evaluate rfl (h.format_eq ▸ s.isActive_evaluates read)
  | display read => exact h.evaluate rfl (h.format_eq ▸ s.display_evaluates read)

theorem run (h : s.Keeps format past log) (calls : List Call) :
    (s.run calls).1.Keeps format (calls.reverse ++ past) ((s.run calls).2.reverse ++ log) := by
  induction calls generalizing s past log with
  | nil => exact h
  | cons call calls ih =>
    rw [run_cons, List.reverse_cons, List.reverse_cons, List.append_assoc, List.append_assoc]
    exact ih (h.apply call)

end Keeps

/-- Two slots with the same results. -/
structure Agrees (s s' : Slot) : Prop where
  eval (read : Readings) : (s'.eval read).1 = (s.eval read).1
  isActive (read : Readings) : (s'.isActive read).1 = (s.isActive read).1
  display (read : Readings) : (s'.display read).1 = (s.display read).1

theorem Alike.agrees {s' : Slot} (h : s.Alike s') : s.Agrees s' where
  eval := h.eval
  isActive := h.isActive
  display := h.display

/-- A text that does not compile changes neither results nor what is reported. -/
theorem update_keeps {labels : Option Labels} {text : String}
    (hc : (Call.update labels text).compiled? = none) :
    (s.update labels text).1.reported = s.reported ∧ s.Agrees (s.update labels text).1 := by
  rw [update]
  split
  · rename_i compiled outcome
    rw [Call.compiled?, Call.writing?, outcome] at hc
    exact (Option.some_ne_none compiled hc).elim
  · exact ⟨rfl, Alike.agrees ⟨rfl, rfl⟩⟩

/-- After any calls the expression in effect is the last one that compiled, the text is the one
written last, with its fault if it does not compile, and since the expression was put into effect
one failure was reported if there was any. -/
theorem run_followsUpdates (format : Formatter) (calls : List Call) :
    let (s, log) := run { format } calls
    let past := calls.reverse
    let since := sinceCompiled past
    s.compiled = effective past ∧ s.source = written past ∧ s.lastError = fault? past ∧
      (log.reverse.take since.length).flatten.countP Warning.isEvaluation =
        (if since.any (·.fails (effective past) format) then 1 else 0) ∧
      ∀ labels text, (Call.update labels text).compiled? = none →
        (s.update labels text).1.reported = s.reported ∧ s.Agrees (s.update labels text).1 := by
  have keeps := (Keeps.start format).run calls
  rw [List.append_nil, List.append_nil] at keeps
  refine ⟨keeps.compiled, keeps.source, keeps.lastError, ?_, fun _ _ => update_keeps⟩
  rw [← keeps.compiled]
  exact keeps.logged.trans (keeps.reported ▸ Bool.cond_eq_ite ..)

end Slot

end ControlDeck

import Relational.Migration.Lifecycle
import Relational.Migration.Rehearsal

/-!
# The course of a migration

What a database is told while a migration is applied or reverted, and what the
caller is told in the end, for every way in which the database can answer.

`Course` lists the ways in which it can go, without reference to how it is run.
`Exchange` says that calls were made between two states of a connection, in
order and no others, and that the answers are those of the database.
-/

namespace Relational.Migration

open Schema

variable {σ : Type}

/-- A call of a database with its answer. -/
structure Call where
  command : Command
  answer : Except Error Unit

namespace Call

/-- What a connection keeps of a call. -/
def entry (call : Call) : Entry := .ran call.command call.answer.isOk

/-- The call of a statement that succeeded. -/
def succeeded (sql : String) : Call := ⟨.execute sql, .ok ()⟩

/-- The call of a statement that failed. -/
def failed (sql : String) (cause : Error) : Call := ⟨.execute sql, .error cause⟩

/-- A call that is made only if the dialect has transactions. -/
def ofTransaction (d : Dialect) (command : Command) (answer : Except Error Unit) : List Call :=
  if d.isTransactional then [⟨command, answer⟩] else []

end Call

/-- The calls that were made on a connection: its history without events. -/
def Connection.calls (c : Connection σ) : List Entry :=
  c.history.filter fun
    | .reported _ => false
    | _ => true

namespace Backend

/-- The database, in a state, gives the answers to the commands one after the
other, and is then in another state. -/
def Answers (b : Backend σ) (before : σ) : List Call → σ → Prop
  | [], after => after = before
  | call :: calls, after =>
      (b.perform call.command before).1 = call.answer ∧
        Answers b (b.perform call.command before).2 calls after

/-- Exactly these calls were made between two states of a connection. -/
structure Exchange (b : Backend σ) (before : Connection σ) (calls : List Call)
    (after : Connection σ) : Prop where
  answered : b.Answers before.state calls after.state
  recorded : after.calls = before.calls ++ calls.map Call.entry

end Backend

/-- The ways in which operations can run: from what becomes of writing their
statements, the calls of the database and the result. -/
inductive Course (d : Dialect) (ops : List Operation) :
    Except Error (List String) → List Call → Except Error Unit → Prop
  /-- An operation cannot be written.  The first such operation decides, and the
  database is not called. -/
  | unwritten {ready later : List Operation} {op : Operation} {e : Error}
      (hsplit : ops = ready ++ op :: later)
      (hready : ∀ o ∈ ready, (d.render o).isOk = true)
      (hop : d.render op = .error e) :
      Course d ops (.error e) [] (.error e)
  /-- The transaction does not begin. -/
  | refused {statements : List String} {e : Error} (hd : d.isTransactional = true) :
      Course d ops (.ok statements) [⟨.begin, .error e⟩] (.error e)
  /-- A statement fails.  The completed operations are those before its own. -/
  | failed {completed later : List Operation} {op : Operation} {ran unran : List String}
      {before after : List String} {sql : String} {cause : Error} {answer : Except Error Unit}
      (hsplit : ops = completed ++ op :: later)
      (hcompleted : d.renderAll completed = .ok ran)
      (hop : d.render op = .ok (before ++ sql :: after))
      (hlater : d.renderAll later = .ok unran) :
      Course d ops (.ok (ran ++ (before ++ sql :: after) ++ unran))
        (Call.ofTransaction d .begin (.ok ()) ++ (ran ++ before).map .succeeded ++
          .failed sql cause :: Call.ofTransaction d .rollback answer)
        (.error (.failed op sql completed (d.isTransactional && answer.isOk) cause.message))
  /-- All statements succeed. -/
  | finished {statements : List String} {answer : Except Error Unit} :
      Course d ops (.ok statements)
        (Call.ofTransaction d .begin (.ok ()) ++ statements.map .succeeded ++
          Call.ofTransaction d .commit answer)
        (if d.isTransactional then answer else .ok ())

/-! ## Writing the statements -/

namespace Dialect

/-- An operation that can be written has a statement, so it cannot be completed
before one of its statements has run. -/
theorem render_ne_nil {d : Dialect} {op : Operation} {statements : List String}
    (h : d.render op = .ok statements) : statements ≠ [] := by
  have hmap : ∀ r : Except Error String, r.map ([·]) = .ok statements → statements ≠ [] := by
    rintro (e | sql) hr
    · cases hr
    · cases hr
      exact List.cons_ne_nil sql []
  cases op with
  | createTable schema =>
      simp only [render, createTable] at h
      split at h
      · cases h
        exact List.cons_ne_nil _ _
      · cases h
  | createIndex table index => exact hmap _ h
  | addConstraint table constraint =>
      cases d with
      | generic =>
          simp only [render] at h
          exact hmap _ h
      | sqlite =>
          cases constraint <;> simp only [render] at h <;> exact hmap _ h
  | dropConstraint table constraint =>
      cases d with
      | generic =>
          cases h
          exact List.cons_ne_nil _ _
      | sqlite =>
          cases constraint <;> cases h
          exact List.cons_ne_nil _ _
  | dropTable | addColumn | dropColumn | dropIndex =>
      cases h
      exact List.cons_ne_nil _ _

theorem renderAll_of_rendered {d : Dialect} {rendered : List (Operation × List String)}
    (h : ∀ p ∈ rendered, d.render p.1 = .ok p.2) :
    d.renderAll (rendered.map (·.1)) = .ok (rendered.flatMap (·.2)) := by
  induction rendered with
  | nil => rfl
  | cons p rendered ih =>
      have hrest := ih fun q hq => h q (List.mem_cons_of_mem p hq)
      simp only [List.map_cons, List.flatMap_cons, renderAll, h p List.mem_cons_self, hrest]

theorem render_of_renderEach {d : Dialect} {ops : List Operation}
    {rendered : List (Operation × List String)} (h : renderEach d ops = .ok rendered) :
    rendered.map (·.1) = ops ∧ ∀ p ∈ rendered, d.render p.1 = .ok p.2 := by
  induction ops generalizing rendered with
  | nil =>
      cases h
      exact ⟨rfl, fun p hp => absurd hp List.not_mem_nil⟩
  | cons op ops ih =>
      unfold renderEach at h
      cases hop : d.render op with
      | error e => simp [hop] at h
      | ok statements =>
          cases hops : renderEach d ops with
          | error e => simp [hop, hops] at h
          | ok rest =>
              simp only [hop, hops, Except.ok.injEq] at h
              subst h
              obtain ⟨hmap, hrest⟩ := ih hops
              refine ⟨by rw [List.map_cons, hmap], ?_⟩
              intro p hp
              rcases List.mem_cons.mp hp with rfl | hmem
              · exact hop
              · exact hrest p hmem

/-- If the operations cannot all be written, the first that cannot decides, also
when their statements are asked for without running them. -/
theorem unwritten_of_renderEach {d : Dialect} {ops : List Operation} {e : Error}
    (h : renderEach d ops = .error e) :
    d.renderAll ops = .error e ∧
      ∃ ready op later, ops = ready ++ op :: later ∧
        (∀ o ∈ ready, (d.render o).isOk = true) ∧ d.render op = .error e := by
  induction ops with
  | nil => cases h
  | cons op ops ih =>
      unfold renderEach at h
      cases hop : d.render op with
      | error e' =>
          simp only [hop, Except.error.injEq] at h
          subst h
          exact ⟨by rw [renderAll, hop], [], op, ops, rfl,
            fun o ho => absurd ho List.not_mem_nil, hop⟩
      | ok statements =>
          cases hops : renderEach d ops with
          | ok rest => simp [hop, hops] at h
          | error e' =>
              simp only [hop, hops, Except.error.injEq] at h
              subst h
              obtain ⟨hall, ready, bad, later, hsplit, hready, hbad⟩ := ih hops
              refine ⟨?_, op :: ready, bad, later, ?_, ?_, hbad⟩
              · simp only [renderAll, hop, hall]
              · rw [hsplit, List.cons_append]
              · intro o ho
                rcases List.mem_cons.mp ho with rfl | hmem
                · rw [hop]
                  rfl
                · exact hready o hmem

end Dialect

/-! ## Exchanges one after the other -/

namespace Backend

theorem Answers.append {b : Backend σ} {s s' s'' : σ} {first second : List Call}
    (hfirst : b.Answers s first s') (hsecond : b.Answers s' second s'') :
    b.Answers s (first ++ second) s'' := by
  induction first generalizing s with
  | nil =>
      cases hfirst
      exact hsecond
  | cons call first ih => exact ⟨hfirst.1, ih hfirst.2⟩

theorem Exchange.append {b : Backend σ} {c c' c'' : Connection σ} {first second : List Call}
    (hfirst : b.Exchange c first c') (hsecond : b.Exchange c' second c'') :
    b.Exchange c (first ++ second) c'' where
  answered := hfirst.answered.append hsecond.answered
  recorded := by
    rw [hsecond.recorded, hfirst.recorded, List.map_append, List.append_assoc]

theorem exchange_nil (b : Backend σ) (c : Connection σ) : b.Exchange c [] c where
  answered := rfl
  recorded := (List.append_nil _).symm

theorem exchange_report (b : Backend σ) (c : Connection σ) (events : List Event) :
    b.Exchange c [] (c.report events) where
  answered := rfl
  recorded := by
    simp [Connection.calls, Connection.report, List.filter_append, List.filter_map,
      Function.comp_def]

theorem exchange_run (b : Backend σ) (command : Command) (c : Connection σ) :
    b.Exchange c [⟨command, (b.run command c).1⟩] (b.run command c).2 where
  answered := ⟨rfl, rfl⟩
  recorded := by
    simp only [Connection.calls, run, List.filter_append, List.map_singleton]
    rfl

/-! ## Running -/

/-- Statements run up to the first that fails. -/
theorem runStatements_spec (b : Backend σ) (statements : List String) (c : Connection σ) :
    ((b.runStatements statements c).1 = none ∧
      b.Exchange c (statements.map .succeeded) (b.runStatements statements c).2) ∨
    ∃ before sql after cause, statements = before ++ sql :: after ∧
      (b.runStatements statements c).1 = some (sql, cause) ∧
      b.Exchange c (before.map .succeeded ++ [.failed sql cause])
        (b.runStatements statements c).2 := by
  induction statements generalizing c with
  | nil => exact Or.inl ⟨rfl, b.exchange_nil c⟩
  | cons sql rest ih =>
      have hcall := b.exchange_run (.execute sql) c
      unfold runStatements
      rcases hrun : b.run (.execute sql) c with ⟨answer, next⟩
      rw [hrun] at hcall
      cases answer with
      | error cause => exact Or.inr ⟨[], sql, rest, cause, rfl, rfl, hcall⟩
      | ok _ =>
          rcases ih next with
            ⟨hnone, hexchange⟩ | ⟨before, bad, after, cause, hsplit, hsome, hexchange⟩
          · exact Or.inl ⟨hnone, hcall.append hexchange⟩
          · refine Or.inr ⟨sql :: before, bad, after, cause, ?_, hsome, hcall.append hexchange⟩
            rw [hsplit, List.cons_append]

/-- Operations run up to the first one with a statement that fails; those before
it are completed. -/
theorem runOperations_spec (b : Backend σ) (completed : List Operation)
    (rendered : List (Operation × List String)) (c : Connection σ) :
    ((b.runOperations completed rendered c).1 = none ∧
      b.Exchange c ((rendered.flatMap (·.2)).map .succeeded)
        (b.runOperations completed rendered c).2) ∨
    ∃ done op before sql after later cause,
      rendered = done ++ (op, before ++ sql :: after) :: later ∧
      (b.runOperations completed rendered c).1 =
        some ⟨op, sql, completed ++ done.map (·.1), cause⟩ ∧
      b.Exchange c ((done.flatMap (·.2) ++ before).map .succeeded ++ [.failed sql cause])
        (b.runOperations completed rendered c).2 := by
  -- The completed operations grow with every step, so the induction is for any of
  -- them.
  induction rendered generalizing completed c with
  | nil => exact Or.inl ⟨rfl, b.exchange_nil c⟩
  | cons p rest ih =>
      obtain ⟨op, statements⟩ := p
      have hstart := b.exchange_report c
        [⟨.debug, "Running operation", [("operation", op.description)]⟩]
      have hspec := b.runStatements_spec statements
        (c.report [⟨.debug, "Running operation", [("operation", op.description)]⟩])
      rcases hrun : b.runStatements statements
        (c.report [⟨.debug, "Running operation", [("operation", op.description)]⟩])
        with ⟨outcome, next⟩
      rw [hrun] at hspec
      rcases hspec with ⟨hnone, hran⟩ | ⟨before, sql, after, cause, hsplit, hsome, hran⟩
      · cases hnone
        have hnext : b.runOperations completed ((op, statements) :: rest) c =
            b.runOperations (completed ++ [op]) rest next := by
          simp only [runOperations, hrun]
        rw [hnext]
        rcases ih (completed ++ [op]) next with
          ⟨hnone, hexchange⟩ |
            ⟨done, bad, before, sql, after, later, cause, hsplit, hsome, hexchange⟩
        · have h := (hstart.append hran).append hexchange
          exact Or.inl ⟨hnone, by simpa using h⟩
        · refine Or.inr
            ⟨(op, statements) :: done, bad, before, sql, after, later, cause, ?_, ?_, ?_⟩
          · rw [hsplit, List.cons_append]
          · rw [hsome, List.map_cons, List.append_assoc, List.singleton_append]
          · have h := (hstart.append hran).append hexchange
            simpa using h
      · cases hsome
        have hstop : b.runOperations completed ((op, statements) :: rest) c =
            (some ⟨op, sql, completed, cause⟩, next) := by
          simp only [runOperations, hrun]
        rw [hstop]
        refine Or.inr ⟨[], op, before, sql, after, rest, cause, ?_, ?_, ?_⟩
        · rw [hsplit, List.nil_append]
        · rw [List.map_nil, List.append_nil]
        · exact hstart.append hran

theorem enter_spec (b : Backend σ) (c : Connection σ) :
    ((b.enter c).1 = .ok () ∧
      b.Exchange c (Call.ofTransaction b.dialect .begin (.ok ())) (b.enter c).2) ∨
    ∃ e, b.dialect.isTransactional = true ∧ (b.enter c).1 = .error e ∧
      b.Exchange c [⟨.begin, .error e⟩] (b.enter c).2 := by
  have hcall := b.exchange_run .begin c
  unfold enter Call.ofTransaction
  by_cases hd : b.dialect.isTransactional = true
  · rw [if_pos hd, if_pos hd]
    cases hanswer : (b.run .begin c).1 with
    | ok _ =>
        rw [hanswer] at hcall
        exact Or.inl ⟨rfl, hcall⟩
    | error e =>
        rw [hanswer] at hcall
        exact Or.inr ⟨e, hd, rfl, hcall⟩
  · rw [if_neg hd, if_neg hd]
    exact Or.inl ⟨rfl, b.exchange_nil c⟩

theorem leave_spec (b : Backend σ) (c : Connection σ) :
    ∃ answer, (b.leave c).1 = (if b.dialect.isTransactional then answer else .ok ()) ∧
      b.Exchange c (Call.ofTransaction b.dialect .commit answer) (b.leave c).2 := by
  refine ⟨(b.run .commit c).1, ?_⟩
  unfold leave Call.ofTransaction
  by_cases hd : b.dialect.isTransactional = true
  · rw [if_pos hd, if_pos hd, if_pos hd]
    exact ⟨rfl, b.exchange_run .commit c⟩
  · rw [if_neg hd, if_neg hd, if_neg hd]
    exact ⟨rfl, b.exchange_nil c⟩

theorem recover_spec (b : Backend σ) (c : Connection σ) :
    ∃ answer, (b.recover c).1 = (b.dialect.isTransactional && answer.isOk) ∧
      b.Exchange c (Call.ofTransaction b.dialect .rollback answer) (b.recover c).2 := by
  refine ⟨(b.run .rollback c).1, ?_⟩
  have hcall := b.exchange_run .rollback c
  unfold recover Call.ofTransaction
  by_cases hd : b.dialect.isTransactional = true
  · rw [if_pos hd, if_pos hd, hd, Bool.true_and]
    rcases hrun : b.run .rollback c with ⟨answer, next⟩
    rw [hrun] at hcall
    cases answer with
    | ok _ => exact ⟨rfl, hcall⟩
    | error e => exact ⟨rfl, hcall.append (b.exchange_report next _)⟩
  · rw [if_neg hd, if_neg hd, (Bool.not_eq_true _).mp hd]
    exact ⟨rfl, b.exchange_nil c⟩

theorem runRendered_spec {b : Backend σ} {rendered : List (Operation × List String)}
    (hrendered : ∀ p ∈ rendered, b.dialect.render p.1 = .ok p.2) (c : Connection σ) :
    ∃ calls, b.Exchange c calls (b.runRendered rendered c).2 ∧
      Course b.dialect (rendered.map (·.1)) (.ok (rendered.flatMap (·.2))) calls
        (b.runRendered rendered c).1 := by
  have henter := b.enter_spec c
  unfold runRendered
  rcases hentered : b.enter c with ⟨answer, entered⟩
  rw [hentered] at henter
  rcases henter with ⟨hok, hbegin⟩ | ⟨e, hd, herror, hbegin⟩
  · cases hok
    have hoperations := b.runOperations_spec [] rendered entered
    rcases hran : b.runOperations [] rendered entered with ⟨outcome, ran⟩
    rw [hran] at hoperations
    rcases hoperations with
      ⟨hnone, hall⟩ | ⟨done, op, before, sql, after, later, cause, hsplit, hsome, hfailed⟩
    · cases hnone
      obtain ⟨answer, hresult, hcommit⟩ := b.leave_spec ran
      simp only [hran, hresult]
      exact ⟨_, (hbegin.append hall).append hcommit, .finished⟩
    · cases hsome
      obtain ⟨answer, hresult, hrollback⟩ := b.recover_spec ran
      simp only [hran, hresult]
      refine ⟨_, (hbegin.append hfailed).append hrollback, ?_⟩
      subst hsplit
      have hdone := Dialect.renderAll_of_rendered fun p hp =>
        hrendered p (List.mem_append_left _ hp)
      have hop := hrendered (op, before ++ sql :: after) (by simp)
      have hlater := Dialect.renderAll_of_rendered fun p hp =>
        hrendered p (List.mem_append_right _ (List.mem_cons_of_mem _ hp))
      have hcourse : Course b.dialect _ _ _ (.error (.failed op sql (done.map (·.1))
          (b.dialect.isTransactional && answer.isOk) cause.message)) :=
        .failed rfl hdone hop hlater
      simpa using hcourse
  · cases herror
    exact ⟨_, hbegin, .refused hd⟩

/-- Operations run in one of the ways of a course.  The statements that are run
are those that are shown when they are asked for without running them. -/
theorem execute_spec (b : Backend σ) (ops : List Operation) (c : Connection σ) :
    ∃ calls, b.Exchange c calls (b.execute ops c).2 ∧
      Course b.dialect ops (b.dialect.renderAll ops) calls (b.execute ops c).1 := by
  have hreport := b.exchange_report c (b.dialect.renderAllEvents ops)
  simp only [execute]
  cases hrender : renderEach b.dialect ops with
  | error e =>
      obtain ⟨hall, ready, op, later, hsplit, hready, hop⟩ :=
        Dialect.unwritten_of_renderEach hrender
      rw [hall]
      exact ⟨[], hreport, .unwritten hsplit hready hop⟩
  | ok rendered =>
      obtain ⟨hops, hrendered⟩ := Dialect.render_of_renderEach hrender
      obtain ⟨calls, hexchange, hcourse⟩ :=
        runRendered_spec hrendered (c.report (b.dialect.renderAllEvents ops))
      subst hops
      rw [Dialect.renderAll_of_rendered hrendered]
      exact ⟨calls, hreport.append hexchange, hcourse⟩

end Backend

/-! ## Applying and reverting -/

/-- A migration after a call that leads to a stage.  Only a call that succeeds gets there. -/
def after (m : Migration) (stage : Stage) : Except Error Unit → Migration
  | .ok _ => { m with stage }
  | .error _ => m

@[simp] theorem after_ok (m : Migration) (stage : Stage) (done : Unit) :
    m.after stage (.ok done) = { m with stage } := rfl

@[simp] theorem after_error (m : Migration) (stage : Stage) (e : Error) :
    m.after stage (.error e) = m := rfl

/-- Runs operations of a migration on its way to a stage, between events that announce them
and events that tell of their success. -/
def advance (m : Migration) (stage : Stage) (announced finished : List Event)
    (ops : List Operation) (b : Backend σ) (c : Connection σ) : Outcome σ :=
  match b.execute ops (c.report announced) with
  | (.error e, c) => ⟨.error e, m, c⟩
  | (.ok (), c) => ⟨.ok (), { m with stage }, c.report finished⟩

theorem advance_spec (m : Migration) (stage : Stage) (announced finished : List Event)
    (ops : List Operation) (b : Backend σ) (c : Connection σ) :
    ∃ calls result next, b.Exchange c calls next ∧
      Course b.dialect ops (b.dialect.renderAll ops) calls result ∧
      m.advance stage announced finished ops b c = ⟨result, m.after stage result, next⟩ := by
  have hstart := b.exchange_report c announced
  obtain ⟨calls, hexchange, hcourse⟩ := b.execute_spec ops (c.report announced)
  unfold advance
  rcases hrun : b.execute ops (c.report announced) with ⟨result, next⟩
  rw [hrun] at hexchange hcourse
  cases result with
  | error e => exact ⟨calls, .error e, next, hstart.append hexchange, hcourse, rfl⟩
  | ok _ =>
      have hfinish := hexchange.append (b.exchange_report next finished)
      rw [List.append_nil] at hfinish
      exact ⟨calls, .ok (), next.report finished, hstart.append hfinish, hcourse, rfl⟩

theorem apply_of_applied {m : Migration} (h : m.stage = .applied) (b : Backend σ)
    (c : Connection σ) :
    m.apply b c =
      ⟨.error (.invalidState ("migration for '" ++ m.table ++ "' is already applied")), m, c⟩ := by
  rw [apply, if_pos h]

theorem revert_of_not_applied {m : Migration} (h : m.stage ≠ .applied) (b : Backend σ)
    (c : Connection σ) :
    m.revert b c = ⟨.error (.invalidState ("migration for '" ++ m.table ++ "' is " ++
      m.stage.name ++ ", only an applied migration can be reverted")), m, c⟩ := by
  rw [revert, if_pos h]

theorem apply_eq_advance {m : Migration} (h : m.stage ≠ .applied) (b : Backend σ)
    (c : Connection σ) :
    m.apply b c = m.advance .applied
      [⟨.info, "Applying migration",
        [("table", m.table), ("operations", toString m.operations.length)]⟩]
      [⟨.info, "Migration applied successfully", [("table", m.table)]⟩] m.operations b c := by
  rw [apply, if_neg h]
  rfl

theorem revert_eq_advance {m : Migration} (h : m.stage = .applied) (b : Backend σ)
    (c : Connection σ) :
    m.revert b c = m.advance .reverted
      (⟨.info, "Reverting migration", [("table", m.table)]⟩ ::
        (m.inverseOperations.filter Operation.isDestructive).map fun op =>
          ⟨.warn, "Revert discards data", [("operation", op.description)]⟩)
      [⟨.info, "Migration reverted successfully", [("table", m.table)]⟩]
      m.inverseOperations b c := by
  rw [revert, if_neg (fun hne => hne h)]
  rfl

/-- What a database sees of a migration, what the caller is told, and what is left of the
migration.  To apply a migration is to run its operations, and to revert it is to run their
inverses from the last to the first, each in one of the ways of a course with the
statements that are shown beforehand; the migration moves on only if all went
well.  Every operation that can be written has a statement. -/
theorem apply_revert_course (m : Migration) (b : Backend σ) (c : Connection σ) :
    (m.stage ≠ .applied → ∃ calls result next, b.Exchange c calls next ∧
      Course b.dialect m.operations (m.sql b.dialect) calls result ∧
      m.apply b c = ⟨result, m.after .applied result, next⟩) ∧
    (m.stage = .applied → ∃ calls result next, b.Exchange c calls next ∧
      Course b.dialect m.inverseOperations (m.revertSql b.dialect) calls result ∧
      m.revert b c = ⟨result, m.after .reverted result, next⟩) ∧
    (∀ op statements, b.dialect.render op = .ok statements → statements ≠ []) := by
  refine ⟨?_, ?_, fun op statements h => Dialect.render_ne_nil h⟩
  · intro h
    rw [apply_eq_advance h, sql]
    exact m.advance_spec _ _ _ m.operations b c
  · intro h
    rw [revert_eq_advance h, revertSql]
    exact m.advance_spec _ _ _ m.inverseOperations b c

/-- The index of a new table is refused: the table is created and the creation is
rolled back.  The revert of the same migration goes through. -/
theorem apply_revert_course_index_refused :
    let schema : Table :=
      { name := "t", columns := [.ofType "a" .text],
        indexes := [(Index.onColumns ["a"]).named "ix"] }
    let m : Migration := { table := "t", operations := [.createTable schema] }
    let applied : Migration := { m with stage := .applied }
    let b := Rehearsal.backend .sqlite
    let c := Connection.start (Rehearsal.empty.refuse ⟨.execute, .io "full", "INDEX"⟩)
    (m.stage ≠ .applied ∧ applied.stage = .applied) ∧
      (m.apply b c).connection.calls =
        [.ran .begin true, .ran (.execute "CREATE TABLE \"t\" (\n  \"a\" TEXT\n)") true,
          .ran (.execute "CREATE  INDEX \"ix\" ON \"t\" (\"a\")") false, .ran .rollback true] ∧
      (m.apply b c).migration = m ∧
      (∃ calls result next, b.Exchange c calls next ∧
        Course b.dialect m.operations (m.sql b.dialect) calls result ∧
        m.apply b c = ⟨result, m.after .applied result, next⟩) ∧
      ∃ calls result next, b.Exchange c calls next ∧
        Course b.dialect applied.inverseOperations (applied.revertSql b.dialect) calls result ∧
        applied.revert b c = ⟨result, applied.after .reverted result, next⟩ := by
  intro schema m applied b c
  have hm : m.stage ≠ .applied := by decide
  have happlied : applied.stage = .applied := rfl
  refine ⟨⟨hm, happlied⟩, ?_, ?_, (apply_revert_course m b c).1 hm,
    (apply_revert_course applied b c).2.1 happlied⟩
  · decide
  · decide

end Relational.Migration

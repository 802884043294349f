import Relational.Proofs.Migration.Course

/-!
# Transactions that are left open

When migrations are applied and reverted one after the other on a database with
transactions, each call that begins a transaction ends it, by a commit or by the
rollback after a failed statement.  The exception is a commit that fails: it is
reported and nothing else is done, so the transaction stays open, and whatever
is called next begins another one inside it.

The calls of one job come in one of four forms (`Block`).  What a block does to
an open transaction is read off its form, and a run is a list of blocks.
-/

namespace Relational.Migration

open Schema

variable {σ : Type}

/-- Something that is done with a migration. -/
inductive Job where
  | apply (m : Migration)
  | revert (m : Migration)

/-- The connection after a job, however it ended. -/
def Job.run (b : Backend σ) (c : Connection σ) : Job → Connection σ
  | .apply m => (m.apply b c).connection
  | .revert m => (m.revert b c).connection

/-- The connection after jobs, one after the other. -/
def runJobs (b : Backend σ) (jobs : List Job) (c : Connection σ) : Connection σ :=
  jobs.foldl (Job.run b) c

/-- Whether a transaction is open after a call, given whether one was before. -/
def Entry.leavesOpen (wasOpen : Bool) : Entry → Bool
  | .ran .begin true => true
  | .ran .commit true => false
  | .ran .rollback true => false
  | _ => wasOpen

/-- Whether a transaction is open after calls. -/
def isOpenAfter (wasOpen : Bool) (calls : List Entry) : Bool :=
  calls.foldl Entry.leavesOpen wasOpen

/-- Whether a transaction is begun while an earlier one is open. -/
def BeginsWhileOpen (wasOpen : Bool) (calls : List Entry) : Prop :=
  ∃ earlier began later, calls = earlier ++ .ran .begin began :: later ∧
    isOpenAfter wasOpen earlier = true

/-- Whether something is called after a commit that failed. -/
def GoesOnAfterFailedCommit (calls : List Entry) : Prop :=
  ∃ earlier next later, calls = earlier ++ .ran .commit false :: next :: later

/-! ## Call by call -/

theorem isOpenAfter_cons (wasOpen : Bool) (call : Entry) (calls : List Entry) :
    isOpenAfter wasOpen (call :: calls) = isOpenAfter (call.leavesOpen wasOpen) calls := rfl

theorem isOpenAfter_append (wasOpen : Bool) (first second : List Entry) :
    isOpenAfter wasOpen (first ++ second) = isOpenAfter (isOpenAfter wasOpen first) second :=
  List.foldl_append

@[simp] theorem not_beginsWhileOpen_nil (wasOpen : Bool) : ¬ BeginsWhileOpen wasOpen [] := by
  rintro ⟨earlier, began, later, hsplit, -⟩
  simp at hsplit

@[simp] theorem not_goesOnAfterFailedCommit_nil : ¬ GoesOnAfterFailedCommit [] := by
  rintro ⟨earlier, next, later, hsplit⟩
  simp at hsplit

theorem beginsWhileOpen_cons {wasOpen : Bool} {call : Entry} {calls : List Entry} :
    BeginsWhileOpen wasOpen (call :: calls) ↔
      (wasOpen = true ∧ ∃ began, call = .ran .begin began) ∨
        BeginsWhileOpen (call.leavesOpen wasOpen) calls := by
  constructor
  · rintro ⟨earlier, began, later, hsplit, hopen⟩
    cases earlier with
    | nil =>
        obtain ⟨rfl, -⟩ := List.cons.inj hsplit
        exact Or.inl ⟨hopen, began, rfl⟩
    | cons first earlier =>
        obtain ⟨rfl, hcalls⟩ := List.cons.inj hsplit
        exact Or.inr ⟨earlier, began, later, hcalls, hopen⟩
  · rintro (⟨hopen, began, rfl⟩ | ⟨earlier, began, later, rfl, hopen⟩)
    · exact ⟨[], began, calls, rfl, hopen⟩
    · exact ⟨call :: earlier, began, later, rfl, hopen⟩

theorem goesOnAfterFailedCommit_cons {call : Entry} {calls : List Entry} :
    GoesOnAfterFailedCommit (call :: calls) ↔
      (call = .ran .commit false ∧ calls ≠ []) ∨ GoesOnAfterFailedCommit calls := by
  constructor
  · rintro ⟨earlier, next, later, hsplit⟩
    cases earlier with
    | nil =>
        obtain ⟨rfl, hcalls⟩ := List.cons.inj hsplit
        exact Or.inl ⟨rfl, hcalls ▸ List.cons_ne_nil next later⟩
    | cons first earlier =>
        obtain ⟨rfl, hcalls⟩ := List.cons.inj hsplit
        exact Or.inr ⟨earlier, next, later, hcalls⟩
  · rintro (⟨rfl, hcalls⟩ | ⟨earlier, next, later, rfl⟩)
    · obtain ⟨next, later, rfl⟩ := List.exists_cons_of_ne_nil hcalls
      exact ⟨[], next, later, rfl⟩
    · exact ⟨call :: earlier, next, later, rfl⟩

/-- The calls of statements that succeeded. -/
def statementCalls (statements : List String) : List Entry :=
  statements.map fun sql => .ran (.execute sql) true

theorem statementCalls_cons (sql : String) (statements : List String) :
    statementCalls (sql :: statements) =
      .ran (.execute sql) true :: statementCalls statements := rfl

@[simp] theorem mem_statementCalls {call : Entry} {statements : List String} :
    call ∈ statementCalls statements ↔ ∃ sql ∈ statements, .ran (.execute sql) true = call :=
  List.mem_map

@[simp] theorem isOpenAfter_statementCalls (wasOpen : Bool) (statements : List String)
    (rest : List Entry) :
    isOpenAfter wasOpen (statementCalls statements ++ rest) = isOpenAfter wasOpen rest := by
  induction statements with
  | nil => rfl
  | cons sql statements ih => exact ih

@[simp] theorem beginsWhileOpen_statementCalls {wasOpen : Bool} {statements : List String}
    {rest : List Entry} :
    BeginsWhileOpen wasOpen (statementCalls statements ++ rest) ↔
      BeginsWhileOpen wasOpen rest := by
  induction statements with
  | nil => rfl
  | cons sql statements ih =>
      rw [statementCalls_cons, List.cons_append, beginsWhileOpen_cons]
      simpa [Entry.leavesOpen] using ih

@[simp] theorem goesOnAfterFailedCommit_statementCalls {statements : List String}
    {rest : List Entry} :
    GoesOnAfterFailedCommit (statementCalls statements ++ rest) ↔
      GoesOnAfterFailedCommit rest := by
  induction statements with
  | nil => rfl
  | cons sql statements ih =>
      rw [statementCalls_cons, List.cons_append, goesOnAfterFailedCommit_cons]
      simpa using ih

/-! ## Job by job -/

/-- The calls that one job makes on a database with transactions on which no
rollback fails. -/
inductive Block : List Entry → Prop
  /-- Nothing is called. -/
  | idle : Block []
  /-- The transaction does not begin. -/
  | refused : Block [.ran .begin false]
  /-- A statement fails, and the transaction is rolled back. -/
  | rolledBack (ran : List String) (sql : String) :
      Block (.ran .begin true ::
        (statementCalls ran ++ [.ran (.execute sql) false, .ran .rollback true]))
  /-- All statements succeed, and a commit is tried. -/
  | ended (ran : List String) (committed : Bool) :
      Block (.ran .begin true :: (statementCalls ran ++ [.ran .commit committed]))

theorem Block.of_course {d : Dialect} (hd : d.isTransactional = true) {ops : List Operation}
    {statements : Except Error (List String)} {calls : List Call} {result : Except Error Unit}
    (hcourse : Course d ops statements calls result)
    (hrollback : .ran .rollback false ∉ calls.map Call.entry) :
    Block (calls.map Call.entry) := by
  have hstatements : ∀ ran : List String,
      (ran.map Call.succeeded).map Call.entry = statementCalls ran := by
    intro ran
    rw [List.map_map]
    rfl
  cases hcourse with
  | unwritten => exact .idle
  | refused => exact .refused
  | @failed completed later op ran unran before after sql cause answer =>
      simp only [Call.ofTransaction, hd, if_true] at hrollback ⊢
      cases answer with
      | error e => simp [Call.entry, Except.isOk, Except.toBool] at hrollback
      | ok _ =>
          have hblock := Block.rolledBack (ran ++ before) sql
          rw [← hstatements] at hblock
          simpa [Call.entry, Call.failed, Except.isOk, Except.toBool] using hblock
  | @finished statements answer =>
      simp only [Call.ofTransaction, hd, if_true]
      have hblock := Block.ended statements answer.isOk
      rw [← hstatements] at hblock
      simpa [Call.entry, Except.isOk, Except.toBool] using hblock

theorem Job.exists_block {b : Backend σ} (hd : b.dialect.isTransactional = true) (job : Job)
    (c : Connection σ) :
    ∃ own, (job.run b c).calls = c.calls ++ own ∧
      (.ran .rollback false ∉ own → Block own) := by
  cases job with
  | apply m =>
      by_cases hstage : m.stage = .applied
      · refine ⟨[], ?_, fun _ => .idle⟩
        rw [Job.run, apply_of_applied hstage, List.append_nil]
      · obtain ⟨calls, result, next, hexchange, hcourse, hleft⟩ :=
          m.advance_spec .applied _ _ m.operations b c
        rw [Job.run, apply_eq_advance hstage, hleft]
        exact ⟨_, hexchange.recorded, Block.of_course hd hcourse⟩
  | revert m =>
      by_cases hstage : m.stage = .applied
      · obtain ⟨calls, result, next, hexchange, hcourse, hleft⟩ :=
          m.advance_spec .reverted _ _ m.inverseOperations b c
        rw [Job.run, revert_eq_advance hstage, hleft]
        exact ⟨_, hexchange.recorded, Block.of_course hd hcourse⟩
      · refine ⟨[], ?_, fun _ => .idle⟩
        rw [Job.run, revert_of_not_applied hstage, List.append_nil]

/-- A block leaves a transaction open if its commit failed, or if it began none
and one was open before. -/
theorem Block.isOpenAfter_iff {own : List Entry} (h : Block own) (wasOpen : Bool) :
    isOpenAfter wasOpen own = true ↔
      .ran .commit false ∈ own ∨ (wasOpen = true ∧ .ran .begin true ∉ own) := by
  cases h with
  | idle => simp [isOpenAfter]
  | refused => simp [isOpenAfter, Entry.leavesOpen]
  | rolledBack ran sql =>
      rw [isOpenAfter_cons, isOpenAfter_statementCalls]
      simp [isOpenAfter, Entry.leavesOpen]
  | ended ran committed =>
      rw [isOpenAfter_cons, isOpenAfter_statementCalls]
      cases committed with
      | false => simp [isOpenAfter, Entry.leavesOpen]
      | true => simp [isOpenAfter, Entry.leavesOpen]

/-- The only begin of a block is its first call. -/
theorem Block.beginsWhileOpen_iff {own : List Entry} (h : Block own) (wasOpen : Bool) :
    BeginsWhileOpen wasOpen own ↔ wasOpen = true ∧ own ≠ [] := by
  cases h with
  | idle => simp
  | refused => simp [beginsWhileOpen_cons]
  | rolledBack ran sql => simp [beginsWhileOpen_cons]
  | ended ran committed => simp [beginsWhileOpen_cons]

/-- The only commit of a block is its last call. -/
theorem Block.goesOnAfterFailedCommit_append_iff {own : List Entry} (h : Block own)
    (rest : List Entry) :
    GoesOnAfterFailedCommit (own ++ rest) ↔
      (.ran .commit false ∈ own ∧ rest ≠ []) ∨ GoesOnAfterFailedCommit rest := by
  cases h with
  | idle => simp
  | refused => simp [goesOnAfterFailedCommit_cons]
  | rolledBack ran sql => simp [goesOnAfterFailedCommit_cons]
  | ended ran committed => simp [goesOnAfterFailedCommit_cons]

theorem beginsWhileOpen_append {wasOpen : Bool} {first second : List Entry} :
    BeginsWhileOpen wasOpen (first ++ second) ↔
      BeginsWhileOpen wasOpen first ∨
        BeginsWhileOpen (isOpenAfter wasOpen first) second := by
  induction first generalizing wasOpen with
  | nil => simp [isOpenAfter]
  | cons call first ih =>
      rw [List.cons_append, beginsWhileOpen_cons, beginsWhileOpen_cons, ih, isOpenAfter_cons,
        or_assoc]

/-- In a run, a transaction is begun while another one is open exactly if one was
open at the start, or if something is called after a failed commit. -/
theorem beginsWhileOpen_flatten_iff {blocks : List (List Entry)}
    (h : ∀ own ∈ blocks, Block own) (wasOpen : Bool) :
    BeginsWhileOpen wasOpen blocks.flatten ↔
      (wasOpen = true ∧ blocks.flatten ≠ []) ∨ GoesOnAfterFailedCommit blocks.flatten := by
  induction blocks generalizing wasOpen with
  | nil => simp
  | cons own blocks ih =>
      have hown := h own List.mem_cons_self
      have hrest := ih (fun o ho => h o (List.mem_cons_of_mem own ho)) (isOpenAfter wasOpen own)
      rw [List.flatten_cons, beginsWhileOpen_append, hown.beginsWhileOpen_iff, hrest,
        hown.isOpenAfter_iff, hown.goesOnAfterFailedCommit_append_iff]
      -- Without calls of its own, a job hands on what it found.
      by_cases hidle : own = []
      · subst hidle
        simp
      · have hcalls : own ++ blocks.flatten ≠ [] := List.append_ne_nil_of_left_ne_nil hidle _
        grind

theorem runJobs_append (b : Backend σ) (first second : List Job) (c : Connection σ) :
    runJobs b (first ++ second) c = runJobs b second (runJobs b first c) :=
  List.foldl_append

/-- The calls of a run are those of its jobs. -/
theorem exists_blocks_of_runJobs {b : Backend σ} (hd : b.dialect.isTransactional = true)
    (jobs : List Job) (c : Connection σ) :
    ∃ blocks : List (List Entry),
      (runJobs b jobs c).calls = c.calls ++ blocks.flatten ∧
      (.ran .rollback false ∉ blocks.flatten → ∀ own ∈ blocks, Block own) := by
  induction jobs generalizing c with
  | nil => exact ⟨[], (List.append_nil _).symm, fun _ own hown => absurd hown List.not_mem_nil⟩
  | cons job jobs ih =>
      obtain ⟨own, hcalls, hblock⟩ := job.exists_block hd c
      obtain ⟨blocks, hrest, hblocks⟩ := ih (job.run b c)
      refine ⟨own :: blocks, ?_, ?_⟩
      · rw [List.flatten_cons, ← List.append_assoc, ← hcalls, ← hrest]
        rfl
      · rw [List.flatten_cons]
        intro hrollback o ho
        rcases List.mem_cons.mp ho with rfl | hmem
        · exact hblock fun h => hrollback (List.mem_append_left _ h)
        · exact hblocks (fun h => hrollback (List.mem_append_right _ h)) o hmem

/-- A failed commit is the only thing that leaves a transaction open.  If no
rollback fails in a run of jobs on a database with transactions, then a
transaction is open after a job exactly if the commit of the job failed, or if
one was open before and the job began none; and a transaction is begun while
another one is open exactly if something is called after a failed commit. -/
theorem transaction_left_open_iff (b : Backend σ) (hd : b.dialect.isTransactional = true)
    (jobs : List Job) (state : σ)
    (hrollback : .ran .rollback false ∉ (runJobs b jobs (.start state)).calls) :
    (∀ earlier job later, jobs = earlier ++ job :: later →
      ∃ own, (runJobs b (earlier ++ [job]) (.start state)).calls =
          (runJobs b earlier (.start state)).calls ++ own ∧
        (isOpenAfter false (runJobs b (earlier ++ [job]) (.start state)).calls = true ↔
          .ran .commit false ∈ own ∨
            (isOpenAfter false (runJobs b earlier (.start state)).calls = true ∧
              .ran .begin true ∉ own))) ∧
    (BeginsWhileOpen false (runJobs b jobs (.start state)).calls ↔
      GoesOnAfterFailedCommit (runJobs b jobs (.start state)).calls) := by
  constructor
  · intro earlier job later hsplit
    subst hsplit
    have hjob : runJobs b (earlier ++ [job]) (.start state) =
        job.run b (runJobs b earlier (.start state)) := by
      rw [runJobs_append]
      rfl
    obtain ⟨own, hcalls, hblock⟩ := job.exists_block hd (runJobs b earlier (.start state))
    obtain ⟨blocks, hlater, -⟩ :=
      exists_blocks_of_runJobs hd later (job.run b (runJobs b earlier (.start state)))
    have hown : .ran .rollback false ∉ own := by
      intro hmem
      refine hrollback ?_
      rw [List.append_cons, runJobs_append, hjob, hlater, hcalls]
      exact List.mem_append_left _ (List.mem_append_right _ hmem)
    refine ⟨own, by rw [hjob, hcalls], ?_⟩
    rw [hjob, hcalls, isOpenAfter_append]
    exact (hblock hown).isOpenAfter_iff _
  · obtain ⟨blocks, hcalls, hblocks⟩ := exists_blocks_of_runJobs hd jobs (.start state)
    have hstart : (Connection.start state).calls = [] := rfl
    rw [hcalls, hstart, List.nil_append] at hrollback ⊢
    rw [beginsWhileOpen_flatten_iff (hblocks hrollback)]
    simp

/-- The transaction of a migration whose index is refused is rolled back, so the
next migration does not begin its own inside it. -/
theorem transaction_left_open_iff_index_refused :
    let add := Operation.addColumn "t" (.ofType "a" .text)
    let jobs : List Job :=
      [.apply { table := "t", operations := [add, .createIndex "t" (.onColumns ["a"])] },
        .apply { table := "t", operations := [add] }]
    let b := Rehearsal.backend .sqlite
    let refusing := Rehearsal.empty.refuse ⟨.execute, .io "full", "INDEX"⟩
    (b.dialect.isTransactional = true ∧
      .ran .rollback false ∉ (runJobs b jobs (.start refusing)).calls) ∧
      .ran .rollback true ∈ (runJobs b jobs (.start refusing)).calls ∧
      ¬ BeginsWhileOpen false (runJobs b jobs (.start refusing)).calls := by
  intro add jobs b refusing
  let altered := Entry.ran (.execute "ALTER TABLE \"t\" ADD COLUMN \"a\" TEXT") true
  have hcalls : (runJobs b jobs (.start refusing)).calls =
      [.ran .begin true, altered,
        .ran (.execute "CREATE  INDEX \"idx_t_a\" ON \"t\" (\"a\")") false, .ran .rollback true,
        .ran .begin true, altered, .ran .commit true] := by
    decide +kernel
  have hrollback : .ran .rollback false ∉ (runJobs b jobs (.start refusing)).calls := by
    rw [hcalls]
    decide
  refine ⟨⟨rfl, hrollback⟩, by rw [hcalls]; decide, ?_⟩
  rw [(transaction_left_open_iff b rfl jobs refusing hrollback).2, hcalls]
  simp [goesOnAfterFailedCommit_cons, altered]

/-- A migration whose commit is refused leaves its transaction open, although no
rollback ever fails, and applying it again begins another one inside. -/
theorem transaction_left_open_by_failed_commit :
    let m : Migration := { table := "t", operations := [.addColumn "t" (.ofType "a" .text)] }
    let b := Rehearsal.backend .sqlite
    let refusing := Rehearsal.empty.refuse ⟨.commit, .io "busy", ""⟩
    (b.dialect.isTransactional = true ∧
      .ran .rollback false ∉ (runJobs b [.apply m, .apply m] (.start refusing)).calls) ∧
      isOpenAfter false (runJobs b [.apply m] (.start refusing)).calls = true ∧
      BeginsWhileOpen false (runJobs b [.apply m, .apply m] (.start refusing)).calls := by
  intro m b refusing
  let statement := Entry.ran (.execute "ALTER TABLE \"t\" ADD COLUMN \"a\" TEXT") true
  have hcalls : (runJobs b [.apply m, .apply m] (.start refusing)).calls =
      [.ran .begin true, statement, .ran .commit false,
        .ran .begin true, statement, .ran .commit false] := by
    decide
  refine ⟨⟨rfl, ?_⟩, by decide, ?_⟩
  · rw [hcalls]
    decide
  · rw [hcalls]
    exact ⟨[.ran .begin true, statement, .ran .commit false], true,
      [statement, .ran .commit false], rfl, rfl⟩

end Relational.Migration

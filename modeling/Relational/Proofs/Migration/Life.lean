import Relational.Migration.Rehearsal
import Relational.Proofs.Descriptor.Migration
import Relational.Proofs.Migration.Course

/-!
# Lives of a migration

A migration is applied and reverted in turns, however its databases answer and however
often it is saved and loaded in between.

A step that fails leaves the migration as it was.  One that succeeds takes one of three ways:
it applies what is not applied, it reverts what is applied, or it brings back the same
migration from its file.  What these steps preserve is told by the stages that have been
reached so far.
-/

namespace Relational.Migration

/-- Something that is done with a migration that is kept.  Each step may meet a database
of its own, in any state.  Saving and loading may fail for a reason of the file system, and
`complaint` is what the reader says of a text that it refuses. -/
inductive Step : Type 1 where
  | apply {σ : Type} (b : Backend σ) (c : Connection σ)
  | revert {σ : Type} (b : Backend σ) (c : Connection σ)
  | reload (complaint : String → String) (failure : Option Error)

/-- What is left when a migration is to be replaced by another one, if there is one. -/
def replacedBy (m : Migration) : Except Error Migration → Except Error Unit × Migration
  | .ok loaded => (.ok (), loaded)
  | .error e => (.error e, m)

namespace Step

/-- The result of a step, and the migration as the step leaves it. -/
def perform (m : Migration) : Step → Except Error Unit × Migration
  | .apply b c => ((m.apply b c).result, (m.apply b c).migration)
  | .revert b c => ((m.revert b c).result, (m.revert b c).migration)
  | .reload _ (some failure) => m.replacedBy (.error failure)
  | .reload complaint none => m.replacedBy (ofFileText complaint m.toFileText)

/-- The stages that a step leads to when it succeeds. -/
def moves : Step → List Stage
  | .apply _ _ => [.applied]
  | .revert _ _ => [.reverted]
  | .reload _ _ => []

end Step

/-- A migration that is kept, with the stages that it has been led to. -/
structure Life where
  migration : Migration
  moves : List Stage
  deriving DecidableEq

namespace Life

/-- The life of a new migration. -/
def start (table : String) (operations : List Operation) : Life := ⟨{ table, operations }, []⟩

/-- The life after a step: the migration is what the step leaves, whatever its result. -/
def next (life : Life) (step : Step) : Life :=
  match step.perform life.migration with
  | (.ok _, m) => ⟨m, life.moves ++ step.moves⟩
  | (.error _, m) => ⟨m, life.moves⟩

/-- The life after steps, one after the other. -/
def run (life : Life) (steps : List Step) : Life := steps.foldl next life

end Life

/-- The first stages of a migration that is applied and reverted in turns. -/
def turns (n : Nat) : List Stage :=
  (List.range n).map fun i => if i % 2 = 0 then .applied else .reverted

/-! ## Turns -/

@[simp] theorem length_turns (n : Nat) : (turns n).length = n := by simp [turns]

theorem turns_succ (n : Nat) :
    turns (n + 1) = turns n ++ [if n % 2 = 0 then .applied else .reverted] := by
  simp [turns, List.range_succ]

theorem count_turns (n : Nat) :
    (turns n).count .applied = (n + 1) / 2 ∧ (turns n).count .reverted = n / 2 := by
  induction n with
  | zero => exact ⟨rfl, rfl⟩
  | succ n ih =>
      rw [turns_succ, List.count_append, List.count_append, ih.1, ih.2]
      rcases Nat.mod_two_eq_zero_or_one n with heven | hodd
      · rw [if_pos heven]
        constructor
        · show (n + 1) / 2 + 1 = (n + 1 + 1) / 2
          omega
        · show n / 2 + 0 = (n + 1) / 2
          omega
      · rw [if_neg (by omega)]
        constructor
        · show (n + 1) / 2 + 0 = (n + 1 + 1) / 2
          omega
        · show n / 2 + 1 = (n + 1) / 2
          omega

/-! ## One step -/

variable {σ : Type} {m : Migration}

/-- Only a call that succeeds applies a migration, and it succeeds only if the migration was
not applied. -/
theorem apply_spec (m : Migration) (b : Backend σ) (c : Connection σ) :
    (m.apply b c).migration = m.after .applied (m.apply b c).result ∧
      ∀ done, (m.apply b c).result = .ok done → m.stage ≠ .applied := by
  by_cases hstage : m.stage = .applied
  · rw [apply_of_applied hstage]
    exact ⟨rfl, nofun⟩
  · obtain ⟨calls, result, next, -, -, hleft⟩ := m.advance_spec .applied _ _ m.operations b c
    rw [apply_eq_advance hstage, hleft]
    exact ⟨rfl, fun _ _ => hstage⟩

/-- Only a call that succeeds reverts a migration, and it succeeds only if the migration was
applied. -/
theorem revert_spec (m : Migration) (b : Backend σ) (c : Connection σ) :
    (m.revert b c).migration = m.after .reverted (m.revert b c).result ∧
      ∀ done, (m.revert b c).result = .ok done → m.stage = .applied := by
  by_cases hstage : m.stage = .applied
  · obtain ⟨calls, result, next, -, -, hleft⟩ :=
      m.advance_spec .reverted _ _ m.inverseOperations b c
    rw [revert_eq_advance hstage, hleft]
    exact ⟨rfl, fun _ _ => hstage⟩
  · rw [revert_of_not_applied hstage]
    exact ⟨rfl, nofun⟩

theorem apply_migration_of_error {b : Backend σ} {c : Connection σ} {e : Error}
    (h : (m.apply b c).result = .error e) : (m.apply b c).migration = m := by
  rw [(m.apply_spec b c).1, h, after_error]

theorem revert_migration_of_error {b : Backend σ} {c : Connection σ} {e : Error}
    (h : (m.revert b c).result = .error e) : (m.revert b c).migration = m := by
  rw [(m.revert_spec b c).1, h, after_error]

theorem replacedBy_of_error {loaded : Except Error Migration} {e : Error}
    (h : (m.replacedBy loaded).1 = .error e) : (m.replacedBy loaded).2 = m := by
  cases loaded with
  | ok loaded => cases h
  | error e => rfl

/-- A step that fails leaves the migration as it was. -/
theorem Step.perform_of_error {step : Step} {e : Error} (h : (step.perform m).1 = .error e) :
    (step.perform m).2 = m := by
  cases step with
  | apply b c => exact apply_migration_of_error h
  | revert b c => exact revert_migration_of_error h
  | reload complaint failure =>
      cases failure with
      | some failure => rfl
      | none =>
          rw [perform] at h ⊢
          exact replacedBy_of_error h

/-- A migration without floating-point defaults comes back from its file. -/
theorem ofFileText_of_floats_eq_nil (complaint : String → String) (h : m.floats = []) :
    ofFileText complaint m.toFileText = .ok m := by
  have hreread : m.reread = some m := reread_eq_self_iff.mpr (by simp [h])
  rw [ofFileText_toFileText, hreread]
  rfl

namespace Life

variable {life : Life} {step : Step}

theorem next_of_ok {done : Unit} (h : (step.perform life.migration).1 = .ok done) :
    life.next step = ⟨(step.perform life.migration).2, life.moves ++ step.moves⟩ := by
  unfold next
  rcases hstep : step.perform life.migration with ⟨result, m⟩
  rw [hstep] at h
  cases h
  rfl

/-- A step that fails changes nothing. -/
theorem next_of_error {e : Error} (h : (step.perform life.migration).1 = .error e) :
    life.next step = life := by
  have hkept := Step.perform_of_error h
  unfold next
  rcases hstep : step.perform life.migration with ⟨result, m⟩
  rw [hstep] at h hkept
  cases h
  cases hkept
  rfl

theorem next_reload {complaint : String → String} (h : life.migration.floats = []) :
    life.next (.reload complaint none) = life := by
  have hperform : Step.perform life.migration (.reload complaint none) =
      (.ok (), life.migration) := by
    rw [Step.perform, ofFileText_of_floats_eq_nil complaint h, replacedBy]
  rw [next_of_ok (congrArg Prod.fst hperform), hperform]
  show (⟨life.migration, life.moves ++ []⟩ : Life) = life
  rw [List.append_nil]

end Life

/-- A migration in the course of its life: the operations are still those of the start, it
has been applied and reverted in turns, and it is applied when it is the turn to revert. -/
structure Lives (table : String) (operations : List Operation) (life : Life) : Prop where
  table : life.migration.table = table
  operations : life.migration.operations = operations
  moves : life.moves = turns life.moves.length
  stage : life.migration.stage = .applied ↔ life.moves.length % 2 = 1

namespace Lives

variable {table : String} {operations : List Operation} {life : Life}

theorem start (table : String) (operations : List Operation) :
    Lives table operations (.start table operations) :=
  ⟨rfl, rfl, rfl, by simp [Life.start]⟩

/-- What a successful step preserves, given the stage that it starts from and leads to. -/
theorem append (h : Lives table operations life) {stage : Stage}
    (hturn : stage = .applied ↔ life.migration.stage ≠ .applied) (hreal : stage ≠ .unapplied) :
    Lives table operations ⟨{ life.migration with stage }, life.moves ++ [stage]⟩ := by
  have hmoves : stage = if life.moves.length % 2 = 0 then .applied else .reverted := by
    have hstage := h.stage
    split
    · next heven => exact hturn.mpr (by rw [Ne, hstage]; omega)
    · next hodd =>
        have happlied : life.migration.stage = .applied := hstage.mpr (by omega)
        cases stage with
        | unapplied => contradiction
        | applied => exact absurd happlied (hturn.mp rfl)
        | reverted => rfl
  constructor
  case table => exact h.table
  case operations => exact h.operations
  case moves =>
    rw [List.length_append, List.length_singleton, turns_succ, ← h.moves, ← hmoves]
  case stage =>
    rw [List.length_append, List.length_singleton]
    show stage = .applied ↔ (life.moves.length + 1) % 2 = 1
    rw [hturn, Ne, h.stage]
    omega

/-- A step that succeeds leads to its stage when it is the turn of that stage. -/
theorem next_of_ok (h : Lives table operations life) {step : Step} {stage : Stage} {done : Unit}
    (hok : (step.perform life.migration).1 = .ok done) (hmoves : step.moves = [stage])
    (hleft : (step.perform life.migration).2 =
      life.migration.after stage (step.perform life.migration).1)
    (hturn : stage = .applied ↔ life.migration.stage ≠ .applied) (hreal : stage ≠ .unapplied) :
    Lives table operations (life.next step) := by
  rw [Life.next_of_ok hok, hleft, hok, hmoves, after_ok]
  exact h.append hturn hreal

/-- A step of any kind preserves the life of a migration. -/
theorem next (h : Lives table operations life) (hfloats : operations.flatMap Operation.floats = [])
    (step : Step) : Lives table operations (life.next step) := by
  cases hresult : (step.perform life.migration).1 with
  | error e =>
      rw [Life.next_of_error hresult]
      exact h
  | ok done =>
      cases step with
      | apply b c =>
          obtain ⟨hleft, hstage⟩ := life.migration.apply_spec b c
          exact h.next_of_ok hresult rfl hleft (by simpa using hstage done hresult) (by decide)
      | revert b c =>
          obtain ⟨hleft, hstage⟩ := life.migration.revert_spec b c
          exact h.next_of_ok hresult rfl hleft (by simpa using hstage done hresult) (by decide)
      | reload complaint failure =>
          cases failure with
          | some failure => contradiction
          | none =>
              rw [Life.next_reload (by rw [floats, h.operations, hfloats])]
              exact h

theorem run (h : Lives table operations life) (hfloats : operations.flatMap Operation.floats = [])
    (steps : List Step) : Lives table operations (life.run steps) := by
  induction steps generalizing life with
  | nil => exact h
  | cons step steps ih => exact ih (h.next hfloats step)

theorem count_moves (h : Lives table operations life) :
    (life.migration.stage = .applied ∧
      life.moves.count .applied = life.moves.count .reverted + 1) ∨
    (life.migration.stage ≠ .applied ∧
      life.moves.count .applied = life.moves.count .reverted) := by
  have hcount := count_turns life.moves.length
  rw [← h.moves] at hcount
  by_cases hstage : life.migration.stage = .applied
  · have hodd := h.stage.mp hstage
    exact Or.inl ⟨hstage, by omega⟩
  · have heven : life.moves.length % 2 ≠ 1 := fun hodd => hstage (h.stage.mpr hodd)
    exact Or.inr ⟨hstage, by omega⟩

end Lives

/-! ## All steps -/

/-- The life of a new migration without floating-point defaults, after any steps.  It is
applied exactly while it has been applied once more than reverted, and it comes back from
its file.  What is out of turn fails without a call to the database.  If a migration cannot be
applied or reverted, for whatever reason, all of it is left as it was, and so is its life
after any step that fails. -/
theorem life_in_turns (table : String) (operations : List Operation)
    (hfloats : operations.flatMap Operation.floats = []) :
    (∀ steps,
      let life := (Life.start table operations).run steps
      (life.migration.table = table ∧ life.migration.operations = operations) ∧
      (life.migration.stage = .applied ∧
          life.moves.count .applied = life.moves.count .reverted + 1 ∨
        life.migration.stage ≠ .applied ∧
          life.moves.count .applied = life.moves.count .reverted) ∧
      life.moves = turns life.moves.length ∧
      ∀ complaint, ofFileText complaint life.migration.toFileText = .ok life.migration) ∧
    (∀ {σ : Type} (m : Migration) (b : Backend σ) (c : Connection σ),
      (m.stage = .applied → ∃ text, m.apply b c = ⟨.error (.invalidState text), m, c⟩) ∧
      (m.stage ≠ .applied → ∃ text, m.revert b c = ⟨.error (.invalidState text), m, c⟩)) ∧
    (∀ {σ : Type} (m : Migration) (b : Backend σ) (c : Connection σ) (error : Error),
      ((m.apply b c).result = .error error → (m.apply b c).migration = m) ∧
      ((m.revert b c).result = .error error → (m.revert b c).migration = m)) ∧
    ∀ (life : Life) (step : Step) (error : Error),
      (step.perform life.migration).1 = .error error → life.next step = life := by
  refine ⟨?all, ?outOfTurn, ?failing, fun _ _ _ => Life.next_of_error⟩
  case all =>
    intro steps life
    have hlives := (Lives.start table operations).run hfloats steps
    refine ⟨⟨hlives.table, hlives.operations⟩, hlives.count_moves, hlives.moves, ?_⟩
    intro complaint
    exact ofFileText_of_floats_eq_nil complaint (by rw [floats, hlives.operations, hfloats])
  case outOfTurn =>
    intro σ m b c
    exact ⟨fun h => ⟨_, apply_of_applied h b c⟩, fun h => ⟨_, revert_of_not_applied h b c⟩⟩
  case failing =>
    intro σ m b c error
    exact ⟨apply_migration_of_error, revert_migration_of_error⟩

/-- A migration meets a refused commit, a second application, a disk that is full and a
reload before it is reverted and applied again. -/
theorem life_in_turns_busy :
    let operations : List Operation := [.addColumn "t" (.ofType "a" .text)]
    let b := Rehearsal.backend .sqlite
    let busy := Connection.start (Rehearsal.empty.refuse ⟨.commit, .database "busy", ""⟩)
    let free := Connection.start Rehearsal.empty
    let complaint : String → String := fun _ => "expected value"
    let first : List Step :=
      [.apply b busy, .apply b free, .apply b free, .reload complaint (some (.io "full"))]
    let second : List Step := [.revert b busy, .revert b free, .apply b free]
    let life := (Life.start "t" operations).run (first ++ .reload complaint none :: second)
    operations.flatMap Operation.floats = [] ∧
      life = ⟨⟨"t", operations, .applied⟩, [.applied, .reverted, .applied]⟩ ∧
      (life.migration.stage = .applied ∧
          life.moves.count .applied = life.moves.count .reverted + 1 ∨
        life.migration.stage ≠ .applied ∧
          life.moves.count .applied = life.moves.count .reverted) ∧
      (∃ text, life.migration.apply b free =
        ⟨.error (.invalidState text), life.migration, free⟩) ∧
      ((life.migration.revert b busy).result = .error (.database "busy") ∧
        (life.migration.revert b busy).migration = life.migration) ∧
      life.next (.apply b free) = life := by
  intro operations b busy free complaint first second life
  have hrun : (Life.start "t" operations).run (first ++ .reload complaint none :: second) =
    life := rfl
  obtain ⟨hall, houtOfTurn, hfailing, hsteps⟩ := life_in_turns "t" operations rfl
  have hcount := (hall (first ++ .reload complaint none :: second)).2.1
  rw [hrun] at hcount
  have hlife : life = ⟨⟨"t", operations, .applied⟩, [.applied, .reverted, .applied]⟩ := by
    have hfirst : (Life.start "t" operations).run first =
        ⟨⟨"t", operations, .applied⟩, [.applied]⟩ := by decide
    have hreload : (Life.mk ⟨"t", operations, .applied⟩ [.applied]).next
        (.reload complaint none) = ⟨⟨"t", operations, .applied⟩, [.applied]⟩ :=
      Life.next_reload rfl
    have hsecond : (Life.mk ⟨"t", operations, .applied⟩ [.applied]).run second =
        ⟨⟨"t", operations, .applied⟩, [.applied, .reverted, .applied]⟩ := by decide
    rw [← hrun, Life.run, List.foldl_append, List.foldl_cons]
    rw [Life.run] at hfirst hsecond
    rw [hfirst, hreload, hsecond]
  clear_value life
  obtain ⟨text, hrefused⟩ := (houtOfTurn life.migration b free).1 (by rw [hlife])
  have hbusy : (life.migration.revert b busy).result = .error (.database "busy") := by
    rw [hlife]
    decide
  have hunchanged := hsteps life (.apply b free) (.invalidState text)
    (by rw [Step.perform, hrefused])
  exact ⟨rfl, hlife, hcount, ⟨text, hrefused⟩,
    ⟨hbusy, (hfailing life.migration b busy _).2 hbusy⟩, hunchanged⟩

end Relational.Migration

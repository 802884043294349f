import Relational.Proofs.Migration.Acceptance

/-!
# Declarations that are rejected

Why a declaration is rejected, for one whose indexes and constraints list columns by their
own names alone: `plan_decides_declaration`.

The checks run one after another, and what is rejected is the first fault that they meet.
Which of the two kinds of error it is follows without their order if there are faults of one
kind only.  Where there are some of both, it is the order of the checks that decides.
-/

namespace Relational

theorem Schema.Table.refers_iff_of_no_dot {t : Table} {listed : String}
    (hdot : '.' ∉ listed.toList) : t.Refers listed ↔ t.hasColumn listed = true := by
  refine ⟨?_, fun h => Or.inl ⟨hdot, h⟩⟩
  rintro (⟨-, h⟩ | ⟨-, c, hc, rfl⟩)
  · exact h
  · exact absurd (by simp) hdot

namespace Migration

open Schema Declaration

namespace Declaration

theorem plan_eq_error_iff {declared : Table} {live : Option Table} {e : Query.Error} :
    plan declared live = .error e ↔ check declared = .error e := by
  unfold plan
  cases check declared with
  | error _ => simp only [Except.error.injEq]
  | ok _ => cases live <;> exact iff_of_false nofun nofun

variable {declared : Table} {condition : Prop} {columns : List String} {e : Query.Error}

/-- Where the condition holds, what is rejected is the first column that is not declared. -/
theorem Verdict.exists_eq_unknownColumn (h : Verdict declared condition columns (.error e))
    (holds : condition) (hdots : ∀ listed ∈ columns, '.' ∉ listed.toList) :
    ∃ listed fragment, columns.find? (fun c => !declared.hasColumn c) = some listed ∧
      e = .unknownColumn declared.name listed fragment := by
  cases h with
  | unknown before after listed fragment hsplit known hfirst =>
      -- All columns before the first unknown one are found under the names that are listed.
      subst hsplit
      obtain ⟨hbefore, hrest⟩ := List.forall_mem_append.mp hdots
      have hdot := hrest listed List.mem_cons_self
      refine ⟨listed, fragment, List.find?_eq_some_iff_append.mpr ⟨?_, before, after, rfl, ?_⟩, ?_⟩
      · rw [Table.refers_iff_of_no_dot hdot] at hfirst
        simpa using hfirst
      · intro l hl
        simpa using (Table.refers_iff_of_no_dot (hbefore l hl)).mp (known l hl)
      · rw [Query.Catalog.splitName_of_no_dot declared.name hdot]
  | invalid message fragment fails => exact absurd holds fails

/-- Where all columns are known, what is rejected is an argument. -/
theorem Verdict.exists_eq_invalidArgument (h : Verdict declared condition columns (.error e))
    (known : ∀ listed ∈ columns, declared.Refers listed) :
    ∃ message fragment, e = .invalidArgument message fragment := by
  cases h with
  | unknown before after listed fragment hsplit hknown hfirst =>
      refine absurd (known listed ?_) hfirst
      rw [hsplit]
      exact List.mem_append_cons_self
  | invalid message fragment fails => exact ⟨message, fragment, rfl⟩

end Declaration

/-- A declaration that lists columns by names without dots can be planned, for whatever
table, exactly if it is well-formed and lists only declared columns.  If only the latter
fails, the error names the table and the first listed column that is not declared, and if
only the former does, it is one of an argument. -/
theorem plan_decides_declaration (declared : Table) (live : Option Table)
    (hdots : ∀ listed ∈ declared.listedColumns, '.' ∉ listed.toList) :
    ((∃ ops, plan declared live = .ok ops) ↔
      WellFormed declared ∧
        ∀ listed ∈ declared.listedColumns, declared.hasColumn listed = true) ∧
    (WellFormed declared → ∀ e, plan declared live = .error e →
      ∃ listed fragment,
        declared.listedColumns.find? (fun c => !declared.hasColumn c) = some listed ∧
          e = .unknownColumn declared.name listed fragment) ∧
    ((∀ listed ∈ declared.listedColumns, declared.hasColumn listed = true) →
      ∀ e, plan declared live = .error e →
        ∃ message fragment, e = .invalidArgument message fragment) := by
  have hrefers : (∀ listed ∈ declared.listedColumns, declared.Refers listed) ↔
      ∀ listed ∈ declared.listedColumns, declared.hasColumn listed = true :=
    forall₂_congr fun listed hlisted => Table.refers_iff_of_no_dot (hdots listed hlisted)
  have hverdict : ∀ e, plan declared live = .error e →
      Verdict declared (WellFormed declared) declared.listedColumns (.error e) := by
    intro e h
    rw [← plan_eq_error_iff.mp h]
    exact verdict_check declared
  refine ⟨?_, ?_, ?_⟩
  · rw [exists_plan_iff, check_eq_ok_iff, accepted_iff, hrefers]
  · exact fun hwell e h => (hverdict e h).exists_eq_unknownColumn hwell hdots
  · exact fun hcolumns e h => (hverdict e h).exists_eq_invalidArgument (hrefers.mpr hcolumns)

/-- Dots in the names of the table and of its columns make no difference.  The column that is
named is listed by the second index, before the one that the constraint lists. -/
theorem plan_decides_declaration_dotted_table :
    let declared : Table :=
      { name := "s.t", columns := [.ofType "a" .text, .ofType "b.c" .text],
        indexes := [.onColumns ["a"], (Index.onColumns ["a", "q"]).named "n"],
        constraints := [.check "k" "a > 0", .unique "u" ["p"]] }
    ∃ fragment, plan declared none = .error (.unknownColumn "s.t" "q" fragment) := by
  intro declared
  have hdots : ∀ listed ∈ declared.listedColumns, '.' ∉ listed.toList := by decide
  have hwell : WellFormed declared :=
    { named := by decide
      inhabited := by decide
      columnsNamed := by decide
      columnNames := by decide
      keyNames := by decide
      constraintsNamed := by decide
      indexColumns := by decide
      uniqueColumns := by
        intro name columns hunique
        simp_all [declared] }
  have hfirst : declared.listedColumns.find? (fun c => !declared.hasColumn c) = some "q" := by
    decide
  obtain ⟨hok, hunknown, -⟩ := plan_decides_declaration declared none hdots
  cases hplan : plan declared none with
  | ok ops => exact absurd ((hok.mp ⟨ops, hplan⟩).2 "q" (by decide)) (by decide)
  | error e =>
      obtain ⟨listed, fragment, hlisted, rfl⟩ := hunknown hwell e hplan
      rw [hfirst] at hlisted
      cases hlisted
      exact ⟨fragment, rfl⟩

end Migration

end Relational

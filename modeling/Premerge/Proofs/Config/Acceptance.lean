import Mathlib.Data.List.Induction
import Premerge.Config.Validation
import Premerge.Proofs.Tool.Table

namespace Premerge.Config

lemma checkReferences_eq_ok_iff {c : Config} {tools : List Tool} :
    c.checkReferences tools = .ok () ↔
      ∀ tool ∈ tools, ∀ name ∈ tool.references, c.declares name = true := by
  induction tools with
  | nil => simp [checkReferences]
  | cons tool rest ih =>
    rw [checkReferences, List.forall_mem_cons, ← ih]
    rcases hf : tool.references.find? (!c.declares ·) with _ | name
    · have hdeclared : ∀ name ∈ tool.references, c.declares name = true := by
        simpa [List.find?_eq_none] using hf
      exact ⟨fun h => ⟨hdeclared, h⟩, fun h => h.2⟩
    · have hm := List.mem_of_find?_eq_some hf
      have hn : ¬c.declares name = true := by simpa using List.find?_some hf
      simp only [reduceCtorEq, false_iff, not_and]
      exact fun hall => (hn (hall name hm)).elim

lemma checkOrder_eq_ok_iff {order : List String} {tools : List Tool} :
    checkOrder order tools = .ok () ↔
      ∀ tool ∈ tools, ∀ name ∈ tool.fragmentNames, name ∈ order := by
  induction tools with
  | nil => simp [checkOrder]
  | cons tool rest ih =>
    rw [checkOrder, List.forall_mem_cons, ← ih]
    rcases hf : tool.fragmentNames.find? (!order.contains ·) with _ | name
    · have hplaces : ∀ name ∈ tool.fragmentNames, name ∈ order := by
        simpa [List.find?_eq_none] using hf
      exact ⟨fun h => ⟨hplaces, h⟩, fun h => h.2⟩
    · have hm := List.mem_of_find?_eq_some hf
      have hn : name ∉ order := by simpa using List.find?_some hf
      simp only [reduceCtorEq, false_iff, not_and]
      exact fun hall => (hn (hall name hm)).elim

lemma validate_eq_ok_iff {c : Config} :
    c.validate = .ok () ↔ c.checkReferences c.tools = .ok () ∧
      (∀ order, c.ownSummaryOrder = some order → checkOrder order c.tools = .ok ()) ∧
      c.jobTimeoutSecs ≠ 0 ∧ ∃ table, c.toolTable = .ok table := by
  unfold validate
  rcases c.checkReferences c.tools with e | ⟨⟩
  · simp [bind, Except.bind]
  have hrest : (do
      if c.jobTimeoutSecs = 0 then .error (.config .noTime)
      let _ ← c.toolTable
      .ok () : Except Failure Unit) = .ok () ↔
      c.jobTimeoutSecs ≠ 0 ∧ ∃ table, c.toolTable = .ok table := by
    by_cases ht : c.jobTimeoutSecs = 0
    · simp [ht, bind, Except.bind]
    · rcases c.toolTable with e | table <;> simp [ht, bind, Except.bind]
  rcases ho : c.ownSummaryOrder with _ | order
  · simpa [bind, Except.bind] using hrest
  · rcases hp : checkOrder order c.tools with e | ⟨⟩
    · simp [hp, bind, Except.bind]
    · simpa [hp, bind, Except.bind] using hrest

lemma nodup_reports_of_validate {c : Config} (h : c.validate = .ok ()) :
    (c.tools.map Tool.reportName).Nodup := by
  obtain ⟨_, _, _, table, ht⟩ := validate_eq_ok_iff.mp h
  exact ToolTable.nodup_reports_of_ofList ht

lemma firstOccurrences_concat (names : List String) (name : String) :
    firstOccurrences (names ++ [name]) =
      if name ∈ firstOccurrences names then firstOccurrences names
      else firstOccurrences names ++ [name] := by
  simp [firstOccurrences, List.foldl_append]

lemma mem_firstOccurrences {names : List String} {name : String} :
    name ∈ firstOccurrences names ↔ name ∈ names := by
  induction names using List.reverseRecOn with
  | nil => simp [firstOccurrences]
  | append_singleton names last ih =>
    rw [firstOccurrences_concat, List.mem_append, List.mem_singleton]
    split
    next hl => exact ⟨fun h => .inl (ih.mp h), fun h => h.elim ih.mpr fun he => he ▸ hl⟩
    next => rw [List.mem_append, ih, List.mem_singleton]

lemma nodup_firstOccurrences (names : List String) : (firstOccurrences names).Nodup := by
  induction names using List.reverseRecOn with
  | nil => exact .nil
  | append_singleton names last ih =>
    rw [firstOccurrences_concat]
    split
    next => exact ih
    next hl => exact List.nodup_append_comm.mp (List.nodup_cons.mpr ⟨hl, ih⟩)

lemma mem_summaryOrder {c : Config} (h : c.validate = .ok ()) {tool : Tool} (ht : tool ∈ c.tools)
    {name : String} (hn : name ∈ tool.fragmentNames) : name ∈ c.summaryOrder := by
  obtain ⟨_, horder, _⟩ := validate_eq_ok_iff.mp h
  unfold summaryOrder
  rcases ho : c.ownSummaryOrder with _ | order
  · exact mem_firstOccurrences.mpr (List.mem_flatMap.mpr ⟨tool, ht, hn⟩)
  · exact checkOrder_eq_ok_iff.mp (horder order ho) tool ht name hn

lemma declares_iff {c : Config} {name : String} :
    c.declares name = true ↔ ∃ spec ∈ c.predicates, spec.name = name := by
  simp [declares]

/-- The parts of the configuration that name each other agree, and every tool can be told from the
others. -/
structure IsCoherent (c : Config) : Prop where
  declared : ∀ tool ∈ c.tools, ∀ name, tool.gate = some name ∨ tool.filesFrom = some name →
    ∃ spec ∈ c.predicates, spec.name = name
  places : ∀ order, c.ownSummaryOrder = some order → (∀ tool ∈ c.tools, tool.reportName ∈ order) ∧
    ((∃ tool ∈ c.tools, tool.kind = .testRunner) → "coverage" ∈ order)
  time : 1 ≤ c.jobTimeoutSecs
  commands : ∀ tool ∈ c.tools, tool.command ≠ []
  names : (c.tools.map Tool.name).Nodup
  reports : (c.tools.map Tool.reportName).Nodup

lemma declared_iff {c : Config} : c.checkReferences c.tools = .ok () ↔
    ∀ tool ∈ c.tools, ∀ name, tool.gate = some name ∨ tool.filesFrom = some name →
      ∃ spec ∈ c.predicates, spec.name = name := by
  rw [checkReferences_eq_ok_iff]
  simp only [Tool.references, List.mem_append, Option.mem_toList, declares_iff]

lemma places_iff {c : Config} {order : List String} : checkOrder order c.tools = .ok () ↔
    (∀ tool ∈ c.tools, tool.reportName ∈ order) ∧
      ((∃ tool ∈ c.tools, tool.kind = .testRunner) → "coverage" ∈ order) := by
  rw [checkOrder_eq_ok_iff]
  constructor
  · intro h
    refine ⟨fun tool ht => h tool ht _ (Tool.mem_fragmentNames.mpr (.inl rfl)), ?_⟩
    rintro ⟨tool, ht, hk⟩
    exact h tool ht _ (Tool.mem_fragmentNames.mpr (.inr ⟨hk, rfl⟩))
  · rintro ⟨hreport, hcoverage⟩ tool ht name hn
    rcases Tool.mem_fragmentNames.mp hn with rfl | ⟨hk, rfl⟩
    · exact hreport tool ht
    · exact hcoverage ⟨tool, ht, hk⟩

/-- A configuration is accepted if and only if it is coherent, and then its tools make up a table. -/
theorem validate_iff_isCoherent (c : Config) :
    (c.validate = .ok () ↔ c.IsCoherent) ∧
      (c.validate = .ok () → ∃ table, c.toolTable = .ok table ∧ table.tools = c.tools) := by
  refine ⟨?_, fun h => ?_⟩
  · rw [validate_eq_ok_iff, declared_iff]
    constructor
    · rintro ⟨hdeclared, horder, htime, table, htable⟩
      obtain ⟨rfl, hsound⟩ := ToolTable.ofList_eq_ok_iff.mp htable
      exact {
        declared := hdeclared
        places := fun order ho => places_iff.mp (horder order ho)
        time := Nat.one_le_iff_ne_zero.mpr htime
        commands := hsound.commands
        names := hsound.names
        reports := hsound.reports }
    · intro h
      exact ⟨h.declared, fun order ho => places_iff.mpr (h.places order ho),
        Nat.one_le_iff_ne_zero.mp h.time, ⟨c.tools⟩,
        ToolTable.ofList_eq_ok_iff.mpr ⟨rfl, h.names, h.reports, h.commands⟩⟩
  · obtain ⟨_, _, _, table, htable⟩ := validate_eq_ok_iff.mp h
    exact ⟨table, htable, ToolTable.tools_of_ofList htable⟩

end Premerge.Config

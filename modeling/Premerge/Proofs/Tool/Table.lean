import Mathlib.Tactic.Lemma
import Mathlib.Data.List.Nodup
import Premerge.Tool.Table

namespace Premerge.ToolTable

structure Sound (table : ToolTable) : Prop where
  names : table.names.Nodup
  reports : table.reportNames.Nodup
  commands : ∀ tool ∈ table.tools, tool.command ≠ []

lemma sound_empty : empty.Sound :=
  ⟨.nil, .nil, fun _ hm => nomatch hm⟩

lemma get?_eq_none_iff {table : ToolTable} {name : String} :
    table.get? name = none ↔ name ∉ table.names := by
  simp [get?, names]

lemma register_eq_ok_iff {table after : ToolTable} {tool : Tool} :
    table.register tool = .ok after ↔ tool.command ≠ [] ∧ tool.name ∉ table.names ∧
      tool.reportName ∉ table.reportNames ∧ after = ⟨table.tools ++ [tool]⟩ := by
  constructor
  · intro h
    unfold register at h
    split at h
    · cases h
    next hc =>
      split at h
      · cases h
      next hn =>
        split at h
        · cases h
        next hr =>
          have hget : table.get? tool.name = none := by simpa using hn
          exact ⟨by simpa using hc, get?_eq_none_iff.mp hget, by simpa using hr,
            (Except.ok.inj h).symm⟩
  · rintro ⟨hc, hn, hr, rfl⟩
    simp [register, hc, get?_eq_none_iff.mpr hn, hr]

lemma Sound.register {table after : ToolTable} {tool : Tool} (h : table.Sound)
    (hr : table.register tool = .ok after) : after.Sound := by
  obtain ⟨hc, hn, hp, rfl⟩ := register_eq_ok_iff.mp hr
  have hnames : ToolTable.names ⟨table.tools ++ [tool]⟩ = table.names ++ [tool.name] := by
    simp [ToolTable.names]
  have hreports : reportNames ⟨table.tools ++ [tool]⟩ = table.reportNames ++ [tool.reportName] := by
    simp [reportNames]
  refine ⟨?_, ?_, fun other hm => ?_⟩
  · rw [hnames]
    exact List.nodup_append_comm.mp (List.nodup_cons.mpr ⟨hn, h.names⟩)
  · rw [hreports]
    exact List.nodup_append_comm.mp (List.nodup_cons.mpr ⟨hp, h.reports⟩)
  · rcases List.mem_append.mp hm with hm | hm
    · exact h.commands other hm
    · rwa [List.mem_singleton.mp hm]

lemma Sound.registerAll {table after : ToolTable} {tools : List Tool} (h : table.Sound)
    (hr : table.registerAll tools = .ok after) : after.Sound := by
  induction tools generalizing table with
  | nil =>
    cases hr
    exact h
  | cons tool rest ih =>
    rw [ToolTable.registerAll] at hr
    rcases ho : table.register tool with e | longer <;> rw [ho] at hr
    · cases hr
    · exact ih (h.register ho) hr

lemma registerAll_of_sound {table : ToolTable} {tools : List Tool}
    (h : Sound ⟨table.tools ++ tools⟩) : table.registerAll tools = .ok ⟨table.tools ++ tools⟩ := by
  induction tools generalizing table with
  | nil => rw [ToolTable.registerAll, List.append_nil]
  | cons tool rest ih =>
    have hnames : (table.names ++ tool.name :: rest.map Tool.name).Nodup := by
      simpa [ToolTable.names] using h.names
    have hreports : (table.reportNames ++ tool.reportName :: rest.map Tool.reportName).Nodup := by
      simpa [reportNames] using h.reports
    have hr : table.register tool = .ok ⟨table.tools ++ [tool]⟩ := by
      refine register_eq_ok_iff.mpr ⟨h.commands tool (by simp), ?_, ?_, rfl⟩
      · exact fun hm => List.disjoint_of_nodup_append hnames hm List.mem_cons_self
      · exact fun hm => List.disjoint_of_nodup_append hreports hm List.mem_cons_self
    have happend : table.tools ++ tool :: rest = (table.tools ++ [tool]) ++ rest := by simp
    rw [happend] at h ⊢
    simp only [ToolTable.registerAll, hr]
    exact ih h

lemma sound_of_ofList {tools : List Tool} {table : ToolTable} (h : ofList tools = .ok table) :
    table.Sound :=
  sound_empty.registerAll h

lemma nodup_names_of_ofList {tools : List Tool} {table : ToolTable}
    (h : ofList tools = .ok table) : (tools.map Tool.name).Nodup :=
  tools_of_ofList h ▸ (sound_of_ofList h).names

lemma nodup_reports_of_ofList {tools : List Tool} {table : ToolTable}
    (h : ofList tools = .ok table) : (tools.map Tool.reportName).Nodup :=
  tools_of_ofList h ▸ (sound_of_ofList h).reports

lemma ofList_eq_ok_iff {tools : List Tool} {table : ToolTable} :
    ofList tools = .ok table ↔ table = ⟨tools⟩ ∧ table.Sound := by
  constructor
  · intro h
    obtain ⟨all⟩ := table
    exact ⟨congrArg ToolTable.mk (tools_of_ofList h), sound_of_ofList h⟩
  · rintro ⟨rfl, h⟩
    exact (registerAll_of_sound h : empty.registerAll tools = .ok ⟨[] ++ tools⟩)

end Premerge.ToolTable

import Premerge.Config.Text
import Premerge.Proofs.Data.Records

namespace Premerge

open Premerge.Data Premerge.Data.Toml Premerge.Change

lemma Service.restored {n : Nat} (s : Service) :
    Restored (n + 1) Service.decoder s.toValue.entries s := by
  have hnames : (s.toValue.entries.map Prod.fst).Nodup := (by decide : ["name", "probe"].Nodup)
  have hname := Restores.text (n := n) s.name none
  have hprobe := Restores.texts (n := n) s.probe (some [])
  refine ⟨⟨hnames, ?_⟩, ?_⟩
  · simp only [Service.toValue, Value.entries, List.forall_mem_cons]
    exact ⟨hname.isEntry, hprobe.isEntry, List.forall_mem_nil _⟩
  · rw [Service.decoder, bind_of_eq_some (Fields.ofValue_table _ _ _),
      bind_of_eq_some (Fields.required_settled hnames "name" rfl hname),
      bind_of_eq_some (Fields.withDefault_settled hnames "probe" rfl hprobe)]

lemma Change.PredicateSpec.restored {n : Nat} (p : PredicateSpec) :
    Restored (n + 1) PredicateSpec.decoder p.toValue.entries p := by
  have hnames : (p.toValue.entries.map Prod.fst).Nodup :=
    (by decide : ["name", "globs", "added_or_modified_only"].Nodup)
  have hname := Restores.text (n := n) p.name none
  have hglobs := Restores.texts (n := n) p.globs none
  have honly := Restores.bool (n := n) p.addedOrModifiedOnly (some false)
  refine ⟨⟨hnames, ?_⟩, ?_⟩
  · simp only [PredicateSpec.toValue, Value.entries, List.forall_mem_cons]
    exact ⟨hname.isEntry, hglobs.isEntry, honly.isEntry, List.forall_mem_nil _⟩
  · rw [PredicateSpec.decoder, bind_of_eq_some (Fields.ofValue_table _ _ _),
      bind_of_eq_some (Fields.required_settled hnames "name" rfl hname),
      bind_of_eq_some (Fields.required_settled hnames "globs" rfl hglobs),
      bind_of_eq_some (Fields.withDefault_settled hnames "added_or_modified_only" rfl honly)]

lemma FailurePolicy.restores {n : Nat} (p : FailurePolicy) (default : Option FailurePolicy) :
    Restores n default FailurePolicy.decoder p.toValue p :=
  .member (by cases p <;> rfl) default

lemma ToolKind.restores {n : Nat} (k : ToolKind) (default : Option ToolKind) :
    Restores n default ToolKind.decoder k.toValue k :=
  .member (by cases k <;> rfl) default

lemma Tool.restored {n : Nat} (t : Tool) (h : hasWord t.timeoutSecs = true) :
    Restored (n + 2) Tool.decoder t.toValue.entries t := by
  have hnames : (t.toValue.entries.map Prod.fst).Nodup := (by decide : Tool.fieldNames.Nodup)
  have hname := Restores.text (n := n + 1) t.name none
  have hgate := Restores.optional_text (n := n + 1) t.gate
  have hcommand := Restores.texts (n := n + 1) t.command none
  have hfiles := Restores.optional_text (n := n + 1) t.filesFrom
  have hpolicy := FailurePolicy.restores (n := n + 1) t.policy (some .advisory)
  have hkind := ToolKind.restores (n := n + 1) t.kind (some .generic)
  have hreport := Restores.optional_text (n := n + 1) t.ownReportName
  have htimeout := Restores.size (n := n + 1) h (some 0)
  have henv := restores_nameMap (n := n) t.env (some .empty)
  have henabled := Restores.bool (n := n + 1) t.enabled (some true)
  refine ⟨⟨hnames, ?_⟩, ?_⟩
  · simp only [Tool.toValue, Value.entries, List.forall_mem_cons]
    exact ⟨hname.isEntry, hgate.isEntry, hcommand.isEntry, hfiles.isEntry, hpolicy.isEntry, hkind.isEntry,
      hreport.isEntry, htimeout.isEntry, henv.isEntry, henabled.isEntry, List.forall_mem_nil _⟩
  · rw [Tool.decoder, bind_of_eq_some (Fields.ofValue_table _ _ _),
      bind_of_eq_some (Fields.required_settled hnames "name" rfl hname),
      bind_of_eq_some (Fields.withDefault_settled hnames "gate" rfl hgate),
      bind_of_eq_some (Fields.required_settled hnames "command" rfl hcommand),
      bind_of_eq_some (Fields.withDefault_settled hnames "files_from" rfl hfiles),
      bind_of_eq_some (Fields.withDefault_settled hnames "policy" rfl hpolicy),
      bind_of_eq_some (Fields.withDefault_settled hnames "kind" rfl hkind),
      bind_of_eq_some (Fields.withDefault_settled hnames "report_name" rfl hreport),
      bind_of_eq_some (Fields.withDefault_settled hnames "timeout_secs" rfl htimeout),
      bind_of_eq_some (Fields.withDefault_settled hnames "env" rfl henv),
      bind_of_eq_some (Fields.withDefault_settled hnames "enabled" rfl henabled)]

lemma CommitConfig.restored {n : Nat} (c : CommitConfig) (h : hasWord c.maxLineLength = true) :
    Restored (n + 1) CommitConfig.decoder c.toValue.entries c := by
  have hnames : (c.toValue.entries.map Prod.fst).Nodup := (by decide : ["max_line_length"].Nodup)
  have hlength := Restores.size (n := n) h (some CommitConfig.standard.maxLineLength)
  refine ⟨⟨hnames, ?_⟩, ?_⟩
  · simp only [CommitConfig.toValue, Value.entries, List.forall_mem_cons]
    exact ⟨hlength.isEntry, List.forall_mem_nil _⟩
  · rw [CommitConfig.decoder, bind_of_eq_some (Fields.ofValue_table _ _ _),
      bind_of_eq_some (Fields.withDefault_settled hnames "max_line_length" rfl hlength)]

lemma ServicesConfig.restored {n : Nat} (c : ServicesConfig) (hs : hasWord c.startupTimeoutSecs = true)
    (hp : hasWord c.pollIntervalMs = true) :
    Restored (n + 2) ServicesConfig.decoder c.toValue.entries c := by
  have hnames : (c.toValue.entries.map Prod.fst).Nodup :=
    (by decide : ["compose_file", "project_name", "startup_timeout_secs", "poll_interval_ms",
      "required"].Nodup)
  have hfile := Restores.optional_text (n := n + 1) c.composeFile
  have hproject := Restores.optional_text (n := n + 1) c.projectName
  have hstartup := Restores.size (n := n + 1) hs (some ServicesConfig.standard.startupTimeoutSecs)
  have hpoll := Restores.size (n := n + 1) hp (some ServicesConfig.standard.pollIntervalMs)
  have hrequired : Restores (n + 1) (some ServicesConfig.standard.required) (.list Service.decoder)
      (.list (c.required.map Service.toValue)) c.required :=
    .rows _ fun s _ => s.restored
  refine ⟨⟨hnames, ?_⟩, ?_⟩
  · simp only [ServicesConfig.toValue, Value.entries, List.forall_mem_cons]
    exact ⟨hfile.isEntry, hproject.isEntry, hstartup.isEntry, hpoll.isEntry, hrequired.isEntry,
      List.forall_mem_nil _⟩
  · rw [ServicesConfig.decoder, bind_of_eq_some (Fields.ofValue_table _ _ _),
      bind_of_eq_some (Fields.withDefault_settled hnames "compose_file" rfl hfile),
      bind_of_eq_some (Fields.withDefault_settled hnames "project_name" rfl hproject),
      bind_of_eq_some (Fields.withDefault_settled hnames "startup_timeout_secs" rfl hstartup),
      bind_of_eq_some (Fields.withDefault_settled hnames "poll_interval_ms" rfl hpoll),
      bind_of_eq_some (Fields.withDefault_settled hnames "required" rfl hrequired)]

lemma ServicesConfig.plainEntries_ne_nil (c : ServicesConfig) : plainEntries c.toValue.entries ≠ [] := by
  have hm : ("startup_timeout_secs", Value.nat c.startupTimeoutSecs) ∈ plainEntries c.toValue.entries := by
    simp [plainEntries, toValue, Value.entries, Value.nat, isSection, isNull]
  exact List.ne_nil_of_mem hm

lemma Tool.yields_timeout : Tool.decoder.Yields fun t => hasWord t.timeoutSecs = true := by
  intro value t hv h
  simp only [Tool.decoder, Option.bind_eq_bind, Option.bind_eq_some_iff] at h
  obtain ⟨fields, hfields, _, _, _, _, _, _, _, _, _, _, _, _, _, _, seconds, hseconds, _, _, _, _, h⟩ := h
  cases h
  exact Decoder.Yields.size.withDefault (by decide) (Fields.fit_of_ofValue hv hfields) hseconds

lemma CommitConfig.yields_maxLineLength :
    CommitConfig.decoder.Yields fun c => hasWord c.maxLineLength = true := by
  intro value c hv h
  simp only [CommitConfig.decoder, Option.bind_eq_bind, Option.bind_eq_some_iff] at h
  obtain ⟨fields, hfields, length, hlength, h⟩ := h
  cases h
  exact Decoder.Yields.size.withDefault (by decide) (Fields.fit_of_ofValue hv hfields) hlength

lemma ServicesConfig.yields_times : ServicesConfig.decoder.Yields fun c =>
    hasWord c.startupTimeoutSecs = true ∧ hasWord c.pollIntervalMs = true := by
  intro value c hv h
  simp only [ServicesConfig.decoder, Option.bind_eq_bind, Option.bind_eq_some_iff] at h
  obtain ⟨fields, hfields, _, _, _, _, startup, hstartup, poll, hpoll, _, _, h⟩ := h
  cases h
  have hfit := Fields.fit_of_ofValue hv hfields
  exact ⟨Decoder.Yields.size.withDefault (by decide) hfit hstartup,
    Decoder.Yields.size.withDefault (by decide) hfit hpoll⟩

namespace Config

structure HasWords (c : Config) : Prop where
  jobTimeout : hasWord c.jobTimeoutSecs = true
  maxLineLength : hasWord c.commit.maxLineLength = true
  times : hasWord c.services.startupTimeoutSecs = true ∧ hasWord c.services.pollIntervalMs = true
  toolTimeouts : ∀ tool ∈ c.tools, hasWord tool.timeoutSecs = true

lemma yields_hasWords : decoder.Yields HasWords := by
  intro value c hv h
  simp only [decoder, Option.bind_eq_bind, Option.bind_eq_some_iff] at h
  obtain ⟨fields, hfields, seconds, hseconds, _, _, _, _, commit, hcommit, _, _, services, hservices,
    tools, htools, h⟩ := h
  cases h
  have hfit := Fields.fit_of_ofValue hv hfields
  constructor
  · exact Decoder.Yields.size.withDefault (by decide) hfit hseconds
  · exact CommitConfig.yields_maxLineLength.withDefault (by decide) hfit hcommit
  · exact ServicesConfig.yields_times.withDefault (by decide) hfit hservices
  · exact Tool.yields_timeout.list.withDefault (by decide) hfit htools

lemma lookup_entries (c : Config) :
    c.entries.lookup "job_timeout_secs" = some (.nat c.jobTimeoutSecs) ∧
    c.entries.lookup "parallel_tools" = some (.bool c.parallelTools) ∧
    c.entries.lookup "commit" = some c.commit.toValue ∧
    c.entries.lookup "predicates" = some (.list (c.predicates.map PredicateSpec.toValue)) ∧
    c.entries.lookup "services" = some c.services.toValue ∧
    c.entries.lookup "tools" = some (.list (c.tools.map Tool.toValue)) := by
  rw [entries]
  cases c.ownSummaryOrder <;> exact ⟨rfl, rfl, rfl, rfl, rfl, rfl⟩

lemma nodup_entries (c : Config) : (c.entries.map Prod.fst).Nodup := by
  have hset : ["job_timeout_secs", "parallel_tools", "summary_order", "commit", "predicates", "services",
    "tools"].Nodup := by decide
  have hunset : ["job_timeout_secs", "parallel_tools", "commit", "predicates", "services", "tools"].Nodup := by
    decide
  rw [entries]
  cases c.ownSummaryOrder with
  | none => exact hunset
  | some order => exact hset

lemma withDefault_order (c : Config) {n : Nat} :
    Fields.withDefault ⟨false, settled (n + 1) c.entries⟩ .toml "summary_order" none
      (.optional (.list .text)) = some c.ownSummaryOrder := by
  cases ho : c.ownSummaryOrder with
  | none =>
    have hl : c.entries.lookup "summary_order" = none := by
      rw [entries, ho]
      rfl
    exact Fields.withDefault_settled_none c.nodup_entries _ hl none
  | some order =>
    have hl : c.entries.lookup "summary_order" = some (.texts order) := by
      rw [entries, ho]
      rfl
    exact Fields.withDefault_settled c.nodup_entries _ hl (.optional_texts order _)

lemma restored {c : Config} (h : c.HasWords) : Restored 3 decoder c.entries c := by
  have hseconds := Restores.size (n := 2) h.jobTimeout (some standard.jobTimeoutSecs)
  have hparallel := Restores.bool (n := 2) c.parallelTools (some standard.parallelTools)
  have hcommit : Restores 2 (some .standard) CommitConfig.decoder c.commit.toValue c.commit :=
    .table (c.commit.restored h.maxLineLength) (.inr (List.cons_ne_nil _ _)) _
  have hpredicates : Restores 2 (some standard.predicates) (.list PredicateSpec.decoder)
      (.list (c.predicates.map PredicateSpec.toValue)) c.predicates :=
    .rows _ fun p _ => p.restored
  have hservices : Restores 2 (some .standard) ServicesConfig.decoder c.services.toValue c.services :=
    .table (c.services.restored h.times.1 h.times.2) (.inr c.services.plainEntries_ne_nil) _
  have htools : Restores 2 (some standard.tools) (.list Tool.decoder)
      (.list (c.tools.map Tool.toValue)) c.tools :=
    .rows _ fun t ht => t.restored (h.toolTimeouts t ht)
  have hnames := c.nodup_entries
  obtain ⟨hl₁, hl₂, hl₃, hl₄, hl₅, hl₆⟩ := c.lookup_entries
  refine ⟨⟨hnames, ?_⟩, ?_⟩
  · simp only [entries, List.forall_mem_append, List.forall_mem_cons]
    refine ⟨⟨⟨hseconds.isEntry, hparallel.isEntry, List.forall_mem_nil _⟩, ?_⟩, hcommit.isEntry,
      hpredicates.isEntry, hservices.isEntry, htools.isEntry, List.forall_mem_nil _⟩
    cases c.ownSummaryOrder with
    | none => exact List.forall_mem_nil _
    | some order => exact List.forall_mem_singleton.mpr (.inr (.inl (isPlain_texts order)))
  · rw [decoder, bind_of_eq_some (Fields.ofValue_table _ _ _),
      bind_of_eq_some (Fields.withDefault_settled hnames _ hl₁ hseconds),
      bind_of_eq_some (Fields.withDefault_settled hnames _ hl₂ hparallel),
      bind_of_eq_some c.withDefault_order,
      bind_of_eq_some (Fields.withDefault_settled hnames _ hl₃ hcommit),
      bind_of_eq_some (Fields.withDefault_settled hnames _ hl₄ hpredicates),
      bind_of_eq_some (Fields.withDefault_settled hnames _ hl₅ hservices),
      bind_of_eq_some (Fields.withDefault_settled hnames _ hl₆ htools)]

lemma parse?_toText {c : Config} (h : c.HasWords) :
    ∃ printed, c.toText? = some printed ∧ parse? printed = some c := by
  have hrestored := restored h
  obtain ⟨printed, hprint, hread⟩ := read_print hrestored.isDocument (by decide)
  refine ⟨printed, hprint, ?_⟩
  rw [parse?, hread, Option.bind_some, hrestored.decodes]

/-- A configuration that a text gives has a text of its own, which gives the same configuration. -/
theorem ofText_toText {text : String} {c : Config} (h : ofText text = .ok c) :
    ∃ printed, c.toText? = some printed ∧ ofText printed = .ok c := by
  obtain ⟨hparse, hvalid⟩ := ofText_eq_ok_iff.mp h
  obtain ⟨value, hread, hdecode⟩ := Option.bind_eq_some_iff.mp hparse
  -- The decoder takes larger numbers than the printer does, but none of those can be read.
  have hwords : c.HasWords := yields_hasWords value c (numbersFit_of_read hread) hdecode
  obtain ⟨printed, hprint, hagain⟩ := parse?_toText hwords
  exact ⟨printed, hprint, ofText_eq_ok_iff.mpr ⟨hagain, hvalid⟩⟩

def sparseText : String :=
  "summary_order = [\"lint\"]\npredicates = []\n[services]\nrequired = []\n[[tools]]\n" ++
    "name = \"lint\"\ncommand = [\"ruff\"]\npolicy = \"fatal\"\nenv.MODE = \"ci\"\n"

def sparse : Config :=
  { standard with
    ownSummaryOrder := some ["lint"]
    predicates := []
    services := { ServicesConfig.standard with required := [] }
    tools := [((Tool.ofCommand "lint" ["ruff"]).fatal).withVariable "MODE" "ci"] }

theorem ofText_toText_sparse : ofText sparseText = .ok sparse ∧
    ∃ printed, sparse.toText? = some printed ∧ ofText printed = .ok sparse := by
  have h : ofText sparseText = .ok sparse := by decide +kernel
  exact ⟨h, ofText_toText h⟩

end Config

end Premerge

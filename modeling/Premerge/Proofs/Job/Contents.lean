import Mathlib.Data.List.Dedup
import Premerge.Proofs.Job.Failing
import Premerge.Proofs.Report.OwnFiles
import Premerge.Proofs.Run.RawReports

namespace Premerge

open Premerge.Change (ChangeSet)
open Premerge.Report (Directory Fragment Summary)
open Premerge.Text.Utf8 (encode)
open Premerge.World
open Premerge.World.FileTree (FilledWith StandsOutside)

variable {σ : Type}

namespace Report

variable {d : Directory} {base : Location} {names : List String} {w v : World σ}

lemma Summary.filledWith_publish {s : Summary} {shared : Option Path} {path : Path}
    (h : w.files.FilledWith d.path base names)
    (hp : (s.publish d shared).perform w = (.ok path, v))
    (ho : ∀ file ∈ shared, v.files.StandsOutside d.path file) :
    v.files.FilledWith d.path base (Directory.summaryFile :: names) := by
  rw [perform_publish] at hp
  rcases hw : w.files.writeNew d.summaryPath (encode s.text) with e | files <;> rw [hw] at hp
  · cases hp
  obtain ⟨location, hat, _, rfl⟩ := FileTree.writeNew_eq_ok_iff.mp hw
  have hsummary := h.put_entry Directory.isEntryName_summary hat (encode s.text)
  cases shared with
  | none =>
    cases hp
    exact hsummary
  | some file =>
    dsimp only [share] at hp
    rcases ha : FileTree.append _ file (encode s.text) with e | after <;> rw [ha] at hp
    · cases hp
    · cases hp
      exact hsummary.append_outside ha (ho file rfl)

lemma Directory.filledWith_create {path : Path} (ht : w.files.IsTree) (hpath : path ≠ "")
    (hb : ¬w.files.IsByway path) (h : (create path).perform w = (.ok d, v)) :
    d = ⟨path⟩ ∧ ∃ base, v.files.FilledWith path base [] :=
  ⟨(path_of_create h).1, FileTree.filledWith_of_list (list_of_create ht hpath hb h)⟩

namespace Directory

lemma ne_of_not_suffix {name ending : String} (h : ¬ending.toList <:+ name.toList)
    (stem : String) : name ≠ stem ++ ending := by
  rintro rfl
  exact h ⟨stem.toList, by rw [String.toList_append]⟩

lemma not_mem_of_not_suffix {name ending : String} (h : ¬ending.toList <:+ name.toList)
    (stems : List String) : name ∉ stems.map (· ++ ending) := by
  intro hm
  obtain ⟨stem, _, he⟩ := List.mem_map.mp hm
  exact ne_of_not_suffix h stem he.symm

lemma nodup_map_append {stems : List String} (h : stems.Nodup) (ending : String) :
    (stems.map (· ++ ending)).Nodup :=
  h.map fun _ _ he => by
    by_contra hne
    exact append_ne hne ending he

end Directory

end Report

namespace Job

variable {c : Config} {request : Request} {base : Location} {names : List String} {w v : World σ}

lemma filledWith_prepare {prepared : Prepared} (ht : w.files.IsTree) (hpath : request.reports ≠ "")
    (hb : ¬w.files.IsByway request.reports)
    (h : (prepare c request).perform w = (.ok prepared, v)) :
    ∃ base, v.files.FilledWith request.reports base [Directory.environmentFile] := by
  have hu := (onlyAsks_examine (σ := σ) c request).untouched w
  rw [prepare_eq] at h
  obtain ⟨known, u, hk, h⟩ := Action.perform_bind_ok h
  rw [hk] at hu
  obtain ⟨reports, _, hopen, h⟩ := Action.perform_bind_ok h
  cases h
  unfold openReports at hopen
  obtain ⟨made, x, hc, hopen⟩ := Action.perform_bind_ok hopen
  obtain ⟨_, _, hw, hopen⟩ := Action.perform_bind_ok hopen
  cases hopen
  rw [← hu.files] at ht hb
  obtain ⟨rfl, base, hempty⟩ := Directory.filledWith_create ht hpath hb hc
  rw [Directory.perform_writeEnvironment] at hw
  split at hw
  · cases hw
  next files hw' =>
    cases hw
    exact ⟨base, hempty.write Directory.isEntryName_environment hw'⟩

lemma filledWith_writeFragments {reports : Directory} {fragments : List Fragment}
    (h : w.files.FilledWith reports.path base names)
    (hp : ∀ fragment ∈ fragments, '/' ∉ fragment.name.toList)
    (hw : (writeFragments reports fragments).perform w = (.ok (), v)) :
    v.files.FilledWith reports.path base
      (fragments.map (·.name ++ Directory.fragmentSuffix) ++ names) := by
  induction fragments generalizing w names with
  | nil =>
    cases hw
    exact h
  | cons fragment rest ih =>
    rw [writeFragments] at hw
    obtain ⟨path, u, hfirst, hrest⟩ := Action.perform_bind_ok hw
    rw [Directory.perform_writeFragment] at hfirst
    split at hfirst
    · cases hfirst
    next files hf =>
      cases hfirst
      have hone := h.write (Directory.isEntryName_fragment (hp fragment (.head _))) hf
      have hall := ih hone (fun other hm => hp other (.tail _ hm)) hrest
      exact hall.congr fun name => by simp only [List.map_cons, List.mem_append, List.mem_cons]; tauto

lemma filledWith_conclude {job : Job} {began : Nat} {reports : Directory}
    {results : Workplace.Results} {report : JobReport}
    (h : w.files.FilledWith reports.path base names)
    (hp : ∀ fragment ∈ fragmentsOf results.outcomes, '/' ∉ fragment.name.toList)
    (hc : (conclude c request job began reports results).perform w = (.ok report, v))
    (ho : ∀ file ∈ request.sharedSummary, v.files.StandsOutside reports.path file) :
    v.files.FilledWith reports.path base (Directory.summaryFile ::
      ((fragmentsOf results.outcomes).map (·.name ++ Directory.fragmentSuffix) ++ names)) := by
  obtain ⟨u, hw⟩ := written_of_conclude hc
  obtain ⟨x, hx, herror, hok⟩ := conclude_of_written c request job began hw
  have hwritten := filledWith_writeFragments h hp hw
  rw [← hx] at hwritten
  rcases hpublish : ((summaryOf c results).publish reports request.sharedSummary).perform x with
    ⟨e | path, y⟩
  · cases (herror e y hpublish).symm.trans hc
  · obtain ⟨_, _, hc', _, _, hf⟩ := hok path y hpublish
    cases hc'.symm.trans hc
    rw [hf] at ho ⊢
    exact Summary.filledWith_publish hwritten hpublish ho

def reportFiles (together : Bool) (changes : ChangeSet) (tools : List Tool)
    (outcomes : List Outcome) : List String :=
  Directory.environmentFile :: Directory.summaryFile ::
    (Directory.rawNames changes (Outcome.turns together outcomes tools) ++
      ((fragmentsOf outcomes).map Fragment.name).dedup.map (· ++ Directory.fragmentSuffix))

variable {together : Bool} {changes : ChangeSet} {tools : List Tool} {outcomes : List Outcome}

lemma mem_reportFiles {name : String} :
    name ∈ reportFiles together changes tools outcomes ↔
      name = Directory.environmentFile ∨ name = Directory.summaryFile ∨
      name ∈ Directory.rawNames changes (Outcome.turns together outcomes tools) ∨
      ∃ fragment ∈ fragmentsOf outcomes, fragment.name ++ Directory.fragmentSuffix = name := by
  simp only [reportFiles, List.mem_cons, List.mem_append, List.mem_map, List.mem_dedup,
    exists_exists_and_eq_and]

lemma nodup_reportFiles (h : (tools.map Tool.reportName).Nodup) :
    (reportFiles together changes tools outcomes).Nodup := by
  have hbegun : ((Outcome.turns together outcomes tools).filter (Tool.runsFor changes)).Sublist tools :=
    List.filter_sublist.trans (Outcome.turns_sublist together outcomes tools)
  have hraws := Directory.nodup_map_append (h.sublist (hbegun.map Tool.reportName))
    Directory.rawSuffix
  have hfragments := Directory.nodup_map_append
    (List.nodup_dedup ((fragmentsOf outcomes).map Fragment.name)) Directory.fragmentSuffix
  rw [reportFiles, List.nodup_cons, List.nodup_cons, List.nodup_append, List.mem_cons,
    List.mem_append, List.mem_append]
  refine ⟨?_, ?_, hraws, hfragments, fun raw hr fragment hf => ?_⟩
  · rintro (he | hm | hm)
    · exact absurd he (by decide)
    · exact Directory.not_mem_of_not_suffix (by decide) _ hm
    · exact Directory.not_mem_of_not_suffix (by decide) _ hm
  · rintro (hm | hm)
    · exact Directory.not_mem_of_not_suffix (by decide) _ hm
    · exact Directory.not_mem_of_not_suffix (by decide) _ hm
  · obtain ⟨report, _, rfl⟩ := List.mem_map.mp hr
    obtain ⟨name, _, rfl⟩ := List.mem_map.mp hf
    exact Directory.raw_ne_fragment report name

lemma raw_not_mem_reportFiles (hd : (tools.map Tool.reportName).Nodup) {tool : Tool}
    (hm : tool ∈ tools) (hr : tool.runsFor changes = false) :
    tool.reportName ++ Directory.rawSuffix ∉ reportFiles together changes tools outcomes := by
  rw [mem_reportFiles]
  rintro (he | he | hraw | ⟨fragment, _, he⟩)
  · exact Directory.ne_of_not_suffix (by decide) _ he.symm
  · exact Directory.ne_of_not_suffix (by decide) _ he.symm
  · obtain ⟨report, hreport, he⟩ := List.mem_map.mp hraw
    obtain ⟨other, hother, rfl⟩ := List.mem_map.mp hreport
    obtain ⟨hturn, hruns⟩ := List.mem_filter.mp hother
    have hname : other.reportName = tool.reportName := by
      by_contra hne
      exact append_ne hne _ he
    -- Two tools of one report name are the same tool.
    have hsame := List.inj_on_of_nodup_map hd
      ((Outcome.turns_sublist together outcomes tools).subset hturn) hm hname
    rw [hsame, hr] at hruns
    cases hruns
  · exact Directory.raw_ne_fragment _ _ he.symm

lemma fragment_of_mem_reportFiles {name : String}
    (h : name ++ Directory.fragmentSuffix ∈ reportFiles together changes tools outcomes) :
    ∃ fragment ∈ fragmentsOf outcomes, fragment.name = name := by
  rcases mem_reportFiles.mp h with he | he | hraw | ⟨fragment, hf, he⟩
  · exact absurd he.symm (Directory.ne_of_not_suffix (by decide) _)
  · exact absurd he.symm (Directory.ne_of_not_suffix (by decide) _)
  · obtain ⟨report, _, he⟩ := List.mem_map.mp hraw
    exact absurd he (Directory.raw_ne_fragment _ _)
  · refine ⟨fragment, hf, ?_⟩
    by_contra hne
    exact append_ne hne _ he

lemma coverage_of_skipped (ho : List.Forall₂ (fun tool o => o.IsOf tool) tools outcomes)
    (hd : (tools.map Tool.reportName).Nodup) {index : Nat} {tool : Tool} {o : Outcome}
    (ht : tools[index]? = some tool) (houtcome : outcomes[index]? = some o) (hr : o.ran = false)
    {fragment : Fragment} (hf : fragment ∈ fragmentsOf outcomes)
    (hn : fragment.name = tool.reportName) :
    tool.reportName = Fragment.coverageName ∧
      ∃ other ∈ outcomes, other.ran = true ∧ other.kind = .testRunner := by
  obtain ⟨other, hother, hgives⟩ := List.mem_flatMap.mp hf
  obtain ⟨hmem, hran⟩ := List.mem_filter.mp hother
  obtain ⟨place, hp, rfl⟩ := List.getElem_of_mem hmem
  have hlt : place < tools.length := ho.length_eq ▸ hp
  have hof : (outcomes[place]).IsOf tools[place] := ho.get hlt hp
  have hreports : (outcomes[place]).Reports tools[place] := ⟨hof.reportName, hof.kind⟩
  have hfragment := hreports.names_sublist.subset (List.mem_map_of_mem hgives)
  rcases Tool.mem_fragmentNames.mp hfragment with hname | ⟨hkind, hname⟩
  · -- The fragment has the name of the tool that gave it, which is then the one that was skipped.
    have hlen : place < (tools.map Tool.reportName).length := by simpa using hlt
    obtain ⟨hlt', rfl⟩ := List.getElem?_eq_some_iff.mp ht
    obtain rfl : place = index :=
      (List.getElem?_inj hlen hd).mp (by simp [hlt, hlt', ← hname, hn])
    obtain ⟨_, rfl⟩ := List.getElem?_eq_some_iff.mp houtcome
    cases hran.symm.trans hr
  · exact ⟨hn.symm.trans hname, _, hmem, hran, hof.kind.trans hkind⟩

end Job

lemma Config.filledWith_run {runtime : Runtime σ} (hr : runtime.IsOutside) {c : Config}
    {request : Request} {w v : World σ} {report : JobReport}
    (ht : w.files.IsTree) (hpath : request.reports ≠ "") (hb : ¬w.files.IsByway request.reports)
    (hf : ∀ tool ∈ c.tools, Directory.Fits ⟨request.reports⟩ tool.reportName)
    (h : (c.run runtime request).perform w = (.ok report, v))
    (ho : ∀ file ∈ request.sharedSummary, v.files.StandsOutside request.reports file) :
    ∃ prepared first base, ∃ u : World σ, (Job.prepare c request).perform w = (.ok prepared, first) ∧
      report.outcomes = (prepared.place.runTools c.parallelTools (some (u.now + c.jobTimeoutMs))
        c.tools u).1.outcomes ∧
      v.files.FilledWith request.reports base (Job.reportFiles c.parallelTools
        prepared.place.changes c.tools report.outcomes) := by
  obtain ⟨prepared, first, session, u, hp, hs, hc⟩ := stages_of_run h
  obtain ⟨_, _, _, hreports⟩ := Job.known_of_prepare hp
  obtain ⟨houtcomes, _⟩ := Job.report_of_conclude hc
  obtain ⟨base, hfilled⟩ := Job.filledWith_prepare ht hpath hb hp
  refine ⟨prepared, first, base, u, hp, houtcomes, ?_⟩
  -- The services stand outside, so until the tools run the directory is as it was opened.
  have hknown := c.services_known
  have hready := (Session.start_outside hr (Job.patience c) hknown first).1
  rw [hs] at hready
  have hplace : prepared.place.reports.path = request.reports := by rw [hreports]
  rw [← hready, ← hplace] at hfilled
  have hran := Workplace.filledWith_runTools c.parallelTools (some (u.now + c.jobTimeoutMs))
    (fun tool hm => hreports ▸ hf tool hm) hfilled
  rw [← Job.keepsFiles_stopServices hr.files_down session] at hran
  have hplain : ∀ fragment ∈ Job.fragmentsOf (prepared.place.runTools c.parallelTools
      (some (u.now + c.jobTimeoutMs)) c.tools u).1.outcomes, '/' ∉ fragment.name.toList :=
    fun fragment hm => Job.slash_of_fragment
      ((prepared.place.isOf_runTools _ _ _ _).imp fun _ _ h => ⟨h.reportName, h.kind⟩)
      (fun tool ht => (hf tool ht).plain) hm
  have hall := Job.filledWith_conclude hran hplain hc (hplace ▸ ho)
  rw [hplace, ← houtcomes] at hall
  refine hall.congr fun name => ?_
  rw [Job.mem_reportFiles]
  simp only [List.mem_cons, List.mem_append, List.mem_map, List.not_mem_nil, or_false]
  grind

/-- A job with a report leaves just its own files in the report directory, each under a name of its
own: what is known about it, its summary, a raw report of each tool that began, and a file for each
name of a fragment. A tool that was skipped has no raw report there and gives no fragment. An empty
path makes no directory, and a byway leads to one that has been there before. -/
theorem Config.reportFiles_of_run {runtime : Runtime σ} (hr : runtime.IsOutside) {c : Config}
    {request : Request} {w v : World σ} {report : JobReport}
    (ht : w.files.IsTree) (hpath : request.reports ≠ "") (hb : ¬w.files.IsByway request.reports)
    (hf : ∀ tool ∈ c.tools, Directory.Fits ⟨request.reports⟩ tool.reportName)
    (h : (c.run runtime request).perform w = (.ok report, v))
    (ho : ∀ file ∈ request.sharedSummary, v.files.StandsOutside request.reports file) :
    ∃ prepared first names, (Job.prepare c request).perform w = (.ok prepared, first) ∧
      v.files.list request.reports = .ok names ∧
      names.Perm (Job.reportFiles c.parallelTools prepared.place.changes c.tools report.outcomes) ∧
      names.Nodup ∧
      ∀ (index : Nat) (tool : Tool) (o : Outcome), c.tools[index]? = some tool →
        report.outcomes[index]? = some o → o.ran = false →
        tool.reportName ++ Directory.rawSuffix ∉ names ∧
        (tool.reportName ++ Directory.fragmentSuffix ∈ names →
          tool.reportName = Fragment.coverageName ∧
            ∃ other ∈ report.outcomes, other.ran = true ∧ other.kind = .testRunner) := by
  obtain ⟨prepared, first, base, u, hp, houtcomes, hfilled⟩ := filledWith_run hr ht hpath hb hf h ho
  obtain ⟨table, htable, _, _⟩ := Job.known_of_prepare hp
  have hd := ToolTable.nodup_reports_of_ofList htable
  have hnodup : (Job.reportFiles c.parallelTools prepared.place.changes c.tools
      report.outcomes).Nodup := Job.nodup_reportFiles hd
  obtain ⟨names, hlist, hperm⟩ := hfilled.exists_list hnodup
  refine ⟨prepared, first, names, hp, hlist, hperm, hperm.nodup_iff.mpr hnodup,
    fun index tool o htool ho hskipped => ?_⟩
  rw [hperm.mem_iff, hperm.mem_iff]
  constructor
  · rw [houtcomes] at ho
    exact Job.raw_not_mem_reportFiles hd (List.mem_of_getElem? htool)
      (Workplace.runsFor_of_skipped htool ho hskipped)
  · intro hm
    obtain ⟨fragment, hgiven, hname⟩ := Job.fragment_of_mem_reportFiles hm
    have hof := prepared.place.isOf_runTools c.parallelTools (some (u.now + c.jobTimeoutMs)) c.tools u
    rw [← houtcomes] at hof
    exact Job.coverage_of_skipped hof hd htool ho hskipped hgiven hname

def formerWorld : World Unit :=
  { lintWorld with files := FileTree.fresh.put ["work", "old-report.md"] (.file (encode "old\n")) }

def bywayRequest : Request := { lintRequest none with reports := "new/.." }

def bywayRun : Except Failure JobReport × World Unit :=
  (lintConfig.run (Composition.runtime ⟨none, none, none⟩) bywayRequest).perform formerWorld

/-- A job can have its reports among files of a former one. -/
theorem reports_among_others :
    lintConfig.validate = .ok () ∧ (∀ tool ∈ lintConfig.tools, Directory.Fits ⟨"new/.."⟩ tool.reportName) ∧
    ∃ report v, bywayRun = (.ok report, v) ∧
      v.files.list "new/.." = .ok ["summary.md", "lint-report.md", "lint-report.txt",
        "environment.txt", "new", "old-report.md"] ∧
      ∀ changes, "old-report.md" ∉
        Job.reportFiles lintConfig.parallelTools changes lintConfig.tools report.outcomes := by
  have hrun : bywayRun.1.map (fun report => (Job.fragmentsOf report.outcomes).map Fragment.name) =
        .ok ["lint"] ∧
      bywayRun.2.files.list "new/.." = .ok ["summary.md", "lint-report.md", "lint-report.txt",
        "environment.txt", "new", "old-report.md"] := by
    decide +kernel
  refine ⟨rfl, ?_, ?_⟩
  · intro tool hm
    obtain rfl := List.mem_singleton.mp hm
    exact ⟨by decide, by decide +kernel, by decide +kernel⟩
  rcases he : bywayRun with ⟨e | report, v⟩ <;> rw [he] at hrun
  · cases hrun.1
  refine ⟨report, v, rfl, hrun.2, fun changes hm => ?_⟩
  have hold : "old-report.md" = "old" ++ Directory.fragmentSuffix := by decide +kernel
  rw [hold] at hm
  obtain ⟨fragment, hf, hn⟩ := Job.fragment_of_mem_reportFiles hm
  have hnames : (Job.fragmentsOf report.outcomes).map Fragment.name = ["lint"] :=
    Except.ok.inj hrun.1
  have hgiven : fragment.name ∈ (Job.fragmentsOf report.outcomes).map Fragment.name :=
    List.mem_map_of_mem hf
  rw [hnames, hn] at hgiven
  exact absurd hgiven (by decide)

theorem reportFiles_of_run_lint :
    ∃ report v names, lintRun (some "step.md") = (.ok report, v) ∧
      v.files.list "reports" = .ok names ∧ names.Nodup ∧
      names.Perm ["environment.txt", "summary.md", "lint-report.txt", "lint-report.md"] := by
  have hrun : (lintRun (some "step.md")).1.map
        (fun report => (Job.fragmentsOf report.outcomes).map Fragment.name) = .ok ["lint"] ∧
      ((lintRun (some "step.md")).2.files.locate "reports").map FileTree.Spot.location =
        .ok ["work", "reports"] ∧
      ((lintRun (some "step.md")).2.files.locate "step.md").map FileTree.Spot.location =
        .ok ["work", "step.md"] := by
    decide +kernel
  rcases he : lintRun (some "step.md") with ⟨e | report, v⟩ <;> rw [he] at hrun
  · cases hrun.1
  obtain ⟨hfragments, hreports, hshared⟩ := hrun
  have hnames : (Job.fragmentsOf report.outcomes).map Fragment.name = ["lint"] :=
    Except.ok.inj hfragments
  have ht : lintWorld.files.IsTree := FileTree.isTree_fresh
  have hfits : ∀ tool ∈ lintConfig.tools, Directory.Fits ⟨"reports"⟩ tool.reportName := by
    intro tool hm
    obtain rfl := List.mem_singleton.mp hm
    exact ⟨by decide, by decide +kernel, by decide +kernel⟩
  have houtside : ∀ file ∈ some "step.md", v.files.StandsOutside "reports" file := by
    rintro _ ⟨⟩ base location ⟨_, hbase⟩ ⟨hlocation, _⟩
    rw [hbase] at hreports
    rw [hlocation] at hshared
    cases hreports
    cases hshared
    decide
  obtain ⟨prepared, first, names, _, hlist, hperm, hnodup, _⟩ := Config.reportFiles_of_run
    (Composition.isOutside_runtime ⟨none, none, none⟩) ht (by decide) (ht.not_isByway (by decide))
    hfits he houtside
  refine ⟨report, v, names, rfl, hlist, hnodup, hperm.trans (.of_eq ?_)⟩
  have hturns : Outcome.turns lintConfig.parallelTools report.outcomes lintConfig.tools =
      lintConfig.tools :=
    List.take_of_length_le (Nat.le_add_left 1 _)
  have hraw : Directory.rawNames prepared.place.changes lintConfig.tools = ["lint-report.txt"] := by
    rfl
  rw [Job.reportFiles, hnames, hturns, hraw]
  decide +kernel

end Premerge

import Premerge.Proofs.Job.Publication

namespace Premerge

open Premerge.Report (Directory Fragment)
open Premerge.Text.Utf8 (encode)
open Premerge.World
open Premerge.World.FileTree (DiffersIn)

variable {σ : Type}

namespace Report.Directory

def fileNames (report : String) : List String :=
  [report ++ rawSuffix, report ++ fragmentSuffix]

lemma raw_ne_fragment (report other : String) : report ++ rawSuffix ≠ other ++ fragmentSuffix := by
  intro he
  have hlast := congrArg (fun text => text.toList.getLast?) he
  simp [String.toList_append, rawSuffix, fragmentSuffix] at hlast

lemma disjoint_fileNames {report other : String} (h : report ≠ other) :
    (fileNames report).Disjoint (fileNames other) := by
  intro name hr ho
  simp only [fileNames, List.mem_cons, List.not_mem_nil, or_false] at hr ho
  rcases hr with rfl | rfl <;> rcases ho with ho | ho
  · exact append_ne h _ ho
  · exact raw_ne_fragment _ _ ho
  · exact raw_ne_fragment _ _ ho.symm
  · exact append_ne h _ ho

lemma nodup_fileNames {reports : List String} (h : reports.Nodup) :
    (reports.flatMap fileNames).Nodup := by
  refine List.nodup_flatMap.mpr ⟨fun report _ => ?_, List.Pairwise.imp disjoint_fileNames h⟩
  simpa [fileNames] using raw_ne_fragment report report

def IsEntryPath (d : Directory) (path : Path) (name : String) : Prop :=
  ∀ (tree : FileTree) (spot : FileTree.Spot), tree.locate path = .ok spot ↔
    FileTree.pathFault? path = none ∧ name.utf8ByteSize ≤ FileTree.longestName ∧
      ∃ root, tree.inside d.path = .ok root ∧
        spot = ⟨root ++ [name], tree.get? (root ++ [name]), false⟩

lemma isEntryPath_join (d : Directory) {name : String} (h : IsEntryName name) :
    d.IsEntryPath (Path.join d.path name) name :=
  fun _ _ => FileTree.locate_join_eq_ok_iff h

structure KeepsApart (d : Directory) (tools : List Tool) : Prop where
  nodup : (tools.flatMap fun tool => fileNames tool.reportName).Nodup
  raw : ∀ tool ∈ tools,
    d.IsEntryPath (d.rawPath tool.reportName) (tool.reportName ++ rawSuffix)
  fragment : ∀ tool ∈ tools,
    d.IsEntryPath (d.fragmentPath tool.reportName) (tool.reportName ++ fragmentSuffix)

lemma keepsApart_of_nodup (d : Directory) {tools : List Tool}
    (hd : (tools.map Tool.reportName).Nodup) (hp : ∀ tool ∈ tools, '/' ∉ tool.reportName.toList) :
    d.KeepsApart tools where
  nodup := by
    have hn := nodup_fileNames hd
    rwa [List.flatMap_map] at hn
  raw tool hm := d.isEntryPath_join (Workplace.isEntryName_raw (hp tool hm))
  fragment tool hm := d.isEntryPath_join (isEntryName_fragment (hp tool hm))

lemma differsIn_writeFragment {d : Directory} {names : List String} {tree : FileTree}
    {fragment : Fragment} {w : World σ} (h : DiffersIn d.path names tree w.files)
    (hp : '/' ∉ fragment.name.toList) (hm : fragment.name ++ fragmentSuffix ∈ names) :
    DiffersIn d.path names tree ((d.writeFragment fragment).perform w).2.files := by
  rw [perform_writeFragment]
  rcases hw : w.files.write (d.fragmentPath fragment.name) (encode fragment.body) with e | files
  · exact h
  · exact h.write (isEntryName_fragment hp) hm hw

end Report.Directory

lemma Job.differsIn_writeFragments (reports : Directory) {names : List String} {tree : FileTree}
    {fragments : List Fragment} {w : World σ} (h : DiffersIn reports.path names tree w.files)
    (hp : ∀ fragment ∈ fragments, '/' ∉ fragment.name.toList)
    (hm : ∀ fragment ∈ fragments, fragment.name ++ Directory.fragmentSuffix ∈ names) :
    DiffersIn reports.path names tree ((writeFragments reports fragments).perform w).2.files := by
  induction fragments generalizing w with
  | nil => exact h
  | cons fragment rest ih =>
    have hfirst := Directory.differsIn_writeFragment h (hp _ (.head _)) (hm _ (.head _))
    rw [writeFragments, Action.perform_bind]
    rcases hw : (reports.writeFragment fragment).perform w with ⟨e | path, v⟩ <;> rw [hw] at hfirst
    · exact hfirst
    · exact ih hfirst (fun other ho => hp other (.tail _ ho)) fun other ho => hm other (.tail _ ho)

lemma Workplace.preservesFor_differsIn (p : Workplace) {tools : List Tool}
    (hp : ∀ tool ∈ tools, '/' ∉ tool.reportName.toList) (tree : FileTree) :
    p.PreservesFor (· ∈ tools)
      (DiffersIn p.reports.path (tools.map (·.reportName ++ Directory.rawSuffix)) tree) :=
  fun _ _ tool _ hm h hw =>
    h.write (isEntryName_raw (hp tool hm)) (List.mem_map_of_mem hm) hw

namespace World.FileTree.DiffersIn

variable {d : Directory} {tools : List Tool} {tree after : FileTree}

lemma read_raw (h : DiffersIn d.path (tools.map (·.reportName ++ Directory.rawSuffix)) tree after)
    {report : String} (hp : '/' ∉ report.toList) (hn : report ∉ tools.map Tool.reportName) :
    after.read (d.rawPath report) = tree.read (d.rawPath report) := by
  refine read_of_locate (h.locate (Workplace.isEntryName_raw hp) fun hm => ?_)
  obtain ⟨tool, ht, he⟩ := List.mem_map.mp hm
  have hne : tool.reportName ≠ report := fun hr => hn (hr ▸ List.mem_map_of_mem ht)
  exact append_ne hne _ he

lemma read_fragment
    (h : DiffersIn d.path (tools.map (·.reportName ++ Directory.rawSuffix)) tree after)
    {report : String} (hp : '/' ∉ report.toList) :
    after.read (d.fragmentPath report) = tree.read (d.fragmentPath report) := by
  refine read_of_locate (h.locate (Directory.isEntryName_fragment hp) fun hm => ?_)
  obtain ⟨tool, _, he⟩ := List.mem_map.mp hm
  exact Directory.raw_ne_fragment _ _ he

end World.FileTree.DiffersIn

/-- In a configuration that names its reports by plain names, each tool has two files of its own in
every report directory. A run of some of the tools changes nothing but their raw reports, and no
fragment is written anywhere but into the directory. -/
theorem Config.reports_stand_apart {c : Config} (hc : c.validate = .ok ())
    (hp : ∀ tool ∈ c.tools, '/' ∉ tool.reportName.toList) (d : Directory) :
    d.KeepsApart c.tools ∧
    (∀ (p : Workplace) (together : Bool) (deadline : Option Nat) (tools : List Tool)
      (w v : World σ), p.reports = d → tools ⊆ c.tools →
      (p.runTools together deadline tools w).2 = v →
      DiffersIn d.path (tools.map (·.reportName ++ Directory.rawSuffix)) w.files v.files ∧
      ∀ tool ∈ c.tools,
        (tool ∉ tools →
          v.files.read (d.rawPath tool.reportName) = w.files.read (d.rawPath tool.reportName)) ∧
        v.files.read (d.fragmentPath tool.reportName) =
          w.files.read (d.fragmentPath tool.reportName)) ∧
    ∀ (outcomes : List Outcome) (w v : World σ),
      List.Forall₂ (fun tool o => o.Reports tool) c.tools outcomes →
      ((Job.writeFragments d (Job.fragmentsOf outcomes)).perform w).2 = v →
      DiffersIn d.path ((Job.fragmentsOf outcomes).map (·.name ++ Directory.fragmentSuffix))
        w.files v.files := by
  have hd := nodup_reports_of_validate hc
  refine ⟨d.keepsApart_of_nodup hd hp, ?_, ?_⟩
  · rintro p together deadline tools w _ rfl hs rfl
    have h := (p.preservesFor_differsIn (fun tool hm => hp tool (hs hm)) w.files).runTools together
      deadline (fun _ hm => hm) (.refl _ _ w.files)
    refine ⟨h, fun tool hm => ⟨fun hn => h.read_raw (hp tool hm) fun hr => ?_,
      h.read_fragment (hp tool hm)⟩⟩
    obtain ⟨other, ho, he⟩ := List.mem_map.mp hr
    -- Two tools of one report name are the same tool.
    exact hn (List.inj_on_of_nodup_map hd (hs ho) hm he ▸ ho)
  · rintro outcomes w _ ho rfl
    exact Job.differsIn_writeFragments d (.refl _ _ _)
      (fun fragment hm => Job.slash_of_fragment ho hp hm) fun fragment hm => List.mem_map_of_mem hm

theorem reports_stand_apart_lint :
    lintConfig.validate = .ok () ∧ (∀ tool ∈ lintConfig.tools, '/' ∉ tool.reportName.toList) ∧
    Directory.KeepsApart ⟨"reports"⟩ lintConfig.tools := by
  have hc : lintConfig.validate = .ok () := by rfl
  have hp : ∀ tool ∈ lintConfig.tools, '/' ∉ tool.reportName.toList := by decide
  exact ⟨hc, hp, (Config.reports_stand_apart (σ := Unit) hc hp ⟨"reports"⟩).1⟩

def collidingConfig : Config :=
  { lintConfig with
    tools := [Tool.ofCommand "lint" ["lint"], Tool.ofCommand "./lint" ["black"],
      Tool.ofCommand "../lint" ["isort"]] }

def collidingWorld : World Unit :=
  .fresh (Programs.withRepository fun call =>
    if call.name = "lint" then some ⟨[.write .output [108]], .exit 0, 0⟩
    else if call.name = "black" then some ⟨[.write .output [98]], .exit 0, 0⟩
    else if call.name = "isort" then some ⟨[.write .output [105]], .exit 0, 0⟩
    else none)

def collidingRun : Except Failure JobReport × World Unit :=
  (collidingConfig.run (Composition.runtime ⟨none, none, none⟩) (lintRequest none)).perform
    collidingWorld

/-- In an accepted configuration one tool can write over the raw report of another, and one can have
its files outside of the report directory. -/
theorem reports_collide :
    collidingConfig.validate = .ok () ∧ ∃ report v, collidingRun = (.ok report, v) ∧
      v.files.inside "reports" = .ok ["work", "reports"] ∧
      (["lint", "./lint", "../lint"].map fun name =>
        (v.files.locate (Directory.rawPath ⟨"reports"⟩ name)).map (·.location)) =
        [.ok ["work", "reports", "lint-report.txt"], .ok ["work", "reports", "lint-report.txt"],
          .ok ["work", "lint-report.txt"]] ∧
      v.files.read "reports/lint-report.txt" = .ok [98] ∧
      v.files.read "lint-report.txt" = .ok [105] := by
  have hrun : collidingRun.1.isOk = true ∧
      collidingRun.2.files.inside "reports" = .ok ["work", "reports"] ∧
      (["lint", "./lint", "../lint"].map fun name =>
        (collidingRun.2.files.locate (Directory.rawPath ⟨"reports"⟩ name)).map (·.location)) =
        [.ok ["work", "reports", "lint-report.txt"], .ok ["work", "reports", "lint-report.txt"],
          .ok ["work", "lint-report.txt"]] ∧
      collidingRun.2.files.read "reports/lint-report.txt" = .ok [98] ∧
      collidingRun.2.files.read "lint-report.txt" = .ok [105] := by
    decide +kernel
  rcases hr : collidingRun with ⟨e | report, v⟩ <;> rw [hr] at hrun
  · cases hrun.1
  · exact ⟨rfl, report, v, rfl, hrun.2⟩

end Premerge

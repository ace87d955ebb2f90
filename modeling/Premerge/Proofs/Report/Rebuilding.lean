import Mathlib.Data.List.Perm.Subperm
import Premerge.Proofs.CommandLine.ExitStatus
import Premerge.Proofs.Report.Creating
import Premerge.Proofs.Report.FragmentFiles
import Premerge.Proofs.Report.Order
import Premerge.Proofs.Report.Publishing
import Premerge.Proofs.Text.Utf8

/-! A summary can be composed again from the files of the report directory: they hold the fragments
that were written, in whatever order, and nothing else there is taken for one. -/

namespace Premerge

open Premerge.Text.Utf8 (Octets encode decode)
open Premerge.World

variable {σ : Type}

namespace Report.Directory

inductive Entry where
  | fragment (fragment : Fragment)
  | raw (report : String) (content : Octets)
  | environment (entries : List (String × String))
  | summary (text : String)

namespace Entry

def fragment? : Entry → Option Fragment
  | fragment f => some f
  | _ => none

def path (d : Directory) : Entry → Path
  | fragment f => d.fragmentPath f.name
  | raw report _ => d.rawPath report
  | environment _ => d.environmentPath
  | summary _ => d.summaryPath

def content : Entry → Octets
  | fragment f => encode f.body
  | raw _ content => content
  | environment entries => encode (environmentText entries)
  | summary text => encode text

def store (d : Directory) : Entry → Action σ Unit
  | fragment f => do
    let _ ← d.writeFragment f
  | raw report content => Action.changeFiles .system (·.write (d.rawPath report) content)
  | environment entries => do
    let _ ← d.writeEnvironment entries
  | summary text => do
    let _ ← d.writeSummary text

lemma writesAt_of_changeFiles {fault : SystemError → Failure} {path : Path} {content : Octets}
    {w v : World σ}
    (h : (Action.changeFiles fault (·.write path content)).perform w = (.ok (), v)) :
    ∃ location, w.files.WritesAt path location ∧
      v.files = w.files.put location (.file content) :=
  FileTree.write_eq_ok_iff.mp (Action.change_of_changeFiles h)

lemma put_of_store {d : Directory} {entry : Entry} {w v : World σ}
    (h : (entry.store d).perform w = (.ok (), v)) :
    ∃ location, w.files.WritesAt (entry.path d) location ∧
      v.files = w.files.put location (.file entry.content) := by
  have hwrite {change : Action σ Unit} {path : Path}
      (hs : ((change >>= fun _ => pure path) >>= fun _ => pure ()).perform w = (.ok (), v)) :
      change.perform w = (.ok (), v) := by
    obtain ⟨_, _, hp, hs⟩ := Action.perform_bind_ok hs
    obtain ⟨⟨⟩, _, hw, hp⟩ := Action.perform_bind_ok hp
    cases hp
    cases hs
    exact hw
  cases entry with
  | fragment f => exact writesAt_of_changeFiles (hwrite h)
  | raw report content => exact writesAt_of_changeFiles h
  | environment entries => exact writesAt_of_changeFiles (hwrite h)
  | summary text =>
    obtain ⟨location, hat, _, hv⟩ :=
      FileTree.writeNew_eq_ok_iff.mp (Action.change_of_changeFiles (hwrite h))
    exact ⟨location, hat, hv⟩

end Entry

lemma fragmentOfFile?_fragment (name : String) :
    fragmentOfFile? (name ++ fragmentSuffix) = some name := by
  have hs : fragmentSuffix.toList.isSuffixOf (name ++ fragmentSuffix).toList = true := by
    simp [String.toList_append]
  rw [fragmentOfFile?, if_pos hs, String.length_append, Nat.add_sub_cancel, String.toList_append]
  simp [← String.length_toList]

lemma fragmentOfFile?_of_ending {name ending : String}
    (h : ¬fragmentSuffix.toList <:+ ending.toList) (hl : ending.length ≥ fragmentSuffix.length) :
    fragmentOfFile? (name ++ ending) = none := by
  rw [fragmentOfFile?, if_neg]
  rw [List.isSuffixOf_iff_suffix, String.toList_append]
  intro hs
  refine h ((List.suffix_of_suffix_length_le hs (List.suffix_append _ _) ?_))
  simpa [← String.length_toList] using hl

lemma fragmentOfFile?_getLast {d : Directory} {entry : Entry} (he : entry.fragment? = none)
    {tree : FileTree} {location : Location} (hw : tree.WritesAt (entry.path d) location) :
    ∃ name, location.getLast? = some name ∧ fragmentOfFile? name = none := by
  cases entry with
  | fragment f => cases he
  | raw report content =>
    obtain ⟨front, hfront⟩ := Path.toList_join d.path (report ++ rawSuffix)
    rw [String.toList_append, ← List.append_assoc] at hfront
    obtain ⟨lead, stem, hstem, hparts⟩ := Path.parts_of_ending hfront (by decide)
    exact ⟨stem ++ rawSuffix,
      hw.getLast? hparts (isEntryName_append hstem (by decide) (by decide)),
      fragmentOfFile?_of_ending (by decide) (by decide)⟩
  | environment entries =>
    have hn : IsEntryName environmentFile := ⟨by decide, by decide, by decide, by decide⟩
    exact ⟨environmentFile, hw.getLast? (Path.parts_join d.path hn.noSlash) hn, by decide⟩
  | summary text =>
    exact ⟨summaryFile,
      hw.getLast? (Path.parts_join d.path isEntryName_summary.noSlash) isEntryName_summary,
      by decide⟩

structure Holds (d : Directory) (base : Location) (written : List Fragment) (tree : FileTree) :
    Prop where
  leadsTo : tree.LeadsTo d.path base
  names : ((tree.children base).filterMap fragmentOfFile?).Perm (written.map Fragment.name)
  stored : ∀ f ∈ written,
    tree.Stores (d.fragmentPath f.name) (base ++ [f.name ++ fragmentSuffix]) (encode f.body)

variable {d : Directory} {base : Location} {written : List Fragment} {tree : FileTree}

lemma holds_of_list (h : tree.list d.path = .ok []) : ∃ base, Holds d base [] tree := by
  obtain ⟨base, hl, hc⟩ := FileTree.list_eq_ok_iff.mp h
  exact ⟨base, hl, by simp [← hc], by simp⟩

lemma Holds.put_other (h : Holds d base written tree) {location : Location} {name : String}
    (hl : location.getLast? = some name) (hn : fragmentOfFile? name = none)
    (hd : tree.get? location ≠ some .directory) (content : Octets) :
    Holds d base written (tree.put location (.file content)) := by
  have hk := FileTree.keeps_put tree content hd
  refine ⟨h.leadsTo.keeps hk, ?_, fun f hf => (h.stored f hf).put_of_ne hd ?_ content⟩
  · rw [FileTree.filterMap_children_put]
    · exact h.names
    · intro other ho
      rw [Option.some.inj (ho.symm.trans hl), hn]
  · rintro rfl
    rw [List.getLast?_concat, Option.some.injEq] at hl
    rw [← hl, fragmentOfFile?_fragment] at hn
    cases hn

lemma Holds.put_fragment (h : Holds d base written tree) {f : Fragment} {location : Location}
    (hf : '/' ∉ f.name.toList) (hnew : f.name ∉ written.map Fragment.name)
    (hw : tree.WritesAt (d.fragmentPath f.name) location) :
    Holds d base (f :: written) (tree.put location (.file (encode f.body))) := by
  have hk := FileTree.keeps_put tree (encode f.body) hw.2
  obtain ⟨place, hb, rfl⟩ := FileTree.inside_of_locate (isEntryName_fragment hf) hw.1
  obtain rfl : place = base := by
    rw [FileTree.inside_of_leadsTo h.leadsTo] at hb
    exact (Except.ok.inj hb).symm
  refine ⟨h.leadsTo.keeps hk, ?_, fun other ho => ?_⟩
  · have hself : FileTree.nameBelow? place (place ++ [f.name ++ fragmentSuffix]) =
        some (f.name ++ fragmentSuffix) := FileTree.nameBelow?_eq_some_iff.mpr rfl
    -- No child has the name yet, else a fragment of it had been written.
    have hothers : (tree.children place).filter
        (place ++ [·] ≠ place ++ [f.name ++ fragmentSuffix]) = tree.children place := by
      refine List.filter_eq_self.mpr fun name hm => ?_
      simp only [ne_eq, List.append_cancel_left_eq, List.cons.injEq, and_true, decide_eq_true_eq]
      rintro rfl
      exact hnew (h.names.subset (List.mem_filterMap.mpr ⟨_, hm, fragmentOfFile?_fragment f.name⟩))
    rw [FileTree.children_put, hself, hothers]
    simpa [fragmentOfFile?_fragment] using h.names
  · rcases List.mem_cons.mp ho with rfl | ho
    · exact hw.stores _
    · refine (h.stored other ho).put_of_ne hw.2 ?_ _
      have hne : other.name ≠ f.name := fun he => hnew (he ▸ List.mem_map_of_mem ho)
      simpa using append_ne hne fragmentSuffix

lemma Holds.store {entry : Entry} {w v : World σ} (h : Holds d base written w.files)
    (hs : (entry.store d).perform w = (.ok (), v))
    (hnew : ∀ f ∈ entry.fragment?, '/' ∉ f.name.toList ∧ f.name ∉ written.map Fragment.name) :
    Holds d base (entry.fragment?.toList ++ written) v.files := by
  obtain ⟨location, hw, hv⟩ := Entry.put_of_store hs
  rw [hv]
  cases he : entry.fragment? with
  | none =>
    obtain ⟨name, hl, hname⟩ := fragmentOfFile?_getLast he hw
    exact h.put_other hl hname hw.2 entry.content
  | some f =>
    obtain rfl : entry = .fragment f := by
      cases entry <;> cases he
      rfl
    obtain ⟨hplain, hn⟩ := hnew f rfl
    exact h.put_fragment hplain hn hw

def storeAll (d : Directory) : List Entry → Action σ Unit
  | [] => pure ()
  | entry :: rest => do
    entry.store d
    storeAll d rest

lemma filterMap_fragment?_cons (entry : Entry) (rest : List Entry) :
    (entry :: rest).filterMap Entry.fragment? =
      entry.fragment?.toList ++ rest.filterMap Entry.fragment? := by
  cases he : entry.fragment? <;> simp [he]

lemma Holds.storeAll {entries : List Entry} {w v : World σ} (h : Holds d base written w.files)
    (hs : (storeAll d entries).perform w = (.ok (), v))
    (hn : (written ++ entries.filterMap Entry.fragment?).map Fragment.name |>.Nodup)
    (hp : ∀ f ∈ entries.filterMap Entry.fragment?, '/' ∉ f.name.toList) :
    ∃ all, all.Perm (written ++ entries.filterMap Entry.fragment?) ∧ Holds d base all v.files := by
  induction entries generalizing written w with
  | nil =>
    cases hs
    exact ⟨written, by simp, h⟩
  | cons entry rest ih =>
    rw [Directory.storeAll] at hs
    obtain ⟨⟨⟩, u, hfirst, hrest⟩ := Action.perform_bind_ok hs
    rw [filterMap_fragment?_cons] at hn hp ⊢
    have hnext := h.store hfirst fun f hf => by
      have hm := List.mem_append_left (rest.filterMap Entry.fragment?) (Option.mem_toList.mpr hf)
      rw [List.map_append, List.nodup_append] at hn
      exact ⟨hp f hm, fun hw => hn.2.2 _ hw _ (List.mem_map_of_mem hm) rfl⟩
    have hperm : (written ++ (entry.fragment?.toList ++ rest.filterMap Entry.fragment?)).Perm
        (entry.fragment?.toList ++ written ++ rest.filterMap Entry.fragment?) := by
      rw [List.append_assoc]
      exact List.perm_append_comm_assoc _ _ _
    obtain ⟨all, hall, hv⟩ := ih hnext hrest ((hperm.map Fragment.name).nodup_iff.mp hn)
      fun f hm => hp f (List.mem_append_right _ hm)
    exact ⟨all, hall.trans hperm.symm, hv⟩

lemma Holds.perform_readFragment {w : World σ} (h : Holds d base written w.files) {f : Fragment}
    (hf : f ∈ written) : (d.readFragment f.name).perform w = (.ok (some f), w) := by
  rw [readFragment, Action.perform_bind, Action.perform_lookAtFiles, textAt?,
    (h.stored f hf).read]
  simp only [Except.mapError, Text.Utf8.decode_encode]
  rfl

lemma Holds.perform_readAll {w : World σ} (h : Holds d base written w.files) {names : List String}
    (hn : ∀ name ∈ names, name ∈ written.map Fragment.name) :
    ∃ read, (Summary.readAll d names).perform w = (.ok read, w) ∧
      read.map Fragment.name = names ∧ ∀ f ∈ read, f ∈ written := by
  induction names with
  | nil => exact ⟨[], rfl, rfl, by simp⟩
  | cons name rest ih =>
    obtain ⟨read, hr, hnames, hm⟩ := ih fun other ho => hn other (.tail _ ho)
    obtain ⟨f, hf, rfl⟩ := List.mem_map.mp (hn name (.head _))
    refine ⟨f :: read, ?_, by simp [hnames], by simpa [hf] using hm⟩
    rw [Summary.readAll, Action.perform_bind, h.perform_readFragment hf]
    dsimp only
    rw [Action.perform_bind, hr]
    rfl

end Report.Directory

namespace Report.Summary

lemma find?_eq_some_iff {fragments : List Fragment} (hn : (fragments.map Fragment.name).Nodup)
    {name : String} {f : Fragment} :
    find? fragments name = some f ↔ f ∈ fragments ∧ f.name = name :=
  Data.find?_eq_some_iff_of_nodup hn

lemma compose_perm {fragments other : List Fragment} (hp : fragments.Perm other)
    (hn : (fragments.map Fragment.name).Nodup) (order failures : List String) :
    compose order fragments failures = compose order other failures := by
  have hfind : find? fragments = find? other := by
    funext name
    refine Option.ext fun f => ?_
    rw [find?_eq_some_iff hn, find?_eq_some_iff ((hp.map _).nodup_iff.mp hn), hp.mem_iff]
  rw [compose, compose, selected, selected, hfind]

end Report.Summary

namespace Report.Directory

lemma perform_ofDirectory {d : Directory} {w v : World σ} {files : List String}
    {read : List Fragment} (hl : w.files.list d.path = .ok files)
    (hr : (Summary.readAll d (sorted (files.filterMap fragmentOfFile?))).perform w = (.ok read, v))
    (order failures : List String) :
    ∃ x, (Summary.ofDirectory order d failures).perform w = (.ok (.compose order read failures), x) ∧
      x.files = v.files := by
  obtain ⟨x, ha, hx⟩ := Summary.exists_perform_announce order read failures v
  have hn : d.fragmentNames.perform w = (.ok (sorted (files.filterMap fragmentOfFile?)), w) := by
    rw [fragmentNames, Action.perform_bind, Action.perform_lookAtFiles, hl]
    rfl
  refine ⟨x, ?_, hx⟩
  rw [Summary.ofDirectory, Action.perform_bind, hn]
  dsimp only
  rw [Action.perform_bind, hr]
  exact ha

lemma Holds.perform_ofDirectory {d : Directory} {base : Location}
    {written fragments : List Fragment} {w : World σ} (h : Holds d base written w.files)
    (hp : written.Perm fragments) (hn : (fragments.map Fragment.name).Nodup)
    (order failures : List String) :
    ∃ v, (Summary.ofDirectory order d failures).perform w =
      (.ok (.compose order fragments failures), v) ∧ v.files = w.files := by
  have hnw := (hp.map Fragment.name).nodup_iff.mpr hn
  have hl : w.files.list d.path = .ok (w.files.children base) :=
    FileTree.list_eq_ok_iff.mpr ⟨base, h.leadsTo, rfl⟩
  have hperm : (sorted ((w.files.children base).filterMap fragmentOfFile?)).Perm
      (written.map Fragment.name) := (List.mergeSort_perm _ _).trans h.names
  obtain ⟨read, hr, hnames, hm⟩ := h.perform_readAll fun name hm => hperm.mem_iff.mp hm
  -- All that was read was written, and as many names were read as were written.
  have hread : read.Perm written := by
    rw [← hnames] at hperm
    have hnr : read.Nodup := .of_map _ (hperm.nodup_iff.mpr hnw)
    refine (List.subperm_of_subset hnr hm).perm_of_length_le ?_
    simpa using Nat.le_of_eq hperm.length_eq.symm
  obtain ⟨v, ha, hv⟩ := Directory.perform_ofDirectory hl hr order failures
  rw [Summary.compose_perm (hread.trans hp) ((hread.map _).nodup_iff.mpr hnw)] at ha
  exact ⟨v, ha, hv⟩

end Report.Directory

namespace CommandLine

lemma run_performSummarize {repository reports : Path} {config : Option Path} {c : Config}
    {w v : World σ} {summary : Report.Summary}
    (hc : Config.loadOrStandard w.files config repository = .ok c)
    (hd : w.files.isDirectory reports = true)
    (hs : (Report.Summary.ofDirectory c.summaryOrder ⟨reports⟩ []).perform w = (.ok summary, v)) :
    (performSummarize repository reports config false).run.run w =
      (.ok (printed summary.text), v) := by
  have ho : (Report.Directory.open? reports).perform w = (.ok ⟨reports⟩, w) := by
    rw [Report.Directory.open?, Action.perform_bind, Action.perform_get]
    simp only [hd, if_true, Action.perform_pure]
  rw [performSummarize, Task.run_bind, run_loadConfig, hc]
  dsimp only
  rw [Task.run_bind, Task.run_ofAction, ho]
  dsimp only
  rw [Task.run_bind, Task.run_ofAction, hs]
  rfl

end CommandLine

open Report

/-- From the directory of a new job a summary is composed as from the fragments that were written,
whatever else has been written there. An empty path makes no directory; a byway leads to one that
has been there before, and holds what it held. -/
theorem Report.Summary.ofDirectory_of_create {path : Path} {w u v : World σ} {d : Directory}
    {entries : List Directory.Entry} {fragments : List Fragment}
    (ht : w.files.IsTree) (hpath : path ≠ "") (hb : ¬w.files.IsByway path)
    (hc : (Directory.create path).perform w = (.ok d, u))
    (hs : (Directory.storeAll d entries).perform u = (.ok (), v))
    (hf : (entries.filterMap Directory.Entry.fragment?).Perm fragments)
    (hn : (fragments.map Fragment.name).Nodup) (hp : ∀ f ∈ fragments, '/' ∉ f.name.toList) :
    (∀ order failures, ∃ x, (ofDirectory order d failures).perform v =
      (.ok (compose order fragments failures), x) ∧ x.files = v.files) ∧
    ∀ repository config c, Config.loadOrStandard v.files config repository = .ok c →
      ∃ x, (CommandLine.performSummarize repository path config false).run.run v =
        (.ok (CommandLine.printed (compose c.summaryOrder fragments []).text), x) := by
  obtain ⟨rfl, -, -⟩ := Directory.path_of_create hc
  have hlist : u.files.list (Directory.mk path).path = .ok [] :=
    Directory.list_of_create ht hpath hb hc
  obtain ⟨base, hbegin⟩ := Directory.holds_of_list hlist
  have hnf := (hf.map Fragment.name).nodup_iff.mpr hn
  obtain ⟨all, hall, hend⟩ := hbegin.storeAll hs (by simpa using hnf) fun f hm =>
    hp f (hf.mem_iff.mp hm)
  have hcompose := hend.perform_ofDirectory (hall.trans hf) hn
  refine ⟨hcompose, fun repository config c hload => ?_⟩
  obtain ⟨x, hx, _⟩ := hcompose c.summaryOrder []
  have hdir : v.files.isDirectory path = true := by
    obtain ⟨_, hl⟩ := hend.leadsTo
    rw [FileTree.isDirectory, hl]
  exact ⟨x, CommandLine.run_performSummarize hload hdir hx⟩

def staleWorld : World Unit :=
  { World.fresh fun _ => none with
    files := FileTree.fresh.put ["work", "old-report.md"] (.file (encode "old\n")) }

def lintedDirectory (path : Path) : Action Unit Unit := do
  let d ← Directory.create path
  d.storeAll [.fragment ⟨"lint", "l\n"⟩]

/-- A new directory can come with the fragments of a former job, and the directory of an empty path
cannot be read. -/
theorem recomposed_otherwise :
    Summary.compose ["lint", "old"] [⟨"lint", "l\n"⟩] [] = ⟨"l\n", ["lint"]⟩ ∧
    (∃ v x, (lintedDirectory "new/..").perform staleWorld = (.ok (), v) ∧
      (Summary.ofDirectory ["lint", "old"] ⟨"new/.."⟩ []).perform v =
        (.ok ⟨"l\nold\n", ["lint", "old"]⟩, x)) ∧
    ∃ v, (lintedDirectory "").perform (World.fresh fun _ => none) = (.ok (), v) ∧
      ((Summary.ofDirectory ["lint", "old"] ⟨""⟩ []).perform v).1 = .error (.system .notFound) := by
  refine ⟨by decide +kernel, ?_, ?_⟩
  · have hv : ((lintedDirectory "new/..").perform staleWorld).1 = .ok () := by decide +kernel
    have hl : ((lintedDirectory "new/..").perform staleWorld).2.files.list "new/.." =
        .ok ["lint-report.md", "new", "old-report.md"] := by decide +kernel
    have hread : ((Summary.readAll ⟨"new/.."⟩ ["lint", "old"]).perform
        ((lintedDirectory "new/..").perform staleWorld).2).1 =
        .ok [⟨"lint", "l\n"⟩, ⟨"old", "old\n"⟩] := by decide +kernel
    have hnames : ["lint-report.md", "new", "old-report.md"].filterMap Directory.fragmentOfFile? =
        ["lint", "old"] := by decide +kernel
    have hsorted : Directory.sorted ["lint", "old"] = ["lint", "old"] := by
      simp [Directory.sorted, List.mergeSort, List.MergeSort.Internal.splitInTwo]
    have htext : Summary.compose ["lint", "old"] [⟨"lint", "l\n"⟩, ⟨"old", "old\n"⟩] [] =
        ⟨"l\nold\n", ["lint", "old"]⟩ := by decide +kernel
    rcases hrun : (lintedDirectory "new/..").perform staleWorld with ⟨result, v⟩
    rw [hrun] at hv hl hread
    cases hv
    rcases hr : (Summary.readAll ⟨"new/.."⟩ ["lint", "old"]).perform v with ⟨read, y⟩
    rw [hr] at hread
    cases hread
    rw [← hsorted, ← hnames] at hr
    obtain ⟨x, hx, _⟩ := Directory.perform_ofDirectory hl hr ["lint", "old"] []
    rw [htext] at hx
    exact ⟨v, x, rfl, hx⟩
  · have hv : ((lintedDirectory "").perform (World.fresh fun _ => none)).1 = .ok () ∧
        ((Summary.ofDirectory ["lint", "old"] ⟨""⟩ []).perform
          ((lintedDirectory "").perform (World.fresh fun _ => none)).2).1 =
          .error (.system .notFound) := by
      decide +kernel
    rcases hrun : (lintedDirectory "").perform (World.fresh fun _ => none) with ⟨result, v⟩
    rw [hrun] at hv
    obtain ⟨hok, herror⟩ := hv
    cases hok
    exact ⟨v, rfl, herror⟩

def mixedEntries : List Directory.Entry :=
  [.environment [("pr", "-")], .fragment ⟨"lint", "l\n"⟩, .raw "black" [98],
    .fragment ⟨"black", "b\n"⟩, .summary "s"]

theorem ofDirectory_of_create_mixed :
    ∃ u v x, (Directory.create "reports").perform (World.fresh fun _ => none) =
        (.ok ⟨"reports"⟩, u) ∧
      (Directory.storeAll ⟨"reports"⟩ mixedEntries).perform u = (.ok (), v) ∧
      (Summary.ofDirectory ["lint", "black"] ⟨"reports"⟩ ["f"]).perform v =
        (.ok (.compose ["lint", "black"] [⟨"black", "b\n"⟩, ⟨"lint", "l\n"⟩] ["f"]), x) := by
  have hok : ((Directory.create "reports").perform (World.fresh fun _ => none)).1 =
        .ok ⟨"reports"⟩ ∧
      ((Directory.storeAll ⟨"reports"⟩ mixedEntries).perform
        ((Directory.create "reports").perform (World.fresh fun _ => none)).2).1 = .ok () := by
    decide +kernel
  rcases hc : (Directory.create "reports").perform (World.fresh fun _ => none) with ⟨result, u⟩
  rw [hc] at hok
  obtain ⟨rfl, hok⟩ := hok
  rcases hs : (Directory.storeAll ⟨"reports"⟩ mixedEntries).perform u with ⟨result, v⟩
  rw [hs] at hok
  cases hok
  have ht : (World.fresh fun _ => none).files.IsTree := FileTree.isTree_fresh
  have hb : ¬(World.fresh fun _ => none).files.IsByway "reports" := ht.not_isByway (by decide)
  have hf : (mixedEntries.filterMap Directory.Entry.fragment?).Perm
      [⟨"black", "b\n"⟩, ⟨"lint", "l\n"⟩] := List.Perm.swap _ _ []
  obtain ⟨x, hx, _⟩ := (Summary.ofDirectory_of_create ht (by decide) hb hc hs hf (by decide)
    (by decide)).1 ["lint", "black"] ["f"]
  exact ⟨u, v, x, rfl, hs, hx⟩

end Premerge

import Premerge.Proofs.Data.Records
import Premerge.Proofs.Files.Writable
import Premerge.Proofs.Job.Failing
import Premerge.Proofs.Text.Cutting
import Premerge.Proofs.Text.Segments
import Premerge.Proofs.Text.Utf8

namespace Premerge

open Text.Line (IsCut segments linesOf joined withoutReturn)
open Text.Utf8 (encode decode decode_encode)
open World (FileTree)

namespace Report.Directory

variable {σ : Type} {entries : List (String × String)}

def entryOfLine (line : List Char) : String × String :=
  (String.ofList (line.takeWhile (· ≠ '=')), String.ofList ((line.dropWhile (· ≠ '=')).drop 1))

def entriesOf (text : String) : List (String × String) :=
  (segments text.toList).map entryOfLine

structure IsKey (key : String) : Prop where
  equals : '=' ∉ key.toList
  lineFeed : '\n' ∉ key.toList

instance (key : String) : Decidable (IsKey key) :=
  decidable_of_iff ('=' ∉ key.toList ∧ '\n' ∉ key.toList)
    ⟨fun h => ⟨h.1, h.2⟩, fun h => ⟨h.equals, h.lineFeed⟩⟩

lemma entryOfLine_append {key : String} (h : IsKey key) (value : List Char) :
    entryOfLine (key.toList ++ '=' :: value) = (key, String.ofList value) := by
  have hall : ∀ c ∈ key.toList, decide (c ≠ '=') = true := by
    intro c hc
    exact decide_eq_true (ne_of_mem_of_not_mem hc h.equals)
  have hhead : ∀ c ∈ ('=' :: value).head?, decide (c ≠ '=') = false := by simp
  obtain ⟨htake, hdrop⟩ := Text.takeWhile_append_of_all hall hhead
  rw [entryOfLine, htake, hdrop]
  simp

def keptLine (entry : String × String) : List Char :=
  entry.1.toList ++ '=' :: (joined entry.2).toList

lemma isCut_environmentText (h : ∀ entry ∈ entries, IsKey entry.1) :
    IsCut (environmentText entries).toList (entries.map keptLine) [] := by
  refine Text.Line.isCut_join (fun entry _ => ?_) fun entry he hm => ?_
  · simp [environmentLine, keptLine]
  · rcases List.mem_append.mp hm with hkey | hvalue
    · exact (h entry he).lineFeed hkey
    · simp [Text.Line.not_mem_joined] at hvalue

lemma entriesOf_environmentText (h : ∀ entry ∈ entries, IsKey entry.1) :
    entriesOf (environmentText entries) = entries.map fun entry => (entry.1, joined entry.2) := by
  rw [entriesOf, (isCut_environmentText h).segments_of_ended, List.map_map]
  refine List.map_congr_left fun entry he => ?_
  simp [keptLine, entryOfLine_append (h entry he)]

lemma entriesOfLines_environmentText (h : ∀ entry ∈ entries, IsKey entry.1) :
    (linesOf (environmentText entries).toList).map entryOfLine =
      entries.map fun entry =>
        (entry.1, String.ofList (withoutReturn (joined entry.2).toList)) := by
  rw [(isCut_environmentText h).linesOf_eq, if_pos rfl, List.append_nil, List.map_map, List.map_map]
  refine List.map_congr_left fun entry he => ?_
  have hkept : withoutReturn (keptLine entry) =
      entry.1.toList ++ '=' :: withoutReturn (joined entry.2).toList :=
    Text.Line.withoutReturn_append_cons _ (by decide) _
  rw [Function.comp, Function.comp, hkept, entryOfLine_append (h entry he)]

lemma stores_of_writeEnvironment (d : Directory) (entries : List (String × String))
    (w : World σ) :
    (w.files.CanWrite d.environmentPath ∧
      ∃ v, (d.writeEnvironment entries).perform w = (.ok d.environmentPath, v) ∧
        v.files.read d.environmentPath = .ok (encode (environmentText entries))) ∨
    (¬w.files.CanWrite d.environmentPath ∧
      ∃ e, (d.writeEnvironment entries).perform w = (.error e, w)) := by
  have hcan : w.files.CanWrite d.environmentPath ↔
      ∃ after, w.files.write d.environmentPath (encode (environmentText entries)) = .ok after :=
    (FileTree.exists_write_iff _).symm
  rw [perform_writeEnvironment, hcan]
  rcases hw : w.files.write d.environmentPath (encode (environmentText entries)) with e | files
  · exact .inr ⟨by simp, .system e, rfl⟩
  · obtain ⟨location, hs⟩ := FileTree.stores_of_write hw
    exact .inl ⟨⟨files, rfl⟩, { w with files }, rfl, hs.read⟩

end Report.Directory

namespace Job

open Report.Directory (IsKey entriesOf environmentText entriesOf_environmentText)

lemma isKey_environment (job : Job) : ∀ entry ∈ job.environment, IsKey entry.1 := by
  have hkeys : ∀ key ∈ job.environment.map Prod.fst, IsKey key := by
    simp only [environment, List.map_cons, List.map_nil]
    decide
  simpa using hkeys

def kept (job : Job) (key : String) : Option String :=
  (entriesOf (environmentText job.environment)).lookup key

lemma kept_eq (job : Job) (key : String) :
    job.kept key = (job.environment.lookup key).map joined := by
  rw [kept, entriesOf_environmentText job.isKey_environment, Data.lookup_map]

lemma keys_environmentText (job : Job) :
    (entriesOf (environmentText job.environment)).map Prod.fst =
      ["job_id", "pr", "repo", "base", "head_sha", "merge_base", "tools_digest", "started_at",
        "prgate_version"] := by
  rw [entriesOf_environmentText job.isKey_environment]
  rfl

end Job

namespace Report.Directory

variable {σ : Type} {entries : List (String × String)}

/-- The file gives the entries back, each with its value on one line; a reader that takes a carriage
return for a part of the line's end misses one at the end of a value. In the file of a job each key
stands once, and what stands for it does not depend on what belongs to another key. -/
theorem writeEnvironment_read_back (h : ∀ entry ∈ entries, IsKey entry.1) (d : Directory)
    (w : World σ) :
    ((w.files.CanWrite d.environmentPath ∧ ∃ octets v,
        (d.writeEnvironment entries).perform w = (.ok d.environmentPath, v) ∧
        v.files.read d.environmentPath = .ok octets ∧
        entriesOf (decode octets) = entries.map (fun entry => (entry.1, joined entry.2)) ∧
        (linesOf (decode octets).toList).map entryOfLine = entries.map fun entry =>
          (entry.1, String.ofList (withoutReturn (joined entry.2).toList))) ∨
      (¬w.files.CanWrite d.environmentPath ∧
        ∃ e, (d.writeEnvironment entries).perform w = (.error e, w))) ∧
    ∀ job : Job,
      (entriesOf (environmentText job.environment)).map Prod.fst =
        ["job_id", "pr", "repo", "base", "head_sha", "merge_base", "tools_digest", "started_at",
          "prgate_version"] ∧
      ∀ key, job.kept key = (job.environment.lookup key).map joined ∧
        (key ≠ "pr" → ∀ pr, { job with pr }.kept key = job.kept key) ∧
        (key ≠ "repo" → ∀ repository, { job with repository }.kept key = job.kept key) ∧
        (key ≠ "base" → ∀ base, { job with base }.kept key = job.kept key) ∧
        (key ≠ "head_sha" → ∀ headSha, { job with headSha }.kept key = job.kept key) ∧
        (key ≠ "merge_base" → ∀ mergeBase, { job with mergeBase }.kept key = job.kept key) := by
  refine ⟨?_, fun job => ⟨job.keys_environmentText, fun key => ⟨job.kept_eq key, ?_⟩⟩⟩
  · refine (stores_of_writeEnvironment d entries w).imp_left fun ⟨hcan, v, hw, hread⟩ => ?_
    refine ⟨hcan, _, v, hw, hread, ?_⟩
    rw [decode_encode]
    exact ⟨entriesOf_environmentText h, entriesOfLines_environmentText h⟩
  · simp only [Job.kept_eq, Job.environment, Data.lookup_cons_eq]
    grind

def forgedEntries : List (String × String) := [("pr", "7\nbase=other\r"), ("base", "a=b"), ("", "")]

theorem forgedEntries_read_back :
    (∀ entry ∈ forgedEntries, IsKey entry.1) ∧
    ∃ octets v, (writeEnvironment ⟨"."⟩ forgedEntries).perform lintWorld =
        (.ok "./environment.txt", v) ∧
      v.files.read "./environment.txt" = .ok octets ∧
      entriesOf (decode octets) = [("pr", "7 base=other\r"), ("base", "a=b"), ("", "")] ∧
      (linesOf (decode octets).toList).map entryOfLine =
        [("pr", "7 base=other"), ("base", "a=b"), ("", "")] := by
  have hkeys : ∀ entry ∈ forgedEntries, IsKey entry.1 := by decide
  have hok : ((writeEnvironment ⟨"."⟩ forgedEntries).perform lintWorld).1 =
      .ok "./environment.txt" := by
    decide +kernel
  refine ⟨hkeys, ?_⟩
  rcases (writeEnvironment_read_back hkeys ⟨"."⟩ lintWorld).1 with
    ⟨-, octets, v, hw, hread, hentries, hlines⟩ | ⟨-, e, hw⟩
  · exact ⟨octets, v, hw, hread, hentries, hlines⟩
  · rw [hw] at hok
    cases hok

end Report.Directory

end Premerge

import Premerge.Failure
import Premerge.Proofs.Text.Segments

namespace Premerge.CommitMessage

open Text.Line

variable {limit number : Nat} {lines : List String} {entry : LongLine}

lemma mem_longLinesFrom :
    entry ∈ longLinesFrom limit number lines ↔
      ∃ index line, lines[index]? = some line ∧ limit < line.length ∧
        entry = ⟨number + index, line.length, line⟩ := by
  induction lines generalizing number with
  | nil => simp [longLinesFrom]
  | cons line rest ih =>
    -- The first line stands at the place zero, and every other one place further than in the rest.
    rw [← Nat.or_exists_add_one]
    simp only [List.getElem?_cons_zero, List.getElem?_cons_succ, Option.some.injEq, exists_eq_left',
      Nat.add_zero, ← Nat.add_assoc, Nat.add_right_comm number _ 1]
    by_cases hl : limit < line.length <;> simp [longLinesFrom, hl, ih]

lemma longLinesFrom_eq_nil_iff :
    longLinesFrom limit number lines = [] ↔ ∀ line ∈ lines, line.length ≤ limit := by
  have hmem {line : String} : line ∈ lines ↔ ∃ index, lines[index]? = some line :=
    List.mem_iff_getElem?
  simp only [List.eq_nil_iff_forall_not_mem, mem_longLinesFrom, hmem]
  grind

lemma pairwise_longLinesFrom :
    (longLinesFrom limit number lines).Pairwise (·.number < ·.number) := by
  induction lines generalizing number with
  | nil => exact .nil
  | cons line rest ih =>
    rw [longLinesFrom]
    split
    · refine .cons (fun entry he => ?_) ih
      obtain ⟨index, other, -, -, rfl⟩ := mem_longLinesFrom.mp he
      exact Nat.lt_of_lt_of_le number.lt_succ_self (Nat.le_add_right _ _)
    · exact ih

lemma check_eq_ok_iff {message : CommitMessage} :
    message.check limit = .ok () ↔ ∀ line ∈ message.lines, line.length ≤ limit := by
  have hnil : message.longLines limit = [] ↔ ∀ line ∈ message.lines, line.length ≤ limit :=
    longLinesFrom_eq_nil_iff
  rw [← hnil, check]
  split
  next hn => simp [hn]
  next hn => exact iff_of_false nofun hn

lemma check_eq_error {message : CommitMessage} {e : Failure}
    (h : message.check limit = .error e) : e = .longLines limit (message.longLines limit) := by
  rw [check] at h
  split at h
  · nomatch h
  · exact (Except.error.inj h).symm

lemma ofText_withReturns {text : String} (h : ¬['\r', '\n'] <:+: text.toList) :
    ofText (String.ofList (withReturns text.toList)) = ofText text := by
  rw [ofText, ofText, Text.Line.lines, Text.Line.lines, String.toList_ofList, linesOf_withReturns h]

/-- A text has one list of lines. It is refused for those with more characters than the limit, which are
listed from the first on, and this stays so if each line feed gets a carriage return. -/
theorem check_line_by_line (text : String) (limit : Nat) :
    ∃ lines, (∀ others, HasLines text.toList others ↔ others = lines) ∧
      (ofText text).lines.map String.toList = lines ∧
      ((ofText text).check limit = .ok () ↔ ∀ line ∈ lines, line.length ≤ limit) ∧
      (∀ e, (ofText text).check limit = .error e →
        ∃ found, e = .longLines limit found ∧ found.Pairwise (·.number < ·.number) ∧
          ∀ entry, entry ∈ found ↔ ∃ index line, lines[index]? = some line ∧ limit < line.length ∧
            entry = ⟨index + 1, line.length, String.ofList line⟩) ∧
      (¬['\r', '\n'] <:+: text.toList →
        ofText (String.ofList (withReturns text.toList)) = ofText text ∧
          (ofText (String.ofList (withReturns text.toList))).check limit =
            (ofText text).check limit) := by
  have hlines : (ofText text).lines = (linesOf text.toList).map String.ofList := rfl
  refine ⟨linesOf text.toList, fun others => hasLines_iff, ?_, ?_, fun e he => ?_, fun h => ?_⟩
  · simp [hlines, Function.comp_def]
  · simp [check_eq_ok_iff, hlines]
  · refine ⟨_, check_eq_error he, pairwise_longLinesFrom, fun entry => ?_⟩
    simp only [longLines, mem_longLinesFrom, hlines, List.getElem?_map, Option.map_eq_some_iff,
      Nat.add_comm 1]
    constructor
    · rintro ⟨index, _, ⟨line, hl, rfl⟩, hlt, rfl⟩
      exact ⟨index, line, hl, by simpa using hlt, by simp⟩
    · rintro ⟨index, line, hl, hlt, rfl⟩
      exact ⟨index, _, ⟨line, hl, rfl⟩, by simpa using hlt, by simp⟩
  · rw [ofText_withReturns h]
    exact ⟨rfl, rfl⟩

end Premerge.CommitMessage

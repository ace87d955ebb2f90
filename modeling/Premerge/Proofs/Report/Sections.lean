import Mathlib.Data.List.Basic
import Premerge.Proofs.Text.Cutting
import Premerge.Proofs.Text.Lines
import Premerge.Report.Sections

namespace Premerge.Report.Sections

open Premerge.Text (takeWhile_append_of_all eq_append_of_dropWhile)
open Premerge.Text.Line (AreLines IsFirst inclusive tail_inclusive_eq_iff)

lemma isMarker_iff {line : List Char} : isMarker line = true ↔ marker <+: line :=
  List.isPrefixOf_iff_prefix

lemma isTerminator_iff {line : List Char} : isTerminator line = true ↔ terminator <+: line :=
  List.isPrefixOf_iff_prefix

lemma not_terminator_of_marker {line : List Char} (h : marker <+: line) : ¬terminator <+: line := by
  obtain ⟨rest, rfl⟩ := h
  rw [← isTerminator_iff]
  exact Bool.false_ne_true

lemma coverageLines_append {before lines : List (List Char)}
    (h : ∀ line ∈ before, ¬terminator <+: line) :
    coverageLines (before ++ lines) = before ++ coverageLines lines := by
  induction before with
  | nil => rfl
  | cons line rest ih =>
    have hline : ¬isTerminator line = true := isTerminator_iff.not.mpr (h line (.head _))
    rw [List.cons_append, coverageLines, if_neg hline, ih fun other hm => h other (.tail _ hm),
      List.cons_append]

lemma coverageLines_terminator {line : List Char} (h : terminator <+: line)
    (behind : List (List Char)) : coverageLines (line :: behind) = [line] := by
  rw [coverageLines, if_pos (isTerminator_iff.mpr h)]

lemma coverageLines_of_last {kept behind : List (List Char)} {last : List Char}
    (h : ∀ line ∈ kept, ¬terminator <+: line) (hl : behind ≠ [] → terminator <+: last) :
    coverageLines (kept ++ last :: behind) = kept ++ [last] := by
  rw [coverageLines_append h]
  cases behind with
  | nil =>
    rw [coverageLines]
    split <;> rfl
  | cons line rest => rw [coverageLines_terminator (hl (List.cons_ne_nil _ _))]

/-- An output with its sections, cut between lines. The header is the first line, and the three lists
are the lines behind it. -/
structure IsCut (output : List Char) (s : Sections) (header : List Char)
    (narrative coverage behind : List (List Char)) : Prop where
  whole : output = header ++ s.narrative ++ s.coverage.getD [] ++ behind.flatten
  isFirst_header : IsFirst header output
  areLines : AreLines (narrative ++ coverage ++ behind)
  narrative_eq : s.narrative = narrative.flatten
  coverage_eq : s.coverage.getD [] = coverage.flatten
  not_marker : ∀ line ∈ narrative, ¬marker <+: line
  isSome_coverage_iff : s.coverage.isSome = true ↔
    ∃ line ∈ narrative ++ coverage ++ behind, marker <+: line
  head_marker : s.coverage.isSome = true → ∃ line ∈ coverage.head?, marker <+: line
  not_terminator : ∀ line ∈ coverage.dropLast, ¬terminator <+: line
  last_terminator : behind ≠ [] → ∃ line ∈ coverage.getLast?, terminator <+: line

lemma ofOutput_of_not_marker {output : List Char} {narrative : List (List Char)}
    (h : (inclusive output).tail = narrative) (hn : ∀ line ∈ narrative, ¬marker <+: line) :
    ofOutput output = ⟨narrative.flatten, none⟩ := by
  have hdrop : narrative.dropWhile (!isMarker ·) = [] :=
    List.dropWhile_eq_nil_iff.mpr fun line hm => by simpa [← isMarker_iff] using hn line hm
  unfold ofOutput
  rw [h]
  dsimp only
  rw [hdrop]

lemma ofOutput_of_marker {output first : List Char} {narrative rest : List (List Char)}
    (h : (inclusive output).tail = narrative ++ first :: rest)
    (hn : ∀ line ∈ narrative, ¬marker <+: line) (hf : marker <+: first) :
    ofOutput output = ⟨narrative.flatten, some (first ++ (coverageLines rest).flatten)⟩ := by
  have hplain : ∀ line ∈ narrative, (!isMarker line) = true := fun line hm => by
    simpa [← isMarker_iff] using hn line hm
  have hhead : ∀ line ∈ (first :: rest).head?, (!isMarker line) = false := by
    simpa [isMarker_iff] using hf
  obtain ⟨htake, hdrop⟩ := takeWhile_append_of_all hplain hhead
  unfold ofOutput
  rw [h]
  dsimp only
  rw [hdrop, htake]

lemma ofOutput_of_cut {output : List Char} {narrative coverage behind : List (List Char)}
    (h : (inclusive output).tail = narrative ++ coverage ++ behind)
    (hn : ∀ line ∈ narrative, ¬marker <+: line) (hm : ∃ line ∈ coverage.head?, marker <+: line)
    (ht : ∀ line ∈ coverage.dropLast, ¬terminator <+: line)
    (hl : behind ≠ [] → ∃ line ∈ coverage.getLast?, terminator <+: line) :
    ofOutput output = ⟨narrative.flatten, some coverage.flatten⟩ := by
  obtain ⟨first, hfirst, hf⟩ := hm
  obtain ⟨rest, rfl⟩ := List.head?_eq_some_iff.mp hfirst
  rw [List.append_assoc, List.cons_append] at h
  rw [ofOutput_of_marker h hn hf]
  rcases rest.eq_nil_or_concat' with rfl | ⟨kept, last, rfl⟩
  · -- The first line is no terminator, so nothing stands behind it.
    have hb : behind = [] := by
      by_contra hb
      obtain ⟨line, hline, hterm⟩ := hl hb
      cases hline
      exact not_terminator_of_marker hf hterm
    subst hb
    rfl
  · have hkept : ∀ line ∈ kept, ¬terminator <+: line := fun line hm => by
      refine ht line ?_
      rw [← List.cons_append, List.dropLast_concat]
      exact .tail _ hm
    have hlast : behind ≠ [] → terminator <+: last := fun hb => by
      obtain ⟨line, hline, hterm⟩ := hl hb
      rw [← List.cons_append, List.getLast?_concat] at hline
      rwa [Option.some.inj hline]
    rw [List.append_assoc, List.singleton_append, coverageLines_of_last hkept hlast,
      List.flatten_cons]

lemma exists_upToTerminator (lines : List (List Char)) :
    ∃ kept behind, lines = kept ++ behind ∧ (∀ line ∈ kept.dropLast, ¬terminator <+: line) ∧
      (behind ≠ [] → ∃ line ∈ kept.getLast?, terminator <+: line) := by
  obtain ⟨kept, hkept, hnext, hlines⟩ :=
    eq_append_of_dropWhile (rfl : lines.dropWhile (!isTerminator ·) = _)
  have hk : ∀ line ∈ kept, ¬terminator <+: line := fun line hm => by
    simpa [← isTerminator_iff] using hkept line hm
  rcases hd : lines.dropWhile (!isTerminator ·) with _ | ⟨line, behind⟩ <;> rw [hd] at hnext hlines
  · exact ⟨kept, [], hlines, fun line hm => hk line (List.dropLast_subset _ hm),
      fun h => absurd rfl h⟩
  · refine ⟨kept ++ [line], behind, by rw [hlines, List.append_assoc, List.singleton_append], ?_, ?_⟩
    · rwa [List.dropLast_concat]
    · exact fun _ => ⟨line, List.getLast?_concat, by simpa [isTerminator_iff] using hnext⟩

lemma exists_isCut (output : List Char) :
    ∃ header narrative coverage behind,
      IsCut output (ofOutput output) header narrative coverage behind := by
  obtain ⟨hlines, header, hfirst, hwhole⟩ :=
    tail_inclusive_eq_iff.mp (rfl : (inclusive output).tail = _)
  obtain ⟨narrative, hplain, hhead, hcut⟩ :=
    eq_append_of_dropWhile (rfl : (inclusive output).tail.dropWhile (!isMarker ·) = _)
  have hn : ∀ line ∈ narrative, ¬marker <+: line := fun line hm => by
    simpa [← isMarker_iff] using hplain line hm
  rcases hd : (inclusive output).tail.dropWhile (!isMarker ·) with _ | ⟨first, rest⟩ <;>
    rw [hd] at hhead hcut
  · rw [List.append_nil] at hcut
    rw [hcut] at hlines hwhole
    refine ⟨header, narrative, [], [], ?_⟩
    rw [ofOutput_of_not_marker hcut hn]
    exact {
      whole := by simpa using hwhole
      isFirst_header := hfirst
      areLines := by simpa using hlines
      narrative_eq := rfl
      coverage_eq := rfl
      not_marker := hn
      isSome_coverage_iff := by simpa using hn
      head_marker := fun h => by cases h
      not_terminator := fun _ hm => by cases hm
      last_terminator := fun h => absurd rfl h }
  · obtain ⟨coverage, behind, hc, ht, hl⟩ := exists_upToTerminator (first :: rest)
    have hm : ∃ line ∈ coverage.head?, marker <+: line := by
      rcases coverage with _ | ⟨line, more⟩
      · have hb : behind ≠ [] := by
          rintro rfl
          cases hc
        obtain ⟨_, hlast, _⟩ := hl hb
        cases hlast
      · exact ⟨first, congrArg some (List.cons.inj hc).1.symm, by simpa [isMarker_iff] using hhead⟩
    rw [hc, ← List.append_assoc] at hcut
    rw [hcut] at hlines hwhole
    refine ⟨header, narrative, coverage, behind, ?_⟩
    rw [ofOutput_of_cut hcut hn hm ht hl]
    obtain ⟨line, hline, hmarker⟩ := hm
    have hmem : line ∈ narrative ++ coverage ++ behind := by simp [List.mem_of_mem_head? hline]
    exact {
      whole := by simpa using hwhole
      isFirst_header := hfirst
      areLines := hlines
      narrative_eq := rfl
      coverage_eq := rfl
      not_marker := hn
      isSome_coverage_iff := iff_of_true rfl ⟨line, hmem, hmarker⟩
      head_marker := fun _ => ⟨line, hline, hmarker⟩
      not_terminator := ht
      last_terminator := hl }

lemma IsCut.ofOutput_eq {output header : List Char} {s : Sections}
    {narrative coverage behind : List (List Char)}
    (h : IsCut output s header narrative coverage behind) : ofOutput output = s := by
  have htail : (inclusive output).tail = narrative ++ coverage ++ behind := by
    refine tail_inclusive_eq_iff.mpr ⟨h.areLines, header, h.isFirst_header, ?_⟩
    simpa [← h.narrative_eq, ← h.coverage_eq] using h.whole
  rcases s with ⟨text, _ | summary⟩
  · -- No line is a marker, and with no summary there is no terminator that ends it.
    have hnone : ∀ line ∈ narrative ++ coverage ++ behind, ¬marker <+: line := by
      simpa using h.isSome_coverage_iff
    have hcoverage : coverage = [] := List.eq_nil_iff_forall_not_mem.mpr fun line hm =>
      h.areLines.ne_nil (by simp [hm]) (List.flatten_eq_nil_iff.mp h.coverage_eq.symm line hm)
    have hbehind : behind = [] := by
      by_contra hb
      obtain ⟨_, hlast, _⟩ := h.last_terminator hb
      rw [hcoverage] at hlast
      cases hlast
    rw [ofOutput_of_not_marker htail hnone, hcoverage, hbehind, List.append_nil, List.append_nil,
      ← h.narrative_eq]
  · rw [ofOutput_of_cut htail h.not_marker (h.head_marker rfl) h.not_terminator h.last_terminator,
      ← h.narrative_eq, ← h.coverage_eq]
    rfl

/-- The sections of an output are the only ones with which it can be cut. -/
theorem ofOutput_eq_iff_isCut {output : List Char} {s : Sections} :
    ofOutput output = s ↔
      ∃ header narrative coverage behind, IsCut output s header narrative coverage behind := by
  constructor
  · rintro rfl
    exact exists_isCut output
  · rintro ⟨_, _, _, _, h⟩
    exact h.ofOutput_eq

example : ofOutput "ran\nTOTAL 3\n---------- coverage: a\nTOTAL 9%\nTOTAL 0%\n".toList =
    ⟨"TOTAL 3\n".toList, some "---------- coverage: a\nTOTAL 9%\n".toList⟩ := by decide

end Premerge.Report.Sections

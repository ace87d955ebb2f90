import Premerge.Proofs.Text.Cutting
import Premerge.Report.Sections

namespace Premerge.Text.Capital

lemma ofNat_ne_lineFeed {n : Nat} (h : 32 < n) : '\n' ≠ Char.ofNat n := by
  by_cases hv : n.isValidChar
  · have hof : Char.ofNat n = Char.ofNatAux n hv := dif_pos hv
    rw [hof]
    intro he
    have hn : '\n'.toNat = n := by
      rw [he]
      rfl
    subst hn
    exact absurd h (by decide)
  · have hof : Char.ofNat n = Char.ofNat 0 := dif_neg hv
    rw [hof]
    decide

lemma lineFeed_not_mem_upper {c : Char} (h : c ≠ '\n') : '\n' ∉ upper c := by
  have hexpansions : ∀ entry ∈ expansions, ∀ n ∈ entry.2, 32 < n := by decide +kernel
  have hruns : ∀ run ∈ runs, 32 < run.first + run.shift := by decide +kernel
  unfold upper
  dsimp only
  split
  next codes hl =>
    obtain ⟨before, after, hentry, _⟩ := List.lookup_eq_some_iff.mp hl
    have hm : (c.toNat, codes) ∈ expansions := by rw [hentry]; simp
    simp only [List.mem_map, not_exists, not_and]
    exact fun n hn he => ofNat_ne_lineFeed (hexpansions _ hm n hn) he.symm
  next =>
    split
    next run hr =>
      have hfirst := hruns run (List.mem_of_find?_eq_some hr)
      have hholds := List.find?_some hr
      simp only [Run.holds, Bool.and_eq_true, decide_eq_true_eq] at hholds
      exact fun hm => ofNat_ne_lineFeed (by omega) (List.mem_singleton.mp hm)
    next => exact fun hm => h (List.mem_singleton.mp hm).symm

end Premerge.Text.Capital

namespace Premerge.Report.Fragment

open Premerge.Text
open Premerge.Text.Line (pieces pieces_append pieces_of_not_mem intercalate_pieces)

lemma mem_wordsOf_cons {c : Char} {rest word : List Char} (h : word ∈ wordsOf (c :: rest)) :
    word ∈ wordsOf rest ∨ isWordBreak c = false ∧ (word = [c] ∨ ∃ w ∈ wordsOf rest, word = c :: w) := by
  unfold wordsOf at h
  split at h
  · exact .inl h
  next hc =>
    have hbreak : isWordBreak c = false := by simpa using hc
    split at h
    next d _ first more hw =>
      rw [hw]
      split at h
      · rcases List.mem_cons.mp h with rfl | hm
        · exact .inr ⟨hbreak, .inl rfl⟩
        · exact .inl hm
      · rcases List.mem_cons.mp h with rfl | hm
        · exact .inr ⟨hbreak, .inr ⟨first, List.mem_cons_self, rfl⟩⟩
        · exact .inl (.tail _ hm)
    next =>
      rcases List.mem_cons.mp h with rfl | hm
      · exact .inr ⟨hbreak, .inl rfl⟩
      · exact .inl hm

lemma not_isWordBreak_of_mem {text word : List Char} (h : word ∈ wordsOf text) {c : Char}
    (hc : c ∈ word) : isWordBreak c = false := by
  induction text generalizing word with
  | nil => cases h
  | cons d rest ih =>
    rcases mem_wordsOf_cons h with hm | ⟨hd, rfl | ⟨w, hm, rfl⟩⟩
    · exact ih hm hc
    · rwa [List.mem_singleton.mp hc]
    · rcases List.mem_cons.mp hc with rfl | hw
      · exact hd
      · exact ih hm hw

lemma lineFeed_not_mem_capitalized {word : List Char} (h : '\n' ∉ word) :
    '\n' ∉ capitalized word := by
  cases word with
  | nil => exact h
  | cons c rest =>
    obtain ⟨hc, hrest⟩ := List.ne_and_not_mem_of_not_mem_cons h
    rw [capitalized, List.mem_append, not_or]
    exact ⟨Capital.lineFeed_not_mem_upper hc.symm, hrest⟩

lemma lineFeed_not_mem_title (name : String) : '\n' ∉ (title name).toList := by
  rw [title, String.toList_intercalate]
  intro hm
  rcases mem_of_mem_intercalate hm with hspace | ⟨piece, hp, hpiece⟩
  · exact absurd hspace (by decide)
  · simp only [List.map_map, List.mem_map, Function.comp_apply, String.toList_ofList] at hp
    obtain ⟨word, hw, rfl⟩ := hp
    refine lineFeed_not_mem_capitalized (fun hword => ?_) hpiece
    exact absurd (not_isWordBreak_of_mem hw hword) (by decide)

def backtick : Char := Char.ofNat 0x60

def isFence (line : List Char) : Bool :=
  3 ≤ (line.takeWhile (· == backtick)).length && (line.dropWhile (· == backtick)).all (· == ' ')

structure Reading where
  inside : List Char
  behind : List (List Char)
  deriving DecidableEq, Repr

def readBlock? (body : String) : Option Reading :=
  match (pieces '\n' body.toList).dropWhile (!isFence ·) with
  | [] => none
  | _ :: lines =>
    match lines.dropWhile (!isFence ·) with
    | [] => none
    | _ :: behind => some ⟨['\n'].intercalate (lines.takeWhile (!isFence ·)), behind⟩

lemma readBlock?_of_lines {body : String} {front lines behind : List (List Char)}
    {first last : List Char}
    (h : pieces '\n' body.toList = front ++ first :: (lines ++ last :: behind))
    (hfront : ∀ line ∈ front, isFence line = false) (hfirst : isFence first = true)
    (hlines : ∀ line ∈ lines, isFence line = false) (hlast : isFence last = true) :
    readBlock? body = some ⟨['\n'].intercalate lines, behind⟩ := by
  have hno {lines : List (List Char)} (h : ∀ line ∈ lines, isFence line = false) :
      ∀ line ∈ lines, (!isFence line) = true := fun line hm => by rw [h line hm]; rfl
  have hyes {line : List Char} (h : isFence line = true) (more : List (List Char)) :
      ∀ next ∈ (line :: more).head?, (!isFence next) = false := by
    rintro next ⟨⟩
    rw [h]
    rfl
  obtain ⟨_, hopen⟩ := takeWhile_append_of_all (hno hfront) (hyes hfirst (lines ++ last :: behind))
  obtain ⟨hinside, hclose⟩ := takeWhile_append_of_all (hno hlines) (hyes hlast behind)
  rw [readBlock?, h, hopen]
  dsimp only
  rw [hclose, hinside]

def endLines : List (List Char) :=
  [[], "</details>".toList, [], []]

lemma pieces_block (name text : String) :
    pieces '\n' (block name text).toList =
      [("<details><summary>" ++ title name ++ "</summary>").toList, []] ++ fence.toList ::
        (pieces '\n' (trimLineEnds text.toList) ++ fence.toList :: endLines) := by
  have hsummary : '\n' ∉ ("<details><summary>" ++ title name ++ "</summary>").toList := by
    simp only [String.toList_append, List.mem_append, not_or]
    exact ⟨⟨by decide, lineFeed_not_mem_title name⟩, by decide⟩
  have hblock : (block name text).toList =
      ("<details><summary>" ++ title name ++ "</summary>").toList ++ '\n' :: ([] ++ '\n' ::
        (fence.toList ++ '\n' :: (trimLineEnds text.toList ++ '\n' :: (fence.toList ++ '\n' ::
          "\n</details>\n\n".toList)))) := by
    have hsummaryEnd : "</summary>\n\n".toList = "</summary>".toList ++ ['\n', '\n'] := by decide
    have hline : "\n".toList = ['\n'] := by decide
    have hrest : "\n\n</details>\n\n".toList = '\n' :: "\n</details>\n\n".toList := by decide
    unfold block opening closing
    simp only [String.toList_append, String.toList_ofList, hsummaryEnd, hline, hrest,
      List.append_assoc, List.cons_append, List.nil_append]
  have hfence : pieces '\n' fence.toList = [fence.toList] := pieces_of_not_mem (by decide)
  have hend : pieces '\n' "\n</details>\n\n".toList = endLines := by decide
  rw [hblock, pieces_append, pieces_append, pieces_append, pieces_append, pieces_append,
    pieces_of_not_mem hsummary, hfence, hend]
  simp only [pieces, List.cons_append, List.nil_append]

def textLines (text : String) : List (List Char) :=
  pieces '\n' (trimLineEnds text.toList)

lemma isFence_fence : isFence fence.toList = true := by decide

lemma not_isFence_front (name : String) :
    ∀ line ∈ [("<details><summary>" ++ title name ++ "</summary>").toList, []],
      isFence line = false := by
  have hsummary : ("<details><summary>" ++ title name ++ "</summary>").toList =
      '<' :: ("details><summary>" ++ title name ++ "</summary>").toList := by
    simp only [String.toList_append]
    rfl
  rw [hsummary]
  simp [isFence, backtick]

lemma readBlock?_block {name text : String} (h : ∀ line ∈ textLines text, isFence line = false) :
    readBlock? (block name text) = some ⟨trimLineEnds text.toList, endLines⟩ := by
  rw [readBlock?_of_lines (pieces_block name text) (not_isFence_front name) isFence_fence h
    isFence_fence, intercalate_pieces]

lemma readBlock?_block_early {name text : String} {before after : List (List Char)}
    {line : List Char} (h : textLines text = before ++ line :: after)
    (hbefore : ∀ earlier ∈ before, isFence earlier = false) (hline : isFence line = true) :
    readBlock? (block name text) =
      some ⟨['\n'].intercalate before, after ++ fence.toList :: endLines⟩ := by
  have hlines := pieces_block name text
  rw [← textLines, h, List.append_assoc, List.cons_append] at hlines
  exact readBlock?_of_lines hlines (not_isFence_front name) isFence_fence hbefore hline

theorem literal_iff_no_fence (name : String) {text : String}
    (h : text.toList.all isBlank = false) :
    ∃ f, ofText? name text = some f ∧ f.name = name ∧
      (readBlock? f.body = some ⟨trimLineEnds text.toList, endLines⟩ ↔
        ∀ line ∈ textLines text, isFence line = false) ∧
      ∀ before line after, textLines text = before ++ line :: after →
        (∀ earlier ∈ before, isFence earlier = false) → isFence line = true →
        readBlock? f.body = some ⟨['\n'].intercalate before, after ++ fence.toList :: endLines⟩ := by
  refine ⟨⟨name, block name text⟩, by rw [ofText?, h]; rfl, rfl, ⟨?_, readBlock?_block⟩,
    fun _ _ _ => readBlock?_block_early⟩
  intro hread
  obtain ⟨before, hbefore, hline, hlines⟩ :=
    eq_append_of_dropWhile (rfl : (textLines text).dropWhile (!isFence ·) = _)
  have hplain : ∀ earlier ∈ before, isFence earlier = false := fun earlier hm => by
    simpa using hbefore earlier hm
  rcases hd : (textLines text).dropWhile (!isFence ·) with _ | ⟨line, after⟩ <;> rw [hd] at hline hlines
  · rwa [hlines, List.append_nil]
  · -- The reader would be left with the lines behind this fence as well.
    have hfence : isFence line = true := by simpa using hline line rfl
    have hearly : readBlock? (block name text) = _ := readBlock?_block_early hlines hplain hfence
    have hbehind := congrArg Reading.behind (Option.some.inj (hearly.symm.trans hread))
    have hlength := congrArg List.length hbehind
    simp only [List.length_append, List.length_cons] at hlength
    omega

def fencedOutput : String := "l\n```\n# Passed\n"

/-- The block of a tool's output ends at a fence in it, and the rest of the output stands behind the
block. -/
theorem block_ends_early :
    ofOutput "lint" .generic fencedOutput = [⟨"lint", block "lint" fencedOutput⟩] ∧
      readBlock? (block "lint" fencedOutput) =
        some ⟨"l".toList, "# Passed".toList :: fence.toList :: endLines⟩ ∧
      trimLineEnds fencedOutput.toList = "l\n```\n# Passed".toList := by
  refine ⟨?_, ?_, ?_⟩
  · decide +kernel
  · decide +kernel
  · decide +kernel

theorem literal_iff_no_fence_indented :
    ∃ f, ofText? "lint" "``\n ```\n```l\r\n\n" = some f ∧
      readBlock? f.body = some ⟨"``\n ```\n```l".toList, endLines⟩ := by
  have hblank : "``\n ```\n```l\r\n\n".toList.all isBlank = false := by decide +kernel
  obtain ⟨f, hf, _, hread, _⟩ := literal_iff_no_fence "lint" hblank
  exact ⟨f, hf, (hread.mpr (by decide +kernel)).trans (by decide +kernel)⟩

end Premerge.Report.Fragment

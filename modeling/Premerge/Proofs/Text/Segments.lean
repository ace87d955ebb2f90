import Premerge.Proofs.Text.Lines

/-! A text is cut in one way at its line feeds. Its lines are the segments of this cut, without the
carriage return before each line feed, and nothing stands for what is empty behind the last one. -/

namespace Premerge.Text.Line

structure IsCut (text : List Char) (ended : List (List Char)) (rest : List Char) : Prop where
  text_eq : text = (ended.map (· ++ ['\n'])).flatten ++ rest
  ended : ∀ segment ∈ ended, '\n' ∉ segment
  rest : '\n' ∉ rest

variable {text rest : List Char} {ended : List (List Char)}

lemma isCut_of_not_mem (h : '\n' ∉ text) : IsCut text [] text :=
  ⟨rfl, by simp, h⟩

lemma IsCut.cons (h : IsCut text ended rest) {segment : List Char} (hs : '\n' ∉ segment) :
    IsCut ((segment ++ ['\n']) ++ text) (segment :: ended) rest := by
  refine ⟨by simp [h.text_eq], ?_, h.rest⟩
  simpa [hs] using h.ended

lemma isCut_nil : IsCut [] [] [] :=
  isCut_of_not_mem List.not_mem_nil

lemma IsCut.append (h : IsCut text ended []) {more : List Char} {others : List (List Char)}
    (h' : IsCut more others rest) : IsCut (text ++ more) (ended ++ others) rest := by
  refine ⟨by simp [h.text_eq, h'.text_eq], ?_, h'.rest⟩
  simpa [or_imp, forall_and] using ⟨h.ended, h'.ended⟩

lemma IsCut.append_lineFeed (h : IsCut text ended rest) :
    IsCut (text ++ ['\n']) (ended ++ [rest]) [] := by
  refine ⟨by simp [h.text_eq], ?_, List.not_mem_nil⟩
  simpa [or_imp, forall_and] using ⟨h.ended, h.rest⟩

lemma exists_isCut (text : List Char) : ∃ ended rest, IsCut text ended rest := by
  induction text with
  | nil => exact ⟨[], [], isCut_nil⟩
  | cons c more ih =>
    obtain ⟨ended, rest, h⟩ := ih
    by_cases hc : c = '\n'
    · subst hc
      exact ⟨[] :: ended, rest, h.cons List.not_mem_nil⟩
    · have hnot {segment : List Char} (hs : '\n' ∉ segment) : '\n' ∉ c :: segment :=
        List.not_mem_cons_of_ne_of_not_mem (Ne.symm hc) hs
      cases ended with
      | nil => exact ⟨[], c :: rest, by simp [h.text_eq], by simp, hnot h.rest⟩
      | cons segment others =>
        have hall := List.forall_mem_cons.mp h.ended
        refine ⟨(c :: segment) :: others, rest, by simp [h.text_eq], ?_, h.rest⟩
        exact List.forall_mem_cons.mpr ⟨hnot hall.1, hall.2⟩

lemma IsCut.pieces_eq (h : IsCut text ended rest) : pieces '\n' text = ended ++ [rest] := by
  obtain ⟨rfl, hended, hrest⟩ := h
  induction ended with
  | nil => exact pieces_of_not_mem hrest
  | cons segment others ih =>
    obtain ⟨hs, ho⟩ := List.forall_mem_cons.mp hended
    have hp := pieces_append '\n' segment ((others.map (· ++ ['\n'])).flatten ++ rest)
    rw [pieces_of_not_mem hs, ih ho] at hp
    simpa using hp

def segments (text : List Char) : List (List Char) :=
  if (pieces '\n' text).getLast? = some [] then (pieces '\n' text).dropLast else pieces '\n' text

lemma IsCut.segments_eq (h : IsCut text ended rest) :
    segments text = ended ++ if rest = [] then [] else [rest] := by
  rw [segments, h.pieces_eq]
  by_cases hr : rest = [] <;> simp [hr]

lemma IsCut.segments_of_ended (h : IsCut text ended []) : segments text = ended := by
  simp [h.segments_eq]

lemma isCut_join {α : Type} {render : α → String} {line : α → List Char} {items : List α}
    (hr : ∀ item ∈ items, (render item).toList = line item ++ ['\n'])
    (hl : ∀ item ∈ items, '\n' ∉ line item) :
    IsCut (String.join (items.map render)).toList (items.map line) [] := by
  refine ⟨?_, by simpa using hl, List.not_mem_nil⟩
  rw [List.append_nil, String.toList_join, List.map_map, List.flatMap_map, List.flatMap_def]
  exact congrArg List.flatten (List.map_congr_left hr)

lemma toList_joined (text : String) :
    (joined text).toList = text.toList.map fun c => if c = '\n' then ' ' else c :=
  String.toList_ofList

lemma not_mem_joined (text : String) : '\n' ∉ (joined text).toList := by
  rw [toList_joined, List.mem_map]
  rintro ⟨c, -, hc⟩
  split at hc
  · exact absurd hc (by decide)
  · contradiction

lemma joined_of_not_mem {text : String} (h : '\n' ∉ text.toList) : joined text = text := by
  have hsame : text.toList.map (fun c => if c = '\n' then ' ' else c) = text.toList :=
    (List.map_congr_left fun _ hc => if_neg (ne_of_mem_of_not_mem hc h)).trans (List.map_id _)
  rw [joined, hsame, String.ofList_toList]

def withoutReturn (segment : List Char) : List Char :=
  if segment.getLast? = some '\r' then segment.dropLast else segment

lemma withoutReturn_append (segment : List Char) :
    withoutReturn (segment ++ ['\r']) = segment := by
  simp [withoutReturn]

lemma withoutReturn_append_cons (front : List Char) {c : Char} (hc : c ≠ '\r')
    (value : List Char) : withoutReturn (front ++ c :: value) = front ++ c :: withoutReturn value := by
  cases value with
  | nil => simp [withoutReturn, hc]
  | cons d rest =>
    have hl : (front ++ c :: d :: rest).getLast? = (d :: rest).getLast? := by
      simp [List.getLast?_cons]
    rw [withoutReturn, withoutReturn, hl]
    split <;> simp

lemma bare_append {segment : List Char} (h : '\n' ∉ segment) :
    bare (segment ++ ['\n']) = withoutReturn segment := by
  induction segment with
  | nil => rfl
  | cons c more ih =>
    obtain ⟨hc, hm⟩ := List.ne_and_not_mem_of_not_mem_cons h
    cases more with
    | nil =>
      by_cases hr : c = '\r'
      · subst hr
        rfl
      · simp [bare, withoutReturn, hr]
    | cons d tail =>
      have hb : bare (c :: (d :: tail ++ ['\n'])) = c :: bare (d :: tail ++ ['\n']) := by
        simp [bare]
      rw [List.cons_append, hb, ih hm]
      simp only [withoutReturn, List.getLast?_cons_cons]
      split <;> rfl

lemma bare_of_not_mem {line : List Char} (h : '\n' ∉ line) : bare line = line := by
  induction line with
  | nil => rfl
  | cons c more ih =>
    obtain ⟨hc, hm⟩ := List.ne_and_not_mem_of_not_mem_cons h
    rw [bare, ih hm]
    · rintro rfl
      exact absurd hc (by simp)
    · rintro rfl rfl
      exact absurd hm (by simp)

lemma IsCut.linesOf_eq (h : IsCut text ended rest) :
    linesOf text = ended.map withoutReturn ++ if rest = [] then [] else [rest] := by
  obtain ⟨rfl, hended, hrest⟩ := h
  induction ended with
  | nil =>
    by_cases hr : rest = []
    · simp [hr, linesOf, inclusive]
    · simp [hr, linesOf, inclusive_line hr hrest, bare_of_not_mem hrest]
  | cons segment others ih =>
    obtain ⟨hs, ho⟩ := List.forall_mem_cons.mp hended
    have hi := inclusive_line_append hs ((others.map (· ++ ['\n'])).flatten ++ rest)
    rw [List.map_cons, List.flatten_cons, List.append_assoc, linesOf, hi, List.map_cons,
      bare_append hs]
    exact congrArg (withoutReturn segment :: ·) (ih ho)

/-- The lines of a text: the segments its line feeds end, each without a carriage return at its end, and
what stands behind the last line feed unless that is nothing. -/
def HasLines (text : List Char) (lines : List (List Char)) : Prop :=
  ∃ ended rest, IsCut text ended rest ∧
    lines = ended.map withoutReturn ++ if rest = [] then [] else [rest]

lemma hasLines_iff {lines : List (List Char)} : HasLines text lines ↔ lines = linesOf text := by
  constructor
  · rintro ⟨ended, rest, hc, rfl⟩
    exact hc.linesOf_eq.symm
  · rintro rfl
    obtain ⟨ended, rest, hc⟩ := exists_isCut text
    exact ⟨ended, rest, hc, hc.linesOf_eq⟩

def withReturns (text : List Char) : List Char :=
  text.flatMap fun c => if c = '\n' then ['\r', '\n'] else [c]

lemma withReturns_of_not_mem {line : List Char} (h : '\n' ∉ line) : withReturns line = line := by
  induction line with
  | nil => rfl
  | cons c more ih =>
    obtain ⟨hc, hm⟩ := List.ne_and_not_mem_of_not_mem_cons h
    have hr := ih hm
    simp only [withReturns] at hr
    simp [withReturns, hc.symm, hr]

lemma IsCut.withReturns (h : IsCut text ended rest) :
    IsCut (withReturns text) (ended.map (· ++ ['\r'])) rest := by
  obtain ⟨rfl, hended, hrest⟩ := h
  induction ended with
  | nil => simpa [withReturns_of_not_mem hrest] using isCut_of_not_mem hrest
  | cons segment others ih =>
    obtain ⟨hs, ho⟩ := List.forall_mem_cons.mp hended
    have hsegment : '\n' ∉ segment ++ ['\r'] := by simp [hs]
    have hc := (ih ho).cons hsegment
    have hw := withReturns_of_not_mem hs
    simp only [Line.withReturns] at hw hc ⊢
    simpa [hw] using hc

lemma withoutReturn_of_not_infix (h : IsCut text ended rest) (hr : ¬['\r', '\n'] <:+: text)
    {segment : List Char} (hm : segment ∈ ended) : withoutReturn segment = segment := by
  refine if_neg fun hl => hr ?_
  obtain ⟨front, rfl⟩ := List.getLast?_eq_some_iff.mp hl
  obtain ⟨before, after, rfl⟩ := List.append_of_mem hm
  refine ⟨(before.map (· ++ ['\n'])).flatten ++ front,
    (after.map (· ++ ['\n'])).flatten ++ rest, ?_⟩
  simp [h.text_eq]

lemma linesOf_withReturns (h : ¬['\r', '\n'] <:+: text) :
    linesOf (withReturns text) = linesOf text := by
  obtain ⟨ended, rest, hc⟩ := exists_isCut text
  rw [hc.linesOf_eq, hc.withReturns.linesOf_eq, List.map_map]
  congr 1
  refine List.map_congr_left fun segment hm => ?_
  rw [Function.comp, withoutReturn_append, withoutReturn_of_not_infix hc h hm]

end Premerge.Text.Line

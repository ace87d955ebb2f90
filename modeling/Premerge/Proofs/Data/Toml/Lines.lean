import Premerge.Proofs.Data.Toml.Values

namespace Premerge.Data.Toml

inductive Line where
  | entry (name : String) (value : Value)
  | table (path : List String) (name : String)
  | row (path : List String) (name : String)

namespace Line

def text : Line → String
  | .entry name value => key name ++ " = " ++ valueText value
  | .table path name => "[" ++ dottedKey (path ++ [name]) ++ "]"
  | .row path name => "[[" ++ dottedKey (path ++ [name]) ++ "]]"

def IsReadable : Line → Prop
  | .entry _ value => IsPlain value
  | .table path _ | .row path _ => path.length < depthLimit

def apply (d : Document) : Line → Option Document
  | .entry name value => (addBelow d.header [] name value d.entries).map fun entries => ⟨entries, d.header⟩
  | .table path name => (addTable path name d.entries).map fun entries => ⟨entries, path ++ [name]⟩
  | .row path name => (addRow path name d.entries).map fun entries => ⟨entries, path ++ [name]⟩

def applyAll (d : Document) : List Line → Option Document
  | [] => some d
  | line :: lines => (line.apply d).bind (applyAll · lines)

lemma applyAll_append (d : Document) (lines more : List Line) :
    applyAll d (lines ++ more) = (applyAll d lines).bind (applyAll · more) := by
  induction lines generalizing d with
  | nil => rfl
  | cons line lines ih =>
    rw [List.cons_append, applyAll, applyAll]
    cases line.apply d with
    | none => rfl
    | some d => exact ih d

end Line

lemma head_plain {v : Value} (h : IsPlain v) :
    ∃ c more, (valueText v).toList = c :: more ∧ c ≠ ' ' ∧ c ≠ '\t' := by
  rcases h with h | ⟨items, rfl, _⟩
  · obtain ⟨c, more, hc, hstart⟩ := head_scalar h
    exact ⟨c, more, hc, fun he => hstart.not_isGap.1 (.inl he), fun he => hstart.not_isGap.1 (.inr (.inl he))⟩
  · match items with
    | [] => exact ⟨_, _, rfl, by decide, by decide⟩
    | [item] =>
      exact ⟨'[', (valueText item).toList ++ [']'], by simp [valueText, valueTexts, listText],
        by decide, by decide⟩
    | first :: second :: more =>
      have htext := toList_listText first second more []
      rw [List.append_nil] at htext
      exact ⟨_, _, htext, by decide, by decide⟩

lemma head_dottedKey (path : List String) (name : String) :
    ∃ c more, (dottedKey (path ++ [name])).toList = c :: more ∧
      (isBareChar c = true ∨ c = quote ∨ c = apostrophe) := by
  match path with
  | [] =>
    rw [List.nil_append, toList_dottedKey_singleton]
    exact head_key name
  | [first] =>
    obtain ⟨c, more, hc, hhead⟩ := head_key first
    exact ⟨c, _, by rw [List.cons_append, List.nil_append, toList_dottedKey_cons, hc]; rfl, hhead⟩
  | first :: second :: path =>
    obtain ⟨c, more, hc, hhead⟩ := head_key first
    exact ⟨c, _, by rw [List.cons_append, List.cons_append, toList_dottedKey_cons, hc]; rfl, hhead⟩

lemma lineStep_entry (d : Document) (name : String) {value : Value} (hv : IsPlain value)
    (rest : List Char) :
    lineStep d ((Line.entry name value).text.toList ++ '\n' :: rest) =
      ((Line.entry name value).apply d).map (·, rest) := by
  obtain ⟨c, more, hc, hhead⟩ := head_key name
  have hbracket : c ≠ '[' := by
    rintro rfl
    exact absurd hhead (by decide)
  obtain ⟨first, others, hfirst, hspace⟩ := head_plain hv
  have hend : EndsValue ('\n' :: rest) := by
    rintro c hc
    cases hc
    exact .inl rfl
  have hkeyEnd : EndsKey (' ' :: '=' :: ' ' :: ((valueText value).toList ++ '\n' :: rest)) := by
    rintro c hc
    cases hc
    decide
  have hdot : skipSpace (' ' :: '=' :: ' ' :: ((valueText value).toList ++ '\n' :: rest)) =
      '=' :: ' ' :: ((valueText value).toList ++ '\n' :: rest) := by
    simp [skipSpace]
  have hkey : keyStep ((key name).toList ++ ' ' :: '=' :: ' ' :: ((valueText value).toList ++
      '\n' :: rest)) = some ([], name, '=' :: ' ' :: ((valueText value).toList ++ '\n' :: rest)) := by
    have hpath : ([] : List String).length < depthLimit := by decide
    rw [← toList_dottedKey_singleton, ← hdot]
    exact keyStep_dottedKey name hpath hkeyEnd (by simp [hdot])
  have hskip : skipSpace (' ' :: ((valueText value).toList ++ '\n' :: rest)) =
      (valueText value).toList ++ '\n' :: rest := by
    rw [hfirst]
    simp [skipSpace, hspace.1, hspace.2]
  have htext : (Line.entry name value).text.toList ++ '\n' :: rest =
      (key name).toList ++ ' ' :: '=' :: ' ' :: ((valueText value).toList ++ '\n' :: rest) := by
    simp [Line.text]
  have hvalue : valueStep (2 * (' ' :: ((valueText value).toList ++ '\n' :: rest)).length + 2)
      depthLimit ((valueText value).toList ++ '\n' :: rest) = some (value, '\n' :: rest) :=
    valueStep_plain hv hend (by simp only [List.length_cons, List.length_append]; omega) 78
  have hline : lineRest ('\n' :: rest) = some rest := rfl
  rw [htext]
  rw [hc, List.cons_append] at hkey ⊢
  rw [lineStep]
  · simp only [Option.bind_eq_bind, hkey, Option.bind_some, hskip, hvalue, hline, Line.apply]
    cases addBelow d.header [] name value d.entries <;> rfl
  · exact fun _ he => hbracket (List.cons.inj he).1
  · exact fun _ he => hbracket (List.cons.inj he).1

lemma lineStep_text {line : Line} (h : line.IsReadable) (d : Document) (rest : List Char) :
    lineStep d (line.text.toList ++ '\n' :: rest) = (line.apply d).map (·, rest) := by
  have hline : lineRest ('\n' :: rest) = some rest := rfl
  have hend : ∀ more, EndsKey (']' :: more) := by
    rintro more c hc
    cases hc
    decide
  have hskip : ∀ more, skipSpace (']' :: more) = ']' :: more := fun _ => skipSpace_cons (by decide) _
  cases line with
  | entry name value => exact lineStep_entry d name h rest
  | table path name =>
    obtain ⟨c, more, hc, hhead⟩ := head_dottedKey path name
    have hbracket : c ≠ '[' := by
      rintro rfl
      exact absurd hhead (by decide)
    have hkey := keyStep_dottedKey name h (hend ('\n' :: rest)) (by simp [hskip])
    have htext : (Line.table path name).text.toList ++ '\n' :: rest =
        '[' :: ((dottedKey (path ++ [name])).toList ++ ']' :: '\n' :: rest) := by
      simp [Line.text]
    rw [htext]
    rw [hskip] at hkey
    rw [hc, List.cons_append] at hkey ⊢
    rw [lineStep]
    · simp only [Option.bind_eq_bind, hkey, Option.bind_some, hline, Line.apply]
      cases addTable path name d.entries <;> rfl
    · exact fun _ he => hbracket (List.cons.inj he).1
  | row path name =>
    have hkey := keyStep_dottedKey name h (hend (']' :: '\n' :: rest)) (by simp [hskip])
    have htext : (Line.row path name).text.toList ++ '\n' :: rest =
        '[' :: '[' :: ((dottedKey (path ++ [name])).toList ++ ']' :: ']' :: '\n' :: rest) := by
      simp [Line.text]
    rw [hskip] at hkey
    rw [htext, lineStep]
    simp only [Option.bind_eq_bind, hkey, Option.bind_some, hline, Line.apply]
    cases addRow path name d.entries <;> rfl

def Reads (d : Document) (input : List Char) (d' : Document) : Prop :=
  ∀ fuel, input.length < fuel → linesFrom fuel d input = some d'

lemma Reads.nil (d : Document) : Reads d [] d := by
  intro fuel hf
  obtain ⟨fuel, rfl⟩ := Nat.exists_eq_add_one_of_ne_zero (Nat.ne_of_gt hf)
  rfl

lemma Reads.gap {d d' : Document} {input : List Char} (h : Reads d input d') :
    Reads d ('\n' :: input) d' := by
  intro fuel hf
  obtain ⟨fuel, rfl⟩ := Nat.exists_eq_add_one_of_ne_zero (Nat.ne_of_gt (Nat.zero_lt_of_lt hf))
  have hrest := h (fuel + 1) (by simp only [List.length_cons] at hf; omega)
  have hskip : linesFrom.skipLinesOrEnd (('\n' :: input).length + 1) ('\n' :: input) =
      linesFrom.skipLinesOrEnd (input.length + 1) input := rfl
  rw [linesFrom] at hrest ⊢
  rwa [hskip]

lemma Line.head_text (line : Line) :
    ∃ c more, line.text.toList = c :: more ∧ ¬IsGap c ∧ c ≠ byteOrderMark := by
  have hbracket : ¬IsGap '[' ∧ '[' ≠ byteOrderMark := by decide
  cases line with
  | entry name value =>
    obtain ⟨c, more, hc, hhead⟩ := head_key name
    refine ⟨c, more ++ (" = " ++ valueText value).toList, by simp [text, hc], ?_, ?_⟩
    · rintro (rfl | rfl | rfl | rfl | rfl) <;> exact absurd hhead (by decide)
    · rintro rfl
      exact absurd hhead (by decide)
  | table path name => exact ⟨'[', (dottedKey (path ++ [name]) ++ "]").toList, by simp [text], hbracket⟩
  | row path name =>
    exact ⟨'[', '[' :: (dottedKey (path ++ [name]) ++ "]]").toList, by simp [text], hbracket⟩

lemma Reads.line {d d₁ d' : Document} {line : Line} (h : line.IsReadable)
    (ha : line.apply d = some d₁) {rest : List Char} (hr : Reads d₁ rest d') :
    Reads d (line.text.toList ++ '\n' :: rest) d' := by
  intro fuel hf
  obtain ⟨fuel, rfl⟩ := Nat.exists_eq_add_one_of_ne_zero (Nat.ne_of_gt (Nat.zero_lt_of_lt hf))
  have hrest := hr fuel (by simp only [List.length_cons, List.length_append] at hf; omega)
  have hstep := lineStep_text h d rest
  rw [ha] at hstep
  obtain ⟨c, more, hc, hgap, _⟩ := line.head_text
  rw [hc, List.cons_append] at hstep ⊢
  simp only [IsGap, not_or] at hgap
  obtain ⟨hspace, htab, hline, hreturn, hcomment⟩ := hgap
  simp [linesFrom, linesFrom.skipLinesOrEnd, skipSpace_cons ⟨hspace, htab⟩, hline, hreturn, hcomment,
    hstep, hrest]

/-- The input holds the lines and no others, apart from empty ones. -/
inductive Holds : List Line → List Char → Prop where
  | nil : Holds [] []
  | gap {lines : List Line} {input : List Char} : Holds lines input → Holds lines ('\n' :: input)
  | line {line : Line} {lines : List Line} {input : List Char} :
    Holds lines input → Holds (line :: lines) (line.text.toList ++ '\n' :: input)

lemma Holds.append {lines more : List Line} {input rest : List Char} (h : Holds lines input)
    (h' : Holds more rest) : Holds (lines ++ more) (input ++ rest) := by
  induction h with
  | nil => exact h'
  | gap _ ih => exact ih.gap
  | line _ ih =>
    rw [List.cons_append, List.append_assoc, List.cons_append]
    exact ih.line

lemma Holds.reads {lines : List Line} {input : List Char} (h : Holds lines input)
    (hl : ∀ line ∈ lines, line.IsReadable) {d d' : Document}
    (ha : Line.applyAll d lines = some d') : Reads d input d' := by
  induction h generalizing d with
  | nil =>
    cases ha
    exact .nil _
  | gap _ ih => exact (ih hl ha).gap
  | line _ ih =>
    rw [List.forall_mem_cons] at hl
    rw [Line.applyAll] at ha
    obtain ⟨d₁, hd, ha⟩ := Option.bind_eq_some_iff.mp ha
    exact .line hl.1 hd (ih hl.2 ha)

lemma holds_unlines (lines : List Line) :
    Holds lines (unlines (lines.map Line.text)).toList := by
  induction lines with
  | nil => exact .nil
  | cons line lines ih =>
    have htext : (unlines ((line :: lines).map Line.text)).toList =
        line.text.toList ++ '\n' :: (unlines (lines.map Line.text)).toList := by
      simp [unlines]
    rw [htext]
    exact ih.line

structure Part where
  head : Line
  entries : List Line

namespace Part

def lines (part : Part) : List Line :=
  part.head :: part.entries

def toSection (part : Part) : Section :=
  ⟨part.head.text, part.entries.map Line.text⟩

end Part

lemma holds_withSections {lines : List Line} {text : String} (h : Holds lines text.toList)
    (parts : List Part) :
    Holds (lines ++ parts.flatMap Part.lines) (withSections text (parts.map Part.toSection)).toList := by
  induction parts generalizing lines text with
  | nil => simpa [withSections] using h
  | cons part parts ih =>
    rw [List.map_cons, withSections, List.flatMap_cons, ← List.append_assoc]
    refine ih ?_
    have hpart : Holds part.lines (part.head.text.toList ++ '\n' ::
        (unlines (part.entries.map Line.text)).toList) := (holds_unlines part.entries).line
    dsimp only [Part.toSection]
    split
    · simpa using h.append hpart
    · simpa using h.append hpart.gap

lemma Holds.head_ne {lines : List Line} {input : List Char} (h : Holds lines input) :
    ∀ c ∈ input.head?, c ≠ byteOrderMark := by
  intro c hc
  cases h with
  | nil => cases hc
  | gap _ =>
    cases hc
    decide
  | line _ =>
    obtain ⟨first, more, hfirst, _, hmark⟩ := Line.head_text _
    rw [hfirst] at hc
    cases hc
    exact hmark

lemma read_of_holds {lines : List Line} {text : String} (h : Holds lines text.toList)
    (hl : ∀ line ∈ lines, line.IsReadable) {d : Document}
    (ha : Line.applyAll ⟨[], []⟩ lines = some d) : read text = some (.table (entryValues d.entries)) := by
  have hreads := h.reads hl ha (text.toList.length + 1) (by omega)
  have hhead := h.head_ne
  rw [read]
  rcases ht : text.toList with _ | ⟨c, rest⟩ <;> rw [ht] at hreads hhead
  · simp only [hreads, Option.map_some]
  · simp only [if_neg (hhead c rfl), hreads, Option.map_some]

end Premerge.Data.Toml

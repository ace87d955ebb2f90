namespace Premerge.Text.Line

def inclusive : List Char → List (List Char)
  | [] => []
  | c :: rest =>
    if c = '\n' then [c] :: inclusive rest
    else match inclusive rest with
      | [] => [[c]]
      | line :: more => (c :: line) :: more

def bare : List Char → List Char
  | [] => []
  | ['\n'] => []
  | ['\r', '\n'] => []
  | c :: rest => c :: bare rest

/-- The lines of a text: a line feed at its end adds no line. -/
def linesOf (text : List Char) : List (List Char) :=
  (inclusive text).map bare

def lines (text : String) : List String :=
  (linesOf text.toList).map String.ofList

def pieces (separator : Char) : List Char → List (List Char)
  | [] => [[]]
  | c :: rest =>
    if c = separator then [] :: pieces separator rest
    else match pieces separator rest with
      | [] => [[c]]
      | piece :: more => (c :: piece) :: more

def joined (text : String) : String :=
  String.ofList (text.toList.map fun c => if c = '\n' then ' ' else c)

theorem flatten_inclusive (text : List Char) : (inclusive text).flatten = text := by
  induction text with
  | nil => rfl
  | cons c rest ih =>
    unfold inclusive
    split
    · simp [ih]
    · split
      next h => rw [h] at ih; simp at ih; simp [ih]
      next h => rw [h] at ih; simp at ih; simp [ih]

theorem pieces_ne_nil (separator : Char) (text : List Char) : pieces separator text ≠ [] := by
  cases text with
  | nil => simp [pieces]
  | cons c rest =>
    unfold pieces
    split
    · simp
    · split <;> simp

theorem pieces_append (separator : Char) (text more : List Char) :
    pieces separator (text ++ separator :: more) = pieces separator text ++ pieces separator more := by
  induction text with
  | nil => simp [pieces]
  | cons c rest ih =>
    by_cases hc : c = separator
    · simp [pieces, hc, ih]
    · obtain ⟨piece, pieces', hp⟩ := List.exists_cons_of_ne_nil (pieces_ne_nil separator rest)
      rw [hp] at ih
      simp [pieces, hc, ih, hp]

theorem pieces_of_not_mem {separator : Char} {text : List Char} (h : separator ∉ text) :
    pieces separator text = [text] := by
  induction text with
  | nil => rfl
  | cons c rest ih =>
    obtain ⟨hc, hr⟩ := List.ne_and_not_mem_of_not_mem_cons h
    simp [pieces, hc.symm, ih hr]

end Premerge.Text.Line

namespace Premerge.Report.Escape

def esc : Char := Char.ofNat 0x1B

def bel : Char := Char.ofNat 7

def isParameter (c : Char) : Bool := '0' ≤ c && c ≤ '?'

def isIntermediate (c : Char) : Bool := ' ' ≤ c && c ≤ '/'

def isFinal (c : Char) : Bool := '@' ≤ c && c ≤ '~'

def isShort (c : Char) : Bool := ('@' ≤ c && c ≤ 'Z') || c == '\\' || c == '^' || c == '_'

def isPayload (c : Char) : Bool := c != bel && c != esc

inductive Sequence : List Char → Prop where
  | control {parameters intermediates : List Char} {final : Char} :
      (∀ c ∈ parameters, isParameter c) → (∀ c ∈ intermediates, isIntermediate c) →
      isFinal final → Sequence (esc :: '[' :: (parameters ++ intermediates ++ [final]))
  | commandBell {payload : List Char} :
      (∀ c ∈ payload, isPayload c) → Sequence (esc :: ']' :: (payload ++ [bel]))
  | commandEscape {payload : List Char} :
      (∀ c ∈ payload, isPayload c) → Sequence (esc :: ']' :: (payload ++ [esc, '\\']))
  | short {c : Char} : isShort c → Sequence [esc, c]

def sequenceEnd? : List Char → Option (List Char)
  | e :: c :: rest =>
    if e ≠ esc then none
    else if c = '[' then
      match (rest.dropWhile isParameter).dropWhile isIntermediate with
      | final :: behind => if isFinal final then some behind else none
      | [] => none
    else if c = ']' then
      match rest.dropWhile isPayload with
      | last :: behind =>
        if last = bel then some behind
        else match behind with
          | '\\' :: behind => some behind
          | _ => none
      | [] => none
    else if isShort c then some rest
    else none
  | _ => none

theorem length_dropWhile_le (p : Char → Bool) (text : List Char) :
    (text.dropWhile p).length ≤ text.length :=
  (List.dropWhile_suffix p).length_le

theorem length_lt_of_sequenceEnd? {text behind : List Char}
    (h : sequenceEnd? text = some behind) : behind.length < text.length := by
  unfold sequenceEnd? at h
  split at h
  next e c rest =>
    have hp := length_dropWhile_le isParameter rest
    have hi := length_dropWhile_le isIntermediate (rest.dropWhile isParameter)
    have ho := length_dropWhile_le isPayload rest
    grind
  next => simp at h

def stripChars (text : List Char) : List Char :=
  match text with
  | [] => []
  | c :: rest =>
    match _h : sequenceEnd? (c :: rest) with
    | some behind => stripChars behind
    | none => c :: stripChars rest
termination_by text.length
decreasing_by
  · exact length_lt_of_sequenceEnd? (by assumption)
  · simp

def strip (text : String) : String :=
  String.ofList (stripChars text.toList)

end Premerge.Report.Escape

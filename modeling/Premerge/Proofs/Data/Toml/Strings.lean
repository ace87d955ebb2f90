import Mathlib.Tactic.Lemma
import Mathlib.Tactic.SplitIfs
import Premerge.Data.Toml.Printer
import Premerge.Data.Toml.Reader

namespace Premerge.Data.Toml

lemma isPlainChar_of_not_isControl {c : Char} (h : isControl c = false) : isPlainChar c = true := by
  simp only [isControl, Bool.or_eq_false_iff, decide_eq_false_iff_not, beq_eq_false_iff_ne] at h
  simp [isPlainChar, h.2, Nat.not_lt.mp h.1]

lemma numbered_hexDigits (n : Fin 128) (h : isControl (Char.ofNat n) = true) :
    numbered? ['0', '0', upperHexDigit (n / 16), upperHexDigit n] = some (Char.ofNat n) := by
  revert n
  decide +kernel

lemma toNat_lt_of_isControl {c : Char} (h : isControl c = true) : c.toNat < 128 := by
  simp only [isControl, Bool.or_eq_true, decide_eq_true_eq, beq_iff_eq] at h
  omega

def IsEscapeOf (c : Char) (escape : List Char) : Prop :=
  ∀ rest, escapeStep (escape ++ rest) = some (c, rest) ∧ joinedLine? (escape ++ rest) = none

lemma isEscapeOf_letter {c mark : Char} (h : mark ∈ ['t', 'r', 'n', '\\', 'b', 'f', quote])
    (he : letterEscape? mark = some c) : IsEscapeOf c [mark] := by
  intro rest
  simp only [List.mem_cons, List.not_mem_nil, or_false] at h
  rcases h with rfl | rfl | rfl | rfl | rfl | rfl | rfl <;>
    exact ⟨congrArg (Option.map (·, rest)) he, rfl⟩

lemma escaped_cases (c : Char) :
    (escaped c = [c] ∧ isPlainChar c = true ∧ c ≠ '\\') ∨
      ∃ escape, escaped c = '\\' :: escape ∧ IsEscapeOf c escape := by
  rw [escaped]
  split_ifs with ht hr hb hback hfeed hcontrol
  · exact .inr ⟨['t'], rfl, isEscapeOf_letter (by simp) (by rw [ht]; rfl)⟩
  · exact .inr ⟨['r'], rfl, isEscapeOf_letter (by simp) (by rw [hr]; rfl)⟩
  · exact .inr ⟨['\\'], rfl, isEscapeOf_letter (by simp) (by rw [hb]; rfl)⟩
  · exact .inr ⟨['b'], rfl, isEscapeOf_letter (by simp) (by rw [← Char.ofNat_toNat c, hback]; rfl)⟩
  · exact .inr ⟨['f'], rfl, isEscapeOf_letter (by simp) (by rw [← Char.ofNat_toNat c, hfeed]; rfl)⟩
  · refine .inr ⟨_, rfl, fun rest => ⟨?_, rfl⟩⟩
    have hn := numbered_hexDigits ⟨c.toNat, toNat_lt_of_isControl hcontrol⟩
      (by rwa [Char.ofNat_toNat])
    rw [Char.ofNat_toNat] at hn
    simp only [escapeStep, List.cons_append, List.nil_append, List.take_succ_cons, List.take_zero,
      List.length_cons, List.length_nil, List.drop_succ_cons, List.drop_zero, if_true, hn,
      Option.map_some]
  · exact .inl ⟨rfl, isPlainChar_of_not_isControl (by simpa using hcontrol), hb⟩

def shortChar (c : Char) : List Char :=
  if c = doubleQuote then ['\\', c] else if c = '\n' then ['\\', 'n'] else escaped c

lemma shortBody_cons (c : Char) (text : List Char) :
    shortBody (c :: text) = shortChar c ++ shortBody text := rfl

lemma shortChar_cases (c : Char) :
    (shortChar c = [c] ∧ isPlainChar c = true ∧ c ≠ '\\' ∧ c ≠ quote) ∨
      ∃ escape, shortChar c = '\\' :: escape ∧ IsEscapeOf c escape := by
  rw [shortChar]
  split_ifs with hq hn
  · exact .inr ⟨[c], rfl, isEscapeOf_letter (by simp [hq, doubleQuote, quote]) (by rw [hq]; rfl)⟩
  · exact .inr ⟨['n'], rfl, isEscapeOf_letter (by simp) (by rw [hn]; rfl)⟩
  · exact (escaped_cases c).imp_left fun ⟨he, hp, hb⟩ => ⟨he, hp, hb, hq⟩

lemma basicStep_shortBody (text rest : List Char) {fuel : Nat}
    (h : (shortBody text).length < fuel) :
    basicStep fuel (shortBody text ++ quote :: rest) = some (text, rest) := by
  induction text generalizing fuel with
  | nil =>
    obtain ⟨fuel, rfl⟩ := Nat.exists_eq_add_one_of_ne_zero (Nat.ne_of_gt h)
    simp [shortBody, basicStep]
  | cons c text ih =>
    obtain ⟨fuel, rfl⟩ := Nat.exists_eq_add_one_of_ne_zero (Nat.ne_of_gt (Nat.zero_lt_of_lt h))
    rw [shortBody_cons, List.append_assoc]
    rw [shortBody_cons, List.length_append] at h
    rcases shortChar_cases c with ⟨hc, hplain, hback, hquote⟩ | ⟨escape, hc, hescape⟩ <;>
      rw [hc] at h ⊢ <;> simp only [List.length_cons, List.length_nil] at h
    · have hrest : basicStep fuel (shortBody text ++ quote :: rest) = some (text, rest) :=
        ih (by omega)
      simp [basicStep, hquote, hback, hplain, hrest]
    · have hrest : basicStep fuel (shortBody text ++ quote :: rest) = some (text, rest) :=
        ih (by omega)
      have hb : ('\\' : Char) ≠ quote := by decide
      simp [basicStep, hb, (hescape _).1, hrest]

lemma literalStep_append {text : List Char} (rest : List Char)
    (h : ∀ c ∈ text, c ≠ apostrophe ∧ isPlainChar c = true) :
    literalStep (text ++ apostrophe :: rest) = some (text, rest) := by
  induction text with
  | nil => simp [literalStep]
  | cons c text ih =>
    rw [List.forall_mem_cons] at h
    simp [literalStep, h.1.1, h.1.2, ih h.2]

/-- Three marks close a string and take those of the text right before them along. The text before
them must not look closed itself. -/
lemma closing?_append {mark : Char} (body : List Char) {rest : List Char}
    (hb : (body.takeWhile (· == mark)).length ≤ 2) (hr : rest.head? ≠ some mark) :
    closing? mark (body ++ mark :: mark :: mark :: rest) =
      if body.all (· == mark) then some (body, rest) else none := by
  have hd : ∀ d ∈ rest.head?, (d == mark) = false := by
    intro d hm
    rw [beq_eq_false_iff_ne]
    rintro rfl
    exact hr hm
  rcases body with _ | ⟨a, _ | ⟨b, _ | ⟨c, more⟩⟩⟩
  · rcases rest with _ | ⟨d, rest⟩ <;> simp_all [closing?]
  · by_cases ha : a = mark
    · rcases rest with _ | ⟨d, rest⟩ <;> simp_all [closing?]
    · simp [closing?, ha]
  · by_cases ha : a = mark
    · by_cases hb : b = mark
      · rcases rest with _ | ⟨d, rest⟩ <;> simp_all [closing?]
      · simp [closing?, ha, hb]
    · simp [closing?, ha]
  · by_cases ha : a = mark
    · by_cases hb' : b = mark
      · by_cases hc : c = mark
        · simp [ha, hb', hc] at hb
        · simp [closing?, ha, hb', hc]
      · simp [closing?, ha, hb']
    · simp [closing?, ha]

lemma longBody_cons (run : Nat) (c : Char) (text : List Char) :
    (c = quote ∧ run ≠ 2 ∧ longBody run (c :: text) = quote :: longBody (run + 1) text) ∨
    (c ≠ quote ∧ (c = '\n' ∨ isPlainChar c = true) ∧ c ≠ '\\' ∧
      longBody run (c :: text) = c :: longBody 0 text) ∨
    ∃ escape, longBody run (c :: text) = '\\' :: escape ++ longBody 0 text ∧ IsEscapeOf c escape := by
  rw [longBody]
  split_ifs with hq hrun hn
  · exact .inr (.inr ⟨[c], rfl, isEscapeOf_letter (by simp [hq, doubleQuote, quote]) (by rw [hq]; rfl)⟩)
  · exact .inl ⟨hq, hrun, by rw [hq]; rfl⟩
  · exact .inr (.inl ⟨hq, .inl hn, by rw [hn]; decide, rfl⟩)
  · rcases escaped_cases c with ⟨he, hp, hb⟩ | ⟨escape, he, hescape⟩
    · exact .inr (.inl ⟨hq, .inr hp, hb, by rw [he]; rfl⟩)
    · exact .inr (.inr ⟨escape, by rw [he], hescape⟩)

lemma leading_longBody {run : Nat} (hrun : run ≤ 2) (text : List Char) :
    run + ((longBody run text).takeWhile (· == quote)).length ≤ 2 := by
  have hback : ('\\' == quote) = false := by decide
  induction text generalizing run with
  | nil => simpa [longBody] using hrun
  | cons c text ih =>
    rcases longBody_cons run c text with ⟨_, hne, hb⟩ | ⟨hne, _, _, hb⟩ | ⟨escape, hb, _⟩
    · have : run + 1 + ((longBody (run + 1) text).takeWhile (· == quote)).length ≤ 2 :=
        ih (by omega)
      rw [hb, List.takeWhile_cons_of_pos (by simp), List.length_cons]
      omega
    · rw [hb, List.takeWhile_cons_of_neg (by simpa using hne)]
      simpa using hrun
    · rw [hb, List.cons_append, List.takeWhile_cons_of_neg (by simpa using hback)]
      simpa using hrun

lemma longBody_of_all {run : Nat} {text : List Char}
    (h : (longBody run text).all (· == quote) = true) : longBody run text = text := by
  have hback : ('\\' == quote) = false := by decide
  induction text generalizing run with
  | nil => rfl
  | cons c text ih =>
    rcases longBody_cons run c text with ⟨rfl, _, hb⟩ | ⟨hne, _, _, hb⟩ | ⟨escape, hb, _⟩ <;>
      rw [hb] at h ⊢
    · rw [List.all_cons, Bool.and_eq_true] at h
      rw [ih h.2]
    · simp [hne] at h
    · simp [hback] at h

lemma longBasicStep_closed {input : List Char} {found : List Char × List Char} (fuel : Nat)
    (h : closing? quote input = some found) : longBasicStep (fuel + 1) input = some found := by
  simp only [longBasicStep, h]

lemma longLiteralStep_closed {input : List Char} {found : List Char × List Char} (fuel : Nat)
    (h : closing? apostrophe input = some found) : longLiteralStep (fuel + 1) input = some found := by
  simp only [longLiteralStep, h]

lemma longBasicStep_cons {c : Char} {rest : List Char} (fuel : Nat)
    (h : closing? quote (c :: rest) = none) (hc : c = '\n' ∨ isPlainChar c = true) (hb : c ≠ '\\') :
    longBasicStep (fuel + 1) (c :: rest) =
      (longBasicStep fuel rest).map fun (text, rest) => (c :: text, rest) := by
  have hr : c ≠ '\r' := by
    rintro rfl
    revert hc
    decide
  simp [longBasicStep, h, hc, hr]

lemma longBasicStep_longBody {run : Nat} (hrun : run ≤ 2) (text : List Char) {rest : List Char}
    (hr : rest.head? ≠ some quote) {fuel : Nat} (h : (longBody run text).length < fuel) :
    longBasicStep fuel (longBody run text ++ quote :: quote :: quote :: rest) = some (text, rest) := by
  induction text generalizing run fuel with
  | nil =>
    obtain ⟨fuel, rfl⟩ := Nat.exists_eq_add_one_of_ne_zero (Nat.ne_of_gt (Nat.zero_lt_of_lt h))
    have hclosing := closing?_append [] (by simp) hr
    rw [List.all_nil, if_pos rfl] at hclosing
    exact longBasicStep_closed fuel hclosing
  | cons c text ih =>
    obtain ⟨fuel, rfl⟩ := Nat.exists_eq_add_one_of_ne_zero (Nat.ne_of_gt (Nat.zero_lt_of_lt h))
    have hlead := leading_longBody hrun (c :: text)
    have hclosing := closing?_append _ (Nat.le_trans (Nat.le_add_left _ run) hlead) hr
    split at hclosing
    next hall =>
      rw [longBody_of_all hall] at hclosing ⊢
      exact longBasicStep_closed fuel hclosing
    · rcases longBody_cons run c text with ⟨rfl, hne, hb⟩ | ⟨hne, hc, hback, hb⟩ |
        ⟨escape, hb, hescape⟩ <;> rw [hb] at h hclosing ⊢ <;>
        simp only [List.length_cons, List.length_append] at h
      · rw [List.cons_append] at hclosing ⊢
        rw [longBasicStep_cons fuel hclosing (.inr rfl) (by decide), ih (by omega) (by omega)]
        rfl
      · rw [List.cons_append] at hclosing ⊢
        rw [longBasicStep_cons fuel hclosing hc hback, ih (by omega) (by omega)]
        rfl
      · have hrest : longBasicStep fuel (longBody 0 text ++ quote :: quote :: quote :: rest) =
            some (text, rest) := ih (by omega) (by omega)
        rw [List.cons_append, List.cons_append, List.append_assoc] at hclosing ⊢
        simp [longBasicStep, hclosing, (hescape _).1, (hescape _).2, hrest]

lemma leading_le_longestRun (c : Char) (text : List Char) :
    (text.takeWhile (· == c)).length ≤ longestRun c text := by
  cases text with
  | nil => simp
  | cons d text =>
    rw [longestRun]
    by_cases hd : d = c
    · rw [if_pos hd, List.takeWhile_cons_of_pos (by simpa using hd), List.length_cons]
      omega
    · rw [List.takeWhile_cons_of_neg (by simpa using hd)]
      simp

lemma longestRun_le_cons (c d : Char) (text : List Char) :
    longestRun c text ≤ longestRun c (d :: text) := by
  rw [longestRun]
  omega

lemma longLiteralStep_append {text : List Char}
    (ht : ∀ c ∈ text, c = '\n' ∨ isPlainChar c = true) (hrun : longestRun apostrophe text ≤ 2)
    {rest : List Char} (hr : rest.head? ≠ some apostrophe) {fuel : Nat} (h : text.length < fuel) :
    longLiteralStep fuel (text ++ apostrophe :: apostrophe :: apostrophe :: rest) =
      some (text, rest) := by
  induction text generalizing fuel with
  | nil =>
    obtain ⟨fuel, rfl⟩ := Nat.exists_eq_add_one_of_ne_zero (Nat.ne_of_gt (Nat.zero_lt_of_lt h))
    have hclosing := closing?_append [] (by simp) hr
    rw [List.all_nil, if_pos rfl] at hclosing
    exact longLiteralStep_closed fuel hclosing
  | cons c text ih =>
    obtain ⟨fuel, rfl⟩ := Nat.exists_eq_add_one_of_ne_zero (Nat.ne_of_gt (Nat.zero_lt_of_lt h))
    have hlead := leading_le_longestRun apostrophe (c :: text)
    have hclosing := closing?_append _ (Nat.le_trans hlead hrun) hr
    split at hclosing
    · exact longLiteralStep_closed fuel hclosing
    · rw [List.forall_mem_cons] at ht
      have hle := longestRun_le_cons apostrophe c text
      have hrest : longLiteralStep fuel (text ++ apostrophe :: apostrophe :: apostrophe :: rest) =
          some (text, rest) := ih ht.2 (by omega) (by simpa using h)
      have hret : c ≠ '\r' := by
        rintro rfl
        exact absurd ht.1 (by decide)
      rw [List.cons_append] at hclosing ⊢
      simp [longLiteralStep, hclosing, ht.1, hret, hrest]

lemma literal_of_formOf {text : List Char} (h : formOf text = .literal) :
    text ≠ [] ∧ ∀ c ∈ text, c ≠ apostrophe ∧ isPlainChar c = true := by
  rw [formOf] at h
  dsimp only at h
  split_ifs at h with hbasic hliteral
  constructor
  · rintro rfl
    exact hbasic rfl
  · intro c hc
    simp only [Bool.and_eq_true, List.isEmpty_iff, List.filter_eq_nil_iff, Bool.not_eq_true',
      List.contains_eq_mem, decide_eq_false_iff_not] at hliteral
    refine ⟨?_, isPlainChar_of_not_isControl (by simpa using hliteral.1 c hc)⟩
    rintro rfl
    exact hliteral.2 hc

lemma longLiteral_of_formOf {text : List Char} (h : formOf text = .longLiteral) :
    (∀ c ∈ text, c = '\n' ∨ isPlainChar c = true) ∧ longestRun apostrophe text ≤ 2 := by
  rw [formOf] at h
  dsimp only at h
  split_ifs at h with hbasic hliteral hlong hlongLiteral
  simp only [Bool.and_eq_true, List.all_eq_true, List.mem_filter, Bool.or_eq_true, beq_iff_eq,
    decide_eq_true_eq] at hlongLiteral
  refine ⟨fun c hc => ?_, hlongLiteral.2⟩
  cases hcontrol : isControl c with
  | false => exact .inr (isPlainChar_of_not_isControl hcontrol)
  | true => exact (hlongLiteral.1 c ⟨hc, hcontrol⟩).imp_right fun ht => by rw [ht]; rfl

lemma skipFirstLineEnd_of_head {input : List Char}
    (h : ∀ c ∈ input.head?, c ≠ '\n' ∧ c ≠ '\r') : skipFirstLineEnd input = input := by
  rw [skipFirstLineEnd.eq_def]
  split
  · exact absurd rfl (h '\n' rfl).1
  · exact absurd rfl (h '\r' rfl).2
  · rfl

lemma head_shortBody {text : List Char} : ∀ c ∈ (shortBody text).head?, c ≠ quote := by
  cases text with
  | nil => simp [shortBody]
  | cons c text =>
    rw [shortBody_cons]
    rcases shortChar_cases c with ⟨hc, _, _, hquote⟩ | ⟨escape, hc, _⟩ <;> rw [hc]
    · simpa using hquote
    · simp [quote]

def EndsString (rest : List Char) : Prop :=
  ∀ c ∈ rest.head?, c ≠ quote ∧ c ≠ apostrophe

lemma EndsString.head?_ne {rest : List Char} (h : EndsString rest) :
    rest.head? ≠ some quote ∧ rest.head? ≠ some apostrophe :=
  ⟨fun he => (h _ he).1 rfl, fun he => (h _ he).2 rfl⟩

lemma stringStep_basic (text : List Char) {rest : List Char} (hr : EndsString rest) :
    stringStep (inForm .basic text ++ rest) = some (text, rest) := by
  have hform : inForm .basic text ++ rest = quote :: (shortBody text ++ quote :: rest) := by
    simp [inForm, doubleQuote, quote]
  have hshort : ∀ b c more, shortBody text ++ quote :: rest = b :: c :: more →
      ¬(b = quote ∧ c = quote) → stringStep (quote :: b :: c :: more) = some (text, rest) := by
    intro b c more hb hne
    have hlength := congrArg List.length hb
    simp only [List.length_append, List.length_cons] at hlength
    have hstep : stringStep (quote :: b :: c :: more) = basicStep (more.length + 3) (b :: c :: more) := by
      simp [stringStep, hne]
    rw [hstep, ← hb]
    exact basicStep_shortBody text rest (by omega)
  rw [hform]
  rcases hs : shortBody text with _ | ⟨x, more⟩
  · rcases rest with _ | ⟨d, rest⟩
    · cases text with
      | nil => rfl
      | cons c text =>
        rcases shortChar_cases c with ⟨hc, _⟩ | ⟨_, hc, _⟩ <;> rw [shortBody_cons, hc] at hs <;> cases hs
    · rw [hs] at hshort
      exact hshort quote d rest rfl fun h => (hr d rfl).1 h.2
  · have hhead : ∀ c ∈ (shortBody text).head?, c ≠ quote := head_shortBody
    have hx : x ≠ quote := hhead x (by rw [hs]; rfl)
    obtain ⟨c, tail, htail⟩ : ∃ c tail, more ++ quote :: rest = c :: tail := by
      cases more with
      | nil => exact ⟨_, _, rfl⟩
      | cons c more => exact ⟨_, _, rfl⟩
    rw [hs] at hshort
    rw [List.cons_append, htail]
    exact hshort x c tail (by rw [List.cons_append, htail]) fun h => hx h.1

lemma stringStep_literal {text : List Char} (hne : text ≠ [])
    (h : ∀ c ∈ text, c ≠ apostrophe ∧ isPlainChar c = true) (rest : List Char) :
    stringStep (inForm .literal text ++ rest) = some (text, rest) := by
  obtain ⟨x, more, rfl⟩ := List.exists_cons_of_ne_nil hne
  obtain ⟨c, tail, htail⟩ : ∃ c tail, more ++ apostrophe :: rest = c :: tail := by
    cases more with
    | nil => exact ⟨_, _, rfl⟩
    | cons c more => exact ⟨_, _, rfl⟩
  have hform : inForm .literal (x :: more) ++ rest = apostrophe :: x :: c :: tail := by
    rw [← htail]
    simp [inForm, singleQuote, apostrophe]
  have hstep : stringStep (apostrophe :: x :: c :: tail) = literalStep (x :: c :: tail) := by
    have hq : apostrophe ≠ quote := by decide
    simp [stringStep, hq, (h x (by simp)).1]
  rw [hform, hstep, ← htail]
  exact literalStep_append rest h

lemma skipFirstLineEnd_start {text body rest : List Char}
    (h : '\n' ∉ text → ∀ c ∈ (body ++ rest).head?, c ≠ '\n' ∧ c ≠ '\r') :
    skipFirstLineEnd ((if text.contains '\n' then ['\n'] else []) ++ body ++ rest) = body ++ rest := by
  by_cases hn : '\n' ∈ text
  · simp [hn, skipFirstLineEnd]
  · simp only [List.contains_eq_mem, hn, decide_false, Bool.false_eq_true, if_false, List.nil_append]
    exact skipFirstLineEnd_of_head (h hn)

lemma stringStep_longBasic (text : List Char) {rest : List Char} (hr : EndsString rest) :
    stringStep (inForm .longBasic text ++ rest) = some (text, rest) := by
  have hstart : skipFirstLineEnd ((if text.contains '\n' then ['\n'] else []) ++ longBody 0 text ++
      quote :: quote :: quote :: rest) = longBody 0 text ++ quote :: quote :: quote :: rest := by
    refine skipFirstLineEnd_start fun hn c hc => ?_
    cases text with
    | nil =>
      cases hc
      decide
    | cons d text =>
      rcases longBody_cons 0 d text with ⟨rfl, _, hb⟩ | ⟨_, hd, _, hb⟩ | ⟨escape, hb, _⟩ <;>
        rw [hb] at hc <;> cases hc
      · decide
      · have hnew : c ≠ '\n' := fun he => hn (he ▸ List.mem_cons_self)
        refine ⟨hnew, ?_⟩
        rintro rfl
        exact absurd hd (by decide)
      · decide
  have hform : inForm .longBasic text ++ rest = quote :: quote :: quote ::
      ((if text.contains '\n' then ['\n'] else []) ++ longBody 0 text ++
        quote :: quote :: quote :: rest) := by
    simp [inForm, doubleQuote, quote, List.replicate]
  rw [hform, stringStep, if_pos rfl, if_pos ⟨rfl, rfl⟩, hstart]
  refine longBasicStep_longBody (by omega) text hr.head?_ne.1 ?_
  simp only [List.length_append, List.length_cons]
  omega

lemma stringStep_longLiteral {text : List Char}
    (ht : ∀ c ∈ text, c = '\n' ∨ isPlainChar c = true) (hrun : longestRun apostrophe text ≤ 2)
    {rest : List Char} (hr : EndsString rest) :
    stringStep (inForm .longLiteral text ++ rest) = some (text, rest) := by
  have hstart : skipFirstLineEnd ((if text.contains '\n' then ['\n'] else []) ++ text ++
      apostrophe :: apostrophe :: apostrophe :: rest) =
        text ++ apostrophe :: apostrophe :: apostrophe :: rest := by
    refine skipFirstLineEnd_start fun hn c hc => ?_
    cases text with
    | nil =>
      cases hc
      decide
    | cons d text =>
      cases hc
      have hnew : c ≠ '\n' := fun he => hn (he ▸ List.mem_cons_self)
      refine ⟨hnew, ?_⟩
      rintro rfl
      exact absurd (ht _ List.mem_cons_self) (by decide)
  have hform : inForm .longLiteral text ++ rest = apostrophe :: apostrophe :: apostrophe ::
      ((if text.contains '\n' then ['\n'] else []) ++ text ++
        apostrophe :: apostrophe :: apostrophe :: rest) := by
    simp [inForm, singleQuote, apostrophe, List.replicate]
  rw [hform, stringStep, if_neg (by decide), if_pos rfl, if_pos ⟨rfl, rfl⟩, hstart]
  refine longLiteralStep_append ht hrun hr.head?_ne.2 ?_
  simp only [List.length_append, List.length_cons]
  omega

lemma stringStep_string (text : String) {rest : List Char} (hr : EndsString rest) :
    stringStep ((string text).toList ++ rest) = some (text.toList, rest) := by
  rw [string, String.toList_ofList]
  cases hf : formOf text.toList with
  | basic => exact stringStep_basic _ hr
  | literal =>
    obtain ⟨hne, hplain⟩ := literal_of_formOf hf
    exact stringStep_literal hne hplain rest
  | longBasic => exact stringStep_longBasic _ hr
  | longLiteral =>
    obtain ⟨hplain, hrun⟩ := longLiteral_of_formOf hf
    exact stringStep_longLiteral hplain hrun hr

end Premerge.Data.Toml

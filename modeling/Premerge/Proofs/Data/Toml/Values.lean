import Premerge.Proofs.Data.Toml.Keys
import Premerge.Proofs.Data.Toml.Numbers

namespace Premerge.Data.Toml

def IsScalar : Value → Prop
  | .bool _ | .text _ => True
  | .int n => hasWord n = true
  | _ => False

def IsPlain (v : Value) : Prop :=
  IsScalar v ∨ ∃ items, v = .list items ∧ ∀ item ∈ items, IsScalar item

/-- A line end, or what stands behind an item of a list. -/
def EndsValue (rest : List Char) : Prop :=
  ∀ c ∈ rest.head?, c = '\n' ∨ c = ',' ∨ c = ']'

lemma EndsValue.endsString {rest : List Char} (h : EndsValue rest) : EndsString rest := by
  intro c hc
  rcases h c hc with rfl | rfl | rfl <;> decide

def StartsScalar (c : Char) : Prop :=
  c = quote ∨ c = apostrophe ∨ isWordChar c = true

lemma head_string (text : String) :
    ∃ c more, (string text).toList = c :: more ∧ (c = quote ∨ c = apostrophe) := by
  rw [string, String.toList_ofList]
  cases formOf text.toList with
  | basic => exact ⟨_, _, rfl, .inl rfl⟩
  | literal => exact ⟨_, _, rfl, .inr rfl⟩
  | longBasic => exact ⟨_, _, rfl, .inl rfl⟩
  | longLiteral => exact ⟨_, _, rfl, .inr rfl⟩

lemma isWordChar_of_isDigit {c : Char} (h : c.isDigit = true) : isWordChar c = true := by
  simp [isWordChar, Char.isAlphanum, h]

lemma isWordChar_of_mem_integerWord {n : Int} {c : Char} (h : c ∈ integerWord n) :
    isWordChar c = true := by
  cases n with
  | ofNat n => exact isWordChar_of_isDigit (isDigit_of_mem h)
  | negSucc n =>
    rcases List.mem_cons.mp h with rfl | hc
    · decide
    · exact isWordChar_of_isDigit (isDigit_of_mem hc)

lemma integerWord_ne_nil (n : Int) : integerWord n ≠ [] := by
  cases n with
  | ofNat n => exact Nat.toDigits_ne_nil
  | negSucc n => exact List.cons_ne_nil _ _

lemma scalarStep_word {word rest : List Char} {v : Value}
    (hw : ∀ c ∈ word, isWordChar c = true) (hdate : date? word = none) (hv : scalar? word = some v)
    (hr : EndsValue rest) : scalarStep (word ++ rest) = some (v, rest) := by
  have hend : ∀ c ∈ rest.head?, isWordChar c = false := by
    intro c hc
    rcases hr c hc with rfl | rfl | rfl <;> decide
  obtain ⟨htake, hdrop⟩ := Text.takeWhile_append_of_all hw hend
  rw [scalarStep, htake, hdrop]
  simp [hdate, hv]

lemma head_scalar {v : Value} (hv : IsScalar v) :
    ∃ c more, (valueText v).toList = c :: more ∧ StartsScalar c := by
  cases v with
  | bool b => cases b <;> exact ⟨_, _, rfl, .inr (.inr rfl)⟩
  | int n =>
    obtain ⟨c, more, hc⟩ := List.exists_cons_of_ne_nil (integerWord_ne_nil n)
    have hfirst := isWordChar_of_mem_integerWord (hc ▸ List.mem_cons_self : c ∈ integerWord n)
    exact ⟨c, more, by rw [valueText, toList_toString, hc], .inr (.inr hfirst)⟩
  | text s =>
    obtain ⟨c, more, hc, hquote⟩ := head_string s
    exact ⟨c, more, hc, hquote.imp_right .inl⟩
  | null | decimal _ | moment _ | list _ | table _ => exact hv.elim

lemma valueStep_word {c : Char} (h : isWordChar c = true) (fuel room : Nat) (rest : List Char) :
    valueStep (fuel + 1) room (c :: rest) = scalarStep (c :: rest) := by
  have hne : c ≠ '[' ∧ c ≠ '\x7b' ∧ c ≠ quote ∧ c ≠ apostrophe := by
    refine ⟨?_, ?_, ?_, ?_⟩ <;> rintro rfl <;> exact absurd h (by decide)
  simp [valueStep, hne.1, hne.2.1, hne.2.2.1, hne.2.2.2]

lemma valueStep_scalar {v : Value} (hv : IsScalar v) {rest : List Char} (hr : EndsValue rest)
    (fuel room : Nat) :
    valueStep (fuel + 1) room ((valueText v).toList ++ rest) = some (v, rest) := by
  cases v with
  | bool b =>
    cases b with
    | true =>
      have hchars : ∀ c ∈ ['t', 'r', 'u', 'e'], isWordChar c = true := List.all_eq_true.mp rfl
      have hdate : date? ['t', 'r', 'u', 'e'] = none := by decide
      have hvalue : scalar? ['t', 'r', 'u', 'e'] = some (.bool true) := by simp [scalar?]
      exact (valueStep_word rfl _ _ _).trans (scalarStep_word hchars hdate hvalue hr)
    | false =>
      have hchars : ∀ c ∈ ['f', 'a', 'l', 's', 'e'], isWordChar c = true := List.all_eq_true.mp rfl
      have hdate : date? ['f', 'a', 'l', 's', 'e'] = none := by decide
      have hvalue : scalar? ['f', 'a', 'l', 's', 'e'] = some (.bool false) := by simp [scalar?]
      exact (valueStep_word rfl _ _ _).trans (scalarStep_word hchars hdate hvalue hr)
  | int n =>
    obtain ⟨c, more, hc⟩ := List.exists_cons_of_ne_nil (integerWord_ne_nil n)
    have hchars : ∀ d ∈ integerWord n, isWordChar d = true := fun _ => isWordChar_of_mem_integerWord
    have hstep := scalarStep_word hchars (date?_integerWord n) (scalar?_integerWord hv) hr
    rw [valueText, toList_toString]
    rw [hc] at hchars hstep ⊢
    exact (valueStep_word (hchars c List.mem_cons_self) _ _ _).trans hstep
  | text s =>
    obtain ⟨c, more, hc, hquote⟩ := head_string s
    have hstep := stringStep_string s hr.endsString
    have hne : c ≠ '[' ∧ c ≠ '\x7b' := by
      rcases hquote with rfl | rfl <;> decide
    rw [valueText]
    rw [hc, List.cons_append] at hstep ⊢
    simp [valueStep, hne.1, hne.2, hquote, hstep, String.ofList_toList]
  | null | decimal _ | moment _ | list _ | table _ => exact hv.elim

def IsGap (c : Char) : Prop :=
  c = ' ' ∨ c = '\t' ∨ c = '\n' ∨ c = '\r' ∨ c = '#'

instance : DecidablePred IsGap := fun _ => inferInstanceAs (Decidable (_ ∨ _))

lemma StartsScalar.not_isGap {c : Char} (h : StartsScalar c) : ¬IsGap c ∧ c ≠ ']' := by
  rw [StartsScalar] at h
  constructor
  · rintro (rfl | rfl | rfl | rfl | rfl) <;> exact absurd h (by decide)
  · rintro rfl
    exact absurd h (by decide)

lemma not_isGap_comma : ¬IsGap ',' ∧ ¬IsGap ']' := by decide

lemma skipLines_cons {c : Char} (h : ¬IsGap c) (fuel : Nat) (rest : List Char) :
    skipLines (fuel + 1) (c :: rest) = some (c :: rest) := by
  simp only [IsGap, not_or] at h
  obtain ⟨hspace, htab, hline, hreturn, hcomment⟩ := h
  simp [skipLines, skipSpace_cons ⟨hspace, htab⟩, hline, hreturn, hcomment]

lemma skipLines_indented {c : Char} (h : ¬IsGap c) (fuel : Nat) (rest : List Char) :
    skipLines (fuel + 2) ('\n' :: ' ' :: ' ' :: ' ' :: ' ' :: c :: rest) = some (c :: rest) := by
  have hskip : skipSpace (' ' :: ' ' :: ' ' :: ' ' :: c :: rest) = skipSpace (c :: rest) := by
    simp [skipSpace]
  have hline : skipLines (fuel + 2) ('\n' :: ' ' :: ' ' :: ' ' :: ' ' :: c :: rest) =
      skipLines (fuel + 1) (' ' :: ' ' :: ' ' :: ' ' :: c :: rest) := rfl
  rw [hline, ← skipLines_cons h fuel rest, skipLines, hskip, skipLines]

def itemLines (rest : List Char) : List Value → List Char
  | [] => '\n' :: ']' :: rest
  | item :: items =>
    '\n' :: ' ' :: ' ' :: ' ' :: ' ' :: ((valueText item).toList ++ ',' :: itemLines rest items)

lemma itemsStep_itemLines {items : List Value} (h : ∀ item ∈ items, IsScalar item)
    (rest : List Char) (done : List Value) {fuel : Nat} (hf : items.length + 1 < fuel) (room : Nat) :
    itemsStep fuel room (itemLines rest items) done = some (.list (done.reverse ++ items), rest) := by
  induction items generalizing done fuel with
  | nil =>
    obtain ⟨fuel, rfl⟩ := Nat.exists_eq_add_one_of_ne_zero (Nat.ne_of_gt (Nat.zero_lt_of_lt hf))
    simp [itemLines, itemsStep, skipLines, skipSpace]
  | cons item items ih =>
    obtain ⟨fuel, rfl⟩ := Nat.exists_eq_add_of_le' (Nat.le_of_lt (Nat.lt_of_le_of_lt
      (Nat.le_add_left 2 items.length) hf))
    rw [List.forall_mem_cons] at h
    have hr : EndsValue (',' :: itemLines rest items) := by
      rintro c hc
      cases hc
      exact .inr (.inl rfl)
    obtain ⟨c, more, hc, hstart⟩ := head_scalar h.1
    have hstep := valueStep_scalar h.1 hr fuel room
    have hrest : itemsStep (fuel + 1) room (itemLines rest items) (item :: done) =
        some (.list ((item :: done).reverse ++ items), rest) :=
      ih h.2 _ (by simp only [List.length_cons] at hf; omega)
    rw [hc, List.cons_append] at hstep
    rw [itemLines, hc, itemsStep, List.cons_append, List.length_cons,
      skipLines_indented hstart.not_isGap.1]
    simp [hstart.not_isGap.2, hstep, skipLines_cons not_isGap_comma.1, hrest]

lemma valueTexts_eq_map (items : List Value) : valueTexts items = items.map valueText := by
  induction items with
  | nil => rfl
  | cons item items ih => rw [valueTexts, ih, List.map_cons]

lemma toList_listText (first second : Value) (more : List Value) (rest : List Char) :
    (valueText (.list (first :: second :: more))).toList ++ rest =
      '[' :: itemLines rest (first :: second :: more) := by
  have hlines : ∀ items : List Value,
      '\n' :: ((items.flatMap fun item =>
        ' ' :: ' ' :: ' ' :: ' ' :: ((valueText item).toList ++ [',', '\n'])) ++ ']' :: rest) =
        itemLines rest items := by
    intro items
    induction items with
    | nil => rfl
    | cons item items ih => simp [itemLines, ← ih]
  rw [← hlines, valueText, valueTexts_eq_map]
  simp [listText, String.toList_join, List.flatMap_map]

lemma length_itemLines (rest : List Char) (items : List Value) :
    items.length + 2 ≤ (itemLines rest items).length := by
  induction items with
  | nil => simp [itemLines]
  | cons item items ih =>
    simp only [itemLines, List.length_cons, List.length_append]
    omega

lemma valueStep_list {items : List Value} (h : ∀ item ∈ items, IsScalar item) (rest : List Char)
    {fuel : Nat} (hf : (valueText (.list items)).toList.length < fuel) (room : Nat) :
    valueStep fuel (room + 1) ((valueText (.list items)).toList ++ rest) =
      some (.list items, rest) := by
  have hopen : ∀ fuel more, valueStep (fuel + 1) (room + 1) ('[' :: more) =
      itemsStep fuel room more [] := fun _ _ => rfl
  match items with
  | [] =>
    obtain ⟨fuel, rfl⟩ := Nat.exists_eq_add_of_le' hf
    rfl
  | [item] =>
    have hr : EndsValue (']' :: rest) := by
      rintro c hc
      cases hc
      exact .inr (.inr rfl)
    have htext : (valueText (.list [item])).toList = '[' :: ((valueText item).toList ++ [']']) := by
      simp [valueText, valueTexts, listText]
    rw [htext] at hf ⊢
    simp only [List.length_cons, List.length_append, List.length_nil] at hf
    obtain ⟨fuel, rfl⟩ : ∃ n, fuel = n + 3 := ⟨fuel - 3, by omega⟩
    obtain ⟨c, more, hc, hstart⟩ := head_scalar (h item (by simp))
    have hstep := valueStep_scalar (h item (by simp)) hr fuel room
    rw [hc, List.cons_append] at hstep
    rw [List.cons_append, List.append_assoc, hc, List.cons_append, hopen, itemsStep,
      List.length_cons, skipLines_cons hstart.not_isGap.1]
    simp [hstart.not_isGap.2, hstep, skipLines_cons not_isGap_comma.2]
  | first :: second :: more =>
    have hlength := congrArg List.length (toList_listText first second more [])
    have hlines := length_itemLines [] (first :: second :: more)
    simp only [List.append_nil, List.length_cons] at hlength hlines
    obtain ⟨fuel, rfl⟩ : ∃ n, fuel = n + 1 := ⟨fuel - 1, by omega⟩
    rw [toList_listText, hopen, itemsStep_itemLines h rest [] (by simp only [List.length_cons]; omega)]
    rfl

lemma valueStep_plain {v : Value} (hv : IsPlain v) {rest : List Char} (hr : EndsValue rest)
    {fuel : Nat} (hf : (valueText v).toList.length < fuel) (room : Nat) :
    valueStep fuel (room + 1) ((valueText v).toList ++ rest) = some (v, rest) := by
  rcases hv with hv | ⟨items, rfl, hitems⟩
  · obtain ⟨fuel, rfl⟩ := Nat.exists_eq_add_one_of_ne_zero (Nat.ne_of_gt (Nat.zero_lt_of_lt hf))
    exact valueStep_scalar hv hr fuel (room + 1)
  · exact valueStep_list hitems rest hf room

end Premerge.Data.Toml

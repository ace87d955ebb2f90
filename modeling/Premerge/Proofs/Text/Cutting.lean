import Mathlib.Data.List.TakeWhile
import Premerge.Text.Line

namespace Premerge.Text

variable {α : Type} {p : α → Bool}

lemma takeWhile_append_of_all {word rest : List α} (hw : ∀ c ∈ word, p c = true)
    (hr : ∀ c ∈ rest.head?, p c = false) :
    (word ++ rest).takeWhile p = word ∧ (word ++ rest).dropWhile p = rest := by
  rw [List.takeWhile_append_of_pos hw, List.dropWhile_append_of_pos hw]
  cases rest with
  | nil => simp
  | cons c rest => simp [hr c rfl]

lemma eq_append_of_dropWhile {text rest : List α}
    (h : text.dropWhile p = rest) :
    ∃ word, (∀ c ∈ word, p c = true) ∧ (∀ c ∈ rest.head?, p c = false) ∧ text = word ++ rest := by
  refine ⟨text.takeWhile p, fun _ hc => List.mem_takeWhile_imp hc, ?_, ?_⟩
  · have hhead := List.head?_dropWhile_not p text
    rw [h] at hhead
    rintro c hc
    rw [Option.mem_def.mp hc] at hhead
    exact hhead
  · rw [← h, List.takeWhile_append_dropWhile]

lemma mem_of_mem_intercalate {separator : List α} {pieces : List (List α)} {c : α}
    (h : c ∈ separator.intercalate pieces) : c ∈ separator ∨ ∃ piece ∈ pieces, c ∈ piece := by
  induction pieces with
  | nil => cases h
  | cons piece rest ih =>
    cases rest with
    | nil => exact .inr ⟨piece, List.mem_cons_self, by simpa using h⟩
    | cons next more =>
      rw [List.intercalate_cons_cons, List.mem_append, List.mem_append] at h
      rcases h with (hpiece | hseparator) | hrest
      · exact .inr ⟨piece, List.mem_cons_self, hpiece⟩
      · exact .inl hseparator
      · rcases ih hrest with hseparator | ⟨other, hm, hother⟩
        · exact .inl hseparator
        · exact .inr ⟨other, .tail _ hm, hother⟩

namespace Line

lemma intercalate_pieces (separator : Char) (text : List Char) :
    [separator].intercalate (pieces separator text) = text := by
  induction text with
  | nil => rfl
  | cons c rest ih =>
    have hrest := pieces_ne_nil separator rest
    by_cases hc : c = separator
    · rw [pieces, if_pos hc, List.intercalate_cons_of_ne_nil hrest, ih, hc]
      rfl
    · obtain ⟨piece, more, hp⟩ := List.exists_cons_of_ne_nil hrest
      rw [hp] at ih
      rw [pieces, if_neg hc, hp, ← ih]
      cases more with
      | nil => rfl
      | cons next more => simp [List.intercalate_cons_cons]

lemma length_pieces (separator : Char) (text : List Char) :
    (pieces separator text).length = text.count separator + 1 := by
  induction text with
  | nil => rfl
  | cons c rest ih =>
    by_cases hc : c = separator
    · simp [pieces, hc, ih]
    · obtain ⟨piece, more, hp⟩ := List.exists_cons_of_ne_nil (pieces_ne_nil separator rest)
      rw [hp] at ih
      simpa [pieces, hc, hp] using ih

variable {separator : Char} {texts others : List (List Char)}

lemma pieces_closed (separator : Char) (texts : List (List Char)) :
    pieces separator (texts.flatMap (· ++ [separator])) =
      texts.flatMap (pieces separator) ++ [[]] := by
  induction texts with
  | nil => rfl
  | cons text more ih =>
    have hfirst : (text :: more).flatMap (· ++ [separator]) =
        text ++ separator :: more.flatMap (· ++ [separator]) := by simp
    rw [hfirst, pieces_append, ih, List.flatMap_cons, List.append_assoc]

lemma closed_eq_iff : texts.flatMap (· ++ [separator]) = others.flatMap (· ++ [separator]) ↔
    texts.flatMap (pieces separator) = others.flatMap (pieces separator) := by
  constructor
  · intro h
    have hpieces := congrArg (pieces separator) h
    rw [pieces_closed, pieces_closed] at hpieces
    exact List.append_cancel_right hpieces
  · intro h
    rw [← intercalate_pieces separator (texts.flatMap _), pieces_closed, h, ← pieces_closed,
      intercalate_pieces]

lemma flatMap_pieces_of_not_mem (h : ∀ text ∈ texts, separator ∉ text) :
    texts.flatMap (pieces separator) = texts := by
  induction texts with
  | nil => rfl
  | cons text more ih =>
    obtain ⟨ht, hm⟩ := List.forall_mem_cons.mp h
    rw [List.flatMap_cons, pieces_of_not_mem ht, ih hm, List.singleton_append]

lemma length_flatMap_pieces (separator : Char) (texts : List (List Char)) :
    (texts.flatMap (pieces separator)).length = texts.length + texts.flatten.count separator := by
  induction texts with
  | nil => rfl
  | cons text more ih =>
    rw [List.flatMap_cons, List.length_append, length_pieces, ih, List.flatten_cons,
      List.count_append, List.length_cons]
    omega

end Line

end Premerge.Text

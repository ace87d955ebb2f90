import Mathlib.Tactic.Lemma
import Premerge.Text.Line

namespace Premerge.Text.Line

/-- Lines that stand behind each other in a text: each ends with its only line feed, but the last one
may have none, if it is not empty. -/
inductive AreLines : List (List Char) → Prop
  | nil : AreLines []
  | last {line : List Char} (hne : line ≠ []) (h : '\n' ∉ line) : AreLines [line]
  | cons {line : List Char} {lines : List (List Char)} (h : '\n' ∉ line) (hl : AreLines lines) :
      AreLines ((line ++ ['\n']) :: lines)

lemma areLines_inclusive (text : List Char) : AreLines (inclusive text) := by
  induction text with
  | nil => exact .nil
  | cons c rest ih =>
    unfold inclusive
    split
    next hc =>
      subst hc
      exact (.cons List.not_mem_nil ih : AreLines (([] ++ ['\n']) :: inclusive rest))
    next hc =>
      have hnot {line : List Char} (h : '\n' ∉ line) : '\n' ∉ c :: line :=
        List.not_mem_cons_of_ne_of_not_mem (Ne.symm hc) h
      split
      next => exact .last (List.cons_ne_nil _ _) (hnot List.not_mem_nil)
      next line more he =>
        rw [he] at ih
        cases ih with
        | last hne h => exact .last (List.cons_ne_nil _ _) (hnot h)
        | cons h hl => exact .cons (hnot h) hl

lemma inclusive_line {line : List Char} (hne : line ≠ []) (h : '\n' ∉ line) :
    inclusive line = [line] := by
  induction line with
  | nil => exact absurd rfl hne
  | cons c rest ih =>
    obtain ⟨hc, hrest⟩ := List.ne_and_not_mem_of_not_mem_cons h
    cases rest with
    | nil => rw [inclusive, if_neg hc.symm, inclusive]
    | cons d more => rw [inclusive, if_neg hc.symm, ih (List.cons_ne_nil _ _) hrest]

lemma inclusive_line_append {line : List Char} (h : '\n' ∉ line) (text : List Char) :
    inclusive ((line ++ ['\n']) ++ text) = (line ++ ['\n']) :: inclusive text := by
  induction line with
  | nil => rfl
  | cons c rest ih =>
    obtain ⟨hc, hrest⟩ := List.ne_and_not_mem_of_not_mem_cons h
    rw [List.cons_append, List.cons_append, inclusive, if_neg hc.symm, ih hrest]

lemma AreLines.inclusive_flatten {lines : List (List Char)} (h : AreLines lines) :
    inclusive lines.flatten = lines := by
  induction h with
  | nil => rfl
  | last hne h => rw [List.flatten_singleton, inclusive_line hne h]
  | cons h _ ih => rw [List.flatten_cons, inclusive_line_append h, ih]

lemma AreLines.ne_nil {lines : List (List Char)} (h : AreLines lines) {line : List Char}
    (hm : line ∈ lines) : line ≠ [] := by
  induction h with
  | nil => cases hm
  | last hne _ => rwa [List.mem_singleton.mp hm]
  | cons _ _ ih =>
    rcases List.mem_cons.mp hm with rfl | hm
    · exact List.append_ne_nil_of_right_ne_nil _ (List.cons_ne_nil _ _)
    · exact ih hm

lemma AreLines.eq_nil {lines : List (List Char)} (h : AreLines lines) (he : lines.flatten = []) :
    lines = [] :=
  List.eq_nil_iff_forall_not_mem.mpr fun line hm =>
    h.ne_nil hm (List.flatten_eq_nil_iff.mp he line hm)

def IsFirst (line text : List Char) : Prop :=
  line = text ∧ '\n' ∉ text ∨ ∃ front, '\n' ∉ front ∧ line = front ++ ['\n'] ∧ line <+: text

lemma tail_inclusive_eq_iff {text : List Char} {lines : List (List Char)} :
    (inclusive text).tail = lines ↔
      AreLines lines ∧ ∃ first, IsFirst first text ∧ text = first ++ lines.flatten := by
  constructor
  · rintro rfl
    have hflat := flatten_inclusive text
    have hall := areLines_inclusive text
    rcases hi : inclusive text with _ | ⟨line, lines⟩ <;> rw [hi] at hflat hall
    · cases hflat
      exact ⟨.nil, [], .inl ⟨rfl, List.not_mem_nil⟩, rfl⟩
    · cases hall with
      | last _ h =>
        rw [List.flatten_singleton] at hflat
        exact ⟨.nil, line, .inl ⟨hflat, hflat ▸ h⟩, by simp [hflat]⟩
      | @cons front _ h hl =>
        rw [List.flatten_cons] at hflat
        exact ⟨hl, front ++ ['\n'], .inr ⟨front, h, rfl, ⟨_, hflat⟩⟩, hflat.symm⟩
  · rintro ⟨hl, first, hfirst, rfl⟩
    rcases hfirst with ⟨he, h⟩ | ⟨front, h, rfl, _⟩
    · have hnone : lines.flatten = [] := List.append_right_eq_self.mp he.symm
      rw [← he] at h ⊢
      rw [hl.eq_nil hnone]
      cases first with
      | nil => rfl
      | cons c rest => rw [inclusive_line (List.cons_ne_nil c rest) h, List.tail_cons]
    · rw [inclusive_line_append h, hl.inclusive_flatten, List.tail_cons]

end Premerge.Text.Line

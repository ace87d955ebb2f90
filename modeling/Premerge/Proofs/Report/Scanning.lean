import Mathlib.Data.Char
import Mathlib.Data.List.TakeWhile
import Premerge.Proofs.Text.Cutting
import Premerge.Report.Escape

/-! A text is cut in one way only, from left to right, into escape sequences and characters at which
none starts; stripping keeps these characters. -/

namespace Premerge.Report.Escape

open Premerge.Text (takeWhile_append_of_all eq_append_of_dropWhile)

lemma not_between_of_between {c first last first' last' : Char}
    (h : (decide (first ≤ c) && decide (c ≤ last)) = true) (hapart : last < first' ∨ last' < first) :
    (decide (first' ≤ c) && decide (c ≤ last')) = false := by
  simp only [Bool.and_eq_true, decide_eq_true_eq] at h
  simp only [Bool.and_eq_false_iff, decide_eq_false_iff_not, not_le]
  rcases hapart with hbelow | habove
  · exact .inl (lt_of_le_of_lt h.2 hbelow)
  · exact .inr (lt_of_lt_of_le habove h.1)

lemma isParameter_of_isIntermediate {c : Char} (h : isIntermediate c = true) :
    isParameter c = false :=
  not_between_of_between h (.inl (by decide))

lemma isParameter_of_isFinal {c : Char} (h : isFinal c = true) : isParameter c = false :=
  not_between_of_between h (.inr (by decide))

lemma isIntermediate_of_isFinal {c : Char} (h : isFinal c = true) : isIntermediate c = false :=
  not_between_of_between h (.inr (by decide))

lemma isPayload_eq_false_iff {c : Char} : isPayload c = false ↔ c = bel ∨ c = esc := by
  by_cases hb : c = bel <;> by_cases he : c = esc <;> simp [isPayload, hb, he]

lemma sequenceEnd?_append {s : List Char} (h : Sequence s) (behind : List Char) :
    sequenceEnd? (s ++ behind) = some behind := by
  cases h with
  | @control parameters intermediates final hp hi hf =>
    have hback : ∀ c ∈ (intermediates ++ final :: behind).head?, isParameter c = false := by
      cases intermediates with
      | nil =>
        rintro c ⟨⟩
        exact isParameter_of_isFinal hf
      | cons i more =>
        rintro c ⟨⟩
        exact isParameter_of_isIntermediate (hi i List.mem_cons_self)
    have hfinal : ∀ c ∈ (final :: behind).head?, isIntermediate c = false := by
      rintro c ⟨⟩
      exact isIntermediate_of_isFinal hf
    simp [sequenceEnd?, (takeWhile_append_of_all hp hback).2, (takeWhile_append_of_all hi hfinal).2, hf]
  | @commandBell payload hp =>
    have hbell : ∀ c ∈ (bel :: behind).head?, isPayload c = false := by
      rintro c ⟨⟩
      exact isPayload_eq_false_iff.mpr (.inl rfl)
    simp [sequenceEnd?, (takeWhile_append_of_all hp hbell).2]
  | @commandEscape payload hp =>
    have hescape : ∀ c ∈ (esc :: '\\' :: behind).head?, isPayload c = false := by
      rintro c ⟨⟩
      exact isPayload_eq_false_iff.mpr (.inr rfl)
    have hne : esc ≠ bel := by decide
    simp [sequenceEnd?, (takeWhile_append_of_all hp hescape).2, hne]
  | @short c hc =>
    have hcontrol : c ≠ '[' := by
      rintro rfl
      cases hc
    have hcommand : c ≠ ']' := by
      rintro rfl
      cases hc
    simp [sequenceEnd?, hcontrol, hcommand, hc]

lemma exists_control {rest behind : List Char} {final : Char} (hf : isFinal final = true)
    (h : (rest.dropWhile isParameter).dropWhile isIntermediate = final :: behind) :
    ∃ s, Sequence s ∧ esc :: '[' :: rest = s ++ behind := by
  obtain ⟨parameters, hp, _, hrest⟩ := eq_append_of_dropWhile (rfl : rest.dropWhile isParameter = _)
  obtain ⟨intermediates, hi, _, hback⟩ := eq_append_of_dropWhile h
  refine ⟨_, .control hp hi hf, ?_⟩
  rw [hrest, hback]
  simp

lemma exists_commandBell {rest behind : List Char} (h : rest.dropWhile isPayload = bel :: behind) :
    ∃ s, Sequence s ∧ esc :: ']' :: rest = s ++ behind := by
  obtain ⟨payload, hp, _, rfl⟩ := eq_append_of_dropWhile h
  exact ⟨_, .commandBell hp, by simp⟩

lemma exists_commandEscape {rest behind : List Char}
    (h : rest.dropWhile isPayload = esc :: '\\' :: behind) :
    ∃ s, Sequence s ∧ esc :: ']' :: rest = s ++ behind := by
  obtain ⟨payload, hp, _, rfl⟩ := eq_append_of_dropWhile h
  exact ⟨_, .commandEscape hp, by simp⟩

lemma bel_or_esc_of_dropWhile {rest behind : List Char} {last : Char}
    (h : rest.dropWhile isPayload = last :: behind) : last = bel ∨ last = esc := by
  obtain ⟨_, _, hlast, _⟩ := eq_append_of_dropWhile h
  exact isPayload_eq_false_iff.mp (hlast last rfl)

lemma exists_sequence_of_sequenceEnd? {text behind : List Char}
    (h : sequenceEnd? text = some behind) : ∃ s, Sequence s ∧ text = s ++ behind := by
  unfold sequenceEnd? at h
  split at h
  next e c rest =>
    split_ifs at h with he hcontrol hcommand hshort
    · obtain rfl := not_not.mp he
      subst hcontrol
      split at h
      next final more hd =>
        split_ifs at h with hf
        cases h
        exact exists_control hf hd
      next => cases h
    · obtain rfl := not_not.mp he
      subst hcommand
      split at h
      next last more hd =>
        split_ifs at h with hbell
        · cases h
          exact exists_commandBell (hbell ▸ hd)
        · -- The payload ends at a bell or an escape, and this is no bell.
          obtain rfl := (bel_or_esc_of_dropWhile hd).resolve_left hbell
          split at h
          · cases h
            exact exists_commandEscape hd
          · cases h
      next => cases h
    · cases h
      obtain rfl := not_not.mp he
      exact ⟨_, .short hshort, rfl⟩
  next => cases h

lemma sequenceEnd?_eq_some_iff {text behind : List Char} :
    sequenceEnd? text = some behind ↔ ∃ s, Sequence s ∧ text = s ++ behind := by
  constructor
  · exact exists_sequence_of_sequenceEnd?
  · rintro ⟨s, hs, rfl⟩
    exact sequenceEnd?_append hs behind

/-- Two sequences at one place are the same: what stands behind either is what the scanner finds. -/
lemma Sequence.unique {s t text : List Char} (hs : Sequence s) (ht : Sequence t)
    (h : s <+: text) (h' : t <+: text) : s = t := by
  obtain ⟨behind, rfl⟩ := h
  obtain ⟨other, he⟩ := h'
  have hbehind : some other = some behind := by
    rw [← sequenceEnd?_append ht, he, sequenceEnd?_append hs]
  cases hbehind
  exact (List.append_cancel_right he).symm

def StartsSequence (text : List Char) : Prop :=
  ∃ s, Sequence s ∧ s <+: text

lemma startsSequence_iff {text : List Char} :
    StartsSequence text ↔ ∃ behind, sequenceEnd? text = some behind := by
  simp only [sequenceEnd?_eq_some_iff]
  constructor
  · rintro ⟨s, hs, behind, rfl⟩
    exact ⟨behind, s, hs, rfl⟩
  · rintro ⟨behind, s, hs, rfl⟩
    exact ⟨s, hs, behind, rfl⟩

lemma Sequence.eq_esc_cons {s : List Char} (h : Sequence s) : ∃ rest, s = esc :: rest := by
  cases h <;> exact ⟨_, rfl⟩

lemma Sequence.esc_mem {s : List Char} (h : Sequence s) : esc ∈ s := by
  obtain ⟨rest, rfl⟩ := h.eq_esc_cons
  exact List.mem_cons_self

lemma not_startsSequence_of_ne {c : Char} (h : c ≠ esc) (rest : List Char) :
    ¬StartsSequence (c :: rest) := by
  rintro ⟨s, hs, hpre⟩
  obtain ⟨more, rfl⟩ := hs.eq_esc_cons
  exact h (List.cons_prefix_cons.mp hpre).1.symm

lemma stripChars_sequence {s : List Char} (h : Sequence s) (rest : List Char) :
    stripChars (s ++ rest) = stripChars rest := by
  obtain ⟨more, rfl⟩ := h.eq_esc_cons
  have hend := sequenceEnd?_append h rest
  rw [List.cons_append] at hend ⊢
  rw [stripChars]
  split
  next behind hb => rw [Option.some.inj (hb.symm.trans hend)]
  next hb => cases hb.symm.trans hend

lemma stripChars_kept {c : Char} {rest : List Char} (h : ¬StartsSequence (c :: rest)) :
    stripChars (c :: rest) = c :: stripChars rest := by
  rw [stripChars]
  split
  next behind hb => exact absurd (startsSequence_iff.mpr ⟨behind, hb⟩) h
  next => rfl

inductive Piece where
  | kept (c : Char)
  | removed (sequence : List Char)

namespace Piece

def chars : Piece → List Char
  | kept c => [c]
  | removed sequence => sequence

def left : Piece → List Char
  | kept c => [c]
  | removed _ => []

end Piece

def joined (pieces : List Piece) : List Char :=
  pieces.flatMap Piece.chars

def leftOf (pieces : List Piece) : List Char :=
  pieces.flatMap Piece.left

/-- The removed pieces are sequences, and none starts at a kept character. -/
def IsScan : List Piece → Prop
  | [] => True
  | .kept c :: rest => ¬StartsSequence (c :: joined rest) ∧ IsScan rest
  | .removed sequence :: rest => Sequence sequence ∧ IsScan rest

lemma stripChars_joined {pieces : List Piece} (h : IsScan pieces) :
    stripChars (joined pieces) = leftOf pieces := by
  induction pieces with
  | nil =>
    rw [joined, List.flatMap_nil, stripChars]
    rfl
  | cons piece rest ih =>
    cases piece with
    | kept c => exact (stripChars_kept h.1).trans (congrArg (c :: ·) (ih h.2))
    | removed sequence => exact (stripChars_sequence h.1 (joined rest)).trans (ih h.2)

lemma exists_scan (text : List Char) : ∃ pieces, joined pieces = text ∧ IsScan pieces := by
  induction text using stripChars.induct with
  | case1 => exact ⟨[], rfl, trivial⟩
  | case2 c rest behind h ih =>
    obtain ⟨s, hs, he⟩ := exists_sequence_of_sequenceEnd? h
    obtain ⟨pieces, rfl, hp⟩ := ih
    exact ⟨.removed s :: pieces, he.symm, hs, hp⟩
  | case3 c rest h ih =>
    obtain ⟨pieces, rfl, hp⟩ := ih
    refine ⟨.kept c :: pieces, rfl, fun hstarts => ?_, hp⟩
    obtain ⟨behind, hb⟩ := startsSequence_iff.mp hstarts
    cases h.symm.trans hb

lemma IsScan.joined_ne_nil {piece : Piece} {rest : List Piece} (h : IsScan (piece :: rest)) :
    joined (piece :: rest) ≠ [] := by
  cases piece with
  | kept c => exact List.cons_ne_nil _ _
  | removed sequence =>
    obtain ⟨more, rfl⟩ := h.1.eq_esc_cons
    exact List.cons_ne_nil _ _

lemma IsScan.unique {pieces others : List Piece} (h : IsScan pieces) (h' : IsScan others)
    (he : joined pieces = joined others) : pieces = others := by
  induction pieces generalizing others with
  | nil =>
    cases others with
    | nil => rfl
    | cons other more => exact absurd he.symm h'.joined_ne_nil
  | cons piece rest ih =>
    cases others with
    | nil => exact absurd he h.joined_ne_nil
    | cons other more =>
      cases piece with
      | kept c =>
        cases other with
        | kept d =>
          obtain ⟨rfl, hrest⟩ := List.cons.inj he
          rw [ih h.2 h'.2 hrest]
        | removed t => exact absurd ⟨t, h'.1, joined more, he.symm⟩ h.1
      | removed s =>
        cases other with
        | kept d => exact absurd ⟨s, h.1, joined rest, he⟩ h'.1
        | removed t =>
          have hs : s <+: joined (.removed s :: rest) := List.prefix_append s _
          have ht : t <+: joined (.removed s :: rest) := he ▸ List.prefix_append t _
          obtain rfl := h.1.unique h'.1 hs ht
          rw [ih h.2 h'.2 (List.append_cancel_left he)]

lemma IsScan.leftOf_cases {pieces : List Piece} (h : IsScan pieces) :
    leftOf pieces = joined pieces ∨ (leftOf pieces).count esc < (joined pieces).count esc := by
  induction pieces with
  | nil => exact .inl rfl
  | cons piece rest ih =>
    cases piece with
    | kept c =>
      have hleft : leftOf (.kept c :: rest) = c :: leftOf rest := rfl
      have hjoined : joined (.kept c :: rest) = c :: joined rest := rfl
      rw [hleft, hjoined, List.count_cons, List.count_cons]
      rcases ih h.2 with he | hlt
      · exact .inl (congrArg (c :: ·) he)
      · exact .inr (Nat.add_lt_add_right hlt _)
    | removed sequence =>
      have hleft : leftOf (.removed sequence :: rest) = leftOf rest := rfl
      have hjoined : joined (.removed sequence :: rest) = sequence ++ joined rest := rfl
      have hescape : 0 < sequence.count esc := List.count_pos_iff.mpr h.1.esc_mem
      rw [hleft, hjoined, List.count_append]
      rcases ih h.2 with he | hlt
      · rw [he]
        exact .inr (by omega)
      · exact .inr (by omega)

lemma count_esc_stripChars (text : List Char) :
    stripChars text = text ∨ (stripChars text).count esc < text.count esc := by
  obtain ⟨pieces, rfl, hp⟩ := exists_scan text
  rw [stripChars_joined hp]
  exact hp.leftOf_cases

def HoldsSequence (text : List Char) : Prop :=
  ∃ s, Sequence s ∧ s <:+: text

lemma StartsSequence.holds {text : List Char} (h : StartsSequence text) : HoldsSequence text := by
  obtain ⟨s, hs, hpre⟩ := h
  exact ⟨s, hs, hpre.isInfix⟩

lemma HoldsSequence.append_left {text : List Char} (h : HoldsSequence text) (front : List Char) :
    HoldsSequence (front ++ text) := by
  obtain ⟨s, hs, hin⟩ := h
  exact ⟨s, hs, hin.trans (List.suffix_append front text).isInfix⟩

lemma holdsSequence_cons {c : Char} {rest : List Char} (h : HoldsSequence (c :: rest)) :
    StartsSequence (c :: rest) ∨ HoldsSequence rest := by
  obtain ⟨s, hs, hin⟩ := h
  rcases List.infix_cons_iff.mp hin with hpre | hrest
  · exact .inl ⟨s, hs, hpre⟩
  · exact .inr ⟨s, hs, hrest⟩

lemma stripChars_append {front text : List Char}
    (h : ∀ tail, tail <:+ front → tail ≠ [] → ¬StartsSequence (tail ++ text)) :
    stripChars (front ++ text) = front ++ stripChars text := by
  induction front with
  | nil => rfl
  | cons c rest ih =>
    have hc : ¬StartsSequence (c :: (rest ++ text)) := h _ (List.suffix_refl _) (List.cons_ne_nil _ _)
    have hrest := ih fun tail ht => h tail (ht.trans (List.suffix_cons c rest))
    rw [List.cons_append, stripChars_kept hc, hrest, List.cons_append]

lemma stripChars_ne_of_starts {text : List Char} (h : StartsSequence text) :
    stripChars text ≠ text := by
  obtain ⟨s, hs, behind, rfl⟩ := h
  have hle : (stripChars behind).count esc ≤ behind.count esc := by
    rcases count_esc_stripChars behind with he | hlt
    · rw [he]
    · exact hlt.le
  have hescape : 0 < s.count esc := List.count_pos_iff.mpr hs.esc_mem
  intro he
  rw [stripChars_sequence hs] at he
  rw [he, List.count_append] at hle
  omega

lemma stripChars_ne_of_holds {text : List Char} (h : HoldsSequence text) :
    stripChars text ≠ text := by
  induction text with
  | nil =>
    obtain ⟨s, hs, hin⟩ := h
    exact absurd (hin.subset hs.esc_mem) List.not_mem_nil
  | cons c rest ih =>
    by_cases hstarts : StartsSequence (c :: rest)
    · exact stripChars_ne_of_starts hstarts
    · rw [stripChars_kept hstarts]
      exact fun he => ih ((holdsSequence_cons h).resolve_left hstarts) (List.cons.inj he).2

lemma stripChars_eq_self_iff {text : List Char} :
    stripChars text = text ↔ ¬HoldsSequence text := by
  constructor
  · exact fun he h => stripChars_ne_of_holds h he
  · intro h
    have hkept : stripChars (text ++ []) = text ++ stripChars [] := by
      refine stripChars_append fun tail ht _ hstarts => ?_
      obtain ⟨front, rfl⟩ := ht
      rw [List.append_nil] at hstarts
      exact h (hstarts.holds.append_left front)
    rwa [stripChars, List.append_nil] at hkept

lemma not_startsSequence_of_not_mem {front tail : List Char} (h : esc ∉ front)
    (ht : tail <:+ front) (hne : tail ≠ []) (text : List Char) : ¬StartsSequence (tail ++ text) := by
  obtain ⟨c, more, rfl⟩ := List.exists_cons_of_ne_nil hne
  refine not_startsSequence_of_ne ?_ _
  rintro rfl
  exact h (ht.subset List.mem_cons_self)

lemma toList_strip (text : String) : (strip text).toList = stripChars text.toList :=
  String.toList_ofList

lemma strip_eq_self_iff {text : String} : strip text = text ↔ ¬HoldsSequence text.toList := by
  rw [← String.toList_inj, toList_strip, stripChars_eq_self_iff]

lemma strip_append {front text : String}
    (h : ∀ tail, tail <:+ front.toList → tail ≠ [] → ¬StartsSequence (tail ++ text.toList)) :
    strip (front ++ text) = front ++ strip text := by
  rw [← String.toList_inj, toList_strip, String.toList_append, String.toList_append, toList_strip,
    stripChars_append h]

theorem strip_scanned (text : String) :
    (∀ place s t, Sequence s → Sequence t → s <+: place → t <+: place → s = t) ∧
      (∃! pieces, joined pieces = text.toList ∧ IsScan pieces) ∧
      (∀ pieces, joined pieces = text.toList → IsScan pieces →
        (strip text).toList = leftOf pieces) ∧
      (∀ front : String,
        (∀ tail, tail <:+ front.toList → tail ≠ [] → ¬StartsSequence (tail ++ text.toList)) →
        strip (front ++ text) = front ++ strip text) ∧
      (∀ front : String, esc ∉ front.toList → strip (front ++ text) = front ++ strip text) ∧
      (strip text = text ↔ ¬HoldsSequence text.toList) := by
  refine ⟨fun place s t hs ht => hs.unique ht, ?_, ?_, fun front => strip_append, ?_,
    strip_eq_self_iff⟩
  · obtain ⟨pieces, hj, hp⟩ := exists_scan text.toList
    exact ⟨pieces, ⟨hj, hp⟩, fun others ⟨hj', hp'⟩ => hp'.unique hp (hj'.trans hj.symm)⟩
  · intro pieces hj hp
    rw [toList_strip, ← hj, stripChars_joined hp]
  · intro front hf
    exact strip_append fun tail ht hne => not_startsSequence_of_not_mem hf ht hne _

end Premerge.Report.Escape

import Mathlib.Logic.Function.Iterate
import Premerge.Proofs.Report.Scanning

/-! What is left around a removed sequence can make up a sequence, which stays. Nothing else keeps
stripping from being done at once, and as many passes as there are escapes always do. -/

namespace Premerge.Report.Escape

/-- A kept start of a sequence stands before a removed one, and what stays behind that goes on with
the sequence. -/
def Rejoins (pieces : List Piece) : Prop :=
  ∃ before opened removed after more,
    pieces = before ++ opened.map .kept ++ .removed removed :: after ∧
      opened ≠ [] ∧ more ≠ [] ∧ Sequence (opened ++ more) ∧ more <+: leftOf after

lemma leftOf_append (front pieces : List Piece) :
    leftOf (front ++ pieces) = leftOf front ++ leftOf pieces :=
  List.flatMap_append

lemma leftOf_map_kept (text : List Char) : leftOf (text.map .kept) = text := by
  induction text with
  | nil => rfl
  | cons c rest ih => exact congrArg (c :: ·) ih

lemma prefix_joined_or_parted {pieces : List Piece} {s : List Char} (h : s <+: leftOf pieces) :
    s <+: joined pieces ∨ ∃ opened removed after more,
      pieces = opened.map .kept ++ .removed removed :: after ∧
        s = opened ++ more ∧ more ≠ [] ∧ more <+: leftOf after := by
  rcases eq_or_ne s [] with rfl | hs
  · exact .inl List.nil_prefix
  induction pieces generalizing s with
  | nil => exact absurd (List.prefix_nil.mp h) hs
  | cons piece rest ih =>
    cases piece with
    | removed sequence => exact .inr ⟨[], sequence, rest, s, rfl, rfl, hs, h⟩
    | kept c =>
      obtain ⟨d, tail, rfl⟩ := List.exists_cons_of_ne_nil hs
      obtain ⟨rfl, htail⟩ := List.cons_prefix_cons.mp h
      rcases eq_or_ne tail [] with rfl | hne
      · exact .inl ⟨joined rest, rfl⟩
      rcases ih htail hne with hjoined | ⟨opened, removed, after, more, rfl, rfl, hmore, hafter⟩
      · exact .inl (List.cons_prefix_cons.mpr ⟨rfl, hjoined⟩)
      · exact .inr ⟨d :: opened, removed, after, more, rfl, rfl, hmore, hafter⟩

lemma Rejoins.cons {pieces : List Piece} (h : Rejoins pieces) (piece : Piece) :
    Rejoins (piece :: pieces) := by
  obtain ⟨before, opened, removed, after, more, rfl, hrest⟩ := h
  exact ⟨piece :: before, opened, removed, after, more, rfl, hrest⟩

lemma IsScan.rejoins {pieces : List Piece} (h : IsScan pieces)
    (hs : HoldsSequence (leftOf pieces)) : Rejoins pieces := by
  induction pieces with
  | nil =>
    obtain ⟨s, hs, hin⟩ := hs
    exact absurd (hin.subset hs.esc_mem) List.not_mem_nil
  | cons piece rest ih =>
    cases piece with
    | removed sequence => exact (ih h.2 hs).cons _
    | kept c =>
      rcases holdsSequence_cons hs with ⟨s, hs, hpre⟩ | hrest
      · -- No sequence starts at a kept character, so a removed piece stands within this one.
        have hleft : s <+: leftOf (.kept c :: rest) := hpre
        rcases prefix_joined_or_parted hleft with
          hjoined | ⟨opened, removed, after, more, hp, rfl, hmore, hafter⟩
        · exact absurd ⟨s, hs, hjoined⟩ h.1
        · have hopened : opened ≠ [] := by
            rintro rfl
            cases hp
          exact ⟨[], opened, removed, after, more, hp, hopened, hmore, hs, hafter⟩
      · exact (ih h.2 hrest).cons _

lemma Rejoins.holds {pieces : List Piece} (h : Rejoins pieces) : HoldsSequence (leftOf pieces) := by
  obtain ⟨before, opened, removed, after, more, rfl, _, _, hs, hmore⟩ := h
  refine ⟨opened ++ more, hs, ?_⟩
  have hleft : leftOf (before ++ opened.map .kept ++ .removed removed :: after) =
      leftOf before ++ (opened ++ leftOf after) := by
    rw [leftOf_append, leftOf_append, leftOf_map_kept, List.append_assoc]
    rfl
  rw [hleft]
  exact ((List.prefix_append_right_inj opened).mpr hmore).isInfix.trans
    (List.suffix_append _ _).isInfix

lemma strip_iterate {passes : Nat} {text : String} (h : text.toList.count esc ≤ passes) :
    strip (strip^[passes] text) = strip^[passes] text := by
  induction passes generalizing text with
  | zero =>
    rcases count_esc_stripChars text.toList with he | hlt
    · rw [← String.toList_inj]
      exact (toList_strip text).trans he
    · omega
  | succ passes ih =>
    rw [Function.iterate_succ_apply]
    rcases count_esc_stripChars text.toList with he | hlt
    · have hfixed : strip text = text := String.toList_inj.mp ((toList_strip text).trans he)
      rw [hfixed, Function.iterate_fixed hfixed, hfixed]
    · rw [← toList_strip] at hlt
      exact ih (by omega)

theorem strip_strip_eq_iff (text : String) :
    (strip (strip text) = strip text ↔ ¬HoldsSequence (strip text).toList) ∧
      (∀ pieces, joined pieces = text.toList → IsScan pieces →
        (HoldsSequence (strip text).toList ↔ Rejoins pieces)) ∧
      ∀ passes, text.toList.count esc ≤ passes →
        ¬HoldsSequence (strip^[passes] text).toList ∧
          strip (strip^[passes] text) = strip^[passes] text := by
  refine ⟨strip_eq_self_iff, ?_, ?_⟩
  · intro pieces hj hp
    rw [toList_strip, ← hj, stripChars_joined hp]
    exact ⟨hp.rejoins, Rejoins.holds⟩
  · intro passes hle
    have hfixed := strip_iterate hle
    exact ⟨strip_eq_self_iff.mp hfixed, hfixed⟩

def nestedReset : String :=
  String.ofList [esc, esc, '[', '0', 'm', '[', '0', 'm']

/-- The reset that was removed has parted another one, which stays. -/
theorem stripped_again :
    (strip nestedReset).toList = [esc, '[', '0', 'm'] ∧ Sequence (strip nestedReset).toList ∧
      strip (strip nestedReset) = "" ∧ strip (strip nestedReset) ≠ strip nestedReset := by
  have hs : (strip nestedReset).toList = [esc, '[', '0', 'm'] := by decide +kernel
  have hreset : Sequence [esc, '[', '0', 'm'] :=
    @Sequence.control ['0'] [] 'm' (List.forall_mem_singleton.mpr rfl) (List.forall_mem_nil _) rfl
  exact ⟨hs, hs ▸ hreset, by decide +kernel, by decide +kernel⟩

end Premerge.Report.Escape

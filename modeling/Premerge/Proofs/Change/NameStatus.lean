import Mathlib.Tactic.Lemma
import Premerge.Change.NameStatus

namespace Premerge.Change

open Premerge.Text.Line (pieces_append pieces_of_not_mem)

lemma Status.hasSource_ofCode_iff {code : List Char} :
    (ofCode code).hasSource = true ↔ code.head? = some 'R' ∨ code.head? = some 'C' := by
  unfold ofCode
  split <;> simp_all [hasSource]

namespace NameStatus

lemma fields_field {field : List Char} (hne : field ≠ []) (h : separator ∉ field) :
    fields field = [field] := by
  rw [fields, pieces_of_not_mem h, List.filter_cons_of_pos (by simpa using hne), List.filter_nil]

lemma fields_close_append {row : List (List Char)}
    (h : ∀ field ∈ row, field ≠ [] ∧ separator ∉ field) (rest : List Char) :
    fields (close row ++ rest) = row ++ fields rest := by
  induction row with
  | nil => rfl
  | cons field more ih =>
    obtain ⟨hne, hs⟩ := h field (.head _)
    have hclose : close (field :: more) ++ rest = field ++ separator :: (close more ++ rest) := by
      simp [close]
    have hfields : fields (field ++ separator :: (close more ++ rest)) =
        fields field ++ fields (close more ++ rest) := by
      rw [fields, pieces_append, List.filter_append, ← fields, ← fields]
    rw [hclose, hfields, fields_field hne hs, ih fun other hm => h other (.tail _ hm)]
    rfl

lemma fields_close {row : List (List Char)}
    (h : ∀ field ∈ row, field ≠ [] ∧ separator ∉ field) : fields (close row) = row := by
  have hfields := fields_close_append h []
  rwa [List.append_nil, show fields [] = [] from rfl, List.append_nil] at hfields

lemma fields_of_close {row : List (List Char)} {text : List Char}
    (h : ∀ field ∈ row, field ≠ [] ∧ separator ∉ field)
    (ht : text = close row ∨ text ++ [separator] = close row) : fields text = row := by
  rcases ht with rfl | ht
  · exact fields_close h
  · have hlast : fields (text ++ [separator]) = fields text := by
      rw [fields, fields, pieces_append]
      simp [Text.Line.pieces]
    rw [← hlast, ht, fields_close h]

section Records

variable {code former path : List Char}

lemma records_code (code : List Char) :
    records [code] = .error (.git (.truncated (String.ofList code))) := rfl

lemma records_former (h : (Status.ofCode code).hasSource = true) :
    records [code, former] = .error (.git (.truncated (String.ofList code))) := by
  rw [records, if_pos h]

lemma records_plain (h : (Status.ofCode code).hasSource = false) (rest : List (List Char)) :
    records (code :: path :: rest) =
      (records rest).map (⟨String.ofList path, Status.ofCode code⟩ :: ·) := by
  rw [records.eq_def]
  simp only [h]
  rcases records rest with e | files <;> rfl

lemma records_renamed (h : (Status.ofCode code).hasSource = true) (rest : List (List Char)) :
    records (code :: former :: path :: rest) =
      (records rest).map (⟨String.ofList path, Status.ofCode code⟩ :: ·) := by
  rw [records, if_pos h]
  rcases records rest with e | files <;> rfl

end Records

lemma records_fields_append {r : Record} (h : r.Proper) (rest : List (List Char)) :
    records (r.fields ++ rest) = (records rest).map (r.file :: ·) := by
  obtain ⟨code, source, path⟩ := r
  have hsource : source.isSome = (Status.ofCode code).hasSource := h.2
  cases source with
  | none => exact records_plain hsource.symm rest
  | some former => exact records_renamed hsource.symm rest

lemma records_encode {rows : List Record} (h : ∀ r ∈ rows, r.Proper) (rest : List (List Char)) :
    records (rows.flatMap Record.fields ++ rest) = (records rest).map (rows.map Record.file ++ ·) := by
  induction rows with
  | nil => rcases hr : records rest with e | files <;> simp [hr, Except.map]
  | cons r more ih =>
    rw [List.flatMap_cons, List.append_assoc, records_fields_append (h r (.head _)),
      ih fun other hm => h other (.tail _ hm)]
    rcases records rest with e | files <;> rfl

lemma records_cut {r : Record} (h : r.Proper) {front back : List (List Char)}
    (hf : r.fields = front ++ back) (hfront : front ≠ []) (hback : back ≠ []) :
    records front = .error (.git (.truncated (String.ofList r.code))) := by
  obtain ⟨code, source, path⟩ := r
  have hsource : source.isSome = (Status.ofCode code).hasSource := h.2
  have hinit : code :: source.toList = front ++ back.dropLast := by
    have hdrop := congrArg List.dropLast hf
    rwa [Record.fields, List.dropLast_concat, List.dropLast_append_of_ne_nil hback] at hdrop
  rcases front with _ | ⟨first, _ | ⟨second, more⟩⟩
  · exact absurd rfl hfront
  · rw [← (List.cons.inj hinit).1, records_code]
  · cases source with
    | none => cases (List.cons.inj hinit).2
    | some former =>
      obtain ⟨rfl, hrest⟩ := List.cons.inj hinit
      obtain ⟨rfl, hmore⟩ := List.cons.inj hrest
      rw [(List.append_eq_nil_iff.mp hmore.symm).1]
      exact records_former hsource.symm

lemma proper_iff {r : Record} : r.Proper ↔ (∀ field ∈ r.fields, field ≠ [] ∧ separator ∉ field) ∧
    (r.source.isSome = true ↔ r.code.head? = some 'R' ∨ r.code.head? = some 'C') := by
  rw [Record.Proper, ← Status.hasSource_ofCode_iff, Bool.eq_iff_iff]

lemma read_ofList (text : List Char) : read (String.ofList text) = records (fields text) := by
  rw [read, String.toList_ofList]

/-- A list of proper records is read back. If it ends inside a record, with or without a separator
behind the last field, it is refused. -/
theorem read_encode {rows : List Record}
    (h : ∀ r ∈ rows, (∀ field ∈ r.fields, field ≠ [] ∧ separator ∉ field) ∧
      (r.source.isSome = true ↔ r.code.head? = some 'R' ∨ r.code.head? = some 'C')) :
    read (String.ofList (encode rows)) = .ok (rows.map Record.file) ∧
      ∀ before r after front back text, rows = before ++ r :: after → r.fields = front ++ back →
        front ≠ [] → back ≠ [] →
        (text = encode before ++ close front ∨ text ++ [separator] = encode before ++ close front) →
        read (String.ofList text) = .error (.git (.truncated (String.ofList r.code))) := by
  have hproper : ∀ r ∈ rows, r.Proper := fun r hm => proper_iff.mpr (h r hm)
  have hclean {part : List Record} (hsub : ∀ r ∈ part, r ∈ rows) :
      ∀ field ∈ part.flatMap Record.fields, field ≠ [] ∧ separator ∉ field := by
    intro field hm
    obtain ⟨r, hr, hfield⟩ := List.mem_flatMap.mp hm
    exact (hproper r (hsub r hr)).1 field hfield
  constructor
  · have hrecords := records_encode hproper []
    rw [List.append_nil] at hrecords
    rw [read_ofList, encode, fields_close (hclean fun _ hm => hm), hrecords]
    simp [records, Except.map]
  · rintro before r after front back text rfl hf hfront hback ht
    have hr : r ∈ before ++ r :: after := by simp
    have hcut := records_cut (hproper r hr) hf hfront hback
    rw [encode] at ht
    have hjoin : close (before.flatMap Record.fields) ++ close front =
        close (before.flatMap Record.fields ++ front) := by
      simp [close]
    rw [hjoin] at ht
    rw [read_ofList, fields_of_close _ ht, records_encode _ front, hcut]
    · rfl
    · exact fun other hm => hproper other (List.mem_append_left _ hm)
    · intro field hm
      rcases List.mem_append.mp hm with hm | hm
      · exact hclean (fun other ho => List.mem_append_left _ ho) field hm
      · exact (hproper r hr).1 field (hf ▸ List.mem_append_left back hm)

def mixedRows : List Record :=
  [⟨"X".toList, none, "M".toList⟩, ⟨"R100".toList, some "R".toList, "C".toList⟩,
    ⟨"M".toList, none, "b.py".toList⟩]

theorem read_encode_mixed :
    read "X\x00M\x00R100\x00R\x00C\x00M\x00b.py\x00" =
        .ok [⟨"M", .other⟩, ⟨"C", .renamed⟩, ⟨"b.py", .modified⟩] ∧
      read "X\x00M\x00R100\x00R" = .error (.git (.truncated "R100")) := by
  have hrows : ∀ r ∈ mixedRows, (∀ field ∈ r.fields, field ≠ [] ∧ separator ∉ field) ∧
      (r.source.isSome = true ↔ r.code.head? = some 'R' ∨ r.code.head? = some 'C') := by
    decide
  obtain ⟨hall, hcut⟩ := read_encode hrows
  exact ⟨hall, hcut [⟨"X".toList, none, "M".toList⟩] ⟨"R100".toList, some "R".toList, "C".toList⟩
    [⟨"M".toList, none, "b.py".toList⟩] ["R100".toList, "R".toList] ["C".toList]
    "X\x00M\x00R100\x00R".toList rfl rfl (by decide) (by decide) (.inr (by decide))⟩

end NameStatus

end Premerge.Change

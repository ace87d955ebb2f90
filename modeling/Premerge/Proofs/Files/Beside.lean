import Premerge.Proofs.Files.Tree

namespace Premerge.World

structure IsEntryName (name : String) : Prop where
  noSlash : '/' ∉ name.toList
  ne_empty : name ≠ ""
  ne_here : name ≠ "."
  ne_up : name ≠ ".."

lemma isEntryName_append {name ending : String} (hn : '/' ∉ name.toList)
    (he : '/' ∉ ending.toList) (hl : 3 ≤ ending.length) : IsEntryName (name ++ ending) := by
  have hlong (short : String) (hs : short.length < 3) : name ++ ending ≠ short := by
    rintro rfl
    rw [String.length_append] at hs
    omega
  exact ⟨by simp [String.toList_append, hn, he], hlong "" (by decide), hlong "." (by decide),
    hlong ".." (by decide)⟩

lemma append_ne {name other : String} (h : other ≠ name) (ending : String) :
    other ++ ending ≠ name ++ ending := by
  intro he
  have hl := congrArg String.toList he
  simp only [String.toList_append] at hl
  exact h (String.toList_injective (List.append_cancel_right hl))

namespace Path

def lead (directory : Path) : List String :=
  if directory.isEmpty then []
  else if directory.toList.getLast? == some '/' then (parts directory).dropLast
  else parts directory

lemma isAbsolute_eq_false {name : String} (h : '/' ∉ name.toList) : isAbsolute name = false := by
  unfold isAbsolute
  rcases hn : name.toList with _ | ⟨c, rest⟩
  · rfl
  · rw [hn] at h
    obtain ⟨hc, _⟩ := List.ne_and_not_mem_of_not_mem_cons h
    simpa using hc.symm

lemma parts_of_toList {path : Path} {text : List Char} {name : String}
    (hp : path.toList = text ++ '/' :: name.toList) (h : '/' ∉ name.toList) :
    parts path = (Text.Line.pieces '/' text).map String.ofList ++ [name] := by
  simp [parts, hp, Text.Line.pieces_append, Text.Line.pieces_of_not_mem h]

lemma parts_join (directory : Path) {name : String} (h : '/' ∉ name.toList) :
    parts (join directory name) = lead directory ++ [name] := by
  unfold join lead
  rw [isAbsolute_eq_false h, Bool.false_or]
  cases directory.isEmpty with
  | true => simp [parts, Text.Line.pieces_of_not_mem h]
  | false =>
    cases hs : (directory.toList.getLast? == some '/') with
    | true =>
      obtain ⟨front, hf⟩ := List.getLast?_eq_some_iff.mp (beq_iff_eq.mp hs)
      have hd : parts directory = (Text.Line.pieces '/' front).map String.ofList ++ [""] :=
        parts_of_toList (by simpa using hf) (by simp)
      have hj : parts (directory ++ name) = (Text.Line.pieces '/' front).map String.ofList ++ [name] :=
        parts_of_toList (by simp [String.toList_append, hf]) h
      simp [hd, hj]
    | false => exact parts_of_toList (by simp [String.toList_append]) h

lemma isAbsolute_join (directory : Path) {name : String} (h : '/' ∉ name.toList) :
    isAbsolute (join directory name) = isAbsolute directory := by
  unfold join
  rw [isAbsolute_eq_false h, Bool.false_or]
  cases he : directory.isEmpty with
  | true =>
    obtain rfl : directory = "" := by simpa using he
    exact (isAbsolute_eq_false h).trans (isAbsolute_eq_false (by simp)).symm
  | false =>
    obtain ⟨c, rest, hc⟩ : ∃ c rest, directory.toList = c :: rest :=
      List.exists_cons_of_ne_nil (by simpa using he)
    cases directory.toList.getLast? == some '/' <;> simp [isAbsolute, String.toList_append, hc]

end Path

namespace FileTree

open Premerge.Text.Utf8 (Octets)

lemma walk_concat (tree : FileTree) (start : Location) (parts : List String) (name : String) :
    tree.walk start (parts ++ [name]) =
      match tree.walk start parts with
      | .error e => .error e
      | .ok (_, none) => .error .notFound
      | .ok (_, some (.file _)) => .error .notADirectory
      | .ok (location, some .directory) => tree.walk location [name] := by
  induction parts generalizing start with
  | nil =>
    rcases h : tree.get? start with _ | ⟨_ | content⟩ <;> simp [walk, h]
  | cons part rest ih =>
    simp only [List.cons_append, walk]
    split
    · rfl
    · rfl
    · split
      · exact ih start
      · split
        · exact ih _
        · split
          · rfl
          · exact ih _

lemma walk_entry {tree : FileTree} {location : Location} (hd : tree.get? location = some .directory)
    {name : String} (hn : IsEntryName name) :
    tree.walk location [name] =
      if name.utf8ByteSize > longestName then .error .nameTooLong
      else .ok (location ++ [name], tree.get? (location ++ [name])) := by
  simp [walk, hd, hn.ne_empty, hn.ne_here, hn.ne_up]

def inside (tree : FileTree) (directory : Path) : Except SystemError Location :=
  match tree.walk (tree.startOf directory) (Path.lead directory) with
  | .error e => .error e
  | .ok (_, none) => .error .notFound
  | .ok (_, some (.file _)) => .error .notADirectory
  | .ok (location, some .directory) => .ok location

lemma dropEmptyEnd_concat (parts : List String) {name : String} (h : name ≠ "") :
    dropEmptyEnd (parts ++ [name]) = parts ++ [name] := by
  simp [dropEmptyEnd, h]

lemma locate_join (tree : FileTree) (directory : Path) {name : String} (hn : IsEntryName name) :
    tree.locate (Path.join directory name) =
      match pathFault? (Path.join directory name), tree.inside directory with
      | some e, _ => .error e
      | none, .error e => .error e
      | none, .ok base =>
        if name.utf8ByteSize > longestName then .error .nameTooLong
        else .ok ⟨base ++ [name], tree.get? (base ++ [name]), false⟩ := by
  have hs : tree.startOf (Path.join directory name) = tree.startOf directory := by
    rw [startOf, startOf, Path.isAbsolute_join directory hn.noSlash]
  rw [locate_eq, hs, Path.parts_join directory hn.noSlash, dropEmptyEnd_concat _ hn.ne_empty,
    walk_concat, inside]
  cases pathFault? (Path.join directory name) with
  | some e => rfl
  | none =>
    rcases hw : tree.walk (tree.startOf directory) (Path.lead directory) with
      e | ⟨location, _ | ⟨_ | content⟩⟩
    · rfl
    · rfl
    · have hd : tree.get? location = some .directory := (walk_node hw).symm
      simp only [walk_entry hd hn]
      by_cases hlong : name.utf8ByteSize > longestName
      · simp [hlong]
      · rcases tree.get? (location ++ [name]) with _ | ⟨_ | content⟩ <;> simp [hlong]
    · rfl

lemma locate_join_eq_ok_iff {tree : FileTree} {directory : Path} {name : String}
    (hn : IsEntryName name) {spot : Spot} :
    tree.locate (Path.join directory name) = .ok spot ↔
      pathFault? (Path.join directory name) = none ∧ name.utf8ByteSize ≤ longestName ∧
        ∃ base, tree.inside directory = .ok base ∧
          spot = ⟨base ++ [name], tree.get? (base ++ [name]), false⟩ := by
  rw [locate_join tree directory hn]
  rcases pathFault? (Path.join directory name) with _ | e
  · rcases tree.inside directory with e | base
    · simp
    · by_cases hlong : name.utf8ByteSize > longestName
      · simp [hlong, Nat.not_le_of_gt hlong]
      · simp [hlong, Nat.le_of_not_gt hlong, eq_comm]
  · simp

lemma get?_inside {tree : FileTree} {directory : Path} {base : Location}
    (h : tree.inside directory = .ok base) : tree.get? base = some .directory := by
  unfold inside at h
  split at h
  · cases h
  · cases h
  · cases h
  next hw =>
    cases h
    exact (walk_node hw).symm

lemma inside_of_directories {tree after : FileTree} (hc : after.current = tree.current)
    (hd : ∀ location, tree.get? location = some .directory → after.get? location = some .directory)
    {directory : Path} {base : Location} (h : tree.inside directory = .ok base) :
    after.inside directory = .ok base := by
  have hb := hd _ (get?_inside h)
  unfold inside at h ⊢
  rw [startOf, hc]
  split at h
  · cases h
  · cases h
  · cases h
  next hw =>
    cases h
    simp only [startOf] at hw
    rw [walk_of_directories hd hw, hb]

lemma inside_of_locate {tree : FileTree} {directory : Path} {name : String}
    (hn : IsEntryName name) {location : Location} {node : Option Node}
    (h : tree.locate (Path.join directory name) = .ok ⟨location, node, false⟩) :
    ∃ base, tree.inside directory = .ok base ∧ location = base ++ [name] := by
  rw [locate_join tree directory hn] at h
  split at h
  · cases h
  · cases h
  next base _ hb =>
    split at h
    · cases h
    · cases h
      exact ⟨base, hb, rfl⟩

lemma locate_write_of_ne {tree after : FileTree} {directory : Path} {name other : String}
    (hn : IsEntryName name) (ho : IsEntryName other) (hne : other ≠ name) {content : Octets}
    (h : tree.write (Path.join directory name) content = .ok after) :
    after.locate (Path.join directory other) = tree.locate (Path.join directory other) := by
  have hk := keeps_of_write h
  obtain ⟨location, node, hl, hd, rfl⟩ := locate_of_write h
  obtain ⟨base, hb, rfl⟩ := inside_of_locate hn hl
  rw [locate_join _ directory ho, locate_join _ directory ho, hb,
    inside_of_directories hk.current (fun _ => hk.directory) hb]
  have hg : base ++ [other] ≠ base ++ [name] := by simpa using hne
  rcases pathFault? (Path.join directory other) with _ | e
  · simp only [get?_put tree (ne_nil_of_get? hd), if_neg hg]
  · rfl

lemma locate_directory {tree after : FileTree} (hc : after.current = tree.current)
    (hd : ∀ location, tree.get? location = some .directory → after.get? location = some .directory)
    {path : Path} {location : Location} {asDirectory : Bool}
    (h : tree.locate path = .ok ⟨location, some .directory, asDirectory⟩) :
    after.locate path = .ok ⟨location, some .directory, asDirectory⟩ := by
  have hs := startOf_eq hc path
  rw [locate_eq] at h ⊢
  split at h
  · cases h
  · cases h
  · split at h <;> cases h
  next hn hf hw =>
    cases h
    rw [hf, hs, walk_of_directories hd hw, hd _ (walk_node hw).symm]

lemma get?_of_pathExists {tree : FileTree} {directory : Path} {name : String}
    (hn : IsEntryName name) (hf : pathFault? (Path.join directory name) = none) {base : Location}
    (hb : tree.inside directory = .ok base) (hs : ¬name.utf8ByteSize > longestName)
    (h : tree.pathExists (Path.join directory name) = false) : tree.get? (base ++ [name]) = none := by
  rw [pathExists, locate_join tree directory hn, hf, hb] at h
  dsimp only at h
  rw [if_neg hs] at h
  rcases hg : tree.get? (base ++ [name]) with _ | node
  · rfl
  · rw [hg] at h
    cases h

/-- Two trees that differ at most in the files that stand in a directory. -/
def AlikeBeside (directory : Path) (tree other : FileTree) : Prop :=
  other.current = tree.current ∧ ∀ location, other.get? location = tree.get? location ∨
    (∃ base name, tree.inside directory = .ok base ∧ location = base ++ [name]) ∧
      tree.get? location ≠ some .directory ∧ other.get? location ≠ some .directory

lemma AlikeBeside.refl (directory : Path) (tree : FileTree) : tree.AlikeBeside directory tree :=
  ⟨rfl, fun _ => .inl rfl⟩

namespace AlikeBeside

variable {directory : Path} {tree other : FileTree}

lemma directory_iff (h : tree.AlikeBeside directory other) (location : Location) :
    other.get? location = some .directory ↔ tree.get? location = some .directory := by
  rcases h.2 location with he | ⟨_, ht, ho⟩
  · rw [he]
  · exact ⟨fun hd => (ho hd).elim, fun hd => (ht hd).elim⟩

lemma inside (h : tree.AlikeBeside directory other) :
    other.inside directory = tree.inside directory := by
  rcases hb : tree.inside directory with e | base
  · have hg : other.get? = tree.get? := by
      funext location
      rcases h.2 location with he | ⟨⟨base, _, hb', _⟩, _⟩
      · exact he
      · rw [hb] at hb'
        cases hb'
    have hw (start : Location) (parts : List String) :
        other.walk start parts = tree.walk start parts := by
      induction parts generalizing start with
      | nil => rw [walk, walk, hg]
      | cons part rest ih => simp only [walk, hg, ih]
    rw [← hb, FileTree.inside, FileTree.inside, startOf_eq h.1, hw]
  · exact inside_of_directories h.1 (fun location => (h.directory_iff location).mpr) hb

lemma locate (h : tree.AlikeBeside directory other) {name : String} (hn : IsEntryName name)
    (ht : tree.pathExists (Path.join directory name) = false)
    (ho : other.pathExists (Path.join directory name) = false) :
    other.locate (Path.join directory name) = tree.locate (Path.join directory name) := by
  rw [locate_join _ directory hn, locate_join _ directory hn, h.inside]
  rcases hf : pathFault? (Path.join directory name) with _ | e
  · rcases hb : tree.inside directory with e | base
    · rfl
    · by_cases hlong : name.utf8ByteSize > longestName
      · simp only [if_pos hlong]
      · have hg := get?_of_pathExists hn hf hb hlong ht
        have hg' := get?_of_pathExists hn hf (h.inside.trans hb) hlong ho
        simp only [hg, hg']
  · rfl

lemma write (h : tree.AlikeBeside directory other) {name : String} (hn : IsEntryName name)
    {content : Octets} {after : FileTree}
    (hw : other.write (Path.join directory name) content = .ok after) :
    tree.AlikeBeside directory after := by
  obtain ⟨location, node, hl, hd, rfl⟩ := locate_of_write hw
  obtain ⟨base, hb, rfl⟩ := inside_of_locate hn hl
  refine ⟨h.1, fun place => ?_⟩
  rw [get?_put other (ne_nil_of_get? hd)]
  by_cases hp : place = base ++ [name]
  · rw [if_pos hp]
    refine .inr ⟨⟨base, name, h.inside ▸ hb, hp⟩, ?_, by simp⟩
    rw [hp]
    exact fun ht => hd ((h.directory_iff _).mpr ht)
  · rw [if_neg hp]
    exact h.2 place

end AlikeBeside

structure DiffersIn (directory : Path) (names : List String) (tree after : FileTree) : Prop where
  alike : tree.AlikeBeside directory after
  same_or_named (location : Location) : after.get? location = tree.get? location ∨
    ∃ base, tree.inside directory = .ok base ∧ ∃ name ∈ names, location = base ++ [name]

namespace DiffersIn

variable {directory : Path} {names : List String} {tree after last : FileTree}

lemma refl (directory : Path) (names : List String) (tree : FileTree) :
    DiffersIn directory names tree tree :=
  ⟨.refl directory tree, fun _ => .inl rfl⟩

lemma write (h : DiffersIn directory names tree after) {name : String} (hn : IsEntryName name)
    (hm : name ∈ names) {content : Octets}
    (hw : after.write (Path.join directory name) content = .ok last) :
    DiffersIn directory names tree last := by
  refine ⟨h.alike.write hn hw, fun other => ?_⟩
  obtain ⟨location, node, hl, hd, rfl⟩ := locate_of_write hw
  obtain ⟨base, hb, rfl⟩ := inside_of_locate hn hl
  rw [get?_put after (ne_nil_of_get? hd)]
  by_cases ho : other = base ++ [name]
  · exact .inr ⟨base, h.alike.inside ▸ hb, name, hm, ho⟩
  · rw [if_neg ho]
    exact h.same_or_named other

lemma locate (h : DiffersIn directory names tree after) {name : String} (hn : IsEntryName name)
    (hm : name ∉ names) :
    after.locate (Path.join directory name) = tree.locate (Path.join directory name) := by
  rw [locate_join _ directory hn, locate_join _ directory hn, h.alike.inside]
  rcases pathFault? (Path.join directory name) with _ | e
  · rcases hb : tree.inside directory with e | base
    · rfl
    · have hg : after.get? (base ++ [name]) = tree.get? (base ++ [name]) := by
        rcases h.same_or_named (base ++ [name]) with hs | ⟨other, hb', named, hm', hl⟩
        · exact hs
        · obtain rfl : base = other := Except.ok.inj (hb.symm.trans hb')
          have hname : name = named := by simpa using hl
          exact (hm (hname ▸ hm')).elim
      simp only [hg]
  · rfl

end DiffersIn

end FileTree

end Premerge.World

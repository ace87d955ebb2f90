import Premerge.Proofs.Files.Beside

namespace Premerge.World

open Premerge.Text.Utf8 (Octets)

namespace Path

lemma toList_join (directory : Path) (name : String) :
    ∃ front, (join directory name).toList = front ++ name.toList := by
  unfold join
  split
  · exact ⟨[], rfl⟩
  · split
    · exact ⟨directory.toList, by simp⟩
    · exact ⟨directory.toList ++ ['/'], by simp⟩

lemma pieces_of_ending (text : List Char) {ending : List Char} (he : '/' ∉ ending) :
    ∃ lead stem, '/' ∉ stem ∧ Text.Line.pieces '/' (text ++ ending) = lead ++ [stem ++ ending] := by
  induction text with
  | nil => exact ⟨[], [], List.not_mem_nil, Text.Line.pieces_of_not_mem he⟩
  | cons c rest ih =>
    obtain ⟨lead, stem, hs, hp⟩ := ih
    rw [List.cons_append, Text.Line.pieces, hp]
    by_cases hc : c = '/'
    · exact ⟨[] :: lead, stem, hs, by rw [if_pos hc, List.cons_append]⟩
    · rw [if_neg hc]
      cases lead with
      | nil => exact ⟨[], c :: stem, by simp [hs, Ne.symm hc], rfl⟩
      | cons first more => exact ⟨(c :: first) :: more, stem, hs, rfl⟩

lemma parts_of_ending {path : Path} {front : List Char} {ending : String}
    (hp : path.toList = front ++ ending.toList) (he : '/' ∉ ending.toList) :
    ∃ lead stem, '/' ∉ stem.toList ∧ parts path = lead ++ [stem ++ ending] := by
  obtain ⟨lead, stem, hs, hpieces⟩ := pieces_of_ending front he
  refine ⟨lead.map String.ofList, String.ofList stem, by simpa using hs, ?_⟩
  have hj : String.ofList (stem ++ ending.toList) = String.ofList stem ++ ending :=
    String.toList_injective (by simp [String.toList_append])
  rw [parts, hp, hpieces, List.map_append, List.map_singleton, hj]

end Path

namespace FileTree

lemma WritesAt.unique {tree : FileTree} {path : Path} {location other : Location}
    (h : tree.WritesAt path location) (h' : tree.WritesAt path other) : location = other := by
  have hl := h.1.symm.trans h'.1
  cases hl
  rfl

lemma Stores.contentAt {tree : FileTree} {path : Path} {location : Location} {content : Octets}
    (h : tree.Stores path location content) : tree.contentAt location = content := by
  rw [FileTree.contentAt, h.get?]

lemma contentAt_put_of_ne (tree : FileTree) {location place : Location} (hl : location ≠ [])
    (hne : place ≠ location) (node : Node) :
    (tree.put location node).contentAt place = tree.contentAt place := by
  simp only [FileTree.contentAt, get?_put tree hl, if_neg hne]

lemma Stores.put_of_ne {tree : FileTree} {path : Path} {location other : Location}
    {content : Octets} (h : tree.Stores path location content)
    (hd : tree.get? other ≠ some .directory) (hne : location ≠ other) (written : Octets) :
    (tree.put other (.file written)).Stores path location content := by
  have hk := keeps_put tree written hd
  have hl := locate_of_directories hk.current (fun _ => hk.directory) h
  rwa [get?_put tree (ne_nil_of_get? hd), if_neg hne, h.get?] at hl

def CanWrite (tree : FileTree) (path : Path) : Prop :=
  ∃ location, tree.WritesAt path location

def IsFree (tree : FileTree) (path : Path) : Prop :=
  ∃ location, tree.WritesAt path location ∧ tree.get? location = none

lemma IsFree.read {tree : FileTree} {path : Path} (h : tree.IsFree path) :
    tree.read path = .error .notFound := by
  obtain ⟨location, hw, hnone⟩ := h
  rw [FileTree.read, hw.1, hnone]

lemma Stores.not_isFree {tree : FileTree} {path : Path} {location : Location}
    {content : Octets} (h : tree.Stores path location content) : ¬tree.IsFree path := by
  intro hf
  simpa [h.read] using hf.read

def SamePlace (tree : FileTree) (path other : Path) : Prop :=
  ∃ location, tree.WritesAt path location ∧ tree.WritesAt other location

lemma exists_update_iff {tree : FileTree} {path : Path} {change : Octets → Octets} :
    (∃ after, tree.update path change = .ok after) ↔ tree.CanWrite path := by
  constructor
  · rintro ⟨after, h⟩
    obtain ⟨location, hw, _⟩ := update_eq_ok_iff.mp h
    exact ⟨location, hw⟩
  · rintro ⟨location, hw⟩
    exact ⟨_, update_eq_ok_iff.mpr ⟨location, hw, rfl⟩⟩

lemma exists_write_iff {tree : FileTree} {path : Path} (content : Octets) :
    (∃ after, tree.write path content = .ok after) ↔ tree.CanWrite path :=
  exists_update_iff

lemma exists_append_iff {tree : FileTree} {path : Path} (content : Octets) :
    (∃ after, tree.append path content = .ok after) ↔ tree.CanWrite path :=
  exists_update_iff

lemma writeNew_eq_ok_iff {tree after : FileTree} {path : Path} {content : Octets} :
    tree.writeNew path content = .ok after ↔ ∃ location, tree.WritesAt path location ∧
      tree.get? location = none ∧ after = tree.put location (.file content) := by
  constructor
  · intro h
    unfold writeNew at h
    split at h
    · cases h
    · cases h
    next location asDirectory hl =>
      split at h
      · cases h
      next hf =>
        obtain rfl : asDirectory = false := by simpa using hf
        cases h
        have hg := locate_node hl
        exact ⟨location, ⟨hg ▸ hl, by simp [← hg]⟩, hg.symm, rfl⟩
  · rintro ⟨location, ⟨hl, _⟩, hn, rfl⟩
    rw [hn] at hl
    unfold writeNew
    rw [hl]
    rfl

lemma exists_writeNew_iff {tree : FileTree} {path : Path} (content : Octets) :
    (∃ after, tree.writeNew path content = .ok after) ↔ tree.IsFree path := by
  constructor
  · rintro ⟨after, h⟩
    obtain ⟨location, hw, hn, _⟩ := writeNew_eq_ok_iff.mp h
    exact ⟨location, hw, hn⟩
  · rintro ⟨location, hw, hn⟩
    exact ⟨_, writeNew_eq_ok_iff.mpr ⟨location, hw, hn, rfl⟩⟩

structure SameDirectories (tree other : FileTree) : Prop where
  current : other.current = tree.current
  directory_iff (location : Location) :
    other.get? location = some .directory ↔ tree.get? location = some .directory

namespace SameDirectories

variable {tree other last : FileTree}

lemma refl (tree : FileTree) : tree.SameDirectories tree :=
  ⟨rfl, fun _ => .rfl⟩

lemma symm (h : tree.SameDirectories other) : other.SameDirectories tree :=
  ⟨h.current.symm, fun location => (h.directory_iff location).symm⟩

lemma trans (h : tree.SameDirectories other) (h' : other.SameDirectories last) :
    tree.SameDirectories last :=
  ⟨h'.current.trans h.current,
    fun location => (h'.directory_iff location).trans (h.directory_iff location)⟩

lemma put {location : Location} (h : tree.get? location ≠ some .directory) (content : Octets) :
    tree.SameDirectories (tree.put location (.file content)) := by
  refine ⟨rfl, fun place => ?_⟩
  rw [get?_put tree (ne_nil_of_get? h)]
  by_cases hp : place = location
  · simp [hp, h]
  · rw [if_neg hp]

lemma writesAt (h : tree.SameDirectories other) {path : Path} {location : Location}
    (hw : tree.WritesAt path location) : other.WritesAt path location :=
  ⟨locate_of_directories h.current (fun _ => (h.directory_iff _).mpr) hw.1,
    fun hd => hw.2 ((h.directory_iff _).mp hd)⟩

lemma canWrite_iff (h : tree.SameDirectories other) (path : Path) :
    other.CanWrite path ↔ tree.CanWrite path :=
  ⟨fun ⟨location, hw⟩ => ⟨location, h.symm.writesAt hw⟩,
    fun ⟨location, hw⟩ => ⟨location, h.writesAt hw⟩⟩

lemma samePlace_iff (h : tree.SameDirectories other) {path place : Path} :
    other.SamePlace path place ↔ tree.SamePlace path place :=
  ⟨fun ⟨location, hw, hp⟩ => ⟨location, h.symm.writesAt hw, h.symm.writesAt hp⟩,
    fun ⟨location, hw, hp⟩ => ⟨location, h.writesAt hw, h.writesAt hp⟩⟩

end SameDirectories

lemma WritesAt.sameDirectories {tree : FileTree} {path : Path} {location : Location}
    (h : tree.WritesAt path location) (content : Octets) :
    tree.SameDirectories (tree.put location (.file content)) :=
  .put h.2 content

lemma WritesAt.stores {tree : FileTree} {path : Path} {location : Location}
    (h : tree.WritesAt path location) (content : Octets) :
    (tree.put location (.file content)).Stores path location content :=
  stores_put h.1 h.2 content

lemma WritesAt.getLast? {tree : FileTree} {path : Path} {location : Location}
    (h : tree.WritesAt path location) {lead : List String} {name : String}
    (hp : Path.parts path = lead ++ [name]) (hn : IsEntryName name) :
    location.getLast? = some name := by
  obtain ⟨_, _, hw⟩ := locate_eq_ok_iff.mp h.1
  rw [hp, dropEmptyEnd_concat _ hn.ne_empty, walk_concat] at hw
  split at hw
  · cases hw
  · cases hw
  · cases hw
  next base hb =>
    rw [walk_entry (walk_node hb).symm hn] at hw
    split at hw
    · cases hw
    · cases hw
      simp

structure AgreeOn (name : String) (tree other : FileTree) : Prop
    extends tree.SameDirectories other where
  same (location : Location) :
    location.getLast? = some name → other.get? location = tree.get? location

namespace AgreeOn

variable {name : String} {tree other last : FileTree}

lemma refl (name : String) (tree : FileTree) : AgreeOn name tree tree :=
  ⟨.refl tree, fun _ _ => rfl⟩

lemma symm (h : AgreeOn name tree other) : AgreeOn name other tree :=
  ⟨h.toSameDirectories.symm, fun location hl => (h.same location hl).symm⟩

lemma trans (h : AgreeOn name tree other) (h' : AgreeOn name other last) :
    AgreeOn name tree last :=
  ⟨h.toSameDirectories.trans h'.toSameDirectories,
    fun location hl => (h'.same location hl).trans (h.same location hl)⟩

lemma isFree (h : AgreeOn name tree other) {directory : Path} (hn : IsEntryName name)
    (hf : tree.IsFree (Path.join directory name)) : other.IsFree (Path.join directory name) := by
  obtain ⟨location, hw, hnone⟩ := hf
  -- The path ends in the name, so it leads to one of the files on which the trees agree.
  have hl := hw.getLast? (Path.parts_join directory hn.noSlash) hn
  exact ⟨location, h.writesAt hw, (h.same location hl).trans hnone⟩

lemma of_write {directory : Path} {stem ending : String} (he : '/' ∉ ending.toList)
    (hlen : 3 ≤ ending.length) (hne : ¬ending.toList <:+ name.toList) {content : Octets}
    (h : tree.write (Path.join directory (stem ++ ending)) content = .ok other) :
    AgreeOn name tree other := by
  obtain ⟨location, hw, rfl⟩ := update_eq_ok_iff.mp h
  obtain ⟨front, hfront⟩ := Path.toList_join directory (stem ++ ending)
  rw [String.toList_append, ← List.append_assoc] at hfront
  obtain ⟨lead, last, hlast, hparts⟩ := Path.parts_of_ending hfront he
  have hl := hw.getLast? hparts (isEntryName_append hlast he hlen)
  refine ⟨hw.sameDirectories _, fun place hp => ?_⟩
  rw [get?_put tree (ne_nil_of_get? hw.2), if_neg]
  -- A file of both names would have both endings.
  rintro rfl
  refine hne ⟨last.toList, ?_⟩
  rw [hl, Option.some.injEq] at hp
  rw [← hp, String.toList_append]

end AgreeOn

end FileTree

end Premerge.World

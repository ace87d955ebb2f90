import Premerge.Proofs.Files.Listing

namespace Premerge.World.FileTree

open Premerge.Text.Utf8 (Octets)

structure FilledWith (tree : FileTree) (path : Path) (base : Location) (names : List String) :
    Prop where
  leadsTo : tree.LeadsTo path base
  nodup : (tree.children base).Nodup
  mem_iff (name : String) : name ∈ tree.children base ↔ name ∈ names
  isFile (name : String) : tree.get? (base ++ [name]) ≠ some .directory

def StandsOutside (tree : FileTree) (directory file : Path) : Prop :=
  ∀ base location, tree.LeadsTo directory base → tree.WritesAt file location →
    location.dropLast ≠ base

variable {tree after : FileTree} {path : Path} {base location : Location} {names : List String}
  {name : String}

lemma filledWith_of_list (h : tree.list path = .ok []) :
    ∃ base, tree.FilledWith path base [] := by
  obtain ⟨base, hl, hc⟩ := list_eq_ok_iff.mp h
  refine ⟨base, hl, by simp [← hc], by simp [← hc], fun name hd => ?_⟩
  have hm : name ∈ tree.children base := mem_children.mpr (by simp [hd])
  simp [← hc] at hm

namespace FilledWith

lemma congr (h : tree.FilledWith path base names) {others : List String}
    (he : ∀ name, name ∈ others ↔ name ∈ names) : tree.FilledWith path base others :=
  ⟨h.leadsTo, h.nodup, fun name => (h.mem_iff name).trans (he name).symm, h.isFile⟩

lemma swap {first more : List String}
    (h : tree.FilledWith path base (more ++ (first ++ names))) :
    tree.FilledWith path base (first ++ more ++ names) :=
  h.congr fun name => by simp only [List.mem_append, or_assoc, or_left_comm]

lemma put (h : tree.FilledWith path base names) (hd : tree.get? location ≠ some .directory)
    (content : Octets) :
    (tree.put location (.file content)).FilledWith path base
      ((nameBelow? base location).toList ++ names) := by
  have hput := get?_put tree (ne_nil_of_get? hd) (.file content)
  refine ⟨h.leadsTo.keeps (keeps_put tree content hd), ?_, fun name => ?_, fun name => ?_⟩
  · rw [children_put, List.nodup_append]
    have hone : (nameBelow? base location).toList.Nodup := by
      cases nameBelow? base location <;> simp
    refine ⟨hone, h.nodup.filter _, fun name hn other ho => ?_⟩
    rw [Option.mem_toList, nameBelow?_eq_some_iff] at hn
    rintro rfl
    simp [hn] at ho
  · rw [mem_children, hput, List.mem_append, Option.mem_toList, nameBelow?_eq_some_iff,
      ← h.mem_iff, mem_children]
    by_cases he : base ++ [name] = location
    · simp [he]
    · simp [he, Ne.symm he]
  · rw [hput]
    split
    · simp
    · exact h.isFile name

lemma location_eq (h : tree.FilledWith path base names) (hn : IsEntryName name)
    (hw : tree.WritesAt (Path.join path name) location) : location = base ++ [name] := by
  obtain ⟨place, hb, rfl⟩ := inside_of_locate hn hw.1
  rw [inside_of_leadsTo h.leadsTo] at hb
  rw [Except.ok.inj hb]

lemma put_entry (h : tree.FilledWith path base names) (hn : IsEntryName name)
    (hw : tree.WritesAt (Path.join path name) location) (content : Octets) :
    (tree.put location (.file content)).FilledWith path base (name :: names) := by
  have hput := h.put hw.2 content
  rwa [nameBelow?_eq_some_iff.mpr (h.location_eq hn hw)] at hput

lemma put_outside (h : tree.FilledWith path base names) {file : Path}
    (hw : tree.WritesAt file location) (ho : location.dropLast ≠ base) (content : Octets) :
    (tree.put location (.file content)).FilledWith path base names := by
  have hput := h.put hw.2 content
  have hnone : nameBelow? base location = none := if_neg fun hb => ho hb.2
  rwa [hnone] at hput

lemma write (h : tree.FilledWith path base names) (hn : IsEntryName name) {content : Octets}
    (hw : tree.write (Path.join path name) content = .ok after) :
    after.FilledWith path base (name :: names) := by
  obtain ⟨location, hat, rfl⟩ := write_eq_ok_iff.mp hw
  exact h.put_entry hn hat content

lemma write_again (h : tree.FilledWith path base names) (hn : IsEntryName name)
    (hm : name ∈ names) {content : Octets}
    (hw : tree.write (Path.join path name) content = .ok after) :
    after.FilledWith path base names :=
  (h.write hn hw).congr fun other => by
    rw [List.mem_cons, or_iff_right_of_imp]
    rintro rfl
    exact hm

lemma append_outside (h : tree.FilledWith path base names) {file : Path} {content : Octets}
    (ha : tree.append file content = .ok after) (ho : after.StandsOutside path file) :
    after.FilledWith path base names := by
  obtain ⟨location, hat, rfl⟩ := update_eq_ok_iff.mp ha
  exact h.put_outside hat (ho base location (h.put hat.2 _).leadsTo
    ((hat.sameDirectories _).writesAt hat)) _

lemma canWrite (h : tree.FilledWith path base names) (hn : IsEntryName name)
    (hf : pathFault? (Path.join path name) = none) (hl : name.utf8ByteSize ≤ longestName) :
    tree.CanWrite (Path.join path name) :=
  ⟨base ++ [name], (locate_join_eq_ok_iff hn).mpr
    ⟨hf, hl, base, inside_of_leadsTo h.leadsTo, rfl⟩, h.isFile name⟩

lemma exists_list (h : tree.FilledWith path base names) (hd : names.Nodup) :
    ∃ listed, tree.list path = .ok listed ∧ listed.Perm names :=
  ⟨tree.children base, list_eq_ok_iff.mpr ⟨base, h.leadsTo, rfl⟩,
    (List.perm_ext_iff_of_nodup h.nodup hd).mpr h.mem_iff⟩

end FilledWith

end Premerge.World.FileTree

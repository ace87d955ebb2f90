import Mathlib.Data.List.Induction
import Premerge.Proofs.Files.Making
import Premerge.Proofs.Files.Writable

namespace Premerge.World

lemma Path.parts_eq_lead (path : Path) :
    parts path = lead path ∨ parts path = lead path ++ [""] := by
  unfold lead
  split
  next he =>
    obtain rfl : path = "" := by simpa using he
    exact .inr rfl
  · split
    next hs =>
      obtain ⟨front, hf⟩ := List.getLast?_eq_some_iff.mp (beq_iff_eq.mp hs)
      have hp : parts path = (Text.Line.pieces '/' front).map String.ofList ++ [""] :=
        parts_of_toList (by simpa using hf) (by simp)
      exact .inr (by rw [hp, List.dropLast_concat])
    · exact .inl rfl

namespace FileTree

def nameBelow? (base location : Location) : Option String :=
  if location ≠ [] ∧ location.dropLast = base then location.getLast? else none

lemma nameBelow?_eq_some_iff {base location : Location} {name : String} :
    nameBelow? base location = some name ↔ location = base ++ [name] := by
  constructor
  · intro h
    unfold nameBelow? at h
    split at h
    next hb =>
      obtain ⟨front, rfl⟩ := List.getLast?_eq_some_iff.mp h
      rw [← hb.2, List.dropLast_concat]
    · cases h
  · rintro rfl
    simp [nameBelow?]

lemma mem_children {tree : FileTree} {base : Location} {name : String} :
    name ∈ tree.children base ↔ tree.get? (base ++ [name]) ≠ none := by
  have hg : tree.get? (base ++ [name]) = tree.nodes.lookup (base ++ [name]) := by
    cases base <;> rfl
  rw [hg, ← Option.isSome_iff_ne_none, List.lookup_isSome_iff]
  change name ∈ tree.nodes.filterMap (fun entry => nameBelow? base entry.1) ↔ _
  simp [nameBelow?_eq_some_iff]

lemma children_put (tree : FileTree) (base location : Location) (node : Node) :
    (tree.put location node).children base =
      (nameBelow? base location).toList ++ (tree.children base).filter (base ++ [·] ≠ location) := by
  have hkept : (tree.nodes.filter (·.1 ≠ location)).filterMap (fun entry => nameBelow? base entry.1) =
      (tree.nodes.filterMap fun entry => nameBelow? base entry.1).filter (base ++ [·] ≠ location) := by
    rw [List.filterMap_filter, List.filter_filterMap]
    congr 1
    funext entry
    rcases hn : nameBelow? base entry.1 with _ | name
    · simp
    · rw [nameBelow?_eq_some_iff.mp hn]
      simp [Option.filter_some]
  change ((location, node) :: tree.nodes.filter (·.1 ≠ location)).filterMap
    (fun entry => nameBelow? base entry.1) = _
  rw [List.filterMap_cons, hkept]
  rcases nameBelow? base location with _ | name <;> rfl

lemma mem_of_mem_dropEmptyEnd {parts : List String} {part : String}
    (h : part ∈ dropEmptyEnd parts) : part ∈ parts :=
  List.mem_reverse.mp ((List.dropWhile_sublist _).subset (List.mem_reverse.mp h))

lemma walk_dropEmptyEnd {tree : FileTree} {start base : Location} {parts : List String}
    (h : tree.walk start (dropEmptyEnd parts) = .ok (base, some .directory)) :
    tree.walk start parts = .ok (base, some .directory) := by
  induction parts using List.reverseRecOn with
  | nil => exact h
  | append_singleton front part ih =>
    by_cases hp : part = ""
    · subst hp
      have hd : dropEmptyEnd (front ++ [""]) = dropEmptyEnd front := by simp [dropEmptyEnd]
      rw [hd] at h
      have hg : tree.get? base = some .directory := (walk_node h).symm
      rw [walk_concat, ih h]
      simp [walk, hg]
    · rwa [dropEmptyEnd_concat _ hp] at h

lemma walk_of_leadsTo {tree : FileTree} {path : Path} {base : Location}
    (h : tree.LeadsTo path base) :
    pathFault? path = none ∧
      tree.walk (tree.startOf path) (dropEmptyEnd path.parts) = .ok (base, some .directory) := by
  obtain ⟨asDirectory, h⟩ := h
  rw [locate_eq] at h
  split at h
  · cases h
  · cases h
  · split at h <;> cases h
  next hf hw =>
    cases h
    exact ⟨hf, hw⟩

lemma LeadsTo.keeps {tree after : FileTree} {path : Path} {base : Location}
    (h : tree.LeadsTo path base) (hk : tree.Keeps after) : after.LeadsTo path base := by
  obtain ⟨asDirectory, h⟩ := h
  exact ⟨asDirectory, locate_directory hk.current (fun _ => hk.directory) h⟩

lemma list_eq_ok_iff {tree : FileTree} {path : Path} {names : List String} :
    tree.list path = .ok names ↔ ∃ base, tree.LeadsTo path base ∧ names = tree.children base := by
  constructor
  · intro h
    unfold list at h
    split at h
    · cases h
    · cases h
    · cases h
    next base asDirectory hl =>
      cases h
      exact ⟨base, ⟨asDirectory, hl⟩, rfl⟩
  · rintro ⟨base, ⟨asDirectory, hl⟩, rfl⟩
    rw [list, hl]

lemma inside_of_leadsTo {tree : FileTree} {path : Path} {base : Location}
    (h : tree.LeadsTo path base) : tree.inside path = .ok base := by
  have hall := walk_dropEmptyEnd (walk_of_leadsTo h).2
  have hlead : tree.walk (tree.startOf path) (Path.lead path) = .ok (base, some .directory) := by
    rcases Path.parts_eq_lead path with hp | hp <;> rw [hp] at hall
    · exact hall
    · rw [walk_concat] at hall
      split at hall
      · cases hall
      · cases hall
      · cases hall
      next place hplace =>
        have hg : tree.get? place = some .directory := (walk_node hplace).symm
        simp only [walk, hg, true_or, if_true, Except.ok.injEq, Prod.mk.injEq, and_true] at hall
        rw [hplace, hall]
  rw [inside, hlead]

lemma filterMap_children_put {α : Type} (look : String → Option α) (tree : FileTree)
    (base location : Location) (node : Node)
    (h : ∀ name, location.getLast? = some name → look name = none) :
    ((tree.put location node).children base).filterMap look =
      (tree.children base).filterMap look := by
  rw [children_put, List.filterMap_append]
  have hnew : (nameBelow? base location).toList.filterMap look = [] := by
    rcases hn : nameBelow? base location with _ | name
    · rfl
    · rw [nameBelow?_eq_some_iff.mp hn, List.getLast?_concat] at h
      simp [h name rfl]
  rw [hnew, List.nil_append, List.filterMap_filter]
  congr 1
  funext name
  split
  · rfl
  next hl =>
    simp only [ne_eq, decide_eq_true_eq, Decidable.not_not] at hl
    exact (h name (by rw [← hl, List.getLast?_concat])).symm

/-- The current directory is there, and everything stands in a directory. -/
structure IsTree (tree : FileTree) : Prop where
  current : tree.get? tree.current = some .directory
  parent {base : Location} {name : String} :
    tree.get? (base ++ [name]) ≠ none → tree.get? base = some .directory

namespace IsTree

variable {tree made : FileTree}

lemma children_eq_nil (h : tree.IsTree) {location : Location} (hn : tree.get? location = none) :
    tree.children location = [] := by
  refine List.eq_nil_iff_forall_not_mem.mpr fun name hm => ?_
  cases hn.symm.trans (h.parent (mem_children.mp hm))

lemma dropLast (h : tree.IsTree) {location : Location}
    (hd : tree.get? location = some .directory) :
    tree.get? location.dropLast = some .directory := by
  induction location using List.reverseRecOn with
  | nil => exact hd
  | append_singleton base name _ =>
    have hn : tree.get? (base ++ [name]) ≠ none := by simp [hd]
    rw [List.dropLast_concat]
    exact h.parent hn

lemma startOf (h : tree.IsTree) (path : Path) : tree.get? (tree.startOf path) = some .directory := by
  unfold FileTree.startOf
  split
  · rfl
  · exact h.current

lemma parent_of_walk (h : tree.IsTree) {parts : List String} {start location : Location}
    (hs : tree.get? start = some .directory) (hw : tree.walk start parts = .ok (location, none)) :
    ∃ base name, location = base ++ [name] ∧ tree.get? base = some .directory := by
  rcases List.eq_nil_or_concat parts with rfl | ⟨front, part, rfl⟩
  · simp [walk, hs] at hw
  rw [List.concat_eq_append, walk_concat] at hw
  split at hw
  · cases hw
  · cases hw
  · cases hw
  next place hfront =>
    have hd : tree.get? place = some .directory := (walk_node hfront).symm
    simp only [walk, hd] at hw
    split at hw
    · cases hw
    split at hw
    · simp [h.dropLast hd] at hw
    split at hw
    · cases hw
    simp only [Except.ok.injEq, Prod.mk.injEq] at hw
    exact ⟨place, part, hw.1.symm, hd⟩

lemma put_directory (h : tree.IsTree) {base : Location} {name : String}
    (hd : tree.get? base = some .directory) : (tree.put (base ++ [name]) .directory).IsTree := by
  have hput := get?_put tree (List.concat_ne_nil name base) .directory
  have hkeeps (location : Location) (hl : tree.get? location = some .directory) :
      (tree.put (base ++ [name]) .directory).get? location = some .directory := by
    rw [hput, hl, ite_self]
  refine ⟨hkeeps _ h.current, fun {place other} hn => ?_⟩
  rw [hput] at hn
  by_cases he : place ++ [other] = base ++ [name]
  · obtain ⟨rfl, _⟩ := List.append_inj' he rfl
    exact hkeeps _ hd
  · rw [if_neg he] at hn
    exact hkeeps _ (h.parent hn)

lemma of_makeDirectory (h : tree.IsTree) {path : Path} (hm : tree.makeDirectory path = .ok made) :
    made.IsTree ∧ made.list path = .ok [] := by
  obtain ⟨location, asDirectory, hl, rfl⟩ := makeDirectory_eq_ok hm
  obtain ⟨hn, hmade⟩ := locate_put_directory hl
  obtain ⟨base, name, rfl, hd⟩ : ∃ base name, location = base ++ [name] ∧
      tree.get? base = some .directory := by
    rw [locate_eq] at hl
    split at hl
    · cases hl
    · cases hl
    · split at hl <;> cases hl
    next hw =>
      cases hl
      exact h.parent_of_walk (h.startOf path) hw
  refine ⟨h.put_directory hd, ?_⟩
  rw [list, hmade]
  dsimp only
  rw [children_put, h.children_eq_nil hn]
  have hself : nameBelow? (base ++ [name]) (base ++ [name]) = none := by simp [nameBelow?]
  simp [hself]

lemma of_makeChain (h : tree.IsTree) (paths : List Path) : (tree.makeChain paths).2.IsTree := by
  induction paths with
  | nil => exact h
  | cons path up ih =>
    unfold makeChain
    split
    · exact h
    split
    next hm => exact (h.of_makeDirectory hm).1
    · split
      next hc =>
        rw [hc] at ih
        exact ih
      next hc =>
        rw [hc] at ih
        split
        next hm => exact (ih.of_makeDirectory hm).1
        · exact ih
    · exact h

end IsTree

lemma isTree_fresh : fresh.IsTree := by
  refine ⟨by decide, fun {base name} hn => ?_⟩
  have hl : ([(["work"], Node.directory)].lookup (base ++ [name])).isSome := by
    rw [Option.isSome_iff_ne_none]
    cases base <;> exact hn
  have he : base ++ [name] = [] ++ ["work"] := by
    simpa [List.lookup_isSome_iff] using hl
  obtain ⟨rfl, _⟩ := List.append_inj' he rfl
  rfl

end FileTree

end Premerge.World

import Premerge.Proofs.Files.Beside

namespace Premerge.World.FileTree

lemma ne_nil_of_get?_eq_none {tree : FileTree} {location : Location}
    (h : tree.get? location = none) : location ≠ [] := by
  rintro rfl
  cases h

lemma locate_put_directory {tree : FileTree} {path : Path} {location : Location}
    {asDirectory : Bool} (h : tree.locate path = .ok ⟨location, none, asDirectory⟩) :
    tree.get? location = none ∧
      (tree.put location .directory).locate path = .ok ⟨location, some .directory, asDirectory⟩ := by
  rw [locate_eq] at h
  split at h
  · cases h
  · cases h
  · split at h <;> cases h
  next hf hw =>
    cases h
    have hn : tree.get? location = none := (walk_node hw).symm
    have hl : location ≠ [] := ne_nil_of_get?_eq_none hn
    have hd (other : Location) (ho : tree.get? other = some .directory) :
        (tree.put location .directory).get? other = some .directory := by
      rw [get?_put tree hl, ho, ite_self]
    have hs : (tree.put location .directory).startOf path = tree.startOf path := rfl
    refine ⟨hn, ?_⟩
    rw [locate_eq, hf, hs, walk_of_directories hd hw, get?_put tree hl, if_pos rfl]

lemma makeDirectory_eq_ok {tree made : FileTree} {path : Path}
    (h : tree.makeDirectory path = .ok made) :
    ∃ location asDirectory, tree.locate path = .ok ⟨location, none, asDirectory⟩ ∧
      made = tree.put location .directory := by
  unfold makeDirectory at h
  split at h
  · cases h
  · cases h
  next location asDirectory hl =>
    cases h
    exact ⟨location, asDirectory, hl, rfl⟩

lemma makeDirectory_of_pathExists {tree : FileTree} {path : Path}
    (h : tree.pathExists path = true) : tree.makeDirectory path = .error .alreadyExists := by
  unfold pathExists at h
  unfold makeDirectory
  split at h
  next hl => rw [hl]
  · cases h

lemma pathExists_of_isDirectory {tree : FileTree} {path : Path}
    (h : tree.isDirectory path = true) : tree.pathExists path = true := by
  unfold isDirectory at h
  unfold pathExists
  split at h
  next hl => rw [hl]
  · cases h

lemma makeChain_eq_ok {tree made : FileTree} {path : Path} {up : List Path} (hp : path ≠ "")
    (h : tree.makeChain (path :: up) = (.ok (), made)) :
    tree.makeDirectory path = .ok made ∨ made = tree ∧ tree.isDirectory path = true ∨
      tree.makeDirectory path = .error .notFound ∧ ∃ between, tree.makeChain up = (.ok (), between) ∧
        (between.makeDirectory path = .ok made ∨ made = between ∧ between.isDirectory path = true) := by
  have he : path.isEmpty = false := by simpa using hp
  have hthere {tree : FileTree} {e : SystemError}
      (h : (if tree.isDirectory path = true then Except.ok () else .error e, tree) = (.ok (), made)) :
      made = tree ∧ tree.isDirectory path = true := by
    split at h
    · cases h
      exact ⟨rfl, ‹_›⟩
    · cases h
  rw [makeChain, he] at h
  simp only [Bool.false_eq_true, if_false] at h
  split at h
  next hm =>
    cases h
    exact .inl hm
  next hm =>
    split at h
    · cases h
    next between hc =>
      refine .inr (.inr ⟨hm, between, hc, ?_⟩)
      split at h
      next hm' =>
        cases h
        exact .inl hm'
      · exact .inr (hthere h)
  · exact .inr (.inl (hthere h))

def LeadsTo (tree : FileTree) (path : Path) (location : Location) : Prop :=
  ∃ asDirectory, tree.locate path = .ok ⟨location, some .directory, asDirectory⟩

/-- Later on, directories stand where nothing stood and where the paths lead; all else is as it
was. -/
structure Makes (tree after : FileTree) (paths : List Path) : Prop where
  current : after.current = tree.current
  same_or_made (location : Location) :
    after.get? location = tree.get? location ∨ tree.get? location = none ∧
      after.get? location = some .directory ∧ ∃ path ∈ paths, after.LeadsTo path location

namespace Makes

variable {tree after last : FileTree} {paths more : List Path}

lemma refl (tree : FileTree) (paths : List Path) : tree.Makes tree paths :=
  ⟨rfl, fun _ => .inl rfl⟩

lemma mono (h : tree.Makes after paths) (hm : ∀ path ∈ paths, path ∈ more) :
    tree.Makes after more := by
  refine ⟨h.current, fun location => ?_⟩
  rcases h.same_or_made location with hs | ⟨hn, hd, path, hp, hl⟩
  · exact .inl hs
  · exact .inr ⟨hn, hd, path, hm path hp, hl⟩

lemma directory (h : tree.Makes after paths) {location : Location}
    (hd : tree.get? location = some .directory) : after.get? location = some .directory := by
  rcases h.same_or_made location with hs | ⟨hn, _⟩
  · rw [hs, hd]
  · cases hn.symm.trans hd

lemma leadsTo (h : tree.Makes after paths) {path : Path} {location : Location}
    (hl : tree.LeadsTo path location) : after.LeadsTo path location := by
  obtain ⟨asDirectory, hl⟩ := hl
  exact ⟨asDirectory, locate_directory h.current (fun _ => h.directory) hl⟩

lemma trans (h : tree.Makes after paths) (h' : after.Makes last paths) :
    tree.Makes last paths := by
  refine ⟨h'.current.trans h.current, fun location => ?_⟩
  rcases h.same_or_made location with hs | ⟨hn, hd, path, hp, hl⟩
  · rcases h'.same_or_made location with hs' | ⟨hn', hmade⟩
    · exact .inl (hs'.trans hs)
    · exact .inr ⟨hs ▸ hn', hmade⟩
  · exact .inr ⟨hn, h'.directory hd, path, hp, h'.leadsTo hl⟩

lemma of_makeDirectory {path : Path} (hp : path ∈ paths)
    (h : tree.makeDirectory path = .ok after) : tree.Makes after paths := by
  obtain ⟨location, asDirectory, hl, rfl⟩ := makeDirectory_eq_ok h
  obtain ⟨hn, hmade⟩ := locate_put_directory hl
  have hne : location ≠ [] := ne_nil_of_get?_eq_none hn
  refine ⟨rfl, fun other => ?_⟩
  rw [get?_put tree hne]
  by_cases ho : other = location
  · subst ho
    exact .inr ⟨hn, if_pos rfl, path, hp, asDirectory, hmade⟩
  · exact .inl (if_neg ho)

lemma of_makeChain (tree : FileTree) (paths : List Path) :
    tree.Makes (tree.makeChain paths).2 paths := by
  induction paths with
  | nil => exact .refl tree _
  | cons path up ih =>
    unfold makeChain
    split
    · exact .refl tree _
    · split
      next hm => exact .of_makeDirectory (.head _) hm
      · have hup := ih.mono fun other ho => List.mem_cons_of_mem path ho
        split
        next hc =>
          rw [hc] at hup
          exact hup
        next hc =>
          rw [hc] at hup
          split
          next hm => exact hup.trans (.of_makeDirectory (.head _) hm)
          · exact hup
      · exact .refl tree _

end Makes

end Premerge.World.FileTree

import Mathlib.Tactic.Lemma
import Premerge.World.FileTree

/-! Writing a file changes what stands at one location, and every directory stays. So a path that
led to a file leads to the same file from then on, whatever else is written. -/

namespace Premerge.World.FileTree

open Premerge.Text.Utf8 (Octets)

lemma lookup_filter_ne (nodes : List (Location × Node)) {location other : Location}
    (h : other ≠ location) :
    (nodes.filter (·.1 ≠ location)).lookup other = nodes.lookup other := by
  induction nodes with
  | nil => rfl
  | cons entry rest ih =>
    obtain ⟨place, node⟩ := entry
    by_cases hp : place = location
    · have hne : (other == place) = false := by simpa [hp] using h
      rw [List.filter_cons_of_neg (by simp [hp]), List.lookup_cons, hne]
      exact ih
    · rw [List.filter_cons_of_pos (by simp [hp]), List.lookup_cons, List.lookup_cons, ih]

lemma get?_put (tree : FileTree) {location : Location} (hl : location ≠ []) (node : Node)
    (other : Location) :
    (tree.put location node).get? other = if other = location then some node else tree.get? other := by
  cases other with
  | nil => simp [get?, hl.symm]
  | cons name rest =>
    by_cases h : name :: rest = location
    · simp [get?, put, h]
    · have hne : (name :: rest == location) = false := by simpa using h
      simp only [get?, put, List.lookup_cons, hne, if_neg h]
      exact lookup_filter_ne _ h

lemma ne_nil_of_get? {tree : FileTree} {location : Location}
    (h : tree.get? location ≠ some .directory) : location ≠ [] := by
  rintro rfl
  exact h rfl

/-- Later on, what was a directory is one, and what was a file is one. -/
structure Keeps (tree after : FileTree) : Prop where
  current : after.current = tree.current
  directory {location : Location} :
    tree.get? location = some .directory → after.get? location = some .directory
  file {location : Location} {content : Octets} :
    tree.get? location = some (.file content) →
      ∃ changed, after.get? location = some (.file changed)

lemma Keeps.refl (tree : FileTree) : tree.Keeps tree :=
  ⟨rfl, id, fun h => ⟨_, h⟩⟩

lemma Keeps.trans {tree after last : FileTree} (h : tree.Keeps after) (h' : after.Keeps last) :
    tree.Keeps last := by
  refine ⟨h'.current.trans h.current, fun hd => h'.directory (h.directory hd), fun hf => ?_⟩
  obtain ⟨_, hf'⟩ := h.file hf
  exact h'.file hf'

lemma keeps_put (tree : FileTree) {location : Location} (content : Octets)
    (h : tree.get? location ≠ some .directory) : tree.Keeps (tree.put location (.file content)) := by
  have hl := ne_nil_of_get? h
  refine ⟨rfl, fun {other} hd => ?_, fun {other old} hf => ?_⟩
  · rw [get?_put tree hl]
    rw [if_neg (by rintro rfl; exact h hd)]
    exact hd
  · rw [get?_put tree hl]
    by_cases ho : other = location
    · exact ⟨content, by rw [if_pos ho]⟩
    · exact ⟨old, by rw [if_neg ho]; exact hf⟩

lemma walk_node {tree : FileTree} {parts : List String} {start location : Location}
    {node : Option Node} (h : tree.walk start parts = .ok (location, node)) :
    node = tree.get? location := by
  induction parts generalizing start with
  | nil =>
    simp only [walk, Except.ok.injEq, Prod.mk.injEq] at h
    rw [← h.2, h.1]
  | cons part rest ih =>
    simp only [walk] at h
    split at h
    · cases h
    · cases h
    · split at h
      · exact ih h
      · split at h
        · exact ih h
        · split at h
          · cases h
          · exact ih h

lemma walk_of_directories {tree after : FileTree}
    (hd : ∀ location, tree.get? location = some .directory → after.get? location = some .directory)
    {parts : List String} {start location : Location} {node : Option Node}
    (h : tree.walk start parts = .ok (location, node)) :
    after.walk start parts = .ok (location, after.get? location) := by
  induction parts generalizing start with
  | nil =>
    simp only [walk, Except.ok.injEq, Prod.mk.injEq] at h ⊢
    exact ⟨h.1, by rw [h.1]⟩
  | cons part rest ih =>
    simp only [walk] at h ⊢
    split at h
    · cases h
    · cases h
    next hs =>
      simp only [hd _ hs]
      split at h
      · rw [if_pos ‹_›]
        exact ih h
      · rw [if_neg ‹_›]
        split at h
        · rw [if_pos ‹_›]
          exact ih h
        · rw [if_neg ‹_›]
          split at h
          · cases h
          · rw [if_neg ‹_›]
            exact ih h

def pathFault? (path : Path) : Option SystemError :=
  if path.toList.contains (Char.ofNat 0) then some .nulInPath
  else if path.isEmpty then some .notFound
  else if path.utf8ByteSize ≥ pathLimit then some .nameTooLong
  else none

def startOf (tree : FileTree) (path : Path) : Location :=
  if path.isAbsolute then [] else tree.current

lemma startOf_eq {tree after : FileTree} (hc : after.current = tree.current) (path : Path) :
    after.startOf path = tree.startOf path := by
  rw [startOf, startOf, hc]

lemma locate_eq (tree : FileTree) (path : Path) :
    tree.locate path =
      match pathFault? path, tree.walk (tree.startOf path) (dropEmptyEnd path.parts) with
      | some e, _ => .error e
      | none, .error e => .error e
      | none, .ok (location, some (.file content)) =>
        if (dropEmptyEnd path.parts).length < path.parts.length then .error .notADirectory
        else .ok ⟨location, some (.file content), false⟩
      | none, .ok (location, node) =>
        .ok ⟨location, node, (dropEmptyEnd path.parts).length < path.parts.length⟩ := by
  unfold locate pathFault? startOf
  split
  · rfl
  split
  · rfl
  split
  · rfl
  dsimp only
  rcases tree.walk (if path.isAbsolute then [] else tree.current) (dropEmptyEnd path.parts) with
    e | ⟨location, _ | ⟨_ | content⟩⟩
  · rfl
  · rfl
  · rfl
  · by_cases hlt : (dropEmptyEnd path.parts).length < path.parts.length
    · simp [hlt]
    · simp [hlt]

lemma locate_eq_ok_iff {tree : FileTree} {path : Path} {location : Location}
    {node : Option Node} :
    tree.locate path = .ok ⟨location, node, false⟩ ↔
      pathFault? path = none ∧ ¬(dropEmptyEnd path.parts).length < path.parts.length ∧
        tree.walk (tree.startOf path) (dropEmptyEnd path.parts) = .ok (location, node) := by
  rw [locate_eq]
  by_cases hlt : (dropEmptyEnd path.parts).length < path.parts.length
  · rcases pathFault? path with _ | e
    · rcases tree.walk (tree.startOf path) (dropEmptyEnd path.parts) with
        e | ⟨place, _ | ⟨_ | content⟩⟩ <;> simp [hlt]
    · simp
  · rcases pathFault? path with _ | e
    · rcases tree.walk (tree.startOf path) (dropEmptyEnd path.parts) with
        e | ⟨place, _ | ⟨_ | content⟩⟩ <;> simp [hlt]
    · simp

lemma asDirectory_of_locate {tree : FileTree} {path : Path} {location : Location}
    {content : Octets} {asDirectory : Bool}
    (h : tree.locate path = .ok ⟨location, some (.file content), asDirectory⟩) :
    asDirectory = false := by
  rw [locate_eq] at h
  split at h
  · cases h
  · cases h
  · split at h
    · cases h
    · cases h
      rfl
  next hn _ _ =>
    cases h
    exact (hn content rfl).elim

lemma locate_node {tree : FileTree} {path : Path} {location : Location} {node : Option Node}
    (h : tree.locate path = .ok ⟨location, node, false⟩) : node = tree.get? location :=
  walk_node (locate_eq_ok_iff.mp h).2.2

lemma locate_of_directories {tree after : FileTree} (hc : after.current = tree.current)
    (hd : ∀ location, tree.get? location = some .directory → after.get? location = some .directory)
    {path : Path} {location : Location} {node : Option Node}
    (h : tree.locate path = .ok ⟨location, node, false⟩) :
    after.locate path = .ok ⟨location, after.get? location, false⟩ := by
  obtain ⟨hf, hlt, hw⟩ := locate_eq_ok_iff.mp h
  exact locate_eq_ok_iff.mpr ⟨hf, hlt, startOf_eq hc path ▸ walk_of_directories hd hw⟩

def Stores (tree : FileTree) (path : Path) (location : Location) (content : Octets) : Prop :=
  tree.locate path = .ok ⟨location, some (.file content), false⟩

lemma Stores.get? {tree : FileTree} {path : Path} {location : Location} {content : Octets}
    (h : tree.Stores path location content) : tree.get? location = some (.file content) :=
  (locate_node h).symm

lemma Stores.read {tree : FileTree} {path : Path} {location : Location} {content : Octets}
    (h : tree.Stores path location content) : tree.read path = .ok content := by
  rw [FileTree.read, h]

lemma Stores.keeps {tree after : FileTree} {path : Path} {location : Location}
    {content : Octets} (h : tree.Stores path location content) (hk : tree.Keeps after) :
    ∃ changed, after.Stores path location changed := by
  obtain ⟨changed, hc⟩ := hk.file h.get?
  refine ⟨changed, ?_⟩
  rw [Stores, ← hc]
  exact locate_of_directories hk.current (fun _ => hk.directory) h

def WritesAt (tree : FileTree) (path : Path) (location : Location) : Prop :=
  tree.locate path = .ok ⟨location, tree.get? location, false⟩ ∧
    tree.get? location ≠ some .directory

def contentAt (tree : FileTree) (location : Location) : Octets :=
  match tree.get? location with
  | some (.file content) => content
  | _ => []

lemma update_eq_ok_iff {tree after : FileTree} {path : Path} {change : Octets → Octets} :
    tree.update path change = .ok after ↔ ∃ location, tree.WritesAt path location ∧
      after = tree.put location (.file (change (tree.contentAt location))) := by
  constructor
  · intro h
    unfold update at h
    split at h
    · cases h
    · cases h
    next location old asDirectory hl =>
      cases asDirectory_of_locate hl
      cases h
      have hg := locate_node hl
      exact ⟨location, ⟨hg ▸ hl, by simp [← hg]⟩, by simp [contentAt, ← hg]⟩
    next location asDirectory hl =>
      split at h
      · cases h
      next hf =>
        obtain rfl : asDirectory = false := by simpa using hf
        cases h
        have hg := locate_node hl
        exact ⟨location, ⟨hg ▸ hl, by simp [← hg]⟩, by simp [contentAt, ← hg]⟩
  · rintro ⟨location, ⟨hl, hd⟩, rfl⟩
    unfold update contentAt
    rw [hl]
    rcases hg : tree.get? location with _ | ⟨_ | content⟩
    · rfl
    · exact (hd hg).elim
    · rfl

lemma write_eq_ok_iff {tree after : FileTree} {path : Path} {content : Octets} :
    tree.write path content = .ok after ↔
      ∃ location, tree.WritesAt path location ∧ after = tree.put location (.file content) :=
  update_eq_ok_iff

lemma locate_of_write {tree after : FileTree} {path : Path} {content : Octets}
    (h : tree.write path content = .ok after) :
    ∃ location node, tree.locate path = .ok ⟨location, node, false⟩ ∧
      tree.get? location ≠ some .directory ∧ after = tree.put location (.file content) := by
  obtain ⟨location, ⟨hl, hd⟩, rfl⟩ := update_eq_ok_iff.mp h
  exact ⟨location, _, hl, hd, rfl⟩

lemma read_of_locate {tree other : FileTree} {path : Path}
    (h : other.locate path = tree.locate path) : other.read path = tree.read path := by
  unfold read
  rw [h]

lemma write_error_of_locate {tree other : FileTree} {path : Path}
    (h : other.locate path = tree.locate path) {content : Octets} {e : SystemError}
    (hw : tree.write path content = .error e) : other.write path content = .error e := by
  unfold write update at hw ⊢
  rw [h]
  split at hw
  · cases hw
    rfl
  · cases hw
    rfl
  · cases hw
  · split at hw
    · cases hw
      rw [if_pos ‹_›]
    · cases hw

lemma stores_put {tree : FileTree} {path : Path} {location : Location} {node : Option Node}
    (h : tree.locate path = .ok ⟨location, node, false⟩)
    (hd : tree.get? location ≠ some .directory) (content : Octets) :
    (tree.put location (.file content)).Stores path location content := by
  have hk := keeps_put tree content hd
  have hl := locate_of_directories hk.current (fun _ => hk.directory) h
  rwa [get?_put tree (ne_nil_of_get? hd), if_pos rfl] at hl

lemma keeps_of_write {tree after : FileTree} {path : Path} {content : Octets}
    (h : tree.write path content = .ok after) : tree.Keeps after := by
  obtain ⟨location, _, _, hd, rfl⟩ := locate_of_write h
  exact keeps_put tree content hd

lemma stores_of_write {tree after : FileTree} {path : Path} {content : Octets}
    (h : tree.write path content = .ok after) : ∃ location, after.Stores path location content := by
  obtain ⟨location, _, hl, hd, rfl⟩ := locate_of_write h
  exact ⟨location, stores_put hl hd content⟩

lemma Stores.write {tree : FileTree} {path : Path} {location : Location} {old : Octets}
    (h : tree.Stores path location old) (content : Octets) :
    tree.write path content = .ok (tree.put location (.file content)) := by
  rw [FileTree.write, update, h]

lemma Stores.write_stores {tree : FileTree} {path : Path} {location : Location} {old : Octets}
    (h : tree.Stores path location old) (content : Octets) :
    (tree.put location (.file content)).Stores path location content :=
  stores_put h (by simp [h.get?]) content

end Premerge.World.FileTree

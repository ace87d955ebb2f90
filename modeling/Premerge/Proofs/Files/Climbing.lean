import Premerge.Proofs.Files.Listing

/-! Without `..` a path leads deeper than each directory it lies in, so it does not come up when these
are made. -/

namespace Premerge.World

namespace Path

def isNamed (part : String) : Bool :=
  part ≠ "" && part ≠ "."

def named (path : Path) : List String :=
  (parts path).filter isNamed

lemma noSlash_of_mem_parts {path : Path} {part : String} (h : part ∈ parts path) :
    '/' ∉ part.toList := by
  have hpieces (text : List Char) : ∀ piece ∈ Text.Line.pieces '/' text, '/' ∉ piece := by
    induction text with
    | nil => simp [Text.Line.pieces]
    | cons c rest ih =>
      unfold Text.Line.pieces
      by_cases hc : c = '/'
      · rw [if_pos hc]
        simpa using ih
      · rw [if_neg hc]
        split
        · simp [Ne.symm hc]
        next hp =>
          rw [hp] at ih
          simp only [List.forall_mem_cons] at ih ⊢
          exact ⟨by simp [Ne.symm hc, ih.1], ih.2⟩
  obtain ⟨piece, hm, rfl⟩ := List.mem_map.mp h
  simpa using hpieces _ piece hm

lemma parts_eq_cons (path : Path) : ∃ first rest, parts path = first :: rest := by
  refine List.exists_cons_of_ne_nil ?_
  simp [parts, Text.Line.pieces_ne_nil]

lemma head?_parts_of_isAbsolute {path : Path} (h : isAbsolute path = true) :
    (parts path).head? = some "" := by
  obtain ⟨rest, hr⟩ := List.head?_eq_some_iff.mp (beq_iff_eq.mp h)
  simp [parts, hr, Text.Line.pieces]

lemma filter_steps (path : Path) : (steps path).filter isNamed = named path := by
  obtain ⟨first, rest, hp⟩ := parts_eq_cons path
  have hrest : (rest.filter isNamed).filter isNamed = rest.filter isNamed := by simp
  simp only [named, steps, hp]
  split
  next hf =>
    rw [hf]
    exact hrest
  · change (first :: rest.filter isNamed).filter isNamed = _
    rw [List.filter_cons, List.filter_cons, hrest]

lemma subset_parts {path : Path} {part : String} (h : part ∈ steps path) : part ∈ parts path := by
  obtain ⟨first, rest, hp⟩ := parts_eq_cons path
  simp only [steps, hp] at h ⊢
  split at h
  · exact List.mem_cons_of_mem _ (List.mem_filter.mp h).1
  · rcases List.mem_cons.mp h with rfl | h
    · exact .head _
    · exact List.mem_cons_of_mem _ (List.mem_filter.mp h).1

lemma isNamed_of_steps {path : Path} {front : List String} {last : String}
    (h : steps path = front ++ [last]) (hf : front ≠ [] ∨ isAbsolute path = true) :
    isNamed last = true := by
  obtain ⟨first, rest, hp⟩ := parts_eq_cons path
  simp only [steps, hp] at h
  have hlast (hm : last ∈ rest.filter isNamed) : isNamed last = true := (List.mem_filter.mp hm).2
  split at h
  · refine hlast ?_
    change rest.filter isNamed = _ at h
    simp [h]
  next hne =>
    cases front with
    | nil =>
      have hempty := head?_parts_of_isAbsolute (hf.resolve_left (by simp))
      rw [hp] at hempty
      simp [hne] at hempty
    | cons other more =>
      refine hlast ?_
      change first :: rest.filter isNamed = _ at h
      simp only [List.cons_append, List.cons.injEq] at h
      simp [h.2]

def climb (start : Path) (steps : List String) : List Path :=
  steps.foldl (fun up part => join (up.headD "") part :: up) [start]

def climbed (start : Path) (steps : List String) : Path :=
  (climb start steps).headD ""

lemma climb_concat (start : Path) (steps : List String) (part : String) :
    climb start (steps ++ [part]) = join (climbed start steps) part :: climb start steps := by
  rw [climb, List.foldl_append]
  rfl

lemma climbed_concat (start : Path) (steps : List String) (part : String) :
    climbed start (steps ++ [part]) = join (climbed start steps) part := by
  rw [climbed, climb_concat]
  rfl

lemma mem_climb {start path : Path} {steps : List String} (h : path ∈ climb start steps) :
    ∃ front back, steps = front ++ back ∧ path = climbed start front := by
  induction steps using List.reverseRecOn with
  | nil => exact ⟨[], [], rfl, List.mem_singleton.mp h⟩
  | append_singleton front part ih =>
    rw [climb_concat] at h
    rcases List.mem_cons.mp h with rfl | h
    · exact ⟨front ++ [part], [], by simp, (climbed_concat start front part).symm⟩
    · obtain ⟨first, back, hs, hp⟩ := ih h
      exact ⟨first, back ++ [part], by rw [hs, List.append_assoc], hp⟩

lemma filter_lead (path : Path) : (lead path).filter isNamed = named path := by
  unfold named
  rcases parts_eq_lead path with hp | hp <;> rw [hp]
  simp [isNamed]

lemma climbed_named {start : Path} {steps : List String} (hs : named start = [])
    (hu : ".." ∉ parts start) (hp : ∀ part ∈ steps, '/' ∉ part.toList ∧ part ≠ "..") :
    named (climbed start steps) = steps.filter isNamed ∧
      isAbsolute (climbed start steps) = isAbsolute start ∧ ".." ∉ parts (climbed start steps) := by
  induction steps using List.reverseRecOn with
  | nil => exact ⟨hs, rfl, hu⟩
  | append_singleton front part ih =>
    obtain ⟨hn, ha, hup⟩ := ih fun other hm => hp other (List.mem_append_left _ hm)
    obtain ⟨hpart, hne⟩ := hp part (by simp)
    have hlead : ".." ∉ lead (climbed start front) := by
      intro hm
      rcases parts_eq_lead (climbed start front) with h | h <;> rw [h] at hup
      · exact hup hm
      · exact hup (List.mem_append_left _ hm)
    rw [climbed_concat]
    refine ⟨?_, (isAbsolute_join _ hpart).trans ha, ?_⟩
    · rw [named, parts_join _ hpart, List.filter_append, filter_lead, hn, List.filter_append]
    · rw [parts_join _ hpart]
      simp [hlead, hne.symm]

def startPath (path : Path) : Path :=
  if isAbsolute path then "/" else ""

lemma mem_ancestors_tail {path up : Path} (h : up ∈ (ancestors path).tail) :
    ∃ front back last, steps path = front ++ back ++ [last] ∧ up = climbed (startPath path) front := by
  have hclimb : up ∈ (climb (startPath path) (steps path)).tail := by
    have hempty : ∀ up : Path, up ∉ [""].tail := by simp
    unfold ancestors at h
    unfold climb startPath
    dsimp only at h
    split at h
    next hc =>
      split at h
      · exact (hempty up h).elim
      · rwa [hc]
    · simp at h
  rcases List.eq_nil_or_concat (steps path) with hs | ⟨front, last, hs⟩ <;> rw [hs] at hclimb
  · simp [climb] at hclimb
  · rw [List.concat_eq_append] at hclimb hs
    rw [climb_concat] at hclimb
    obtain ⟨first, back, rfl, hup⟩ := mem_climb hclimb
    exact ⟨first, back, last, hs, hup⟩

lemma named_of_mem_ancestors {path up : Path} (hp : ".." ∉ parts path)
    (h : up ∈ (ancestors path).tail) (hu : up ≠ "") :
    isAbsolute up = isAbsolute path ∧ ".." ∉ parts up ∧
      (named up).length < (named path).length := by
  obtain ⟨front, back, last, hs, rfl⟩ := mem_ancestors_tail h
  have hsteps : ∀ part ∈ front, '/' ∉ part.toList ∧ part ≠ ".." := by
    intro part hm
    have hmem : part ∈ parts path := subset_parts (by simp [hs, hm])
    exact ⟨noSlash_of_mem_parts hmem, fun he => hp (he ▸ hmem)⟩
  have hstart : named (startPath path) = [] ∧ ".." ∉ parts (startPath path) ∧
      isAbsolute (startPath path) = isAbsolute path := by
    unfold startPath
    cases isAbsolute path <;> decide
  obtain ⟨hn, ha, hup⟩ := climbed_named hstart.1 hstart.2.1 hsteps
  refine ⟨ha.trans hstart.2.2, hup, ?_⟩
  -- The last step is named: a dot can only be the first one, and then nothing lies above but "".
  have hlast : isNamed last = true := by
    refine isNamed_of_steps hs ?_
    cases hab : isAbsolute path with
    | true => exact .inr rfl
    | false =>
      refine .inl fun hnil => hu ?_
      obtain ⟨rfl, _⟩ := List.append_eq_nil_iff.mp hnil
      simp [climbed, climb, startPath, hab]
  rw [hn, ← filter_steps path, hs]
  simp [hlast]

end Path

namespace FileTree

lemma walk_plain {tree : FileTree} {parts : List String} {start location : Location}
    {node : Option Node} (hp : ".." ∉ parts) (h : tree.walk start parts = .ok (location, node)) :
    location = start ++ parts.filter Path.isNamed := by
  induction parts generalizing start with
  | nil =>
    cases h
    simp
  | cons part rest ih =>
    simp only [List.mem_cons, not_or] at hp
    simp only [walk] at h
    split at h
    · cases h
    · cases h
    · split at h
      next hdot =>
        have hn : ¬Path.isNamed part = true := by
          rcases hdot with rfl | rfl <;> decide
        rw [ih hp.2 h, List.filter_cons_of_neg hn]
      next hdot =>
        rw [if_neg (Ne.symm hp.1)] at h
        split at h
        · cases h
        · rw [ih hp.2 h, List.filter_cons_of_pos (by simpa [Path.isNamed] using hdot)]
          simp

lemma IsTree.of_append {tree : FileTree} (h : tree.IsTree) {start more : Location}
    (hd : tree.get? (start ++ more) = some .directory) : tree.get? start = some .directory := by
  induction more using List.reverseRecOn with
  | nil => simpa using hd
  | append_singleton front name ih =>
    rw [← List.append_assoc] at hd
    exact ih (h.parent (Option.ne_none_iff_exists'.mpr ⟨_, hd⟩))

lemma IsTree.walk_plain {tree after : FileTree} (h : tree.IsTree) {parts : List String}
    {start location : Location} (hp : ".." ∉ parts)
    (hd : tree.get? location = some .directory)
    (hw : after.walk start parts = .ok (location, some .directory)) :
    tree.walk start parts = .ok (location, some .directory) := by
  induction parts generalizing start with
  | nil =>
    simp only [walk, Except.ok.injEq, Prod.mk.injEq] at hw ⊢
    exact ⟨hw.1, hw.1 ▸ hd⟩
  | cons part rest ih =>
    have hl := FileTree.walk_plain hp hw
    have hs : tree.get? start = some .directory := h.of_append (hl ▸ hd)
    simp only [List.mem_cons, not_or] at hp
    simp only [walk, hs] at hw ⊢
    split at hw
    · cases hw
    · cases hw
    · split at hw
      · rw [if_pos ‹_›]
        exact ih hp.2 hw
      · rw [if_neg ‹_›]
        rw [if_neg (Ne.symm hp.1)] at hw ⊢
        split at hw
        · cases hw
        · rw [if_neg ‹_›]
          exact ih hp.2 hw

/-- The path leads nowhere, and to a directory once those are made that it lies in, as `new/..`
does. -/
def IsByway (tree : FileTree) (path : Path) : Prop :=
  tree.pathExists path = false ∧ (tree.makeChain path.ancestors.tail).2.isDirectory path = true

lemma leadsTo_of_isDirectory {tree : FileTree} {path : Path} (h : tree.isDirectory path = true) :
    ∃ location, tree.LeadsTo path location := by
  unfold isDirectory at h
  split at h
  next location asDirectory hl => exact ⟨location, asDirectory, hl⟩
  · cases h

lemma LeadsTo.plain {tree : FileTree} {path : Path} {location : Location}
    (h : tree.LeadsTo path location) (hp : ".." ∉ path.parts) :
    location = tree.startOf path ++ path.named :=
  FileTree.walk_plain hp (walk_dropEmptyEnd (walk_of_leadsTo h).2)

lemma IsTree.pathExists_of_leadsTo {tree after : FileTree} (ht : tree.IsTree)
    (hc : after.current = tree.current) {path : Path} {location : Location}
    (hl : after.LeadsTo path location) (hp : ".." ∉ path.parts)
    (hd : tree.get? location = some .directory) : tree.pathExists path = true := by
  obtain ⟨hf, hw⟩ := walk_of_leadsTo hl
  rw [startOf_eq hc] at hw
  have hbefore := ht.walk_plain (fun hm => hp (mem_of_mem_dropEmptyEnd hm)) hd hw
  rw [pathExists, locate_eq, hf, hbefore]

lemma IsTree.not_isByway {tree : FileTree} (ht : tree.IsTree) {path : Path}
    (hp : ".." ∉ path.parts) : ¬tree.IsByway path := by
  rintro ⟨hx, hd⟩
  obtain ⟨location, hl⟩ := leadsTo_of_isDirectory hd
  have hm := Makes.of_makeChain tree path.ancestors.tail
  rcases hm.same_or_made location with hs | ⟨_, _, up, hup, hleads⟩
  · -- It was there before, so the path led to it.
    have hold : tree.get? location = some .directory := hs ▸ (walk_node (walk_of_leadsTo hl).2).symm
    rw [ht.pathExists_of_leadsTo hm.current hl hp hold] at hx
    cases hx
  · -- It was made for a directory that the path lies in, which lies less deep.
    have hne : up ≠ "" := by
      rintro rfl
      obtain ⟨_, hempty⟩ := hleads
      cases hempty
    obtain ⟨ha, hpu, hlt⟩ := Path.named_of_mem_ancestors hp hup hne
    have hplaces := (hleads.plain hpu).symm.trans (hl.plain hp)
    rw [FileTree.startOf, FileTree.startOf, ha] at hplaces
    rw [List.append_cancel_left hplaces] at hlt
    exact Nat.lt_irrefl _ hlt

end FileTree

end Premerge.World

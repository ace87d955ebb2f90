namespace Premerge.Data

def insertSorted {α : Type} (name : String) (value : α) :
    List (String × α) → List (String × α)
  | [] => [(name, value)]
  | (other, old) :: rest =>
    if name = other then (name, value) :: rest
    else if name < other then (name, value) :: (other, old) :: rest
    else (other, old) :: insertSorted name value rest

theorem mem_insertSorted {α : Type} {name : String} {value : α} {entries : List (String × α)}
    {e : String × α} (h : e ∈ insertSorted name value entries) :
    e = (name, value) ∨ e ∈ entries := by
  induction entries with
  | nil => simpa [insertSorted] using h
  | cons head rest ih =>
    obtain ⟨other, old⟩ := head
    simp only [insertSorted] at h
    split at h
    · simp at h ⊢; grind
    · split at h
      · simpa using h
      · simp at h ⊢; grind

theorem pairwise_insertSorted {α : Type} (name : String) (value : α)
    {entries : List (String × α)} (h : entries.Pairwise (·.1 < ·.1)) :
    (insertSorted name value entries).Pairwise (·.1 < ·.1) := by
  induction entries with
  | nil => simp [insertSorted]
  | cons head rest ih =>
    obtain ⟨other, old⟩ := head
    have ⟨hhead, hrest⟩ := List.pairwise_cons.mp h
    simp only [insertSorted]
    split
    next he =>
      subst he
      exact List.pairwise_cons.mpr ⟨hhead, hrest⟩
    next he =>
      split
      next hlt =>
        refine List.pairwise_cons.mpr ⟨fun e he' => ?_, h⟩
        rcases List.mem_cons.mp he' with rfl | hmem
        · exact hlt
        · exact String.lt_trans hlt (hhead e hmem)
      next hlt =>
        refine List.pairwise_cons.mpr ⟨fun e he' => ?_, ih hrest⟩
        rcases mem_insertSorted he' with rfl | hmem
        · by_cases hgt : other < name
          · exact hgt
          · exact absurd (String.le_antisymm (String.not_lt.mp hgt) (String.not_lt.mp hlt)) he
        · exact hhead e hmem

theorem lookup_cons_eq {α : Type} (name : String) (value : α) (entries : List (String × α))
    (other : String) : ((name, value) :: entries).lookup other =
      if other = name then some value else entries.lookup other := by
  by_cases h : other = name
  · simp [h]
  · simp [List.lookup_cons, beq_false_of_ne h, h]

theorem lookup_of_mem {κ α : Type} [BEq κ] [LawfulBEq κ] {entries : List (κ × α)} {key : κ} {value : α}
    (hp : entries.Pairwise fun a b => a.1 ≠ b.1) (hm : (key, value) ∈ entries) :
    entries.lookup key = some value := by
  induction hp with
  | nil => cases hm
  | @cons entry rest hne _ ih =>
    obtain ⟨first, head⟩ := entry
    rcases List.mem_cons.mp hm with he | hm
    · cases he
      simp
    · have hf : (key == first) = false := by simpa using (hne _ hm).symm
      rw [List.lookup_cons, hf]
      exact ih hm

theorem find?_eq_some_iff_of_nodup {κ α : Type} [BEq κ] [LawfulBEq κ] {name : α → κ} {items : List α}
    (hn : (items.map name).Nodup) {key : κ} {item : α} :
    items.find? (name · == key) = some item ↔ item ∈ items ∧ name item = key := by
  induction items with
  | nil => simp
  | cons first rest ih =>
    obtain ⟨hfirst, hrest⟩ := List.nodup_cons.mp hn
    by_cases hk : name first = key
    · rw [List.find?_cons_of_pos (by simpa using hk), Option.some_inj]
      constructor
      · rintro rfl
        exact ⟨List.mem_cons_self, hk⟩
      · rintro ⟨hm, hi⟩
        rcases List.mem_cons.mp hm with rfl | hm
        · rfl
        · exact absurd (List.mem_map.mpr ⟨item, hm, hi.trans hk.symm⟩) hfirst
    · rw [List.find?_cons_of_neg (by simpa using hk), ih hrest]
      refine ⟨fun ⟨hm, hi⟩ => ⟨.tail _ hm, hi⟩, fun ⟨hm, hi⟩ => ⟨?_, hi⟩⟩
      exact (List.mem_cons.mp hm).resolve_left fun he => hk (he ▸ hi)

theorem lookup_insertSorted {α : Type} (name : String) (value : α) (entries : List (String × α))
    (other : String) :
    (insertSorted name value entries).lookup other =
      if other = name then some value else entries.lookup other := by
  induction entries with
  | nil => rw [insertSorted, lookup_cons_eq]
  | cons head rest ih =>
    obtain ⟨first, old⟩ := head
    rw [insertSorted]
    split
    next he =>
      subst he
      simp only [lookup_cons_eq]
      split <;> rfl
    next he =>
      split
      · rw [lookup_cons_eq]
      · simp only [lookup_cons_eq, ih]
        grind

theorem insertSorted_of_lt {α : Type} {name : String} {entries : List (String × α)}
    (h : ∀ entry ∈ entries, entry.1 < name) (value : α) :
    insertSorted name value entries = entries ++ [(name, value)] := by
  induction entries with
  | nil => rfl
  | cons entry entries ih =>
    obtain ⟨other, old⟩ := entry
    rw [List.forall_mem_cons] at h
    have hne : name ≠ other := (String.ne_of_lt h.1).symm
    rw [insertSorted, if_neg hne, if_neg (String.lt_asymm h.1), ih h.2, List.cons_append]

structure NameMap (α : Type) where
  entries : List (String × α)
  ascending : entries.Pairwise (·.1 < ·.1)
  deriving Repr

namespace NameMap

variable {α : Type}

instance [DecidableEq α] : DecidableEq (NameMap α) := fun a b =>
  if h : a.entries = b.entries then
    isTrue (by cases a; cases b; simp_all)
  else
    isFalse (by intro he; exact h (by rw [he]))

def empty : NameMap α := ⟨[], .nil⟩

instance : Inhabited (NameMap α) := ⟨empty⟩

def insert (m : NameMap α) (name : String) (value : α) : NameMap α :=
  ⟨insertSorted name value m.entries, pairwise_insertSorted name value m.ascending⟩

def find? (m : NameMap α) (name : String) : Option α :=
  m.entries.lookup name

def names (m : NameMap α) : List String :=
  m.entries.map (·.1)

def values (m : NameMap α) : List α :=
  m.entries.map (·.2)

theorem find?_insert (m : NameMap α) (name : String) (value : α) (other : String) :
    (m.insert name value).find? other = if other = name then some value else m.find? other :=
  lookup_insertSorted name value m.entries other

theorem find?_eq_some_iff {m : NameMap α} {name : String} {value : α} :
    m.find? name = some value ↔ (name, value) ∈ m.entries := by
  constructor
  · intro h
    obtain ⟨front, back, he, _⟩ := List.lookup_eq_some_iff.mp h
    simp [he]
  · exact lookup_of_mem (m.ascending.imp String.ne_of_lt)

/-- The map of some entries; of two for one name the later counts. -/
def ofList (entries : List (String × α)) : NameMap α :=
  entries.foldl (fun m (name, value) => m.insert name value) empty

theorem entries_foldl_insert {entries : List (String × α)} {m : NameMap α}
    (h : (m.entries ++ entries).Pairwise (·.1 < ·.1)) :
    (entries.foldl (fun m (name, value) => m.insert name value) m).entries = m.entries ++ entries := by
  induction entries generalizing m with
  | nil => simp
  | cons entry entries ih =>
    have hbefore : ∀ other ∈ m.entries, other.1 < entry.1 :=
      fun other hm => (List.pairwise_append.mp h).2.2 other hm entry List.mem_cons_self
    have hinsert : (m.insert entry.1 entry.2).entries = m.entries ++ [entry] :=
      insertSorted_of_lt hbefore entry.2
    rw [List.append_cons, ← hinsert] at h
    rw [List.foldl_cons, ih h, hinsert, ← List.append_cons]

theorem ofList_entries (m : NameMap α) : ofList m.entries = m := by
  have hsame : (ofList m.entries).entries = [] ++ m.entries := entries_foldl_insert m.ascending
  cases ho : ofList m.entries
  cases m
  simpa [ho] using hsame

end NameMap

end Premerge.Data

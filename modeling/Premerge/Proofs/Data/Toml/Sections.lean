import Mathlib.Data.List.Nodup
import Premerge.Proofs.Data.Toml.Lines
import Premerge.Proofs.Data.Toml.Range

namespace Premerge.Data.Toml

def plainEntries (entries : List (String × Value)) : List (String × Value) :=
  entries.filter fun (_, value) => !isSection value && !isNull value

def sectionEntries (entries : List (String × Value)) : List (String × Value) :=
  entries.filter fun (_, value) => isSection value

/-- What may stand in a table: nothing, a plain value, a table with something to show for itself, or
a list of tables. -/
def IsEntry (isInner : List (String × Value) → Prop) (value : Value) : Prop :=
  value = .null ∨ IsPlain value ∨
    (∃ inner, value = .table inner ∧ (inner = [] ∨ plainEntries inner ≠ []) ∧ isInner inner) ∨
    ∃ rows, rows ≠ [] ∧ value = .list (rows.map .table) ∧ ∀ row ∈ rows, isInner row

def IsDocument : Nat → List (String × Value) → Prop
  | 0, _ => False
  | n + 1, entries =>
    (entries.map Prod.fst).Nodup ∧ ∀ entry ∈ entries, IsEntry (IsDocument n) entry.2

def onTables (change : List (String × Value) → List (String × Value)) : Value → Value
  | .table entries => .table (change entries)
  | .list items => .list (items.map fun
    | .table entries => .table (change entries)
    | item => item)
  | value => value

/-- What a table of at most `n` levels is read back as. -/
def settled : Nat → List (String × Value) → List (String × Value)
  | 0, _ => []
  | n + 1, entries =>
    plainEntries entries ++ (sectionEntries entries).map fun (name, value) =>
      (name, onTables (settled n) value)

lemma isPlain_cases {v : Value} (h : IsPlain v) : isSection v = false ∧ isNull v = false := by
  rcases h with h | ⟨items, rfl, hitems⟩
  · cases v <;> first | exact ⟨rfl, rfl⟩ | exact h.elim
  · cases items with
    | nil => exact ⟨rfl, rfl⟩
    | cons item items =>
      have hitem := hitems item List.mem_cons_self
      refine ⟨?_, rfl⟩
      cases item <;> first | rfl | exact hitem.elim

lemma plainEntries_of_isPlain {entries : List (String × Value)}
    (h : ∀ entry ∈ entries, IsPlain entry.2) : plainEntries entries = entries := by
  rw [plainEntries, List.filter_eq_self]
  intro entry hm
  obtain ⟨hsection, hnull⟩ := isPlain_cases (h entry hm)
  simp only [hsection, hnull, Bool.not_false, Bool.and_self]

lemma settled_of_isPlain {entries : List (String × Value)} (h : ∀ entry ∈ entries, IsPlain entry.2)
    {n : Nat} : settled (n + 1) entries = entries := by
  have hnone : sectionEntries entries = [] := by
    rw [sectionEntries, List.filter_eq_nil_iff]
    intro entry hm
    simp only [(isPlain_cases (h entry hm)).1, Bool.false_eq_true, not_false_eq_true]
  rw [settled, plainEntries_of_isPlain h, hnone, List.map_nil, List.append_nil]

lemma isSection_rows {rows : List (List (String × Value))} (h : rows ≠ []) :
    isSection (.list (rows.map .table)) = true := by
  obtain ⟨row, more, rfl⟩ := List.exists_cons_of_ne_nil h
  simp [isSection, isTable]

lemma sectionsOf_of_not_isSection {v : Value} (h : isSection v = false) (path : List String) :
    sectionsOf path v = [] := by
  cases v with
  | table _ => cases h
  | list items => rw [sectionsOf, h, if_neg Bool.false_ne_true]
  | _ => rfl

lemma plainLines_eq (entries : List (String × Value)) :
    plainLines entries = ((plainEntries entries).map fun e => Line.entry e.1 e.2).map Line.text := by
  rw [plainLines, plainEntries, List.map_map]
  rfl

def leaves (entries : List (String × Value)) : Entries :=
  entries.map fun e => (e.1, .leaf e.2)

lemma entryValues_append (entries more : Entries) :
    entryValues (entries ++ more) = entryValues entries ++ entryValues more := by
  simp only [entryValues_eq_map, List.map_append]

lemma entryValues_leaves (entries : List (String × Value)) : entryValues (leaves entries) = entries := by
  rw [entryValues_eq_map, leaves, List.map_map]
  exact List.map_id entries

lemma rowValues_append (earlier : List Entries) (done more : List Value) :
    rowValues earlier (done ++ more) = rowValues earlier done ++ more := by
  simp only [rowValues_eq, List.append_assoc]

lemma lookup_eq_none {α : Type} {entries : List (String × α)} {name : String}
    (h : name ∉ entries.map Prod.fst) : entries.lookup name = none := by
  rw [List.lookup_eq_none_iff]
  intro entry hm
  rw [bne_iff_ne]
  rintro rfl
  exact h (List.mem_map_of_mem hm)

lemma lookup_append_self {α : Type} {entries : List (String × α)} {name : String}
    (h : entries.lookup name = none) (value : α) :
    (entries ++ [(name, value)]).lookup name = some value := by
  simp [List.lookup_append, h]

lemma put_append_self {α : Type} {entries : List (String × α)} {name : String}
    (h : entries.lookup name = none) (old value : α) :
    put (entries ++ [(name, old)]) name value = entries ++ [(name, value)] := by
  induction entries with
  | nil => simp [put]
  | cons entry entries ih =>
    obtain ⟨other, held⟩ := entry
    rw [lookup_cons_eq] at h
    split at h
    · cases h
    next hne => simp [put, Ne.symm hne, ih h]

/-- The table at the path can be changed by itself, and leaves the rest of the document as it is. -/
def Focus (fill : Entries → Entries) (path : List String) : Prop :=
  ∀ change more inner, alter .implied change (path ++ more) .declared (fill inner) =
    (alter .implied change more .declared inner).map fill

lemma Focus.root : Focus id [] := by
  intro change more inner
  simp

lemma Focus.here {fill : Entries → Entries} {path : List String} (h : Focus fill path)
    (change : Origin → Entries → Option Entries) (inner : Entries) :
    alter .implied change path .declared (fill inner) = (change .declared inner).map fill := by
  have hfocus := h change [] inner
  rwa [List.append_nil] at hfocus

namespace Focus

variable {fill : Entries → Entries} {path : List String} (h : Focus fill path) {done : Entries}
  {name : String} (hn : done.lookup name = none)

include h hn

lemma table : Focus (fun inner => fill (done ++ [(name, .table .declared inner)])) (path ++ [name]) := by
  intro change more inner
  rw [List.append_assoc, h]
  simp only [List.cons_append, List.nil_append, alter, lookup_append_self hn, reduceCtorEq, false_and,
    if_false, Option.map_map]
  congr 1
  funext x
  simp [put_append_self hn]

lemma row (earlier : List Entries) :
    Focus (fun inner => fill (done ++ [(name, .rows inner earlier)])) (path ++ [name]) := by
  intro change more inner
  rw [List.append_assoc, h]
  simp only [List.cons_append, List.nil_append, alter, lookup_append_self hn, Option.map_map]
  congr 1
  funext x
  simp [put_append_self hn]

end Focus

lemma Focus.applyAll_entries {fill : Entries → Entries} {path : List String} (h : Focus fill path)
    (entries : List (String × Value)) {done : Entries}
    (hn : (done.map Prod.fst ++ entries.map Prod.fst).Nodup) :
    Line.applyAll ⟨fill done, path⟩ (entries.map fun e => .entry e.1 e.2) =
      some ⟨fill (done ++ leaves entries), path⟩ := by
  induction entries generalizing done with
  | nil => simp [Line.applyAll, leaves]
  | cons entry entries ih =>
    obtain ⟨name, value⟩ := entry
    have hname : done.lookup name = none := by
      refine lookup_eq_none fun hm => ?_
      exact (List.disjoint_of_nodup_append hn) hm List.mem_cons_self
    have hadd : addBelow path [] name value (fill done) = some (fill (done ++ [(name, .leaf value)])) := by
      rw [addBelow, h.here]
      simp [alter, addValue, hname]
    have hrest : Line.applyAll ⟨fill (done ++ [(name, .leaf value)]), path⟩
        (entries.map fun e => .entry e.1 e.2) =
          some ⟨fill (done ++ [(name, .leaf value)] ++ leaves entries), path⟩ :=
      ih (by simpa using hn)
    rw [List.map_cons, Line.applyAll, Line.apply, hadd]
    simpa [leaves] using hrest

def Builds (before after : Entries) (sections : List Section) : Prop :=
  ∃ parts : List Part, sections = parts.map Part.toSection ∧
    (∀ line ∈ parts.flatMap Part.lines, line.IsReadable) ∧
    ∀ header, ∃ header', Line.applyAll ⟨before, header⟩ (parts.flatMap Part.lines) =
      some ⟨after, header'⟩

lemma Builds.nil (entries : Entries) : Builds entries entries [] :=
  ⟨[], rfl, by simp, fun header => ⟨header, rfl⟩⟩

lemma Builds.append {before between after : Entries} {sections more : List Section}
    (h : Builds before between sections) (h' : Builds between after more) :
    Builds before after (sections ++ more) := by
  obtain ⟨parts, rfl, hread, happly⟩ := h
  obtain ⟨parts', rfl, hread', happly'⟩ := h'
  refine ⟨parts ++ parts', by rw [List.map_append], ?_, fun header => ?_⟩
  · rw [List.flatMap_append, List.forall_mem_append]
    exact ⟨hread, hread'⟩
  · obtain ⟨header₁, h₁⟩ := happly header
    obtain ⟨header₂, h₂⟩ := happly' header₁
    refine ⟨header₂, ?_⟩
    rw [List.flatMap_append, Line.applyAll_append, h₁]
    exact h₂

lemma Focus.builds {fill : Entries → Entries} {path : List String} (h : Focus fill path)
    {before : Entries} {head : Line} (hread : head.IsReadable)
    (hhead : ∀ header, head.apply ⟨before, header⟩ = some ⟨fill [], path⟩)
    {entries : List (String × Value)} (hn : (entries.map Prod.fst).Nodup)
    (hplain : ∀ entry ∈ plainEntries entries, IsPlain entry.2) :
    Builds before (fill (leaves (plainEntries entries))) [⟨head.text, plainLines entries⟩] := by
  have hnodup : ((plainEntries entries).map Prod.fst).Nodup :=
    (List.filter_sublist.map Prod.fst).nodup hn
  refine ⟨[⟨head, (plainEntries entries).map fun e => .entry e.1 e.2⟩], ?_, ?_, fun header => ⟨path, ?_⟩⟩
  · rw [plainLines_eq]
    rfl
  · simp only [List.flatMap_cons, List.flatMap_nil, List.append_nil, Part.lines]
    rw [List.forall_mem_cons]
    refine ⟨hread, fun line hm => ?_⟩
    obtain ⟨entry, he, rfl⟩ := List.mem_map.mp hm
    exact hplain entry he
  · simp only [List.flatMap_cons, List.flatMap_nil, List.append_nil, Part.lines]
    rw [Line.applyAll, hhead, Option.bind_some, h.applyAll_entries _ (by simpa using hnodup)]
    rfl

lemma IsDocument.nodup {n : Nat} {entries : List (String × Value)} (h : IsDocument n entries) :
    (entries.map Prod.fst).Nodup := by
  cases n with
  | zero => exact h.elim
  | succ n => exact h.1

lemma IsDocument.isPlain {n : Nat} {entries : List (String × Value)} (h : IsDocument n entries) :
    ∀ entry ∈ plainEntries entries, IsPlain entry.2 := by
  intro entry hm
  cases n with
  | zero => exact h.elim
  | succ n =>
    simp only [plainEntries, List.mem_filter, Bool.and_eq_true, Bool.not_eq_true'] at hm
    obtain ⟨hm, hsection, hnull⟩ := hm
    rcases h.2 entry hm with hv | hv | ⟨inner, hv, _⟩ | ⟨rows, hne, hv, _⟩
    · rw [hv] at hnull
      cases hnull
    · exact hv
    · rw [hv] at hsection
      cases hsection
    · rw [hv, isSection_rows hne] at hsection
      cases hsection

def BuildsSections (n : Nat) : Prop :=
  ∀ entries fill path, IsDocument n entries → Focus fill path → path.length + n ≤ depthLimit →
    ∃ nodes, entryValues (leaves (plainEntries entries) ++ nodes) = settled n entries ∧
      Builds (fill (leaves (plainEntries entries))) (fill (leaves (plainEntries entries) ++ nodes))
        (sections path entries)

section

variable {n : Nat} (ih : BuildsSections n) {fill : Entries → Entries} {path : List String}

include ih

lemma builds_inner (h : Focus fill path) (hp : path.length + n ≤ depthLimit) {before : Entries}
    {head : Line} (hread : head.IsReadable)
    (hhead : ∀ header, head.apply ⟨before, header⟩ = some ⟨fill [], path⟩)
    {entries : List (String × Value)} (hd : IsDocument n entries) :
    ∃ inner, entryValues inner = settled n entries ∧
      Builds before (fill inner) (⟨head.text, plainLines entries⟩ :: sections path entries) := by
  obtain ⟨nodes, hvalues, hbuilds⟩ := ih entries fill path hd h hp
  exact ⟨_, hvalues, (h.builds hread hhead hd.nodup hd.isPlain).append hbuilds⟩

variable (h : Focus fill path) (hp : path.length + n < depthLimit) {done : Entries} {name : String}
  (hn : done.lookup name = none)

include h hp hn

lemma builds_table {entries : List (String × Value)} (hd : IsDocument n entries)
    (hshow : entries = [] ∨ plainEntries entries ≠ []) :
    ∃ inner, entryValues inner = settled n entries ∧
      Builds (fill done) (fill (done ++ [(name, .table .declared inner)]))
        (sectionsOf (path ++ [name]) (.table entries)) := by
  have hlength : (path ++ [name]).length + n ≤ depthLimit := by
    rw [List.length_append, List.length_singleton]
    omega
  have hread : (Line.table path name).IsReadable := by
    show path.length < depthLimit
    omega
  have hhead : ∀ header, (Line.table path name).apply ⟨fill done, header⟩ =
      some ⟨fill (done ++ [(name, .table .declared [])]), path ++ [name]⟩ := by
    intro header
    dsimp only [Line.apply]
    rw [addTable, h.here]
    simp [hn]
  have hsections : sectionsOf (path ++ [name]) (.table entries) =
      ⟨(Line.table path name).text, plainLines entries⟩ :: sections (path ++ [name]) entries := by
    have hown : ((plainLines entries).isEmpty && !entries.isEmpty) = false := by
      rcases hshow with rfl | hne
      · rfl
      · rw [plainLines_eq]
        simp [hne]
    rw [sectionsOf, hown]
    rfl
  rw [hsections]
  exact builds_inner ih (h.table hn) hlength hread hhead hd

lemma builds_row {before : Entries} {earlier : List Entries}
    (hadd : addRow path name before = some (fill (done ++ [(name, .rows [] earlier)])))
    {row : List (String × Value)} (hd : IsDocument n row) :
    ∃ inner, entryValues inner = settled n row ∧
      Builds before (fill (done ++ [(name, .rows inner earlier)]))
        (⟨"[[" ++ dottedKey (path ++ [name]) ++ "]]", plainLines row⟩ :: sections (path ++ [name]) row) := by
  have hlength : (path ++ [name]).length + n ≤ depthLimit := by
    rw [List.length_append, List.length_singleton]
    omega
  have hread : (Line.row path name).IsReadable := by
    show path.length < depthLimit
    omega
  have hhead : ∀ header, (Line.row path name).apply ⟨before, header⟩ =
      some ⟨fill (done ++ [(name, .rows [] earlier)]), path ++ [name]⟩ := by
    intro header
    rw [Line.apply, hadd]
    rfl
  exact builds_inner ih (h.row hn earlier) hlength hread hhead hd

lemma builds_more_rows {rows : List (List (String × Value))} (hd : ∀ row ∈ rows, IsDocument n row)
    (latest : Entries) (earlier : List Entries) :
    ∃ latest' earlier', rowValues earlier' [.table (entryValues latest')] =
        rowValues earlier [.table (entryValues latest)] ++ rows.map (fun row => .table (settled n row)) ∧
      Builds (fill (done ++ [(name, .rows latest earlier)]))
        (fill (done ++ [(name, .rows latest' earlier')])) (rowSections (path ++ [name]) (rows.map .table)) := by
  -- Each row makes the latest table of the list an earlier one, which nothing is added to any more.
  induction rows generalizing latest earlier with
  | nil => exact ⟨latest, earlier, by simp, .nil _⟩
  | cons row rows hrows =>
    rw [List.forall_mem_cons] at hd
    have hadd : addRow path name (fill (done ++ [(name, .rows latest earlier)])) =
        some (fill (done ++ [(name, .rows [] (latest :: earlier))])) := by
      rw [addRow, h.here]
      simp [lookup_append_self hn, put_append_self hn]
    obtain ⟨inner, hinner, hrow⟩ := builds_row ih h hp hn hadd hd.1
    obtain ⟨latest', earlier', hvalues, hmore⟩ := hrows hd.2 inner (latest :: earlier)
    refine ⟨latest', earlier', ?_, hrow.append hmore⟩
    have hsnoc := rowValues_append earlier [.table (entryValues latest)] [.table (settled n row)]
    rw [hvalues, rowValues, hinner, List.map_cons, List.append_cons, ← hsnoc]
    rfl

lemma builds_rows {rows : List (List (String × Value))} (hne : rows ≠ [])
    (hd : ∀ row ∈ rows, IsDocument n row) :
    ∃ latest earlier, rowValues earlier [.table (entryValues latest)] =
        rows.map (fun row => .table (settled n row)) ∧
      Builds (fill done) (fill (done ++ [(name, .rows latest earlier)]))
        (sectionsOf (path ++ [name]) (.list (rows.map .table))) := by
  obtain ⟨row, rows, rfl⟩ := List.exists_cons_of_ne_nil hne
  rw [List.forall_mem_cons] at hd
  have hadd : addRow path name (fill done) = some (fill (done ++ [(name, .rows [] [])])) := by
    rw [addRow, h.here]
    simp [hn]
  obtain ⟨inner, hinner, hrow⟩ := builds_row ih h hp hn hadd hd.1
  obtain ⟨latest, earlier, hvalues, hmore⟩ := builds_more_rows ih h hp hn hd.2 inner []
  refine ⟨latest, earlier, ?_, ?_⟩
  · rw [hvalues, rowValues, hinner, List.map_cons]
    rfl
  · rw [sectionsOf, if_pos (isSection_rows hne)]
    exact hrow.append hmore

lemma builds_entry {value : Value} (he : IsEntry (IsDocument n) value)
    (hs : isSection value = true) :
    ∃ node : Node, node.toValue = onTables (settled n) value ∧
      Builds (fill done) (fill (done ++ [(name, node)])) (sectionsOf (path ++ [name]) value) := by
  rcases he with rfl | hplain | ⟨entries, rfl, hshow, hd⟩ | ⟨rows, hne, rfl, hd⟩
  · cases hs
  · rw [(isPlain_cases hplain).1] at hs
    cases hs
  · obtain ⟨inner, hinner, hbuilds⟩ := builds_table ih h hp hn hd hshow
    exact ⟨_, by rw [Node.toValue, hinner, onTables], hbuilds⟩
  · obtain ⟨latest, earlier, hrows, hbuilds⟩ := builds_rows ih h hp hn hne hd
    exact ⟨_, by rw [Node.toValue, hrows, onTables, List.map_map]; rfl, hbuilds⟩

omit hn

lemma builds_entries {entries : List (String × Value)}
    (he : ∀ entry ∈ entries, IsEntry (IsDocument n) entry.2)
    (hnodup : (done.map Prod.fst ++ (sectionEntries entries).map Prod.fst).Nodup) :
    ∃ nodes, entryValues nodes =
        (sectionEntries entries).map (fun (name, value) => (name, onTables (settled n) value)) ∧
      Builds (fill done) (fill (done ++ nodes)) (sections path entries) := by
  -- A section leaves one node behind those that are done, under a name that none of them has.
  induction entries generalizing done with
  | nil => exact ⟨[], rfl, by simpa [sections] using Builds.nil (fill done)⟩
  | cons entry entries hrest =>
    obtain ⟨name, value⟩ := entry
    rw [List.forall_mem_cons] at he
    rw [sections]
    cases hs : isSection value with
    | false =>
      have hsections : sectionEntries ((name, value) :: entries) = sectionEntries entries := by
        simp [sectionEntries, hs]
      rw [hsections] at hnodup ⊢
      rw [sectionsOf_of_not_isSection hs]
      exact hrest he.2 hnodup
    | true =>
      have hsections : sectionEntries ((name, value) :: entries) =
          (name, value) :: sectionEntries entries := by
        simp [sectionEntries, hs]
      rw [hsections] at hnodup ⊢
      have hn : done.lookup name = none :=
        lookup_eq_none fun hm => List.disjoint_of_nodup_append hnodup hm List.mem_cons_self
      obtain ⟨node, hnode, hentry⟩ := builds_entry ih h hp hn he.1 hs
      have hdone : ((done ++ [(name, node)]).map Prod.fst ++
          (sectionEntries entries).map Prod.fst).Nodup := by
        simpa using hnodup
      obtain ⟨nodes, hnodes, hmore⟩ := hrest he.2 hdone
      refine ⟨(name, node) :: nodes, by rw [entryValues, hnode, hnodes, List.map_cons], ?_⟩
      rw [List.append_cons]
      exact hentry.append hmore

end

lemma nodup_plain_section {entries : List (String × Value)} (h : (entries.map Prod.fst).Nodup) :
    ((plainEntries entries).map Prod.fst ++ (sectionEntries entries).map Prod.fst).Nodup := by
  refine List.nodup_append'.mpr ⟨(List.filter_sublist.map _).nodup h, (List.filter_sublist.map _).nodup h, ?_⟩
  intro name hplain hsection
  obtain ⟨entry, he, rfl⟩ := List.mem_map.mp hplain
  obtain ⟨other, ho, hname⟩ := List.mem_map.mp hsection
  simp only [plainEntries, sectionEntries, List.mem_filter, Bool.and_eq_true, Bool.not_eq_true'] at he ho
  have hsame : entry = other := List.inj_on_of_nodup_map h he.1 ho.1 hname.symm
  rw [← hsame, he.2.1] at ho
  exact absurd ho.2 (by decide)

lemma buildsSections (n : Nat) : BuildsSections n := by
  -- The tables of a document have one level less, and stand one name further down the path.
  induction n with
  | zero =>
    intro entries fill path hd
    exact hd.elim
  | succ n ih =>
    intro entries fill path hd h hp
    have hnodup := nodup_plain_section hd.1
    have hleaves : (leaves (plainEntries entries)).map Prod.fst = (plainEntries entries).map Prod.fst := by
      rw [leaves, List.map_map]
      rfl
    rw [← hleaves] at hnodup
    obtain ⟨nodes, hnodes, hbuilds⟩ := builds_entries ih h (by omega) hd.2 hnodup
    exact ⟨nodes, by rw [entryValues_append, entryValues_leaves, hnodes, settled], hbuilds⟩

lemma numbersFit_of_isScalar {v : Value} (h : IsScalar v) : numbersFit v = true := by
  cases v <;> first | rfl | exact h | exact h.elim

lemma numbersFit_of_isPlain {v : Value} (h : IsPlain v) : numbersFit v = true := by
  rcases h with h | ⟨items, rfl, h⟩
  · exact numbersFit_of_isScalar h
  · rw [numbersFit, itemsFit_eq_all, List.all_eq_true]
    exact fun item hm => numbersFit_of_isScalar (h item hm)

lemma IsDocument.numbersFit {n : Nat} {entries : List (String × Value)} (h : IsDocument n entries) :
    Toml.numbersFit (.table entries) = true := by
  induction n generalizing entries with
  | zero => exact h.elim
  | succ n ih =>
    rw [Toml.numbersFit, entriesFit_eq_all, List.all_eq_true]
    intro entry hm
    rcases h.2 entry hm with hv | hv | ⟨inner, hv, _, hinner⟩ | ⟨rows, _, hv, hrows⟩
    · rw [hv]
      rfl
    · exact numbersFit_of_isPlain hv
    · rw [hv]
      exact ih hinner
    · rw [hv, Toml.numbersFit, itemsFit_eq_all, List.all_map, List.all_eq_true]
      exact fun row hr => ih (hrows row hr)

lemma read_print {n : Nat} {entries : List (String × Value)} (h : IsDocument n entries)
    (hn : n ≤ depthLimit) :
    ∃ text, print entries = some text ∧ read text = some (.table (settled n entries)) := by
  refine ⟨_, by rw [print, if_pos h.numbersFit], ?_⟩
  have hpath : ([] : List String).length + n ≤ depthLimit := by simpa using hn
  obtain ⟨nodes, hvalues, parts, hparts, hread, happly⟩ := buildsSections n entries id [] h Focus.root hpath
  have htop : Line.applyAll ⟨[], []⟩ ((plainEntries entries).map fun e => .entry e.1 e.2) =
      some ⟨leaves (plainEntries entries), []⟩ :=
    Focus.root.applyAll_entries (plainEntries entries) ((List.filter_sublist.map _).nodup h.nodup)
  obtain ⟨header, hlast⟩ := happly []
  rw [plainLines_eq, hparts, ← hvalues]
  refine read_of_holds (holds_withSections (holds_unlines _) parts) ?_ (d := ⟨_, header⟩) ?_
  · rw [List.forall_mem_append]
    refine ⟨fun line hm => ?_, hread⟩
    obtain ⟨entry, he, rfl⟩ := List.mem_map.mp hm
    exact h.isPlain entry he
  · rw [Line.applyAll_append, htop]
    exact hlast

end Premerge.Data.Toml

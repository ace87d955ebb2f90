import Mathlib.Tactic.Lemma
import Mathlib.Data.Option.Basic
import Premerge.Data.NameMap
import Premerge.Data.Toml.Printer
import Premerge.Data.Toml.Reader

namespace Premerge.Data.Toml

lemma itemsFit_eq_all (items : List Value) : numbersFit.itemsFit items = items.all numbersFit := by
  induction items with
  | nil => rfl
  | cons item items ih => rw [numbersFit.itemsFit, ih, List.all_cons]

lemma entriesFit_eq_all (entries : List (String × Value)) :
    numbersFit.entriesFit entries = entries.all fun entry => numbersFit entry.2 := by
  induction entries with
  | nil => rfl
  | cons entry entries ih => rw [numbersFit.entriesFit, ih, List.all_cons]

lemma entryValues_eq_map (entries : Entries) :
    entryValues entries = entries.map fun entry => (entry.1, entry.2.toValue) := by
  induction entries with
  | nil => rfl
  | cons entry entries ih => rw [entryValues, ih, List.map_cons]

lemma rowValues_eq (earlier : List Entries) (done : List Value) :
    rowValues earlier done = (earlier.map fun row => .table (entryValues row)).reverse ++ done := by
  induction earlier generalizing done with
  | nil => rfl
  | cons row earlier ih => simp [rowValues, ih]

def EntriesFit (entries : Entries) : Prop :=
  ∀ entry ∈ entries, numbersFit entry.2.toValue = true

lemma numbersFit_entryValues (entries : Entries) :
    numbersFit (.table (entryValues entries)) = true ↔ EntriesFit entries := by
  rw [numbersFit, entriesFit_eq_all, entryValues_eq_map, List.all_map, List.all_eq_true]
  rfl

lemma numbersFit_rows (latest : Entries) (earlier : List Entries) :
    numbersFit (Node.rows latest earlier).toValue = true ↔
      EntriesFit latest ∧ ∀ row ∈ earlier, EntriesFit row := by
  rw [Node.toValue, rowValues_eq, numbersFit, itemsFit_eq_all]
  simp only [List.all_append, List.all_reverse, List.all_map, List.all_cons, List.all_nil, Bool.and_true,
    Bool.and_eq_true, List.all_eq_true, ← numbersFit_entryValues, Function.comp_apply, and_comm]

namespace EntriesFit

variable {entries : Entries} {name : String} {node : Node}

lemma nil : EntriesFit [] := by
  simp [EntriesFit]

lemma snoc (h : EntriesFit entries) (hn : numbersFit node.toValue = true) :
    EntriesFit (entries ++ [(name, node)]) := by
  intro entry hm
  rw [List.mem_append, List.mem_singleton] at hm
  rcases hm with hm | rfl
  · exact h entry hm
  · exact hn

lemma put (h : EntriesFit entries) (hn : numbersFit node.toValue = true) :
    EntriesFit (Data.put entries name node) := by
  induction entries with
  | nil => exact nil.snoc hn
  | cons entry entries ih =>
    obtain ⟨other, old⟩ := entry
    rw [EntriesFit, List.forall_mem_cons] at h
    rw [Data.put]
    split
    · exact List.forall_mem_cons.mpr ⟨hn, h.2⟩
    · exact List.forall_mem_cons.mpr ⟨h.1, ih h.2⟩

lemma of_lookup (h : EntriesFit entries) (hl : entries.lookup name = some node) :
    numbersFit node.toValue = true := by
  obtain ⟨before, after, rfl, _⟩ := List.lookup_eq_some_iff.mp hl
  exact h (name, node) (by simp)

lemma alter {made : Origin} {change : Origin → Entries → Option Entries}
    (hchange : ∀ origin inner inner', EntriesFit inner → change origin inner = some inner' →
      EntriesFit inner') {path : List String} {origin : Origin} {entries' : Entries}
    (h : EntriesFit entries) (ha : Toml.alter made change path origin entries = some entries') :
    EntriesFit entries' := by
  -- A table on the way is put back with its changed inside, so the claim is needed for all tables.
  induction path generalizing origin entries entries' with
  | nil => exact hchange origin entries entries' h ha
  | cons name path ih =>
    rw [Toml.alter] at ha
    split at ha
    · obtain ⟨inner, hinner, rfl⟩ := Option.map_eq_some_iff.mp ha
      exact h.snoc ((numbersFit_entryValues inner).mpr (ih nil hinner))
    · cases ha
    next found inner hl =>
      split at ha
      · cases ha
      · obtain ⟨inner', hinner, rfl⟩ := Option.map_eq_some_iff.mp ha
        have hfit := (numbersFit_entryValues inner).mp (h.of_lookup hl)
        exact h.put ((numbersFit_entryValues inner').mpr (ih hfit hinner))
    next latest earlier hl =>
      obtain ⟨latest', hlatest, rfl⟩ := Option.map_eq_some_iff.mp ha
      have hfit := (numbersFit_rows latest earlier).mp (h.of_lookup hl)
      exact h.put ((numbersFit_rows latest' earlier).mpr ⟨ih hfit.1 hlatest, hfit.2⟩)

variable {path : List String} {entries' : Entries}

lemma addValue {value : Value} (h : EntriesFit entries) (hv : numbersFit value = true)
    (ha : Toml.addValue path name value entries = some entries') : EntriesFit entries' := by
  refine alter ?_ h ha
  intro origin inner inner' hinner he
  split at he
  · cases he
  · split at he
    · cases he
    · cases he
      exact hinner.snoc hv

lemma addTable (h : EntriesFit entries) (ha : Toml.addTable path name entries = some entries') :
    EntriesFit entries' := by
  refine alter ?_ h ha
  intro _ inner inner' hinner he
  split at he
  · cases he
    exact hinner.snoc rfl
  next found hl =>
    cases he
    have hfound := hinner.of_lookup hl
    rw [Node.toValue] at hfound
    exact hinner.put hfound
  · cases he

lemma addRow (h : EntriesFit entries) (ha : Toml.addRow path name entries = some entries') :
    EntriesFit entries' := by
  refine alter ?_ h ha
  intro _ inner inner' hinner he
  split at he
  · cases he
    exact hinner.snoc rfl
  next latest earlier hl =>
    cases he
    have hfit := (numbersFit_rows latest earlier).mp (hinner.of_lookup hl)
    exact hinner.put ((numbersFit_rows [] (latest :: earlier)).mpr
      ⟨nil, List.forall_mem_cons.mpr hfit⟩)
  · cases he

lemma addBelow {header : List String} {value : Value} (h : EntriesFit entries)
    (hv : numbersFit value = true)
    (ha : Toml.addBelow header path name value entries = some entries') : EntriesFit entries' :=
  alter (fun _ _ _ hinner he => hinner.addValue hv he) h ha

end EntriesFit

def ResultFits (found : Option Value) : Prop :=
  ∀ v ∈ found, numbersFit v = true

namespace ResultFits

lemma some {v : Value} (h : numbersFit v = true) : ResultFits (.some v) := by
  rintro _ ⟨⟩
  exact h

lemma none : ResultFits none := by
  rintro _ ⟨⟩

lemma bind {α : Type} {first : Option α} {next : α → Option Value}
    (h : ∀ a, ResultFits (next a)) : ResultFits (first.bind next) := by
  intro v hv
  obtain ⟨a, _, hv⟩ := Option.bind_eq_some_iff.mp hv
  exact h a v hv

lemma orElse {first : Option Value} {next : Unit → Option Value} (h : ResultFits first)
    (hn : ResultFits (next ())) : ResultFits (first.orElse next) := by
  cases first with
  | none => exact hn
  | some v => exact h

lemma bounded (n : Int) : ResultFits (bounded? n) := by
  rw [bounded?]
  split
  next h => exact some h
  · exact none

lemma integer (word : List Char) : ResultFits (integer? word) := by
  rw [integer?.eq_def]
  split <;> exact bind fun _ => bounded _

lemma fraction (word : List Char) : ResultFits (fraction? word) := by
  dsimp only [fraction?, Option.bind_eq_bind]
  refine bind fun _ => ?_
  split
  · refine bind fun _ => bind fun _ => ?_
    split
    · split <;> exact bind fun _ => bind fun _ => some rfl
    · exact bind fun _ => bind fun _ => some rfl
  · refine bind fun _ => ?_
    split
    · split <;> exact bind fun _ => bind fun _ => some rfl
    · exact bind fun _ => bind fun _ => some rfl

lemma special (word : List Char) : ResultFits (special? word) := by
  simp only [special?]
  split
  · exact some rfl
  · exact none

lemma moment (word : List Char) : ResultFits (moment? word) := by
  dsimp only [moment?, Option.bind_eq_bind]
  split
  · exact some rfl
  · refine bind fun _ => bind fun _ => ?_
    split <;> exact bind fun _ => some rfl
  · exact bind fun _ => bind fun _ => some rfl

lemma scalar (word : List Char) : ResultFits (scalar? word) := by
  rw [scalar?]
  split
  · exact some rfl
  split
  · exact some rfl
  exact (moment word).orElse ((integer word).orElse ((fraction word).orElse (special word)))

end ResultFits

lemma numbersFit_of_scalarStep {input rest : List Char} {v : Value}
    (h : scalarStep input = some (v, rest)) : numbersFit v = true := by
  simp only [scalarStep, Option.bind_eq_bind, Option.bind_eq_some_iff] at h
  obtain ⟨value, hv, h⟩ := h
  cases h
  exact ResultFits.scalar _ _ hv

structure StepsFit (fuel : Nat) : Prop where
  value : ∀ room input v rest, valueStep fuel room input = some (v, rest) → numbersFit v = true
  items : ∀ room input done v rest, (∀ item ∈ done, numbersFit item = true) →
    itemsStep fuel room input done = some (v, rest) → numbersFit v = true
  entries : ∀ room input done v rest, EntriesFit done →
    entriesStep fuel room input done = some (v, rest) → numbersFit v = true

namespace StepsFit

variable {fuel : Nat} (ih : StepsFit fuel) (room : Nat) (input : List Char) {v : Value} {rest : List Char}

include ih

lemma value_succ (h : valueStep (fuel + 1) room input = some (v, rest)) : numbersFit v = true := by
  rw [valueStep.eq_def] at h
  dsimp only at h
  split at h
  · split at h
    · cases h
    · exact ih.items _ _ [] v rest (by simp) h
  · split at h
    · cases h
    · split at h
      · cases h
        rfl
      · exact ih.entries _ _ [] v rest .nil h
  · split at h
    · obtain ⟨_, _, he⟩ := Option.map_eq_some_iff.mp h
      cases he
      rfl
    · exact numbersFit_of_scalarStep h
  · cases h

lemma items_succ {done : List Value} (hd : ∀ item ∈ done, numbersFit item = true)
    (h : itemsStep (fuel + 1) room input done = some (v, rest)) : numbersFit v = true := by
  have hlist : ∀ items : List Value, (∀ item ∈ items, numbersFit item = true) →
      numbersFit (.list items.reverse) = true := by
    intro items hitems
    rwa [numbersFit, itemsFit_eq_all, List.all_reverse, List.all_eq_true]
  simp only [itemsStep, Option.bind_eq_bind, Option.bind_eq_some_iff] at h
  obtain ⟨rest₁, _, h⟩ := h
  split at h
  · cases h
    exact hlist done hd
  obtain ⟨⟨item, rest₂⟩, hitem, h⟩ := Option.bind_eq_some_iff.mp h
  obtain ⟨rest₃, _, h⟩ := Option.bind_eq_some_iff.mp h
  have hdone : ∀ other ∈ item :: done, numbersFit other = true :=
    List.forall_mem_cons.mpr ⟨ih.value _ _ _ _ hitem, hd⟩
  split at h
  · exact ih.items _ _ _ _ _ hdone h
  · cases h
    exact hlist _ hdone
  · cases h

lemma entries_succ {done : Entries} (hd : EntriesFit done)
    (h : entriesStep (fuel + 1) room input done = some (v, rest)) : numbersFit v = true := by
  simp only [entriesStep, Option.bind_eq_bind, Option.bind_eq_some_iff] at h
  obtain ⟨⟨path, name, rest₁⟩, _, h⟩ := h
  split at h
  · obtain ⟨⟨value, rest₂⟩, hvalue, h⟩ := Option.bind_eq_some_iff.mp h
    obtain ⟨done', hadd, h⟩ := Option.bind_eq_some_iff.mp h
    have hdone : EntriesFit done' := hd.addValue (ih.value _ _ _ _ hvalue) hadd
    split at h
    · exact ih.entries _ _ _ _ _ hdone h
    · cases h
      exact (numbersFit_entryValues done').mpr hdone
    · cases h
  · cases h

end StepsFit

lemma stepsFit (fuel : Nat) : StepsFit fuel := by
  induction fuel with
  | zero => exact ⟨by simp [valueStep], by simp [itemsStep], by simp [entriesStep]⟩
  | succ fuel ih =>
    constructor
    · intro room input v rest
      exact ih.value_succ room input
    · intro room input done v rest
      exact ih.items_succ room input
    · intro room input done v rest
      exact ih.entries_succ room input

lemma entriesFit_of_lineStep {d d' : Document} {input rest : List Char} (hd : EntriesFit d.entries)
    (h : lineStep d input = some (d', rest)) : EntriesFit d'.entries := by
  rw [lineStep.eq_def] at h
  simp only [Option.bind_eq_bind] at h
  split at h <;> obtain ⟨⟨path, name, rest₁⟩, _, h⟩ := Option.bind_eq_some_iff.mp h
  · split at h
    · obtain ⟨entries, hadd, h⟩ := Option.bind_eq_some_iff.mp h
      obtain ⟨_, _, h⟩ := Option.bind_eq_some_iff.mp h
      cases h
      exact hd.addRow hadd
    · cases h
  · split at h
    · obtain ⟨entries, hadd, h⟩ := Option.bind_eq_some_iff.mp h
      obtain ⟨_, _, h⟩ := Option.bind_eq_some_iff.mp h
      cases h
      exact hd.addTable hadd
    · cases h
  · split at h
    · obtain ⟨⟨value, rest₂⟩, hvalue, h⟩ := Option.bind_eq_some_iff.mp h
      obtain ⟨entries, hadd, h⟩ := Option.bind_eq_some_iff.mp h
      obtain ⟨_, _, h⟩ := Option.bind_eq_some_iff.mp h
      cases h
      exact hd.addBelow ((stepsFit _).value _ _ _ _ hvalue) hadd
    · cases h

lemma entriesFit_of_linesFrom {fuel : Nat} {d d' : Document} {input : List Char}
    (hd : EntriesFit d.entries) (h : linesFrom fuel d input = some d') : EntriesFit d'.entries := by
  induction fuel generalizing d input with
  | zero =>
    cases h
    exact hd
  | succ fuel ih =>
    rw [linesFrom] at h
    split at h
    · cases h
    · cases h
      exact hd
    · split at h
      · cases h
      next d₁ rest hline => exact ih (entriesFit_of_lineStep hd hline) h

lemma numbersFit_of_read {text : String} {v : Value} (h : read text = some v) :
    numbersFit v = true := by
  obtain ⟨d, hd, rfl⟩ := Option.map_eq_some_iff.mp h
  exact (numbersFit_entryValues d.entries).mpr (entriesFit_of_linesFrom .nil hd)

end Premerge.Data.Toml

import Premerge.Data.Record
import Premerge.Proofs.Data.Toml.Sections

/-! How records come through a printed text: the values of their fields are found again under the same
names, except for nulls, whose fields are left to their defaults. -/

namespace Premerge.Data

open Toml

section

variable {α β : Type}

lemma lookup_filter {entries : List (String × α)} (h : (entries.map Prod.fst).Nodup)
    (p : String × α → Bool) (name : String) :
    (entries.filter p).lookup name = (entries.lookup name).filter fun a => p (name, a) := by
  induction entries with
  | nil => rfl
  | cons entry entries ih =>
    obtain ⟨other, a⟩ := entry
    rw [List.map_cons, List.nodup_cons] at h
    rw [lookup_cons_eq]
    by_cases hname : name = other
    · subst hname
      have hnone : entries.lookup name = none := lookup_eq_none h.1
      rw [if_pos rfl]
      cases hp : p (name, a) <;> simp [Option.filter, hp, ih h.2, hnone]
    · rw [if_neg hname, ← ih h.2]
      cases hp : p (other, a) <;> simp [hp, lookup_cons_eq, hname]

lemma lookup_map (entries : List (String × α)) (f : α → β) (name : String) :
    (entries.map fun entry => (entry.1, f entry.2)).lookup name = (entries.lookup name).map f := by
  induction entries with
  | nil => rfl
  | cons entry entries ih =>
    rw [List.map_cons, lookup_cons_eq, lookup_cons_eq, ih]
    split <;> rfl

lemma mapM_map_eq_some {f : β → Option α} {g : α → β} {as : List α} (h : ∀ a ∈ as, f (g a) = some a) :
    (as.map g).mapM f = some as := by
  induction as with
  | nil => rfl
  | cons a as ih =>
    rw [List.forall_mem_cons] at h
    simp [h.1, ih h.2]

lemma exists_of_mapM {f : β → Option α} {bs : List β} {as : List α} (h : bs.mapM f = some as) :
    ∀ a ∈ as, ∃ b ∈ bs, f b = some a := by
  induction bs generalizing as with
  | nil =>
    cases h
    simp
  | cons b bs ih =>
    simp only [List.mapM_cons, Option.bind_eq_bind, Option.bind_eq_some_iff] at h
    obtain ⟨a, hb, more, hbs, h⟩ := h
    cases h
    intro other hm
    rcases List.mem_cons.mp hm with rfl | hm
    · exact ⟨b, List.mem_cons_self, hb⟩
    · obtain ⟨b', hb', hf⟩ := ih hbs other hm
      exact ⟨b', List.mem_cons_of_mem b hb', hf⟩

end

namespace Toml

lemma isPlain_text (s : String) : IsPlain (.text s) :=
  .inl trivial

lemma isPlain_texts (items : List String) : IsPlain (.texts items) := by
  refine .inr ⟨_, rfl, fun item hm => ?_⟩
  obtain ⟨s, _, rfl⟩ := List.mem_map.mp hm
  trivial

def kept (n : Nat) (value : Value) : Option Value :=
  if isSection value then some (onTables (settled n) value)
  else if isNull value then none
  else some value

lemma lookup_settled {n : Nat} {entries : List (String × Value)} (h : (entries.map Prod.fst).Nodup)
    (name : String) : (settled (n + 1) entries).lookup name = (entries.lookup name).bind (kept n) := by
  rw [settled, List.lookup_append, lookup_map, plainEntries, sectionEntries, lookup_filter h, lookup_filter h]
  cases entries.lookup name with
  | none => rfl
  | some value =>
    rw [Option.bind_some, kept]
    cases hsection : isSection value <;> cases hnull : isNull value <;>
      simp [Option.filter, hsection, hnull]

end Toml

-- Decoders are run field by field with this: `simp` would compare them by evaluation, down to the bound
-- of 64 bits.
lemma bind_of_eq_some {α β : Type} {x : Option α} {a : α} (h : x = some a) (f : α → Option β) :
    x >>= f = f a := by
  rw [h]
  rfl

def Value.entries : Value → List (String × Value)
  | .table entries => entries
  | _ => []

section

variable {α : Type}

structure Restores (n : Nat) (default : Option α) (decode : Decoder α) (value : Value) (a : α) : Prop where
  isEntry : IsEntry (IsDocument n) value
  decodes : (kept n value).elim default (decode .toml) = some a

structure Restored (n : Nat) (decode : Decoder α) (entries : List (String × Value)) (a : α) : Prop where
  isDocument : IsDocument n entries
  decodes : decode .toml (.table (settled n entries)) = some a

lemma list_texts (items : List String) :
    Decoder.list .text .toml (.texts items) = some items := by
  have hitems : (items.map Value.text).mapM (Decoder.text .toml) = some items :=
    mapM_map_eq_some fun _ _ => rfl
  exact hitems

namespace Restores

variable {n : Nat} {decode : Decoder α} {a : α}

lemma plain {value : Value} (hv : IsPlain value) (hd : decode .toml value = some a)
    (default : Option α) : Restores n default decode value a := by
  obtain ⟨hsection, hnull⟩ := isPlain_cases hv
  refine ⟨.inr (.inl hv), ?_⟩
  simp [kept, hsection, hnull, hd]

lemma text (s : String) (default : Option String) : Restores n default .text (.text s) s :=
  plain (isPlain_text s) rfl default

lemma bool (b : Bool) (default : Option Bool) : Restores n default .bool (.bool b) b := by
  have hv : IsPlain (.bool b) := .inl trivial
  exact plain hv rfl default

lemma size {k : Nat} (h : hasWord k = true) (default : Option Nat) :
    Restores n default .size (.nat k) k := by
  have hv : IsPlain (.nat k) := .inl h
  refine plain hv ?_ default
  have hk : (0 : Int) ≤ k ∧ (k : Int) < Decoder.sizeBound := by
    simp only [hasWord, Bool.and_eq_true, decide_eq_true_eq] at h
    simp only [Decoder.sizeBound]
    omega
  simp [Value.nat, Decoder.size, hk]

lemma member {members : List (String × α)} {name : String} (hm : members.lookup name = some a)
    (default : Option α) : Restores n default (.member members) (.text name) a :=
  plain (isPlain_text name) hm default

lemma texts (items : List String) (default : Option (List String)) :
    Restores n default (.list .text) (.texts items) items :=
  plain (isPlain_texts items) (list_texts items) default

lemma optional_texts (items : List String) (default : Option (Option (List String))) :
    Restores n default (.optional (.list .text)) (.texts items) (some items) := by
  refine plain (isPlain_texts items) ?_ default
  have hlist := list_texts items
  rw [Value.texts] at hlist ⊢
  rw [Decoder.optional, hlist, Option.map_some]
  rintro ⟨⟩

lemma optional_text (o : Option String) :
    Restores n (some none) (.optional .text) (.optional .text o) o := by
  cases o with
  | none => exact ⟨.inl rfl, rfl⟩
  | some s => exact plain (isPlain_text s) rfl _

lemma table {entries : List (String × Value)} (h : Restored n decode entries a)
    (hshow : entries = [] ∨ plainEntries entries ≠ []) (default : Option α) :
    Restores n default decode (.table entries) a :=
  ⟨.inr (.inr (.inl ⟨entries, rfl, hshow, h.isDocument⟩)), h.decodes⟩

lemma rows {entries : α → List (String × Value)} {items : List α}
    (default : Option (List α)) (h : ∀ a ∈ items, Restored n decode (entries a) a) :
    Restores n default (.list decode) (.list (items.map fun a => .table (entries a))) items := by
  cases hi : items with
  | nil => exact plain (.inr ⟨[], rfl, by simp⟩) rfl default
  | cons first more =>
    rw [← hi]
    have hrows : items.map (fun a => Value.table (entries a)) = (items.map entries).map .table := by
      rw [List.map_map]
      rfl
    have hne : items.map entries ≠ [] := by
      rw [hi]
      exact List.cons_ne_nil _ _
    refine ⟨.inr (.inr (.inr ⟨items.map entries, hne, by rw [hrows], ?_⟩)), ?_⟩
    · intro row hm
      obtain ⟨a, ha, rfl⟩ := List.mem_map.mp hm
      exact (h a ha).isDocument
    · rw [hrows, kept, if_pos (isSection_rows hne), Option.elim_some, onTables, List.map_map, List.map_map]
      exact mapM_map_eq_some fun a ha => (h a ha).decodes

end Restores

lemma restores_nameMap {n : Nat} (m : NameMap String) (default : Option (NameMap String)) :
    Restores (n + 1) default (.nameMap .text)
      (.table (m.entries.map fun (name, value) => (name, .text value))) m := by
  generalize hvalues : (m.entries.map fun (name, value) => (name, Value.text value)) = values
  have hplain : ∀ entry ∈ values, IsPlain entry.2 := by
    rw [← hvalues]
    intro entry hm
    obtain ⟨⟨name, value⟩, _, rfl⟩ := List.mem_map.mp hm
    exact isPlain_text value
  have hnames : (values.map Prod.fst).Nodup := by
    rw [← hvalues, List.map_map]
    exact List.Pairwise.map _ (fun _ _ hlt => String.ne_of_lt hlt) m.ascending
  have hentries : values.mapM (fun entry =>
      (Decoder.text .toml entry.2).map fun a => (entry.1, a)) = some m.entries := by
    rw [← hvalues]
    exact mapM_map_eq_some fun entry _ => rfl
  have hrestored : Restored (n + 1) (.nameMap .text) values m := by
    refine ⟨⟨hnames, fun entry hm => .inr (.inl (hplain entry hm))⟩, ?_⟩
    rw [settled_of_isPlain hplain, Decoder.nameMap, hentries, Option.map_some, NameMap.ofList_entries]
  refine .table hrestored ?_ default
  rw [plainEntries_of_isPlain hplain]
  exact Classical.em _

namespace Fields

variable {n : Nat} {entries : List (String × Value)} (h : (entries.map Prod.fst).Nodup) (name : String)
  {decode : Decoder α} {a : α}

include h

lemma required_settled {value : Value} (hl : entries.lookup name = some value)
    (hr : Restores n none decode value a) :
    required ⟨false, settled (n + 1) entries⟩ .toml name decode = some a := by
  have hd := hr.decodes
  rw [required, lookup_settled h, hl, Option.bind_some]
  cases hk : kept n value <;> rw [hk] at hd <;> exact hd

lemma withDefault_settled {value : Value} {default : α} (hl : entries.lookup name = some value)
    (hr : Restores n (some default) decode value a) :
    withDefault ⟨false, settled (n + 1) entries⟩ .toml name default decode = some a := by
  have hd := hr.decodes
  rw [withDefault, lookup_settled h, hl, Option.bind_some]
  cases hk : kept n value <;> rw [hk] at hd <;> exact hd

lemma withDefault_settled_none (hl : entries.lookup name = none) (default : α) :
    withDefault ⟨false, settled (n + 1) entries⟩ .toml name default decode = some default := by
  rw [withDefault, lookup_settled h, hl]
  rfl

end Fields

lemma Fields.ofValue_table (reading : Reading) (names : List String) (entries : List (String × Value)) :
    ofValue reading names (.table entries) = some ⟨false, entries⟩ := by
  rw [ofValue]

def Decoder.Yields (decode : Decoder α) (P : α → Prop) : Prop :=
  ∀ value a, numbersFit value = true → decode .toml value = some a → P a

lemma Decoder.Yields.size : Decoder.size.Yields fun n => hasWord n = true := by
  intro value n hv h
  rw [Decoder.size.eq_def] at h
  split at h
  next k =>
    split at h
    next hk =>
      cases h
      rw [Int.toNat_of_nonneg hk.1]
      exact hv
    · cases h
  · cases h

lemma Decoder.Yields.list {item : Decoder α} {P : α → Prop} (hi : item.Yields P) :
    (Decoder.list item).Yields fun as => ∀ a ∈ as, P a := by
  intro value as hv h
  rw [Decoder.list.eq_def] at h
  split at h
  · rw [numbersFit, itemsFit_eq_all, List.all_eq_true] at hv
    intro a ha
    obtain ⟨value, hm, hvalue⟩ := exists_of_mapM h a ha
    exact hi value a (hv value hm) hvalue
  · cases h

namespace Fields

lemma fit_of_ofValue {names : List String} {value : Value} {fields : Fields}
    (hv : numbersFit value = true) (h : ofValue .toml names value = some fields) :
    ∀ entry ∈ fields.entries, numbersFit entry.2 = true := by
  rw [ofValue.eq_def] at h
  split at h
  · cases h
    rwa [numbersFit, entriesFit_eq_all, List.all_eq_true] at hv
  · cases h
    simp [numbersFit]
  · split at h
    · cases h
      rw [numbersFit, itemsFit_eq_all, List.all_eq_true] at hv
      exact fun entry hm => hv entry.2 (List.of_mem_zip hm).2
    · cases h
  · cases h

end Fields

lemma Decoder.Yields.withDefault {decode : Decoder α} {P : α → Prop} (hd : decode.Yields P)
    {default a : α} (hp : P default) {fields : Fields}
    (hf : ∀ entry ∈ fields.entries, numbersFit entry.2 = true) {name : String}
    (h : fields.withDefault .toml name default decode = some a) : P a := by
  rw [Fields.withDefault] at h
  split at h
  · cases h
    exact hp
  next value hl =>
    obtain ⟨before, after, he, _⟩ := List.lookup_eq_some_iff.mp hl
    exact hd value a (hf (name, value) (by simp [he])) h

end

end Premerge.Data

import Premerge.Proofs.Data.Toml.Strings
import Premerge.Proofs.Text.Cutting

namespace Premerge.Data.Toml

def EndsKey (rest : List Char) : Prop :=
  ∀ c ∈ rest.head?, isBareChar c = false

lemma head_key (name : String) :
    ∃ c more, (key name).toList = c :: more ∧ (isBareChar c = true ∨ c = quote ∨ c = apostrophe) := by
  rw [key]
  dsimp only
  split_ifs with hbare
  · simp only [Bool.and_eq_true, Bool.not_eq_true', List.isEmpty_eq_false_iff, ne_eq] at hbare
    obtain ⟨c, more, hc⟩ := List.exists_cons_of_ne_nil hbare.1
    rw [hc, List.all_cons, Bool.and_eq_true] at hbare
    exact ⟨c, more, hc, .inl hbare.2.1⟩
  · rw [String.toList_ofList]
    split
    · exact ⟨_, _, rfl, .inr (.inr rfl)⟩
    · exact ⟨_, _, rfl, .inr (.inl rfl)⟩

lemma keyPart_key (name : String) {rest : List Char} (hr : EndsKey rest) :
    keyPart ((key name).toList ++ rest) = some (name, rest) := by
  rw [key]
  dsimp only
  split_ifs with hbare
  · simp only [Bool.and_eq_true, Bool.not_eq_true', List.isEmpty_eq_false_iff, ne_eq] at hbare
    obtain ⟨c, more, hc⟩ := List.exists_cons_of_ne_nil hbare.1
    have hall : ∀ d ∈ name.toList, isBareChar d = true := List.all_eq_true.mp hbare.2
    have hfirst : isBareChar c = true := hall c (by rw [hc]; exact List.mem_cons_self)
    obtain ⟨htake, hdrop⟩ := Text.takeWhile_append_of_all hall hr
    have hq : c ≠ quote := by
      rintro rfl
      exact absurd hfirst (by decide)
    have ha : c ≠ apostrophe := by
      rintro rfl
      exact absurd hfirst (by decide)
    rw [hc, List.cons_append] at htake hdrop ⊢
    rw [keyPart, if_neg hq, if_neg ha, htake, hdrop, ← hc]
    simp [hbare.1, String.ofList_toList]
  · rw [String.toList_ofList]
    split
    next hliteral =>
      obtain ⟨_, hplain⟩ := literal_of_formOf hliteral
      have hform : inForm .literal name.toList ++ rest =
          apostrophe :: (name.toList ++ apostrophe :: rest) := by
        simp [inForm, singleQuote, apostrophe]
      rw [hform, keyPart, if_neg (by decide), if_pos rfl, literalStep_append rest hplain]
      simp [String.ofList_toList]
    · have hform : inForm .basic name.toList ++ rest =
          quote :: (shortBody name.toList ++ quote :: rest) := by
        simp [inForm, doubleQuote, quote]
      rw [hform, keyPart, if_pos rfl, basicStep_shortBody]
      · simp [String.ofList_toList]
      · simp only [List.length_append, List.length_cons]
        omega

lemma skipSpace_cons {c : Char} (h : c ≠ ' ' ∧ c ≠ '\t') (rest : List Char) :
    skipSpace (c :: rest) = c :: rest := by
  simp [skipSpace, h.1, h.2]

lemma skipSpace_key (name : String) (rest : List Char) :
    skipSpace ((key name).toList ++ rest) = (key name).toList ++ rest := by
  obtain ⟨c, more, hc, hhead⟩ := head_key name
  rw [hc]
  refine skipSpace_cons ⟨?_, ?_⟩ _ <;> rintro rfl <;> exact absurd hhead (by decide)

lemma toList_dottedKey_singleton (name : String) : (dottedKey [name]).toList = (key name).toList := by
  simp [dottedKey]

lemma toList_dottedKey_cons (name next : String) (path : List String) :
    (dottedKey (name :: next :: path)).toList =
      (key name).toList ++ '.' :: (dottedKey (next :: path)).toList := by
  simp [dottedKey, String.toList_intercalate]

lemma keyParts_dottedKey {path : List String} (hp : path ≠ []) {rest : List Char}
    (hr : EndsKey rest) (hdot : (skipSpace rest).head? ≠ some '.') {fuel : Nat}
    (h : path.length ≤ fuel) :
    keyParts fuel ((dottedKey path).toList ++ rest) = some (path, skipSpace rest) := by
  induction path generalizing fuel with
  | nil => exact absurd rfl hp
  | cons name path ih =>
    obtain ⟨fuel, rfl⟩ := Nat.exists_eq_add_one_of_ne_zero (Nat.ne_of_gt (Nat.lt_of_lt_of_le
      (Nat.zero_lt_succ path.length) h))
    cases path with
    | nil =>
      rw [toList_dottedKey_singleton, keyParts, skipSpace_key, keyPart_key name hr]
      rcases hs : skipSpace rest with _ | ⟨c, more⟩
      · simp [hs]
      · have hc : c ≠ '.' := fun he => hdot (by rw [hs, he]; rfl)
        simp [hs, hc]
    | cons next path =>
      have hkey : EndsKey ('.' :: ((dottedKey (next :: path)).toList ++ rest)) := by
        rintro c hc
        cases hc
        decide
      have hrest : keyParts fuel ((dottedKey (next :: path)).toList ++ rest) =
          some (next :: path, skipSpace rest) :=
        ih (List.cons_ne_nil _ _) (Nat.le_of_succ_le_succ h)
      rw [toList_dottedKey_cons, List.append_assoc, keyParts, skipSpace_key, List.cons_append,
        keyPart_key name hkey]
      simp [skipSpace_cons, hrest]

lemma length_le_dottedKey (path : List String) : path.length ≤ (dottedKey path).toList.length := by
  induction path with
  | nil => simp
  | cons name path ih =>
    obtain ⟨c, more, hc, _⟩ := head_key name
    cases path with
    | nil =>
      rw [toList_dottedKey_singleton, hc]
      simp
    | cons next path =>
      rw [toList_dottedKey_cons, hc]
      simp only [List.length_cons, List.length_append] at ih ⊢
      omega

lemma keyStep_dottedKey {path : List String} (name : String) (hp : path.length < depthLimit)
    {rest : List Char} (hr : EndsKey rest) (hdot : (skipSpace rest).head? ≠ some '.') :
    keyStep ((dottedKey (path ++ [name])).toList ++ rest) = some (path, name, skipSpace rest) := by
  have hfuel : (path ++ [name]).length ≤ ((dottedKey (path ++ [name])).toList ++ rest).length + 1 := by
    have hlength := length_le_dottedKey (path ++ [name])
    rw [show ∀ input : List Char, (input ++ rest).length = input.length + rest.length from
      fun _ => List.length_append]
    omega
  have hlength : (path ++ [name]).length ≤ depthLimit := by
    rw [List.length_append, List.length_singleton]
    exact hp
  have hguard : (guard ((path ++ [name]).length ≤ depthLimit) : Option Unit) = some () := if_pos hlength
  rw [keyStep, keyParts_dottedKey (by simp) hr hdot hfuel, Option.bind_eq_bind, Option.bind_some]
  dsimp only
  rw [hguard]
  simp

end Premerge.Data.Toml

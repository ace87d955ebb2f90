import Premerge.Proofs.Job.Environment
import Premerge.Proofs.Job.Stages
import Premerge.Proofs.Tool.Table

namespace Premerge

open Report (Directory)
open Text.Line (pieces joined joined_of_not_mem closed_eq_iff flatMap_pieces_of_not_mem
  length_flatMap_pieces)
open Text.Utf8 (Octets encode decode encodeChars decodeChars_encodeChars decode_encode)

namespace Digest.Sha256

def Collide (message other : Octets) : Prop :=
  message ≠ other ∧ hex message = hex other

lemma hex_eq_iff {message other : Octets} :
    hex message = hex other ↔ message = other ∨ Collide message other := by
  by_cases h : message = other <;> simp [h, Collide]

lemma digitChar_ne_lineFeed {n : Nat} (h : n < 16) : n.digitChar ≠ '\n' := by
  decide +revert

lemma lineFeed_not_mem_toDigits (n : Nat) : '\n' ∉ Nat.toDigits 16 n := by
  induction n using Nat.strongRecOn with
  | ind n ih =>
    rw [Nat.toDigits_eq_if (by decide)]
    split
    next h => simp [(digitChar_ne_lineFeed h).symm]
    next h =>
      have hlast := digitChar_ne_lineFeed (Nat.mod_lt n (by decide : 0 < 16))
      simpa [hlast.symm] using ih (n / 16) (by omega)

lemma lineFeed_not_mem_hex (message : Octets) : '\n' ∉ (hex message).toList := by
  have hword (x : UInt32) : '\n' ∉ hexWord x := by
    simp [hexWord, lineFeed_not_mem_toDigits]
  simp [hex, hword]

end Digest.Sha256

namespace Job

def nameEnd : Char := Char.ofNat 0

def nameParts (names : List String) : List (List Char) :=
  (names.map String.toList).flatMap (pieces nameEnd)

variable {names others : List String}

lemma digestInput_eq (names : List String) :
    digestInput names = encodeChars ((names.map String.toList).flatMap (· ++ [nameEnd])) := by
  have hend : String.utf8EncodeChar nameEnd = [0] := rfl
  simp [digestInput, encode, encodeChars, List.flatMap_assoc, List.flatMap_map, hend]

lemma digestInput_eq_iff : digestInput names = digestInput others ↔
    nameParts names = nameParts others := by
  have hinjective : encodeChars.Injective := Function.LeftInverse.injective decodeChars_encodeChars
  rw [digestInput_eq, digestInput_eq, hinjective.eq_iff, closed_eq_iff, nameParts, nameParts]

lemma nameParts_of_not_mem (h : ∀ name ∈ names, nameEnd ∉ name.toList) :
    nameParts names = names.map String.toList :=
  flatMap_pieces_of_not_mem (by simpa using h)

lemma length_nameParts (names : List String) : (nameParts names).length =
    names.length + (names.map String.toList).flatten.count nameEnd := by
  rw [nameParts, length_flatMap_pieces, List.length_map]

lemma fewer_of_digestInput_eq (hn : ∀ name ∈ names, nameEnd ∉ name.toList)
    (hne : names ≠ others) (h : digestInput names = digestInput others) :
    others.length < names.length ∧ ∃ name ∈ others, nameEnd ∈ name.toList := by
  have hparts := digestInput_eq_iff.mp h
  have hends : ∃ name ∈ others, nameEnd ∈ name.toList := by
    by_contra hnone
    push Not at hnone
    rw [nameParts_of_not_mem hn, nameParts_of_not_mem hnone] at hparts
    exact hne (List.map_injective_iff.mpr (fun _ _ => String.toList_injective) hparts)
  refine ⟨?_, hends⟩
  obtain ⟨name, hm, hend⟩ := hends
  have hpos : 0 < (others.map String.toList).flatten.count nameEnd :=
    List.count_pos_iff.mpr (List.mem_flatten.mpr ⟨_, List.mem_map_of_mem hm, hend⟩)
  have hlength := congrArg List.length hparts
  rw [nameParts_of_not_mem hn, List.length_map, length_nameParts] at hlength
  omega

section Kept

variable {σ : Type} {c : Config} {request : Request} {w v : World σ}

lemma toolsDigest_of_resolve {job : Job}
    (h : (resolve request names).perform w = (.ok job, v)) : job.toolsDigest = digest names := by
  unfold resolve at h
  obtain ⟨_, _, _, h⟩ := Action.perform_bind_ok h
  obtain ⟨_, _, _, h⟩ := Action.perform_bind_ok h
  obtain ⟨_, _, _, h⟩ := Action.perform_bind_ok h
  obtain ⟨_, _, _, h⟩ := Action.perform_bind_ok h
  rw [Action.perform_pure, Prod.mk.injEq, Except.ok.injEq] at h
  rw [← h.1]

lemma toolsDigest_of_examine {known : Examined}
    (h : (examine c request).perform w = (.ok known, v)) :
    known.job.toolsDigest = digest (c.tools.map Tool.name) := by
  unfold examine at h
  obtain ⟨table, _, ht, h⟩ := Action.perform_bind_ok h
  obtain ⟨job, _, hj, h⟩ := Action.perform_bind_ok h
  obtain ⟨_, _, _, h⟩ := Action.perform_bind_ok h
  obtain ⟨_, _, _, h⟩ := Action.perform_bind_ok h
  obtain ⟨_, _, _, h⟩ := Action.perform_bind_ok h
  obtain ⟨_, _, _, h⟩ := Action.perform_bind_ok h
  cases h
  rw [Action.perform_ofExcept] at ht
  rw [toolsDigest_of_resolve hj, ToolTable.names, ToolTable.tools_of_ofList (congrArg Prod.fst ht)]

lemma read_of_openReports {job : Job} {reports : Directory}
    (h : (job.openReports request).perform w = (.ok reports, v)) :
    v.files.read (Directory.environmentPath ⟨request.reports⟩) =
      .ok (encode (Directory.environmentText job.environment)) := by
  unfold openReports at h
  obtain ⟨made, u, hc, h⟩ := Action.perform_bind_ok h
  obtain ⟨_, _, hw, h⟩ := Action.perform_bind_ok h
  obtain ⟨rfl, _⟩ := Directory.path_of_create hc
  cases h
  rcases Directory.stores_of_writeEnvironment ⟨request.reports⟩ job.environment u with
    ⟨-, after, ha, hread⟩ | ⟨-, e, he⟩
  · cases ha.symm.trans hw
    exact hread
  · cases he.symm.trans hw

def IsKeptFor (tools : List Tool) (octets : Octets) : Prop :=
  ∃ (σ : Type) (c : Config) (request : Request) (w v : World σ) (prepared : Prepared),
    c.tools = tools ∧ (prepare c request).perform w = (.ok prepared, v) ∧
      v.files.read (Directory.environmentPath ⟨request.reports⟩) = .ok octets

def keptDigest (octets : Octets) : Option String :=
  (Directory.entriesOf (decode octets)).lookup "tools_digest"

lemma keptDigest_environment (job : Job) {message : Octets}
    (h : job.toolsDigest = Digest.Sha256.hex message) :
    keptDigest (encode (Directory.environmentText job.environment)) =
      some (Digest.Sha256.hex message) := by
  have hlookup : job.environment.lookup "tools_digest" = some (Digest.Sha256.hex message) :=
    congrArg some h
  rw [keptDigest, decode_encode, ← kept, kept_eq, hlookup, Option.map_some,
    joined_of_not_mem (Digest.Sha256.lineFeed_not_mem_hex message)]

lemma kept_of_prepare {prepared : Prepared}
    (h : (prepare c request).perform w = (.ok prepared, v)) :
    ∃ octets, v.files.read (Directory.environmentPath ⟨request.reports⟩) = .ok octets ∧
      keptDigest octets = some (digest (c.tools.map Tool.name)) := by
  rw [prepare_eq] at h
  obtain ⟨known, u, hk, h⟩ := Action.perform_bind_ok h
  obtain ⟨reports, _, ho, h⟩ := Action.perform_bind_ok h
  cases h
  exact ⟨_, read_of_openReports ho, keptDigest_environment known.job (toolsDigest_of_examine hk)⟩

lemma keptDigest_of_isKeptFor {tools : List Tool} {octets : Octets} (h : IsKeptFor tools octets) :
    keptDigest octets = some (digest (tools.map Tool.name)) := by
  obtain ⟨σ, c, request, w, v, prepared, rfl, hp, hread⟩ := h
  obtain ⟨kept, hk, hdigest⟩ := kept_of_prepare hp
  cases hk.symm.trans hread
  exact hdigest

end Kept

end Job

open Job (digestInput nameEnd nameParts IsKeptFor keptDigest)

/-- Two tables have the same input, and but for a collision the same digest in what their jobs write down,
exactly if the parts of their names are the same. If a table without a NUL in its names shares its input
with another one, that has fewer tools and a NUL in a name. -/
theorem ToolTable.digest_tells_nameParts {tools others : List Tool} {table other : ToolTable}
    (h : ofList tools = .ok table) (ho : ofList others = .ok other) :
    (digestInput table.names = digestInput other.names ↔
      nameParts table.names = nameParts other.names) ∧
    ((∀ name ∈ table.names, nameEnd ∉ name.toList) → table.names ≠ other.names →
      digestInput table.names = digestInput other.names →
        other.names.length < table.names.length ∧ ∃ name ∈ other.names, nameEnd ∈ name.toList) ∧
    ∀ octets octets', IsKeptFor tools octets → IsKeptFor others octets' →
      (keptDigest octets = keptDigest octets' ↔
        nameParts table.names = nameParts other.names ∨
          Digest.Sha256.Collide (digestInput table.names) (digestInput other.names)) := by
  refine ⟨Job.digestInput_eq_iff, Job.fewer_of_digestInput_eq, fun octets octets' hk hk' => ?_⟩
  rw [names, names, tools_of_ofList h, tools_of_ofList ho, Job.keptDigest_of_isKeptFor hk,
    Job.keptDigest_of_isKeptFor hk', Option.some_inj, Job.digest, Job.digest,
    Digest.Sha256.hex_eq_iff, Job.digestInput_eq_iff]

def unitTool : Tool := Tool.ofCommand "unit" ["true"]

def docsTool : Tool := Tool.ofCommand "docs" ["true"]

def unitDocsTool : Tool := Tool.ofCommand "unit\x00docs" ["true"]

lemma exists_isKeptFor {tools : List Tool}
    (h : ((Job.prepare { lintConfig with tools } (lintRequest none)).perform lintWorld).1.isOk) :
    ∃ octets, IsKeptFor tools octets := by
  rcases hp : (Job.prepare { lintConfig with tools } (lintRequest none)).perform lintWorld with
    ⟨e | prepared, v⟩ <;> rw [hp] at h
  · cases h
  · obtain ⟨octets, hread, -⟩ := Job.kept_of_prepare hp
    exact ⟨octets, Unit, _, _, _, v, prepared, rfl, hp, hread⟩

/-- One tool of such a name has the input, and the digest, of the two tools that it names. -/
theorem names_run_together :
    ToolTable.ofList [unitTool, docsTool] = .ok ⟨[unitTool, docsTool]⟩ ∧
    ToolTable.ofList [unitDocsTool] = .ok ⟨[unitDocsTool]⟩ ∧
    ToolTable.names ⟨[unitTool, docsTool]⟩ ≠ ToolTable.names ⟨[unitDocsTool]⟩ ∧
    digestInput (ToolTable.names ⟨[unitTool, docsTool]⟩) =
      digestInput (ToolTable.names ⟨[unitDocsTool]⟩) ∧
    ∃ octets octets', IsKeptFor [unitTool, docsTool] octets ∧ IsKeptFor [unitDocsTool] octets' ∧
      keptDigest octets = keptDigest octets' := by
  have hinput : digestInput ["unit", "docs"] = digestInput ["unit\x00docs"] := by decide
  obtain ⟨octets, hk⟩ : ∃ octets, IsKeptFor [unitTool, docsTool] octets :=
    exists_isKeptFor (by decide +kernel)
  obtain ⟨octets', hk'⟩ : ∃ octets, IsKeptFor [unitDocsTool] octets :=
    exists_isKeptFor (by decide +kernel)
  refine ⟨rfl, rfl, by decide, hinput, octets, octets', hk, hk', ?_⟩
  rw [Job.keptDigest_of_isKeptFor hk, Job.keptDigest_of_isKeptFor hk']
  exact congrArg (fun input => some (Digest.Sha256.hex input)) hinput

theorem digest_tells_nameParts_turned :
    ToolTable.ofList [unitTool, docsTool] = .ok ⟨[unitTool, docsTool]⟩ ∧
    ToolTable.ofList [docsTool, unitTool] = .ok ⟨[docsTool, unitTool]⟩ ∧
    (∀ name ∈ ToolTable.names ⟨[unitTool, docsTool]⟩, nameEnd ∉ name.toList) ∧
    digestInput ["unit", "docs"] ≠ digestInput ["docs", "unit"] ∧
    ∃ octets octets', IsKeptFor [unitTool, docsTool] octets ∧
      IsKeptFor [docsTool, unitTool] octets' ∧
      (keptDigest octets = keptDigest octets' →
        Digest.Sha256.Collide (digestInput ["unit", "docs"]) (digestInput ["docs", "unit"])) := by
  have hn : ∀ name ∈ ToolTable.names ⟨[unitTool, docsTool]⟩, nameEnd ∉ name.toList := by decide
  have htable : ToolTable.ofList [unitTool, docsTool] = .ok ⟨[unitTool, docsTool]⟩ := rfl
  have hother : ToolTable.ofList [docsTool, unitTool] = .ok ⟨[docsTool, unitTool]⟩ := rfl
  obtain ⟨-, hplain, hkept⟩ := ToolTable.digest_tells_nameParts htable hother
  obtain ⟨octets, hk⟩ : ∃ octets, IsKeptFor [unitTool, docsTool] octets :=
    exists_isKeptFor (by decide +kernel)
  obtain ⟨octets', hk'⟩ : ∃ octets, IsKeptFor [docsTool, unitTool] octets :=
    exists_isKeptFor (by decide +kernel)
  refine ⟨htable, hother, hn, fun he => ?_, octets, octets', hk, hk', fun he => ?_⟩
  · exact absurd (hplain hn (by decide) he).1 (by decide)
  · exact ((hkept octets octets' hk hk').mp he).resolve_left (by decide)

end Premerge

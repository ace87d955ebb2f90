import Mathlib.Tactic.Lemma
import Premerge.Text.Utf8

namespace Premerge.Text.Utf8

lemma piecesFrom_owed {octet : UInt8} {rest : Octets} {owed low high bits : Nat}
    (hl : low ≤ octet.toNat) (hh : octet.toNat ≤ high) :
    piecesFrom (some ⟨owed + 1, low, high, bits⟩) (octet :: rest) =
      piecesFrom (some ⟨owed, 0x80, 0xBF, bits * 64 + (octet.toNat - 0x80)⟩) rest := by
  simp [piecesFrom, hl, hh]

lemma piecesFrom_last {octet : UInt8} {rest : Octets} {low high bits : Nat}
    (hl : low ≤ octet.toNat) (hh : octet.toNat ≤ high) :
    piecesFrom (some ⟨0, low, high, bits⟩) (octet :: rest) =
      some (Char.ofNat (bits * 64 + (octet.toNat - 0x80))) :: piecesFrom none rest := by
  simp [piecesFrom, hl, hh]

lemma piecesFrom_started {octet : UInt8} {rest : Octets} {part : Partial}
    (h : lead octet.toNat = .started part) :
    piecesFrom none (octet :: rest) = piecesFrom (some part) rest := by
  simp [piecesFrom, h]

lemma toNat_ofNat {n : Nat} (h : n < 256) : (UInt8.ofNat n).toNat = n := by
  simp
  omega

lemma toNat_continuation (n : Nat) : (UInt8.ofNat (n % 64 + 128)).toNat = n % 64 + 128 :=
  toNat_ofNat (by omega)

lemma lead_two {v : Nat} (hl : 0x7F < v) (hh : v ≤ 0x7FF) :
    lead (v / 64 % 32 + 192) = .started ⟨0, 0x80, 0xBF, v / 64⟩ := by
  grind [lead]

/-- After the octets E0 and ED not every octet can follow: others would be too short, or
surrogates. -/
lemma lead_three {v : Nat} (hl : 0x7FF < v) (hh : v ≤ 0xFFFF)
    (hv : v < 0xD800 ∨ 0xDFFF < v ∧ v < 0x110000) :
    ∃ low high, lead (v / 4096 % 16 + 224) = .started ⟨1, low, high, v / 4096⟩ ∧
      low ≤ v / 64 % 64 + 128 ∧ v / 64 % 64 + 128 ≤ high := by
  by_cases h0 : v / 4096 = 0
  · exact ⟨0xA0, 0xBF, by simp [lead, h0], by omega, by omega⟩
  · by_cases hD : v / 4096 = 13
    · exact ⟨0x80, 0x9F, by simp [lead, hD], by omega, by omega⟩
    · refine ⟨0x80, 0xBF, ?_, by omega, by omega⟩
      grind [lead]

lemma lead_four {v : Nat} (hl : 0xFFFF < v) (hh : v < 0x110000) :
    ∃ low high, lead (v / 262144 % 8 + 240) = .started ⟨2, low, high, v / 262144⟩ ∧
      low ≤ v / 4096 % 64 + 128 ∧ v / 4096 % 64 + 128 ≤ high := by
  by_cases h0 : v / 262144 = 0
  · exact ⟨0x90, 0xBF, by simp [lead, h0], by omega, by omega⟩
  · by_cases h4 : v / 262144 = 4
    · exact ⟨0x80, 0x8F, by simp [lead, h4], by omega, by omega⟩
    · refine ⟨0x80, 0xBF, ?_, by omega, by omega⟩
      grind [lead]

lemma isScalar (c : Char) : c.toNat < 0xD800 ∨ 0xDFFF < c.toNat ∧ c.toNat < 0x110000 :=
  c.valid

lemma piecesFrom_encodeChar (c : Char) (rest : Octets) :
    piecesFrom none (String.utf8EncodeChar c ++ rest) = some c :: piecesFrom none rest := by
  have hv := isScalar c
  have hc : c.val.toNat = c.toNat := rfl
  have hback {n : Nat} (h : n = c.toNat) : Char.ofNat n = c := by rw [h, Char.ofNat_toNat]
  unfold String.utf8EncodeChar
  simp only [hc]
  generalize c.toNat = v at hv hback
  have hlast := toNat_continuation v
  have hsecond := toNat_continuation (v / 64)
  have hthird := toNat_continuation (v / 4096)
  split
  next h1 =>
    have ho : (UInt8.ofNat v).toNat = v := toNat_ofNat (by omega)
    have hl : lead (UInt8.ofNat v).toNat = .whole c := by
      rw [ho, lead, if_pos (by omega), hback rfl]
    simp only [List.cons_append, List.nil_append, piecesFrom, hl]
  next h1 =>
    split
    next h2 =>
      have ho : (UInt8.ofNat (v / 64 % 32 + 192)).toNat = v / 64 % 32 + 192 := toNat_ofNat (by omega)
      have hl := lead_two (v := v) (by omega) h2
      simp only [List.cons_append, List.nil_append]
      rw [piecesFrom_started (ho ▸ hl), piecesFrom_last (by omega) (by omega), hlast,
        hback (by omega)]
    next h2 =>
      split
      next h3 =>
        have ho : (UInt8.ofNat (v / 4096 % 16 + 224)).toNat = v / 4096 % 16 + 224 :=
          toNat_ofNat (by omega)
        obtain ⟨low, high, hl, hlow, hhigh⟩ := lead_three (by omega) h3 hv
        simp only [List.cons_append, List.nil_append]
        rw [piecesFrom_started (ho ▸ hl), piecesFrom_owed (by omega) (by omega),
          piecesFrom_last (by omega) (by omega), hsecond, hlast, hback (by omega)]
      next h3 =>
        have ho : (UInt8.ofNat (v / 262144 % 8 + 240)).toNat = v / 262144 % 8 + 240 :=
          toNat_ofNat (by omega)
        obtain ⟨low, high, hl, hlow, hhigh⟩ := lead_four (v := v) (by omega) (by omega)
        simp only [List.cons_append, List.nil_append]
        rw [piecesFrom_started (ho ▸ hl), piecesFrom_owed (by omega) (by omega),
          piecesFrom_owed (by omega) (by omega), piecesFrom_last (by omega) (by omega), hthird,
          hsecond, hlast, hback (by omega)]

lemma decodeChars_encodeChars (text : List Char) : decodeChars (encodeChars text) = text := by
  have hpieces : piecesFrom none (encodeChars text) = text.map some := by
    induction text with
    | nil => rfl
    | cons c rest ih =>
      rw [encodeChars, List.flatMap_cons, piecesFrom_encodeChar]
      exact congrArg _ ih
  rw [decodeChars, hpieces, List.map_map]
  exact List.map_id text

lemma decode_encode (text : String) : decode (encode text) = text := by
  rw [decode, encode, decodeChars_encodeChars, String.ofList_toList]

end Premerge.Text.Utf8

import Mathlib.Tactic.Lemma
import Mathlib.Tactic.SplitIfs
import Premerge.Data.Toml.Printer
import Premerge.Data.Toml.Scalar

namespace Premerge.Data.Toml

lemma isDigit_of_mem {n : Nat} {c : Char} (h : c ∈ Nat.toDigits 10 n) : c.isDigit = true :=
  Nat.isDigit_of_mem_toDigits (by omega) (by omega) h

lemma digitValue?_of_isDigit {c : Char} (h : c.isDigit = true) :
    digitValue? c = some (c.toNat - 48) := by
  have hc : '0' ≤ c ∧ c ≤ '9' := by
    simpa [Char.isDigit, Char.le_def] using h
  rw [digitValue?, if_pos hc]

lemma isDigitOf_of_isDigit {c : Char} (h : c.isDigit = true) : isDigitOf 10 c = true := by
  have hc := Char.isDigit_iff_toNat.mp h
  have h9 : '9'.toNat = 57 := rfl
  simp only [isDigitOf, digitValue?_of_isDigit h, decide_eq_true_eq]
  omega

lemma digits?_of_isDigit {digits : List Char} (hne : digits ≠ [])
    (h : ∀ c ∈ digits, c.isDigit = true) : digits? 10 digits = some digits := by
  induction digits with
  | nil => exact absurd rfl hne
  | cons c digits ih =>
    rw [List.forall_mem_cons] at h
    cases digits with
    | nil => simp [digits?, isDigitOf_of_isDigit h.1]
    | cons d digits =>
      have hd : d ≠ '_' := by
        rintro rfl
        exact absurd (h.2 '_' List.mem_cons_self) (by decide)
      have hrest := ih (List.cons_ne_nil d digits) h.2
      simp [digits?, isDigitOf_of_isDigit h.1, hd, hrest]

lemma numberOf_toDigits (n : Nat) : numberOf 10 (Nat.toDigits 10 n) = n := by
  have hstep : ∀ digits : List Char, (∀ c ∈ digits, c.isDigit = true) → ∀ first,
      digits.foldl (fun n c => n * 10 + (digitValue? c).getD 0) first =
        Nat.ofDigitChars 10 digits first := by
    intro digits
    induction digits with
    | nil => exact fun _ _ => rfl
    | cons c digits ih =>
      intro h first
      rw [List.forall_mem_cons] at h
      rw [List.foldl_cons, ih h.2, Nat.ofDigitChars_cons, digitValue?_of_isDigit h.1]
      congr 1
      exact congrArg (· + (c.toNat - 48)) (Nat.mul_comm first 10)
  rw [numberOf, hstep _ fun _ => isDigit_of_mem]
  exact Nat.ofDigitChars_ten_toDigits

lemma toDigits_cases (n : Nat) :
    Nat.toDigits 10 n = ['0'] ∨ ∃ c rest, Nat.toDigits 10 n = c :: rest ∧ c ≠ '0' := by
  induction n using Nat.strongRecOn with
  | _ n ih =>
    rw [Nat.toDigits_eq_if (by omega)]
    split_ifs with hn
    · have hsmall : ∀ digit : Fin 10, Nat.digitChar digit = '0' ∨ Nat.digitChar digit ≠ '0' := by
        decide
      exact (hsmall ⟨n, hn⟩).imp (fun h => by rw [← h]) fun h => ⟨_, [], rfl, h⟩
    · rcases ih (n / 10) (by omega) with hzero | ⟨c, rest, hc, hne⟩
      · have hnumber := numberOf_toDigits (n / 10)
        rw [hzero] at hnumber
        have : n / 10 = 0 := hnumber.symm
        omega
      · exact .inr ⟨c, _, by rw [hc]; rfl, hne⟩

lemma plainDigits?_toDigits (n : Nat) :
    plainDigits? (Nat.toDigits 10 n) = some (Nat.toDigits 10 n) := by
  have hdigits := digits?_of_isDigit Nat.toDigits_ne_nil
    fun c (hc : c ∈ Nat.toDigits 10 n) => isDigit_of_mem hc
  rw [plainDigits?, hdigits]
  rcases toDigits_cases n with hzero | ⟨c, rest, hc, hne⟩
  · rw [hzero]
    rfl
  · rw [hc]
    simp [hne]

def integerWord : Int → List Char
  | .ofNat n => Nat.toDigits 10 n
  | .negSucc n => '-' :: Nat.toDigits 10 (n + 1)

lemma toList_toString (n : Int) : (toString n).toList = integerWord n := by
  rw [Int.toString_eq_repr]
  cases n <;> simp [Int.repr, integerWord, Nat.repr_eq_ofList_toDigits]

lemma integer?_of_plainDigits? {word digits : List Char}
    (hzero : word = ['0'] ∨ word.head? ≠ some '0')
    (h : plainDigits? (sign word).2 = some digits) :
    integer? word =
      bounded? (if (sign word).1 then -(numberOf 10 digits : Int) else numberOf 10 digits) := by
  rw [integer?.eq_def]
  split
  · simp at hzero
  · simp at hzero
  · simp at hzero
  · rcases hs : sign word with ⟨minus, rest⟩
    rw [hs] at h
    simp only [h, Option.bind_some]

lemma sign_toDigits (n : Nat) : sign (Nat.toDigits 10 n) = (false, Nat.toDigits 10 n) := by
  have hminus : '-' ∉ Nat.toDigits 10 n := fun h => absurd (isDigit_of_mem h) (by decide)
  have hplus : '+' ∉ Nat.toDigits 10 n := fun h => absurd (isDigit_of_mem h) (by decide)
  rw [sign.eq_def]
  split
  next rest heq => exact absurd List.mem_cons_self (heq ▸ hminus)
  next rest heq => exact absurd List.mem_cons_self (heq ▸ hplus)
  · rfl

lemma integer?_integerWord (n : Int) : integer? (integerWord n) = bounded? n := by
  cases n with
  | ofNat n =>
    have hzero : Nat.toDigits 10 n = ['0'] ∨ (Nat.toDigits 10 n).head? ≠ some '0' := by
      rcases toDigits_cases n with hzero | ⟨c, rest, hc, hne⟩
      · exact .inl hzero
      · exact .inr (by simpa [hc] using hne)
    rw [integerWord, integer?_of_plainDigits? hzero (by rw [sign_toDigits, plainDigits?_toDigits]),
      sign_toDigits, numberOf_toDigits]
    rfl
  | negSucc n =>
    have hsign : sign ('-' :: Nat.toDigits 10 (n + 1)) = (true, Nat.toDigits 10 (n + 1)) := rfl
    rw [integerWord, integer?_of_plainDigits? (.inr (by simp))
      (by rw [hsign, plainDigits?_toDigits]), hsign, numberOf_toDigits]
    rfl

lemma fixed?_cases (width : Nat) (input : List Char) :
    fixed? width input = none ∨ ∃ n, fixed? width input = some (n, input.drop width) := by
  simp only [fixed?]
  split
  · exact .inr ⟨_, rfl⟩
  · exact .inl rfl

lemma isDigit_of_mem_integerWord {n : Int} :
    (∀ c ∈ (integerWord n).drop 1, c.isDigit = true) ∧
      ∀ c ∈ integerWord n, c = '-' ∨ c.isDigit = true := by
  cases n with
  | ofNat n => exact ⟨fun _ hc => isDigit_of_mem (List.mem_of_mem_drop hc), fun _ hc => .inr (isDigit_of_mem hc)⟩
  | negSucc n =>
    exact ⟨fun _ hc => isDigit_of_mem hc, fun _ hc => (List.mem_cons.mp hc).imp_right isDigit_of_mem⟩

lemma date?_integerWord (n : Int) : date? (integerWord n) = none := by
  have hhead : ((integerWord n).drop 4).head? ≠ some '-' := by
    rw [List.head?_drop]
    exact fun h => absurd (isDigit_of_mem_integerWord.1 '-'
      (List.mem_of_getElem? ((List.getElem?_drop (i := 1) (j := 3)).trans h))) (by decide)
  rcases fixed?_cases 4 (integerWord n) with h | ⟨_, h⟩
  · rw [date?, h]
    rfl
  · rw [date?, h, Option.bind_eq_bind, Option.bind_some]
    dsimp only
    rw [if_neg hhead]
    rfl

lemma moment?_integerWord (n : Int) : moment? (integerWord n) = none := by
  have htime : time? (integerWord n) = none := by
    have hhead : ((integerWord n).drop 2).head? ≠ some ':' := by
      rw [List.head?_drop]
      exact fun h => absurd (isDigit_of_mem_integerWord.2 ':' (List.mem_of_getElem? h)) (by decide)
    rcases fixed?_cases 2 (integerWord n) with h | ⟨_, h⟩
    · rw [time?, h]
      rfl
    · rw [time?, h, Option.bind_eq_bind, Option.bind_some]
      dsimp only
      rw [if_neg hhead]
      rfl
  rw [moment?, date?_integerWord, htime]
  rfl

lemma scalar?_integerWord {n : Int} (h : hasWord n = true) :
    scalar? (integerWord n) = some (.int n) := by
  have htrue : integerWord n ≠ ['t', 'r', 'u', 'e'] := fun he =>
    absurd (isDigit_of_mem_integerWord.2 't' (by rw [he]; exact List.mem_cons_self)) (by decide)
  have hfalse : integerWord n ≠ ['f', 'a', 'l', 's', 'e'] := fun he =>
    absurd (isDigit_of_mem_integerWord.2 'f' (by rw [he]; exact List.mem_cons_self)) (by decide)
  rw [scalar?, if_neg htrue, if_neg hfalse, moment?_integerWord, integer?_integerWord, bounded?,
    if_pos h]
  rfl

end Premerge.Data.Toml

import RowFilter.Json.NumberReader
import RowFilter.Json.Skip
import RowFilter.Proofs.Fault

/-!
# How numbers are spelled

`IsNumber` is the grammar of numbers: a sign, digits without a superfluous zero, a fraction and an
exponent. A number of any size is skipped if the text behind it does not go on as a number does
(`Skip.number_apply`). Main result: `Number.read_toDigits`. The decimal digits of a natural number
below `2 ^ 64` are read as that number.
-/

namespace RowFilter.Json

/-! ## Numbers -/

/-- Digits, of which there is one. -/
def IsDigits (ds : List Char) : Prop := ds ≠ [] ∧ ∀ c ∈ ds, c.isDigit = true

/-- A fraction, or nothing. -/
inductive IsFraction : List Char → Prop
  | none : IsFraction []
  | some {ds : List Char} (h : IsDigits ds) : IsFraction ('.' :: ds)

/-- An exponent, or nothing. -/
inductive IsExponent : List Char → Prop
  | none : IsExponent []
  | some {e : Char} {sign ds : List Char} (he : e = 'e' ∨ e = 'E')
      (hsign : sign ∈ [[], ['+'], ['-']]) (h : IsDigits ds) : IsExponent (e :: (sign ++ ds))

/-- A number of any size. -/
inductive IsNumber : List Char → Prop
  | intro {sign whole fraction exponent : List Char} (hsign : sign ∈ [[], ['-']])
      (hwhole : IsDigits whole) (hzero : whole.head? = some '0' → whole = ['0'])
      (hfraction : IsFraction fraction) (hexponent : IsExponent exponent) :
      IsNumber (sign ++ (whole ++ (fraction ++ exponent)))

/-- A number before this text ends where the text begins. -/
def Ends (t : List Char) : Prop := ∀ c, t.head? = some c → c.isDigit = false ∧ c ∉ ['.', 'e', 'E']

/-! ## Digits -/

section Digits

variable {ds t : List Char}

/-- Behind the digits comes what is no digit. -/
theorem dropWhile_isDigit (h : ∀ c ∈ ds, c.isDigit = true)
    (ht : ∀ c, t.head? = some c → c.isDigit = false) : (ds ++ t).dropWhile Char.isDigit = t := by
  rw [List.dropWhile_append_of_pos h]
  cases t with
  | nil => rfl
  | cons c t =>
    rw [List.dropWhile_cons_of_neg]
    rw [ht c rfl]
    exact Bool.false_ne_true

/-- The digits are all that is taken. -/
theorem takeWhile_isDigit (h : ∀ c ∈ ds, c.isDigit = true)
    (ht : ∀ c, t.head? = some c → c.isDigit = false) : (ds ++ t).takeWhile Char.isDigit = ds := by
  rw [List.takeWhile_append_of_pos h]
  cases t with
  | nil => rw [List.takeWhile_nil, List.append_nil]
  | cons c t =>
    rw [List.takeWhile_cons_of_neg, List.append_nil]
    rw [ht c rfl]
    exact Bool.false_ne_true

/-- The first of the digits. -/
theorem IsDigits.exists_cons (h : IsDigits ds) : ∃ c cs, ds = c :: cs ∧ c.isDigit = true := by
  obtain ⟨c, cs, rfl⟩ := List.exists_cons_of_ne_nil h.1
  exact ⟨c, cs, rfl, h.2 c (List.mem_cons_self ..)⟩

theorem isBlank_of_isDigit {c : Char} (h : c.isDigit = true) : Reader.isBlank c = false := by
  cases hblank : Reader.isBlank c with
  | false => rfl
  | true =>
    simp only [Reader.isBlank, Bool.or_eq_true, beq_iff_eq] at hblank
    obtain ((rfl | rfl) | rfl) | rfl := hblank
    all_goals cases h

/-- Digits are skipped up to what is no digit. -/
theorem Skip.digits_apply (h : IsDigits ds) (ht : ∀ c, t.head? = some c → c.isDigit = false) :
    Skip.digits (ds ++ t) = .ok t := by
  obtain ⟨c, cs, rfl, hc⟩ := h.exists_cons
  have hdrop := dropWhile_isDigit h.2 ht
  rw [List.cons_append] at hdrop ⊢
  rw [Skip.digits, if_pos hc, hdrop]

/-- Digits are read up to what is no digit. -/
theorem Number.digits_apply (h : IsDigits ds) (ht : ∀ c, t.head? = some c → c.isDigit = false) :
    Number.digits (ds ++ t) = .ok (ds, t) := by
  obtain ⟨c, cs, rfl, hc⟩ := h.exists_cons
  have hdrop := dropWhile_isDigit h.2 ht
  have htake := takeWhile_isDigit h.2 ht
  rw [List.cons_append] at hdrop htake ⊢
  rw [Number.digits, if_pos hc, hdrop, htake]

end Digits

/-! ## Skipping -/

section Skipping

variable {fraction exponent t : List Char}

/-- Neither a digit nor a point follows the whole part and the fraction. -/
theorem noDigit_exponent (h : IsExponent exponent) (ht : Ends t) :
    ∀ c, (exponent ++ t).head? = some c → c.isDigit = false ∧ c ≠ '.' := by
  intro c hc
  cases h with
  | none =>
    obtain ⟨hdigit, hmark⟩ := ht c hc
    exact ⟨hdigit, fun hdot => hmark (hdot ▸ List.mem_cons_self ..)⟩
  | some he =>
    cases hc
    obtain rfl | rfl := he
    · exact ⟨rfl, by decide⟩
    · exact ⟨rfl, by decide⟩

/-- No digit follows the whole part. -/
theorem noDigit_fraction (h : IsFraction fraction) (he : IsExponent exponent) (ht : Ends t) :
    ∀ c, (fraction ++ (exponent ++ t)).head? = some c → c.isDigit = false := by
  intro c hc
  cases h with
  | none => exact (noDigit_exponent he ht c hc).1
  | some h =>
    cases hc
    rfl

/-- An exponent is skipped, whether there is one or not. -/
theorem Skip.exponent_apply (h : IsExponent exponent) (ht : Ends t) :
    Skip.exponent (exponent ++ t) = .ok t := by
  have hdigits : ∀ c, t.head? = some c → c.isDigit = false := fun c hc => (ht c hc).1
  cases h with
  | none =>
    rw [List.nil_append, Skip.exponent]
    · intro s hs
      exact (ht 'e' (by rw [hs]; rfl)).2 (by decide)
    · intro s hs
      exact (ht 'E' (by rw [hs]; rfl)).2 (by decide)
  | @some e sign ds he hsign h =>
    have hread : Skip.exponent (e :: (sign ++ ds) ++ t) = Skip.digits (ds ++ t) := by
      simp only [List.mem_cons, List.not_mem_nil, or_false] at hsign
      obtain ⟨c, cs, rfl, hc⟩ := h.exists_cons
      obtain rfl | rfl | rfl := hsign
      · obtain rfl | rfl := he
        all_goals
          rw [List.nil_append, List.cons_append, List.cons_append, Skip.exponent]
          -- a digit is no sign
          · intro s hs
            cases hs
            cases hc
          · intro s hs
            cases hs
            cases hc
      · obtain rfl | rfl := he
        · rfl
        · rfl
      · obtain rfl | rfl := he
        · rfl
        · rfl
    rw [hread, Skip.digits_apply h hdigits]

/-- A number is skipped, whatever its size, from behind its sign. -/
theorem Skip.number_apply {whole : List Char} (hwhole : IsDigits whole)
    (hzero : whole.head? = some '0' → whole = ['0']) (hfraction : IsFraction fraction)
    (hexponent : IsExponent exponent) (ht : Ends t) :
    Skip.number (whole ++ (fraction ++ (exponent ++ t))) = .ok t := by
  have hrest := noDigit_fraction hfraction hexponent ht
  have hplain : ¬((whole ++ (fraction ++ (exponent ++ t))).head? = some '0' ∧
      (((whole ++ (fraction ++ (exponent ++ t))).drop 1).head?.any Char.isDigit) = true) := by
    rintro ⟨hhead, hnext⟩
    obtain ⟨c, cs, rfl, -⟩ := hwhole.exists_cons
    cases hzero hhead
    obtain ⟨d, hd, hdigit⟩ := (Option.any_eq_true ..).mp hnext
    rw [hrest d hd] at hdigit
    cases hdigit
  rw [Skip.number, Skip.digits_apply hwhole hrest, ok_bind, if_neg hplain]
  cases hfraction with
  | none =>
    have hskip := Skip.exponent_apply hexponent ht
    rw [List.nil_append]
    split
    next hs => exact absurd rfl (noDigit_exponent hexponent ht '.' (by rw [hs]; rfl)).2
    next => exact hskip
  | @some ds h =>
    show (Skip.digits (ds ++ (exponent ++ t)) >>= Skip.exponent) = _
    rw [Skip.digits_apply h fun c hc => (noDigit_exponent hexponent ht c hc).1, ok_bind,
      Skip.exponent_apply hexponent ht]

end Skipping

/-! ## Natural numbers -/

section Natural

variable {t : List Char}

/-- The decimal digits of a number are digits, and there is one. -/
theorem isDigits_toDigits (n : Nat) : IsDigits (Nat.toDigits 10 n) :=
  ⟨Nat.toDigits_ne_nil, fun _ hc => Nat.isDigit_of_mem_toDigits (by decide) (by decide) hc⟩

/-- A number but zero is not written with a zero in front. -/
theorem head?_toDigits_ne {n : Nat} (h : 0 < n) : (Nat.toDigits 10 n).head? ≠ some '0' := by
  induction n using Nat.strongRecOn with
  | ind n ih =>
    by_cases hsmall : n < 10
    · rw [Nat.toDigits_of_lt_base hsmall, List.head?_cons, Ne, Option.some_inj,
        Nat.digitChar_eq_zero]
      omega
    · have hfront := ih (n / 10) (by omega) (by omega)
      obtain ⟨c, cs, hcons, -⟩ := (isDigits_toDigits (n / 10)).exists_cons
      rw [hcons] at hfront
      rw [Nat.toDigits_of_base_le (by decide) (by omega), hcons]
      exact hfront

/-- No number but zero is written with a zero in front. -/
theorem eq_zero_of_head?_toDigits {n : Nat} (h : (Nat.toDigits 10 n).head? = some '0') :
    Nat.toDigits 10 n = ['0'] := by
  cases n with
  | zero => rfl
  | succ n => exact absurd h (head?_toDigits_ne (Nat.succ_pos n))

/-- Digits only add to a significand. -/
theorem le_ofDigitChars (ds : List Char) (n : Nat) : n ≤ Nat.ofDigitChars 10 ds n := by
  induction ds generalizing n with
  | nil => exact Nat.le_refl n
  | cons d ds ih =>
    have hmore := ih (10 * n + (d.toNat - '0'.toNat))
    rw [Nat.ofDigitChars_cons]
    omega

/-- No digit is lost if the whole number fits the significand. -/
theorem Number.extend_eq {ds : List Char} {n : Nat}
    (h : Nat.ofDigitChars 10 ds n < 0x10000000000000000) :
    extend n ds = (Nat.ofDigitChars 10 ds n, []) := by
  induction ds generalizing n with
  | nil => rfl
  | cons d ds ih =>
    have hlonger : n * 10 + digitValue d = 10 * n + (d.toNat - '0'.toNat) := by
      rw [Nat.mul_comm, digitValue]
    rw [Nat.ofDigitChars_cons] at h ⊢
    have hfits := Nat.lt_of_le_of_lt (le_ofDigitChars ds _) h
    rw [← hlonger] at h hfits ⊢
    rw [extend]
    simp only [if_pos hfits, ih h]

/-- **Natural numbers are read**: the decimal digits of a number below `2 ^ 64` are that number. -/
theorem Number.read_toDigits {n : Nat} (h : n < 0x10000000000000000) (ht : Ends t) :
    Number.read (Nat.toDigits 10 n ++ t) = .ok (.natural n, t) := by
  have hvalue : Nat.ofDigitChars 10 (Nat.toDigits 10 n) 0 = n := Nat.ofDigitChars_ten_toDigits
  have hextend : extend 0 (Nat.toDigits 10 n) = (n, []) := by
    rw [extend_eq (by rw [hvalue]; exact h), hvalue]
  have hplain : ¬((Nat.toDigits 10 n).head? = some '0' ∧ 1 < (Nat.toDigits 10 n).length) := by
    rintro ⟨hhead, hlong⟩
    rw [eq_zero_of_head?_toDigits hhead] at hlong
    exact absurd hlong (by decide)
  have hdigits := digits_apply (isDigits_toDigits n) fun c hc => (ht c hc).1
  unfold Number.read
  split
  next isNegative s hs =>
    split at hs
    next more hminus =>
      -- a digit is no sign
      obtain ⟨c, cs, hcons, hc⟩ := (isDigits_toDigits n).exists_cons
      rw [hcons] at hminus
      cases hminus
      cases hc
    next =>
      cases hs
      rw [hdigits, ok_bind]
      dsimp only
      rw [if_neg hplain, hextend]
      dsimp only
      split
      next => exact absurd (by decide) (ht '.' rfl).2
      next => exact absurd (by decide) (ht 'e' rfl).2
      next => exact absurd (by decide) (ht 'E' rfl).2
      next => rfl

end Natural

end RowFilter.Json

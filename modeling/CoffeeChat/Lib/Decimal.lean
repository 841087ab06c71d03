import Mathlib.Algebra.Group.Nat.Defs
import Mathlib.Data.List.TakeWhile

/-!
# Decimal text

Numbers as C prints and reads them: `decimal` is what `std::to_string` makes of an unsigned number,
`strtol` and `atoi` read a text in base 10, for a `long` of 64 bits and an `int` of 32. What is
printed is read back (`strtol_decimal`, `atoi_decimal`).
-/

namespace Lib.Decimal

/-- The decimal digits of a number as ASCII bytes. -/
def decimal (n : Nat) : List UInt8 :=
  (Nat.toDigits 10 n).map fun c ↦ UInt8.ofNat c.toNat

/-- `isspace` of the C locale. -/
def isSpace (b : UInt8) : Bool :=
  b = 32 || 9 ≤ b && b ≤ 13

/-- `isdigit`. -/
def isDigit (b : UInt8) : Bool :=
  48 ≤ b && b ≤ 57

/-- The value of the digits a text starts with; zero if there are none. -/
def leadingNat (bs : List UInt8) : Nat :=
  (bs.takeWhile isDigit).foldl (fun n b ↦ 10 * n + (b.toNat - 48)) 0

/-- `strtol(s, nullptr, 10)`: spaces, a sign, digits; what exceeds a `long` is cut to it. -/
def strtol (bs : List UInt8) : Int :=
  let text := bs.dropWhile isSpace
  if text.head? = some 45 then -(min (2 ^ 63) (leadingNat text.tail) : Nat)
  else if text.head? = some 43 then (min (2 ^ 63 - 1) (leadingNat text.tail) : Nat)
  else (min (2 ^ 63 - 1) (leadingNat text) : Nat)

/-- `atoi(s)`, which is `(int)strtol(s, nullptr, 10)`. -/
def atoi (bs : List UInt8) : Int32 :=
  Int32.ofInt (strtol bs)

/-! ## Printing and reading -/

theorem toNat_ofNat_toNat {c : Char} (h : c.isDigit = true) :
    (UInt8.ofNat c.toNat).toNat = c.toNat ∧ 48 ≤ c.toNat ∧ c.toNat ≤ 57 := by
  have hle : 48 ≤ c.toNat ∧ c.toNat ≤ 57 := by
    simpa [Char.isDigit, UInt32.le_iff_toNat_le] using h
  rw [UInt8.toNat_ofNat']
  omega

/-- What is printed are digits. -/
theorem isDigit_of_mem_decimal {n : Nat} {b : UInt8} (h : b ∈ decimal n) : isDigit b = true := by
  obtain ⟨c, hc, rfl⟩ := List.mem_map.mp h
  have hdigit : c.isDigit = true := Nat.isDigit_of_mem_toDigits (by decide) (by decide) hc
  obtain ⟨hval, hlo, hhi⟩ := toNat_ofNat_toNat hdigit
  simp only [isDigit, Bool.and_eq_true, decide_eq_true_eq, UInt8.le_iff_toNat_le, hval]
  exact ⟨hlo, hhi⟩

/-- A digit is neither a space nor a sign. -/
theorem of_isDigit {b : UInt8} (h : isDigit b = true) : isSpace b = false ∧ b ≠ 45 ∧ b ≠ 43 := by
  have hle : 48 ≤ b.toNat ∧ b.toNat ≤ 57 := by
    simpa [isDigit, UInt8.le_iff_toNat_le] using h
  refine ⟨?_, ?_, ?_⟩
  · simp only [isSpace, Bool.or_eq_false_iff, Bool.and_eq_false_iff, decide_eq_false_iff_not,
      UInt8.le_iff_toNat_le, ← UInt8.toNat_inj]
    have hnine : (9 : UInt8).toNat = 9 := rfl
    have hthirteen : (13 : UInt8).toNat = 13 := rfl
    have hspace : (32 : UInt8).toNat = 32 := rfl
    omega
  all_goals
    intro heq
    subst heq
    exact absurd hle (by decide)

/-- The digits printed have the value of the number. -/
theorem leadingNat_decimal (n : Nat) : leadingNat (decimal n) = n := by
  have hall : ∀ b ∈ decimal n, isDigit b = true := fun b ↦ isDigit_of_mem_decimal
  rw [leadingNat, List.takeWhile_eq_self_iff.mpr hall, decimal, List.foldl_map]
  have hfold (cs : List Char) (hcs : ∀ c ∈ cs, c.isDigit = true) (m : Nat) :
      cs.foldl (fun n c ↦ 10 * n + ((UInt8.ofNat c.toNat).toNat - 48)) m =
        Nat.ofDigitChars 10 cs m := by
    induction cs generalizing m with
    | nil => rfl
    | cons c cs ih =>
        obtain ⟨hval, -⟩ := toNat_ofNat_toNat (hcs c List.mem_cons_self)
        rw [List.foldl_cons, hval, ih (fun d hd ↦ hcs d (List.mem_cons_of_mem _ hd)),
          Nat.ofDigitChars_cons]
        rfl
  rw [hfold _ (fun c hc ↦ Nat.isDigit_of_mem_toDigits (by decide) (by decide) hc)]
  exact Nat.ofDigitChars_ten_toDigits

/-- A number that is printed and read is the number, cut to a `long`. -/
theorem strtol_decimal (n : Nat) : strtol (decimal n) = (min (2 ^ 63 - 1) n : Nat) := by
  have hne : decimal n ≠ [] := by simp [decimal, Nat.toDigits_ne_nil]
  obtain ⟨b, bs, hbs⟩ := List.exists_cons_of_ne_nil hne
  have hb : isDigit b = true := isDigit_of_mem_decimal (hbs ▸ List.mem_cons_self)
  obtain ⟨hspace, hminus, hplus⟩ := of_isDigit hb
  have htext : (decimal n).dropWhile isSpace = decimal n := by
    rw [hbs, List.dropWhile_cons_of_neg (by simp [hspace])]
  have hhead : (decimal n).head? = some b := by rw [hbs]; rfl
  simp only [strtol, htext, hhead, Option.some.injEq, hminus, hplus, if_false,
    leadingNat_decimal]

/-- A number that fits an `int` is printed and read back. -/
theorem atoi_decimal {n : Nat} (h : n < 2 ^ 31) : (atoi (decimal n)).toInt = n := by
  rw [atoi, strtol_decimal, Nat.min_eq_right (by omega)]
  exact Int32.toInt_ofInt_of_le (by omega) (by omega)

end Lib.Decimal

import Mathlib.Data.List.Basic

/-! Byte strings, the decimal numerals of array indices, and `std::stoi`. -/

namespace SocketEvents

/-- `std::string`, a sequence of bytes. -/
abbrev CString := List UInt8

def byteOf (c : Char) : UInt8 := UInt8.ofNat c.toNat

def text (literal : String) : CString := literal.toList.map byteOf

/-- The bytes before the first NUL, as `c_str()` is read. -/
def cStr (value : CString) : CString := value.takeWhile (· ≠ 0)

def numeral (index : Nat) : CString := (Nat.toDigits 10 index).map byteOf

inductive Exception
  | typeError (id : Nat)
  | parseError
  | invalidArgument
  | outOfRange
  | badAnyCast
  | badAlloc
  | systemError
  | argumentException (message : CString)
  deriving DecidableEq, Repr

/-- `ArgumentException` inherits `std::exception` privately, so no handler for the latter
applies to it. -/
def Exception.isStd : Exception → Bool
  | .argumentException _ => false
  | _ => true

def isSpace (c : UInt8) : Bool := c = 32 || (9 ≤ c && c ≤ 13)

def isDigit (c : UInt8) : Bool := 48 ≤ c && c ≤ 57

def digitsFrom : List UInt8 → Nat → Nat
  | [], value => value
  | c :: rest, value =>
      if isDigit c then digitsFrom rest (10 * value + (c.toNat - 48)) else value

def startsWithDigit : List UInt8 → Bool
  | [] => false
  | c :: _ => isDigit c

def signed : List UInt8 → Bool × List UInt8
  | [] => (false, [])
  | c :: rest =>
      if c = 45 then (true, rest) else if c = 43 then (false, rest) else (false, c :: rest)

def stoi (digits : CString) : Except Exception Int :=
  let (negative, body) := signed (digits.dropWhile isSpace)
  if startsWithDigit body then
    let value : Int := if negative then -(digitsFrom body 0) else digitsFrom body 0
    if -2147483648 ≤ value ∧ value ≤ 2147483647 then .ok value else .error .outOfRange
  else
    .error .invalidArgument

theorem stoi_error_isStd {digits : CString} {exception : Exception}
    (failed : stoi digits = .error exception) : exception.isStd = true := by
  unfold stoi at failed
  dsimp only at failed
  split at failed
  · split at failed
    all_goals
      split at failed
      · simp at failed
      · simp only [Except.error.injEq] at failed
        simp [← failed, Exception.isStd]
  · simp only [Except.error.injEq] at failed
    simp [← failed, Exception.isStd]

def digitByte (digit : Nat) : UInt8 := byteOf (Nat.digitChar digit)

theorem digitByte_spec : ∀ digit < 10,
    isDigit (digitByte digit) = true ∧ (digitByte digit).toNat - 48 = digit := by
  decide

theorem isDigit_ordinary {c : UInt8} (digit : isDigit c = true) :
    isSpace c = false ∧ c ≠ 45 ∧ c ≠ 43 ∧ c ≠ 47 := by
  simp only [isDigit, Bool.and_eq_true, decide_eq_true_eq, UInt8.le_iff_toNat_le] at digit
  have low : 48 ≤ c.toNat := digit.1
  have other : ∀ byte : UInt8, byte.toNat < 48 → c ≠ byte := by
    intro byte below same
    subst same
    omega
  refine ⟨?_, other 45 (by decide), other 43 (by decide), other 47 (by decide)⟩
  have tooLarge : ¬ c ≤ 13 := by
    simp only [UInt8.le_iff_toNat_le]
    have : (13 : UInt8).toNat = 13 := rfl
    omega
  simp [isSpace, other 32 (by decide), tooLarge]

theorem numeral_small {index : Nat} (small : index < 10) : numeral index = [digitByte index] := by
  simp [numeral, Nat.toDigits_of_lt_base small, digitByte]

theorem numeral_large {index : Nat} (large : 10 ≤ index) :
    numeral index = numeral (index / 10) ++ [digitByte (index % 10)] := by
  have digits := Nat.toDigits_of_base_le (b := 10) (by decide) large
  simp [numeral, digits, digitByte]

theorem numeral_digits (index : Nat) :
    numeral index ≠ [] ∧ ∀ c ∈ numeral index, isDigit c = true := by
  induction index using Nat.strongRecOn with
  | ind index ih =>
      by_cases small : index < 10
      · simp [numeral_small small, (digitByte_spec index small).1]
      · have last := (digitByte_spec (index % 10) (Nat.mod_lt _ (by decide))).1
        have front := ih (index / 10) (by omega)
        rw [numeral_large (by omega)]
        refine ⟨by simp, ?_⟩
        intro c member
        rcases List.mem_append.mp member with earlier | final
        · exact front.2 c earlier
        · rw [List.mem_singleton.mp final]
          exact last

theorem digitsFrom_append (front : CString) (digit : UInt8) (value : Nat)
    (digits : ∀ c ∈ front, isDigit c = true) (last : isDigit digit = true) :
    digitsFrom (front ++ [digit]) value = 10 * digitsFrom front value + (digit.toNat - 48) := by
  induction front generalizing value with
  | nil => simp [digitsFrom, last]
  | cons c front ih =>
      have first := digits c (by simp)
      simp only [List.cons_append, digitsFrom, first, if_true]
      exact ih _ fun c member => digits c (List.mem_cons_of_mem _ member)

theorem digitsFrom_numeral (index : Nat) : digitsFrom (numeral index) 0 = index := by
  induction index using Nat.strongRecOn with
  | ind index ih =>
      by_cases small : index < 10
      · have spec := digitByte_spec index small
        simp [numeral_small small, digitsFrom, spec]
      · have spec := digitByte_spec (index % 10) (Nat.mod_lt _ (by decide))
        rw [numeral_large (by omega),
          digitsFrom_append _ _ _ (numeral_digits (index / 10)).2 spec.1,
          ih (index / 10) (by omega), spec.2]
        omega

theorem stoi_numeral (index : Nat) :
    stoi (numeral index) =
      if index ≤ 2147483647 then .ok (index : Int) else .error .outOfRange := by
  obtain ⟨nonempty, digits⟩ := numeral_digits index
  have value := digitsFrom_numeral index
  cases shape : numeral index with
  | nil => exact (nonempty shape).elim
  | cons c rest =>
      have digit : isDigit c = true := digits c (by simp [shape])
      obtain ⟨notSpace, notMinus, notPlus, _⟩ := isDigit_ordinary digit
      rw [shape] at value
      have low : (-2147483648 : Int) ≤ (index : Int) := by omega
      simp only [stoi, List.dropWhile_cons, notSpace, Bool.false_eq_true, if_false, signed,
        notMinus, notPlus, startsWithDigit, digit, if_true, value, low, true_and]
      by_cases fits : index ≤ 2147483647
      · simp [fits, show (index : Int) ≤ 2147483647 by omega]
      · simp [fits, show ¬ (index : Int) ≤ 2147483647 by omega]

theorem numeral_injective : Function.Injective numeral := by
  intro first second same
  rw [← digitsFrom_numeral first, same, digitsFrom_numeral]

end SocketEvents

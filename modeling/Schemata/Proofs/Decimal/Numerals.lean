import Mathlib.Data.List.TakeWhile
import Mathlib.Data.Nat.Digits.Defs
import Mathlib.Tactic.Ring
import Schemata.Decimal.Numeral

set_option autoImplicit false

namespace Schemata.Numeral

/-- The number that some digits denote, the ones last. -/
def decimal (digits : List Char) : Nat :=
  Nat.ofDigits 10 (digits.reverse.map fun digit => digit.toNat - '0'.toNat)

/-- What the digits among some characters denote, below zero behind a minus sign. -/
def signed (chars : List Char) : Int :=
  let magnitude := decimal (chars.filter Char.isDigit)
  if chars.head? = some '-' then -magnitude else magnitude

def cutAt (marks : List Char) (chars : List Char) : List Char × List Char :=
  (chars.takeWhile (· ∉ marks), (chars.dropWhile (· ∉ marks)).tail)

def double (chars : List Char) : Float :=
  let (mantissa, exponent) := cutAt ['e', 'E'] chars
  let (_, fraction) := cutAt ['.'] mantissa
  let digits := mantissa.filter Char.isDigit
  let magnitude := Double.ofDecimal (decimal digits) (signed exponent - fraction.length)
  if chars.head? = some '-' then -magnitude else magnitude

theorem readDigits_eq (digits : List Char) : readDigits digits = decimal digits := by
  rw [readDigits, decimal, ← List.foldr_reverse]
  induction digits.reverse with
  | nil => rfl
  | cons digit rest ih =>
    rw [List.foldr_cons, List.map_cons, Nat.ofDigits_cons, ih]
    ring

section

variable {marks before behind : List Char} {mark : Char}

theorem cutAt_of_disjoint (disjoint : ∀ char ∈ before, char ∉ marks) :
    cutAt marks before = (before, []) := by
  have all : ∀ char ∈ before, decide (char ∉ marks) = true := by simpa using disjoint
  rw [cutAt, List.takeWhile_eq_self_iff.2 all, List.dropWhile_eq_nil_iff.2 all, List.tail_nil]

theorem cutAt_append (disjoint : ∀ char ∈ before, char ∉ marks) (isMark : mark ∈ marks) :
    cutAt marks (before ++ mark :: behind) = (before, behind) := by
  have all : ∀ char ∈ before, decide (char ∉ marks) = true := by simpa using disjoint
  rw [cutAt, List.takeWhile_append_of_pos all, List.dropWhile_append_of_pos all,
    List.takeWhile_cons_of_neg (by simpa using isMark),
    List.dropWhile_cons_of_neg (by simpa using isMark), List.append_nil, List.tail_cons]

end

theorem notMem_of_plain {char : Char} {marks : List Char}
    (plain : char ∈ ['-', '+'] ∨ char.isDigit = true) (isMark : marks ⊆ ['.', 'e', 'E']) :
    char ∉ marks := by
  intro among
  have mark := isMark among
  simp only [List.mem_cons, List.not_mem_nil, or_false] at mark
  rcases mark with rfl | rfl | rfl <;> revert plain <;> decide

section

variable {chars : List Char}

theorem sign_cases (chars : List Char) :
    ∃ front, chars = front ++ (sign chars).2 ∧ front ⊆ ['-', '+'] ∧
      ((sign chars).1 = true ↔ chars.head? = some '-') := by
  unfold sign
  split
  next rest => exact ⟨['-'], rfl, by simp, by simp⟩
  next rest => exact ⟨['+'], rfl, by simp, by simp⟩
  next rest notMinus _ =>
    refine ⟨[], rfl, by simp, iff_of_false nofun fun leads => ?_⟩
    obtain ⟨rest, rfl⟩ := List.head?_eq_some_iff.1 leads
    exact notMinus rest rfl

theorem filter_sign {front : List Char} (isSign : front ⊆ ['-', '+']) :
    front.filter Char.isDigit = [] := by
  refine List.filter_eq_nil_iff.2 fun char among => ?_
  have known := isSign among
  simp only [List.mem_cons, List.not_mem_nil, or_false] at known
  rcases known with rfl | rfl <;> decide

theorem int?_eq_some {value : Int} (read : int? chars = some value) :
    value = signed chars ∧ ∀ char ∈ chars, char ∈ ['-', '+'] ∨ char.isDigit = true := by
  obtain ⟨front, split, isSign, isNegative⟩ := sign_cases chars
  unfold int? at read
  split at read
  next negative digits shape =>
    rw [shape] at split isNegative
    split at read
    next wellFormed =>
      obtain ⟨_, isDigit⟩ := Bool.and_eq_true_iff.1 wellFormed
      rw [List.all_eq_true] at isDigit
      have same : chars.filter Char.isDigit = digits := by
        rw [split, List.filter_append, filter_sign isSign, List.filter_eq_self.2 isDigit]
        rfl
      refine ⟨?_, ?_⟩
      · rw [signed, same, ← readDigits_eq]
        simpa [isNegative] using (Option.some.inj read).symm
      · intro char among
        rcases List.mem_append.1 (split ▸ among) with inFront | inDigits
        · exact .inl (isSign inFront)
        · exact .inr (isDigit char inDigits)
    next => cases read

theorem fraction_cases (chars : List Char) :
    ∃ point, chars = point ++ (fraction chars).1 ++ (fraction chars).2 ∧
      (∀ char ∈ (fraction chars).1, char.isDigit = true) ∧
      (point = ['.'] ∨ point = [] ∧ (fraction chars).1 = []) := by
  unfold fraction
  split
  next rest =>
    refine ⟨['.'], ?_, fun char among => List.mem_takeWhile_imp among, .inl rfl⟩
    rw [List.append_assoc, List.takeWhile_append_dropWhile]
    rfl
  next rest _ => exact ⟨[], rfl, by simp, .inr ⟨rfl, rfl⟩⟩

theorem exponent?_eq_some {exponent : Int} (read : exponent? chars = some exponent) :
    chars = [] ∧ exponent = 0 ∨
      ∃ mark rest, mark ∈ ['e', 'E'] ∧ chars = mark :: rest ∧ exponent = signed rest := by
  unfold exponent? at read
  split at read
  · exact .inl ⟨rfl, (Option.some.inj read).symm⟩
  next rest => exact .inr ⟨'e', rest, by simp, rfl, (int?_eq_some read).1⟩
  next rest => exact .inr ⟨'E', rest, by simp, rfl, (int?_eq_some read).1⟩
  · cases read

end

structure Parts where
  front : List Char
  whole : List Char
  point : List Char
  fraction : List Char
  rest : List Char
  exponent : Int
  isSign : front ⊆ ['-', '+']
  isWhole : ∀ char ∈ whole, char.isDigit = true
  isPoint : point = ['.'] ∨ point = [] ∧ fraction = []
  isFraction : ∀ char ∈ fraction, char.isDigit = true
  hasDigits : whole ++ fraction ≠ []
  isExponent : rest = [] ∧ exponent = 0 ∨
    ∃ mark behind, mark ∈ ['e', 'E'] ∧ rest = mark :: behind ∧ exponent = signed behind

namespace Parts

variable (parts : Parts)

def mantissa : List Char := parts.front ++ parts.whole ++ parts.point ++ parts.fraction

def unsigned : List Char := parts.whole ++ (parts.point ++ parts.fraction ++ parts.rest)

def chars : List Char := parts.mantissa ++ parts.rest

def magnitude : Float :=
  Double.ofDecimal (decimal (parts.whole ++ parts.fraction))
    (parts.exponent - parts.fraction.length)

theorem chars_eq : parts.chars = parts.front ++ parts.unsigned := by
  simp only [chars, mantissa, unsigned, List.append_assoc]

theorem notMem_whole {marks : List Char} (isMark : marks ⊆ ['.', 'e', 'E']) :
    ∀ char ∈ parts.front ++ parts.whole, char ∉ marks :=
  List.forall_mem_append.2
    ⟨fun _ among => notMem_of_plain (.inl (parts.isSign among)) isMark,
      fun char among => notMem_of_plain (.inr (parts.isWhole char among)) isMark⟩

theorem notMem_mantissa : ∀ char ∈ parts.mantissa, char ∉ ['e', 'E'] := by
  have isMark : ['e', 'E'] ⊆ ['.', 'e', 'E'] := by simp
  refine List.forall_mem_append.2 ⟨List.forall_mem_append.2 ⟨parts.notMem_whole isMark, ?_⟩, ?_⟩
  · rcases parts.isPoint with point | ⟨point, _⟩ <;> simp [point]
  · exact fun char among => notMem_of_plain (.inr (parts.isFraction char among)) isMark

theorem cutAt_chars :
    ∃ behind, cutAt ['e', 'E'] parts.chars = (parts.mantissa, behind) ∧
      signed behind = parts.exponent := by
  rcases parts.isExponent with ⟨rest, exponent⟩ | ⟨mark, behind, isMark, rest, exponent⟩
  · rw [chars, rest, exponent, List.append_nil]
    exact ⟨[], cutAt_of_disjoint parts.notMem_mantissa, rfl⟩
  · rw [chars, rest]
    exact ⟨behind, cutAt_append parts.notMem_mantissa isMark, exponent.symm⟩

theorem cutAt_mantissa : (cutAt ['.'] parts.mantissa).2 = parts.fraction := by
  have noPoint : ∀ char ∈ parts.front ++ parts.whole, char ∉ ['.'] := parts.notMem_whole (by simp)
  rcases parts.isPoint with point | ⟨point, fraction⟩
  · rw [mantissa, point, List.append_assoc, List.singleton_append,
      cutAt_append noPoint (List.mem_singleton_self _)]
  · rw [mantissa, point, fraction, List.append_nil, List.append_nil, cutAt_of_disjoint noPoint]

theorem filter_mantissa :
    parts.mantissa.filter Char.isDigit = parts.whole ++ parts.fraction := by
  have noDigits : parts.point.filter Char.isDigit = [] := by
    rcases parts.isPoint with point | ⟨point, _⟩ <;> rw [point] <;> rfl
  rw [mantissa, List.filter_append, List.filter_append, List.filter_append,
    filter_sign parts.isSign, noDigits, List.filter_eq_self.2 parts.isWhole,
    List.filter_eq_self.2 parts.isFraction, List.nil_append, List.append_nil]

theorem double_chars : double parts.chars =
    if parts.chars.head? = some '-' then -parts.magnitude else parts.magnitude := by
  obtain ⟨behind, cut, denotes⟩ := parts.cutAt_chars
  simp only [double, cut, cutAt_mantissa, filter_mantissa, denotes, magnitude]

end Parts

section

variable {chars : List Char}

theorem parts_of_float? {value : Float} (read : float? chars = some value) :
    ∃ parts : Parts, parts.chars = chars ∧ parts.unsigned = (sign chars).2 ∧
      value = if chars.head? = some '-' then -parts.magnitude else parts.magnitude := by
  obtain ⟨front, split, isSign, isNegative⟩ := sign_cases chars
  unfold float? at read
  split at read
  next negative unsigned shape =>
    rw [shape] at split isNegative
    obtain ⟨point, pointSplit, isFraction, isPoint⟩ :=
      fraction_cases (unsigned.dropWhile Char.isDigit)
    split at read
    next fraction rest fractionShape =>
      rw [fractionShape] at pointSplit isFraction isPoint
      simp only at read
      split at read
      next => cases read
      next hasDigits =>
        obtain ⟨exponent, exponentRead, isValue⟩ := Option.map_eq_some_iff.1 read
        let parts : Parts :=
          ⟨front, unsigned.takeWhile Char.isDigit, point, fraction, rest, exponent, isSign,
            fun char among => List.mem_takeWhile_imp among, isPoint, isFraction,
            by simpa using hasDigits, exponent?_eq_some exponentRead⟩
        have isUnsigned : parts.unsigned = unsigned := by
          rw [Parts.unsigned, ← pointSplit, List.takeWhile_append_dropWhile]
        refine ⟨parts, ?_, shape ▸ isUnsigned, ?_⟩
        · rw [parts.chars_eq, isUnsigned, ← split]
        · rw [← isValue, readDigits_eq]
          simp [isNegative, Parts.magnitude, parts]

theorem float?_eq_some {value : Float} (read : float? chars = some value) :
    value = double chars := by
  obtain ⟨parts, rfl, _, isValue⟩ := parts_of_float? read
  exact isValue.trans parts.double_chars.symm

theorem int?_of_float? {value : Float} (read : float? chars = some value)
    (noMark : ∀ char ∈ chars, char ∉ ['.', 'e', 'E']) : int? chars = some (signed chars) := by
  obtain ⟨parts, rfl, isUnsigned, _⟩ := parts_of_float? read
  have noPoint : parts.point = [] ∧ parts.fraction = [] := by
    refine parts.isPoint.resolve_left fun point => noMark '.' ?_ (by simp)
    simp [Parts.chars, Parts.mantissa, point]
  have noExponent : parts.rest = [] := by
    rcases parts.isExponent with ⟨rest, _⟩ | ⟨mark, behind, isMark, rest, _⟩
    · exact rest
    · exact absurd (List.mem_cons_of_mem _ isMark) (noMark mark (by simp [Parts.chars, rest]))
  have digits : (sign parts.chars).2 = parts.whole := by
    simp [← isUnsigned, Parts.unsigned, noPoint, noExponent]
  have nonempty : parts.whole ≠ [] := by simpa [noPoint] using parts.hasDigits
  have isDigit := List.all_eq_true.2 parts.isWhole
  have exists_int : ∃ value, int? parts.chars = some value := by
    simp [int?, digits, nonempty, isDigit]
  obtain ⟨value, read⟩ := exists_int
  rw [read, (int?_eq_some read).1]

end

end Schemata.Numeral

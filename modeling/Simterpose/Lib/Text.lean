import Mathlib.Data.List.TakeWhile
import Mathlib.Data.Nat.Init

/-! # Text in C

Strings end at a NUL, numbers are printed with a width that is a minimum only, and are read as far as
they go. Here are the functions of the C library that take texts apart, on lists of characters, and
that they read back what was printed.
-/

namespace Simterpose.Lib

def nul : Char := Char.ofNat 0

/-- The string at the start of some memory. -/
def cString (memory : List Char) : List Char := memory.takeWhile (· ≠ nul)

/-- `strncpy`: no NUL ends the copy of a string that is too long. -/
def strncpy (n : Nat) (memory : List Char) : List Char :=
  (cString memory).take n ++ List.replicate (n - (cString memory).length) nul

/-- The characters up to the end of the line, if there is room for them, and what is left. -/
def readLine : (room : Nat) → List Char → List Char × List Char
  | 0, file => ([], file)
  | _ + 1, [] => ([], [])
  | room + 1, c :: file =>
      if c = '\n' then ([c], file) else (c :: (readLine room file).1, (readLine room file).2)

/-- `fgets`: the buffer, which keeps what it held behind the NUL, and what is left of the file. -/
def fgets (buff file : List Char) : Option (List Char × List Char) :=
  if file = [] then none
  else
    let (line, file) := readLine (buff.length - 1) file
    some (line ++ nul :: buff.drop (line.length + 1), file)

/-- `strtok`: the first token and what is behind the delimiter that ends it. -/
def strtok (delim : Char) (s : List Char) : Option (List Char × List Char) :=
  let s := s.dropWhile (· = delim)
  if s = [] then none else some (s.takeWhile (· ≠ delim), (s.dropWhile (· ≠ delim)).drop 1)

/-- `isspace` -/
def isSpace (c : Char) : Bool := c = ' ' || (9 ≤ c.toNat && c.toNat ≤ 13)

/-- The number that the digits at the start make. -/
def leadingNat (s : List Char) : Nat := Nat.ofDigitChars 10 (s.takeWhile Char.isDigit) 0

def longMax : Int := 0x7fffffffffffffff

/-- `strtol` in base ten. -/
def strtol (s : List Char) : Int :=
  let s := s.dropWhile isSpace
  if s.head? = some '-' then max (-longMax - 1) (-leadingNat (s.drop 1))
  else if s.head? = some '+' then min longMax (leadingNat (s.drop 1))
  else min longMax (leadingNat s)

/-- `atoi`, which cuts the number to an `int`. -/
def atoi (s : List Char) : Int := (strtol s).bmod 0x100000000

def hexValue (c : Char) : Option Nat :=
  if '0' ≤ c ∧ c ≤ '9' then some (c.toNat - '0'.toNat)
  else if 'A' ≤ c ∧ c ≤ 'F' then some (c.toNat - 'A'.toNat + 10)
  else if 'a' ≤ c ∧ c ≤ 'f' then some (c.toNat - 'a'.toNat + 10)
  else none

def isHexDigit (c : Char) : Bool := (hexValue c).isSome

def hexNumber (digits : List Char) : Nat := digits.foldl (fun n c => 16 * n + (hexValue c).getD 0) 0

def ulongMax : Nat := 0xffffffffffffffff

/-- `"%X"` of `scanf`: the number and what is behind it. -/
def scanHex (s : List Char) : Option (Int × List Char) :=
  let s := s.dropWhile isSpace
  let signed := s.head? = some '-'
  let s := if s.head? = some '-' ∨ s.head? = some '+' then s.drop 1 else s
  let s := if s.take 2 = ['0', 'x'] ∨ s.take 2 = ['0', 'X'] then s.drop 2 else s
  let digits := s.takeWhile isHexDigit
  if digits = [] then none
  else
    let n := hexNumber digits
    some (if ulongMax < n then (ulongMax : Int) else if signed then -(n : Int) else n,
      s.dropWhile isHexDigit)

/-- `"%d"` of `printf`. -/
def printInt (n : Int) : List Char :=
  if n < 0 then '-' :: Nat.toDigits 10 n.natAbs else Nat.toDigits 10 n.natAbs

/-- `"%X"` of `printf`. -/
def printHex (n : Nat) : List Char := (Nat.toDigits 16 n).map Char.toUpper

/-- `"%*d"` of `printf`. -/
def intField (width : Nat) (n : Int) : List Char := List.leftpad width ' ' (printInt n)

/-- `"%0*X"` of `printf`. -/
def hexField (width n : Nat) : List Char := List.leftpad width '0' (printHex n)

/-! ## Lines and strings -/

/-- A text that `fgets` does not stop in and that has no end of a string in it. -/
def OneLine (s : List Char) : Prop := ∀ c ∈ s, c ≠ '\n' ∧ c ≠ nul

@[simp] theorem oneLine_nil : OneLine [] := by simp [OneLine]

@[simp] theorem oneLine_cons {c : Char} {s : List Char} :
    OneLine (c :: s) ↔ (c ≠ '\n' ∧ c ≠ nul) ∧ OneLine s := by
  simp [OneLine]

@[simp] theorem oneLine_append {s t : List Char} : OneLine (s ++ t) ↔ OneLine s ∧ OneLine t := by
  simp only [OneLine, List.mem_append]
  constructor
  · intro both
    exact ⟨fun c member => both c (.inl member), fun c member => both c (.inr member)⟩
  · rintro ⟨left, right⟩ c (member | member)
    · exact left c member
    · exact right c member

/-- What is behind an end is not taken. -/
theorem takeWhile_append_cons {p : Char → Bool} {s rest : List Char} {c : Char} (ends : p c = false) :
    (s ++ c :: rest).takeWhile p = s.takeWhile p := by
  induction s with
  | nil => simp [ends]
  | cons d s ih => simp only [List.cons_append, List.takeWhile_cons, ih]

/-- What is taken and left of a text, if its rest starts with something else or is empty. -/
theorem takeWhile_append_of_head {p : Char → Bool} {s rest : List Char} (all : ∀ c ∈ s, p c = true)
    (ends : ∀ c ∈ rest.head?, p c = false) :
    (s ++ rest).takeWhile p = s ∧ (s ++ rest).dropWhile p = rest := by
  rw [List.takeWhile_append_of_pos all, List.dropWhile_append_of_pos all]
  cases rest with
  | nil => simp
  | cons c rest => simp [ends c rfl]

theorem readLine_of_newline {line file : List Char} (text : OneLine line) {room : Nat}
    (fits : line.length < room) : readLine room (line ++ '\n' :: file) = (line ++ ['\n'], file) := by
  induction line generalizing room with
  | nil =>
      obtain ⟨room, rfl⟩ := Nat.exists_eq_add_one.mpr fits
      simp [readLine]
  | cons c line ih =>
      obtain ⟨room, rfl⟩ := Nat.exists_eq_add_one.mpr (Nat.zero_lt_of_lt fits)
      rw [oneLine_cons] at text
      rw [List.length_cons] at fits
      rw [List.cons_append, readLine, if_neg text.1.1, ih text.2 (by omega)]
      rfl

theorem fgets_of_newline {line file buff : List Char} (text : OneLine line)
    (fits : line.length + 1 < buff.length) :
    fgets buff (line ++ '\n' :: file) =
      some (line ++ '\n' :: nul :: buff.drop (line.length + 2), file) := by
  rw [fgets, if_neg (by simp), readLine_of_newline text (by omega)]
  simp

theorem cString_of_oneLine {s rest : List Char} (text : OneLine s) :
    cString (s ++ rest) = s ++ cString rest := by
  rw [cString, List.takeWhile_append_of_pos]
  · rfl
  · intro c member
    simpa using (text c member).2

theorem oneLine_drop {s : List Char} (text : OneLine s) (n : Nat) : OneLine (s.drop n) :=
  fun c member => text c (List.mem_of_mem_drop member)

theorem oneLine_take {s : List Char} (text : OneLine s) (n : Nat) : OneLine (s.take n) :=
  fun c member => text c (List.mem_of_mem_take member)

/-- What a string buffer holds from a column of the line on that was read into it. -/
theorem cString_drop {line rest : List Char} (text : OneLine line) {n : Nat} (inside : n ≤ line.length) :
    cString ((line ++ '\n' :: nul :: rest).drop n) = line.drop n ++ ['\n'] := by
  rw [List.drop_append_of_le_length inside, cString_of_oneLine (oneLine_drop text n)]
  simp [cString, nul]

theorem cString_strncpy {n : Nat} {memory : List Char} (fits : (cString memory).length < n) :
    cString (strncpy n memory) = cString memory := by
  obtain ⟨k, more⟩ : ∃ k, n - (cString memory).length = k + 1 := ⟨n - (cString memory).length - 1, by omega⟩
  rw [strncpy, List.take_of_length_le (Nat.le_of_lt fits), more, List.replicate_succ, cString,
    takeWhile_append_cons (by simp)]
  exact List.takeWhile_eq_self_iff.mpr fun _ => List.mem_takeWhile_imp

/-! ## Tokens -/

theorem strtok_of_word {delim : Char} {blanks word rest : List Char} (skipped : ∀ c ∈ blanks, c = delim)
    (text : ∀ c ∈ word, c ≠ delim) (nonempty : word ≠ []) :
    strtok delim (blanks ++ (word ++ delim :: rest)) = some (word, rest) := by
  have first : (blanks ++ (word ++ delim :: rest)).dropWhile (· = delim) = word ++ delim :: rest := by
    rw [List.dropWhile_append_of_pos (by simpa using skipped)]
    obtain ⟨c, word, rfl⟩ := List.exists_cons_of_ne_nil nonempty
    rw [List.cons_append, List.dropWhile_cons_of_neg (by simpa using text c List.mem_cons_self)]
  obtain ⟨taken, left⟩ : (word ++ delim :: rest).takeWhile (· ≠ delim) = word ∧
      (word ++ delim :: rest).dropWhile (· ≠ delim) = delim :: rest :=
    takeWhile_append_of_head (by simpa using text) (by simp)
  simp only [strtok, first, taken, left]
  rw [if_neg (by simp)]
  rfl

/-- The first token does not depend on what is behind a delimiter, if there is something else in
    front of that. -/
theorem strtok_append_of_mem {delim c : Char} {s : List Char} (member : c ∈ s) (other : c ≠ delim) :
    ∃ word, ∀ rest, ∃ left, strtok delim (s ++ delim :: rest) = some (word, left) := by
  have nonempty : s.dropWhile (· = delim) ≠ [] := by
    intro empty
    apply other
    simpa using List.dropWhile_eq_nil_iff.mp empty c member
  refine ⟨(s.dropWhile (· = delim)).takeWhile (· ≠ delim), fun rest => ?_⟩
  have skipped : (s ++ delim :: rest).dropWhile (· = delim) = s.dropWhile (· = delim) ++ delim :: rest := by
    rw [List.dropWhile_append, if_neg (by simpa using nonempty)]
  simp only [strtok, skipped]
  rw [if_neg (by simp), takeWhile_append_cons (by simp)]
  exact ⟨_, rfl⟩

/-! ## Numbers -/

theorem ne_of_holds {p : Char → Bool} {c d : Char} (holds : p c = true) (fails : p d = false) : c ≠ d := by
  rintro rfl
  rw [holds] at fails
  cases fails

/-- A kind of characters without control characters and the blank has no space in it. -/
theorem isSpace_of_holds {p : Char → Bool} {c : Char} (holds : p c = true)
    (printing : ∀ n ≤ 32, p (Char.ofNat n) = false) : isSpace c = false := by
  have large : ¬ c.toNat ≤ 32 := by
    intro small
    exact ne_of_holds holds (printing c.toNat small) (Char.ofNat_toNat c).symm
  have blank : c ≠ ' ' := ne_of_holds holds (printing 32 (Nat.le_refl 32))
  have control : ¬ c.toNat ≤ 13 := by omega
  simp [isSpace, blank, control]

theorem oneLine_of_holds {p : Char → Bool} {s : List Char} (holds : ∀ c ∈ s, p c = true)
    (printing : ∀ n ≤ 32, p (Char.ofNat n) = false) : OneLine s := by
  intro c member
  exact ⟨ne_of_holds (holds c member) (printing 10 (by decide)),
    ne_of_holds (holds c member) (printing 0 (by decide))⟩

theorem isDigit_printing : ∀ n ≤ 32, (Char.ofNat n).isDigit = false := by
  decide

theorem isHexDigit_printing : ∀ n ≤ 32, isHexDigit (Char.ofNat n) = false := by
  decide

theorem isDigit_of_mem_decimal {n : Nat} {c : Char} (member : c ∈ Nat.toDigits 10 n) :
    c.isDigit = true :=
  Nat.isDigit_of_mem_toDigits (by decide) (by decide) member

theorem strtol_cons {c : Char} {s : List Char} (space : isSpace c = false) (minus : c ≠ '-')
    (plus : c ≠ '+') : strtol (c :: s) = min longMax (leadingNat (c :: s)) := by
  simp [strtol, space, minus, plus]

/-- A number that was printed is read up to the largest `long`. -/
theorem strtol_decimal (n : Nat) : strtol (Nat.toDigits 10 n) = min longMax n := by
  obtain ⟨c, digits, shape⟩ := List.exists_cons_of_ne_nil (Nat.toDigits_ne_nil : Nat.toDigits 10 n ≠ [])
  have first : c ∈ Nat.toDigits 10 n := by
    rw [shape]
    exact List.mem_cons_self
  have digit := isDigit_of_mem_decimal first
  have all : (Nat.toDigits 10 n).takeWhile Char.isDigit = Nat.toDigits 10 n :=
    List.takeWhile_eq_self_iff.mpr fun _ => isDigit_of_mem_decimal
  rw [shape, strtol_cons (isSpace_of_holds digit isDigit_printing) (ne_of_holds digit (by decide))
    (ne_of_holds digit (by decide)), ← shape, leadingNat, all,
    Nat.ofDigitChars_toDigits (by decide) (by decide)]

theorem hexValue_digit : ∀ d < 16, hexValue (Nat.digitChar d).toUpper = some d := by
  decide

theorem isHexDigit_of_mem_printHex {n : Nat} {c : Char} (member : c ∈ printHex n) :
    isHexDigit c = true := by
  induction n using Nat.strongRecOn with
  | ind n ih =>
      have digit : ∀ d < 16, isHexDigit (Nat.digitChar d).toUpper = true := by
        intro d small
        rw [isHexDigit, hexValue_digit d small]
        rfl
      rw [printHex, Nat.toDigits_eq_if (by decide)] at member
      split at member
      · rename_i small
        rw [List.map_singleton, List.mem_singleton] at member
        rw [member]
        exact digit n small
      · rw [List.map_append, List.mem_append, List.map_singleton, List.mem_singleton] at member
        rcases member with member | rfl
        · exact ih (n / 16) (by omega) member
        · exact digit (n % 16) (Nat.mod_lt n (by decide))

theorem hexNumber_append (digits : List Char) (c : Char) :
    hexNumber (digits ++ [c]) = 16 * hexNumber digits + (hexValue c).getD 0 := by
  rw [hexNumber, List.foldl_append]
  rfl

theorem hexNumber_printHex (n : Nat) : hexNumber (printHex n) = n := by
  induction n using Nat.strongRecOn with
  | ind n ih =>
      rw [printHex, Nat.toDigits_eq_if (by decide)]
      split
      · rename_i small
        simp [hexNumber, hexValue_digit n small]
      · have higher := ih (n / 16) (by omega)
        rw [printHex] at higher
        rw [List.map_append, List.map_singleton, hexNumber_append, higher,
          hexValue_digit _ (Nat.mod_lt n (by decide)), Option.getD_some]
        omega

theorem hexNumber_toDigits (n : Nat) : hexNumber (Nat.toDigits 16 n) = n := by
  have lower : ∀ d < 16, hexValue (Nat.digitChar d) = some d := by decide
  induction n using Nat.strongRecOn with
  | ind n ih =>
      rw [Nat.toDigits_eq_if (by decide)]
      split
      · rename_i small
        simp [hexNumber, lower n small]
      · rw [hexNumber_append, ih (n / 16) (by omega), lower _ (Nat.mod_lt n (by decide)), Option.getD_some]
        omega

/-- Zeros in front do not count. -/
theorem hexNumber_hexField (width n : Nat) : hexNumber (hexField width n) = n := by
  have zeros : ∀ k, hexNumber (List.replicate k '0' ++ printHex n) = n := by
    intro k
    induction k with
    | zero => exact hexNumber_printHex n
    | succ k ih => exact ih
  exact zeros _

theorem isHexDigit_of_mem_hexField {width n : Nat} {c : Char} (member : c ∈ hexField width n) :
    isHexDigit c = true := by
  rw [hexField, List.leftpad, List.mem_append] at member
  rcases member with member | member
  · rw [List.eq_of_mem_replicate member]
    decide
  · exact isHexDigit_of_mem_printHex member

/-- A hexadecimal number is read up to what ends it. -/
theorem scanHex_of_digits {digits rest : List Char} (hex : ∀ c ∈ digits, isHexDigit c = true)
    (nonempty : digits ≠ []) (small : hexNumber digits ≤ ulongMax)
    (ends : ∀ c ∈ rest.head?, isHexDigit c = false ∧ c ≠ 'x' ∧ c ≠ 'X') :
    scanHex (digits ++ rest) = some ((hexNumber digits : Int), rest) := by
  obtain ⟨c, more, rfl⟩ := List.exists_cons_of_ne_nil nonempty
  have digit := hex c List.mem_cons_self
  have second : ∀ d, (more ++ rest).head? = some d → d ≠ 'x' ∧ d ≠ 'X' := by
    intro d head
    cases more with
    | nil => exact (ends d head).2
    | cons e more =>
        cases head
        have digit := hex d (by simp)
        exact ⟨ne_of_holds digit (by decide), ne_of_holds digit (by decide)⟩
  have noMarker : ¬ ((c :: more ++ rest).take 2 = ['0', 'x'] ∨ (c :: more ++ rest).take 2 = ['0', 'X']) := by
    rw [List.cons_append]
    cases tail : more ++ rest with
    | nil => simp
    | cons d tail =>
        have := second d (by rw [tail]; rfl)
        simp [this]
  have skipped : (c :: more ++ rest).dropWhile isSpace = c :: more ++ rest := by
    simp [isSpace_of_holds digit isHexDigit_printing]
  obtain ⟨taken, left⟩ := takeWhile_append_of_head hex fun d head => (ends d head).1
  have noSign : ¬ ((c :: more ++ rest).head? = some '-' ∨ (c :: more ++ rest).head? = some '+') := by
    simp [ne_of_holds digit (d := '-') (by decide), ne_of_holds digit (d := '+') (by decide)]
  have positive : ¬ (c :: more ++ rest).head? = some '-' := fun head => noSign (.inl head)
  simp only [scanHex, skipped, if_neg noSign, if_neg noMarker, taken, left, if_neg nonempty,
    if_neg (Nat.not_lt.mpr small), if_neg positive]

/-! ## Fields -/

/-- A number that was printed ends in a digit. -/
theorem exists_printInt_eq_append (n : Int) :
    ∃ front c, printInt n = front ++ [c] ∧ c.isDigit = true := by
  have nonempty : Nat.toDigits 10 n.natAbs ≠ [] := Nat.toDigits_ne_nil
  have split_ := List.dropLast_concat_getLast nonempty
  have digit := isDigit_of_mem_decimal (List.getLast_mem nonempty)
  rw [printInt]
  split
  · exact ⟨'-' :: (Nat.toDigits 10 n.natAbs).dropLast, _, by rw [List.cons_append, split_], digit⟩
  · exact ⟨_, _, split_.symm, digit⟩

theorem exists_intField_eq_append (width : Nat) (n : Int) :
    ∃ front c, intField width n = front ++ [c] ∧ c.isDigit = true := by
  obtain ⟨front, c, printed, digit⟩ := exists_printInt_eq_append n
  exact ⟨_ ++ front, c, by rw [intField, List.leftpad, printed, List.append_assoc], digit⟩

theorem oneLine_decimal (n : Nat) : OneLine (Nat.toDigits 10 n) :=
  oneLine_of_holds (fun _ => isDigit_of_mem_decimal) isDigit_printing

theorem oneLine_printInt (n : Int) : OneLine (printInt n) := by
  rw [printInt]
  split
  · rw [oneLine_cons]
    exact ⟨by decide, oneLine_decimal _⟩
  · exact oneLine_decimal _

@[simp] theorem oneLine_intField (width : Nat) (n : Int) : OneLine (intField width n) := by
  rw [intField, List.leftpad, oneLine_append]
  refine ⟨?_, oneLine_printInt n⟩
  intro c member
  rw [List.eq_of_mem_replicate member]
  decide

@[simp] theorem oneLine_hexField (width n : Nat) : OneLine (hexField width n) :=
  oneLine_of_holds (fun _ => isHexDigit_of_mem_hexField) isHexDigit_printing

theorem length_intField (width : Nat) (n : Int) :
    (intField width n).length = width + ((printInt n).length - width) := by
  rw [intField, List.length_leftpad]
  omega

theorem length_hexField (width n : Nat) :
    (hexField width n).length = width + ((printHex n).length - width) := by
  rw [hexField, List.length_leftpad]
  omega

theorem length_printHex_le {n k : Nat} (positive : 0 < k) (small : n < Nat.pow 16 k) :
    (printHex n).length ≤ k := by
  rw [printHex, List.length_map]
  exact (Nat.length_toDigits_le_iff (by decide) positive).mpr small

theorem length_hexField_of_lt {width n : Nat} (positive : 0 < width) (small : n < Nat.pow 16 width) :
    (hexField width n).length = width := by
  rw [length_hexField, Nat.sub_eq_zero_of_le (length_printHex_le positive small), Nat.add_zero]

theorem length_printInt_le {n : Int} {k : Nat} (positive : 0 < k) (small : n.natAbs < Nat.pow 10 k) :
    (printInt n).length ≤ k + 1 := by
  have short : (Nat.toDigits 10 n.natAbs).length ≤ k :=
    (Nat.length_toDigits_le_iff (by decide) positive).mpr small
  rw [printInt]
  split
  · rw [List.length_cons]
    omega
  · omega

/-- A hexadecimal field that was printed is read back. -/
theorem scanHex_hexField {width n : Nat} {rest : List Char} (positive : 0 < width) (small : n ≤ ulongMax)
    (ends : ∀ c ∈ rest.head?, isHexDigit c = false ∧ c ≠ 'x' ∧ c ≠ 'X') :
    scanHex (hexField width n ++ rest) = some ((n : Int), rest) := by
  have nonempty : hexField width n ≠ [] := by
    intro empty
    have length := length_hexField width n
    rw [empty, List.length_nil] at length
    omega
  rw [scanHex_of_digits (fun _ => isHexDigit_of_mem_hexField) nonempty
    (by rwa [hexNumber_hexField]) ends, hexNumber_hexField]

end Simterpose.Lib

import Simterpose.Lib.Masks
import Simterpose.Lib.Text

/-! # Flags in the log

`print_flags` names the flags of a word: the names of a table whose bits are all set, then what
remains as a number. A reader that knows the table gets the word back.
-/

namespace Simterpose

open Lib

/-- `flag_names_t` -/
structure FlagName where
  val : BitVec 32
  name : String
  deriving DecidableEq

def flagsOpen : List FlagName :=
  [⟨0x2, "O_RDWR"⟩, ⟨0x0, "O_RDONLY"⟩, ⟨0x1, "O_WRONLY"⟩, ⟨0x800, "O_NONBLOCK"⟩, ⟨0x400, "O_APPEND"⟩,
    ⟨0x40, "O_CREAT"⟩, ⟨0x200, "O_TRUNC"⟩, ⟨0x80, "O_EXCL"⟩, ⟨0x100, "O_NOCTTY"⟩, ⟨0x101000, "O_SYNC"⟩,
    ⟨0x1000, "O_DSYNC"⟩, ⟨0x101000, "O_RSYNC"⟩, ⟨0x800, "O_NDELAY"⟩, ⟨0x80000, "O_CLOEXEC"⟩]

/-- `"%#x"` of `printf`, for a number that is not 0. -/
def printAltHex (n : Nat) : List Char := '0' :: 'x' :: Nat.toDigits 16 n

/-- The rounds of `print_flags` that are left, with its variable `first`. -/
def printFlagsLoop : List FlagName → BitVec 32 → Bool → List Char
  | [], flags, first =>
      if flags ≠ 0 then (if first then [] else ['|']) ++ printAltHex flags.toNat else []
  | entry :: names, flags, first =>
      if entry.val &&& flags = entry.val then
        (if first then [] else ['|']) ++ entry.name.toList ++
          printFlagsLoop names (flags &&& ~~~entry.val) false
      else printFlagsLoop names flags first

/-- `print_flags` -/
def printFlags (flags : BitVec 32) (names : List FlagName) : List Char := printFlagsLoop names flags true

/-! ## What a reader makes of it -/

/-- A word of the log is a name or a number. -/
def readWord (names : List FlagName) (word : List Char) : BitVec 32 :=
  ((names.find? (·.name.toList = word)).map (·.val)).getD (BitVec.ofNat 32 (hexNumber (word.drop 2)))

def readFlags (names : List FlagName) (text : List Char) : BitVec 32 :=
  ((text.splitOn '|').map (readWord names)).foldr (· ||| ·) 0

/-- A table whose names are told apart, from each other and from numbers. -/
structure Readable (names : List FlagName) : Prop where
  distinct : (names.map (·.name)).Nodup
  words : names.all fun entry =>
    !entry.name.toList.contains '|' && entry.name.toList.head?.any (· ≠ '0')

/-- The words that are printed. -/
def flagWords (names : List FlagName) (flags : BitVec 32) : List (List Char) :=
  (pickMasks FlagName.val names flags).1.map (·.name.toList) ++
    if (pickMasks FlagName.val names flags).2 = 0 then []
    else [printAltHex (pickMasks FlagName.val names flags).2.toNat]

section

variable {names : List FlagName} {flags : BitVec 32}

theorem flagWords_cons (entry : FlagName) (names : List FlagName) (flags : BitVec 32) :
    flagWords (entry :: names) flags =
      if entry.val &&& flags = entry.val then
        entry.name.toList :: flagWords names (flags &&& ~~~entry.val)
      else flagWords names flags := by
  simp only [flagWords, pickMasks]
  split <;> simp

theorem printFlagsLoop_later (names : List FlagName) (flags : BitVec 32) :
    printFlagsLoop names flags false = (flagWords names flags).flatMap fun word => '|' :: word := by
  induction names generalizing flags with
  | nil =>
      simp only [printFlagsLoop, flagWords, pickMasks]
      split <;> simp_all
  | cons entry names ih =>
      rw [flagWords_cons]
      simp only [printFlagsLoop]
      split
      · simp [ih]
      · exact ih flags

theorem printFlags_eq (names : List FlagName) (flags : BitVec 32) :
    printFlags flags names = ['|'].intercalate (flagWords names flags) := by
  have joined : ∀ (word : List Char) (words : List (List Char)),
      ['|'].intercalate (word :: words) = word ++ words.flatMap fun word => '|' :: word := by
    intro word words
    induction words generalizing word with
    | nil => simp [List.intercalate]
    | cons next words ih =>
        have rest := ih next
        simp only [List.intercalate, List.intersperse_cons_cons, List.flatten_cons] at rest ⊢
        simp [rest]
  unfold printFlags
  induction names with
  | nil =>
      simp only [printFlagsLoop, flagWords, pickMasks]
      split <;> simp_all [List.intercalate]
  | cons entry names ih =>
      rw [flagWords_cons]
      simp only [printFlagsLoop]
      split
      · rw [joined, printFlagsLoop_later]
        simp
      · exact ih

theorem bar_notMem_printAltHex (n : Nat) : '|' ∉ printAltHex n := by
  have digits : '|' ∉ Nat.toDigits 16 n := by
    intro member
    have upper : '|' ∈ printHex n := List.mem_map.mpr ⟨'|', member, by decide⟩
    exact absurd (isHexDigit_of_mem_printHex upper) (by decide)
  simpa [printAltHex] using digits

namespace Readable

variable (readable : Readable names)

include readable

theorem word {entry : FlagName} (member : entry ∈ names) :
    '|' ∉ entry.name.toList ∧ ∃ c rest, entry.name.toList = c :: rest ∧ c ≠ '0' := by
  have plain := List.all_eq_true.mp readable.words entry member
  rw [Bool.and_eq_true] at plain
  refine ⟨by simpa using plain.1, ?_⟩
  cases shape : entry.name.toList with
  | nil => simp [shape] at plain
  | cons c rest => exact ⟨c, rest, rfl, by simpa [shape] using plain.2⟩

theorem readWord_name {entry : FlagName} (member : entry ∈ names) :
    readWord names entry.name.toList = entry.val := by
  have found : names.find? (·.name.toList = entry.name.toList) = some entry := by
    obtain ⟨before, after, rfl⟩ := List.append_of_mem member
    apply List.find?_eq_some_iff_append.mpr
    refine ⟨by simp, before, after, rfl, ?_⟩
    intro other earlier
    have apart := (List.nodup_append.mp (List.map_append ▸ readable.distinct)).2.2 other.name
      (List.mem_map_of_mem earlier) entry.name (by simp)
    simpa [String.toList_inj] using apart
  rw [readWord, found]
  rfl

theorem readWord_number {word : List Char} (digit : word.head?.all (· = '0') = true) :
    readWord names word = BitVec.ofNat 32 (hexNumber (word.drop 2)) := by
  have none_named : names.find? (·.name.toList = word) = none := by
    rw [List.find?_eq_none]
    intro entry member same
    obtain ⟨-, c, rest, shape, other⟩ := readable.word member
    rw [decide_eq_true_eq, shape] at same
    subst same
    exact other (by simpa using digit)
  rw [readWord, none_named]
  rfl

end Readable

/-- What the words say is what was taken apart. -/
theorem foldr_readWord (readable : Readable names) (flags : BitVec 32) :
    ((flagWords names flags).map (readWord names)).foldr (· ||| ·) 0 = flags := by
  have named : ((pickMasks FlagName.val names flags).1.map (·.name.toList)).map (readWord names) =
      (pickMasks FlagName.val names flags).1.map (·.val) := by
    rw [List.map_map]
    apply List.map_congr_left
    intro entry picked
    exact readable.readWord_name ((pickMasks_sublist ..).subset picked)
  have number : ∀ rest : BitVec 32, readWord names (printAltHex rest.toNat) = rest := by
    intro rest
    rw [readable.readWord_number rfl, printAltHex]
    simp [hexNumber_toDigits]
  have whole : joinMasks FlagName.val (pickMasks FlagName.val names flags).1 _ = flags :=
    joinMasks_pickMasks names flags
  rw [flagWords, List.map_append, List.foldr_append, named, List.foldr_map]
  rw [joinMasks] at whole
  split
  · rename_i nothing
    rwa [nothing] at whole
  · rw [List.map_singleton, number]
    simpa using whole

/-- A reader of the log gets the flags back from their text. -/
theorem printed_flags_read_back (readable : Readable names) (flags : BitVec 32) :
    readFlags names (printFlags flags names) = flags := by
  rw [readFlags, printFlags_eq]
  by_cases empty : flagWords names flags = []
  · -- nothing is printed for 0 only
    have zero := foldr_readWord readable flags
    rw [empty] at zero ⊢
    have blank : readWord names [] = 0 := readable.readWord_number rfl
    simpa [List.intercalate, List.splitOn, blank] using zero
  · rw [List.splitOn_intercalate '|' _ empty]
    · exact foldr_readWord readable flags
    · intro word member
      rw [flagWords, List.mem_append] at member
      rcases member with name | number
      · obtain ⟨entry, picked, rfl⟩ := List.mem_map.mp name
        exact (readable.word ((pickMasks_sublist ..).subset picked)).1
      · split at number
        · cases number
        · rw [List.mem_singleton] at number
          rw [number]
          exact bar_notMem_printAltHex _

end

theorem flagsOpen_readable : Readable flagsOpen where
  distinct := by decide
  words := by decide

theorem synchronous_read_back : readFlags flagsOpen (printFlags 0x101442 flagsOpen) = 0x101442 :=
  printed_flags_read_back flagsOpen_readable 0x101442

end Simterpose

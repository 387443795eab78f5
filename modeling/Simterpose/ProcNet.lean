import Mathlib.Data.List.Find
import Simterpose.State
import Simterpose.Lib.Loop
import Simterpose.Lib.Text

/-! # The tables of `/proc/net`

`get_addr_port` looks for a socket in a table of the kernel, a line at a time, and reads its address.
It takes the inode from column 91 on and the addresses from column 6 on, where they stand if all
fields in front of them are as wide as the format says. The widths of the format are minima only: a
slot, a uid or a timeout with more digits moves what is behind it.
-/

namespace Simterpose

open Lib

/-! ## The code -/

inductive NetProtocol where
  | tcp | udp | raw
  deriving Repr, DecidableEq

/-- `LOCAL` and `REMOTE` -/
inductive NetSide where
  | localSide | remoteSide
  deriving Repr, DecidableEq

/-- The two fields of a `struct sockaddr_in` that `get_addr_port` stores to, as it stores them. -/
structure AddrPort where
  sAddr : UInt32
  sinPort : UInt16
  deriving Repr, DecidableEq

def procNetFile : NetProtocol → String
  | .tcp => "/proc/net/tcp"
  | .udp => "/proc/net/udp"
  | .raw => "/proc/net/raw"

def inodeOffset : Nat := 91

/-- `atoi(inode)` for the line in `buff`; `strtok` is NULL if there is nothing but blanks. -/
def readInode (buff : List Char) : Result Int :=
  let partInode := strncpy (512 - inodeOffset) (buff.drop inodeOffset)
  match strtok ' ' (cString partInode) with
  | none => throw .segfault
  | some (inode, _) => pure (atoi inode)

/-- `sscanf(s, "%X:%hX", …)`: what does not match is not stored. -/
def scanAddrPort (s : List Char) (addrPort : AddrPort) : AddrPort :=
  match scanHex s with
  | none => addrPort
  | some (sAddr, s) =>
      let addrPort := { addrPort with sAddr := UInt32.ofInt sAddr }
      match s with
      | ':' :: s =>
          match scanHex s with
          | none => addrPort
          | some (sinPort, _) => { addrPort with sinPort := UInt16.ofInt sinPort }
      | _ => addrPort

/-- The address of the line in `buff`. No NUL need end `addrs`, so that the strings in it go on with
    the memory `beyond` it. -/
def readAddrPort (addr : NetSide) (beyond buff : List Char) (addrPort : AddrPort) : Result AddrPort :=
  let addrs := strncpy 27 (buff.drop 6)
  match strtok ' ' (cString (addrs ++ beyond)) with
  | none => throw .segfault
  | some (locAddrHex, rest) =>
      match addr with
      | .localSide => pure (scanAddrPort locAddrHex addrPort)
      | .remoteSide =>
          match strtok ' ' rest with
          | none => throw .segfault
          | some (remAddrHex, _) => pure (scanAddrPort remAddrHex addrPort)

/-- What is left of the file, and the buffer for a line of it. -/
structure Scanning where
  file : List Char
  buff : List Char
  deriving DecidableEq

section
variable (numSock : Int) (addrPort : AddrPort) (addr : NetSide) (beyond : List Char)

def scanRound (s : Scanning) : Iteration Scanning (Result (Int × AddrPort)) :=
  match fgets s.buff s.file with
  | none => .stop (pure (-1, addrPort))
  | some (buff, file) =>
      match readInode buff with
      | .error halt => .stop (.error halt)
      | .ok inode =>
          if inode = numSock then
            .stop (do
              let addrPort ← readAddrPort addr beyond buff addrPort
              pure (1, addrPort))
          else .again { file := file, buff := buff }

/-- `get_addr_port`: what it returns, and what is in `addr_port` then. The buffer is not initialised,
    and `beyond` is behind `addrs` on the stack. -/
def getAddrPort (fopen : String → Except String (List Char)) (type : NetProtocol)
    (stale : Fin 512 → Char) : Result (Int × AddrPort) :=
  match fopen (procNetFile type) with
  | .error strerror =>
      throw (.xbtDie ("ERROR while opening file /proc/net/???. Bailing out now (" ++ strerror ++ ")"))
  | .ok file =>
      -- each round reads a character at least
      (loop (scanRound numSock addrPort addr beyond) (file.length + 1)
        { file := file, buff := List.ofFn stale }).getD (throw .endless)

end

/-! ## What the kernel prints -/

/-- The fields of a line. -/
structure NetFields where
  slot : Int32
  localAddress : UInt32
  localPort : UInt16
  remAddress : UInt32
  remPort : UInt16
  state : UInt8
  txQueue : UInt32
  rxQueue : UInt32
  timer : UInt8
  expires : UInt64
  retransmits : UInt32
  uid : UInt32
  timeout : Int32
  inode : UInt64
  deriving Repr, DecidableEq

namespace NetFields

/-- `"%08X:%04X"` -/
def endpoint (address : UInt32) (port : UInt16) : List Char :=
  hexField 8 address.toNat ++ ':' :: hexField 4 port.toNat

/-- `"%08X:%04X %02X %08X:%08X %02X:%08lX %08X %5u %8d"`, from the remote address on. -/
def middle (f : NetFields) : List Char :=
  endpoint f.remAddress f.remPort ++ ' ' :: (hexField 2 f.state.toNat ++ ' ' ::
    (hexField 8 f.txQueue.toNat ++ ':' :: (hexField 8 f.rxQueue.toNat ++ ' ' ::
      (hexField 2 f.timer.toNat ++ ':' :: (hexField 8 f.expires.toNat ++ ' ' ::
        (hexField 8 f.retransmits.toNat ++ ' ' :: (intField 5 f.uid.toNat ++ ' ' ::
          intField 8 f.timeout.toInt)))))))

/-- What is in front of the blank before the inode. -/
def front (f : NetFields) : List Char :=
  intField 4 f.slot.toInt ++ ':' :: ' ' :: (endpoint f.localAddress f.localPort ++ ' ' :: f.middle)

def text (f : NetFields) (rest : List Char) : List Char :=
  f.front ++ ' ' :: (Nat.toDigits 10 f.inode.toNat ++ ' ' :: rest)

/-- The number of characters by which fields are wider than the format says. -/
def shift (f : NetFields) : Nat :=
  ((printInt f.slot.toInt).length - 4) + ((printHex f.expires.toNat).length - 8) +
    ((printInt f.uid.toNat).length - 5) + ((printInt f.timeout.toInt).length - 8)

/-- The inode as an `int`, which is how the code reads it. -/
def inodeInt (f : NetFields) : Int := (min longMax (f.inode.toNat : Int)).bmod 0x100000000

/-- An inode that is not taken for another one: a number of 32 bits, or one that is read as none
    that sockets have. -/
def InodeFits (f : NetFields) : Prop := f.inode.toNat < 0x100000000 ∨ f.inodeInt ≤ 0

/-- Two lines whose fields of a variable width agree, the inode apart. -/
def SameWidths (f g : NetFields) : Prop :=
  f.slot = g.slot ∧ f.expires = g.expires ∧ f.uid = g.uid ∧ f.timeout = g.timeout

end NetFields

/-- A line with what is behind the inode, shorter than the buffer. -/
structure NetLine extends NetFields where
  rest : List Char
  rest_text : OneLine rest
  short : (toNetFields.text rest).length + 1 < 512

/-- A table: the header has the word `inode` at column 91, or blanks in front of it. -/
structure NetTable where
  header : List Char
  more : List Char
  header_text : OneLine header
  header_short : header.length + 1 < 512
  header_inode : (header.drop 91).dropWhile (· = ' ') = "inode".toList ++ more
  lines : List NetLine

namespace NetLine

def text (l : NetLine) : List Char := l.toNetFields.text l.rest

/-- The local address and port. -/
def addrPort (l : NetLine) : AddrPort := { sAddr := l.localAddress, sinPort := l.localPort }

end NetLine

def NetTable.body (lines : List NetLine) : List Char := lines.flatMap fun l => l.text ++ ['\n']

def NetTable.text (t : NetTable) : List Char := t.header ++ '\n' :: NetTable.body t.lines

/-- What the caller is told about a line that was looked for. -/
def netAnswer (addrPort : AddrPort) : Option NetLine → Int × AddrPort
  | some l => (1, l.addrPort)
  | none => (-1, addrPort)

/-- The search in a table gives the local address of the line with the inode, for every inode that
    an `int` can be. -/
def NetTable.Right (t : NetTable) : Prop :=
  ∀ (numSock : Int) (addrPort : AddrPort) (beyond : List Char)
    (fopen : String → Except String (List Char)) (type : NetProtocol) (stale : Fin 512 → Char),
    0 < numSock → numSock < 0x80000000 → fopen (procNetFile type) = .ok t.text →
    getAddrPort numSock addrPort .localSide beyond fopen type stale =
      .ok (netAnswer addrPort (t.lines.find? fun l => (l.inode.toNat : Int) = numSock))

/-! ## The columns of a line -/

theorem length_hexField_word (n : UInt32) : (hexField 8 n.toNat).length = 8 :=
  length_hexField_of_lt (by decide) (Nat.lt_of_lt_of_le n.toNat_lt (by decide))

theorem length_hexField_half (n : UInt16) : (hexField 4 n.toNat).length = 4 :=
  length_hexField_of_lt (by decide) (Nat.lt_of_lt_of_le n.toNat_lt (by decide))

theorem length_hexField_byte (n : UInt8) : (hexField 2 n.toNat).length = 2 :=
  length_hexField_of_lt (by decide) (Nat.lt_of_lt_of_le n.toNat_lt (by decide))

namespace NetFields
variable {f g : NetFields} {rest : List Char}

theorem length_endpoint (address : UInt32) (port : UInt16) : (endpoint address port).length = 13 := by
  rw [endpoint, List.length_append, List.length_cons, length_hexField_word, length_hexField_half]

theorem length_front (f : NetFields) : f.front.length = 90 + f.shift := by
  simp only [front, middle, shift, List.length_append, List.length_cons, length_endpoint,
    length_intField, length_hexField_word, length_hexField_byte, length_hexField 8 f.expires.toNat]
  omega

theorem oneLine_endpoint (address : UInt32) (port : UInt16) : OneLine (endpoint address port) := by
  simp [endpoint, nul]

theorem oneLine_front (f : NetFields) : OneLine f.front := by
  simp [front, middle, oneLine_endpoint, nul]

theorem oneLine_text (f : NetFields) (behind : OneLine rest) : OneLine (f.text rest) := by
  simp [text, oneLine_front, oneLine_decimal, behind, nul]

/-- The last character of the timeout is in front of the inode. -/
theorem exists_front_eq_append (f : NetFields) : ∃ front c, f.front = front ++ [c] ∧ c.isDigit = true := by
  obtain ⟨timeout, c, printed, digit⟩ := exists_intField_eq_append 8 f.timeout.toInt
  simp only [front, middle, printed, ← List.append_assoc, ← List.cons_append]
  exact ⟨_, c, rfl, digit⟩

/-- Fields that are at most one character wider let the inode be read. -/
theorem strtok_of_aligned (aligned : f.shift ≤ 1) :
    strtok ' ' ((f.text rest).drop 91 ++ ['\n']) =
      some (Nat.toDigits 10 f.inode.toNat, rest ++ ['\n']) := by
  have length := length_front f
  have column : (f.text rest).drop 91 =
      List.replicate f.shift ' ' ++ (Nat.toDigits 10 f.inode.toNat ++ ' ' :: rest) := by
    rw [text, List.drop_append, List.drop_of_length_le (by omega), List.nil_append]
    obtain zero | one : f.shift = 0 ∨ f.shift = 1 := by omega
    · rw [length, zero]
      rfl
    · rw [length, one]
      rfl
  rw [column, List.append_assoc, List.append_assoc, List.cons_append]
  apply strtok_of_word (fun _ => List.eq_of_mem_replicate) _ Nat.toDigits_ne_nil
  intro c member
  exact ne_of_holds (isDigit_of_mem_decimal member) (by decide)

/-- If the fields are wider, what is read does not depend on the inode. -/
theorem strtok_of_shifted (shifted : 2 ≤ f.shift) :
    ∃ word, ∀ inode rest, ∃ left,
      strtok ' ' (({ f with inode := inode }.text rest).drop 91 ++ ['\n']) = some (word, left) := by
  obtain ⟨front, c, split_, digit⟩ := exists_front_eq_append f
  have length := length_front f
  rw [split_, List.length_append, List.length_singleton] at length
  have column : f.front.drop 91 = front.drop 91 ++ [c] := by
    rw [split_, List.drop_append_of_le_length (by omega)]
  have member : c ∈ f.front.drop 91 := by
    rw [column]
    exact List.mem_append_right _ List.mem_cons_self
  obtain ⟨word, first⟩ := strtok_append_of_mem member (ne_of_holds digit (d := ' ') (by decide))
  refine ⟨word, fun inode rest => ?_⟩
  have same : { f with inode := inode }.front = f.front := rfl
  rw [text, same, List.drop_append_of_le_length (by rw [length_front]; omega), List.append_assoc,
    List.cons_append]
  exact first _

theorem ne_space_of_mem_endpoint {address : UInt32} {port : UInt16} {c : Char}
    (member : c ∈ endpoint address port) : c ≠ ' ' := by
  have digit : ∀ {width n}, c ∈ hexField width n → c ≠ ' ' := fun inside =>
    ne_of_holds (isHexDigit_of_mem_hexField inside) (by decide)
  rw [endpoint, List.mem_append, List.mem_cons] at member
  rcases member with inside | rfl | inside
  · exact digit inside
  · decide
  · exact digit inside

/-- A slot of at most five characters lets the local address be read. -/
theorem strtok_of_slot (narrow : (printInt f.slot.toInt).length ≤ 5) (beyond : List Char) :
    ∃ left, strtok ' ' (((f.text rest).drop 6).take 27 ++ beyond) =
      some (endpoint f.localAddress f.localPort, left) := by
  have slotLength := length_intField 4 f.slot.toInt
  obtain ⟨k, wider⟩ : ∃ k, (printInt f.slot.toInt).length - 4 = k := ⟨_, rfl⟩
  obtain ⟨more, behind⟩ : ∃ more, (f.text rest).drop 6 =
      List.replicate k ' ' ++ (endpoint f.localAddress f.localPort ++ ' ' :: more) := by
    refine ⟨f.middle ++ ' ' :: (Nat.toDigits 10 f.inode.toNat ++ ' ' :: rest), ?_⟩
    rw [text, front, List.append_assoc, List.drop_append, List.drop_of_length_le (by omega),
      List.nil_append, slotLength, wider]
    obtain rfl | rfl : k = 0 ∨ k = 1 := by omega
    · simp
    · simp
  have addressLength := length_endpoint f.localAddress f.localPort
  rw [behind, List.take_append, List.take_of_length_le (by simp; omega), List.take_append,
    List.take_of_length_le (by simp; omega), List.length_replicate, addressLength]
  obtain ⟨room, enough⟩ : ∃ room, 27 - k - 13 = room + 1 := ⟨27 - k - 13 - 1, by omega⟩
  rw [enough, List.take_succ_cons, List.append_assoc, List.append_assoc, List.cons_append]
  refine ⟨_, strtok_of_word (fun _ => List.eq_of_mem_replicate) (fun _ => ne_space_of_mem_endpoint) ?_⟩
  intro empty
  rw [empty] at addressLength
  cases addressLength

theorem scanAddrPort_endpoint (address : UInt32) (port : UInt16) (addrPort : AddrPort) :
    scanAddrPort (endpoint address port) addrPort = { sAddr := address, sinPort := port } := by
  have addressSmall := address.toNat_lt
  have portSmall := port.toNat_lt
  have first : scanHex (endpoint address port) = some ((address.toNat : Int), ':' :: hexField 4 port.toNat) := by
    apply scanHex_hexField (by decide)
    · rw [ulongMax]
      omega
    · simp [isHexDigit, hexValue]
  have second : scanHex (hexField 4 port.toNat) = some ((port.toNat : Int), []) := by
    rw [← List.append_nil (hexField 4 port.toNat)]
    apply scanHex_hexField (by decide)
    · rw [ulongMax]
      omega
    · simp
  have addressBack : UInt32.ofInt address.toNat = address := by
    apply UInt32.toNat_inj.mp
    simp only [UInt32.ofInt, UInt32.toNat_ofNat']
    omega
  have portBack : UInt16.ofInt port.toNat = port := by
    apply UInt16.toNat_inj.mp
    simp only [UInt16.ofInt, UInt16.toNat_ofNat']
    omega
  simp [scanAddrPort, first, second, addressBack, portBack]

theorem length_text (f : NetFields) (rest : List Char) : 91 ≤ (f.text rest).length := by
  have length := length_front f
  rw [text, List.length_append, List.length_cons]
  omega

end NetFields

/-! ## Rounds -/

/-- The buffer with a line in it. -/
def filled (line buff : List Char) : List Char := line ++ '\n' :: nul :: buff.drop (line.length + 2)

theorem length_filled {line buff : List Char} (fits : line.length + 1 < buff.length) :
    (filled line buff).length = buff.length := by
  simp only [filled, List.length_append, List.length_cons, List.length_drop]
  omega

theorem readInode_filled {line buff word left : List Char} (text : OneLine line)
    (long : 91 ≤ line.length) (short : line.length + 1 < 512)
    (first : strtok ' ' (line.drop 91 ++ ['\n']) = some (word, left)) :
    readInode (filled line buff) = .ok (atoi word) := by
  have column : cString ((filled line buff).drop 91) = line.drop 91 ++ ['\n'] := cString_drop text long
  have fits : (cString ((filled line buff).drop 91)).length < 512 - 91 := by
    rw [column, List.length_append, List.length_drop, List.length_singleton]
    omega
  have copied : cString (strncpy (512 - 91) ((filled line buff).drop 91)) = line.drop 91 ++ ['\n'] :=
    (cString_strncpy fits).trans column
  simp only [readInode, inodeOffset, copied, first]
  rfl

theorem NetLine.readAddrPort_filled {l : NetLine} (narrow : (printInt l.slot.toInt).length ≤ 5)
    (beyond buff : List Char) (addrPort : AddrPort) :
    readAddrPort .localSide beyond (filled l.text buff) addrPort = .ok l.addrPort := by
  have text : OneLine l.text := l.oneLine_text l.rest_text
  have long : 91 ≤ l.text.length := l.length_text l.rest
  have column : cString ((filled l.text buff).drop 6) = l.text.drop 6 ++ ['\n'] :=
    cString_drop text (by omega)
  -- the copy fills `addrs`, so that there is no NUL in it
  have copied : strncpy 27 ((filled l.text buff).drop 6) = (l.text.drop 6).take 27 := by
    rw [strncpy, column, List.take_append_of_le_length (by rw [List.length_drop]; omega),
      Nat.sub_eq_zero_of_le (by simp; omega), List.replicate_zero, List.append_nil]
  have string : cString (strncpy 27 ((filled l.text buff).drop 6) ++ beyond) =
      (l.text.drop 6).take 27 ++ cString beyond := by
    rw [copied, cString_of_oneLine (oneLine_take (oneLine_drop text 6) 27)]
  obtain ⟨left, first⟩ : ∃ left, strtok ' ' ((l.text.drop 6).take 27 ++ cString beyond) =
      some (NetFields.endpoint l.localAddress l.localPort, left) :=
    NetFields.strtok_of_slot narrow (cString beyond)
  simp only [readAddrPort, string, first]
  exact congrArg Except.ok (NetFields.scanAddrPort_endpoint ..)

section
variable {numSock : Int} {addrPort : AddrPort} {beyond : List Char}

/-- A round reads a line and its inode. -/
theorem scanRound_of_line {line buff file word left : List Char} {addr : NetSide} (text : OneLine line)
    (long : 91 ≤ line.length) (short : line.length + 1 < 512) (size : buff.length = 512)
    (first : strtok ' ' (line.drop 91 ++ ['\n']) = some (word, left)) :
    scanRound numSock addrPort addr beyond ⟨line ++ '\n' :: file, buff⟩ =
      if atoi word = numSock then
        .stop (do
          let addrPort ← readAddrPort addr beyond (filled line buff) addrPort
          pure (1, addrPort))
      else .again ⟨file, filled line buff⟩ := by
  have got : fgets buff (line ++ '\n' :: file) = some (filled line buff, file) :=
    fgets_of_newline text (by omega)
  simp only [scanRound, got, readInode_filled text long short first]

/-- The rounds over the lines find the first one whose inode is read as the number looked for. -/
theorem loop_of_lines {read : NetLine → Int} {lines : List NetLine}
    (reads : ∀ l ∈ lines, ∃ word left,
      strtok ' ' (l.text.drop 91 ++ ['\n']) = some (word, left) ∧ atoi word = read l)
    (narrow : ∀ l ∈ lines, read l = numSock → (printInt l.slot.toInt).length ≤ 5)
    {buff : List Char} (size : buff.length = 512) {rounds : Nat} (enough : lines.length < rounds) :
    loop (scanRound numSock addrPort .localSide beyond) rounds ⟨NetTable.body lines, buff⟩ =
      some (.ok (netAnswer addrPort (lines.find? fun l => read l = numSock))) := by
  induction lines generalizing buff rounds with
  | nil =>
      obtain ⟨rounds, rfl⟩ := Nat.exists_eq_add_one.mpr enough
      rfl
  | cons l lines ih =>
      obtain ⟨rounds, rfl⟩ := Nat.exists_eq_add_one.mpr (Nat.zero_lt_of_lt enough)
      rw [List.length_cons] at enough
      obtain ⟨word, left, first, value⟩ := reads l List.mem_cons_self
      have shape : NetTable.body (l :: lines) = l.text ++ '\n' :: NetTable.body lines := by
        simp [NetTable.body]
      have text : OneLine l.text := l.oneLine_text l.rest_text
      have long : 91 ≤ l.text.length := l.length_text l.rest
      by_cases found : read l = numSock
      · have last : scanRound numSock addrPort .localSide beyond ⟨NetTable.body (l :: lines), buff⟩ =
            .stop (.ok (1, l.addrPort)) := by
          rw [shape, scanRound_of_line text long l.short size first, if_pos (value.trans found),
            l.readAddrPort_filled (narrow l List.mem_cons_self found)]
          rfl
        rw [loop, last, List.find?_cons_of_pos (by simpa using found)]
        rfl
      · have next : scanRound numSock addrPort .localSide beyond ⟨NetTable.body (l :: lines), buff⟩ =
            .again ⟨NetTable.body lines, filled l.text buff⟩ := by
          rw [shape, scanRound_of_line text long l.short size first, if_neg (by rwa [value])]
        have kept : (filled l.text buff).length = 512 := by
          rw [length_filled (by rw [size]; exact l.short), size]
        rw [loop, next, List.find?_cons_of_neg (by simpa using found)]
        exact ih (fun l member => reads l (List.mem_cons_of_mem _ member))
          (fun l member => narrow l (List.mem_cons_of_mem _ member)) kept (by omega)

theorem length_body (lines : List NetLine) : lines.length ≤ (NetTable.body lines).length := by
  induction lines with
  | nil => exact Nat.zero_le _
  | cons l lines ih =>
      rw [NetTable.body] at ih ⊢
      rw [List.flatMap_cons, List.length_append, List.length_append, List.length_singleton, List.length_cons]
      omega

/-- The header is read as the inode zero. -/
theorem NetTable.strtok_header (t : NetTable) :
    ∃ word left, strtok ' ' (t.header.drop 91 ++ ['\n']) = some (word, left) ∧ atoi word = 0 := by
  have skipped : (t.header.drop 91 ++ ['\n']).dropWhile (· = ' ') = 'i' :: ("node".toList ++ t.more ++ ['\n']) := by
    rw [List.dropWhile_append, t.header_inode, if_neg (by simp)]
    simp
  have zero : ∀ s, atoi ('i' :: s) = 0 := by
    intro s
    have noDigits : ('i' :: s).takeWhile Char.isDigit = [] := List.takeWhile_cons_of_neg (by decide)
    rw [atoi, strtol_cons (by decide) (by decide) (by decide), leadingNat, noDigits]
    decide
  simp only [strtok, skipped]
  exact ⟨_, _, rfl, zero _⟩

theorem NetTable.length_header (t : NetTable) : 91 ≤ t.header.length := by
  by_contra short
  have inode := t.header_inode
  rw [List.drop_of_length_le (by omega)] at inode
  cases inode

/-- What is found in a table, by what the inodes are read as. -/
theorem getAddrPort_of_table (t : NetTable) (read : NetLine → Int)
    (reads : ∀ l ∈ t.lines, ∃ word left,
      strtok ' ' (l.text.drop 91 ++ ['\n']) = some (word, left) ∧ atoi word = read l)
    (narrow : ∀ l ∈ t.lines, read l = numSock → (printInt l.slot.toInt).length ≤ 5)
    (positive : 0 < numSock) {fopen : String → Except String (List Char)} {type : NetProtocol}
    (opened : fopen (procNetFile type) = .ok t.text) (stale : Fin 512 → Char) :
    getAddrPort numSock addrPort .localSide beyond fopen type stale =
      .ok (netAnswer addrPort (t.lines.find? fun l => read l = numSock)) := by
  obtain ⟨word, left, first, zero⟩ := t.strtok_header
  have size : (List.ofFn stale).length = 512 := List.length_ofFn
  have header : scanRound numSock addrPort .localSide beyond ⟨t.text, List.ofFn stale⟩ =
      .again ⟨NetTable.body t.lines, filled t.header (List.ofFn stale)⟩ := by
    rw [NetTable.text, scanRound_of_line t.header_text t.length_header t.header_short size first,
      if_neg (by omega)]
  have kept : (filled t.header (List.ofFn stale)).length = 512 := by
    rw [length_filled (by rw [size]; exact t.header_short), size]
  have enough : t.lines.length < t.text.length := by
    have := length_body t.lines
    rw [NetTable.text, List.length_append, List.length_cons]
    omega
  simp only [getAddrPort, opened]
  rw [loop, header]
  simp only [loop_of_lines reads narrow kept enough, Option.getD_some]

end

/-! ## Inodes -/

namespace NetFields
variable {f : NetFields} {numSock : Int}

theorem atoi_inode (f : NetFields) : atoi (Nat.toDigits 10 f.inode.toNat) = f.inodeInt := by
  rw [atoi, strtol_decimal, inodeInt]

theorem inodeInt_eq_iff (fits : f.InodeFits) (positive : 0 < numSock) (small : numSock < 0x80000000) :
    f.inodeInt = numSock ↔ (f.inode.toNat : Int) = numSock := by
  rw [InodeFits, inodeInt, longMax, Int.bmod] at fits
  rw [inodeInt, longMax, Int.bmod]
  omega

/-- An inode that does not fit is taken for another one. -/
theorem inodeInt_ne (unfit : ¬ f.InodeFits) :
    0 < f.inodeInt ∧ f.inodeInt < 0x80000000 ∧ (f.inode.toNat : Int) ≠ f.inodeInt := by
  rw [InodeFits, inodeInt, longMax, Int.bmod] at unfit
  rw [inodeInt, longMax, Int.bmod]
  omega

theorem length_printInt_int32 (n : Int32) : (printInt n.toInt).length ≤ 11 := by
  apply length_printInt_le (by decide)
  have below := n.toInt_lt
  have above := n.le_toInt
  simp
  omega

/-- No field gets so wide that a line with nothing behind the inode is too long for the buffer. -/
theorem shift_le (f : NetFields) : f.shift ≤ 24 := by
  have slot := length_printInt_int32 f.slot
  have timeout := length_printInt_int32 f.timeout
  have uid : (printInt f.uid.toNat).length ≤ 10 + 1 := by
    apply length_printInt_le (by decide)
    have below := f.uid.toNat_lt
    simp
    omega
  have expires : (printHex f.expires.toNat).length ≤ 16 :=
    length_printHex_le (by decide) (Nat.lt_of_lt_of_le f.expires.toNat_lt (by decide))
  rw [shift]
  omega

theorem length_text_nil (f : NetFields) : (f.text []).length + 1 < 512 := by
  have wide := f.shift_le
  have digits : (Nat.toDigits 10 f.inode.toNat).length ≤ 20 :=
    (Nat.length_toDigits_le_iff (by decide) (by decide)).mpr
      (Nat.lt_of_lt_of_le f.inode.toNat_lt (by decide))
  rw [text, List.length_append, length_front, List.length_cons, List.length_append, List.length_singleton]
  omega

end NetFields

/-! ## Which tables are searched right -/

def tcpHeader : List Char :=
  "  sl  local_address rem_address   st tx_queue rx_queue tr tm->when retrnsmt   uid  timeout inode".toList

theorem tcpHeader_shape :
    (tcpHeader.all fun c => c ≠ '\n' && c ≠ nul) = true ∧ tcpHeader.length + 1 < 512 ∧
      (tcpHeader.drop 91).dropWhile (· = ' ') = "inode".toList ++ [] := by
  decide +kernel

/-- The table with the header of TCP and some lines. -/
def NetTable.ofLines (lines : List NetLine) : NetTable where
  header := tcpHeader
  more := []
  header_text := by
    intro c member
    simpa using List.all_eq_true.mp tcpHeader_shape.1 c member
  header_short := tcpHeader_shape.2.1
  header_inode := tcpHeader_shape.2.2
  lines := lines

theorem NetLine.strtok_of_shift_le {l : NetLine} (aligned : l.shift ≤ 1) :
    ∃ word left, strtok ' ' (l.text.drop 91 ++ ['\n']) = some (word, left) ∧ atoi word = l.inodeInt :=
  ⟨_, _, NetFields.strtok_of_aligned aligned, l.atoi_inode⟩

theorem NetFields.slot_of_shift_le {f : NetFields} (aligned : f.shift ≤ 1) :
    (printInt f.slot.toInt).length ≤ 5 := by
  rw [shift] at aligned
  omega

theorem NetTable.right_of_aligned {t : NetTable} (aligned : ∀ l ∈ t.lines, l.shift ≤ 1)
    (fits : ∀ l ∈ t.lines, l.InodeFits) : t.Right := by
  intro numSock addrPort beyond fopen type stale positive small opened
  have found : t.lines.find? (fun l => l.inodeInt = numSock) =
      t.lines.find? fun l => (l.inode.toNat : Int) = numSock := by
    apply List.find?_congr
    intro l member
    exact decide_eq_decide.mpr (NetFields.inodeInt_eq_iff (fits l member) positive small)
  rw [getAddrPort_of_table t (·.inodeInt) (fun l member => l.strtok_of_shift_le (aligned l member))
    (fun l member _ => NetFields.slot_of_shift_le (aligned l member)) positive opened, found]

/-- A line with nothing behind the inode. -/
def NetFields.toLine (f : NetFields) : NetLine where
  toNetFields := f
  rest := []
  rest_text := oneLine_nil
  short := f.length_text_nil

theorem isSome_eq_of_netAnswer {addrPort : AddrPort} {found found' : Option NetLine}
    (same : netAnswer addrPort found = netAnswer addrPort found') : found.isSome = found'.isSome := by
  have returned : (netAnswer addrPort found).1 = (netAnswer addrPort found').1 := congrArg Prod.fst same
  cases found with
  | none =>
      cases found' with
      | none => rfl
      | some l => cases returned
  | some l =>
      cases found' with
      | none => cases returned
      | some l => rfl

/-- If a line alone is searched right, its inode is read as what it is. -/
theorem NetLine.atoi_iff_of_right {l : NetLine} {word left : List Char} {numSock : Int}
    (right : (NetTable.ofLines [l]).Right)
    (first : strtok ' ' (l.text.drop 91 ++ ['\n']) = some (word, left))
    (narrow : atoi word = numSock → (printInt l.slot.toInt).length ≤ 5)
    (positive : 0 < numSock) (small : numSock < 0x80000000) :
    atoi word = numSock ↔ (l.inode.toNat : Int) = numSock := by
  have expected := right numSock ⟨0, 0⟩ [] (fun _ => .ok (NetTable.text _)) .tcp (fun _ => nul)
    positive small rfl
  have got : getAddrPort numSock ⟨0, 0⟩ .localSide [] (fun _ => .ok (NetTable.ofLines [l]).text) .tcp
      (fun _ => nul) =
        .ok (netAnswer ⟨0, 0⟩ ((NetTable.ofLines [l]).lines.find? fun _ => atoi word = numSock)) := by
    apply getAddrPort_of_table (NetTable.ofLines [l]) (fun _ => atoi word) _ _ positive rfl
    · intro l' member
      rw [List.mem_singleton.mp member]
      exact ⟨word, left, first, rfl⟩
    · intro l' member
      rw [List.mem_singleton.mp member]
      exact narrow
  rw [got] at expected
  have found := isSome_eq_of_netAnswer (Except.ok.inj expected)
  rw [Bool.eq_iff_iff, List.find?_isSome, List.find?_isSome] at found
  simpa [NetTable.ofLines] using found

/-- A line with wider fields and an inode that is not found. -/
theorem NetFields.exists_not_right {f : NetFields} (shifted : 2 ≤ f.shift) :
    ∃ l : NetLine, l.SameWidths f ∧ l.inode.toNat < 0x100000000 ∧ ¬ (NetTable.ofLines [l]).Right := by
  obtain ⟨word, reads⟩ := strtok_of_shifted shifted
  obtain ⟨inode, positive, small, other⟩ : ∃ inode : UInt64,
      0 < inode.toNat ∧ inode.toNat < 3 ∧ atoi word ≠ inode.toNat := by
    by_cases one : atoi word = 1
    · refine ⟨2, by decide, by decide, ?_⟩
      rw [one]
      decide
    · exact ⟨1, by decide, by decide, one⟩
  refine ⟨{ f with inode := inode }.toLine, ⟨rfl, rfl, rfl, rfl⟩, Nat.lt_trans small (by decide), ?_⟩
  intro right
  obtain ⟨left, first⟩ := reads inode []
  apply other
  exact (NetLine.atoi_iff_of_right right first (fun same => absurd same other) (by omega) (by omega)).mpr rfl

theorem NetLine.inodeFits_of_right {l : NetLine} (aligned : l.shift ≤ 1)
    (right : (NetTable.ofLines [l]).Right) : l.InodeFits := by
  by_contra unfit
  obtain ⟨positive, small, other⟩ := NetFields.inodeInt_ne unfit
  obtain ⟨word, left, first, value⟩ := l.strtok_of_shift_le aligned
  apply other
  exact (NetLine.atoi_iff_of_right right first (fun _ => NetFields.slot_of_shift_le aligned) positive small).mp
    value

/-- The search is right for lines whose fields are at most one character wider than the format says
    and whose inodes fit. It is right for no greater width, whatever the width is due to, and a line
    with an inode that does not fit is found under another number. -/
theorem get_addr_port_right_iff (table : NetTable) (widths : NetFields) (line : NetLine) :
    ((∀ l ∈ table.lines, l.shift ≤ 1 ∧ l.InodeFits) → table.Right) ∧
    ((∀ t : NetTable, (∀ l ∈ t.lines, l.SameWidths widths ∧ l.inode.toNat < 0x100000000) → t.Right) ↔
      widths.shift ≤ 1) ∧
    (line.shift ≤ 1 → ((∀ t : NetTable, t.lines = [line] → t.Right) ↔ line.InodeFits)) := by
  refine ⟨?_, ?_, ?_⟩
  · intro good
    exact NetTable.right_of_aligned (fun l member => (good l member).1) fun l member => (good l member).2
  · constructor
    · intro right
      by_contra wide
      obtain ⟨l, same, small, wrong⟩ := widths.exists_not_right (by omega)
      apply wrong
      apply right
      intro l' member
      rw [List.mem_singleton.mp member]
      exact ⟨same, small⟩
    · intro aligned t good
      apply NetTable.right_of_aligned
      · intro l member
        obtain ⟨⟨slot, expires, uid, timeout⟩, -⟩ := good l member
        rw [NetFields.shift, slot, expires, uid, timeout]
        exact aligned
      · intro l member
        exact .inl (good l member).2
  · intro aligned
    constructor
    · intro right
      exact line.inodeFits_of_right aligned (right _ rfl)
    · intro fits t only
      apply NetTable.right_of_aligned
      · rw [only]
        simpa using aligned
      · rw [only]
        simpa using fits

/-- A line that listens on the loopback address. -/
def listening (uid : UInt32) : NetFields where
  slot := 0
  localAddress := 0x0100007F
  localPort := 8080
  remAddress := 0
  remPort := 0
  state := 10
  txQueue := 0
  rxQueue := 0
  timer := 0
  expires := 0
  retransmits := 0
  uid := uid
  timeout := 7
  inode := 12345

/-- With a user of six digits the inode is one column further on, and is found. -/
theorem get_addr_port_of_six_digits :
    getAddrPort 12345 ⟨0, 0⟩ .localSide []
      (fun _ => .ok (NetTable.ofLines [(listening 100000).toLine]).text) .tcp (fun _ => nul) =
        .ok (1, ⟨0x0100007F, 8080⟩) := by
  apply (get_addr_port_right_iff (NetTable.ofLines [(listening 100000).toLine]) (listening 100000)
    (listening 100000).toLine).1 _ 12345 _ _ _ _ _ (by decide) (by decide) rfl
  intro l member
  rw [List.mem_singleton.mp member]
  exact ⟨by decide +kernel, .inl (by decide)⟩

/-- With a user of seven digits the inode is not found, and the timeout is taken for it. -/
theorem get_addr_port_of_seven_digits :
    getAddrPort 12345 ⟨0, 0⟩ .localSide []
        (fun _ => .ok (NetTable.ofLines [(listening 1000000).toLine]).text) .tcp (fun _ => nul) =
          .ok (-1, ⟨0, 0⟩) ∧
      getAddrPort 7 ⟨0, 0⟩ .localSide []
        (fun _ => .ok (NetTable.ofLines [(listening 1000000).toLine]).text) .tcp (fun _ => nul) =
          .ok (1, ⟨0x0100007F, 8080⟩) ∧
      ¬ (NetTable.ofLines [(listening 1000000).toLine]).Right := by
  have missed : getAddrPort 12345 ⟨0, 0⟩ .localSide []
      (fun _ => .ok (NetTable.ofLines [(listening 1000000).toLine]).text) .tcp (fun _ => nul) =
        .ok (-1, ⟨0, 0⟩) := by
    decide +kernel
  refine ⟨missed, by decide +kernel, fun right => ?_⟩
  have expected := right 12345 ⟨0, 0⟩ [] (fun _ => .ok (NetTable.text _)) .tcp (fun _ => nul)
    (by decide) (by decide) rfl
  rw [missed] at expected
  revert expected
  decide +kernel

end Simterpose

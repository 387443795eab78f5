import Simterpose.Taskstats

/-! # Well-formed answers of taskstats

A well-formed answer is put together from attributes. `cputimer_get` finds its way through one
with at most two attributes inside of the aggregate; at the third one it is already further on.
-/

namespace Simterpose

open Lib

/-- An attribute with its padding. -/
structure Attribute where
  type : Nat
  payload : List UInt8
  pad : List UInt8
  typed : type < 65536
  fits : nlaHdrlen + payload.length < 65536
  padded : nlaHdrlen + payload.length + pad.length = nlaAlign (nlaHdrlen + payload.length)

namespace Attribute

/-- What is stored as `nla_len`. -/
def len (x : Attribute) : Nat := nlaHdrlen + x.payload.length

def bytes (x : Attribute) : List UInt8 :=
  toLittleEndian 2 x.len ++ (toLittleEndian 2 x.type ++ (x.payload ++ x.pad))

/-- The times in a payload that is a `struct taskstats`. -/
def times (x : Attribute) : Int × Int :=
  (toSsize (littleEndian ((x.payload.drop 152).take 8)),
    toSsize (littleEndian ((x.payload.drop 160).take 8)))

/-- The times collected after the attribute. -/
def collect (times : Int × Int) (x : Attribute) : Int × Int :=
  if x.type = taskstatsTypeStats then x.times else times

/-- The attributes one after the other. -/
def layout (xs : List Attribute) : List UInt8 := xs.flatMap bytes

/-- Their addresses, if the first one is at `a`. -/
def addresses (a : Nat) : List Attribute → List Nat
  | [] => []
  | x :: xs => a :: addresses (a + x.bytes.length) xs

end Attribute

open Attribute

/-- An answer with one aggregate, in which are one attribute with statistics and others. -/
structure Reply where
  head : List UInt8
  before : List Attribute
  aggr : Attribute
  nestedBefore : List Attribute
  stats : Attribute
  nestedAfter : List Attribute
  after : List Attribute
  headers : head.length = genlmsgData
  length : littleEndian (head.take 4) =
    (head ++ (layout before ++ (aggr.bytes ++ layout after))).length
  fine : littleEndian ((head.drop 4).take 2) ≠ nlmsgError
  aggregate : aggr.type = taskstatsTypeAggrPid
  nesting : aggr.payload = layout (nestedBefore ++ stats :: nestedAfter)
  others : ∀ x ∈ before ++ after, x.type ≠ taskstatsTypeAggrPid
  statistics : stats.type = taskstatsTypeStats
  whole : 168 ≤ stats.payload.length
  nestedOthers : ∀ x ∈ nestedBefore ++ nestedAfter, x.type ≠ taskstatsTypeStats

namespace Reply

variable (reply : Reply)

def nested : List Attribute := reply.nestedBefore ++ reply.stats :: reply.nestedAfter

def bytes : List UInt8 :=
  reply.head ++ (layout reply.before ++ (reply.aggr.bytes ++ layout reply.after))

/-- The address of the aggregate. -/
def aggrAt : Nat := genlmsgData + (layout reply.before).length

/-- The addresses of all attributes, those inside of the aggregate behind it. -/
def visits : List Nat :=
  addresses genlmsgData reply.before ++
    (reply.aggrAt :: addresses (reply.aggrAt + nlaHdrlen) reply.nested) ++
      addresses (reply.aggrAt + reply.aggr.bytes.length) reply.after

/-- What `recv` has stored of an answer, and the number it returned. -/
def Received (msg : Memory) (received : Nat) : Prop :=
  received = min reply.bytes.length sizeofMsgtemplate ∧
    msg.read 0 received = reply.bytes.take received

instance (msg : Memory) (received : Nat) : Decidable (reply.Received msg received) :=
  inferInstanceAs (Decidable (_ ∧ _))

end Reply

/-! ## What the fields of an attribute are read as -/

section

variable {msg : Memory} {a : Nat} {x : Attribute}

theorem Attribute.length_bytes (x : Attribute) : x.bytes.length = nlaAlign x.len := by
  have padded := x.padded
  simp only [bytes, List.length_append, length_toLittleEndian, len]
  unfold nlaHdrlen at *
  omega

theorem Attribute.length_bytes_pos (x : Attribute) : 0 < x.bytes.length := by
  rw [x.length_bytes, len, nlaAlign, nlaHdrlen]
  omega

theorem length_layout_cons (x : Attribute) (xs : List Attribute) :
    (layout (x :: xs)).length = x.bytes.length + (layout xs).length := by
  simp [layout]

theorem nlaLen_of_holds (holds : msg.Holds a x.bytes) : nlaLen msg a = x.len := by
  have first := (Memory.holds_append.mp holds).1
  have small := x.fits
  rw [Memory.Holds, length_toLittleEndian] at first
  rw [nlaLen, first, littleEndian_toLittleEndian]
  exact Nat.mod_eq_of_lt small

theorem nlaType_of_holds (holds : msg.Holds a x.bytes) : nlaType msg a = x.type := by
  have second := (Memory.holds_append.mp (Memory.holds_append.mp holds).2).1
  have small := x.typed
  rw [Memory.Holds, length_toLittleEndian, length_toLittleEndian] at second
  rw [nlaType, second, littleEndian_toLittleEndian]
  exact Nat.mod_eq_of_lt small

theorem holds_payload (holds : msg.Holds a x.bytes) : msg.Holds (a + nlaHdrlen) x.payload := by
  have third := (Memory.holds_append.mp
    (Memory.holds_append.mp (Memory.holds_append.mp holds).2).2).1
  rw [length_toLittleEndian, length_toLittleEndian, Nat.add_assoc] at third
  exact third

theorem acTimes_of_holds (holds : msg.Holds a x.bytes) (whole : 168 ≤ x.payload.length) :
    acTimes msg (a + nlaHdrlen) = x.times := by
  have payload := holds_payload holds
  rw [acTimes, Attribute.times, payload.read_slice (by omega), payload.read_slice (by omega)]

end

/-! ## The way through the attributes -/

namespace Parsing

variable {msg : Memory} {repLen : Int} {s : Parsing}

theorem outerStep_of_holds {x : Attribute} (holds : msg.Holds (genlmsgData + s.len) x.bytes) :
    s.outerStep msg =
      { cursor := if x.type = taskstatsTypeAggrPid then
          .nested (genlmsgData + s.len + nlaHdrlen) 0 x.payload.length else .outer
        len := s.len + x.bytes.length, visits := s.visits ++ [genlmsgData + s.len]
        times := s.times } := by
  have payload : ((x.len : Nat) : Int) - nlaHdrlen = x.payload.length := by
    simp only [Attribute.len]
    omega
  simp only [outerStep, outerNext, nlaLen_of_holds holds, nlaType_of_holds holds, x.length_bytes, payload]

/-- Attributes other than the aggregate are passed over. -/
theorem ends_of_others {xs : List Attribute} (outer : s.cursor = .outer)
    (holds : msg.Holds (genlmsgData + s.len) (layout xs))
    (others : ∀ x ∈ xs, x.type ≠ taskstatsTypeAggrPid) (more : s.len + (layout xs).length ≤ repLen)
    (r : Parsing) : Ends (parseRound msg repLen) s r ↔ Ends (parseRound msg repLen)
      { cursor := .outer, len := s.len + (layout xs).length
        visits := s.visits ++ addresses (genlmsgData + s.len) xs, times := s.times } r := by
  induction xs generalizing s with
  | nil =>
      obtain ⟨cursor, len, visits, times⟩ := s
      cases outer
      simp [layout, addresses]
  | cons x xs ih =>
      obtain ⟨first, rest⟩ := Memory.holds_append.mp holds
      have positive := x.length_bytes_pos
      have size := length_layout_cons x xs
      have step := outerStep_of_holds first
      rw [if_neg (others x List.mem_cons_self)] at step
      have others' := fun y member => others y (List.mem_cons_of_mem x member)
      rw [Nat.add_assoc] at rest
      rw [ends_again (round_outer outer (by omega)), step, ih rfl rest others' (by simp only; omega)]
      simp only [addresses, List.append_assoc, List.singleton_append, size, Nat.add_assoc]

theorem nestedStep_of_holds {x : Attribute} {na : Nat} (holds : msg.Holds na x.bytes)
    (whole : x.type = taskstatsTypeStats → 168 ≤ x.payload.length) (len2 : Nat) (aggrLen : Int) :
    s.nestedStep msg na len2 aggrLen =
      { cursor := .nested (na + (len2 + x.bytes.length)) (len2 + x.bytes.length) aggrLen, len := s.len
        visits := s.visits ++ [na], times := x.collect s.times } := by
  have times : (if x.type = taskstatsTypeStats then acTimes msg (na + nlaHdrlen) else s.times) =
      x.collect s.times := by
    unfold collect
    split
    · rename_i stats
      exact acTimes_of_holds holds (whole stats)
    · rfl
  simp only [nestedStep, nestedNext, nlaLen_of_holds holds, nlaType_of_holds holds, times, x.length_bytes]

section

variable {na : Nat} {aggrLen : Int} {x y : Attribute} {xs : List Attribute}

/-- The inner loop goes from the first attribute to the second. -/
theorem ends_first (nested : s.cursor = .nested na 0 aggrLen) (holds : msg.Holds na x.bytes)
    (whole : x.type = taskstatsTypeStats → 168 ≤ x.payload.length) (more : 0 < aggrLen) (r : Parsing) :
    Ends (parseRound msg repLen) s r ↔ Ends (parseRound msg repLen)
      { cursor := .nested (na + x.bytes.length) x.bytes.length aggrLen, len := s.len
        visits := s.visits ++ [na], times := x.collect s.times } r := by
  rw [ends_again (round_nested nested more), nestedStep_of_holds holds whole, Nat.zero_add]

/-- From the second one it goes too far. -/
theorem ends_second (nested : s.cursor = .nested na 0 aggrLen) (holds : msg.Holds na (x.bytes ++ y.bytes))
    (whole : ∀ z ∈ [x, y], z.type = taskstatsTypeStats → 168 ≤ z.payload.length)
    (more : x.bytes.length < aggrLen) (r : Parsing) :
    Ends (parseRound msg repLen) s r ↔ Ends (parseRound msg repLen)
      { cursor := .nested (na + x.bytes.length + (x.bytes.length + y.bytes.length))
          (x.bytes.length + y.bytes.length) aggrLen
        len := s.len, visits := s.visits ++ [na, na + x.bytes.length]
        times := y.collect (x.collect s.times) } r := by
  obtain ⟨first, second⟩ := Memory.holds_append.mp holds
  rw [ends_first nested first (whole x (by simp)) (by omega), ends_again (round_nested rfl more),
    nestedStep_of_holds second (whole y (by simp)), List.append_assoc]
  rfl

/-- The inner loop finds its way through two attributes. -/
theorem ends_of_few (nested : s.cursor = .nested na 0 (layout xs).length)
    (holds : msg.Holds na (layout xs))
    (whole : ∀ x ∈ xs, x.type = taskstatsTypeStats → 168 ≤ x.payload.length) (few : xs.length ≤ 2)
    (r : Parsing) : Ends (parseRound msg repLen) s r ↔ Ends (parseRound msg repLen)
      { cursor := .outer, len := s.len, visits := s.visits ++ addresses na xs
        times := xs.foldl collect s.times } r := by
  rcases xs with _ | ⟨x, _ | ⟨y, _ | ⟨z, rest⟩⟩⟩
  · rw [ends_again (round_leave nested (by simp [layout]))]
    simp [addresses]
  · have positive := x.length_bytes_pos
    rw [length_layout_cons] at nested
    rw [ends_first nested (by simpa [layout] using holds) (whole x (by simp)) (by omega),
      ends_again (round_leave rfl (by simp [layout]))]
    rfl
  · have positive := y.length_bytes_pos
    rw [length_layout_cons, length_layout_cons] at nested
    rw [ends_second nested (by simpa [layout] using holds) whole (by omega),
      ends_again (round_leave rfl (by simp [layout]))]
    rfl
  · simp at few

/-- At the third attribute it looks somewhere else. -/
theorem not_ends_of_many (nested : s.cursor = .nested na 0 (layout xs).length)
    (holds : msg.Holds na (layout xs))
    (whole : ∀ x ∈ xs, x.type = taskstatsTypeStats → 168 ≤ x.payload.length) (many : 2 < xs.length)
    {r : Parsing} (ended : Ends (parseRound msg repLen) s r) :
    ¬ s.visits ++ addresses na xs <+: r.visits := by
  rcases xs with _ | ⟨x, _ | ⟨y, _ | ⟨z, rest⟩⟩⟩
  · simp at many
  · simp at many
  · simp at many
  · have positive := z.length_bytes_pos
    have moved := x.length_bytes_pos
    rw [length_layout_cons, length_layout_cons, length_layout_cons] at nested
    have both : msg.Holds na ((x.bytes ++ y.bytes) ++ layout (z :: rest)) := by
      simpa [layout] using holds
    have whole' : ∀ v ∈ [x, y], v.type = taskstatsTypeStats → 168 ≤ v.payload.length :=
      fun v member => whole v (List.mem_append_left (z :: rest) member)
    rw [ends_second nested (Memory.holds_append.mp both).1 whole' (by omega),
      ends_again (round_nested rfl (by omega))] at ended
    -- the third header looked at is as far behind `z` as `x` is long
    have wrong := visits_grow ended
    intro right
    have agree := List.prefix_of_prefix_length_le wrong right (by simp [nestedStep, addresses])
    simp [nestedStep, addresses] at agree
    exact absurd moved (by simp [agree])

end

end Parsing

namespace Reply

variable {reply : Reply} {msg : Memory} {received : Nat}

theorem length_bytes (reply : Reply) : reply.bytes.length =
    genlmsgData + (layout reply.before).length + reply.aggr.bytes.length +
      (layout reply.after).length := by
  simp only [bytes, List.length_append, reply.headers]
  omega

theorem whole_of_mem (reply : Reply) {x : Attribute} (member : x ∈ reply.nested)
    (stats : x.type = taskstatsTypeStats) : 168 ≤ x.payload.length := by
  have others := reply.nestedOthers x
  rcases List.mem_append.mp member with before | rest
  · exact absurd stats (others (List.mem_append_left _ before))
  · rcases List.mem_cons.mp rest with rfl | after
    · exact reply.whole
    · exact absurd stats (others (List.mem_append_right _ after))

theorem collect_others {xs : List Attribute} (others : ∀ x ∈ xs, x.type ≠ taskstatsTypeStats)
    (times : Int × Int) : xs.foldl collect times = times := by
  induction xs generalizing times with
  | nil => rfl
  | cons x xs ih =>
      rw [List.foldl_cons, collect, if_neg (others x List.mem_cons_self)]
      exact ih (fun y member => others y (List.mem_cons_of_mem x member)) times

theorem collect_nested (reply : Reply) (times : Int × Int) :
    reply.nested.foldl collect times = reply.stats.times := by
  rw [nested, List.foldl_append, List.foldl_cons, collect, if_pos reply.statistics,
    collect_others fun x member => reply.nestedOthers x (List.mem_append_right _ member)]

theorem Received.holds_head (arrived : reply.Received msg received) : msg.Holds 0 reply.head := by
  have long := reply.length_bytes
  have enough : genlmsgData ≤ received := by
    rw [arrived.1]
    simp only [genlmsgData, sizeofMsgtemplate] at long ⊢
    omega
  have start : reply.bytes.take genlmsgData = reply.head := by
    rw [bytes, ← reply.headers, List.take_left]
  rw [Memory.Holds, reply.headers, ← Memory.take_read _ _ enough, arrived.2, List.take_take,
    Nat.min_eq_left enough, start]

theorem Received.nlmsgLen_eq (arrived : reply.Received msg received) :
    nlmsgLen msg = reply.bytes.length := by
  have head := arrived.holds_head
  rw [nlmsgLen, head.read_slice (i := 0) (by rw [reply.headers]; decide)]
  exact reply.length

theorem Received.nlmsgType_ne (arrived : reply.Received msg received) :
    nlmsgType msg ≠ nlmsgError := by
  have head := arrived.holds_head.read_slice (i := 4) (n := 2) (by rw [reply.headers]; decide)
  rw [nlmsgType, ← Nat.zero_add 4, head]
  exact reply.fine

theorem Received.holds (arrived : reply.Received msg received)
    (short : reply.bytes.length ≤ sizeofMsgtemplate) :
    received = reply.bytes.length ∧ msg.Holds 0 reply.bytes := by
  obtain ⟨rfl, stored⟩ := arrived
  rw [Nat.min_eq_left short] at stored ⊢
  exact ⟨rfl, by rw [Memory.Holds, stored, List.take_length]⟩

section

variable (holds : msg.Holds 0 reply.bytes)

include holds

/-- Where the parts of the answer are. -/
theorem holds_parts : msg.Holds genlmsgData (layout reply.before) ∧
    msg.Holds reply.aggrAt reply.aggr.bytes ∧
    msg.Holds (reply.aggrAt + reply.aggr.bytes.length) (layout reply.after) := by
  obtain ⟨-, rest⟩ := Memory.holds_append.mp holds
  rw [reply.headers, Nat.zero_add] at rest
  obtain ⟨before, rest⟩ := Memory.holds_append.mp rest
  obtain ⟨aggr, after⟩ := Memory.holds_append.mp rest
  exact ⟨before, aggr, after⟩

theorem holds_nested : msg.Holds (reply.aggrAt + nlaHdrlen) (layout reply.nested) := by
  have inside := holds_payload (holds_parts holds).2.1
  rw [reply.nesting] at inside
  exact inside

/-- The parsing when it enters the aggregate. -/
theorem ends_aggr (times : Int × Int) (r : Parsing) :
    Ends (parseRound msg (reply.bytes.length - genlmsgData)) (.start times) r ↔
      Ends (parseRound msg (reply.bytes.length - genlmsgData))
        { cursor := .nested (reply.aggrAt + nlaHdrlen) 0 (layout reply.nested).length
          len := (layout reply.before).length + reply.aggr.bytes.length
          visits := addresses genlmsgData reply.before ++ [reply.aggrAt], times := times } r := by
  obtain ⟨before, aggr, -⟩ := holds_parts holds
  have total := reply.length_bytes
  have positive := reply.aggr.length_bytes_pos
  have passed := Parsing.ends_of_others (s := .start times) (r := r) rfl before
    (fun x member => reply.others x (List.mem_append_left _ member))
    (show _ ≤ (reply.bytes.length : Int) - genlmsgData by simp only [Parsing.start]; omega)
  simp only [Parsing.start, Nat.zero_add, Nat.add_zero, List.nil_append] at passed
  rw [Parsing.start, passed, ends_again (round_outer rfl (by simp only; omega)),
    Parsing.outerStep_of_holds aggr, if_pos reply.aggregate, reply.nesting]
  rfl

/-- The rest of the answer is passed over. -/
theorem ends_after (visits : List Nat) (times : Int × Int) (r : Parsing) :
    Ends (parseRound msg (reply.bytes.length - genlmsgData))
        { cursor := .outer, len := (layout reply.before).length + reply.aggr.bytes.length
          visits := visits, times := times } r ↔
      r = { cursor := .outer, len := reply.bytes.length - genlmsgData
            visits := visits ++ addresses (reply.aggrAt + reply.aggr.bytes.length) reply.after
            times := times } := by
  obtain ⟨-, -, after⟩ := holds_parts holds
  have total := reply.length_bytes
  have size : (layout reply.before).length + reply.aggr.bytes.length + (layout reply.after).length =
    reply.bytes.length - genlmsgData := by omega
  rw [aggrAt, Nat.add_assoc] at after ⊢
  rw [Parsing.ends_of_others rfl after
    (fun x member => reply.others x (List.mem_append_right _ member)) (by simp only; omega),
    ends_stop (round_done rfl (by simp only; omega))]
  simp only [size]

end

theorem cputimerGet_of_received (arrived : reply.Received msg received) (rounds : Nat)
    (times : Int × Int) (s : Parsing) : cputimerGet rounds msg received times = some (.ok s) ↔
      reply.bytes.length ≤ sizeofMsgtemplate ∧
        loop (parseRound msg (reply.bytes.length - genlmsgData)) rounds (.start times) = some s := by
  have total := reply.length_bytes
  have number := arrived.1
  have ok : nlmsgOk msg received ↔ reply.bytes.length ≤ sizeofMsgtemplate := by
    rw [nlmsgOk, arrived.nlmsgLen_eq]
    unfold sizeofNlmsghdr genlmsgData sizeofMsgtemplate at *
    omega
  unfold cputimerGet
  rw [arrived.nlmsgLen_eq]
  split
  · rename_i accepted
    simp [ok.mp accepted.2.2]
  · rename_i refused
    have long : ¬ reply.bytes.length ≤ sizeofMsgtemplate := fun short =>
      refused ⟨Int.natCast_nonneg received, arrived.nlmsgType_ne, ok.mpr short⟩
    simp [long]

/-- All attributes of an answer are visited, and the times are those of the statistics, exactly if the
    answer fits into the buffer and there are at most two attributes inside of the aggregate. -/
theorem parsed_iff (reply : Reply) {msg : Memory} {received : Nat}
    (arrived : reply.Received msg received) (times : Int × Int) :
    (∃ rounds s, cputimerGet rounds msg received times = some (.ok s) ∧ s.visits = reply.visits ∧
        s.times = reply.stats.times) ↔
      reply.bytes.length ≤ sizeofMsgtemplate ∧ reply.nested.length ≤ 2 := by
  simp only [cputimerGet_of_received arrived]
  constructor
  · rintro ⟨rounds, s, ⟨short, ended⟩, visits, -⟩
    refine ⟨short, Nat.not_lt.mp fun many => ?_⟩
    have holds := (arrived.holds short).2
    have entered := (ends_aggr holds times s).mp ⟨rounds, ended⟩
    apply Parsing.not_ends_of_many rfl (holds_nested holds) (fun x => reply.whole_of_mem) many entered
    rw [visits, Reply.visits, ← List.append_cons]
    exact List.prefix_append ..
  · rintro ⟨short, few⟩
    have holds := (arrived.holds short).2
    -- up to the aggregate, through it, and over the rest
    have walked := fun r => (ends_aggr holds times r).trans
      ((Parsing.ends_of_few rfl (holds_nested holds) (fun x => reply.whole_of_mem) few r).trans
        (ends_after holds _ _ r))
    obtain ⟨rounds, ended⟩ := (walked _).mpr rfl
    refine ⟨rounds, _, ⟨short, ended⟩, ?_, reply.collect_nested times⟩
    rw [Reply.visits, ← List.append_cons]

def threadId : Attribute where
  type := 1
  payload := toLittleEndian 4 7
  pad := []
  typed := by decide
  fits := by decide
  padded := by decide

/-- The statistics of a thread with the exit code 255. -/
def exited : Attribute where
  type := taskstatsTypeStats
  payload := List.replicate 4 0 ++ (toLittleEndian 4 0xff00 ++ (List.replicate 144 0 ++
    (toLittleEndian 8 50 ++ toLittleEndian 8 60)))
  pad := []
  typed := by decide
  fits := by decide +kernel
  padded := by decide +kernel

/-- An answer with the statistics behind one or two thread ids. -/
def answer (twice : Bool) : Reply where
  head := toLittleEndian 4 (if twice then 212 else 204) ++ (toLittleEndian 2 16 ++ List.replicate 14 0)
  before := []
  aggr :=
    { type := taskstatsTypeAggrPid
      payload := layout ((if twice then [threadId, threadId] else [threadId]) ++ [exited])
      pad := []
      typed := by decide
      fits := by cases twice <;> decide +kernel
      padded := by cases twice <;> decide +kernel }
  nestedBefore := if twice then [threadId, threadId] else [threadId]
  stats := exited
  nestedAfter := []
  after := []
  headers := by cases twice <;> decide
  length := by cases twice <;> decide +kernel
  fine := by cases twice <;> decide
  aggregate := rfl
  nesting := rfl
  others := by simp
  statistics := rfl
  whole := by decide +kernel
  nestedOthers := by cases twice <;> simp [threadId, taskstatsTypeStats]

/-- The memory after an answer was received. -/
def stored (reply : Reply) : Memory := Memory.write (fun _ => 0) 0 reply.bytes

theorem one_id_parsed : (answer false).Received (stored (answer false)) 204 ∧
    ∃ rounds s, cputimerGet rounds (stored (answer false)) 204 (0, 0) = some (.ok s) ∧
      s.visits = (answer false).visits ∧ s.times = (answer false).stats.times := by
  have arrived : (answer false).Received (stored (answer false)) 204 := by decide +kernel
  exact ⟨arrived, (parsed_iff (answer false) arrived (0, 0)).mpr (by decide +kernel)⟩

/-- With two thread ids in front, the exit code is taken for the length of an attribute and the
    statistics are not found. -/
theorem two_ids_misparsed : (answer true).Received (stored (answer true)) 212 ∧
    cputimerGet 7 (stored (answer true)) 212 (0, 0) =
      some (.ok { cursor := .outer, len := 192, visits := [20, 24, 32, 48], times := (0, 0) }) ∧
    (answer true).visits = [20, 24, 32, 40] ∧ (answer true).stats.times = (50, 60) := by
  decide +kernel

end Reply

end Simterpose

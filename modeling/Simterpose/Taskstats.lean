import Mathlib.Order.Iterate
import Simterpose.Lib.Loop
import Simterpose.Ptrace

/-! # The answers of taskstats

`cputimer_get` asks the kernel for the times of a thread over a netlink socket. The answer is a
sequence of attributes, each with its length in front and padded to a multiple of four bytes. One
of them has attributes inside, among which are the statistics. The two loops that walk over them go
by the lengths they read, of which nothing is checked. Addresses count from the start of the
message.
-/

namespace Simterpose

open Lib

/-- `sizeof(struct msgtemplate)`: two headers and `MAX_MSG_SIZE` bytes. -/
def sizeofMsgtemplate : Nat := 1044
def sizeofNlmsghdr : Nat := 16
/-- `GENLMSG_DATA` of the message. -/
def genlmsgData : Nat := 20
def nlaHdrlen : Nat := 4

/-- `NLA_ALIGN` -/
def nlaAlign (n : Nat) : Nat := 4 * ((n + 3) / 4)

def nlmsgError : Nat := 2
def taskstatsTypeStats : Nat := 3
def taskstatsTypeAggrPid : Nat := 4

section

variable (msg : Memory)

def nlmsgLen : Nat := littleEndian (msg.read 0 4)
def nlmsgType : Nat := littleEndian (msg.read 4 2)

/-- `NLMSG_OK` -/
def nlmsgOk (len : Int) : Prop :=
  sizeofNlmsghdr ≤ len ∧ sizeofNlmsghdr ≤ nlmsgLen msg ∧ nlmsgLen msg ≤ len

instance (len : Int) : Decidable (nlmsgOk msg len) := inferInstanceAs (Decidable (_ ∧ _ ∧ _))

def nlaLen (na : Nat) : Nat := littleEndian (msg.read na 2)
def nlaType (na : Nat) : Nat := littleEndian (msg.read (na + 2) 2)

/-- `ac_utime` and `ac_stime` of a `struct taskstats`. -/
def acTimes (stats : Nat) : Int × Int :=
  (toSsize (littleEndian (msg.read (stats + 152) 8)), toSsize (littleEndian (msg.read (stats + 160) 8)))

end

/-- Which of the two loops is running; the inner one has variables of its own. -/
inductive Cursor where
  | outer
  | nested (na len2 : Nat) (aggrLen : Int)
  deriving Repr, DecidableEq

/-- The variables of `cputimer_get` with `times[1]` and `times[2]`. The addresses of the headers
    that were looked at are kept in `visits`. -/
structure Parsing where
  cursor : Cursor
  len : Nat
  visits : List Nat
  times : Int × Int
  deriving Repr, DecidableEq

section

variable (msg : Memory)

/-- From one attribute to the next. -/
def outerNext (len : Nat) : Nat := len + nlaAlign (nlaLen msg (genlmsgData + len))

/-- The same inside of an attribute, for `na` and `len2`. The whole length so far is added to the
    address. -/
def nestedNext (c : Nat × Nat) : Nat × Nat :=
  (c.1 + (c.2 + nlaAlign (nlaLen msg c.1)), c.2 + nlaAlign (nlaLen msg c.1))

/-- The body of the outer loop, up to the inner one. -/
def Parsing.outerStep (s : Parsing) : Parsing :=
  let na := genlmsgData + s.len
  { cursor := if nlaType msg na = taskstatsTypeAggrPid then
      .nested (na + nlaHdrlen) 0 (nlaLen msg na - nlaHdrlen) else .outer
    len := outerNext msg s.len, visits := s.visits ++ [na], times := s.times }

/-- The body of the inner loop. -/
def Parsing.nestedStep (s : Parsing) (na len2 : Nat) (aggrLen : Int) : Parsing where
  cursor := .nested (nestedNext msg (na, len2)).1 (nestedNext msg (na, len2)).2 aggrLen
  len := s.len
  visits := s.visits ++ [na]
  times := if nlaType msg na = taskstatsTypeStats then acTimes msg (na + nlaHdrlen) else s.times

/-- A round of one of the two loops. -/
def parseRound (repLen : Int) (s : Parsing) : Iteration Parsing Parsing :=
  match s.cursor with
  | .outer => if s.len < repLen then .again (s.outerStep msg) else .stop s
  | .nested na len2 aggrLen =>
      if len2 < aggrLen then .again (s.nestedStep msg na len2 aggrLen)
      else .again { s with cursor := .outer }

end

def Parsing.start (times : Int × Int) : Parsing :=
  { cursor := .outer, len := 0, visits := [], times := times }

/-- `cputimer_get`, if its loops end within a number of rounds. `msg` is the memory after `recv`,
    which returned `repLen`. -/
def cputimerGet (rounds : Nat) (msg : Memory) (repLen : Int) (times : Int × Int) :
    Option (Result Parsing) :=
  if repLen ≥ 0 ∧ nlmsgType msg ≠ nlmsgError ∧ nlmsgOk msg repLen then
    (loop (parseRound msg (nlmsgLen msg - genlmsgData)) rounds (.start times)).map .ok
  else some (.error .xbtAssert)

theorem nlaAlign_eq_zero {n : Nat} : nlaAlign n = 0 ↔ n = 0 := by
  unfold nlaAlign
  omega

/-! ## The rounds -/

section

variable {msg : Memory} {repLen : Int} {s : Parsing}

theorem round_done (outer : s.cursor = .outer) (done : repLen ≤ s.len) :
    parseRound msg repLen s = .stop s := by
  unfold parseRound
  rw [outer]
  exact if_neg (Int.not_lt.mpr done)

theorem round_outer (outer : s.cursor = .outer) (more : s.len < repLen) :
    parseRound msg repLen s = .again (s.outerStep msg) := by
  unfold parseRound
  rw [outer]
  exact if_pos more

variable {na len2 : Nat} {aggrLen : Int}

theorem round_nested (nested : s.cursor = .nested na len2 aggrLen) (more : len2 < aggrLen) :
    parseRound msg repLen s = .again (s.nestedStep msg na len2 aggrLen) := by
  unfold parseRound
  rw [nested]
  exact if_pos more

theorem round_leave (nested : s.cursor = .nested na len2 aggrLen) (done : aggrLen ≤ len2) :
    parseRound msg repLen s = .again { s with cursor := .outer } := by
  unfold parseRound
  rw [nested]
  exact if_neg (Int.not_lt.mpr done)

/-- The four kinds of rounds. -/
theorem round_cases (msg : Memory) (repLen : Int) (s : Parsing) :
    (s.cursor = .outer ∧ repLen ≤ s.len ∧ parseRound msg repLen s = .stop s) ∨
    (s.cursor = .outer ∧ s.len < repLen ∧ parseRound msg repLen s = .again (s.outerStep msg)) ∨
    (∃ (na len2 : Nat) (aggrLen : Int), s.cursor = .nested na len2 aggrLen ∧ len2 < aggrLen ∧
      parseRound msg repLen s = .again (s.nestedStep msg na len2 aggrLen)) ∨
    ∃ (na len2 : Nat) (aggrLen : Int), s.cursor = .nested na len2 aggrLen ∧ aggrLen ≤ len2 ∧
      parseRound msg repLen s = .again { s with cursor := .outer } := by
  cases place : s.cursor with
  | outer =>
      rcases Int.lt_or_le s.len repLen with more | done
      · exact .inr (.inl ⟨rfl, more, round_outer place more⟩)
      · exact .inl ⟨rfl, done, round_done place done⟩
  | nested na len2 aggrLen =>
      rcases Int.lt_or_le len2 aggrLen with more | done
      · exact .inr (.inr (.inl ⟨na, len2, aggrLen, rfl, more, round_nested place more⟩))
      · exact .inr (.inr (.inr ⟨na, len2, aggrLen, rfl, done, round_leave place done⟩))

end

/-! ## Which answers are walked over safely -/

section

variable (msg : Memory) (received : Nat)

/-- The headers that the inner loop comes to are inside of what was received, and it does not stand
    still at the first one. -/
def NestedSound (aggrLen : Int) (c : Nat × Nat) : Prop :=
  ∀ j, ((nestedNext msg)^[j] c).2 < aggrLen →
    ((nestedNext msg)^[j] c).1 + nlaHdrlen ≤ received ∧
      (((nestedNext msg)^[j] c).2 = 0 → nlaLen msg ((nestedNext msg)^[j] c).1 ≠ 0)

/-- A header at which the outer loop goes on. -/
structure HeaderSound (len : Nat) : Prop where
  inside : genlmsgData + len + nlaHdrlen ≤ received
  nonzero : nlaLen msg (genlmsgData + len) ≠ 0
  nested : nlaType msg (genlmsgData + len) = taskstatsTypeAggrPid →
    NestedSound msg received (nlaLen msg (genlmsgData + len) - nlaHdrlen)
      (genlmsgData + len + nlaHdrlen, 0)

/-- The same for all headers that the outer loop comes to. -/
def OuterSound (repLen : Int) (len : Nat) : Prop :=
  ∀ i, ((outerNext msg)^[i] len : Nat) < repLen → HeaderSound msg received ((outerNext msg)^[i] len)

end

section

variable {msg : Memory} {received : Nat} {repLen : Int}

theorem outerSound_iff {len : Nat} : OuterSound msg received repLen len ↔
    (len < repLen → HeaderSound msg received len) ∧ OuterSound msg received repLen (outerNext msg len) :=
  forall_iterate_iff (P := fun len : Nat => len < repLen → HeaderSound msg received len)

theorem id_le_outerNext (msg : Memory) : id ≤ outerNext msg := fun _ => Nat.le_add_right ..

theorem outerSound_of_le {len : Nat} (done : repLen ≤ len) : OuterSound msg received repLen len := by
  intro i more
  have later : len ≤ (outerNext msg)^[i] len :=
    Function.id_le_iterate_of_id_le (id_le_outerNext msg) i len
  omega

variable {aggrLen : Int} {c : Nat × Nat}

theorem nestedSound_iff : NestedSound msg received aggrLen c ↔
    (c.2 < aggrLen → c.1 + nlaHdrlen ≤ received ∧ (c.2 = 0 → nlaLen msg c.1 ≠ 0)) ∧
      NestedSound msg received aggrLen (nestedNext msg c) :=
  forall_iterate_iff (P := fun c : Nat × Nat =>
    c.2 < aggrLen → c.1 + nlaHdrlen ≤ received ∧ (c.2 = 0 → nlaLen msg c.1 ≠ 0))

theorem id_le_nestedNext (msg : Memory) : id ≤ nestedNext msg := fun _ =>
  ⟨Nat.le_add_right .., Nat.le_add_right ..⟩

theorem nestedSound_of_le (done : aggrLen ≤ c.2) : NestedSound msg received aggrLen c := by
  intro j more
  have later : c.2 ≤ ((nestedNext msg)^[j] c).2 :=
    (Function.id_le_iterate_of_id_le (id_le_nestedNext msg) j c).2
  omega

end

namespace Parsing

section

variable {msg : Memory} {repLen : Int} {s r : Parsing}

/-- To show something of every parsing that ends, go back from its end, over the rounds of both
    loops. -/
theorem induct {motive : Parsing → Prop} (ended : Ends (parseRound msg repLen) s r)
    (done : r.cursor = .outer → repLen ≤ r.len → motive r)
    (outer : ∀ s, s.cursor = .outer → s.len < repLen → Ends (parseRound msg repLen) s r →
      motive (s.outerStep msg) → motive s)
    (nested : ∀ s (na len2 : Nat) (aggrLen : Int), s.cursor = .nested na len2 aggrLen →
      len2 < aggrLen → Ends (parseRound msg repLen) s r →
      motive (s.nestedStep msg na len2 aggrLen) → motive s)
    (leave : ∀ s (na len2 : Nat) (aggrLen : Int), s.cursor = .nested na len2 aggrLen →
      aggrLen ≤ len2 → motive { s with cursor := .outer } → motive s) : motive s := by
  refine ended.induct ?_ ?_
  · intro s stop
    obtain ⟨place, last, round⟩ | ⟨-, -, round⟩ | ⟨_, _, _, -, -, round⟩ | ⟨_, _, _, -, -, round⟩ :=
      round_cases msg repLen s
    · cases stop.symm.trans round
      exact done place last
    all_goals cases stop.symm.trans round
  · intro s s' again ended' ih
    have ended := (ends_again again).mpr ended'
    obtain ⟨-, -, round⟩ | ⟨place, more, round⟩ | ⟨na, len2, aggrLen, place, more, round⟩ |
      ⟨na, len2, aggrLen, place, last, round⟩ := round_cases msg repLen s
    all_goals cases again.symm.trans round
    · exact outer s place more ended ih
    · exact nested s na len2 aggrLen place more ended ih
    · exact leave s na len2 aggrLen place last ih

theorem visits_grow (ended : Ends (parseRound msg repLen) s r) : s.visits <+: r.visits := by
  refine induct (motive := fun s => s.visits <+: r.visits) ended ?_ ?_ ?_ ?_
  · intro _ _
    exact List.prefix_refl _
  · intro s _ _ _ ih
    exact (List.prefix_append ..).trans ih
  · intro s na len2 aggrLen _ _ _ ih
    exact (List.prefix_append ..).trans ih
  · intro s na len2 aggrLen _ _ ih
    exact ih

/-- At an empty attribute the outer loop stays. -/
theorem stuck_outer (outer : s.cursor = .outer) (more : s.len < repLen)
    (empty : nlaLen msg (genlmsgData + s.len) = 0) : Endless (parseRound msg repLen) s := by
  refine endless_of_invariant (fun v => v.len = s.len ∧
    (v.cursor = .outer ∨ ∃ na, v.cursor = .nested na 0 (-nlaHdrlen))) ?_ ⟨rfl, .inl outer⟩
  rintro v ⟨same, here | ⟨na, here⟩⟩
  · rw [← same] at more empty
    refine ⟨_, round_outer here more, ?_, ?_⟩
    · simp only [outerStep, outerNext, empty]
      exact same
    · simp only [outerStep, empty]
      split
      · exact .inr ⟨_, rfl⟩
      · exact .inl rfl
  · exact ⟨_, round_leave here (by decide), same, .inl rfl⟩

/-- At an empty first attribute the inner loop stays. -/
theorem stuck_nested {na : Nat} {aggrLen : Int} (nested : s.cursor = .nested na 0 aggrLen)
    (more : 0 < aggrLen) (empty : nlaLen msg na = 0) : Endless (parseRound msg repLen) s := by
  refine endless_of_invariant (fun v => v.cursor = .nested na 0 aggrLen) ?_ nested
  intro v here
  refine ⟨_, round_nested here more, ?_⟩
  simp only [nestedStep, nestedNext, empty]
  rfl

end

/-- The headers looked at are inside of what was received. -/
def Inside (received : Nat) (s : Parsing) : Prop := ∀ na ∈ s.visits, na + nlaHdrlen ≤ received

/-- What is still to come is sound. -/
structure Sound (msg : Memory) (received : Nat) (repLen : Int) (s : Parsing) : Prop where
  nested : ∀ na len2 aggrLen, s.cursor = .nested na len2 aggrLen →
    NestedSound msg received aggrLen (na, len2)
  outer : OuterSound msg received repLen s.len

variable {msg : Memory} {received : Nat} {repLen : Int} {s r : Parsing}

theorem Inside.append (inside : s.Inside received) {na : Nat} (header : na + nlaHdrlen ≤ received)
    (visits : r.visits = s.visits ++ [na]) : r.Inside received := by
  intro a visited
  rw [visits] at visited
  rcases List.mem_append.mp visited with old | new
  · exact inside a old
  · rw [List.mem_singleton.mp new]
    exact header

theorem sound_of_ends (ended : Ends (parseRound msg repLen) s r) (inside : r.Inside received) :
    s.Sound msg received repLen := by
  refine induct (motive := Sound msg received repLen) ended ?_ ?_ ?_ ?_
  · intro outer last
    refine ⟨?_, outerSound_of_le last⟩
    intro na len2 aggrLen nested
    rw [outer] at nested
    cases nested
  · intro s outer more ended sound
    have visited : genlmsgData + s.len ∈ (s.outerStep msg).visits := by simp [outerStep]
    have after := (ends_again (round_outer outer more)).mp ended
    refine ⟨?_, outerSound_iff.mpr ⟨fun _ => ⟨?_, ?_, ?_⟩, sound.outer⟩⟩
    · intro na len2 aggrLen nested
      rw [outer] at nested
      cases nested
    · exact inside _ ((visits_grow after).subset visited)
    · -- with an empty attribute it would not have ended
      exact fun empty => (stuck_outer outer more empty).not_ends ended
    · intro aggr
      exact sound.nested _ _ _ (if_pos aggr)
  · intro s na len2 aggrLen nested more ended sound
    have visited : na ∈ (s.nestedStep msg na len2 aggrLen).visits := by simp [nestedStep]
    have after := (ends_again (round_nested nested more)).mp ended
    refine ⟨?_, sound.outer⟩
    intro na' len2' aggrLen' nested'
    rw [nested] at nested'
    cases nested'
    refine nestedSound_iff.mpr ⟨fun _ => ⟨?_, ?_⟩, sound.nested _ _ _ rfl⟩
    · exact inside _ ((visits_grow after).subset visited)
    · rintro rfl empty
      exact (stuck_nested nested more empty).not_ends ended
  · intro s na len2 aggrLen nested last sound
    refine ⟨?_, sound.outer⟩
    intro na' len2' aggrLen' nested'
    rw [nested] at nested'
    cases nested'
    exact nestedSound_of_le last

/-- The inner loop comes to its end: behind the first attribute the address grows in each round. -/
theorem exists_leave (repLen : Int) {na len2 : Nat} {aggrLen : Int}
    (nested : s.cursor = .nested na len2 aggrLen)
    (sound : NestedSound msg received aggrLen (na, len2)) (inside : s.Inside received) :
    ∃ s', s'.cursor = .outer ∧ s'.len = s.len ∧ s'.Inside received ∧
      ∀ r, Ends (parseRound msg repLen) s r ↔ Ends (parseRound msg repLen) s' r := by
  generalize left : received - na = n
  induction n using Nat.strong_induction_on generalizing s na len2 with
  | _ n ih =>
      by_cases more : len2 < aggrLen
      · obtain ⟨here, rest⟩ := nestedSound_iff.mp sound
        have ⟨(header : na + nlaHdrlen ≤ received), (nonzero : len2 = 0 → nlaLen msg na ≠ 0)⟩ := here more
        have grows : na < (nestedNext msg (na, len2)).1 := by
          have step := nlaAlign_eq_zero (n := nlaLen msg na)
          simp only [nestedNext]
          omega
        have smaller : received - (nestedNext msg (na, len2)).1 < n := by
          have positive : 0 < nlaHdrlen := by decide
          omega
        obtain ⟨s', outer, len, inside', same⟩ := ih _ smaller (s := s.nestedStep msg na len2 aggrLen)
          rfl rest (inside.append header rfl) rfl
        refine ⟨s', outer, len, inside', ?_⟩
        intro r
        rw [ends_again (round_nested nested more)]
        exact same r
      · exact ⟨{ s with cursor := .outer }, rfl, rfl, inside, fun r =>
          ends_again (round_leave nested (Int.not_lt.mp more))⟩

theorem ends_of_outerSound (outer : s.cursor = .outer) (sound : OuterSound msg received repLen s.len)
    (inside : s.Inside received) : ∃ r, Ends (parseRound msg repLen) s r ∧ r.Inside received := by
  generalize left : (repLen - s.len).toNat = n
  induction n using Nat.strong_induction_on generalizing s with
  | _ n ih =>
      by_cases more : s.len < repLen
      · obtain ⟨here, rest⟩ := outerSound_iff.mp sound
        obtain ⟨header, nonzero, nested⟩ := here more
        have smaller : (repLen - (outerNext msg s.len : Nat)).toNat < n := by
          have step := nlaAlign_eq_zero (n := nlaLen msg (genlmsgData + s.len))
          simp only [outerNext]
          omega
        have inside' : (s.outerStep msg).Inside received := inside.append header rfl
        -- back in the outer loop, behind the attributes inside if there are any
        obtain ⟨s', outer', len, inside'', same⟩ : ∃ s', s'.cursor = .outer ∧
            s'.len = outerNext msg s.len ∧ s'.Inside received ∧ ∀ r,
              Ends (parseRound msg repLen) (s.outerStep msg) r ↔ Ends (parseRound msg repLen) s' r := by
          by_cases aggr : nlaType msg (genlmsgData + s.len) = taskstatsTypeAggrPid
          · exact exists_leave repLen (if_pos aggr) (nested aggr) inside'
          · exact ⟨s.outerStep msg, if_neg aggr, rfl, inside', fun _ => Iff.rfl⟩
        rw [← len] at smaller rest
        obtain ⟨r, ended, done⟩ := ih _ smaller outer' rest inside'' rfl
        exact ⟨r, (ends_again (round_outer outer more)).mpr ((same r).mpr ended), done⟩
      · exact ⟨s, (ends_stop (round_done outer (Int.not_lt.mp more))).mpr rfl, inside⟩

end Parsing

/-- The walk over an answer comes to its end and looks at received bytes only, exactly if each header
    it comes to is among them and it does not stand still at one. -/
theorem parsing_ends_iff (msg : Memory) {received : Nat} (times : Int × Int)
    (fine : nlmsgType msg ≠ nlmsgError) (ok : nlmsgOk msg received) :
    (∃ rounds s, cputimerGet rounds msg received times = some (.ok s) ∧ s.Inside received) ↔
      OuterSound msg received (nlmsgLen msg - genlmsgData) 0 := by
  have accepted : (received : Int) ≥ 0 ∧ nlmsgType msg ≠ nlmsgError ∧ nlmsgOk msg received :=
    ⟨Int.natCast_nonneg received, fine, ok⟩
  have returns : ∀ rounds s, cputimerGet rounds msg received times = some (.ok s) ↔
      loop (parseRound msg (nlmsgLen msg - genlmsgData)) rounds (.start times) = some s := by
    intro rounds s
    rw [cputimerGet, if_pos accepted]
    simp
  simp only [returns]
  constructor
  · rintro ⟨rounds, s, ended, inside⟩
    exact (Parsing.sound_of_ends ⟨rounds, ended⟩ inside).outer
  · intro sound
    obtain ⟨s, ⟨rounds, ended⟩, inside⟩ := Parsing.ends_of_outerSound (s := .start times) rfl sound
      (by simp [Parsing.Inside, Parsing.start])
    exact ⟨rounds, s, ended, inside⟩

/-- An answer of 24 bytes, with one attribute that has a header only. -/
def headerOnly : Memory := Memory.write (fun _ => 0) 0
  (toLittleEndian 4 24 ++ toLittleEndian 2 16 ++ List.replicate 14 0 ++ toLittleEndian 2 4 ++ [1, 0])

theorem headerOnly_parsed : nlmsgType headerOnly ≠ nlmsgError ∧ nlmsgOk headerOnly 24 ∧
    ∃ rounds s, cputimerGet rounds headerOnly 24 (0, 0) = some (.ok s) ∧ s.Inside 24 := by
  have fine : nlmsgType headerOnly ≠ nlmsgError := by decide
  have ok : nlmsgOk headerOnly 24 := by decide
  have header : HeaderSound headerOnly 24 0 :=
    ⟨by decide, by decide, fun aggr => absurd aggr (by decide)⟩
  have sound : OuterSound headerOnly 24 (nlmsgLen headerOnly - genlmsgData) 0 :=
    outerSound_iff.mpr ⟨fun _ => header, outerSound_of_le (by decide)⟩
  exact ⟨fine, ok, (parsing_ends_iff headerOnly (0, 0) fine ok).mpr sound⟩

/-- An answer of 24 bytes, with one attribute of length zero. -/
def zeroLength : Memory := Memory.write (fun _ => 0) 0 (toLittleEndian 4 24 ++ toLittleEndian 2 16)

/-- The answer is accepted, and then the outer loop never ends. -/
theorem zeroLength_endless : nlmsgType zeroLength ≠ nlmsgError ∧ nlmsgOk zeroLength 24 ∧
    ∀ rounds, cputimerGet rounds zeroLength 24 (0, 0) = none := by
  refine ⟨by decide, by decide, ?_⟩
  intro rounds
  have endless : Endless (parseRound zeroLength (nlmsgLen zeroLength - genlmsgData)) (.start (0, 0)) :=
    Parsing.stuck_outer rfl (by decide) (by decide)
  rw [cputimerGet, if_pos (by decide), endless rounds]
  rfl

end Simterpose

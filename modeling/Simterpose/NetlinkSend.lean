import Simterpose.Lib.Run
import Simterpose.Taskstats

/-! # Requests over netlink

`netlink_sock_send` puts a message together in a copy of the template of the timer, and sends it
with as many calls of `sendto` as the kernel makes of it: a call may take a part of the message, or
nothing at all. Addresses count from the start of the message.
-/

namespace Simterpose

open Lib

def nlmFRequest : Nat := 1
def eagain : Nat := 11

/-- The arguments of `netlink_sock_send`, with the template and the pid of the timer. -/
structure NetlinkRequest where
  template : Memory
  pid : Nat
  nlmsgType : Nat
  genlCmd : UInt8
  nlaType : Nat
  nlaData : List UInt8

/-- The message, up to the line that adds the attribute to its length. -/
def NetlinkRequest.fields (req : NetlinkRequest) : Memory :=
  (((((((((req.template.write 0 (toLittleEndian 4 genlmsgData)).write 4 (toLittleEndian 2 req.nlmsgType)).write
    6 (toLittleEndian 2 nlmFRequest)).write 8 (toLittleEndian 4 0)).write 12 (toLittleEndian 4 req.pid)).write
    16 [req.genlCmd]).write 17 [1]).write (genlmsgData + 2) (toLittleEndian 2 req.nlaType)).write
    genlmsgData (toLittleEndian 2 (req.nlaData.length + 1 + nlaHdrlen))).write
    (genlmsgData + nlaHdrlen) req.nlaData

/-- The message that is sent. -/
def NetlinkRequest.message (req : NetlinkRequest) : Memory :=
  req.fields.write 0 (toLittleEndian 4 (nlmsgLen req.fields + nlaAlign (nlaLen req.fields genlmsgData)))

/-- The variables of the loop. What `sendto` has taken is kept in `accepted`, call by call. -/
structure Sending where
  buf : Nat
  buflen : Int
  accepted : List (List UInt8)
  finished : Bool
  deriving DecidableEq

/-- What a call of `sendto` returns, with `errno` afterwards. -/
structure SendAnswer where
  r : Int
  errno : Nat
  deriving Repr, DecidableEq

/-- A call of `sendto`, and what the loop does with the answer. -/
def Sending.answer (strerror : Nat → String) (msg : Memory) (s : Sending) (a : SendAnswer) :
    Result Sending :=
  let accepted := if a.r > 0 then s.accepted ++ [msg.read s.buf a.r.toNat] else s.accepted
  if a.r < s.buflen then
    if a.r > 0 then
      .ok { buf := s.buf + a.r.toNat, buflen := s.buflen - a.r, accepted, finished := false }
    else if a.errno ≠ eagain then
      .error (.xbtDie ("Error while sending a command over netlink: " ++ strerror a.errno))
    else .ok { s with accepted }
  else .ok { s with accepted, finished := true }

def Sending.start (msg : Memory) : Sending :=
  { buf := 0, buflen := toCInt (nlmsgLen msg), accepted := [], finished := false }

/-- The loop takes answers until it is finished. -/
def Sending.Step (strerror : Nat → String) (msg : Memory) (s : Sending) (a : SendAnswer) (s' : Sending) :
    Prop :=
  s.finished = false ∧ s.answer strerror msg a = .ok s'

/-- A part of what is left is taken, or nothing for now. -/
def Sending.Permitted (s : Sending) (a : SendAnswer) : Prop :=
  (0 < a.r ∧ a.r ≤ s.buflen) ∨ (a.r ≤ 0 ∧ a.errno = eagain)

instance (s : Sending) (a : SendAnswer) : Decidable (s.Permitted a) := inferInstanceAs (Decidable (_ ∨ _))

/-- The number of bytes that some answers have taken. -/
def bytesTaken : List SendAnswer → Nat
  | [] => 0
  | a :: answers => a.r.toNat + bytesTaken answers

theorem bytesTaken_concat (answers : List SendAnswer) (a : SendAnswer) :
    bytesTaken (answers ++ [a]) = bytesTaken answers + a.r.toNat := by
  induction answers with
  | nil => simp [bytesTaken]
  | cons first answers ih => rw [List.cons_append, bytesTaken, bytesTaken, ih, Nat.add_assoc]

/-! ## The message -/

namespace NetlinkRequest

variable (req : NetlinkRequest)

theorem nlmsgLen_fields : nlmsgLen req.fields = genlmsgData := by
  unfold nlmsgLen fields
  iterate 9 rw [Memory.read_write_of_disjoint _ (by simp [genlmsgData, nlaHdrlen])]
  rw [Memory.read_write _ _ _ (by simp), List.take_of_length_le (by simp), littleEndian_toLittleEndian]
  rfl

theorem nlaLen_fields : nlaLen req.fields genlmsgData = (req.nlaData.length + 5) % 65536 := by
  unfold nlaLen fields
  rw [Memory.read_write_of_disjoint _ (by simp [genlmsgData, nlaHdrlen]), Memory.read_write _ _ _ (by simp),
    List.take_of_length_le (by simp), littleEndian_toLittleEndian]
  rfl

/-- The length of the message, with the length of the attribute in 16 bits. -/
theorem nlmsgLen_message :
    nlmsgLen req.message = genlmsgData + nlaAlign ((req.nlaData.length + 5) % 65536) := by
  have small : genlmsgData + nlaAlign ((req.nlaData.length + 5) % 65536) < 256 ^ 4 := by
    unfold genlmsgData nlaAlign
    omega
  rw [nlmsgLen, message, Memory.read_write _ _ _ (by simp), List.take_of_length_le (by simp),
    littleEndian_toLittleEndian, nlmsgLen_fields, nlaLen_fields, Nat.mod_eq_of_lt small]

theorem nlmsgLen_message_lt : nlmsgLen req.message < 0x80000000 := by
  rw [nlmsgLen_message]
  unfold genlmsgData nlaAlign
  omega

end NetlinkRequest

/-- The request with which `get_family_id` starts: 36 bytes for the name and its NUL. -/
def familyRequest : NetlinkRequest where
  template := fun _ => 0
  pid := 4
  nlmsgType := 16
  genlCmd := 3
  nlaType := 2
  nlaData := [84, 65, 83, 75, 83, 84, 65, 84, 83, 0]

/-! ## The loop -/

namespace Sending

variable {strerror : Nat → String} {msg : Memory} {s s' : Sending} {a : SendAnswer}

/-- What the loop does with the answers that are permitted: it tries again, goes on behind the part
    that was taken, or is finished. -/
theorem answer_of_permitted (strerror : Nat → String) (msg : Memory) (left : 0 < s.buflen) (permitted : s.Permitted a) :
    ∃ s', s.answer strerror msg a = .ok s' ∧
      ((a.r ≤ 0 ∧ s' = s) ∨
      (0 < a.r ∧ a.r < s.buflen ∧
        s' = ⟨s.buf + a.r.toNat, s.buflen - a.r, s.accepted ++ [msg.read s.buf a.r.toNat], false⟩) ∨
      (a.r = s.buflen ∧
        s' = ⟨s.buf, s.buflen, s.accepted ++ [msg.read s.buf a.r.toNat], true⟩)) := by
  unfold answer
  rcases permitted with ⟨positive, most⟩ | ⟨none, again⟩
  · by_cases short : a.r < s.buflen
    · simp only [if_pos positive, if_pos short]
      exact ⟨_, rfl, .inr (.inl ⟨positive, short, rfl⟩)⟩
    · simp only [if_pos positive, if_neg short]
      exact ⟨_, rfl, .inr (.inr ⟨by omega, rfl⟩)⟩
  · have short : a.r < s.buflen := by omega
    have nothing : ¬ a.r > 0 := by omega
    simp only [if_neg nothing, if_pos short, again, ne_eq, not_true_eq_false, if_false]
    exact ⟨_, rfl, .inl ⟨none, rfl⟩⟩

/-- The bytes taken are the first ones of the message, and the variables are at the next one. -/
structure Resumed (msg : Memory) (count : Nat) (s : Sending) : Prop where
  taken : s.accepted.flatten = msg.read 0 count
  buf : s.finished = false → s.buf = count
  buflen : s.finished = false → s.buflen = nlmsgLen msg - count
  left : s.finished = false → 0 < s.buflen
  all : s.finished = true → count = nlmsgLen msg

/-- The loop is finished by the first answer that is the length of what is left. -/
def FinishedBy (msg : Memory) (answers : List SendAnswer) (s : Sending) : Prop :=
  ∀ (before : List SendAnswer) (a : SendAnswer) (after : List SendAnswer),
    answers = before ++ a :: after →
      (a.r = nlmsgLen msg - bytesTaken before ↔ after = [] ∧ s.finished = true)

theorem resumed_start (short : nlmsgLen msg < 0x80000000) (some : 0 < nlmsgLen msg) :
    Resumed msg 0 (start msg) where
  taken := rfl
  buf _ := rfl
  buflen _ := by simp [start, toCInt_of_lt short]
  left _ := by simpa [start, toCInt_of_lt short] using some
  all done := by cases done

theorem resumed_step {count : Nat} (resumed : Resumed msg count s)
    (step : Guarded Permitted (Step strerror msg) s a s') : Resumed msg (count + a.r.toNat) s' := by
  obtain ⟨permitted, running, answered⟩ := step
  have left := resumed.left running
  have buf := resumed.buf running
  have buflen := resumed.buflen running
  have taken : (s.accepted ++ [msg.read s.buf a.r.toNat]).flatten = msg.read 0 (count + a.r.toNat) := by
    rw [List.flatten_append, resumed.taken, buf, Memory.read_add, Nat.zero_add]
    simp
  obtain ⟨_, answered', cases⟩ := answer_of_permitted strerror msg left permitted
  cases Except.ok.inj (answered.symm.trans answered')
  rcases cases with ⟨nothing, rfl⟩ | ⟨positive, short, rfl⟩ | ⟨exactly, rfl⟩
  · rw [Int.toNat_of_nonpos nothing]
    exact resumed
  · exact
      { taken := taken
        buf := fun _ => by simp [buf]
        buflen := fun _ => by simp only [buflen]; omega
        left := fun _ => by simp only; omega
        all := fun done => by cases done }
  · exact
      { taken := taken
        buf := fun more => by cases more
        buflen := fun more => by cases more
        left := fun more => by cases more
        all := fun _ => by omega }

/-- Of some answers with one more, the one looked at is the last one or is followed by it. -/
theorem split_concat {answers before after : List SendAnswer} {e : SendAnswer}
    (split : answers ++ [e] = before ++ a :: after) :
    (after = [] ∧ a = e ∧ before = answers) ∨ ∃ after', answers = before ++ a :: after' ∧ after ≠ [] := by
  rcases List.eq_nil_or_concat after with rfl | ⟨after', last, rfl⟩
  · obtain ⟨rfl, same⟩ := List.append_inj' split rfl
    cases same
    exact .inl ⟨rfl, rfl, rfl⟩
  · right
    rw [List.concat_eq_append, ← List.cons_append, ← List.append_assoc] at split
    obtain ⟨rfl, _⟩ := List.append_inj' split rfl
    exact ⟨after', rfl, by simp⟩

theorem finishedBy_step {answers : List SendAnswer} (resumed : Resumed msg (bytesTaken answers) s)
    (finishedBy : FinishedBy msg answers s) (step : Guarded Permitted (Step strerror msg) s a s') :
    FinishedBy msg (answers ++ [a]) s' := by
  obtain ⟨permitted, running, answered⟩ := step
  have left := resumed.left running
  have finished : s'.finished = true ↔ a.r = s.buflen := by
    obtain ⟨_, answered', cases⟩ := answer_of_permitted strerror msg left permitted
    cases Except.ok.inj (answered.symm.trans answered')
    rcases cases with ⟨nothing, rfl⟩ | ⟨positive, short, rfl⟩ | ⟨exactly, rfl⟩
    · simp only [running, Bool.false_eq_true, false_iff]
      omega
    · simp only [Bool.false_eq_true, false_iff]
      omega
    · simp only [exactly]
  intro before e after split
  rcases split_concat split with ⟨rfl, rfl, rfl⟩ | ⟨after', rfl, more⟩
  · rw [finished, resumed.buflen running]
    simp
  · -- an answer that is not the last one did not finish the loop
    rw [finishedBy before e after' rfl, running]
    simp [more]

/-- However the kernel takes the message, in parts and with refusals in between: when the loop is
    finished, the parts are the message; it is finished by the first answer that is as long as what
    is left, and until then it goes on with the bytes not taken and no permitted answer ends the
    simulator. -/
theorem netlink_send_resumes (strerror : Nat → String) (req : NetlinkRequest) {answers : List SendAnswer}
    (run : Run (Guarded Permitted (Step strerror req.message)) (start req.message) answers s) :
    (s.finished = true → s.accepted.flatten = req.message.read 0 (nlmsgLen req.message)) ∧
    (∀ (before : List SendAnswer) (a : SendAnswer) (after : List SendAnswer),
      answers = before ++ a :: after →
        (a.r = nlmsgLen req.message - bytesTaken before ↔ after = [] ∧ s.finished = true)) ∧
    (s.finished = false →
      s.accepted.flatten = req.message.read 0 (bytesTaken answers) ∧
      s.buf = bytesTaken answers ∧ s.buflen = nlmsgLen req.message - bytesTaken answers ∧
      ∀ a, s.Permitted a → ∃ s', s.answer strerror req.message a = .ok s') := by
  have initial : Resumed req.message 0 (start req.message) := by
    apply resumed_start req.nlmsgLen_message_lt
    rw [req.nlmsgLen_message]
    exact Nat.lt_of_lt_of_le (by decide) (Nat.le_add_right ..)
  obtain ⟨resumed, finishedBy⟩ := run.history
    (fun answers s => Resumed req.message (bytesTaken answers) s ∧ FinishedBy req.message answers s)
    ⟨initial, fun before a after split => by simp at split⟩
    (fun answers s a s' inv step =>
      ⟨bytesTaken_concat answers a ▸ resumed_step inv.1 step, finishedBy_step inv.1 inv.2 step⟩)
  refine ⟨fun done => ?_, finishedBy, fun running => ⟨resumed.taken, resumed.buf running,
    resumed.buflen running, fun a permitted => ?_⟩⟩
  · rw [← resumed.all done]
    exact resumed.taken
  · obtain ⟨s', answered, _⟩ := answer_of_permitted strerror req.message (resumed.left running) permitted
    exact ⟨s', answered⟩

/-- The request of `get_family_id`, in three parts and with a refusal behind the first one. -/
theorem family_request_sent : ∃ (answers : List SendAnswer) (s : Sending),
    Run (Guarded Permitted (Step (fun _ => "") familyRequest.message)) (start familyRequest.message) answers s ∧
      answers.map SendAnswer.r = [7, -1, 20, 9] ∧
      s.accepted.flatten = familyRequest.message.read 0 (nlmsgLen familyRequest.message) := by
  have found : ∃ r ∈ perform (fun s a => if s.finished = false then
        (s.answer (fun _ => "") familyRequest.message a).toOption.map fun s' => (a, s') else none)
      Permitted (start familyRequest.message) [⟨7, 0⟩, ⟨-1, eagain⟩, ⟨20, 0⟩, ⟨9, 0⟩],
      r.1.map SendAnswer.r = [7, -1, 20, 9] ∧ r.2.finished = true := by decide +kernel
  have performed : ∃ answers s,
      Run (Guarded Permitted (Step (fun _ => "") familyRequest.message)) (start familyRequest.message) answers s ∧
        answers.map SendAnswer.r = [7, -1, 20, 9] ∧ s.finished = true := by
    apply Run.exists_of_results_if _ found
    intro s a s' waiting answered
    exact ⟨waiting, answered⟩
  obtain ⟨answers, s, run, sizes, done⟩ := performed
  exact ⟨answers, s, run, sizes, (netlink_send_resumes _ _ run).1 done⟩

end Sending

end Simterpose

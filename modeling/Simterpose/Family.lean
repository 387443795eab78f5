import Simterpose.NetlinkSend
import Simterpose.Replies

/-! # The number of the family

Before it asks for any times, the timer asks the controller of generic netlink for the number of the
family TASKSTATS, and addresses all its requests to that number. The answer of the controller consists
of attributes; `get_family_id` looks at the second one only. Addresses count from the start of the
message.
-/

namespace Simterpose

open Lib Attribute

/-- The size of the answer that `get_family_id` has room for. -/
def sizeofAns : Nat := 276
def ctrlAttrFamilyId : Nat := 1
def taskstatsCmdGet : UInt8 := 1
def taskstatsCmdAttrPid : Nat := 1

/-- `get_family_id` after `recv`, with what it returned. -/
def getFamilyId (ans : Memory) (repLen : Int) : Result Nat :=
  if 0 ≤ repLen ∧ nlmsgType ans ≠ nlmsgError ∧ nlmsgOk ans repLen then
    let na := genlmsgData + nlaAlign (nlaLen ans genlmsgData)
    if nlaType ans na = ctrlAttrFamilyId then .ok (littleEndian (ans.read (na + nlaHdrlen) 2)) else .ok 0
  else .error .xbtAssert

/-- `struct s_xbt_cpu_timer` without the descriptor of the socket. -/
structure XbtCpuTimer where
  pid : Nat
  msg : Memory
  id : Nat

/-- `cputimer_init`, with what `netlink_sock_new` and `recv` returned -/
def cputimerInit (pid : Nat) (sd : Int) (ans : Memory) (repLen : Int) : Result XbtCpuTimer :=
  if 0 ≤ sd then do
    let id ← getFamilyId ans repLen
    if id = 0 then .error .xbtAssert else return { pid, msg := fun _ => 0, id }
  else .error .xbtAssert

/-- The request with which `cputimer_get` starts. -/
def XbtCpuTimer.request (timer : XbtCpuTimer) (tid : Nat) : NetlinkRequest where
  template := timer.msg
  pid := timer.pid
  nlmsgType := timer.id
  genlCmd := taskstatsCmdGet
  nlaType := taskstatsCmdAttrPid
  nlaData := toLittleEndian 4 tid

/-! ## The answer of the controller -/

/-- An answer with the number of a family among other attributes. -/
structure FamilyReply where
  head : List UInt8
  before : List Attribute
  number : Attribute
  after : List Attribute
  headers : head.length = genlmsgData
  length : littleEndian (head.take 4) = (head ++ layout (before ++ number :: after)).length
  fine : littleEndian ((head.drop 4).take 2) ≠ nlmsgError
  numbered : number.type = ctrlAttrFamilyId
  short : number.payload.length = 2
  positive : littleEndian number.payload ≠ 0
  others : ∀ x ∈ before ++ after, x.type ≠ ctrlAttrFamilyId
  several : before ++ after ≠ []

namespace FamilyReply

variable (reply : FamilyReply)

def bytes : List UInt8 := reply.head ++ layout (reply.before ++ reply.number :: reply.after)

/-- The number of the family. -/
def family : Nat := littleEndian reply.number.payload

/-- What `recv` has stored of an answer, and the number it returned. -/
def Received (ans : Memory) (received : Nat) : Prop :=
  received = min reply.bytes.length sizeofAns ∧ ans.read 0 received = reply.bytes.take received

instance (ans : Memory) (received : Nat) : Decidable (reply.Received ans received) :=
  inferInstanceAs (Decidable (_ ∧ _))

variable {reply} {ans : Memory} {received : Nat}

theorem Received.holds {front rest : List UInt8} (arrived : reply.Received ans received)
    (parts : reply.bytes = front ++ rest) (stored : front.length ≤ received) : ans.Holds 0 front := by
  rw [Memory.Holds, ← Memory.take_read _ _ stored, arrived.2, List.take_take, Nat.min_eq_left stored, parts,
    List.take_left]

theorem length_bytes (reply : FamilyReply) :
    reply.bytes.length = genlmsgData + (layout (reply.before ++ reply.number :: reply.after)).length := by
  rw [bytes, List.length_append, reply.headers]

theorem Received.holds_head (arrived : reply.Received ans received) : ans.Holds 0 reply.head := by
  have long := reply.length_bytes
  refine arrived.holds rfl ?_
  rw [arrived.1, reply.headers]
  simp only [genlmsgData, sizeofAns] at long ⊢
  omega

/-- The answer is accepted just if there is room for all of it. -/
theorem Received.accepted_iff (arrived : reply.Received ans received) :
    0 ≤ (received : Int) ∧ nlmsgType ans ≠ nlmsgError ∧ nlmsgOk ans received ↔
      reply.bytes.length ≤ sizeofAns := by
  have head := arrived.holds_head
  have total := reply.length_bytes
  have number := arrived.1
  have length : nlmsgLen ans = reply.bytes.length := by
    rw [nlmsgLen, head.read_slice (i := 0) (by rw [reply.headers]; decide)]
    exact reply.length
  have type : nlmsgType ans ≠ nlmsgError := by
    rw [nlmsgType, ← Nat.zero_add 4, head.read_slice (i := 4) (n := 2) (by rw [reply.headers]; decide)]
    exact reply.fine
  simp only [nlmsgOk, length, type, ne_eq, not_false_eq_true, true_and]
  unfold sizeofNlmsghdr genlmsgData sizeofAns at *
  omega

/-- What is read behind the first attribute. -/
theorem second_of_holds {first second : Attribute} {rest : List Attribute}
    (holds : ans.Holds genlmsgData (layout (first :: second :: rest))) :
    ans.Holds (genlmsgData + nlaAlign (nlaLen ans genlmsgData)) second.bytes := by
  simp only [layout, List.flatMap_cons] at holds
  obtain ⟨one, others⟩ := Memory.holds_append.mp holds
  rw [nlaLen_of_holds one, ← first.length_bytes]
  exact (Memory.holds_append.mp others).1

/-- The number is the second attribute just if there is one in front of it. -/
theorem exists_second (reply : FamilyReply) : ∃ first second rest,
    reply.before ++ reply.number :: reply.after = first :: second :: rest ∧
      (reply.before.length = 1 ∧ second = reply.number ∨
        reply.before.length ≠ 1 ∧ second.type ≠ ctrlAttrFamilyId) := by
  have others := reply.others
  have several := reply.several
  match before : reply.before, after : reply.after with
  | [], [] => simp [before, after] at several
  | [], second :: rest =>
      rw [before, after] at others
      exact ⟨reply.number, second, rest, rfl, .inr ⟨by simp, others second (by simp)⟩⟩
  | [first], rest => exact ⟨first, reply.number, rest, rfl, .inl ⟨rfl, rfl⟩⟩
  | first :: second :: before', rest =>
      rw [before] at others
      exact ⟨first, second, _, rfl, .inr ⟨by simp, others second (by simp)⟩⟩

theorem getFamilyId_of_received (arrived : reply.Received ans received)
    (short : reply.bytes.length ≤ sizeofAns) :
    getFamilyId ans received = .ok (if reply.before.length = 1 then reply.family else 0) := by
  have whole : ans.Holds 0 reply.bytes := by
    refine arrived.holds (List.append_nil _).symm ?_
    rw [arrived.1, Nat.min_eq_left short]
  have attributes := (Memory.holds_append.mp whole).2
  rw [reply.headers, Nat.zero_add] at attributes
  obtain ⟨first, second, rest, order, place⟩ := reply.exists_second
  rw [order] at attributes
  have holds := second_of_holds attributes
  simp only [getFamilyId, if_pos (arrived.accepted_iff.mpr short), nlaType_of_holds holds]
  rcases place with ⟨one, rfl⟩ | ⟨elsewhere, other⟩
  · have payload := holds_payload holds
    rw [Memory.Holds, reply.short] at payload
    rw [if_pos reply.numbered, if_pos one, payload, family]
  · rw [if_neg other, if_neg elsewhere]

theorem cputimerInit_of_received (arrived : reply.Received ans received) (pid : Nat) (sd : Int) :
    cputimerInit pid sd ans received =
      if 0 ≤ sd ∧ reply.bytes.length ≤ sizeofAns ∧ reply.before.length = 1 then
        .ok { pid, msg := fun _ => 0, id := reply.family }
      else .error .xbtAssert := by
  unfold cputimerInit
  by_cases opened : 0 ≤ sd
  · by_cases short : reply.bytes.length ≤ sizeofAns
    · rw [if_pos opened, getFamilyId_of_received arrived short]
      by_cases second : reply.before.length = 1
      · have positive : reply.family ≠ 0 := reply.positive
        simp [opened, short, second, positive, bind, Except.bind, pure, Except.pure]
      · simp [second, bind, Except.bind]
    · have refused : getFamilyId ans received = .error .xbtAssert :=
        if_neg (mt arrived.accepted_iff.mp short)
      simp [opened, short, refused, bind, Except.bind]
  · simp [opened]

end FamilyReply

/-! ## The requests -/

theorem NetlinkRequest.nlmsgType_message (req : NetlinkRequest) (small : req.nlmsgType < 65536) :
    Simterpose.nlmsgType req.message = req.nlmsgType := by
  unfold Simterpose.nlmsgType message
  rw [Memory.read_write_of_disjoint _ (by simp)]
  unfold fields
  iterate 8 rw [Memory.read_write_of_disjoint _ (by simp [genlmsgData, nlaHdrlen])]
  rw [Memory.read_write _ _ _ (by simp), List.take_of_length_le (by simp), littleEndian_toLittleEndian]
  exact Nat.mod_eq_of_lt small

/-- The timer starts, and addresses every request for times to the family of the answer, if and only if
    there is a socket, the answer fits into the buffer, and the number is its second attribute. Otherwise
    the simulator stops. -/
theorem times_requested_of_family_iff (reply : FamilyReply) {ans : Memory} {received : Nat}
    (arrived : reply.Received ans received) (pid : Nat) (sd : Int) :
    ((∃ timer, cputimerInit pid sd ans received = .ok timer ∧
        ∀ tid, nlmsgType (timer.request tid).message = reply.family) ↔
      0 ≤ sd ∧ reply.bytes.length ≤ sizeofAns ∧ reply.before.length = 1) ∧
    (cputimerInit pid sd ans received = .error .xbtAssert ↔
      ¬ (0 ≤ sd ∧ reply.bytes.length ≤ sizeofAns ∧ reply.before.length = 1)) := by
  have small : reply.family < 65536 := by
    have bound := littleEndian_lt reply.number.payload
    rw [reply.short] at bound
    exact bound
  rw [FamilyReply.cputimerInit_of_received arrived]
  split
  · rename_i fits
    refine ⟨iff_of_true ⟨_, rfl, ?_⟩ fits, by simp [fits]⟩
    intro tid
    exact NetlinkRequest.nlmsgType_message _ small
  · rename_i misfit
    simp [misfit]

/-- The name and the number 22 of a family, in either order. -/
def taskstatsReply (nameFirst : Bool) : FamilyReply :=
  let name : Attribute :=
    { type := 2, payload := familyRequest.nlaData, pad := [0, 0], typed := by decide, fits := by decide
      padded := by decide }
  { head := toLittleEndian 4 44 ++ (toLittleEndian 2 16 ++ List.replicate 14 0)
    before := if nameFirst then [name] else []
    number :=
      { type := ctrlAttrFamilyId, payload := toLittleEndian 2 22, pad := [0, 0], typed := by decide
        fits := by decide, padded := by decide }
    after := if nameFirst then [] else [name]
    headers := by decide
    length := by cases nameFirst <;> decide
    fine := by decide
    numbered := rfl
    short := rfl
    positive := by decide
    others := by cases nameFirst <;> simp [name, ctrlAttrFamilyId]
    several := by cases nameFirst <;> simp }

/-- The memory after an answer was received. -/
def FamilyReply.stored (reply : FamilyReply) : Memory := Memory.write (fun _ => 0) 0 reply.bytes

/-- The kernel sends the name first; with the number in front the timer would not start. -/
theorem number_behind_name :
    (∃ timer, cputimerInit 4 3 (taskstatsReply true).stored 44 = .ok timer ∧
      ∀ tid, nlmsgType (timer.request tid).message = 22) ∧
    cputimerInit 4 3 (taskstatsReply false).stored 44 = .error .xbtAssert := by
  have named : (taskstatsReply true).Received (taskstatsReply true).stored 44 := by decide
  have numbered : (taskstatsReply false).Received (taskstatsReply false).stored 44 := by decide
  constructor
  · exact (times_requested_of_family_iff _ named 4 3).1.mpr (by decide)
  · exact (times_requested_of_family_iff _ numbered 4 3).2.mpr (by decide)

end Simterpose

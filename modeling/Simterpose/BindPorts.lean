import Simterpose.Lib.Loop
import Simterpose.Registers
import Simterpose.Translation

/-! # The search for a free real port

With address translation a `bind` of the tracee is tried on one real port after the other, until
the kernel accepts one. The ports are counted down, over all calls, by a variable of 16 bits that
is never looked at: below port 1 comes port 0, for which the kernel chooses a port by itself.
-/

namespace Simterpose

open Lib

def sysBind : UInt64 := 49

/-- The variables of the loop of `ptrace_find_free_binding_port`, with the tracee. -/
structure PortSearch (K : Type) where
  traced : Ptraced K
  reg : UserRegs
  port : UInt16

namespace Ptraced

variable {K : Type} (execute : Kernel K)

/-- A round of the loop; `sin` are the bytes of the structure `in`. The loop is left without a
    result where the tracee is not followed any more. -/
def bindRound (sin : List UInt8) (s : PortSearch K) : Iteration (PortSearch K) (Option (PortSearch K)) :=
  let temp := SockaddrIn.toBytes ⟨loopback, s.port⟩ sin
  match ptracePoke s.traced.mem s.reg.rsi.toNat temp s.reg.rdx.toNat with
  | .error _ => .stop none
  | .ok mem =>
      match ({ s.traced with mem := mem } : Ptraced K).resume execute with
      | none => .stop none
      | some t =>
          if t.regs.rax = 0 then .stop (some { traced := t, reg := t.regs, port := s.port })
          else
            match t.ptraceRewindSyscalls.resume execute with
            | none => .stop none
            | some t' => .again { traced := t', reg := t.regs, port := s.port - 1 }

/-- `ptrace_find_free_binding_port`, if its loop ends within a number of rounds. `port` is the value
    of the static variable. A structure that is longer than the variable `in` is not copied, and
    `unset` are the bytes that a shorter one leaves as they were. -/
def ptraceFindFreeBindingPort (rounds : Nat) (unset : List UInt8) (t : Ptraced K) (port : UInt16) :
    Option (Ptraced K × UInt16) := do
  let copied := ptraceCpy t.mem t.regs.rsi.toNat t.regs.rdx.toNat
  if copied.length ≤ sizeofSockaddrIn then
    let sin := (copied ++ unset.drop copied.length).take sizeofSockaddrIn
    let s ← (loop (bindRound execute sin) rounds { traced := t, reg := t.regs, port := port - 1 }).join
    let mem ← (ptracePoke s.traced.mem s.reg.rsi.toNat sin s.reg.rdx.toNat).toOption
    return ({ s.traced with mem := mem }, s.port)
  else none

end Ptraced

/-- The port in the structure that `bind` is given. -/
def UserRegs.bindPort (regs : UserRegs) (mem : Memory) : UInt16 :=
  (SockaddrIn.ofBytes (mem.read regs.rsi.toNat sizeofSockaddrIn)).port

/-- A kernel that binds a socket to a port exactly if the port is free, and to a free port of its
    choice if it is asked for port 0. -/
structure BindKernel (K : Type) where
  execute : Kernel K
  Free : K → UInt16 → Prop
  /-- the port that a descriptor of the tracee is bound to -/
  bound : K → UInt64 → Option UInt16
  untouched : ∀ regs k mem, (execute sysBind regs k mem).mem = mem
  granted : ∀ regs k mem, regs.rdx = 16 → regs.bindPort mem ≠ 0 → Free k (regs.bindPort mem) →
    (execute sysBind regs k mem).result = 0 ∧
      bound (execute sysBind regs k mem).kernel regs.rdi = some (regs.bindPort mem)
  refused : ∀ regs k mem, regs.rdx = 16 → regs.bindPort mem ≠ 0 → ¬ Free k (regs.bindPort mem) →
    (execute sysBind regs k mem).result ≠ 0 ∧ (execute sysBind regs k mem).kernel = k
  chosen : ∀ regs k mem, regs.rdx = 16 → regs.bindPort mem = 0 → (∃ p ≠ 0, Free k p) →
    (execute sysBind regs k mem).result = 0 ∧
      ∃ p ≠ 0, Free k p ∧ bound (execute sysBind regs k mem).kernel regs.rdi = some p

namespace Ptraced

variable {K : Type} {execute : Kernel K} {t : Ptraced K}

/-- At the entry of a `bind` of a whole structure, which does not overlap the instruction. -/
structure Binding (t : Ptraced K) : Prop where
  stopped : t.stop = .entry
  binds : t.regs.origRax = sysBind
  whole : t.regs.rdx = 16
  instruction : t.mem.read (t.regs.rip - 2).toNat 2 = syscallInstruction
  apart : (t.regs.rip - 2).toNat + 2 ≤ t.regs.rsi.toNat ∨
    t.regs.rsi.toNat + sizeofSockaddrIn ≤ (t.regs.rip - 2).toNat

/-- The tracee during the search: only the structure and the result register are not as before. -/
structure Retrying (t : Ptraced K) (s : PortSearch K) : Prop where
  stopped : s.traced.stop = .entry
  kernel : s.traced.kernel = t.kernel
  regs : ∃ rax, s.traced.regs = t.regs.setRax rax
  mem : ∃ bytes : List UInt8, bytes.length = sizeofSockaddrIn ∧
    s.traced.mem = t.mem.write t.regs.rsi.toNat bytes
  reg : s.reg.rsi = t.regs.rsi ∧ s.reg.rdx = t.regs.rdx

/-- The memory when a port has been filled in. -/
def withPort (t : Ptraced K) (port : UInt16) : Memory :=
  t.mem.write t.regs.rsi.toNat
    (SockaddrIn.toBytes ⟨loopback, port⟩ (t.mem.read t.regs.rsi.toNat sizeofSockaddrIn))

theorem length_toBytes_read (t : Ptraced K) (sai : SockaddrIn) :
    (sai.toBytes (t.mem.read t.regs.rsi.toNat sizeofSockaddrIn)).length = sizeofSockaddrIn := by
  rw [sai.length_toBytes (by simp [sizeofSockaddrIn]), Memory.length_read]

theorem bindPort_withPort (t : Ptraced K) (port : UInt16) : t.regs.bindPort (t.withPort port) = port := by
  have whole := t.length_toBytes_read ⟨loopback, port⟩
  rw [UserRegs.bindPort, withPort, Memory.read_write _ _ _ (Nat.le_of_eq whole.symm),
    List.take_of_length_le (Nat.le_of_eq whole), SockaddrIn.ofBytes_toBytes]
  simp [sizeofSockaddrIn]

theorem Retrying.resume_poked {s : PortSearch K} (retrying : t.Retrying s) :
    ({ s.traced with mem := t.withPort s.port } : Ptraced K).resume execute =
      some (({ s.traced with mem := t.withPort s.port } : Ptraced K).call execute) :=
  resume_entry retrying.stopped

namespace Binding

variable {s : PortSearch K} (binding : t.Binding)

include binding

theorem start (port : UInt16) : t.Retrying { traced := t, reg := t.regs, port := port } where
  stopped := binding.stopped
  kernel := rfl
  regs := ⟨t.regs.rax, rfl⟩
  mem := ⟨t.mem.read t.regs.rsi.toNat sizeofSockaddrIn, by simp, (Memory.write_read ..).symm⟩
  reg := ⟨rfl, rfl⟩

theorem size : t.regs.rdx.toNat = sizeofSockaddrIn := by
  rw [binding.whole]
  rfl

/-- A poke of a whole structure replaces the one there is. -/
theorem poke (retrying : t.Retrying s) {bytes : List UInt8} (whole : bytes.length = sizeofSockaddrIn) :
    ptracePoke s.traced.mem s.reg.rsi.toNat bytes s.reg.rdx.toNat =
      .ok (t.mem.write t.regs.rsi.toNat bytes) := by
  obtain ⟨old, length, mem⟩ := retrying.mem
  rw [retrying.reg.1, retrying.reg.2, binding.size, ptracePoke_of_length rfl whole, mem,
    Memory.write_write _ _ (length.trans whole.symm)]

theorem instruction_kept {bytes : List UInt8} (whole : bytes.length = sizeofSockaddrIn) :
    (t.mem.write t.regs.rsi.toNat bytes).read (t.regs.rip - 2).toNat 2 = syscallInstruction := by
  rw [Memory.read_write_of_disjoint _ (by rw [whole]; exact binding.apart)]
  exact binding.instruction

theorem round_stop (retrying : t.Retrying s) {t' : Ptraced K}
    (called : ({ s.traced with mem := t.withPort s.port } : Ptraced K).call execute = t')
    (accepted : t'.regs.rax = 0) :
    bindRound execute (t.mem.read t.regs.rsi.toNat sizeofSockaddrIn) s =
      .stop (some { traced := t', reg := t'.regs, port := s.port }) := by
  unfold bindRound
  dsimp only
  rw [binding.poke retrying (t.length_toBytes_read _)]
  dsimp only
  rw [← withPort, retrying.resume_poked, called]
  dsimp only
  rw [if_pos accepted]

theorem round_again (retrying : t.Retrying s) {t' : Ptraced K}
    (called : ({ s.traced with mem := t.withPort s.port } : Ptraced K).call execute = t')
    (refused : t'.regs.rax ≠ 0) (untouched : t'.mem = t.withPort s.port)
    (rip : t'.regs.rip = t.regs.rip) :
    bindRound execute (t.mem.read t.regs.rsi.toNat sizeofSockaddrIn) s = .again
      { traced := { t' with regs := t'.regs.setRax (UInt64.ofInt (-enosys)), stop := .entry }
        reg := t'.regs, port := s.port - 1 } := by
  have stopped : t'.stop = .exit := by rw [← called, call]
  have instruction : t'.mem.read (t'.regs.rip - 2).toNat 2 = syscallInstruction := by
    rw [untouched, rip]
    exact binding.instruction_kept (t.length_toBytes_read _)
  unfold bindRound
  dsimp only
  rw [binding.poke retrying (t.length_toBytes_read _)]
  dsimp only
  rw [← withPort, retrying.resume_poked, called]
  dsimp only
  rw [if_neg refused, resume_rewound stopped instruction]

end Binding

/-- How the search ends: on the first free port below the one it starts with, or on port 0. -/
structure Found (kernel : BindKernel K) (t : Ptraced K) (port : UInt16) (s : PortSearch K) : Prop where
  stopped : s.traced.stop = .exit
  mem : s.traced.mem = t.withPort s.port
  reg : s.reg.rsi = t.regs.rsi ∧ s.reg.rdx = t.regs.rdx
  outcome :
    s.port ≠ 0 ∧ s.port ≤ port ∧ kernel.Free t.kernel s.port ∧
        kernel.bound s.traced.kernel t.regs.rdi = some s.port ∨
      s.port = 0 ∧ (∀ p ≠ 0, p ≤ port → ¬ kernel.Free t.kernel p) ∧
        ∃ p ≠ 0, kernel.bound s.traced.kernel t.regs.rdi = some p

/-- The search that is at `s` comes to such an end. -/
def Finds (kernel : BindKernel K) (t : Ptraced K) (s : PortSearch K) : Prop :=
  ∃ s', Ends (bindRound kernel.execute (t.mem.read t.regs.rsi.toNat sizeofSockaddrIn)) s (some s') ∧
    Found kernel t s.port s'

/-- The poke of the bytes there were puts the structure back. -/
theorem Found.restored {kernel : BindKernel K} {port : UInt16} {s : PortSearch K}
    (found : Found kernel t port s) (binding : t.Binding) :
    ptracePoke s.traced.mem s.reg.rsi.toNat (t.mem.read t.regs.rsi.toNat sizeofSockaddrIn)
      s.reg.rdx.toNat = .ok t.mem := by
  rw [found.reg.1, found.reg.2, binding.size, ptracePoke_of_length rfl (Memory.length_read ..), found.mem,
    withPort, Memory.write_write _ _ ((t.length_toBytes_read _).trans (Memory.length_read ..).symm),
    Memory.write_read]

/-- The call of a round, with the registers `regs` that it is made with. -/
theorem Binding.call_eq (kernel : BindKernel K) (binding : t.Binding) {s : PortSearch K}
    (retrying : t.Retrying s) : ∃ rax, ∀ done,
      kernel.execute sysBind (t.regs.setRax rax) t.kernel (t.withPort s.port) = done →
      ({ s.traced with mem := t.withPort s.port } : Ptraced K).call kernel.execute =
        { regs := t.regs.setRax done.result, mem := t.withPort s.port, stop := .exit
          kernel := done.kernel, executed := s.traced.executed ++ [sysBind] } := by
  obtain ⟨rax, regs⟩ := retrying.regs
  refine ⟨rax, ?_⟩
  rintro _ rfl
  have binds : (t.regs.setRax rax).origRax = sysBind := binding.binds
  simp only [call, regs, binds, retrying.kernel, kernel.untouched]
  rfl

section

variable (kernel : BindKernel K) (binding : t.Binding) {s : PortSearch K} (retrying : t.Retrying s)

include binding retrying

theorem Binding.search_zero (some_ : ∃ p ≠ 0, kernel.Free t.kernel p) (last : s.port = 0) :
    Finds kernel t s := by
  obtain ⟨rax, called⟩ := binding.call_eq kernel retrying
  have asked : (t.regs.setRax rax).bindPort (t.withPort s.port) = 0 :=
    (t.bindPort_withPort s.port).trans last
  obtain ⟨accepted, p, nonzero, -, bound⟩ :=
    kernel.chosen (t.regs.setRax rax) t.kernel (t.withPort s.port) binding.whole asked some_
  have stops := binding.round_stop retrying (called _ rfl) accepted
  refine ⟨_, (ends_stop stops).mpr rfl, rfl, rfl, ⟨rfl, rfl⟩, .inr ⟨last, ?_, p, nonzero, bound⟩⟩
  intro q nonzero below
  rw [last] at below
  exact absurd (UInt16.le_zero_iff.mp below) nonzero

theorem Binding.search_free (nonzero : s.port ≠ 0) (free : kernel.Free t.kernel s.port) :
    Finds kernel t s := by
  obtain ⟨rax, called⟩ := binding.call_eq kernel retrying
  have asked : (t.regs.setRax rax).bindPort (t.withPort s.port) = s.port := t.bindPort_withPort s.port
  have granted := kernel.granted (t.regs.setRax rax) t.kernel (t.withPort s.port) binding.whole
  rw [asked] at granted
  obtain ⟨accepted, bound⟩ := granted nonzero free
  have stops := binding.round_stop retrying (called _ rfl) accepted
  exact ⟨_, (ends_stop stops).mpr rfl, rfl, rfl, ⟨rfl, rfl⟩,
    .inl ⟨nonzero, UInt16.le_refl _, free, bound⟩⟩

theorem Binding.search_next (nonzero : s.port ≠ 0) (taken : ¬ kernel.Free t.kernel s.port) :
    ∃ s', bindRound kernel.execute (t.mem.read t.regs.rsi.toNat sizeofSockaddrIn) s = .again s' ∧
      t.Retrying s' ∧ s'.port = s.port - 1 := by
  obtain ⟨rax, called⟩ := binding.call_eq kernel retrying
  have asked : (t.regs.setRax rax).bindPort (t.withPort s.port) = s.port := t.bindPort_withPort s.port
  have refused := kernel.refused (t.regs.setRax rax) t.kernel (t.withPort s.port) binding.whole
  rw [asked] at refused
  obtain ⟨failed, unchanged⟩ := refused nonzero taken
  refine ⟨_, binding.round_again retrying (called _ rfl) failed rfl rfl, ?_, rfl⟩
  exact ⟨rfl, unchanged, ⟨_, rfl⟩, ⟨_, t.length_toBytes_read _, rfl⟩, rfl, rfl⟩

end

theorem Binding.search (kernel : BindKernel K) (binding : t.Binding)
    (some_ : ∃ p ≠ 0, kernel.Free t.kernel p) {s : PortSearch K} (retrying : t.Retrying s) :
    Finds kernel t s := by
  -- by induction on the port, which is counted down
  generalize count : s.port.toNat = n
  induction n generalizing s with
  | zero => exact binding.search_zero kernel retrying some_ (UInt16.toNat_inj.mp count)
  | succ n ih =>
      have nonzero : s.port ≠ 0 := by
        intro zero
        rw [zero] at count
        cases count
      by_cases free : kernel.Free t.kernel s.port
      · exact binding.search_free kernel retrying nonzero free
      · obtain ⟨next, again, retrying', port⟩ := binding.search_next kernel retrying nonzero free
        have below : next.port.toNat = n := by
          rw [port]
          exact toNat_sub_one count
        obtain ⟨s', ends, found⟩ := ih retrying' below
        refine ⟨s', (ends_again again).mpr ends, found.stopped, found.mem, found.reg, ?_⟩
        have smaller : ∀ p : UInt16, p ≤ next.port ↔ p ≤ s.port ∧ p ≠ s.port := by
          intro p
          rw [UInt16.le_iff_toNat_le, UInt16.le_iff_toNat_le, ne_eq, ← UInt16.toNat_inj, below, count]
          omega
        rcases found.outcome with ⟨nonzero', low, rest⟩ | ⟨zero, none_, chosen⟩
        · exact .inl ⟨nonzero', ((smaller _).mp low).1, rest⟩
        · refine .inr ⟨zero, ?_, chosen⟩
          intro p nonzero' low
          by_cases same : p = s.port
          · rw [same]
            exact free
          · exact none_ p nonzero' ((smaller p).mpr ⟨low, same⟩)

/-- The search ends and the structure is put back. The port it returns is the one the socket is
    bound to exactly if a port below the static variable is free. -/
theorem found_port_iff (kernel : BindKernel K) {t : Ptraced K} (binding : t.Binding)
    (some_ : ∃ p ≠ 0, kernel.Free t.kernel p) (unset : List UInt8) (port : UInt16) :
    ∃ rounds t' found bound,
      t.ptraceFindFreeBindingPort kernel.execute rounds unset port = some (t', found) ∧
      t'.stop = .exit ∧ t'.mem = t.mem ∧ kernel.bound t'.kernel t.regs.rdi = some bound ∧
      (found = bound ↔ ∃ p ≠ 0, p ≤ port - 1 ∧ kernel.Free t.kernel p) := by
  obtain ⟨s, ⟨rounds, ends⟩, found⟩ := binding.search kernel some_ (binding.start (port - 1))
  have copied : ptraceCpy t.mem t.regs.rsi.toNat t.regs.rdx.toNat =
      t.mem.read t.regs.rsi.toNat sizeofSockaddrIn := by
    rw [ptraceCpy_eq, binding.whole]
    rfl
  have returns : t.ptraceFindFreeBindingPort kernel.execute rounds unset port =
      some ({ s.traced with mem := t.mem }, s.port) := by
    simp only [ptraceFindFreeBindingPort, copied, Memory.length_read, Nat.le_refl, if_true,
      List.take_left' (Memory.length_read ..), ends, Option.join_some, Option.bind_eq_bind,
      Option.bind_some, found.restored binding]
    rfl
  rcases found.outcome with ⟨nonzero, below, free, bound⟩ | ⟨zero, none_, q, nonzero, bound⟩
  · exact ⟨rounds, _, _, s.port, returns, found.stopped, rfl, bound,
      iff_of_true rfl ⟨s.port, nonzero, below, free⟩⟩
  · refine ⟨rounds, _, _, q, returns, found.stopped, rfl, bound, iff_of_false ?_ ?_⟩
    · rw [zero]
      exact nonzero.symm
    · rintro ⟨p, nonzero', below, free⟩
      exact none_ p nonzero' below free

end Ptraced

/-- A kernel with a list of the occupied ports. -/
structure BoundPorts where
  occupied : List UInt16
  bound : UInt64 → Option UInt16

namespace BoundPorts

/-- The port that a socket gets if it asks for `port`. -/
def grant (k : BoundPorts) (port : UInt16) : Option UInt16 :=
  if port = 0 then ((List.range' 1 65535).map UInt16.ofNat).find? (· ∉ k.occupied)
  else if port ∈ k.occupied then none else some port

theorem grant_zero {k : BoundPorts} (some_ : ∃ p ≠ 0, p ∉ k.occupied) :
    ∃ p ≠ 0, p ∉ k.occupied ∧ k.grant 0 = some p := by
  have listed : ∀ p : UInt16, p ∈ (List.range' 1 65535).map UInt16.ofNat ↔ p ≠ 0 := by
    intro p
    rw [List.mem_map]
    constructor
    · rintro ⟨n, member, rfl⟩ zero
      rw [List.mem_range'_1] at member
      have small : (UInt16.ofNat n).toNat = n := UInt16.toNat_ofNat_of_lt' (by change n < 65536; omega)
      rw [zero] at small
      change 0 = n at small
      omega
    · intro nonzero
      have positive : p.toNat ≠ 0 := fun zero => nonzero (UInt16.toNat_inj.mp zero)
      have small := p.toNat_lt
      refine ⟨p.toNat, ?_, UInt16.ofNat_toNat⟩
      rw [List.mem_range'_1]
      omega
  obtain ⟨q, nonzero, free⟩ := some_
  rw [grant, if_pos rfl]
  cases chosen : ((List.range' 1 65535).map UInt16.ofNat).find? (· ∉ k.occupied) with
  | none =>
      have taken := List.find?_eq_none.mp chosen q ((listed q).mpr nonzero)
      simp [free] at taken
  | some p =>
      have free' := List.find?_some chosen
      exact ⟨p, (listed p).mp (List.mem_of_find?_eq_some chosen), by simpa using free', rfl⟩

def bind (k : BoundPorts) (regs : UserRegs) (mem : Memory) : Executed BoundPorts :=
  match k.grant (regs.bindPort mem) with
  | some p =>
      ⟨⟨p :: k.occupied, Function.update k.bound regs.rdi (some p)⟩, mem, 0⟩
  | none => ⟨k, mem, UInt64.ofInt (-98)⟩

end BoundPorts

def portKernel : BindKernel BoundPorts where
  execute call regs k mem := if call = sysBind then k.bind regs mem else ⟨k, mem, UInt64.ofInt (-enosys)⟩
  Free k p := p ∉ k.occupied
  bound k fd := k.bound fd
  untouched regs k mem := by
    rw [if_pos rfl, BoundPorts.bind]
    split <;> rfl
  granted regs k mem _ nonzero free := by
    have grant : k.grant (regs.bindPort mem) = some (regs.bindPort mem) := by
      rw [BoundPorts.grant, if_neg nonzero, if_neg free]
    simp [BoundPorts.bind, grant]
  refused regs k mem _ nonzero taken := by
    have grant : k.grant (regs.bindPort mem) = none := by
      rw [BoundPorts.grant, if_neg nonzero, if_pos (not_not.mp taken)]
    simp only [if_pos, BoundPorts.bind, grant]
    exact ⟨by decide, trivial⟩
  chosen regs k mem _ zero some_ := by
    obtain ⟨p, nonzero, free, grant⟩ := BoundPorts.grant_zero some_
    simp only [if_pos, BoundPorts.bind, zero, grant]
    exact ⟨trivial, p, nonzero, free, by simp⟩

namespace Ptraced

/-- A tracee that binds its descriptor 5; no port is occupied yet. -/
def unbound : Ptraced BoundPorts where
  regs := { accepting.regs with origRax := sysBind, rdi := 5, rsi := 200, rdx := 16 }
  mem := Memory.write (fun _ => 0) 98 syscallInstruction
  stop := .entry
  kernel := { occupied := [], bound := fun _ => none }
  executed := []

theorem unbound_binding : unbound.Binding where
  stopped := rfl
  binds := rfl
  whole := rfl
  instruction := by decide
  apart := by decide

/-- The first search finds port 65535. -/
theorem first_search : ∃ rounds t' found bound,
    unbound.ptraceFindFreeBindingPort portKernel.execute rounds [] 0 = some (t', found) ∧
    t'.mem = unbound.mem ∧ portKernel.bound t'.kernel 5 = some bound ∧ found = bound := by
  obtain ⟨rounds, t', found, bound, returns, -, mem, bound_, right⟩ :=
    found_port_iff portKernel unbound_binding ⟨1, by decide, by simp [portKernel, unbound]⟩ [] 0
  have free : portKernel.Free unbound.kernel 65535 := by simp [portKernel, unbound]
  exact ⟨rounds, t', found, bound, returns, mem, bound_, right.mpr ⟨65535, by decide, by decide, free⟩⟩

/-- After 65535 calls the search asks for port 0 and returns it, while the socket has a real port. -/
theorem search_wraps :
    (unbound.ptraceFindFreeBindingPort portKernel.execute 1 [] 1).map
      (fun r => (r.2, portKernel.bound r.1.kernel 5)) = some (0, some 1) := by
  decide +kernel

end Ptraced

end Simterpose

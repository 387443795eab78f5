import Simterpose.Files
import Simterpose.RealPorts

/-! # The two builds of the interposer

Simterpose is built in one of two ways. The full-mediation build neutralises the socket calls and
updates the tables when a call is entered; the address-translation build lets the kernel run the
calls and updates the tables when they return. This module runs both on the same calls, with the
same outcomes, one completed call after another.
-/

namespace Simterpose

open Lib

/-- A completed call with what the kernel answered. Only the address-translation build lets the kernel
    run `bind`, `connect` and `accept`: `realPort` is the port that it gave to the socket, `ret` what it
    returned and `sai` of `accept` the address that it wrote to the tracee. Of `setsockopt` this is the
    option `SO_REUSEADDR`. -/
inductive SocketCall where
  | socket (proc : Pid) (domain type protocol ret : Int)
  | bind (proc : Pid) (sockfd : Int) (sai : SockaddrIn) (realPort : UInt16)
  | listen (proc : Pid) (sockfd : Int)
  | connect (proc : Pid) (sockfd : Int) (sai : SockaddrIn) (ret : Int) (realPort : UInt16)
  | accept (proc : Pid) (sockfd newfd : Int) (sai : SockaddrIn)
  | shutdown (proc : Pid) (sockfd : Int)
  | setsockopt (proc : Pid) (sockfd optval : Int)
  | close (proc : Pid) (fd ret : Int)
  deriving Repr, DecidableEq

/-- `SOCK_OPT_REUSEADDR` -/
def sockOptReuseaddr : Nat := 0x1

/-! ## Full mediation -/

namespace World

section

variable {H : Type} (w : World H)

/-- The option word that `socket_set_option` stores. -/
def optionAfter (word option : Nat) (value : Int) : Nat :=
  if value ≠ 0 then word ||| option else clearBits word option

/-- `socket_set_option` -/
def socketSetOption (proc : Pid) (fd : Int) (option : Nat) (value : Int) : World H :=
  match w.getInfosSocket proc fd with
  | none => w
  | some is => w.modifySocket is fun s => { s with option := optionAfter s.option option value }

/-- `comm_shutdown` -/
def commShutdown (is : SockId) : World H :=
  match (w.socket is).comm with
  | none => w
  | some k => w.modifyComm k fun c => { c with state := .shut }

/-- `syscall_shutdown_post` -/
def syscallShutdownPost (proc : Pid) (sockfd : Int) : World H :=
  match w.getInfosSocket proc sockfd with
  | none => w
  | some is => w.commShutdown is

/-- `comm_get_ip_port_accept`: what `comm_accept_connect` reads; an empty queue leaves the structure
    as it is. -/
def commGetIpPortAccept (is : SockId) (sai : SockaddrIn) : Result SockaddrIn :=
  (w.commAcceptConnect is).map (·.getD sai)

end

variable {H : Type} [DecidableEq H] (w : World H)

/-- `syscall_close` at the exit. -/
def syscallClose (proc : Pid) (fd ret : Int) : Result (World H) :=
  if ret = 0 then w.processCloseCall proc fd else .ok w

/-- `process_accept_out_call` from `comm_join_on_accept` on. -/
def acceptJoin (proc : Pid) (sockfd ret : Int) (is : SockId) : Result (World H) := do
  let w ← w.commJoinOnAccept is proc sockfd
  match w.getInfosSocket proc sockfd with
  | none => .error .segfault
  | some s =>
      let w := w.registerPort (w.procs proc).host (w.socket s).portLocal
      let ip ← w.acceptedIp proc s is
      let w ← w.setLocaladdrPortSocket proc ret ip (w.socket s).portLocal
      return w.modifySocket is fun n => { n with fd := { n.fd with stream := (w.socket s).fd.stream } }

theorem processAcceptOutCall_eq (proc : Pid) (sockfd ret : Int) :
    w.processAcceptOutCall proc sockfd ret =
      if ret ≥ 0 then
        w.registerSocket proc ret (w.getDomainSocket proc sockfd) (w.getTypeSocket proc sockfd)
          (w.getProtocolSocket proc sockfd) >>= fun w' => w'.acceptJoin proc sockfd ret w.sockets.next
      else .ok w := rfl

/-- A call in the full-mediation build; `shutdown` is neutralised and changes nothing. -/
def fullMediation : SocketCall → Result (World H)
  | .socket proc domain type protocol ret => w.syscallSocket proc domain type protocol ret
  | .bind proc sockfd sai _ => (w.syscallBindPre proc sockfd sai).map (·.1)
  | .listen proc sockfd => w.processListenCall proc sockfd
  | .connect proc sockfd sai _ _ => (w.processConnectInCall proc sockfd sai).map (·.world)
  | .accept proc sockfd newfd _ => (w.syscallAccept proc sockfd newfd).map (·.1)
  | .shutdown _ _ => .ok w
  | .setsockopt proc sockfd optval => .ok (w.socketSetOption proc sockfd sockOptReuseaddr optval)
  | .close proc fd ret => w.syscallClose proc fd ret

end World

/-! ## Address translation -/

namespace Translated

variable {H : Type} [DecidableEq H] (t : Translated H)

/-- `sys_translate_accept_out`, with the address `sai` that the kernel wrote. -/
def sysTranslateAcceptOut (proc : Pid) (sockfd : Int) (sai : SockaddrIn) : Result (Translated H) :=
  match t.world.getInfosSocket proc sockfd with
  | none => .error .segfault
  | some is => do
      let peer ← t.world.commGetIpPortAccept is sai
      match t.world.connectHost proc peer.addr with
      | none => .error .segfault
      | some host =>
          let w := t.world.setRealPort host peer.port.toNat sai.port.toNat
          return { t with world := w }.addNewTranslation sai.port.toNat peer.port.toNat peer.addr

/-- `process_accept_out_call` -/
def processAcceptOutCall (proc : Pid) (sockfd ret : Int) (sai : SockaddrIn) : Result (Translated H) :=
  if ret ≥ 0 then do
    let is := t.world.sockets.next
    let w ← t.world.registerSocket proc ret (t.world.getDomainSocket proc sockfd)
      (t.world.getTypeSocket proc sockfd) (t.world.getProtocolSocket proc sockfd)
    let t ← { t with world := w }.sysTranslateAcceptOut proc sockfd sai
    let w ← t.world.acceptJoin proc sockfd ret is
    return { t with world := w }
  else .ok t

/-- `syscall_accept` at the entry and at the exit. -/
def syscallAccept (proc : Pid) (sockfd newfd : Int) (sai : SockaddrIn) : Result (Translated H) := do
  let waiting ← t.world.commHasConnectWaiting (t.world.getInfosSocket proc sockfd)
  match t.world.getInfosSocket proc sockfd, waiting with
  | some is, true =>
      let _ ← t.world.commAcceptConnect is
      t.processAcceptOutCall proc sockfd newfd sai
  | _, _ => t.processAcceptOutCall proc sockfd newfd sai

/-- `syscall_connect_post`; the structure in the tracee has the port `target` by now. -/
def syscallConnectPost (proc : Pid) (sockfd : Int) (target : UInt16) (ret : Int) (realPort : UInt16) :
    Result (Translated H) :=
  let ret := if ret = -einprogress then 0 else ret
  if t.world.getDomainSocket proc sockfd = 2 ∧ ret ≥ 0 then
    match t.listTranslate target.toNat, t.world.getInfosSocket proc sockfd with
    | some _, some is =>
        let host := (t.world.procs proc).host
        let port := (t.world.socket is).portLocal
        let w := t.world.setRealPort host port realPort.toNat
        .ok ({ t with world := w }.addNewTranslation realPort.toNat port (w.hosts host).ip)
    | _, _ => .error .segfault
  else .ok t

/-- `syscall_connect` at the entry and at the exit. On a non-blocking socket `syscall_connect_pre`
    leaves the process outside of the call, so that its exit is taken for another entry. -/
def syscallConnect (proc : Pid) (sockfd : Int) (sai : SockaddrIn) (ret : Int) (realPort : UInt16) :
    Result (Translated H) := do
  let o ← t.world.processConnectInCall proc sockfd sai
  match o.listener with
  | none => return { t with world := o.world }
  | some _ =>
      let target ← o.world.getRealPort proc sai.addr sai.port.toNat
      if o.waits then
        ({ t with world := o.world } : Translated H).syscallConnectPost proc sockfd
          (UInt16.ofInt target) ret realPort
      else
        let o ← o.world.processConnectInCall proc sockfd ⟨loopback, UInt16.ofInt target⟩
        return { t with world := o.world }

/-- A call in the address-translation build; `setsockopt` is only printed. -/
def addressTranslation : SocketCall → Result (Translated H)
  | .socket proc domain type protocol ret =>
      (t.world.syscallSocket proc domain type protocol ret).map ({ t with world := · })
  | .bind proc sockfd sai realPort => (t.syscallBindPre proc sockfd sai realPort).map (·.1)
  | .listen proc sockfd => (t.world.processListenCall proc sockfd).map ({ t with world := · })
  | .connect proc sockfd sai ret realPort => t.syscallConnect proc sockfd sai ret realPort
  | .accept proc sockfd newfd sai => t.syscallAccept proc sockfd newfd sai
  | .shutdown proc sockfd => .ok { t with world := t.world.syscallShutdownPost proc sockfd }
  | .setsockopt _ _ _ => .ok t
  | .close proc fd ret => (t.world.syscallClose proc fd ret).map ({ t with world := · })

end Translated

/-! ## What is the same in both -/

namespace World

variable {H : Type}

/-- The model state, real ports aside: communications, port tables, local addresses and options of
    sockets, and descriptor tables. -/
structure SameModel (w v : World H) : Prop where
  states : ∀ k, (v.comm k).state = (w.comm k).state
  queues : ∀ k, (v.comm k).connWait = (w.comm k).connWait
  ports : ∀ host port, (v.portDesc host port).map PortDesc.forgetReal =
    (w.portDesc host port).map PortDesc.forgetReal
  addresses : ∀ is, (v.socket is).ipLocal = (w.socket is).ipLocal ∧
    (v.socket is).portLocal = (w.socket is).portLocal
  options : ∀ is, (v.socket is).option = (w.socket is).option
  fdMaps : ∀ proc, (v.procs proc).fdMap = (w.procs proc).fdMap
  flags : ∀ is, v.commGetSocketState is = w.commGetSocketState is

theorem Alike.sameModel {w v : World H} (alike : w.Alike v) : w.SameModel v := by
  have ports := alike.entry
  obtain ⟨-⟩ := alike
  exact ⟨fun _ => rfl, fun _ => rfl, ports, fun _ => ⟨rfl, rfl⟩, fun _ => rfl, fun _ => rfl,
    fun _ => rfl⟩

/-- The call is none on which the builds differ: a `shutdown` of a communication that is not shut yet,
    or a `setsockopt` that gives the option another value. -/
def Neutral (w : World H) : SocketCall → Prop
  | .shutdown proc sockfd => ∀ is ∈ w.getInfosSocket proc sockfd, ∀ k ∈ (w.socket is).comm,
      (w.comm k).state = .shut
  | .setsockopt proc sockfd optval => ∀ is ∈ w.getInfosSocket proc sockfd,
      (optval ≠ 0 ↔ (w.socket is).option &&& sockOptReuseaddr ≠ 0)
  | _ => True

instance (w : World H) : (call : SocketCall) → Decidable (w.Neutral call)
  | .shutdown proc sockfd => inferInstanceAs (Decidable (∀ is ∈ w.getInfosSocket proc sockfd,
      ∀ k ∈ (w.socket is).comm, (w.comm k).state = .shut))
  | .setsockopt proc sockfd optval => inferInstanceAs (Decidable (∀ is ∈ w.getInfosSocket proc sockfd,
      (optval ≠ 0 ↔ (w.socket is).option &&& sockOptReuseaddr ≠ 0)))
  | .socket .. | .bind .. | .listen .. | .connect .. | .accept .. | .close .. => isTrue trivial

end World

/-! ## Calls that both builds treat alike -/

namespace World

section

variable {H : Type} {w v : World H}

theorem Alike.commHasConnectWaiting (alike : w.Alike v) (is : Option SockId) :
    v.commHasConnectWaiting is = w.commHasConnectWaiting is := by
  cases alike
  rfl

end

variable {H : Type} [DecidableEq H] {w v : World H}

theorem relates_syscallClose (alike : w.Alike v) (proc : Pid) (fd ret : Int) :
    Relates Alike (w.syscallClose proc fd ret) (v.syscallClose proc fd ret) := by
  unfold syscallClose
  split
  · exact relates_processCloseCall alike proc fd
  · exact .ok alike

theorem relates_acceptJoin (alike : w.Alike v) (proc : Pid) (sockfd ret : Int) (is : SockId) :
    Relates Alike (w.acceptJoin proc sockfd ret is) (v.acceptJoin proc sockfd ret is) := by
  refine (relates_commJoinOnAccept alike is proc sockfd).bind fun w₁ v₁ joined => ?_
  simp only [joined.getInfosSocket]
  cases w₁.getInfosSocket proc sockfd with
  | none => exact .error_left
  | some s =>
      have registered := alike_registerPort joined (w₁.procs proc).host (w₁.sockets.cell s).portLocal
      simp only [World.socket, joined.procs, joined.sockets, registered.sockets, registered.acceptedIp]
      refine Relates.bind (R := Eq) (by rintro a b left right; exact Except.ok.inj (left.symm.trans right)) ?_
      rintro ip _ rfl
      refine (relates_setLocaladdrPortSocket registered proc ret ip _).bind fun w₂ v₂ addressed => ?_
      simp only [addressed.sockets]
      exact .ok (alike_modifySocket addressed is _)

end World

namespace Translated

variable {H : Type} [DecidableEq H] {w : World H} {t : Translated H} (alike : w.Alike t.world)

include alike

theorem relates_syscallBindPre (proc : Pid) (sockfd : Int) (sai : SockaddrIn) (realPort : UInt16) :
    Relates (fun w' t' => w'.Alike t'.world) ((w.syscallBindPre proc sockfd sai).map (·.1))
      ((t.syscallBindPre proc sockfd sai realPort).map (·.1)) := by
  intro w' t' left right
  obtain ⟨⟨w₁, ret⟩, mediated, rfl⟩ := map_eq_ok.mp left
  obtain ⟨⟨t₁, ret'⟩, translated, rfl⟩ := map_eq_ok.mp right
  obtain ⟨⟨v₁, ret₁⟩, bound, recorded⟩ := bind_eq_ok.mp translated
  obtain ⟨same, -⟩ := World.relates_syscallBindPre alike proc sockfd sai _ _ mediated bound
  by_cases succeeded : ret₁ = some 0
  · simp only [if_pos succeeded] at recorded
    cases pure_eq_ok.mp recorded
    exact World.alike_setRealPort same _ _ _
  · simp only [if_neg succeeded] at recorded
    cases pure_eq_ok.mp recorded
    exact same

theorem alike_sysTranslateAcceptOut {t' : Translated H} {proc : Pid} {sockfd : Int} {sai : SockaddrIn}
    (done : t.sysTranslateAcceptOut proc sockfd sai = .ok t') : w.Alike t'.world := by
  unfold sysTranslateAcceptOut at done
  split at done
  · cases done
  · obtain ⟨peer, -, done⟩ := bind_eq_ok.mp done
    split at done
    · cases done
    · cases pure_eq_ok.mp done
      exact World.alike_setRealPort alike _ _ _

theorem relates_processAcceptOutCall (proc : Pid) (sockfd ret : Int) (sai : SockaddrIn) :
    Relates (fun w' t' => w'.Alike t'.world) (w.processAcceptOutCall proc sockfd ret)
      (t.processAcceptOutCall proc sockfd ret sai) := by
  rw [World.processAcceptOutCall_eq, processAcceptOutCall]
  have domain : t.world.getDomainSocket proc sockfd = w.getDomainSocket proc sockfd :=
    alike.getDomainSocket proc sockfd
  have type : t.world.getTypeSocket proc sockfd = w.getTypeSocket proc sockfd := by
    simp only [World.getTypeSocket, World.socket, alike.getInfosSocket, alike.sockets]
  have protocol : t.world.getProtocolSocket proc sockfd = w.getProtocolSocket proc sockfd := by
    simp only [World.getProtocolSocket, World.socket, alike.getInfosSocket, alike.sockets]
  split
  · simp only [domain, type, protocol, alike.sockets]
    refine (World.relates_registerSocket alike proc ret _ _ _).bind fun w₁ v₁ registered => ?_
    intro w' t' left right
    obtain ⟨t₁, translated, right⟩ := bind_eq_ok.mp right
    obtain ⟨v', joined, rfl⟩ := bind_pure_eq_ok.mp right
    have same := alike_sysTranslateAcceptOut (t := { t with world := v₁ }) registered translated
    exact World.relates_acceptJoin same proc sockfd ret _ _ _ left joined
  · exact .ok alike

/-- Where nobody waits to be accepted, `comm_join_on_accept` fails. -/
theorem accept_negative_of_idle {t' : Translated H} {proc : Pid} {sockfd ret : Int} {sai : SockaddrIn}
    (idle : ∀ is k, w.getInfosSocket proc sockfd = some is → (w.socket is).comm = some k →
      (w.comm k).connWait = [])
    (done : t.processAcceptOutCall proc sockfd ret sai = .ok t') : t' = t := by
  unfold processAcceptOutCall at done
  split at done
  · obtain ⟨v₁, registered, done⟩ := bind_eq_ok.mp done
    obtain ⟨t₁, translated, done⟩ := bind_eq_ok.mp done
    obtain ⟨v₂, joined, done⟩ := bind_eq_ok.mp done
    obtain ⟨v₃, taken, -⟩ := bind_eq_ok.mp joined
    obtain ⟨listener, k, conn, rest, found, attached, queue, -⟩ := World.commJoinOnAccept_ok taken
    obtain ⟨-, rfl⟩ := World.registerSocket_ok registered
    have same := alike_sysTranslateAcceptOut (.refl _) translated
    rw [same.getInfosSocket] at found
    simp only [World.socket, same.sockets] at attached
    obtain ⟨found, attached⟩ := World.attached_of_confirmRegisterSocket found attached
    rw [alike.getInfosSocket] at found
    simp only [World.socket, alike.sockets] at attached
    have kept : t₁.world.comms = w.comms := same.comms.trans alike.comms
    rw [World.comm, kept, idle listener k found attached] at queue
    cases queue
  · cases done
    rfl

theorem relates_syscallAccept (proc : Pid) (sockfd newfd : Int) (sai : SockaddrIn) :
    Relates (fun w' t' => w'.Alike t'.world) ((w.syscallAccept proc sockfd newfd).map (·.1))
      (t.syscallAccept proc sockfd newfd sai) := by
  intro w' t' left right
  obtain ⟨⟨w₁, sai'⟩, mediated, rfl⟩ := map_eq_ok.mp left
  obtain ⟨waiting, asked, accepted⟩ := bind_eq_ok.mp mediated
  obtain ⟨waiting', asked', translated⟩ := bind_eq_ok.mp right
  rw [alike.getInfosSocket, alike.commHasConnectWaiting, asked] at asked'
  cases asked'
  rw [alike.getInfosSocket] at translated
  cases found : w.getInfosSocket proc sockfd with
  | none =>
      rw [found] at asked
      cases asked
  | some is =>
      simp only [found] at accepted translated
      cases waiting with
      | true =>
          obtain ⟨sai₁, -, accepted⟩ := bind_eq_ok.mp accepted
          obtain ⟨w₂, out, ⟨⟩⟩ := bind_pure_eq_ok.mp accepted
          obtain ⟨sai₂, -, out'⟩ := bind_eq_ok.mp translated
          exact relates_processAcceptOutCall alike proc sockfd newfd sai _ _ out out'
      | false =>
          cases pure_eq_ok.mp accepted
          have idle : ∀ is' k, w.getInfosSocket proc sockfd = some is' → (w.socket is').comm = some k →
              (w.comm k).connWait = [] := by
            intro is' k found' attached
            cases found.symm.trans found'
            simpa [found, World.commHasConnectWaiting, attached] using asked
          rw [accept_negative_of_idle alike idle translated]
          exact alike

theorem alike_syscallConnectPost {t' : Translated H} {proc : Pid} {sockfd ret : Int}
    {target realPort : UInt16} (done : t.syscallConnectPost proc sockfd target ret realPort = .ok t') :
    w.Alike t'.world := by
  unfold syscallConnectPost at done
  generalize (if ret = -einprogress then 0 else ret) = ret' at done
  dsimp only at done
  split at done
  · split at done
    · cases done
      exact World.alike_setRealPort alike _ _ _
    · cases done
  · cases done
    exact alike

/-- On a blocking socket the `connect` that waits is left once, and its exit records a real port. -/
theorem relates_syscallConnect {proc : Pid} {sockfd : Int}
    (blocking : w.socketGetFlags proc sockfd &&& oNonblock = 0) (sai : SockaddrIn) (ret : Int)
    (realPort : UInt16) :
    Relates (fun w' t' => w'.Alike t'.world) ((w.processConnectInCall proc sockfd sai).map (·.world))
      (t.syscallConnect proc sockfd sai ret realPort) := by
  intro w' t' left right
  obtain ⟨o, mediated, rfl⟩ := map_eq_ok.mp left
  obtain ⟨o', entered, left'⟩ := bind_eq_ok.mp right
  obtain ⟨same, listener, waits⟩ := World.relates_processConnectInCall alike proc sockfd sai _ _ mediated entered
  cases found : o'.listener with
  | none =>
      simp only [found] at left'
      cases pure_eq_ok.mp left'
      exact same
  | some conn =>
      simp only [found] at left'
      obtain ⟨target, -, left'⟩ := bind_eq_ok.mp left'
      have waiting : o'.waits = true := by
        rw [← waits, World.processConnectInCall_waits mediated, listener, found]
        exact ⟨by simp, blocking⟩
      rw [if_pos waiting] at left'
      exact alike_syscallConnectPost (t := { t with world := o'.world }) same left'

end Translated

namespace World

/-! ## No socket is made non-blocking -/

section

variable {H : Type}

/-- `O_NONBLOCK` is set for no socket; only `fcntl` would set it. -/
def Blocking (w : World H) : Prop := ∀ is, (w.socket is).flags &&& oNonblock = 0

variable {w : World H} (blocking : w.Blocking)

include blocking

namespace Blocking

theorem socketGetFlags (proc : Pid) (fd : Int) : w.socketGetFlags proc fd &&& oNonblock = 0 := by
  unfold World.socketGetFlags
  split
  · exact blocking _
  · rfl

theorem modifySocket {f : InfosSocket H → InfosSocket H} (kept : ∀ s, (f s).flags = s.flags)
    (is : SockId) : (w.modifySocket is f).Blocking := by
  intro s
  simp only [World.modifySocket, World.socket, Heap.cell_modify]
  split
  · rw [kept]
    exact blocking s
  · exact blocking s

theorem addRefNb (is : SockId) (n : Int) : (w.addRefNb is n).Blocking :=
  blocking.modifySocket (by intro; rfl) is

theorem addRefcount (ref : DescRef) (n : Int) : (w.addRefcount ref n).Blocking := by
  cases ref with
  | plain d => exact blocking
  | socket is => exact blocking.modifySocket (by intro; rfl) is

theorem deleteSocket (is : SockId) : (w.deleteSocket is).Blocking := by
  unfold World.deleteSocket
  split
  · exact blocking.addRefNb is (-1)
  · exact blocking

theorem dropInfo (socket : Option SockId) : (w.dropInfo socket).Blocking := by
  cases socket with
  | none => exact blocking
  | some is => exact blocking.addRefNb is (-1)

theorem commDestroy (k : CommId) : (w.commDestroy k).Blocking := by
  have unlisted : ∀ {v : World H}, v.Blocking → ((v.unlistComm k).freeComm k).Blocking := by
    intro v blocking
    unfold unlistComm
    split <;> exact blocking
  have dropped := (blocking.dropInfo (w.comm k).info0.socket).dropInfo
    ((w.dropInfo (w.comm k).info0.socket).comm k).info1.socket
  exact unlisted dropped

theorem commNew (is : SockId) : (w.commNew is).Blocking :=
  blocking.modifySocket (f := fun s => { s with comm := some w.comms.next, refNb := s.refNb + 1 })
    (by intro; rfl) is

theorem confirmRegisterSocket (proc : Pid) (sockfd domain type protocol : Int) :
    (w.confirmRegisterSocket proc sockfd domain type protocol).Blocking := by
  intro s
  have opened : oRdwr &&& oNonblock = 0 := by decide
  rw [socket_confirmRegisterSocket]
  split
  · exact opened
  · exact blocking s

theorem socketSetOption (proc : Pid) (fd : Int) (option : Nat) (value : Int) :
    (w.socketSetOption proc fd option value).Blocking := by
  unfold World.socketSetOption
  split
  · exact blocking
  · exact blocking.modifySocket (by intro; rfl) _

variable [DecidableEq H]

theorem unsetSocket (is : SockId) : (w.unsetSocket is).Blocking := by
  unfold World.unsetSocket
  split
  · exact blocking
  · split
    · exact blocking.addRefNb is (-1)
    · exact blocking

theorem releaseSocket (is : SockId) : (w.releaseSocket is).Blocking := by
  unfold World.releaseSocket
  dsimp only
  split <;> exact (blocking.unsetSocket is).deleteSocket is

theorem commClose {w' : World H} {is : SockId} (done : w.commClose is = .ok w') : w'.Blocking := by
  rcases commClose_ok done with ⟨-, rfl⟩ | ⟨k, -, ⟨s, -, -, rfl⟩ | ⟨s, t, -, -, -, rfl⟩ | ⟨-, -, rfl⟩⟩
  · exact blocking
  · exact (blocking.releaseSocket s).commDestroy k
  · exact ((blocking.releaseSocket s).releaseSocket t).commDestroy k
  · exact blocking

theorem processCloseCall {w' : World H} {proc : Pid} {fd : Int}
    (done : w.processCloseCall proc fd = .ok w') : w'.Blocking := by
  have started : ∀ is, (w.beginClose is).Blocking := fun is =>
    ((blocking.addRefcount (.socket is) 1).addRefcount (.socket is) (-1)).addRefNb is (-1)
  have ended : ∀ {w₁ : World H} (is : SockId), w₁.Blocking → (w₁.endClose proc fd is).Blocking :=
    fun is between => Blocking.addRefcount (w := World.processDescriptorSetFd _ proc fd none) between
      (.socket is) (-1)
  rcases processCloseCall_ok done with ⟨-, rfl⟩ | ⟨d, pipes, -, rfl⟩ |
      ⟨is, w₁, -, rfl, ⟨-, rfl⟩ | ⟨-, closed⟩⟩
  · exact blocking
  · exact blocking
  · exact ended is (started is)
  · exact ended is ((started is).commClose closed)

theorem acceptJoin {w' : World H} {proc : Pid} {sockfd ret : Int} {is : SockId}
    (done : w.acceptJoin proc sockfd ret is = .ok w') : w'.Blocking := by
  obtain ⟨w₁, joined, done⟩ := bind_eq_ok.mp done
  obtain ⟨listener, k, conn, rest, -, -, -, rfl⟩ := commJoinOnAccept_ok joined
  split at done
  · cases done
  · obtain ⟨ip, -, done⟩ := bind_eq_ok.mp done
    obtain ⟨w₂, addressed, done⟩ := bind_eq_ok.mp done
    obtain ⟨new, -, rfl⟩ := setLocaladdrPortSocket_ok addressed
    cases pure_eq_ok.mp done
    have taken : (w.takeConnection is k conn rest).Blocking :=
      blocking.modifySocket (f := fun s => { s with comm := some conn, refNb := s.refNb + 1 })
        (by intro; rfl) is
    exact (taken.modifySocket (by intro; rfl) new).modifySocket (by intro; rfl) is

/-- No call of the full-mediation build sets `O_NONBLOCK`. -/
theorem fullMediation {w' : World H} {call : SocketCall} (done : w.fullMediation call = .ok w') :
    w'.Blocking := by
  cases call with
  | socket proc domain type protocol ret =>
      rcases syscallSocket_ok done with rfl | ⟨-, rfl⟩
      · exact blocking
      · exact blocking.confirmRegisterSocket proc ret domain type protocol
  | bind proc sockfd sai realPort =>
      obtain ⟨⟨w₁, ret⟩, bound, rfl⟩ := map_eq_ok.mp done
      rcases syscallBindPre_ok bound with ⟨rfl, -⟩ | ⟨is, -, -, unused, -, rfl⟩
      · exact blocking
      · rw [w.bindTo_eq is unused]
        have bound := Blocking.addRefNb (w := w.setPortDesc (w.procs proc).host sai.port.toNat
          (some (.bound sai.port.toNat (bindDevice sai.addr) is))) blocking is 1
        exact (bound.modifySocket (by intro; rfl) is).modifySocket (by intro; rfl) is
  | listen proc sockfd =>
      obtain ⟨is, -, rfl⟩ := processListenCall_ok done
      exact blocking.commNew is
  | connect proc sockfd sai ret realPort =>
      obtain ⟨o, asked, rfl⟩ := map_eq_ok.mp done
      rcases processConnectInCall_ok asked with ⟨same, -⟩ | ⟨is, conn, k, ip, port, -, -, -, -, -, -, -, same⟩
      · rw [same]
        exact blocking
      · intro s
        rw [same, flags_connectFrom]
        exact blocking s
  | accept proc sockfd newfd sai =>
      obtain ⟨⟨w₁, reported⟩, accepted, rfl⟩ := map_eq_ok.mp done
      obtain ⟨waiting, -, accepted⟩ := bind_eq_ok.mp accepted
      split at accepted
      · obtain ⟨_, -, accepted⟩ := bind_eq_ok.mp accepted
        obtain ⟨w₂, out, ⟨⟩⟩ := bind_pure_eq_ok.mp accepted
        rw [processAcceptOutCall_eq] at out
        split at out
        · obtain ⟨w₃, registered, joined⟩ := bind_eq_ok.mp out
          obtain ⟨-, rfl⟩ := registerSocket_ok registered
          exact (blocking.confirmRegisterSocket proc newfd _ _ _).acceptJoin joined
        · cases out
          exact blocking
      · cases pure_eq_ok.mp accepted
        exact blocking
  | shutdown proc sockfd =>
      cases done
      exact blocking
  | setsockopt proc sockfd optval =>
      cases done
      exact blocking.socketSetOption proc sockfd _ optval
  | close proc fd ret =>
      simp only [World.fullMediation, World.syscallClose] at done
      split at done
      · exact blocking.processCloseCall done
      · cases done
        exact blocking

end Blocking

end

/-! ## Both builds side by side -/

/-- Clearing or setting the option changes the word exactly when it had the other value. -/
theorem optionAfter_eq_iff (word : Nat) (value : Int) :
    optionAfter word sockOptReuseaddr value = word ↔ (value ≠ 0 ↔ word &&& sockOptReuseaddr ≠ 0) := by
  have set : word ||| 1 = word ↔ word % 2 ≠ 0 := by
    constructor
    · intro same
      have bit : (word ||| 1) % 2 = word % 2 := by rw [same]
      rw [Nat.or_mod_two_eq_one.mpr (.inr rfl)] at bit
      omega
    · intro odd
      apply Nat.eq_of_testBit_eq
      intro i
      rw [Nat.testBit_or]
      cases i with
      | zero =>
          rw [Nat.testBit_zero, decide_eq_true (by omega)]
          rfl
      | succ i => simp [Nat.testBit_succ]
  have cleared : word ^^^ (word % 2) = word ↔ word % 2 = 0 := by
    nth_rewrite 3 [← Nat.xor_zero word]
    exact Nat.xor_right_inj
  by_cases zero : value = 0
  · simp [optionAfter, zero, clearBits, sockOptReuseaddr, cleared, Nat.and_one_is_mod]
  · simp [optionAfter, zero, sockOptReuseaddr, set, Nat.and_one_is_mod]

section

variable {H : Type} {w v : World H}

theorem alike_syscallShutdownPost (alike : w.Alike v) (proc : Pid) (sockfd : Int) :
    (w.syscallShutdownPost proc sockfd).Alike (v.syscallShutdownPost proc sockfd) := by
  unfold syscallShutdownPost commShutdown
  simp only [World.socket, alike.getInfosSocket, alike.sockets]
  cases w.getInfosSocket proc sockfd with
  | none => exact alike
  | some is =>
      dsimp only
      cases (w.sockets.cell is).comm with
      | none => exact alike
      | some k => exact alike_modifyComm alike k _

theorem syscallShutdownPost_of_neutral {proc : Pid} {sockfd : Int}
    (neutral : w.Neutral (.shutdown proc sockfd)) : w.syscallShutdownPost proc sockfd = w := by
  unfold syscallShutdownPost commShutdown
  split
  · rfl
  · rename_i is found
    split
    · rfl
    · rename_i k attached
      have shut : (w.comm k).state = .shut := neutral is found k attached
      have fixed : { w.comm k with state := .shut } = w.comm k := by rw [← shut]
      simp only [modifyComm, Heap.modify]
      rw [fixed, Function.update_eq_self]

theorem socketSetOption_of_neutral {proc : Pid} {sockfd optval : Int}
    (neutral : w.Neutral (.setsockopt proc sockfd optval)) :
    w.socketSetOption proc sockfd sockOptReuseaddr optval = w := by
  unfold socketSetOption
  split
  · rfl
  · rename_i is found
    have same := (optionAfter_eq_iff (w.socket is).option optval).mpr (neutral is found)
    have fixed : { w.socket is with
        option := optionAfter (w.socket is).option sockOptReuseaddr optval } = w.socket is := by rw [same]
    simp only [modifySocket, Heap.modify]
    rw [fixed, Function.update_eq_self]

end

variable {H : Type} [DecidableEq H] {w w' : World H} {t t' : Translated H} {call : SocketCall}

theorem alike_of_neutral (alike : w.Alike t.world) (blocking : w.Blocking) (neutral : w.Neutral call)
    (mediated : w.fullMediation call = .ok w') (translated : t.addressTranslation call = .ok t') :
    w'.Alike t'.world := by
  cases call with
  | socket proc domain type protocol ret =>
      obtain ⟨v', opened, rfl⟩ := map_eq_ok.mp translated
      exact relates_syscallSocket alike proc domain type protocol ret _ _ mediated opened
  | bind proc sockfd sai realPort =>
      exact Translated.relates_syscallBindPre alike proc sockfd sai realPort _ _ mediated translated
  | listen proc sockfd =>
      obtain ⟨v', listening, rfl⟩ := map_eq_ok.mp translated
      exact relates_processListenCall alike proc sockfd _ _ mediated listening
  | connect proc sockfd sai ret realPort =>
      exact Translated.relates_syscallConnect alike (blocking.socketGetFlags proc sockfd) sai ret realPort
        _ _ mediated translated
  | accept proc sockfd newfd sai =>
      exact Translated.relates_syscallAccept alike proc sockfd newfd sai _ _ mediated translated
  | shutdown proc sockfd =>
      cases mediated
      cases translated
      have shut := alike_syscallShutdownPost alike proc sockfd
      rwa [syscallShutdownPost_of_neutral neutral] at shut
  | setsockopt proc sockfd optval =>
      cases mediated
      cases translated
      rwa [socketSetOption_of_neutral neutral]
  | close proc fd ret =>
      obtain ⟨v', closed, rfl⟩ := map_eq_ok.mp translated
      exact relates_syscallClose alike proc fd ret _ _ mediated closed

theorem neutral_of_sameModel (alike : w.Alike t.world) (mediated : w.fullMediation call = .ok w')
    (translated : t.addressTranslation call = .ok t') (same : w'.SameModel t'.world) : w.Neutral call := by
  cases call with
  | shutdown proc sockfd =>
      cases mediated
      cases translated
      intro is found k attached
      have state := same.states k
      rw [← state]
      simp only [syscallShutdownPost, alike.getInfosSocket, Option.mem_def.mp found, commShutdown,
        World.socket, alike.sockets, Option.mem_def.mp attached, modifyComm, World.comm,
        Heap.cell_modify_self]
  | setsockopt proc sockfd optval =>
      cases mediated
      cases translated
      intro is found
      rw [← optionAfter_eq_iff]
      have option := same.options is
      simp only [socketSetOption, Option.mem_def.mp found, World.socket, alike.sockets, modifySocket,
        Heap.cell_modify_self] at option
      exact option.symm
  | socket | bind | listen | connect | accept | close => exact trivial

end World

/-- The call was completed by both builds, each on its own tables. -/
def Lockstep {H : Type} [DecidableEq H] (s : World H × Translated H) (call : SocketCall)
    (s' : World H × Translated H) : Prop :=
  s.1.fullMediation call = .ok s'.1 ∧ s.2.addressTranslation call = .ok s'.2

/-- Both builds before the first call. -/
def bothBoot {H : Type} (w : World H) : World H × Translated H := (w, { world := w })

namespace Lockstep

variable {H : Type} [DecidableEq H]

theorem functional (s : World H × Translated H) (call : SocketCall) (s₁ s₂ : World H × Translated H)
    (first : Lockstep s call s₁) (second : Lockstep s call s₂) : s₁ = s₂ :=
  Prod.ext (Except.ok.inj (first.1.symm.trans second.1)) (Except.ok.inj (first.2.symm.trans second.2))

/-- Run both builds on some calls, as long as `guard` allows them. -/
def execute (guard : World H × Translated H → SocketCall → Prop) [∀ s call, Decidable (guard s call)]
    (s : World H × Translated H) (calls : List SocketCall) :
    Option (List SocketCall × (World H × Translated H)) :=
  perform (fun s call => do
    let w ← (s.1.fullMediation call).toOption
    let t ← (s.2.addressTranslation call).toOption
    return (call, (w, t))) guard s calls

theorem exists_run (guard : World H × Translated H → SocketCall → Prop) [∀ s call, Decidable (guard s call)]
    (s₀ : World H × Translated H) (calls : List SocketCall)
    {P : List SocketCall → World H × Translated H → Prop} (found : ∃ r ∈ execute guard s₀ calls, P r.1 r.2) :
    ∃ calls s, Run (Guarded guard Lockstep) s₀ calls s ∧ P calls s := by
  refine Run.exists_of_perform ?_ found
  intro s call call' s' done
  obtain ⟨w, mediated, done⟩ := Option.bind_eq_some_iff.mp done
  obtain ⟨t, translated, done⟩ := Option.bind_eq_some_iff.mp done
  cases done
  exact ⟨eq_ok_of_mem_toOption mediated, eq_ok_of_mem_toOption translated⟩

end Lockstep

/-- The builds agree after each of the calls exactly when none of these shuts down a communication that
    was not shut, which only address translation records, or changes the option `SO_REUSEADDR` of a
    socket, which only full mediation records. -/
theorem builds_agree_iff {H : Type} [DecidableEq H] (place : Pid → H) (ip : H → UInt32)
    (listIp : UInt32 → Option H) {calls : List SocketCall} {s : World H × Translated H}
    (run : Run Lockstep (bothBoot (.boot place ip listIp)) calls s) :
    Run (Guarded (fun s call => s.1.Neutral call) Lockstep) (bothBoot (.boot place ip listIp)) calls s ↔
      ∀ calls' s', calls' <+: calls → Run Lockstep (bothBoot (.boot place ip listIp)) calls' s' →
        s'.1.SameModel s'.2.world := by
  apply run.guarded_iff_of_observed (fun s => s.1.Alike s.2.world ∧ s.1.Blocking)
    (fun s => s.1.SameModel s.2.world)
  · exact Lockstep.functional
  · exact ⟨.refl _, fun _ => Nat.zero_and _⟩
  · intro s inv
    exact inv.1.sameModel
  · intro s call s' inv step neutral
    exact ⟨World.alike_of_neutral inv.1 inv.2 neutral step.1 step.2, inv.2.fullMediation step.1⟩
  · intro s call s' inv step same
    exact World.neutral_of_sameModel inv.1 step.1 step.2 same

/-- A client connects and both sides close; in between a socket is shut down that was never
    connected, and an option is cleared that was never set. -/
theorem neutral_calls_agree : ∃ (calls : List SocketCall) (s : World (Fin 3) × Translated (Fin 3)),
    Run Lockstep (bothBoot World.threeHosts) calls s ∧ calls.length = 11 ∧
    s.1.SameModel s.2.world := by
  obtain ⟨calls, s, run, length⟩ := Lockstep.exists_run
    (fun s call => s.1.Neutral call) (bothBoot World.threeHosts)
    [.socket 0 2 1 0 3, .setsockopt 0 3 0, .bind 0 3 ⟨inaddrAny, 80⟩ 40000, .listen 0 3,
      .socket 1 2 1 0 3, .shutdown 1 3, .connect 1 3 ⟨10, 80⟩ 0 50000, .accept 0 3 4 ⟨loopback, 50000⟩,
      .close 1 3 0, .close 0 4 0, .close 0 3 0]
    (P := fun calls _ => calls.length = 11) (by decide +kernel)
  have run' := run.mono fun _ _ _ step => step.2
  exact ⟨calls, s, run', length, (builds_agree_iff _ _ _ run').mp run _ _ (List.prefix_refl _) run'⟩

/-- A client shuts its connection down: the flag `SOCKET_SHUT` is set in one of the builds only. -/
theorem shutdown_separates_builds : ∃ (calls : List SocketCall) (s : World (Fin 3) × Translated (Fin 3)),
    Run Lockstep (bothBoot World.threeHosts) calls s ∧ s.1.getInfosSocket 1 3 = some 1 ∧
    s.1.commGetSocketState 1 = socketWrNblk ∧
    s.2.world.commGetSocketState 1 = socketWrNblk ||| socketShut ∧ ¬ s.1.SameModel s.2.world := by
  obtain ⟨calls, s, run, found, mediated, translated⟩ := Lockstep.exists_run
    (fun _ _ => True) (bothBoot World.threeHosts)
    [.socket 0 2 1 0 3, .bind 0 3 ⟨inaddrAny, 80⟩ 40000, .listen 0 3, .socket 1 2 1 0 3,
      .connect 1 3 ⟨10, 80⟩ 0 50000, .accept 0 3 4 ⟨loopback, 50000⟩, .shutdown 1 3]
    (P := fun _ s => s.1.getInfosSocket 1 3 = some 1 ∧ s.1.commGetSocketState 1 = socketWrNblk ∧
      s.2.world.commGetSocketState 1 = socketWrNblk ||| socketShut) (by decide +kernel)
  refine ⟨calls, s, run.mono fun _ _ _ step => step.2, found, mediated, translated, fun same => ?_⟩
  have flags := same.flags 1
  rw [mediated, translated] at flags
  exact absurd flags (by decide)

end Simterpose

import Simterpose.Ports

/-! # Socket descriptors

The descriptor tables of the processes (`process_descriptor.h`) and the registry of
sockets (`sockets.c`), as far as neither needs the communications.
-/

namespace Simterpose

open Lib

/-- `O_RDWR` and `O_NONBLOCK` on x86-64. -/
def oRdwr : Nat := 0x2
def oNonblock : Nat := 0x800

section

variable {H : Type}

/-- Store a descriptor, or remove it. -/
def ProcessDescriptor.put (proc : ProcessDescriptor H) (fd : Int) (fileDesc : Option DescRef) :
    ProcessDescriptor H :=
  match fileDesc with
  | some ref => { proc with fdMap := proc.fdMap.insert fd ref }
  | none => { proc with fdMap := proc.fdMap.erase fd }

@[simp] theorem ProcessDescriptor.host_put (proc : ProcessDescriptor H) (fd : Int)
    (fileDesc : Option DescRef) : (proc.put fd fileDesc).host = proc.host := by
  cases fileDesc <;> rfl

end

namespace World

variable {H : Type} (w : World H)

/-- `process_descriptor_get_fd` -/
def processDescriptorGetFd (proc : Pid) (fd : Int) : Option DescRef := (w.procs proc).fdMap.lookup fd

/-- `process_descriptor_set_fd`; a NULL descriptor removes the entry. -/
def processDescriptorSetFd (proc : Pid) (fd : Int) (fileDesc : Option DescRef) : World H :=
  { w with procs := Function.update w.procs proc ((w.procs proc).put fd fileDesc) }

theorem getFd_setFd (proc proc' : Pid) (fd fd' : Int) (ref : Option DescRef) :
    (w.processDescriptorSetFd proc fd ref).processDescriptorGetFd proc' fd' =
      if proc' = proc ∧ fd' = fd then ref else w.processDescriptorGetFd proc' fd' := by
  by_cases sameProc : proc' = proc
  · subst sameProc
    by_cases sameFd : fd' = fd
    · subst sameFd
      cases ref <;> simp [processDescriptorSetFd, processDescriptorGetFd, ProcessDescriptor.put]
    · cases ref <;> simp [processDescriptorSetFd, processDescriptorGetFd, ProcessDescriptor.put,
        sameFd, AList.lookup_insert_ne, AList.lookup_erase_ne]
  · simp [processDescriptorSetFd, processDescriptorGetFd, sameProc]

@[simp] theorem host_setFd (proc proc' : Pid) (fd : Int) (ref : Option DescRef) :
    ((w.processDescriptorSetFd proc fd ref).procs proc').host = (w.procs proc').host := by
  by_cases same : proc' = proc
  · subst same; simp [processDescriptorSetFd]
  · simp [processDescriptorSetFd, same]

/-- `get_infos_socket`. None of the socket calls copies a socket descriptor into a plain
    one, so that they meet no plain descriptor with the tag `FD_SOCKET`. -/
def getInfosSocket (proc : Pid) (fd : Int) : Option SockId :=
  match w.processDescriptorGetFd proc fd with
  | some (.socket is) => if (w.socket is).fd.type = .socket then some is else none
  | _ => none

theorem getInfosSocket_eq_some {proc : Pid} {fd : Int} {is : SockId} :
    w.getInfosSocket proc fd = some is ↔ w.processDescriptorGetFd proc fd = some (.socket is) := by
  unfold getInfosSocket
  split
  · simp [(w.socket _).tagged, *]
  · rename_i other
    constructor
    · simp
    · intro found
      exact absurd found (other is)

/-- `get_domain_socket` -/
def getDomainSocket (proc : Pid) (fd : Int) : Int :=
  match w.getInfosSocket proc fd with
  | some is => (w.socket is).domain
  | none => -1

/-- `get_protocol_socket` -/
def getProtocolSocket (proc : Pid) (fd : Int) : Int :=
  match w.getInfosSocket proc fd with
  | some is => (w.socket is).protocol
  | none => -1

/-- `get_type_socket` -/
def getTypeSocket (proc : Pid) (fd : Int) : Int :=
  match w.getInfosSocket proc fd with
  | some is => (w.socket is).type
  | none => -1

/-- `socket_registered` -/
def socketRegistered (proc : Pid) (fd : Int) : Int :=
  match w.getInfosSocket proc fd with
  | some _ => 1
  | none => -1

/-- `socket_netlink` -/
def socketNetlink (proc : Pid) (fd : Int) : Bool :=
  match w.getInfosSocket proc fd with
  | some is => (w.socket is).domain = 16
  | none => false

/-- The test of `socket_network` on the socket itself. -/
def InetLike (s : InfosSocket H) : Prop := s.domain ≠ 16 ∧ s.domain ≠ 0 ∧ s.domain ≠ 1

instance (s : InfosSocket H) : Decidable (InetLike s) := inferInstanceAs (Decidable (_ ∧ _ ∧ _))

/-- `socket_network` -/
def socketNetwork (proc : Pid) (fd : Int) : Bool :=
  match w.getInfosSocket proc fd with
  | some is => InetLike (w.socket is)
  | none => false

/-- `socket_get_flags` -/
def socketGetFlags (proc : Pid) (fd : Int) : Nat :=
  match w.getInfosSocket proc fd with
  | some is => (w.socket is).flags
  | none => 0

/-- The record `confirm_register_socket` fills in. -/
def newSocket (proc : Pid) (sockfd : Int) (domain type protocol : Int) : InfosSocket H :=
  { fd := { type := .socket, proc := proc, fd := sockfd }
    comm := none
    host := (w.procs proc).host
    domain := domain
    protocol := protocol
    ipLocal := 0xffffffff
    portLocal := 0
    flags := oRdwr
    type := type
    option := 0
    binded := false
    refNb := 1
    tagged := rfl }

/-- `confirm_register_socket`; the socket made is `w.sockets.next`. -/
def confirmRegisterSocket (proc : Pid) (sockfd domain type protocol : Int) : World H :=
  { w.processDescriptorSetFd proc sockfd (some (.socket w.sockets.next)) with
    sockets := w.sockets.alloc (w.newSocket proc sockfd domain type protocol)
    allSockets := w.allSockets ++ [w.sockets.next] }

/-- `register_socket` -/
def registerSocket (proc : Pid) (sockfd domain type protocol : Int) : Result (World H) :=
  if (w.processDescriptorGetFd proc sockfd).isSome then
    .error (.xbtDie "Inconsistency found in model. Socket already exist")
  else .ok (w.confirmRegisterSocket proc sockfd domain type protocol)

/-- `delete_socket`; a socket that is not listed is only reported. -/
def deleteSocket (is : SockId) : World H :=
  if is ∈ w.allSockets then { w.addRefNb is (-1) with allSockets := w.allSockets.erase is } else w

/-- `free(is)` -/
def freeSocket (is : SockId) : World H := { w with sockets := w.sockets.free is }

/-- Store the local address and port of a socket. -/
def setAddress (is : SockId) (ip : UInt32) (port : Nat) : World H :=
  w.modifySocket is fun s => { s with ipLocal := ip, portLocal := port }

/-- `set_localaddr_port_socket`; the address goes through `inet_ntoa` and `inet_addr`
    and comes back unchanged. -/
def setLocaladdrPortSocket (proc : Pid) (fd : Int) (ip : UInt32) (port : Nat) : Result (World H) :=
  match w.getInfosSocket proc fd with
  | none => .error .segfault
  | some is => .ok (w.setAddress is ip port)

end World

end Simterpose

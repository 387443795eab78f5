import Simterpose.State

/-! # The port tables of the hosts

The part of `data_utils.c` that says which ports of a host are in use, by how many
sockets, and which socket is bound there. The dictionary is keyed by the decimal
text of the port in the source, hence by the port here.
-/

namespace Simterpose

open Lib

/-- `PORT_BIND`, `PORT_LOCAL` and `PORT_REMOTE` -/
def portBind : Nat := 0x1
def portLocalDevice : Nat := 0x2
def portRemoteDevice : Nat := 0x4

/-- What `register_port` makes of the entry of a port. -/
def PortDesc.register (port : Nat) : Option PortDesc → PortDesc
  | some temp => { temp with amountSocket := temp.amountSocket + 1 }
  | none => { portNum := port, realPort := 0, option := 0, amountSocket := 1, bindSocket := none }

theorem PortDesc.bindSocket_register {port : Nat} {entry : Option PortDesc} {is : SockId} :
    (PortDesc.register port entry).bindSocket = some is ↔
      ∃ desc, entry = some desc ∧ desc.bindSocket = some is := by
  cases entry <;> simp [PortDesc.register]

/-- The entry of a free port once a socket has bound it. -/
def PortDesc.bound (port device : Nat) (is : SockId) : PortDesc :=
  { portNum := port, realPort := 0, option := portBind ||| device, amountSocket := 1
    bindSocket := some is }

/-- What `unset_socket` makes of the entry: the last socket to use the port removes it. -/
def PortDesc.unset (desc : PortDesc) (is : SockId) : Option PortDesc :=
  let bindSocket := if desc.bindSocket = some is then none else desc.bindSocket
  let amountSocket := desc.amountSocket - 1
  if amountSocket ≠ 0 then some { desc with amountSocket, bindSocket } else none

theorem PortDesc.bindSocket_unset {desc desc' : PortDesc} {is j : SockId}
    (left : desc.unset is = some desc') (bound : desc'.bindSocket = some j) :
    desc.bindSocket = some j ∧ j ≠ is := by
  simp only [PortDesc.unset] at left
  split at left
  · cases left
    dsimp only at bound
    split at bound
    · cases bound
    · rename_i other
      exact ⟨bound, fun same => other (same ▸ bound)⟩
  · cases left

theorem PortDesc.bindSocket_unset_of_ne {desc desc' : PortDesc} {is j : SockId}
    (left : desc.unset is = some desc') (bound : desc.bindSocket = some j) (other : j ≠ is) :
    desc'.bindSocket = some j := by
  simp only [PortDesc.unset] at left
  split at left
  · cases left
    simp [bound, other]
  · cases left

/-- Store the entry of a port, or remove it. -/
def SimterposeHost.put (host : SimterposeHost) (port : Nat) (desc : Option PortDesc) :
    SimterposeHost :=
  match desc with
  | some d => { host with port := host.port.insert port d }
  | none => { host with port := host.port.erase port }

namespace World

section

variable {H : Type} (w : World H)

/-- The entry of a port in the dictionary of its host. -/
def portDesc (host : H) (port : Nat) : Option PortDesc := (w.hosts host).port.lookup port

/-- `is_port_in_use` -/
def isPortInUse (host : H) (port : Nat) : Bool := (w.portDesc host port).isSome

/-- `get_binding_socket_host` -/
def getBindingSocketHost (host : H) (port device : Nat) : Option SockId :=
  match w.portDesc host port with
  | none => none
  | some desc =>
      if desc.option &&& portBind = 0 then none
      else if device &&& desc.option = 0 then none
      else desc.bindSocket

theorem bound_of_found {w : World H} {host : H} {port device : Nat} {is : SockId}
    (found : w.getBindingSocketHost host port device = some is) :
    ∃ desc, w.portDesc host port = some desc ∧ desc.bindSocket = some is := by
  unfold getBindingSocketHost at found
  split at found
  · cases found
  · rename_i desc entry
    split at found
    · cases found
    · split at found
      · cases found
      · exact ⟨desc, entry, found⟩

/-- The ports from `port` downwards, the first one without an entry. -/
def randomPortFrom (host : H) : Nat → Option Nat
  | 0 => if w.isPortInUse host 0 then none else some 0
  | port + 1 => if w.isPortInUse host (port + 1) then randomPortFrom host port else some (port + 1)

/-- `get_random_port`: the search starts at the largest `unsigned short`. Below 0 the
    counter wraps around, so with all ports in use the loop never ends. -/
def getRandomPort (host : H) : Option Nat := w.randomPortFrom host 65535

theorem randomPortFrom_unused {host : H} {start port : Nat}
    (found : w.randomPortFrom host start = some port) : w.portDesc host port = none := by
  induction start with
  | zero =>
      simp only [randomPortFrom] at found
      split at found <;> simp_all [isPortInUse]
  | succ n ih =>
      simp only [randomPortFrom] at found
      split at found
      · exact ih found
      · rename_i free
        obtain rfl := Option.some.inj found
        simpa [isPortInUse] using free

theorem randomPortFrom_le {host : H} {start port : Nat}
    (found : w.randomPortFrom host start = some port) : port ≤ start := by
  induction start with
  | zero =>
      simp only [randomPortFrom] at found
      split at found <;> simp_all
  | succ n ih =>
      simp only [randomPortFrom] at found
      split at found
      · exact Nat.le_succ_of_le (ih found)
      · exact Nat.le_of_eq (Option.some.inj found).symm

/-- The search looks at nothing but which ports are in use. -/
theorem getRandomPort_of_used {w' : World H} {host : H}
    (same : w'.isPortInUse host = w.isPortInUse host) : w'.getRandomPort host = w.getRandomPort host := by
  have from_ : ∀ start, w'.randomPortFrom host start = w.randomPortFrom host start := by
    intro start
    induction start with
    | zero => simp only [randomPortFrom, same]
    | succ n ih => simp only [randomPortFrom, same, ih]
  exact from_ 65535

theorem getRandomPort_congr {w' : World H} (same : w'.hosts = w.hosts) (host : H) :
    w'.getRandomPort host = w.getRandomPort host := by
  apply w.getRandomPort_of_used
  funext port
  simp only [isPortInUse, portDesc, same]

theorem getRandomPort_unused {host : H} {port : Nat} (found : w.getRandomPort host = some port) :
    w.portDesc host port = none :=
  w.randomPortFrom_unused found

end

variable {H : Type} [DecidableEq H] (w : World H)

def setPortDesc (host : H) (port : Nat) (desc : Option PortDesc) : World H :=
  { w with hosts := Function.update w.hosts host ((w.hosts host).put port desc) }

theorem portDesc_setPortDesc (host host' : H) (port port' : Nat) (desc : Option PortDesc) :
    (w.setPortDesc host port desc).portDesc host' port' =
      if host' = host ∧ port' = port then desc else w.portDesc host' port' := by
  by_cases sameHost : host' = host
  · subst sameHost
    by_cases samePort : port' = port
    · subst samePort
      cases desc <;> simp [setPortDesc, portDesc, SimterposeHost.put]
    · cases desc <;> simp [setPortDesc, portDesc, SimterposeHost.put, samePort,
        AList.lookup_insert_ne, AList.lookup_erase_ne]
  · simp [setPortDesc, portDesc, sameHost]

theorem setPortDesc_setPortDesc (host : H) (port : Nat) (first second : PortDesc) :
    (w.setPortDesc host port (some first)).setPortDesc host port (some second) =
      w.setPortDesc host port (some second) := by
  simp [setPortDesc, SimterposeHost.put, AList.insert_insert]

/-- `register_port` -/
def registerPort (host : H) (port : Nat) : World H :=
  w.setPortDesc host port (some (PortDesc.register port (w.portDesc host port)))

/-- `set_port_on_binding` -/
def setPortOnBinding (host : H) (port : Nat) (is : SockId) (device : Nat) : World H :=
  match w.portDesc host port with
  | none => w
  | some desc =>
      (w.setPortDesc host port (some
        { desc with option := desc.option ||| portBind ||| device, bindSocket := some is })).addRefNb is 1

/-- `unset_socket` -/
def unsetSocket (is : SockId) : World H :=
  match w.portDesc (w.socket is).host (w.socket is).portLocal with
  | none => w
  | some desc =>
      (if desc.bindSocket = some is then w.addRefNb is (-1) else w).setPortDesc
        (w.socket is).host (w.socket is).portLocal (desc.unset is)

end World

end Simterpose

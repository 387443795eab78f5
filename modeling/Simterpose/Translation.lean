import Simterpose.Ptrace
import Simterpose.Hosts
import Simterpose.Connecting

/-! # The translation of addresses

In the address-translation build the kernel runs the calls, with real ports of the loopback
device in place of the simulated addresses. `bind` records the real port of a simulated one in the
port table of the host, and the way back in a dictionary that all hosts share.
-/

namespace Simterpose

open Lib

/-! ## `struct sockaddr_in` -/

/-- `sizeof(struct sockaddr_in)` -/
def sizeofSockaddrIn : Nat := 16

namespace SockaddrIn

/-- The two fields of a `struct sockaddr_in`: the port lies in network order behind the family, the
    address behind the port. -/
def ofBytes (bytes : List UInt8) : SockaddrIn where
  addr := UInt32.ofNat (littleEndian ((bytes.drop 4).take 4))
  port := UInt16.ofNat (littleEndian ((bytes.drop 2).take 2).reverse)

/-- The bytes after both fields are assigned to. -/
def toBytes (sai : SockaddrIn) (bytes : List UInt8) : List UInt8 :=
  bytes.take 2 ++ ((toLittleEndian 2 sai.port.toNat).reverse ++
    (toLittleEndian 4 sai.addr.toNat ++ bytes.drop 8))

variable {bytes : List UInt8}

theorem length_toBytes (sai : SockaddrIn) (long : 8 ≤ bytes.length) :
    (sai.toBytes bytes).length = bytes.length := by
  simp only [toBytes, List.length_append, List.length_take, List.length_reverse, length_toLittleEndian,
    List.length_drop]
  omega

/-- A list of eight bytes or more, cut where the fields are. -/
theorem exists_fields (long : 8 ≤ bytes.length) :
    ∃ family port addr rest : List UInt8, bytes = family ++ (port ++ (addr ++ rest)) ∧
      family.length = 2 ∧ port.length = 2 ∧ addr.length = 4 := by
  refine ⟨bytes.take 2, (bytes.drop 2).take 2, (bytes.drop 4).take 4, bytes.drop 8, ?_, ?_, ?_, ?_⟩
  · rw [show bytes.drop 8 = (bytes.drop 4).drop 4 by rw [List.drop_drop], List.take_append_drop,
      show bytes.drop 4 = (bytes.drop 2).drop 2 by rw [List.drop_drop], List.take_append_drop,
      List.take_append_drop]
  all_goals
    simp only [List.length_take, List.length_drop]
    omega

section

variable {family port addr rest : List UInt8}

theorem ofBytes_fields (first : family.length = 2) (second : port.length = 2) (third : addr.length = 4) :
    ofBytes (family ++ (port ++ (addr ++ rest))) =
      ⟨UInt32.ofNat (littleEndian addr), UInt16.ofNat (littleEndian port.reverse)⟩ := by
  have port' : (family ++ (port ++ (addr ++ rest))).drop 2 = port ++ (addr ++ rest) := by
    rw [← first, List.drop_left]
  have addr' : (family ++ (port ++ (addr ++ rest))).drop 4 = addr ++ rest := by
    rw [show 4 = 2 + 2 by rfl, ← List.drop_drop, port', ← second, List.drop_left]
  rw [ofBytes, port', addr', ← second, List.take_left, ← third, List.take_left]

theorem toBytes_fields (sai : SockaddrIn) (first : family.length = 2) (second : port.length = 2)
    (third : addr.length = 4) :
    sai.toBytes (family ++ (port ++ (addr ++ rest))) =
      family ++ ((toLittleEndian 2 sai.port.toNat).reverse ++ (toLittleEndian 4 sai.addr.toNat ++ rest)) := by
  have before : (family ++ (port ++ (addr ++ rest))).take 2 = family := by rw [← first, List.take_left]
  have behind : (family ++ (port ++ (addr ++ rest))).drop 8 = rest := by
    have cut : family ++ (port ++ (addr ++ rest)) = (family ++ port ++ addr) ++ rest := by
      simp only [List.append_assoc]
    have length : (family ++ port ++ addr).length = 8 := by
      simp only [List.length_append, first, second, third]
    rw [cut, ← length, List.drop_left]
  rw [toBytes, before, behind]

end

theorem ofBytes_toBytes (sai : SockaddrIn) (long : 8 ≤ bytes.length) :
    ofBytes (sai.toBytes bytes) = sai := by
  obtain ⟨family, port, addr, rest, rfl, first, second, third⟩ := exists_fields long
  rw [toBytes_fields sai first second third, ofBytes_fields first (by simp) (by simp), List.reverse_reverse,
    littleEndian_toLittleEndian, littleEndian_toLittleEndian]
  have small := sai.port.toNat_lt
  have small' := sai.addr.toNat_lt
  rw [Nat.mod_eq_of_lt (by simpa using small'), Nat.mod_eq_of_lt (by simpa using small),
    UInt16.ofNat_toNat, UInt32.ofNat_toNat]

/-- The last assignment counts. -/
theorem toBytes_toBytes (sai sai' : SockaddrIn) (long : 8 ≤ bytes.length) :
    sai.toBytes (sai'.toBytes bytes) = sai.toBytes bytes := by
  obtain ⟨family, port, addr, rest, rfl, first, second, third⟩ := exists_fields long
  rw [toBytes_fields sai' first second third, toBytes_fields sai first (by simp) (by simp),
    toBytes_fields sai first second third]

theorem toBytes_ofBytes (long : 8 ≤ bytes.length) : (ofBytes bytes).toBytes bytes = bytes := by
  obtain ⟨family, port, addr, rest, rfl, first, second, third⟩ := exists_fields long
  rw [ofBytes_fields first second third, toBytes_fields _ first second third]
  have small := littleEndian_lt port.reverse
  have small' := littleEndian_lt addr
  rw [List.length_reverse, second] at small
  rw [third] at small'
  rw [UInt16.toNat_ofNat_of_lt' small, UInt32.toNat_ofNat_of_lt' small']
  have back := toLittleEndian_littleEndian port.reverse
  have back' := toLittleEndian_littleEndian addr
  rw [List.length_reverse, second] at back
  rw [third] at back'
  rw [back, back', List.reverse_reverse]

theorem toBytes_eq_self_iff (sai : SockaddrIn) (long : 8 ≤ bytes.length) :
    sai.toBytes bytes = bytes ↔ sai = ofBytes bytes := by
  constructor
  · intro same
    rw [← same, ofBytes_toBytes sai long]
  · rintro rfl
    exact toBytes_ofBytes long

end SockaddrIn

/-! ## Real ports -/

/-- `translate_desc_t` -/
structure TranslateDesc where
  portNum : Nat
  ip : UInt32
  deriving DecidableEq

namespace World

variable {H : Type} (w : World H)

/-- Where a `connect` to an address looks for a port. -/
def connectHost (proc : Pid) (addr : UInt32) : Option H :=
  if addr = loopback then some (w.procs proc).host else w.listIp addr

/-- `get_real_port` -/
def getRealPort (proc : Pid) (ip : UInt32) (port : Nat) : Result Int :=
  match w.connectHost proc ip with
  | none => .error .segfault
  | some host =>
      match w.portDesc host port with
      | none => .ok (-1)
      | some desc => .ok desc.realPort

/-- `sys_translate_connect_in`, on the memory of the tracee. -/
def sysTranslateConnectIn (proc : Pid) (mem : Memory) (arg1 : Nat) : Result Memory := do
  let sai := SockaddrIn.ofBytes (ptraceCpy mem arg1 sizeofSockaddrIn)
  let realPort ← w.getRealPort proc sai.addr sai.port.toNat
  ptracePoke mem arg1 (SockaddrIn.toBytes ⟨loopback, UInt16.ofInt realPort⟩
    (ptraceCpy mem arg1 sizeofSockaddrIn)) sizeofSockaddrIn

variable [DecidableEq H]

/-- `set_real_port` -/
def setRealPort (host : H) (port realPort : Nat) : World H :=
  match w.portDesc host port with
  | none => w
  | some desc => w.setPortDesc host port (some { desc with realPort := realPort })

theorem portDesc_setRealPort {host : H} {port : Nat} {desc : PortDesc}
    (entry : w.portDesc host port = some desc) (realPort : Nat) :
    (w.setRealPort host port realPort).portDesc host port = some { desc with realPort := realPort } := by
  simp [setRealPort, entry, portDesc_setPortDesc]

theorem procs_setRealPort (host : H) (port realPort : Nat) :
    (w.setRealPort host port realPort).procs = w.procs := by
  unfold setRealPort
  split <;> rfl

theorem ip_setPortDesc (host host' : H) (port : Nat) (desc : Option PortDesc) :
    ((w.setPortDesc host port desc).hosts host').ip = (w.hosts host').ip := by
  unfold setPortDesc SimterposeHost.put
  by_cases same : host' = host
  · subst same
    cases desc <;> simp
  · simp [same]

/-- The hosts have the addresses they had. -/
structure SameAddresses (w w' : World H) : Prop where
  listIp : w'.listIp = w.listIp
  ip : ∀ host, (w'.hosts host).ip = (w.hosts host).ip

theorem sameAddresses_bindTo {host : H} {sai : SockaddrIn} (is : SockId)
    (unused : w.portDesc host sai.port.toNat = none) : w.SameAddresses (w.bindTo host sai is) := by
  rw [w.bindTo_eq is unused]
  exact ⟨rfl, fun host' => w.ip_setPortDesc host host' sai.port.toNat _⟩

theorem sameAddresses_setRealPort (host : H) (port realPort : Nat) :
    w.SameAddresses (w.setRealPort host port realPort) := by
  unfold setRealPort
  split
  · exact ⟨rfl, fun _ => rfl⟩
  · exact ⟨rfl, fun host' => w.ip_setPortDesc host host' port _⟩

end World

/-- The tables of the address-translation build: those of the simulation and `list_translate`. -/
structure Translated (H : Type) where
  world : World H
  listTranslate : Nat → Option TranslateDesc := fun _ => none

namespace Translated

variable {H : Type}

/-- `add_new_translation` -/
def addNewTranslation (t : Translated H) (realPort translatedPort : Nat) (translatedIp : UInt32) :
    Translated H :=
  { t with listTranslate := Function.update t.listTranslate realPort (some ⟨translatedPort, translatedIp⟩) }

/-- `sys_translate_connect_out` -/
def sysTranslateConnectOut (t : Translated H) (mem : Memory) (arg1 : Nat) : Result Memory :=
  let sai := SockaddrIn.ofBytes (ptraceCpy mem arg1 sizeofSockaddrIn)
  match t.listTranslate sai.port.toNat with
  | none => .error .segfault
  | some td =>
      ptracePoke mem arg1 (SockaddrIn.toBytes ⟨td.ip, UInt16.ofNat td.portNum⟩
        (ptraceCpy mem arg1 sizeofSockaddrIn)) sizeofSockaddrIn

/-- The way in and the way back leave the structure in the tracee as it was. -/
def RoundTrip (t : Translated H) (proc : Pid) (mem : Memory) (arg1 : Nat) : Prop :=
  ∃ mem₁ mem₂, t.world.sysTranslateConnectIn proc mem arg1 = .ok mem₁ ∧
    t.sysTranslateConnectOut mem₁ arg1 = .ok mem₂ ∧
    mem₂.read arg1 sizeofSockaddrIn = mem.read arg1 sizeofSockaddrIn

/-- The real port of a port of a host is recorded in both tables. -/
def Recorded (t : Translated H) (host : H) (port : Nat) : Prop :=
  ∃ (desc : PortDesc) (realPort : UInt16), t.world.portDesc host port = some desc ∧
    desc.realPort = realPort.toNat ∧
    t.listTranslate realPort.toNat = some ⟨port, (t.world.hosts host).ip⟩

/-- A `connect` finds a socket whose port is recorded. -/
def FindsListener (t : Translated H) (proc : Pid) (sai : SockaddrIn) : Prop :=
  (∃ conn, t.world.connectTarget proc sai = some conn) ∧
    ∃ host, t.world.connectHost proc sai.addr = some host ∧ t.Recorded host sai.port.toNat

section

variable {t : Translated H} {proc : Pid} {mem : Memory} {arg1 : Nat}

theorem ptraceCpy_sockaddr (mem : Memory) (arg1 : Nat) :
    ptraceCpy mem arg1 sizeofSockaddrIn = mem.read arg1 sizeofSockaddrIn := ptraceCpy_eq ..

theorem long_sockaddr (mem : Memory) (arg1 : Nat) : 8 ≤ (mem.read arg1 sizeofSockaddrIn).length := by
  rw [Memory.length_read]
  decide

theorem length_toBytes_sockaddr (mem : Memory) (arg1 : Nat) (sai : SockaddrIn) :
    (sai.toBytes (mem.read arg1 sizeofSockaddrIn)).length = sizeofSockaddrIn := by
  rw [sai.length_toBytes (long_sockaddr mem arg1), Memory.length_read]

theorem ptracePoke_sockaddr (mem : Memory) (arg1 : Nat) (sai : SockaddrIn) :
    ptracePoke mem arg1 (sai.toBytes (mem.read arg1 sizeofSockaddrIn)) sizeofSockaddrIn =
      .ok (mem.write arg1 (sai.toBytes (mem.read arg1 sizeofSockaddrIn))) :=
  ptracePoke_of_length rfl (length_toBytes_sockaddr mem arg1 sai)

theorem read_write_sockaddr (mem : Memory) (arg1 : Nat) (sai : SockaddrIn) :
    (mem.write arg1 (sai.toBytes (mem.read arg1 sizeofSockaddrIn))).read arg1 sizeofSockaddrIn =
      sai.toBytes (mem.read arg1 sizeofSockaddrIn) := by
  have length := length_toBytes_sockaddr mem arg1 sai
  rw [Memory.read_write _ _ _ (Nat.le_of_eq length.symm), List.take_of_length_le (Nat.le_of_eq length)]

theorem sysTranslateConnectOut_of_known {td : TranslateDesc}
    (known : t.listTranslate (SockaddrIn.ofBytes (mem.read arg1 sizeofSockaddrIn)).port.toNat = some td) :
    t.sysTranslateConnectOut mem arg1 = .ok (mem.write arg1
      (SockaddrIn.toBytes ⟨td.ip, UInt16.ofNat td.portNum⟩ (mem.read arg1 sizeofSockaddrIn))) := by
  simp only [sysTranslateConnectOut, ptraceCpy_sockaddr, known, ptracePoke_sockaddr]

/-- The way back leads to what the dictionary has for the real port. -/
theorem roundTrip_iff {realPort : Int}
    (real : t.world.getRealPort proc (SockaddrIn.ofBytes (mem.read arg1 sizeofSockaddrIn)).addr
      (SockaddrIn.ofBytes (mem.read arg1 sizeofSockaddrIn)).port.toNat = .ok realPort) :
    t.RoundTrip proc mem arg1 ↔ ∃ td, t.listTranslate (UInt16.ofInt realPort).toNat = some td ∧
      (⟨td.ip, UInt16.ofNat td.portNum⟩ : SockaddrIn) =
        SockaddrIn.ofBytes (mem.read arg1 sizeofSockaddrIn) := by
  have long := long_sockaddr mem arg1
  have inwards : t.world.sysTranslateConnectIn proc mem arg1 = .ok (mem.write arg1
      (SockaddrIn.toBytes ⟨loopback, UInt16.ofInt realPort⟩ (mem.read arg1 sizeofSockaddrIn))) := by
    simp only [World.sysTranslateConnectIn, ptraceCpy_sockaddr, real, bind, Except.bind,
      ptracePoke_sockaddr]
  have held := read_write_sockaddr mem arg1 ⟨loopback, UInt16.ofInt realPort⟩
  generalize mem.write arg1 _ = mem₁ at inwards held
  have port : (SockaddrIn.ofBytes (mem₁.read arg1 sizeofSockaddrIn)).port = UInt16.ofInt realPort := by
    rw [held, SockaddrIn.ofBytes_toBytes _ long]
  have back : ∀ {td}, t.listTranslate (UInt16.ofInt realPort).toNat = some td →
      ∃ mem₂, t.sysTranslateConnectOut mem₁ arg1 = .ok mem₂ ∧ mem₂.read arg1 sizeofSockaddrIn =
        SockaddrIn.toBytes ⟨td.ip, UInt16.ofNat td.portNum⟩ (mem.read arg1 sizeofSockaddrIn) := by
    intro td known
    refine ⟨_, sysTranslateConnectOut_of_known (port ▸ known), ?_⟩
    rw [read_write_sockaddr, held, SockaddrIn.toBytes_toBytes _ _ long]
  constructor
  · rintro ⟨_, mem₂, entered, left, same⟩
    cases Except.ok.inj (inwards.symm.trans entered)
    cases known : t.listTranslate (UInt16.ofInt realPort).toNat with
    | none =>
        rw [sysTranslateConnectOut, ptraceCpy_sockaddr, port, known] at left
        cases left
    | some td =>
        obtain ⟨_, left', stored⟩ := back known
        cases Except.ok.inj (left.symm.trans left')
        exact ⟨td, rfl, (SockaddrIn.toBytes_eq_self_iff _ long).mp (stored.symm.trans same)⟩
  · rintro ⟨td, known, same⟩
    obtain ⟨mem₂, left, stored⟩ := back known
    exact ⟨mem₁, mem₂, inwards, left,
      stored.trans ((SockaddrIn.toBytes_eq_self_iff _ long).mpr same)⟩

/-- Once the port is recorded, the address is that of the host. -/
theorem roundTrip_of_recorded {host : H}
    (there : t.world.connectHost proc (SockaddrIn.ofBytes (mem.read arg1 sizeofSockaddrIn)).addr = some host)
    (recorded : t.Recorded host (SockaddrIn.ofBytes (mem.read arg1 sizeofSockaddrIn)).port.toNat) :
    t.RoundTrip proc mem arg1 ↔
      (t.world.hosts host).ip = (SockaddrIn.ofBytes (mem.read arg1 sizeofSockaddrIn)).addr := by
  obtain ⟨desc, realPort, entry, real, back⟩ := recorded
  generalize sent : SockaddrIn.ofBytes (mem.read arg1 sizeofSockaddrIn) = sai at there entry back ⊢
  have found : t.world.getRealPort proc sai.addr sai.port.toNat = .ok realPort.toNat := by
    simp only [World.getRealPort, there, entry, real]
  have word : (UInt16.ofInt realPort.toNat).toNat = realPort.toNat := by
    have small := realPort.toNat_lt
    rw [UInt16.ofInt, UInt16.toNat_ofNat']
    omega
  rw [roundTrip_iff (sent ▸ found), sent, word, back]
  obtain ⟨addr, port⟩ := sai
  simp only [Option.some.injEq, exists_eq_left', UInt16.ofNat_toNat, SockaddrIn.mk.injEq, and_true]

end

variable [DecidableEq H]

/-- `syscall_bind_pre` with the port that `ptrace_find_free_binding_port` got from the kernel. -/
def syscallBindPre (t : Translated H) (proc : Pid) (sockfd : Int) (sai : SockaddrIn) (port : UInt16) :
    Result (Translated H × Option Int) := do
  let (w, ret) ← t.world.syscallBindPre proc sockfd sai
  if ret = some 0 then
    let host := (w.procs proc).host
    let w := w.setRealPort host sai.port.toNat port.toNat
    return ({ t with world := w }.addNewTranslation port.toNat sai.port.toNat (w.hosts host).ip, ret)
  else return ({ t with world := w }, ret)

/-- A `bind` that succeeds records its real port. -/
theorem recorded_syscallBindPre {t t' : Translated H} {proc : Pid} {sockfd : Int} {sai : SockaddrIn}
    {port : UInt16} (done : t.syscallBindPre proc sockfd sai port = .ok (t', some 0)) :
    t'.Recorded (t'.world.procs proc).host sai.port.toNat := by
  obtain ⟨⟨w, ret⟩, bound, done⟩ := bind_eq_ok.mp done
  by_cases succeeded : ret = some 0
  · simp only [if_pos succeeded] at done
    obtain ⟨same, -⟩ := Prod.mk.inj (pure_eq_ok.mp done)
    subst succeeded
    rcases World.syscallBindPre_ok bound with ⟨-, failed⟩ | ⟨is, -, -, unused, -, rfl⟩
    · exact absurd rfl failed
    · have place : ((t.world.bindTo (t.world.procs proc).host sai is).procs proc).host =
          (t.world.procs proc).host := by
        rw [t.world.bindTo_eq is unused]
        rfl
      have entry := World.portDesc_bindTo is unused (t.world.procs proc).host sai.port.toNat
      rw [if_pos ⟨rfl, rfl⟩] at entry
      rw [← same]
      simp only [addNewTranslation, World.procs_setRealPort, place]
      exact ⟨_, port, World.portDesc_setRealPort _ entry port.toNat, rfl, by simp⟩
  · simp only [if_neg succeeded] at done
    have returned := congrArg Prod.snd (pure_eq_ok.mp done)
    exact absurd returned succeeded

theorem sameAddresses_syscallBindPre {t t' : Translated H} {proc : Pid} {sockfd : Int}
    {sai : SockaddrIn} {port : UInt16} {ret : Option Int}
    (done : t.syscallBindPre proc sockfd sai port = .ok (t', ret)) : t.world.SameAddresses t'.world := by
  obtain ⟨⟨w, ret⟩, bound, done⟩ := bind_eq_ok.mp done
  have same : t.world.SameAddresses w := by
    rcases World.syscallBindPre_ok bound with ⟨rfl, -⟩ | ⟨is, -, -, unused, -, rfl⟩
    · exact ⟨rfl, fun _ => rfl⟩
    · exact t.world.sameAddresses_bindTo is unused
  by_cases succeeded : ret = some 0
  · simp only [if_pos succeeded] at done
    cases pure_eq_ok.mp done
    have set := w.sameAddresses_setRealPort (w.procs proc).host sai.port.toNat port.toNat
    exact ⟨set.listIp.trans same.listIp, fun host => (set.ip host).trans (same.ip host)⟩
  · simp only [if_neg succeeded] at done
    cases pure_eq_ok.mp done
    exact same

end Translated

/-! ## The hosts of a platform -/

/-- The tables have the addresses that `init_host_list` gave out. -/
structure World.Booted (w : World PlatformHost) (hosts : List PlatformHost) (lists : HostLists) : Prop where
  listIp : ∀ ip, w.listIp ip = lists.getHostByIp hosts ip
  ip : ∀ host ∈ hosts, lists.getIpOfHost host = some (w.hosts host).ip

theorem World.Booted.keep {w w' : World PlatformHost} {hosts : List PlatformHost} {lists : HostLists}
    (booted : w.Booted hosts lists) (same : w.SameAddresses w') : w'.Booted hosts lists where
  listIp ip := by rw [same.listIp, booted.listIp]
  ip host listed := by rw [same.ip, booted.ip host listed]

theorem World.Booted.ip_of_listIp {w : World PlatformHost} {hosts : List PlatformHost} {lists : HostLists}
    (booted : w.Booted hosts lists) (inverse : lists.Inverse) {ip : UInt32} {host : PlatformHost}
    (found : w.listIp ip = some host) : (w.hosts host).ip = ip := by
  rw [booted.listIp] at found
  have listed := HostLists.mem_of_getHostByIp found
  have given := getIpOfHost_of_getHostByIp inverse found
  exact Option.some.inj ((booted.ip host listed).symm.trans given)

/-- The application gets back the address it passed exactly when that was not the loopback address,
    or when the host itself has that address: the dictionary of the way back has no other address for
    a real port than that of the host. -/
theorem translation_round_trip_iff {hosts : List PlatformHost} {lists : HostLists}
    (names : (hosts.map (·.name)).Nodup) (initialised : initHostList hosts = .ok lists)
    {t : Translated PlatformHost} (booted : t.world.Booted hosts lists) {proc : Pid} {mem : Memory}
    {arg1 : Nat}
    (finds : t.FindsListener proc (SockaddrIn.ofBytes (mem.read arg1 sizeofSockaddrIn))) :
    t.RoundTrip proc mem arg1 ↔
      (SockaddrIn.ofBytes (mem.read arg1 sizeofSockaddrIn)).addr ≠ loopback ∨
        (t.world.hosts (t.world.procs proc).host).ip = loopback := by
  obtain ⟨-, host, there, recorded⟩ := finds
  rw [Translated.roundTrip_of_recorded there recorded]
  generalize (SockaddrIn.ofBytes (mem.read arg1 sizeofSockaddrIn)).addr = addr at there
  unfold World.connectHost at there
  by_cases own : addr = loopback
  · rw [if_pos own] at there
    cases there
    simp [own]
  · rw [if_neg own] at there
    have same := booted.ip_of_listIp (inverse_initHostList initialised names) there
    simp [own, same]

/-- Two hosts without the property get the addresses 1.0.0.0 and 2.0.0.0. -/
def twoHosts : List PlatformHost := [⟨"Tremblay", none⟩, ⟨"Jupiter", none⟩]

/-- A server on the first host, which is bound to the port 80 of all its devices and listens; the
    kernel had the port 40000 for it. Process 1 is on the second host. -/
def serverRun (lists : HostLists) : Result (Translated PlatformHost) := do
  let place : Pid → PlatformHost := fun p => if p = 1 then ⟨"Jupiter", none⟩ else ⟨"Tremblay", none⟩
  let w := World.boot place (fun host => (lists.getIpOfHost host).getD 0) (lists.getHostByIp twoHosts)
  let w ← w.syscallSocket 0 2 1 0 3
  let (t, _) ← Translated.syscallBindPre { world := w } 0 3 ⟨inaddrAny, 80⟩ 40000
  let w ← t.world.processListenCall 0 3
  return { t with world := w }

/-- A structure at address 0 with port 80 and an address of these bytes. -/
def sockaddrOf (addr : List UInt8) : Memory :=
  let blank : Memory := fun _ => 0
  blank.write 0 ([2, 0, 0, 80] ++ addr)

theorem booted_serverRun {lists : HostLists} {t : Translated PlatformHost}
    (given : ∀ host ∈ twoHosts, (lists.getIpOfHost host).isSome) (done : serverRun lists = .ok t) :
    t.world.Booted twoHosts lists := by
  obtain ⟨w₁, opened, done⟩ := bind_eq_ok.mp done
  obtain ⟨⟨t₂, ret⟩, bound, done⟩ := bind_eq_ok.mp done
  obtain ⟨w₃, listening, rfl⟩ := bind_pure_eq_ok.mp done
  have booted₁ : w₁.Booted twoHosts lists := by
    have booted : ∀ host ∈ twoHosts, lists.getIpOfHost host = some ((lists.getIpOfHost host).getD 0) := by
      intro host listed
      obtain ⟨ip, known⟩ := Option.isSome_iff_exists.mp (given host listed)
      rw [known]
      rfl
    rcases World.syscallSocket_ok opened with rfl | ⟨-, rfl⟩ <;> exact ⟨fun _ => rfl, booted⟩
  have booted₂ := booted₁.keep (Translated.sameAddresses_syscallBindPre bound)
  obtain ⟨is, -, rfl⟩ := World.processListenCall_ok listening
  exact booted₂.keep ⟨rfl, fun _ => rfl⟩

/-- The server is found from both hosts, and its port is recorded. -/
theorem exists_serverRun : ∃ lists t, initHostList twoHosts = .ok lists ∧ serverRun lists = .ok t ∧
    t.world.Booted twoHosts lists ∧ t.FindsListener 1 ⟨1, 80⟩ ∧ t.FindsListener 0 ⟨loopback, 80⟩ ∧
    (t.world.hosts (t.world.procs 0).host).ip = 1 := by
  obtain ⟨lists, initialised, given, t, done, target, target', there, there', ip, desc, entry, real, back⟩ :
      ∃ lists ∈ (initHostList twoHosts).toOption,
        (∀ host ∈ twoHosts, (lists.getIpOfHost host).isSome) ∧
        ∃ t ∈ (serverRun lists).toOption, t.world.connectTarget 1 ⟨1, 80⟩ = some 0 ∧
          t.world.connectTarget 0 ⟨loopback, 80⟩ = some 0 ∧
          t.world.connectHost 1 1 = some (t.world.procs 0).host ∧
          t.world.connectHost 0 loopback = some (t.world.procs 0).host ∧
          (t.world.hosts (t.world.procs 0).host).ip = 1 ∧
          ∃ desc ∈ t.world.portDesc (t.world.procs 0).host 80, desc.realPort = 40000 ∧
            t.listTranslate 40000 = some ⟨80, 1⟩ := by decide +kernel
  have recorded : t.Recorded (t.world.procs 0).host 80 :=
    ⟨desc, 40000, entry, real, by rw [ip]; exact back⟩
  have reached := eq_ok_of_mem_toOption done
  exact ⟨lists, t, eq_ok_of_mem_toOption initialised, reached, booted_serverRun given reached,
    ⟨⟨0, target⟩, _, there, recorded⟩, ⟨⟨0, target'⟩, _, there', recorded⟩, ip⟩

/-- A client on the other host gets the address of the server back. -/
theorem remote_address_restored : ∃ lists t, initHostList twoHosts = .ok lists ∧
    serverRun lists = .ok t ∧ t.RoundTrip 1 (sockaddrOf [1, 0, 0, 0]) 0 := by
  obtain ⟨lists, t, initialised, reached, booted, finds, -, -⟩ := exists_serverRun
  have sent : SockaddrIn.ofBytes ((sockaddrOf [1, 0, 0, 0]).read 0 sizeofSockaddrIn) = ⟨1, 80⟩ := by
    decide +kernel
  refine ⟨lists, t, initialised, reached, ?_⟩
  exact (translation_round_trip_iff (by decide +kernel) initialised booted (by rw [sent]; exact finds)).mpr
    (.inl (by rw [sent]; decide))

/-- A client on the same host, connecting to 127.0.0.1, finds 1.0.0.0 in its structure. -/
theorem loopback_address_replaced : ∃ lists t, initHostList twoHosts = .ok lists ∧
    serverRun lists = .ok t ∧ t.world.Booted twoHosts lists ∧
    SockaddrIn.ofBytes ((sockaddrOf [127, 0, 0, 1]).read 0 sizeofSockaddrIn) = ⟨loopback, 80⟩ ∧
    t.FindsListener 0 ⟨loopback, 80⟩ ∧
    (∃ mem₁ ∈ (t.world.sysTranslateConnectIn 0 (sockaddrOf [127, 0, 0, 1]) 0).toOption,
      ∃ mem₂ ∈ (t.sysTranslateConnectOut mem₁ 0).toOption,
        mem₁.read 0 8 = [2, 0, 156, 64, 127, 0, 0, 1] ∧ mem₂.read 0 8 = [2, 0, 0, 80, 1, 0, 0, 0]) ∧
    ¬ t.RoundTrip 0 (sockaddrOf [127, 0, 0, 1]) 0 := by
  obtain ⟨lists, t, initialised, reached, booted, -, finds, ip⟩ := exists_serverRun
  have sent : SockaddrIn.ofBytes ((sockaddrOf [127, 0, 0, 1]).read 0 sizeofSockaddrIn) =
      ⟨loopback, 80⟩ := by decide +kernel
  obtain ⟨lists', initialised', t', reached', written⟩ : ∃ lists ∈ (initHostList twoHosts).toOption,
      ∃ t ∈ (serverRun lists).toOption,
        ∃ mem₁ ∈ (t.world.sysTranslateConnectIn 0 (sockaddrOf [127, 0, 0, 1]) 0).toOption,
        ∃ mem₂ ∈ (t.sysTranslateConnectOut mem₁ 0).toOption,
          mem₁.read 0 8 = [2, 0, 156, 64, 127, 0, 0, 1] ∧ mem₂.read 0 8 = [2, 0, 0, 80, 1, 0, 0, 0] := by
    decide +kernel
  cases Except.ok.inj (initialised.symm.trans (eq_ok_of_mem_toOption initialised'))
  cases Except.ok.inj (reached.symm.trans (eq_ok_of_mem_toOption reached'))
  refine ⟨lists, t, initialised, reached, booted, sent, finds, written, ?_⟩
  obtain ⟨-, host, there, recorded⟩ := finds
  rw [Translated.roundTrip_of_recorded (by rw [sent]; exact there) (by rw [sent]; exact recorded), sent]
  obtain rfl : (t.world.procs 0).host = host := Option.some.inj there
  rw [ip]
  decide

end Simterpose

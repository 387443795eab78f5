import Simterpose.Handshake
import Simterpose.Ownership

/-! # Who shares a stream

The part of the tables and of the program points that decides whether the two ends of a
connection agree: the links, the stream each descriptor holds, the names written into
the streams, and the server semaphores. Every turn of a meeting with one server is one
of the transitions of `Accord.Step`.
-/

namespace Simterpose

open Lib

/-- The links, and which streams are held and whose names are in them. -/
structure Streams (H : Type) where
  links : Links
  held : DescRef → Option StreamId
  client : StreamId → Option Pid
  toClient : StreamId → Option H
  server : StreamId → Option Pid
  toServer : StreamId → Option H
  next : StreamId
  host : Pid → H

/-- The same with the server semaphores and where the processes stand. -/
structure Accord (H : Type) extends Streams H where
  permits : StreamId → Nat
  point : Pid → Point

namespace Accord

variable {H : Type} (a : Accord H)

/-- A server puts a new stream on a descriptor. -/
def newStream (ref : DescRef) (proc : Pid) : Accord H :=
  { a with
    held := Function.update a.held ref (some a.next)
    client := Function.update a.client a.next none
    toClient := Function.update a.toClient a.next none
    server := Function.update a.server a.next (some proc)
    toServer := Function.update a.toServer a.next (some (a.host proc))
    permits := Function.update a.permits a.next 0
    next := a.next + 1 }

/-- A client takes over a stream and writes its name into it. -/
def joinStream (c : SockId) (t : StreamId) (proc : Pid) : Accord H :=
  { a with
    held := Function.update a.held (.socket c) (some t)
    client := Function.update a.client t (some proc)
    toClient := Function.update a.toClient t (some (a.host proc)) }

def setPermits (t : StreamId) (n : Nat) : Accord H :=
  { a with permits := Function.update a.permits t n }

/-- A client's request enters the queue of `q`. -/
def ask (c listener : SockId) (q : CommId) : Accord H := { a with links := a.links.ask c listener q }

/-- An `accept` makes a socket for the request `k`, with the listener's stream. -/
def serve (proc : Pid) (newfd : Int) (listener : SockId) (q k : CommId) (rest : List CommId) :
    Accord H :=
  { a with
    links := a.links.join proc newfd listener q k rest
    held := Function.update a.held (.socket a.links.nextSocket) (a.held (.socket listener)) }

def reach (proc : Pid) (p : Point) : Accord H := { a with point := Function.update a.point proc p }

end Accord

namespace World

variable {H : Type} (w : World H)

/-- The stream of a descriptor. -/
def held (ref : DescRef) : Option StreamId := (w.fileDesc ref).stream

def accord (point : Pid → Point) : Accord H where
  links := w.links
  held := w.held
  client t := (w.stream t).client
  toClient t := (w.stream t).toClient
  server t := (w.stream t).server
  toServer t := (w.stream t).toServer
  permits t := (w.stream t).semServer
  next := w.streams.next
  host proc := (w.procs proc).host
  point := point

/-! ## What the primitives do to the view -/

theorem held_modifySocket (is : SockId) (f : InfosSocket H → InfosSocket H) :
    (w.modifySocket is f).held =
      Function.update w.held (.socket is) (f (w.socket is)).fd.stream := by
  funext ref
  cases ref with
  | plain d => rw [Function.update_of_ne (by simp)]; rfl
  | socket j =>
      by_cases same : j = is
      · subst same
        simp [held, fileDesc, modifySocket, World.socket]
      · rw [Function.update_of_ne (by simpa using same)]
        simp [held, fileDesc, modifySocket, World.socket, Heap.cell_modify, same]

/-- Changes of a socket that leave its stream alone. -/
theorem held_modifySocket_same (is : SockId) {f : InfosSocket H → InfosSocket H}
    (kept : ∀ s, (f s).fd.stream = s.fd.stream) : (w.modifySocket is f).held = w.held := by
  rw [held_modifySocket, kept]
  exact Function.update_eq_self (DescRef.socket is) w.held

theorem held_setStream (ref : DescRef) (stream : Option StreamId) :
    (w.setStream ref stream).held = Function.update w.held ref stream := by
  cases ref with
  | socket is => exact w.held_modifySocket is _
  | plain d =>
      funext ref'
      cases ref' with
      | socket is => rw [Function.update_of_ne (by simp)]; rfl
      | plain d' =>
          by_cases same : d' = d
          · subst same
            simp [held, fileDesc, setStream]
          · rw [Function.update_of_ne (by simpa using same)]
            simp [held, fileDesc, setStream, Heap.cell_modify, same]

theorem held_addRefcount (ref : DescRef) (n : Int) : (w.addRefcount ref n).held = w.held := by
  cases ref with
  | socket is => exact w.held_modifySocket_same is (by intro; rfl)
  | plain d =>
      funext ref'
      cases ref' with
      | socket is => rfl
      | plain d' =>
          by_cases same : d' = d <;>
            simp [held, fileDesc, addRefcount, Heap.cell_modify, same]

theorem held_commNew (is : SockId) : (w.commNew is).held = w.held := by
  have made : (w.commNew is).held =
      (w.modifySocket is fun s => { s with comm := some w.comms.next, refNb := s.refNb + 1 }).held := rfl
  rw [made]
  exact w.held_modifySocket_same is (by intro; rfl)

theorem held_confirmRegisterSocket (proc : Pid) (fd domain type protocol : Int) :
    (w.confirmRegisterSocket proc fd domain type protocol).held =
      Function.update w.held (.socket w.sockets.next) none := by
  funext ref
  cases ref with
  | plain d => rw [Function.update_of_ne (by simp)]; rfl
  | socket j =>
      by_cases same : j = w.sockets.next
      · subst same
        simp [held, fileDesc, socket_confirmRegisterSocket, newSocket]
      · rw [Function.update_of_ne (by simpa using same)]
        simp [held, fileDesc, socket_confirmRegisterSocket, same]

theorem links_setStream (ref : DescRef) (stream : Option StreamId) :
    (w.setStream ref stream).links = w.links := by
  cases ref with
  | plain d => rfl
  | socket is =>
      rw [setStream, links_modifySocket]
      simp [links, InetLike]

variable (point : Pid → Point)

@[simp] theorem accord_addRefcount (ref : DescRef) (n : Int) :
    (w.addRefcount ref n).accord point = w.accord point := by
  have procs : (w.addRefcount ref n).procs = w.procs := by cases ref <;> rfl
  have streams : (w.addRefcount ref n).streams = w.streams := by cases ref <;> rfl
  simp only [accord, links_addRefcount, held_addRefcount, procs, World.stream, streams]

@[simp] theorem accord_setStream (ref : DescRef) (stream : Option StreamId) :
    (w.setStream ref stream).accord point =
      { w.accord point with held := Function.update w.held ref stream } := by
  have procs : (w.setStream ref stream).procs = w.procs := by cases ref <;> rfl
  have streams : (w.setStream ref stream).streams = w.streams := by cases ref <;> rfl
  simp only [accord, links_setStream, held_setStream, procs, World.stream, streams]

theorem accord_modifyStream (t : StreamId) (f : Stream H → Stream H) :
    (w.modifyStream t f).accord point =
      { w.accord point with
        client := Function.update (w.accord point).client t (f (w.stream t)).client
        toClient := Function.update (w.accord point).toClient t (f (w.stream t)).toClient
        server := Function.update (w.accord point).server t (f (w.stream t)).server
        toServer := Function.update (w.accord point).toServer t (f (w.stream t)).toServer
        permits := Function.update (w.accord point).permits t (f (w.stream t)).semServer } := by
  have updated := fun {β : Type} (g : Stream H → β) => Heap.proj_modify w.streams f t g
  simp only [accord, modifyStream, updated Stream.client, updated Stream.toClient,
    updated Stream.server, updated Stream.toServer, updated Stream.semServer]
  rfl

/-- The client semaphore is not in the view. -/
theorem accord_setClient (t : StreamId) (n : Stream H → Nat) :
    (w.modifyStream t fun s => s.setCount .client (n s)).accord point = w.accord point := by
  rw [accord_modifyStream]
  simp [accord, Stream.setCount]

theorem accord_setServer (t : StreamId) (n : Stream H → Nat) :
    (w.modifyStream t fun s => s.setCount .server (n s)).accord point =
      (w.accord point).setPermits t (n (w.stream t)) := by
  rw [accord_modifyStream]
  simp [accord, Stream.setCount, Accord.setPermits]

theorem accord_alloc (s : Stream H) :
    ({ w with streams := w.streams.alloc s }.accord point) =
      { w.accord point with
        client := Function.update (w.accord point).client w.streams.next s.client
        toClient := Function.update (w.accord point).toClient w.streams.next s.toClient
        server := Function.update (w.accord point).server w.streams.next s.server
        toServer := Function.update (w.accord point).toServer w.streams.next s.toServer
        permits := Function.update (w.accord point).permits w.streams.next s.semServer
        next := w.streams.next + 1 } := by
  have updated := fun {β : Type} (g : Stream H → β) => Heap.proj_alloc w.streams s g
  simp only [accord, updated Stream.client, updated Stream.toClient,
    updated Stream.server, updated Stream.toServer, updated Stream.semServer]
  rfl

theorem msgSemAcquire_ok {w' : World H} {stream : Option StreamId} {sem : Sem}
    (done : w.msgSemAcquire stream sem = .ok w') :
    ∃ t n, stream = some t ∧ (w.stream t).count sem = n + 1 ∧
      w' = w.modifyStream t fun s => s.setCount sem n := by
  unfold msgSemAcquire at done
  split at done
  · cases done
  · rename_i t
    split at done
    · cases done
    · rename_i n count
      exact ⟨t, n, rfl, count, by cases done; rfl⟩

theorem msgSemRelease_ok {w' : World H} {stream : Option StreamId} {sem : Sem}
    (done : w.msgSemRelease stream sem = .ok w') :
    ∃ t, stream = some t ∧ w' = w.modifyStream t fun s => s.setCount sem (s.count sem + 1) := by
  unfold msgSemRelease at done
  split at done
  · cases done
  · rename_i t
    exact ⟨t, rfl, by cases done; rfl⟩

theorem acceptEnter_ok {w' : World H} {proc : Pid} {sockfd : Int} {ref : DescRef}
    (done : w.acceptEnter proc sockfd = .ok (w', ref)) :
    w.processDescriptorGetFd proc sockfd = some ref ∧
      w'.accord point = (w.accord point).newStream ref proc := by
  unfold acceptEnter at done
  split at done
  · cases done
  · rename_i fileDesc found
    cases done
    refine ⟨found, ?_⟩
    have streams : (w.addRefcount ref 1).streams = w.streams := by cases ref <;> rfl
    have made := (w.addRefcount ref 1).accord_alloc point
      { server := some proc, toServer := some (w.procs proc).host }
    have held : ∀ heap, { w.addRefcount ref 1 with streams := heap }.held = w.held :=
      fun _ => w.held_addRefcount ref 1
    rw [accord_addRefcount, streams] at made
    rw [accord_setStream, streams, made, held]
    rfl

theorem connectStream_ok {w' : World H} {proc : Pid} {sockfd : Int} {is is' : SockId}
    (found : w.getInfosSocket proc sockfd = some is)
    (done : w.connectStream proc sockfd = .ok (w', is')) :
    is = is' ∧ ∃ s t, w.commGetPeer is = .ok (some s) ∧ w.held (.socket s) = some t ∧
      w'.accord point = (w.accord point).joinStream is t proc := by
  simp only [connectStream, found] at done
  obtain ⟨peer, peers, done⟩ := bind_eq_ok.mp done
  cases peer with
  | none => cases done
  | some s =>
      dsimp only at done
      split at done
      · cases done
      · rename_i t stream
        cases pure_eq_ok.mp done
        refine ⟨rfl, s, t, peers, stream, ?_⟩
        rw [accord_modifyStream, accord_setStream]
        simp [accord, Accord.joinStream, setStream, modifySocket]

theorem syscallConnectPost_ok {w' : World H} {proc : Pid} {sockfd : Int}
    (done : w.syscallConnectPost proc sockfd = .ok w') :
    ∃ ref t, w.links.opened proc sockfd = ref.socket? ∧ w.held ref = some t ∧
      w'.accord point = (w.accord point).setPermits t ((w.stream t).semServer + 1) := by
  unfold syscallConnectPost at done
  split at done
  · cases done
  · rename_i ref found
    obtain ⟨w₁, released, rfl⟩ := bind_pure_eq_ok.mp done
    obtain ⟨t, stream, rfl⟩ := msgSemRelease_ok _ released
    have streams : (w.addRefcount ref 1).streams = w.streams := by cases ref <;> rfl
    have held : (w.addRefcount ref 1).held ref = some t := stream
    rw [held_addRefcount] at held
    refine ⟨ref, t, by simp [links, found], held, ?_⟩
    rw [accord_addRefcount, accord_setServer, accord_addRefcount]
    simp only [World.stream, streams, Stream.count]

variable [DecidableEq H]

theorem held_connectFrom (is conn : SockId) (k : CommId) (host : H) (ip : UInt32) (port : Nat) :
    (w.connectFrom is conn k host ip port).held = w.held := by
  have registered : (w.connectFrom is conn k host ip port).held =
      ((w.queueConnection is conn k).setAddress is ip port).held := rfl
  have addressed : ∀ v : World H, (v.setAddress is ip port).held = v.held := fun v =>
    held_modifySocket_same v is (by intro; rfl)
  have counted : (w.queueConnection is conn k).held = (w.commNew is).held :=
    held_modifySocket_same _ conn (by intro; rfl)
  rw [registered, addressed, counted, held_commNew]

theorem accord_connectFrom (is conn : SockId) (k : CommId) (host : H) (ip : UInt32) (port : Nat) :
    (w.connectFrom is conn k host ip port).accord point = (w.accord point).ask is conn k := by
  have streams : (w.connectFrom is conn k host ip port).streams = w.streams := rfl
  have procs : (w.connectFrom is conn k host ip port).procs = w.procs := rfl
  simp only [accord, Accord.ask, links_connectFrom, held_connectFrom, World.stream, streams, procs]

/-- Right after the request the peer of the client is the listener. -/
theorem commGetPeer_connectFrom (is conn : SockId) (k : CommId) (host : H) (ip : UInt32)
    (port : Nat) : (w.connectFrom is conn k host ip port).commGetPeer is = .ok (some conn) := by
  have shape := w.links_connectFrom is conn k host ip port
  have comm : ((w.connectFrom is conn k host ip port).socket is).comm = some w.comms.next :=
    (congrArg (Links.comm · is) shape).trans (by
      simp [Links.ask, Links.setInfo1, Links.setConnWait, Links.commNew]; rfl)
  have first : ((w.connectFrom is conn k host ip port).comm w.comms.next).info0.socket = some is :=
    (congrArg (Links.info0 · w.comms.next) shape).trans (by
      simp [Links.ask, Links.setInfo1, Links.setConnWait, Links.commNew, links])
  have second : ((w.connectFrom is conn k host ip port).comm w.comms.next).info1.socket = some conn :=
    (congrArg (Links.info1 · w.comms.next) shape).trans (by
      simp [Links.ask, Links.setInfo1, Links.setConnWait, Links.commNew, links])
  simp only [commGetPeer, comm, first, second, if_true]

theorem held_acceptFrom (proc : Pid) (newfd : Int) (listener : SockId) (k conn : CommId)
    (rest : List CommId) (ip : UInt32) :
    (w.acceptFrom proc newfd listener k conn rest ip).held =
      Function.update w.held (.socket w.sockets.next) (w.held (.socket listener)) := by
  have taken : ∀ (v : World H) is, (v.takeConnection is k conn rest).held = v.held := fun v is =>
    held_modifySocket_same _ is (by intro; rfl)
  have registered : ∀ (v : World H) host port, (v.registerPort host port).held = v.held :=
    fun _ _ _ => rfl
  have addressed : ∀ (v : World H) is port, (v.setAddress is ip port).held = v.held := fun v is _ =>
    held_modifySocket_same v is (by intro; rfl)
  rw [acceptFrom, held_modifySocket, addressed, registered, taken, held_confirmRegisterSocket,
    Function.update_idem]
  rfl

theorem accord_acceptFrom (proc : Pid) (newfd : Int) (listener : SockId) (k conn : CommId)
    (rest : List CommId) (ip : UInt32) :
    (w.acceptFrom proc newfd listener k conn rest ip).accord point =
      (w.accord point).serve proc newfd listener k conn rest := by
  have streams : (w.acceptFrom proc newfd listener k conn rest ip).streams = w.streams := rfl
  have host : ∀ proc', ((w.acceptFrom proc newfd listener k conn rest ip).procs proc').host =
      (w.procs proc').host := fun proc' => w.host_setFd proc proc' newfd _
  simp only [accord, Accord.serve, links_acceptFrom, held_acceptFrom, World.stream, streams, host]
  rfl

/-- The bound socket a `connect` would find. -/
def asks (w : World H) (proc : Pid) (sockfd : Int) (sai : SockaddrIn) : Option SockId :=
  match w.processConnectInCall proc sockfd sai with
  | .ok o => o.listener
  | .error _ => none

end World

/-- What a turn does as long as only the process `srv` accepts, on its descriptor `lfd`. -/
inductive Accord.Step {H : Type} (srv : Pid) (lfd : Int) (a : Accord H) : Accord H → Prop where
  | enter {ref} : a.point srv = .running → a.links.opened srv lfd = ref.socket? →
      Step srv lfd a ((a.newStream ref srv).reach srv (.acceptIn lfd ref))
  | refused : Step srv lfd a a
  | ask {proc sockfd c listener q t} : a.point proc = .running →
      a.links.opened proc sockfd = some c → a.links.opened srv lfd = some listener →
      (a.links.commNew c).comm listener = some q → a.held (.socket listener) = some t →
      a.client t = none →
      Step srv lfd a (((a.ask c listener q).joinStream c t proc).reach proc (.connectAsked sockfd c))
  | take {proc sockfd ref t n} : a.point proc = .acceptIn sockfd ref → a.held ref = some t →
      a.permits t = n + 1 →
      Step srv lfd a ((a.setPermits t n).reach proc (.acceptTook sockfd ref))
  | grant {proc sockfd ref} : a.point proc = .acceptTook sockfd ref →
      Step srv lfd a (a.reach proc (.acceptLook sockfd ref))
  | serve {proc sockfd newfd ref listener q k rest} : a.point proc = .acceptLook sockfd ref →
      a.links.opened proc sockfd = some listener → a.links.opened proc newfd = none →
      a.links.comm listener = some q → a.links.connWait q = k :: rest →
      Step srv lfd a ((a.serve proc newfd listener q k rest).reach proc (.acceptOut sockfd ref))
  | nobody {proc sockfd ref} : a.point proc = .acceptLook sockfd ref →
      (∀ listener q, a.links.opened proc sockfd = some listener → a.links.comm listener = some q →
        a.links.connWait q = []) → Step srv lfd a (a.reach proc .acceptKernel)
  | takeAgain {proc sockfd ref t n} : a.point proc = .acceptOut sockfd ref → a.held ref = some t →
      a.permits t = n + 1 → Step srv lfd a ((a.setPermits t n).reach proc .running)
  | release {proc sockfd c t} : a.point proc = .connectAsked sockfd c → a.held (.socket c) = some t →
      Step srv lfd a ((a.setPermits t (a.permits t + 1)).reach proc (.connectWait sockfd c))
  | granted {proc sockfd c} : a.point proc = .connectWait sockfd c →
      Step srv lfd a (a.reach proc (.connectPost sockfd))
  | post {proc sockfd ref t} : a.point proc = .connectPost sockfd →
      a.links.opened proc sockfd = ref.socket? → a.held ref = some t →
      Step srv lfd a ((a.setPermits t (a.permits t + 1)).reach proc .running)

namespace Meeting

variable {H : Type} [DecidableEq H] (srv : Pid) (lfd : Int)

/-- Only the process `srv` accepts, on its descriptor `lfd` and with descriptors from the
    kernel; the connects that find a bound socket find that one, and block. -/
def OneServer (m : Meeting H) : Turn → Prop
  | .accept proc sockfd => proc = srv ∧ sockfd = lfd
  | .connect proc sockfd sai => ∀ s ∈ m.world.asks proc sockfd sai,
      m.world.getInfosSocket srv lfd = some s ∧
        m.world.socketGetFlags proc sockfd &&& oNonblock = 0
  | .proceed _ newfd => newfd ≥ 0

/-- A client that finds a listener finds a stream which no client has joined. -/
def Unjoined (m : Meeting H) : Turn → Prop
  | .connect proc sockfd sai => ∀ s ∈ m.world.asks proc sockfd sai,
      ∀ t ∈ (m.world.socket s).fd.stream, (m.world.stream t).client = none
  | .accept .. | .proceed .. => True

def accord (m : Meeting H) : Accord H := m.world.accord m.point

variable {srv lfd} {m m' : Meeting H}

omit [DecidableEq H] in
theorem accord_reach (m : Meeting H) (proc : Pid) (w : World H) (p : Point) :
    (m.reach proc w p).accord = (w.accord m.point).reach proc p := rfl

theorem accord_proceed {proc : Pid} {newfd : Int} (sound : m.world.links.Sound)
    (nonneg : newfd ≥ 0) (done : m.proceed proc newfd = .ok m') :
    Accord.Step srv lfd m.accord m'.accord := by
  have opened := m.world.getInfosSocket_eq_opened proc
  unfold proceed at done
  dsimp only at done
  cases here : m.point proc with
  | running | acceptKernel =>
      rw [here] at done
      cases done
  | acceptIn sockfd ref =>
      rw [here] at done
      obtain ⟨w, acquired, done⟩ := bind_eq_ok.mp done
      obtain ⟨t, n, stream, count, rfl⟩ := m.world.msgSemAcquire_ok acquired
      cases pure_eq_ok.mp done
      rw [accord_reach, World.accord_setServer]
      exact .take here stream count
  | acceptTook sockfd ref =>
      rw [here] at done
      obtain ⟨w, released, done⟩ := bind_eq_ok.mp done
      obtain ⟨t, stream, rfl⟩ := m.world.msgSemRelease_ok released
      cases pure_eq_ok.mp done
      rw [accord_reach, World.accord_setClient]
      exact .grant here
  | acceptLook sockfd ref =>
      rw [here] at done
      obtain ⟨⟨w, sai⟩, accepted, done⟩ := bind_eq_ok.mp done
      have outcome := World.syscallAccept_ok
        (fun is found => Nat.ne_of_lt (sound.openedLt (opened sockfd ▸ found))) accepted
      cases sai with
      | none =>
          obtain rfl : w = m.world := by
            rcases outcome with ⟨same, -⟩ | ⟨_, _, _, _, _, _, _, _, _, _, _, _, some_, _⟩
            · exact same
            · cases some_
          cases pure_eq_ok.mp done
          rw [accord_reach, World.accord_addRefcount]
          refine .nobody here fun listener q found comm => ?_
          exact World.syscallAccept_none ((opened sockfd).trans found) comm accepted
      | some sai =>
          cases pure_eq_ok.mp done
          rcases outcome with ⟨-, none_ | negative⟩ |
              ⟨listener, q, k, rest, client, ip, -, found, comm, queue, first, free, -, rfl⟩
          · cases none_
          · omega
          · rw [accord_reach, World.accord_acceptFrom]
            have unused : m.world.links.opened proc newfd = none := by simp [World.links, free]
            exact .serve here ((opened sockfd).symm.trans found) unused comm queue
  | acceptOut sockfd ref =>
      rw [here] at done
      obtain ⟨w, acquired, done⟩ := bind_eq_ok.mp done
      obtain ⟨t, n, stream, count, rfl⟩ := m.world.msgSemAcquire_ok acquired
      cases pure_eq_ok.mp done
      rw [accord_reach, World.accord_addRefcount, World.accord_setServer]
      exact .takeAgain here stream count
  | connectAsked sockfd c =>
      rw [here] at done
      obtain ⟨w, released, done⟩ := bind_eq_ok.mp done
      obtain ⟨t, stream, rfl⟩ := m.world.msgSemRelease_ok released
      cases pure_eq_ok.mp done
      rw [accord_reach, World.accord_setServer]
      exact .release here stream
  | connectWait sockfd c =>
      rw [here] at done
      obtain ⟨w, acquired, done⟩ := bind_eq_ok.mp done
      obtain ⟨t, n, stream, count, rfl⟩ := m.world.msgSemAcquire_ok acquired
      cases pure_eq_ok.mp done
      rw [accord_reach, World.accord_setClient]
      exact .granted here
  | connectPost sockfd =>
      rw [here] at done
      obtain ⟨w, posted, rfl⟩ := bind_pure_eq_ok.mp done
      obtain ⟨ref, t, found, stream, shape⟩ := m.world.syscallConnectPost_ok m.point posted
      rw [accord_reach, shape]
      exact .post here found stream

/-- Every turn under one server is one of the transitions of the view. -/
theorem Step.accord {turn : Turn} (sound : m.world.links.Sound) (oneServer : OneServer srv lfd m turn)
    (unjoined : Unjoined m turn) (step : m.Step turn m') :
    Accord.Step srv lfd m.accord m'.accord := by
  have opened := m.world.getInfosSocket_eq_opened
  cases turn with
  | proceed proc newfd => exact accord_proceed sound oneServer step
  | accept proc sockfd =>
      obtain ⟨rfl, rfl⟩ := oneServer
      simp only [Step, turn] at step
      split at step
      · rename_i here
        obtain ⟨⟨w, ref⟩, entered, rfl⟩ := bind_pure_eq_ok.mp step
        obtain ⟨found, shape⟩ := m.world.acceptEnter_ok m.point entered
        rw [accord_reach, shape]
        refine .enter here ?_
        simp [Meeting.accord, World.accord, World.links, found]
      · cases step
  | connect proc sockfd sai =>
      simp only [Step, turn] at step
      split at step
      · rename_i here
        obtain ⟨o, asked, done⟩ := bind_eq_ok.mp step
        have stays : m.reach proc m.world .running = m := by
          simp only [reach, ← here, Function.update_eq_self]
        have waits := World.processConnectInCall_waits asked
        rcases World.processConnectInCall_ok asked with ⟨same, none_⟩ |
            ⟨c, listener, q, ip, port, found, network, binding, comm, live, random, some_, world⟩
        · rw [if_neg (by simp [waits, none_]), same, stays] at done
          cases pure_eq_ok.mp done
          exact .refused
        · have finds : listener ∈ m.world.asks proc sockfd sai := by simp [World.asks, asked, some_]
          obtain ⟨isServer, blocking⟩ := oneServer listener finds
          rw [if_pos (waits.mpr ⟨by simp [some_], blocking⟩)] at done
          obtain ⟨⟨w, c'⟩, joined, rfl⟩ := bind_pure_eq_ok.mp done
          rw [world] at joined
          have still := (m.world.getInfosSocket_connectFrom c listener q (m.world.procs proc).host
            ip port proc sockfd).trans found
          obtain ⟨rfl, s, t, peer, held, shape⟩ := World.connectStream_ok _ m.point still joined
          obtain rfl : listener = s := by
            simpa [World.commGetPeer_connectFrom] using peer
          rw [World.held_connectFrom] at held
          rw [accord_reach, shape, World.accord_connectFrom]
          refine .ask here ((opened _ _).symm.trans found) ((opened _ _).symm.trans isServer) ?_ held
            (unjoined listener finds t held)
          rw [← comm]
          exact congrArg (Links.comm · listener) (m.world.links_commNew c).symm
      · cases step

end Meeting

end Simterpose

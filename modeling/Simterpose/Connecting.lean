import Simterpose.Streams

/-! # What a blocking connect can meet

`syscall_connect_pre` looks up the socket bound at the destination, queues a request on the
communication of that socket and follows the stream of its descriptor. The server sets the
three by `bind`, `listen` and `accept`, one after the other, so a client may come in
between. Here every destination is considered, in any tables whatever.
-/

namespace Simterpose

open Lib

namespace World

section

variable {H : Type} (w : World H)

/-- The socket that is bound where a `connect` wants to go. -/
def connectTarget (proc : Pid) (sai : SockaddrIn) : Option SockId :=
  if sai.addr = loopback then
    w.getBindingSocketHost (w.procs proc).host sai.port.toNat portLocalDevice
  else
    match w.listIp sai.addr with
    | none => none
    | some host => w.getBindingSocketHost host sai.port.toNat portRemoteDevice

/-- A socket that listens: its communication exists, is not destroyed and is in the
    state that `listen` put it. -/
def Listens (s : SockId) (k : CommId) : Prop :=
  (w.socket s).comm = some k ∧ k < w.comms.next ∧ w.comms.freed k = false ∧
    (w.comm k).state = .listening

/-- A connect that was refused has left everything as it was. -/
def Refused (o : ConnectOutcome H) : Prop :=
  o.ret = some (-econnrefused) ∧ o.world = w

/-- One new communication waits, at the end of the queue of a socket that listens. -/
def Queued (o : ConnectOutcome H) : Prop :=
  ∃ s k, w.Listens s k ∧ o.world.comms.next = w.comms.next + 1 ∧
    o.world.commList = w.commList ++ [w.comms.next] ∧
    (∀ j, (o.world.comm j).connWait =
      if j = k then (w.comm k).connWait ++ [w.comms.next]
      else if j = w.comms.next then [] else (w.comm j).connWait)

variable [DecidableEq H]

/-- `syscall_connect_pre` up to its first semaphore operation. -/
def syscallConnectPre (proc : Pid) (sockfd : Int) (sai : SockaddrIn) : Result (ConnectOutcome H) := do
  let o ← w.processConnectInCall proc sockfd sai
  if o.waits then
    let (w, _) ← o.world.connectStream proc sockfd
    return { o with world := w }
  else return o

/-- What the client needs of a socket it finds: another one than its own, which listens and
    has entered `accept`, and a port for itself. -/
def Approachable (proc : Pid) (is conn : SockId) : Prop :=
  conn ≠ is ∧ (∃ k, w.Listens conn k) ∧ (w.socket conn).fd.stream.isSome ∧
    (w.getRandomPort (w.procs proc).host).isSome

end

section

variable {H : Type} {w : World H} {is : SockId}

theorem comm_commNew_of_ne {j : SockId} (other : j ≠ is) :
    ((w.commNew is).socket j).comm = (w.socket j).comm := by
  simp [commNew, modifySocket, World.socket, Heap.cell_modify, other]

theorem comm_commNew_self : ((w.commNew is).socket is).comm = some w.comms.next := by
  simp [commNew, modifySocket, World.socket]

theorem comms_connectStream {w' : World H} {proc : Pid} {sockfd : Int} {is' : SockId}
    (done : w.connectStream proc sockfd = .ok (w', is')) :
    w'.comms = w.comms ∧ w'.commList = w.commList := by
  unfold connectStream at done
  split at done
  · cases done
  · obtain ⟨peer, -, done⟩ := bind_eq_ok.mp done
    cases peer with
    | none => cases done
    | some s =>
        dsimp only at done
        split at done
        · cases done
        · cases pure_eq_ok.mp done
          exact ⟨rfl, rfl⟩

end

variable {H : Type} [DecidableEq H] {w : World H} {proc : Pid} {sockfd : Int} {sai : SockaddrIn}
  {is conn : SockId}

theorem connectTo_of_unbound {port device : Nat} {host : H} {ip : UInt32}
    (unbound : w.getBindingSocketHost host port device = none) :
    w.connectTo proc sockfd port host device ip =
      .ok { world := w, ret := some (-econnrefused), listener := none, waits := false } := by
  simp only [connectTo, commAskConnect, unbound]
  rfl

/-- A blocking connect to a socket that is bound there: every test on the way. -/
theorem connectTo_of_bound {port device : Nat} {host : H} {ip : UInt32}
    (found : w.getInfosSocket proc sockfd = some is)
    (blocking : w.socketGetFlags proc sockfd &&& oNonblock = 0)
    (bound : w.getBindingSocketHost host port device = some conn) {o : ConnectOutcome H} :
    w.connectTo proc sockfd port host device ip = .ok o ↔
      ∃ k localPort, ((w.commNew is).socket conn).comm = some k ∧ (w.commNew is).comms.freed k = false ∧
        w.getRandomPort (w.procs proc).host = some localPort ∧
        o = { world := w.connectFrom is conn k (w.procs proc).host ip localPort, ret := some 0
              listener := some conn, waits := true } := by
  have random : ∀ k, (w.queueConnection is conn k).getRandomPort (w.procs proc).host =
      w.getRandomPort (w.procs proc).host := fun k =>
    w.getRandomPort_congr (w.hosts_queueConnection is conn k) _
  have still : ∀ k, (w.queueConnection is conn k).getInfosSocket proc sockfd = some is := fun k =>
    (getInfosSocket_congr (w.procs_queueConnection is conn k) ..).trans found
  have flags : ∀ k localPort, (w.connectFrom is conn k (w.procs proc).host ip localPort).socketGetFlags
      proc sockfd &&& oNonblock = 0 := by
    intro k localPort
    simpa only [socketGetFlags, getInfosSocket_connectFrom, found, flags_connectFrom] using blocking
  constructor
  · intro done
    obtain ⟨⟨w₁, accProc⟩, asked, rest⟩ := bind_eq_ok.mp done
    simp only [commAskConnect, bound, found] at asked
    split at asked
    · cases asked
    · rename_i k attached
      split at asked
      · cases asked
      · rename_i live
        cases asked
        simp only [procs_queueConnection, random] at rest
        split at rest
        · cases rest
        · rename_i localPort unused
          simp only [setLocaladdrPortSocket, still] at rest
          refine ⟨k, localPort, attached, by simpa using live, unused, ?_⟩
          change (if _ then _ else _) = _ at rest
          rw [if_neg fun nonblocking => nonblocking (flags k localPort)] at rest
          exact (pure_eq_ok.mp rest).symm
  · rintro ⟨k, localPort, attached, live, unused, rfl⟩
    refine bind_eq_ok.mpr ⟨(w.queueConnection is conn k, some conn), ?_, ?_⟩
    · simp only [commAskConnect, bound, found, attached, live]
      rfl
    · simp only [procs_queueConnection, random, unused, setLocaladdrPortSocket, still]
      change (if _ then _ else _) = _
      rw [if_neg fun nonblocking => nonblocking (flags k localPort)]
      rfl

/-- The lookup decides between the two outcomes of `process_connect_in_call`. -/
theorem processConnectInCall_of_unbound (inet : w.getDomainSocket proc sockfd = 2)
    (unbound : w.connectTarget proc sai = none) :
    w.processConnectInCall proc sockfd sai =
      .ok { world := w, ret := some (-econnrefused), listener := none, waits := false } := by
  unfold connectTarget at unbound
  unfold processConnectInCall
  rw [if_pos inet]
  split
  · rename_i local_
    rw [if_pos local_] at unbound
    exact connectTo_of_unbound unbound
  · rename_i remote
    rw [if_neg remote] at unbound
    cases known : w.listIp sai.addr with
    | none => rfl
    | some host =>
        rw [known] at unbound
        exact connectTo_of_unbound unbound

theorem processConnectInCall_of_bound (inet : w.getDomainSocket proc sockfd = 2)
    (bound : w.connectTarget proc sai = some conn) :
    ∃ host device ip, w.getBindingSocketHost host sai.port.toNat device = some conn ∧
      w.processConnectInCall proc sockfd sai =
        w.connectTo proc sockfd sai.port.toNat host device ip := by
  unfold connectTarget at bound
  unfold processConnectInCall
  rw [if_pos inet]
  split
  · rename_i local_
    rw [if_pos local_] at bound
    exact ⟨_, _, _, bound, rfl⟩
  · rename_i remote
    rw [if_neg remote] at bound
    cases known : w.listIp sai.addr with
    | none =>
        rw [known] at bound
        cases bound
    | some host =>
        rw [known] at bound
        exact ⟨_, _, _, bound, rfl⟩

theorem connectStream_iff_held (k : CommId) (host : H) (ip : UInt32) (port : Nat)
    (found : w.getInfosSocket proc sockfd = some is) :
    (∃ r, (w.connectFrom is conn k host ip port).connectStream proc sockfd = .ok r) ↔
      (w.socket conn).fd.stream.isSome := by
  have still : (w.connectFrom is conn k host ip port).getInfosSocket proc sockfd = some is := by
    rw [getInfosSocket_connectFrom, found]
  have held : ((w.connectFrom is conn k host ip port).socket conn).fd.stream =
      (w.socket conn).fd.stream :=
    congrFun (w.held_connectFrom is conn k host ip port) (.socket conn)
  simp only [connectStream, still, commGetPeer_connectFrom, bind, Except.bind, held]
  cases (w.socket conn).fd.stream with
  | none => simp
  | some t => simp [pure, Except.pure]

/-- The queues after a request was put on `k`. -/
theorem connWait_connectFrom {k : CommId} {host : H} {ip : UInt32} {port : Nat} (j : CommId) :
    ((w.connectFrom is conn k host ip port).comm j).connWait =
      if j = k then (if k = w.comms.next then [] else (w.comm k).connWait) ++ [w.comms.next]
      else if j = w.comms.next then [] else (w.comm j).connWait := by
  have shape := congrArg (Links.connWait · j) (w.links_connectFrom is conn k host ip port)
  simpa only [links, Links.ask, Links.setInfo1, Links.setConnWait, Links.commNew,
    Function.update_apply] using shape

theorem commList_connectFrom {k : CommId} {host : H} {ip : UInt32} {port : Nat} :
    (w.connectFrom is conn k host ip port).commList = w.commList ++ [w.comms.next] :=
  congrArg Links.commList (w.links_connectFrom is conn k host ip port)

theorem nextComm_connectFrom {k : CommId} {host : H} {ip : UInt32} {port : Nat} :
    (w.connectFrom is conn k host ip port).comms.next = w.comms.next + 1 :=
  congrArg Links.nextComm (w.links_connectFrom is conn k host ip port)

/-- What a blocking connect comes to when the lookup finds a socket. -/
theorem syscallConnectPre_of_bound (found : w.getInfosSocket proc sockfd = some is)
    (inet : w.getDomainSocket proc sockfd = 2)
    (blocking : w.socketGetFlags proc sockfd &&& oNonblock = 0)
    (bound : w.connectTarget proc sai = some conn) :
    ∃ ip, ∀ o, w.syscallConnectPre proc sockfd sai = .ok o ↔
      ∃ k localPort r, ((w.commNew is).socket conn).comm = some k ∧ (w.commNew is).comms.freed k = false ∧
        w.getRandomPort (w.procs proc).host = some localPort ∧
        (w.connectFrom is conn k (w.procs proc).host ip localPort).connectStream proc sockfd = .ok r ∧
        o = { world := r.1, ret := some 0, listener := some conn, waits := true } := by
  obtain ⟨host, device, ip, binding, same⟩ := processConnectInCall_of_bound inet bound
  refine ⟨ip, fun o => ?_⟩
  simp only [syscallConnectPre, same]
  constructor
  · intro done
    obtain ⟨asked, connected, done⟩ := bind_eq_ok.mp done
    obtain ⟨k, localPort, attached, live, random, rfl⟩ :=
      (connectTo_of_bound found blocking binding).mp connected
    obtain ⟨r, streamed, done⟩ := bind_eq_ok.mp done
    exact ⟨k, localPort, r, attached, live, random, streamed, (pure_eq_ok.mp done).symm⟩
  · rintro ⟨k, localPort, r, attached, live, random, streamed, rfl⟩
    refine bind_eq_ok.mpr ⟨_, (connectTo_of_bound found blocking binding).mpr
      ⟨k, localPort, attached, live, random, rfl⟩, ?_⟩
    exact bind_eq_ok.mpr ⟨r, streamed, rfl⟩

/-- A new request that is the only change to the queues was put on a socket that listens. -/
theorem listens_of_queued {k : CommId} {host : H} {ip : UInt32} {port : Nat} {o : ConnectOutcome H}
    (attached : ((w.commNew is).socket conn).comm = some k)
    (comms : o.world.comms = (w.connectFrom is conn k host ip port).comms) (queued : w.Queued o) :
    conn ≠ is ∧ w.Listens conn k := by
  obtain ⟨s, k', ⟨-, older, live, listening⟩, -, -, queues⟩ := queued
  have queue : ∀ j, ((w.connectFrom is conn k host ip port).comm j).connWait =
      if j = k' then (w.comm k').connWait ++ [w.comms.next]
      else if j = w.comms.next then [] else (w.comm j).connWait := by
    intro j
    rw [← queues j, World.comm, World.comm, comms]
  have old : k' ≠ w.comms.next := Nat.ne_of_lt older
  -- the one queue that grew is both that of `k` and that of `k'`
  have same : k' = k := by
    by_contra other
    have kept := queue k'
    rw [connWait_connectFrom, if_neg other, if_neg old, if_pos rfl] at kept
    simp at kept
  subst same
  have apart : conn ≠ is := by
    rintro rfl
    rw [comm_commNew_self] at attached
    exact old (Option.some.inj attached).symm
  rw [comm_commNew_of_ne apart] at attached
  exact ⟨apart, attached, older, live, listening⟩

/-- Handling a blocking connect either refuses it and changes nothing, or puts one new
    communication at the end of the queue of a listening socket, if and only if whatever
    socket it finds is approachable. -/
theorem connect_safe_iff (found : w.getInfosSocket proc sockfd = some is)
    (inet : w.getDomainSocket proc sockfd = 2)
    (blocking : w.socketGetFlags proc sockfd &&& oNonblock = 0) :
    (∃ o, w.syscallConnectPre proc sockfd sai = .ok o ∧ (w.Refused o ∨ w.Queued o)) ↔
      ∀ conn, w.connectTarget proc sai = some conn → w.Approachable proc is conn := by
  cases target : w.connectTarget proc sai with
  | none =>
      apply iff_of_true _ (by simp)
      refine ⟨{ world := w, ret := some (-econnrefused), listener := none, waits := false }, ?_,
        .inl ⟨rfl, rfl⟩⟩
      simp only [syscallConnectPre, processConnectInCall_of_unbound inet target]
      rfl
  | some conn =>
      obtain ⟨ip, handled⟩ := syscallConnectPre_of_bound found inet blocking target
      have single : (∀ conn', some conn = some conn' → w.Approachable proc is conn') ↔
          w.Approachable proc is conn := by simp
      rw [single]
      constructor
      · rintro ⟨o, done, outcome⟩
        obtain ⟨k, localPort, ⟨w', is'⟩, attached, live, random, streamed, rfl⟩ := (handled o).mp done
        have held := (connectStream_iff_held _ _ _ _ found).mp ⟨_, streamed⟩
        rcases outcome with ⟨ret, -⟩ | queued
        · cases ret
        · obtain ⟨apart, listens⟩ :=
            listens_of_queued attached (comms_connectStream streamed).1 queued
          exact ⟨apart, ⟨k, listens⟩, held, by simp [random]⟩
      · rintro ⟨apart, ⟨k, attached, older, live, listening⟩, held, random⟩
        obtain ⟨localPort, random⟩ := Option.isSome_iff_exists.mp random
        obtain ⟨⟨w', is'⟩, streamed⟩ := (connectStream_iff_held k _ ip localPort found).mpr held
        obtain ⟨comms, commList⟩ := comms_connectStream streamed
        have old : k ≠ w.comms.next := Nat.ne_of_lt older
        have still : (w.commNew is).comms.freed k = false := by rw [freed_commNew, if_neg old, live]
        refine ⟨_, (handled _).mpr ⟨k, localPort, _, (comm_commNew_of_ne apart).trans attached, still,
          random, streamed, rfl⟩, .inr ⟨conn, k, ⟨attached, older, live, listening⟩, ?_, ?_, ?_⟩⟩
        · rw [comms, nextComm_connectFrom]
        · rw [commList, commList_connectFrom]
        · intro j
          rw [World.comm, comms, ← World.comm, connWait_connectFrom, if_neg old]

/-- A client connects to a server that listens and waits in `accept`. -/
theorem connect_queued_on_accepting : ∃ es w, Run Step threeHosts es w ∧
    ∃ r ∈ (w.acceptEnter 0 3).toOption, r.1.connectTarget 1 ⟨10, 80⟩ = some 0 ∧
      ∃ o, r.1.syscallConnectPre 1 3 ⟨10, 80⟩ = .ok o ∧ (r.1.Refused o ∨ r.1.Queued o) := by
  obtain ⟨es, w, run, ⟨r, entered, target, ⟨found, inet, blocking⟩, listens, stream, random⟩⟩ :=
    exists_run (fun _ _ => True) threeHosts
    [.socket 0 2 1 0 3, .bind 0 3 ⟨inaddrAny, 80⟩, .listen 0 3, .socket 1 2 1 0 3]
    (P := fun w => ∃ r ∈ (w.acceptEnter 0 3).toOption, r.1.connectTarget 1 ⟨10, 80⟩ = some 0 ∧
      (r.1.getInfosSocket 1 3 = some 1 ∧ r.1.getDomainSocket 1 3 = 2 ∧
        r.1.socketGetFlags 1 3 &&& oNonblock = 0) ∧
      ((r.1.socket 0).comm = some 0 ∧ 0 < r.1.comms.next ∧ r.1.comms.freed 0 = false ∧
        (r.1.comm 0).state = .listening) ∧
      (r.1.socket 0).fd.stream.isSome ∧ (r.1.getRandomPort (r.1.procs 1).host).isSome) (by decide)
  refine ⟨es, w, run.mono fun _ _ _ step => step.2, r, entered, target, ?_⟩
  refine (connect_safe_iff found inet blocking).mpr ?_
  intro conn bound
  cases Option.some.inj (target.symm.trans bound)
  exact ⟨by decide, ⟨0, listens⟩, stream, random⟩

/-- A client connects to a server that has bound its socket but does not listen yet. -/
theorem connect_to_unlistening_crashes : ∃ es w, Run Step threeHosts es w ∧
    w.getInfosSocket 1 3 = some 1 ∧ w.getDomainSocket 1 3 = 2 ∧
    w.socketGetFlags 1 3 &&& oNonblock = 0 ∧
    w.syscallConnectPre 1 3 ⟨10, 80⟩ = .error .segfault := by
  obtain ⟨es, w, run, found, inet, blocking, crashed⟩ := exists_run (fun _ _ => True) threeHosts
    [.socket 0 2 1 0 3, .bind 0 3 ⟨inaddrAny, 80⟩, .socket 1 2 1 0 3]
    (P := fun w => w.getInfosSocket 1 3 = some 1 ∧ w.getDomainSocket 1 3 = 2 ∧
      w.socketGetFlags 1 3 &&& oNonblock = 0 ∧
      (match w.syscallConnectPre 1 3 ⟨10, 80⟩ with
        | .error .segfault => true
        | _ => false) = true) (by decide)
  refine ⟨es, w, run.mono fun _ _ _ step => step.2, found, inet, blocking, ?_⟩
  split at crashed
  · assumption
  · cases crashed

end World

/-- The first turn of a connecting process is this handler. -/
theorem Meeting.turn_connect {H : Type} [DecidableEq H] {m : Meeting H} {proc : Pid} {sockfd : Int}
    {sai : SockaddrIn} (running : m.point proc = .running) :
    (m.turn (.connect proc sockfd sai)).map Meeting.world =
      (m.world.syscallConnectPre proc sockfd sai).map ConnectOutcome.world := by
  simp only [Meeting.turn, running, World.syscallConnectPre]
  cases m.world.processConnectInCall proc sockfd sai with
  | error halt => rfl
  | ok o =>
      change Except.map _ (if _ then _ else _) = Except.map _ (if _ then _ else _)
      split
      · cases o.world.connectStream proc sockfd with
        | error halt => rfl
        | ok r => rfl
      · rfl

end Simterpose

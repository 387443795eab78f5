import Simterpose.Streams

/-! # Whether client and server get the same stream

A server that enters `accept` puts a new stream on its listening socket, and every
client that connects from then on takes the stream it finds there and writes its own
name into it. The request that `accept` serves is the oldest one in the queue. The two
belong together as long as a client connects only while nobody else has joined the
stream; when two clients connect during one `accept`, the first is served with a stream
that bears the name of the second.
-/

namespace Simterpose

open Lib

namespace Streams

section

variable {H : Type} (srv : Pid) (listener : SockId) (q base : CommId) (a : Streams H)

/-- The socket `c` of process `p` is the client's end of the stream `t`. -/
structure ClientEnd (p : Pid) (fd : Int) (c : SockId) (t : StreamId) : Prop where
  opened : a.links.opened p fd = some c
  held : a.held (.socket c) = some t
  client : a.client t = some p
  toClient : a.toClient t = some (a.host p)

/-- The stream `t` is one the server made. -/
structure ServerEnd (t : StreamId) : Prop where
  server : a.server t = some srv
  toServer : a.toServer t = some (a.host srv)

/-- No client has joined the stream `t`, and no request waits. -/
structure Free (t : StreamId) : Prop where
  client : a.client t = none
  queue : a.links.connWait q = []

/-- One client has joined the stream `t`, and its request is the one that waits. -/
def Taken (t : StreamId) : Prop :=
  ∃ p fd c k, a.ClientEnd p fd c t ∧ a.links.comm c = some k ∧ a.links.info0 k = some c ∧
    a.links.connWait q = [k] ∧ base ≤ k

/-- Nobody waits, and the listener's last stream is used up. -/
structure Settled : Prop where
  queue : a.links.connWait q = []
  used : ∀ t, a.held (.socket listener) = some t → a.client t ≠ none

/-- The listener shows the server's stream `t`. -/
structure Shows (t : StreamId) : Prop where
  held : a.held (.socket listener) = some t
  serverEnd : a.ServerEnd srv t

/-- The client's socket `c` and the server's socket `n` share a stream with their names. -/
def Agree (c n : SockId) : Prop :=
  ∃ t p fd fd', a.ClientEnd p fd c t ∧ a.ServerEnd srv t ∧ a.links.opened srv fd' = some n ∧
    a.held (.socket n) = some t

/-- Open descriptors and the streams that have a client are as before. -/
structure Keeps (a' : Streams H) : Prop where
  host : a'.host = a.host
  opened : ∀ {p fd s}, a.links.opened p fd = some s → a'.links.opened p fd = some s
  client : ∀ {t}, a.client t ≠ none → t < a.next → a'.client t = a.client t
  toClient : ∀ {t}, a.client t ≠ none → t < a.next → a'.toClient t = a.toClient t
  server : ∀ {t}, t < a.next → a'.server t = a.server t
  toServer : ∀ {t}, t < a.next → a'.toServer t = a.toServer t

end

variable {H : Type} {srv : Pid} {a a' : Streams H}

theorem ClientEnd.keep {p : Pid} {fd : Int} {c : SockId} {t : StreamId}
    (clientEnd : a.ClientEnd p fd c t) (keeps : a.Keeps a') (old : t < a.next)
    (same : a'.held (.socket c) = a.held (.socket c)) : a'.ClientEnd p fd c t where
  opened := keeps.opened clientEnd.opened
  held := same.trans clientEnd.held
  client := (keeps.client (by simp [clientEnd.client]) old).trans clientEnd.client
  toClient := by
    rw [keeps.toClient (by simp [clientEnd.client]) old, keeps.host]
    exact clientEnd.toClient

theorem ServerEnd.keep {t : StreamId} (serverEnd : a.ServerEnd srv t) (keeps : a.Keeps a')
    (old : t < a.next) : a'.ServerEnd srv t where
  server := (keeps.server old).trans serverEnd.server
  toServer := by
    rw [keeps.toServer old, keeps.host]
    exact serverEnd.toServer

theorem Taken.used {q base : CommId} {t : StreamId} (taken : a.Taken q base t) :
    a.client t ≠ none := by
  obtain ⟨p, fd, c, k, clientEnd, -⟩ := taken
  simp [clientEnd.client]

end Streams

namespace Accord

section

variable {H : Type} (srv : Pid) (lfd : Int) (listener : SockId) (q base : CommId) (a : Accord H)

/-- What holds depends on where the server stands. -/
def ServerAt (a : Streams H) (permits : StreamId → Nat) : Point → Prop
  | .running => a.Settled listener q
  | .acceptOut _ ref => ref = .socket listener ∧ a.Settled listener q
  | .acceptIn sockfd ref => sockfd = lfd ∧ ref = .socket listener ∧
      ∃ t, a.Shows srv listener t ∧ (a.Free q t ∧ permits t = 0 ∨ a.Taken q base t)
  | .acceptTook sockfd ref | .acceptLook sockfd ref => sockfd = lfd ∧ ref = .socket listener ∧
      ∃ t, a.Shows srv listener t ∧ a.Taken q base t
  | .acceptKernel | .connectAsked .. | .connectWait .. | .connectPost .. => False

/-- Where the other processes can stand. -/
def ClientAt : Point → Prop
  | .running | .connectPost _ => True
  | .connectAsked _ c | .connectWait _ c => c ≠ listener
  | .acceptIn .. | .acceptTook .. | .acceptLook .. | .acceptOut .. | .acceptKernel => False

structure Orderly : Prop where
  live : a.links.Live
  opened : a.links.opened srv lfd = some listener
  comm : a.links.comm listener = some q
  older : q < base
  made : base ≤ a.links.nextComm
  heldLt : ∀ {ref t}, a.held ref = some t → t < a.next
  joined : ∀ {ref t}, ref ≠ .socket listener → a.held ref = some t → a.client t ≠ none
  clients : ∀ {p}, p ≠ srv → ClientAt listener (a.point p)
  server : ServerAt srv lfd listener q base a.toStreams a.permits (a.point srv)
  pairs : ∀ {c n k}, base ≤ k → a.links.comm c = some k → a.links.comm n = some k →
    a.links.info0 k = some c → a.links.info1 k = some n → a.Agree srv c n

end

variable {H : Type} {srv : Pid} {lfd : Int} {listener : SockId} {q base : CommId} {a a' : Accord H}

namespace Orderly

/-- The two sockets of a new connection are not the listener. -/
theorem ne_listener (orderly : a.Orderly srv lfd listener q base) {s : SockId} {k : CommId}
    (new : base ≤ k) (comm : a.links.comm s = some k) : s ≠ listener := by
  rintro rfl
  cases Option.some.inj (comm.symm.trans orderly.comm)
  exact Nat.lt_irrefl _ (Nat.lt_of_lt_of_le orderly.older new)

theorem agree_keep (orderly : a.Orderly srv lfd listener q base) {c n : SockId}
    (agree : a.Agree srv c n) (keeps : a.Keeps a'.toStreams)
    (sameClient : a'.held (.socket c) = a.held (.socket c))
    (sameServer : a'.held (.socket n) = a.held (.socket n)) : a'.Agree srv c n := by
  obtain ⟨t, p, fd, fd', clientEnd, serverEnd, opened, held⟩ := agree
  have old := orderly.heldLt held
  exact ⟨t, p, fd, fd', clientEnd.keep keeps old sameClient, serverEnd.keep keeps old,
    keeps.opened opened, sameServer.trans held⟩

/-- Only the server is in an `accept`. -/
theorem server_of_point (orderly : a.Orderly srv lfd listener q base) {proc : Pid} {p : Point}
    (here : a.point proc = p) (notClient : ¬ ClientAt listener p) : srv = proc := by
  by_cases same : proc = srv
  · exact same.symm
  · exact absurd (here ▸ orderly.clients same) notClient

/-- The server is in no `connect`. -/
theorem client_of_point (orderly : a.Orderly srv lfd listener q base) {proc : Pid} {p : Point}
    (here : a.point proc = p)
    (notServer : ¬ ServerAt srv lfd listener q base a.toStreams a.permits p) : proc ≠ srv := by
  rintro rfl
  exact notServer (here ▸ orderly.server)

/-- The listener's stream has no client only while the server waits in a fresh `accept`. -/
theorem free_of_unjoined (orderly : a.Orderly srv lfd listener q base) {t : StreamId}
    (held : a.held (.socket listener) = some t) (unjoined : a.client t = none) :
    a.point srv = .acceptIn lfd (.socket listener) ∧ a.ServerEnd srv t ∧ a.Free q t := by
  have server := orderly.server
  have taken : ∀ t', a.Shows srv listener t' → ¬ a.Taken q base t' := by
    intro t' shows taken
    cases Option.some.inj (held.symm.trans shows.held)
    exact taken.used unjoined
  cases here : a.point srv with
  | acceptIn sockfd ref =>
      rw [here] at server
      obtain ⟨rfl, rfl, t', shows, ⟨free, -⟩ | isTaken⟩ := server
      · cases Option.some.inj (held.symm.trans shows.held)
        exact ⟨rfl, shows.serverEnd, free⟩
      · exact absurd isTaken (taken t' shows)
  | running =>
      rw [here] at server
      exact absurd unjoined (server.used t held)
  | acceptOut =>
      rw [here] at server
      exact absurd unjoined (server.2.used t held)
  | acceptTook | acceptLook =>
      rw [here] at server
      obtain ⟨-, -, t', shows, isTaken⟩ := server
      exact absurd isTaken (taken t' shows)
  | acceptKernel | connectAsked | connectWait | connectPost =>
      rw [here] at server
      exact server.elim

theorem clients_reach (orderly : a.Orderly srv lfd listener q base) {proc : Pid} {p : Point}
    (atPoint : proc ≠ srv → ClientAt listener p) {p' : Pid} (other : p' ≠ srv) :
    ClientAt listener ((a.reach proc p).point p') := by
  by_cases same : p' = proc
  · subst same
    simpa [reach] using atPoint other
  · simpa [reach, same] using orderly.clients other

/-- The server goes on to a point at which what holds there holds already. -/
theorem reach_server (orderly : a.Orderly srv lfd listener q base) {p : Point}
    (server : ServerAt srv lfd listener q base a.toStreams a.permits p) :
    (a.reach srv p).Orderly srv lfd listener q base :=
  { orderly with
    clients := orderly.clients_reach fun other => absurd rfl other
    server := by
      have here : (a.reach srv p).point srv = p := Function.update_self ..
      rwa [here] }

/-- A client goes on. -/
theorem reach_client (orderly : a.Orderly srv lfd listener q base) {proc : Pid} {p : Point}
    (other : proc ≠ srv) (client : ClientAt listener p) :
    (a.reach proc p).Orderly srv lfd listener q base :=
  { orderly with
    clients := orderly.clients_reach fun _ => client
    server := by
      have here : (a.reach proc p).point srv = a.point srv := Function.update_of_ne other.symm ..
      rw [here]
      exact orderly.server }

/-- A semaphore operation on a stream that has a client. -/
theorem setPermits (orderly : a.Orderly srv lfd listener q base) {t : StreamId}
    (used : a.client t ≠ none) (n : Nat) :
    (a.setPermits t n).Orderly srv lfd listener q base := by
  refine { orderly with server := ?_ }
  have server := orderly.server
  have here : (a.setPermits t n).point srv = a.point srv := rfl
  rw [here]
  cases point : a.point srv with
  | acceptIn sockfd ref =>
      rw [point] at server
      obtain ⟨sameFd, sameRef, t', shows, ⟨free, zero⟩ | taken⟩ := server
      · have other : t' ≠ t := fun same => used (same ▸ free.client)
        refine ⟨sameFd, sameRef, t', shows, .inl ⟨free, ?_⟩⟩
        simpa [Accord.setPermits, other] using zero
      · exact ⟨sameFd, sameRef, t', shows, .inr taken⟩
  | running | acceptOut | acceptTook | acceptLook =>
      rw [point] at server
      exact server
  | acceptKernel | connectAsked | connectWait | connectPost =>
      rw [point] at server
      exact server.elim

theorem enter (orderly : a.Orderly srv lfd listener q base) (running : a.point srv = .running) :
    ((a.newStream (.socket listener) srv).reach srv (.acceptIn lfd (.socket listener))).Orderly
      srv lfd listener q base := by
  have settled : a.Settled listener q := by simpa [ServerAt, running] using orderly.server
  have kept : ∀ {β : Type} (f : StreamId → β) (b : β) {t}, t < a.next → Function.update f a.next b t = f t :=
    fun f b t old => Function.update_of_ne (Nat.ne_of_lt old) b f
  have keeps : a.Keeps (a.newStream (.socket listener) srv).toStreams :=
    { host := rfl, opened := id, client := fun _ => kept _ _, toClient := fun _ => kept _ _
      server := kept _ _, toServer := kept _ _ }
  have held : ∀ {ref}, ref ≠ .socket listener → (a.newStream (.socket listener) srv).held ref = a.held ref :=
    fun other => Function.update_of_ne other _ _
  have shown : (a.newStream (.socket listener) srv).held (.socket listener) = some a.next :=
    Function.update_self ..
  exact
    { live := orderly.live, opened := orderly.opened, comm := orderly.comm, older := orderly.older
      made := orderly.made
      heldLt := by
        intro ref t here
        by_cases same : ref = .socket listener
        · subst same
          cases Option.some.inj (shown.symm.trans here)
          exact Nat.lt_succ_self _
        · exact Nat.lt_succ_of_lt (orderly.heldLt ((held same).symm.trans here))
      joined := by
        intro ref t other here
        have before := (held other).symm.trans here
        have used := orderly.joined other before
        exact (keeps.client used (orderly.heldLt before)).trans_ne used
      clients := orderly.clients_reach fun other => absurd rfl other
      server := by
        have here : (reach (a.newStream (.socket listener) srv) srv
            (.acceptIn lfd (.socket listener))).point srv = _ := Function.update_self ..
        have free : (a.newStream (.socket listener) srv).Free q a.next :=
          ⟨Function.update_self .., settled.queue⟩
        have serverEnd : (a.newStream (.socket listener) srv).ServerEnd srv a.next :=
          ⟨Function.update_self .., Function.update_self ..⟩
        rw [here]
        exact ⟨rfl, rfl, a.next, ⟨shown, serverEnd⟩, .inl ⟨free, Function.update_self ..⟩⟩
      pairs := by
        intro c n k new client server first second
        exact orderly.agree_keep (orderly.pairs new client server first second) keeps
          (held (by simpa using orderly.ne_listener new client))
          (held (by simpa using orderly.ne_listener new server)) }

/-- A client that is not the server, on a socket that is not the listener, joins the stream the
    server offers. -/
theorem ask (orderly : a.Orderly srv lfd listener q base) {proc : Pid} {sockfd : Int} {c : SockId}
    {t : StreamId} (other : c ≠ listener) (opened : a.links.opened proc sockfd = some c)
    (held : a.held (.socket listener) = some t) (unjoined : a.client t = none) :
    ((a.ask c listener q).joinStream c t proc).Orderly srv lfd listener q base := by
  obtain ⟨point, serverEnd, free⟩ := orderly.free_of_unjoined held unjoined
  have olderQueue : q ≠ a.links.nextComm := Nat.ne_of_lt (orderly.live.sound.commLt orderly.comm)
  have heldSelf : ((a.ask c listener q).joinStream c t proc).held (.socket c) = some t :=
    Function.update_self ..
  have heldOther : ∀ {ref}, ref ≠ .socket c →
      ((a.ask c listener q).joinStream c t proc).held ref = a.held ref :=
    fun differs => Function.update_of_ne differs _ _
  have named : ((a.ask c listener q).joinStream c t proc).client t = some proc :=
    Function.update_self ..
  have differs : ∀ {t'}, a.client t' ≠ none → t' ≠ t := fun used same => used (same ▸ unjoined)
  have keeps : a.Keeps ((a.ask c listener q).joinStream c t proc).toStreams :=
    { host := rfl, opened := id, server := fun _ => rfl, toServer := fun _ => rfl
      client := fun used _ => Function.update_of_ne (differs used) _ _
      toClient := fun used _ => Function.update_of_ne (differs used) _ _ }
  refine
    { live := orderly.live.ask opened listener q
      opened := orderly.opened
      comm := (Function.update_of_ne other.symm _ _).trans orderly.comm
      older := orderly.older
      made := Nat.le_succ_of_le orderly.made
      clients := orderly.clients
      heldLt := ?_, joined := ?_, server := ?_, pairs := ?_ }
  · intro ref t' here
    by_cases same : ref = .socket c
    · subst same
      cases Option.some.inj (heldSelf.symm.trans here)
      exact orderly.heldLt held
    · exact orderly.heldLt ((heldOther same).symm.trans here)
  · intro ref t' notListener here
    by_cases same : ref = .socket c
    · subst same
      cases Option.some.inj (heldSelf.symm.trans here)
      simp [named]
    · have before := (heldOther same).symm.trans here
      have used := orderly.joined notListener before
      exact (keeps.client used (orderly.heldLt before)).trans_ne used
  · have here : ((a.ask c listener q).joinStream c t proc).point srv = _ := point
    rw [here]
    have queue : ((a.ask c listener q).joinStream c t proc).links.connWait q = [a.links.nextComm] := by
      simp [Accord.ask, joinStream, Links.ask, Links.setInfo1, Links.setConnWait, Links.commNew,
        olderQueue, free.queue]
    have shown := (heldOther (by simpa using other.symm)).trans held
    exact ⟨rfl, rfl, t, ⟨shown, serverEnd.server, serverEnd.toServer⟩,
      .inr ⟨proc, sockfd, c, a.links.nextComm, ⟨opened, heldSelf, named, Function.update_self ..⟩,
        Function.update_self .., Function.update_self .., queue, orderly.made⟩⟩
  · intro c' n k new client server first second
    by_cases fresh : k = a.links.nextComm
    · -- the new communication leads from the client to the listener
      subst fresh
      have isListener : n = listener := by
        simpa [Accord.ask, joinStream, Links.ask, Links.setInfo1, eq_comm] using second
      have isClient : n = c := orderly.live.sound.newComm.owner server
      exact absurd (isClient.symm.trans isListener) other
    · have notClient : ∀ {s}, ((a.ask c listener q).joinStream c t proc).links.comm s = some k → s ≠ c := by
        rintro s comm rfl
        exact fresh (Option.some.inj (comm.symm.trans (Function.update_self ..)))
      have before : ∀ {s}, ((a.ask c listener q).joinStream c t proc).links.comm s = some k →
          a.links.comm s = some k := by
        intro s comm
        exact (Function.update_of_ne (notClient comm) _ _).symm.trans comm
      have agree := orderly.pairs new (before client) (before server)
        ((Function.update_of_ne fresh _ _).symm.trans first)
        (by simpa [Accord.ask, joinStream, Links.ask, Links.setInfo1, Links.setConnWait,
          Links.commNew, fresh] using second)
      exact orderly.agree_keep agree keeps (heldOther (by simpa using notClient client))
        (heldOther (by simpa using notClient server))

/-- The server gives the waiting client's communication and stream to a new socket. -/
theorem serve (orderly : a.Orderly srv lfd listener q base) {newfd : Int} {k : CommId}
    {rest : List CommId} {t : StreamId} (shows : a.Shows srv listener t) (taken : a.Taken q base t)
    (unused : a.links.opened srv newfd = none) (queue : a.links.connWait q = k :: rest)
    (sockfd : Int) :
    ((a.serve srv newfd listener q k rest).reach srv (.acceptOut sockfd (.socket listener))).Orderly
      srv lfd listener q base := by
  have used := taken.used
  obtain ⟨p, fd, c, k', clientEnd, comm, first, waits, new⟩ := taken
  obtain ⟨rfl, rfl⟩ : k = k' ∧ rest = [] := by simpa [waits, eq_comm] using queue
  have older : ∀ {p' fd' s}, a.links.opened p' fd' = some s → s ≠ a.links.nextSocket :=
    fun opened => Nat.ne_of_lt (orderly.live.sound.openedLt opened)
  have heldSelf : (a.serve srv newfd listener q k []).held (.socket a.links.nextSocket) = some t :=
    (Function.update_self ..).trans shows.held
  have heldOther : ∀ {ref}, ref ≠ .socket a.links.nextSocket →
      (a.serve srv newfd listener q k []).held ref = a.held ref :=
    fun differs => Function.update_of_ne differs _ _
  have keeps : a.Keeps (a.serve srv newfd listener q k []).toStreams := by
    refine { host := rfl, client := fun _ _ => rfl, toClient := fun _ _ => rfl
             server := fun _ => rfl, toServer := fun _ => rfl, opened := ?_ }
    intro p' fd' s opened
    refine (if_neg ?_).trans opened
    rintro ⟨rfl, rfl⟩
    simp [unused] at opened
  have commOther : ∀ {s}, s ≠ a.links.nextSocket →
      (a.serve srv newfd listener q k []).links.comm s = a.links.comm s := by
    intro s differs
    simp [Accord.serve, Links.join, Links.setComm, Links.setInfo1, Links.setConnWait,
      Links.register, differs]
  have commSelf : (a.serve srv newfd listener q k []).links.comm a.links.nextSocket = some k :=
    Function.update_self ..
  have secondSelf : (a.serve srv newfd listener q k []).links.info1 k = some a.links.nextSocket :=
    Function.update_self ..
  have old := orderly.heldLt shows.held
  refine
    { live := orderly.live.join srv newfd listener waits
      opened := keeps.opened orderly.opened
      comm := (commOther (older orderly.opened)).trans orderly.comm
      older := orderly.older
      made := orderly.made
      clients := orderly.clients_reach fun differs => absurd rfl differs
      heldLt := ?_, joined := ?_, server := ?_, pairs := ?_ }
  · intro ref t' here
    by_cases same : ref = .socket a.links.nextSocket
    · subst same
      cases Option.some.inj (heldSelf.symm.trans here)
      exact old
    · exact orderly.heldLt ((heldOther same).symm.trans here)
  · intro ref t' notListener here
    by_cases same : ref = .socket a.links.nextSocket
    · subst same
      cases Option.some.inj (heldSelf.symm.trans here)
      exact used
    · exact orderly.joined notListener ((heldOther same).symm.trans here)
  · have here : ((a.serve srv newfd listener q k []).reach srv
        (.acceptOut sockfd (.socket listener))).point srv = _ := Function.update_self ..
    rw [here]
    refine ⟨rfl, ?_, fun t' shown => ?_⟩
    · simp [Accord.serve, reach, Links.join, Links.setComm, Links.setInfo1, Links.setConnWait]
    · have same := (heldOther (by simpa using older orderly.opened)).symm.trans shown
      cases Option.some.inj (shows.held.symm.trans same)
      exact used
  · intro c' n k' new' client server first' second
    by_cases fresh : k' = k
    · subst fresh
      obtain rfl : c = c' := Option.some.inj (first.symm.trans first')
      obtain rfl : a.links.nextSocket = n := Option.some.inj (secondSelf.symm.trans second)
      have differs := older clientEnd.opened
      exact ⟨t, p, fd, newfd, clientEnd.keep keeps old (heldOther (by simpa using differs)),
        shows.serverEnd.keep keeps old, if_pos ⟨rfl, rfl⟩, heldSelf⟩
    · have notNew : ∀ {s}, (a.serve srv newfd listener q k []).links.comm s = some k' →
          s ≠ a.links.nextSocket := by
        rintro s attached rfl
        exact fresh (Option.some.inj (attached.symm.trans commSelf))
      have agree := orderly.pairs new' ((commOther (notNew client)).symm.trans client)
        ((commOther (notNew server)).symm.trans server) first'
        ((Function.update_of_ne fresh _ _).symm.trans second)
      exact orderly.agree_keep agree keeps (heldOther (by simpa using notNew client))
        (heldOther (by simpa using notNew server))

/-- Every turn keeps connects and accepts in order. -/
theorem step (orderly : a.Orderly srv lfd listener q base) (step : Step srv lfd a a') :
    a'.Orderly srv lfd listener q base := by
  have server := orderly.server
  cases step with
  | refused => exact orderly
  | @enter ref running opened =>
      obtain rfl : ref = .socket listener := by
        rw [orderly.opened] at opened
        cases ref with
        | plain d => cases opened
        | socket s => exact congrArg DescRef.socket (Option.some.inj opened).symm
      exact orderly.enter running
  | @ask proc sockfd c listener' q' t running opened isServer comm held unjoined =>
      obtain rfl : listener = listener' := Option.some.inj (orderly.opened.symm.trans isServer)
      have notServer : proc ≠ srv := by
        rintro rfl
        have point := (orderly.free_of_unjoined held unjoined).1
        rw [running] at point
        cases point
      have other : c ≠ listener := by
        rintro rfl
        exact notServer (orderly.live.single orderly.opened opened).1
      obtain rfl : q = q' := by
        have before := (Function.update_of_ne other.symm _ _).symm.trans comm
        exact Option.some.inj (orderly.comm.symm.trans before)
      exact (orderly.ask other opened held unjoined).reach_client notServer other
  | take here held permit =>
      obtain rfl := orderly.server_of_point here id
      rw [here] at server
      obtain ⟨rfl, rfl, t', shows, ⟨free, zero⟩ | taken⟩ := server
      · cases Option.some.inj (held.symm.trans shows.held)
        rw [zero] at permit
        cases permit
      · cases Option.some.inj (held.symm.trans shows.held)
        exact (orderly.setPermits taken.used _).reach_server ⟨rfl, rfl, _, shows, taken⟩
  | grant here =>
      obtain rfl := orderly.server_of_point here id
      rw [here] at server
      exact orderly.reach_server server
  | @serve proc sockfd newfd ref listener' q' k rest here opened unused comm queue =>
      obtain rfl := orderly.server_of_point here id
      rw [here] at server
      obtain ⟨rfl, rfl, t, shows, taken⟩ := server
      obtain rfl : listener = listener' := Option.some.inj (orderly.opened.symm.trans opened)
      obtain rfl : q = q' := Option.some.inj (orderly.comm.symm.trans comm)
      exact orderly.serve shows taken unused queue _
  | nobody here empty =>
      obtain rfl := orderly.server_of_point here id
      rw [here] at server
      obtain ⟨rfl, rfl, t, shows, p, fd, c, k, -, -, -, queue, -⟩ := server
      rw [empty listener q orderly.opened orderly.comm] at queue
      cases queue
  | takeAgain here held permit =>
      obtain rfl := orderly.server_of_point here id
      rw [here] at server
      obtain ⟨rfl, settled⟩ := server
      exact (orderly.setPermits (settled.used _ held) _).reach_server settled
  | @release proc sockfd c t here held =>
      have notServer := orderly.client_of_point here id
      have other : c ≠ listener := by
        have client := orderly.clients notServer
        rwa [here] at client
      have used := orderly.joined (by simpa using other) held
      exact (orderly.setPermits used _).reach_client notServer other
  | @granted proc sockfd c here =>
      exact orderly.reach_client (orderly.client_of_point here id) trivial
  | @post proc sockfd ref t here opened held =>
      have notServer := orderly.client_of_point here id
      have other : ref ≠ .socket listener := by
        rintro rfl
        exact notServer (orderly.live.single orderly.opened opened).1
      exact (orderly.setPermits (orderly.joined other held) _).reach_client notServer trivial

end Orderly

end Accord

namespace World

variable {H : Type} {w₀ w w' : World H}

theorem recvMailbox_client {p : Pid} {t : StreamId} {host : H}
    (client : (w.stream t).client = some p) (toClient : (w.stream t).toClient = some host) :
    w.recvMailbox p (some t) = .ok host := by
  simp [recvMailbox, client, toClient]

theorem recvMailbox_server {p : Pid} {t : StreamId} {host : H}
    (other : (w.stream t).client ≠ some p) (server : (w.stream t).server = some p)
    (toServer : (w.stream t).toServer = some host) : w.recvMailbox p (some t) = .ok host := by
  simp [recvMailbox, other, server, toServer]

variable [DecidableEq H]

/-- The calls that set up sockets before anybody connects. -/
def Prepares (_ : World H) (label : Op × Event H) : Prop :=
  match label.1 with
  | .socket .. | .bind .. | .listen .. => True
  | _ => False

instance (w : World H) : (label : Op × Event H) → Decidable (w.Prepares label)
  | (.socket .., _) | (.bind .., _) | (.listen .., _) => .isTrue trivial
  | (.connect .., _) | (.accept .., _) | (.send .., _) | (.close .., _) | (.dup .., _) |
    (.dup2 .., _) => .isFalse id

theorem held_bindTo (host : H) (sai : SockaddrIn) (is : SockId) :
    (w.bindTo host sai is).held = w.held := by
  have registered : (w.registerPort host sai.port.toNat).held = w.held := rfl
  have bound : ∀ v : World H,
      (v.setPortOnBinding host sai.port.toNat is (bindDevice sai.addr)).held = v.held := by
    intro v
    unfold setPortOnBinding
    split
    · rfl
    · exact held_modifySocket_same _ is (by intro; rfl)
  have flagged : ∀ v : World H,
      (v.modifySocket is fun s => { s with binded := true }).held = v.held := fun v =>
    v.held_modifySocket_same is (by intro; rfl)
  have addressed : ∀ v : World H, (v.setAddress is sai.addr sai.port.toNat).held = v.held :=
    fun v => v.held_modifySocket_same is (by intro; rfl)
  simp only [bindTo, addressed, flagged, bound, registered]

/-- Setting up sockets makes no stream. -/
theorem held_of_prepared (initial : w₀.Initial) (unheld : ∀ ref, w₀.held ref = none)
    {es : List (Op × Event H)} (run : Run (Guarded Prepares Step) w₀ es w) :
    w.links.Live ∧ ∀ ref, w.held ref = none := by
  refine run.invariant (fun w => w.links.Live ∧ ∀ ref, w.held ref = none) ⟨initial.live, unheld⟩ ?_
  rintro w label w' ⟨live, unheld⟩ ⟨prepares, step⟩
  have effect := step.effect_of_sound live.sound
  refine ⟨live.step ?_ effect.links, fun ref => ?_⟩
  · obtain ⟨op, ev⟩ := label
    cases op <;> first | rfl | exact prepares.elim
  · cases effect with
    | quiet => exact unheld ref
    | socket free =>
        rw [held_confirmRegisterSocket, Function.update_apply, unheld]
        exact ite_self _
    | bind => rw [held_bindTo, unheld]
    | @listen _ _ is =>
        have kept : ((w.commNew is).commSetListen w.comms.next).held = (w.commNew is).held := rfl
        rw [kept, held_commNew, unheld]
    | connect | accept | send | close | dup | dup2 => exact prepares.elim

end World

namespace Meeting

variable {H : Type} {srv : Pid} {lfd : Int} {m₀ m : Meeting H} {es : List Turn}

/-- The process `srv` listens at its descriptor `lfd`, nobody waits for it, no call is under
    way, and the streams there are belong to clients. -/
structure Ready (srv : Pid) (lfd : Int) (m : Meeting H) : Prop where
  live : m.world.links.Live
  listening : ∃ s k, m.world.getInfosSocket srv lfd = some s ∧ (m.world.socket s).comm = some k ∧
    (m.world.comm k).connWait = []
  streams : ∀ ref t, (m.world.fileDesc ref).stream = some t →
    t < m.world.streams.next ∧ (m.world.stream t).client ≠ none
  running : ∀ proc, m.point proc = .running

theorem Ready.orderly (ready : Ready srv lfd m) :
    ∃ listener q, m.accord.Orderly srv lfd listener q m.world.comms.next := by
  obtain ⟨listener, q, found, comm, queue⟩ := ready.listening
  have sound := ready.live.sound
  refine ⟨listener, q,
    { live := ready.live, comm := comm, made := Nat.le_refl _
      opened := (m.world.getInfosSocket_eq_opened srv lfd).symm.trans found
      older := sound.commLt comm
      heldLt := fun held => (ready.streams _ _ held).1
      joined := fun _ held => (ready.streams _ _ held).2
      clients := ?_, server := ?_, pairs := ?_ }⟩
  · intro p _
    have running : m.accord.point p = .running := ready.running p
    rw [running]
    trivial
  · have running : m.accord.point srv = .running := ready.running srv
    rw [running]
    exact ⟨queue, fun t held => (ready.streams _ _ held).2⟩
  · intro c n k new client
    exact absurd (Nat.lt_of_lt_of_le (sound.commLt client) new) (Nat.lt_irrefl _)

variable [DecidableEq H]

/-- The turns of one server, one client at a time. -/
def OneAtATime (srv : Pid) (lfd : Int) (m : Meeting H) (turn : Turn) : Prop :=
  OneServer srv lfd m turn ∧ Unjoined m turn

instance (srv : Pid) (lfd : Int) (m : Meeting H) :
    (turn : Turn) → Decidable (OneServer srv lfd m turn)
  | .accept _ _ => inferInstanceAs (Decidable (_ ∧ _))
  | .connect proc sockfd sai => inferInstanceAs (Decidable (∀ s ∈ m.world.asks proc sockfd sai, _ ∧ _))
  | .proceed _ newfd => inferInstanceAs (Decidable (newfd ≥ 0))

instance (m : Meeting H) : (turn : Turn) → Decidable (Unjoined m turn)
  | .connect proc sockfd sai =>
      inferInstanceAs (Decidable (∀ s ∈ m.world.asks proc sockfd sai,
        ∀ t ∈ (m.world.socket s).fd.stream, (m.world.stream t).client = none))
  | .accept .. | .proceed .. => .isTrue trivial

instance (m : Meeting H) (turn : Turn) : Decidable (OneAtATime srv lfd m turn) :=
  inferInstanceAs (Decidable (_ ∧ _))

theorem orderly_of_run {listener : SockId} {q base : CommId}
    (orderly : m₀.accord.Orderly srv lfd listener q base)
    (run : Run (Guarded (OneAtATime srv lfd) Step) m₀ es m) :
    m.accord.Orderly srv lfd listener q base :=
  run.invariant (fun m => m.accord.Orderly srv lfd listener q base) orderly
    fun _ _ _ orderly step =>
      orderly.step (step.2.accord orderly.live.sound step.1.1 step.1.2)

/-- The two ends of a connection made in a run have one stream, with the names of the two
    processes, and both processes find their mailboxes in it. -/
theorem connection_has_one_stream (ready : Ready srv lfd m₀)
    (run : Run (Guarded (OneAtATime srv lfd) Step) m₀ es m) {c n : SockId} {k : CommId}
    (new : m₀.world.comms.next ≤ k) (client : (m.world.socket c).comm = some k)
    (server : (m.world.socket n).comm = some k) (first : (m.world.comm k).info0.socket = some c)
    (second : (m.world.comm k).info1.socket = some n) :
    ∃ t p, (m.world.socket c).fd.stream = some t ∧ (m.world.socket n).fd.stream = some t ∧
      (m.world.stream t).server = some srv ∧ (∃ fd, m.world.getInfosSocket srv fd = some n) ∧
      (m.world.stream t).client = some p ∧ (∃ fd, m.world.getInfosSocket p fd = some c) ∧
      (∀ p' fd, m.world.getInfosSocket p' fd = some c → p' = p) ∧
      m.world.recvMailbox srv (some t) = .ok (m.world.procs srv).host ∧
      m.world.recvMailbox p (some t) = .ok (m.world.procs p).host := by
  obtain ⟨listener, q, orderly⟩ := ready.orderly
  have orderly := orderly_of_run orderly run
  have found := m.world.getInfosSocket_eq_opened
  obtain ⟨t, p, fd, fd', clientEnd, serverEnd, opened, held⟩ :=
    orderly.pairs new client server first second
  have atClient := World.recvMailbox_client clientEnd.client clientEnd.toClient
  have atServer : m.world.recvMailbox srv (some t) = .ok (m.world.procs srv).host := by
    by_cases same : p = srv
    · exact same ▸ atClient
    · refine World.recvMailbox_server ?_ serverEnd.server serverEnd.toServer
      intro isServer
      exact same (Option.some.inj (clientEnd.client.symm.trans isServer))
  refine ⟨t, p, clientEnd.held, held, serverEnd.server, ⟨fd', (found _ _).trans opened⟩,
    clientEnd.client, ⟨fd, (found _ _).trans clientEnd.opened⟩, ?_, atServer, atClient⟩
  intro p' fd'' there
  exact (orderly.live.single clientEnd.opened ((found _ _).symm.trans there)).1

/-- A server on host 0 listens, and two clients have sockets. -/
def setUp : List Op :=
  [.socket 0 2 1 0 3, .bind 0 3 ⟨0, 80⟩, .listen 0 3, .socket 1 2 1 0 3, .socket 2 2 1 0 3]

/-- The first client connects while the server accepts. -/
def firstJoins : List Turn :=
  [.accept 0 3, .connect 1 3 ⟨10, 80⟩, .proceed 1 0, .proceed 0 0, .proceed 0 0, .proceed 1 0,
    .proceed 0 4, .proceed 1 0, .proceed 0 0]

theorem ready_of_prepared {w₀ w : World H} {es : List (Op × Event H)} (initial : w₀.Initial)
    (unheld : ∀ ref, w₀.held ref = none) (run : Run (Guarded World.Prepares World.Step) w₀ es w)
    (listening : ∃ s ∈ w.getInfosSocket srv lfd, ∃ k ∈ (w.socket s).comm, (w.comm k).connWait = []) :
    Ready srv lfd (start w) := by
  obtain ⟨live, unheld⟩ := World.held_of_prepared initial unheld run
  obtain ⟨s, found, k, comm, queue⟩ := listening
  refine { live := live, listening := ⟨s, k, found, comm, queue⟩, running := fun _ => rfl, streams := ?_ }
  intro ref t held
  exact absurd ((unheld ref).symm.trans held) (by simp)

/-- Turns after these calls. -/
theorem exists_meeting (guard : Meeting (Fin 3) → Turn → Prop) [∀ m turn, Decidable (guard m turn)]
    (turns : List Turn) {P : Meeting (Fin 3) → Meeting (Fin 3) → Prop}
    (found : ∃ r₀ ∈ World.threeHosts.execute World.Prepares setUp,
      (∃ s ∈ r₀.2.getInfosSocket 0 3, ∃ k ∈ (r₀.2.socket s).comm, (r₀.2.comm k).connWait = []) ∧
      ∃ r ∈ (start r₀.2).execute guard turns, P (start r₀.2) r.2) :
    ∃ m₀ m es, Ready 0 3 m₀ ∧ Run (Guarded guard Step) m₀ es m ∧ P m₀ m := by
  obtain ⟨⟨es₀, w⟩, prepared, listening, met⟩ := found
  obtain ⟨_, w, run, rfl⟩ := World.exists_run World.Prepares World.threeHosts setUp
    (P := fun w' => w' = w) ⟨_, prepared, rfl⟩
  have ready := ready_of_prepared (World.boot_initial _ _ _) (by rintro (_ | _) <;> rfl) run listening
  obtain ⟨es, m, met, holds⟩ := exists_run met
  exact ⟨start w, m, es, ready, met, holds⟩

/-- Two clients are accepted one after the other. -/
theorem two_connections_have_one_stream_each : ∃ (m₀ m : Meeting (Fin 3)) (es : List Turn),
    Ready 0 3 m₀ ∧ Run (Guarded (OneAtATime 0 3) Step) m₀ es m ∧
    m.world.getInfosSocket 0 5 = some 4 ∧ m.world.commGetPeer 4 = .ok (some 2) ∧
    ∃ t p, (m.world.socket 2).fd.stream = some t ∧ (m.world.socket 4).fd.stream = some t ∧
      (m.world.stream t).server = some 0 ∧ (∃ fd, m.world.getInfosSocket 0 fd = some 4) ∧
      (m.world.stream t).client = some p ∧ (∃ fd, m.world.getInfosSocket p fd = some 2) ∧
      (∀ p' fd, m.world.getInfosSocket p' fd = some 2 → p' = p) ∧
      m.world.recvMailbox 0 (some t) = .ok (m.world.procs 0).host ∧
      m.world.recvMailbox p (some t) = .ok (m.world.procs p).host := by
  obtain ⟨m₀, m, es, ready, run, new, found, peer, client, server, first, second⟩ :=
    exists_meeting (OneAtATime 0 3)
      (firstJoins ++ [.accept 0 3, .connect 2 3 ⟨10, 80⟩, .proceed 2 0, .proceed 0 0, .proceed 0 0,
        .proceed 0 5])
      (P := fun m₀ m => m₀.world.comms.next ≤ 2 ∧ m.world.getInfosSocket 0 5 = some 4 ∧
        m.world.commGetPeer 4 = .ok (some 2) ∧ (m.world.socket 2).comm = some 2 ∧
        (m.world.socket 4).comm = some 2 ∧ (m.world.comm 2).info0.socket = some 2 ∧
        (m.world.comm 2).info1.socket = some 4) (by decide)
  exact ⟨m₀, m, es, ready, run, found, peer,
    connection_has_one_stream ready run new client server first second⟩

/-- Two clients connect during one `accept`: the first one is accepted, but the stream bears
    the name of the second, and the first one's receive stops the simulator. -/
theorem accepted_client_not_in_stream : ∃ (m₀ m : Meeting (Fin 3)) (es : List Turn),
    Ready 0 3 m₀ ∧ Run (Guarded (OneServer 0 3) Step) m₀ es m ∧
    m.point 0 = .running ∧ m.world.getInfosSocket 0 4 = some 3 ∧
    m.world.commGetPeer 3 = .ok (some 1) ∧ m.world.commGetPeer 1 = .ok (some 3) ∧
    m.world.getInfosSocket 1 3 = some 1 ∧ (m.world.socket 1).fd.stream = some 0 ∧
    (m.world.socket 3).fd.stream = some 0 ∧ (m.world.stream 0).client = some 2 ∧
    m.world.recvMailbox 1 (m.world.socket 1).fd.stream = .error .throwImpossible :=
  exists_meeting (OneServer 0 3)
    [.accept 0 3, .connect 1 3 ⟨10, 80⟩, .connect 2 3 ⟨10, 80⟩, .proceed 1 0, .proceed 2 0,
      .proceed 0 0, .proceed 0 0, .proceed 0 4, .proceed 0 0]
    (P := fun _ m => m.point 0 = .running ∧ m.world.getInfosSocket 0 4 = some 3 ∧
      m.world.commGetPeer 3 = .ok (some 1) ∧ m.world.commGetPeer 1 = .ok (some 3) ∧
      m.world.getInfosSocket 1 3 = some 1 ∧ (m.world.socket 1).fd.stream = some 0 ∧
      (m.world.socket 3).fd.stream = some 0 ∧ (m.world.stream 0).client = some 2 ∧
      m.world.recvMailbox 1 (m.world.socket 1).fd.stream = .error .throwImpossible) (by decide)

end Meeting

end Simterpose

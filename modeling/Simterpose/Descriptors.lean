import Simterpose.Communication

/-! # Closing and duplicating descriptors

`process_close_call`, `socket_close` and the exits of `dup` and `dup2`. The loops over
the ends of a pipe change the array they walk through, so they are kept as index
loops: `xbt_dynar_foreach` compares its index with the current length each time.
-/

namespace Simterpose

open Lib

/-- The closing loop over an end list. Removing an element steps the index back, so each
    round brings the index one closer to the end, and `rounds` starts at the length. -/
def removeEnds (fd : Int) (proc : Pid) : (rounds index : Nat) → List PipeEnd → List PipeEnd
  | 0, _, ends => ends
  | rounds + 1, index, ends =>
      match ends[index]? with
      | none => ends
      | some e =>
          if e.fd = fd ∧ e.proc = proc then removeEnds fd proc rounds index (ends.eraseIdx index)
          else removeEnds fd proc rounds (index + 1) ends

/-- The duplicating loop over an end list, which appends while it walks. It visits the
    old elements and those it appends; when the latter match again it never ends. -/
def copyEnds (oldfd newfd : Int) (proc : Pid) :
    (rounds index : Nat) → List PipeEnd → Option (List PipeEnd)
  | 0, _, _ => none
  | rounds + 1, index, ends =>
      match ends[index]? with
      | none => some ends
      | some e =>
          if e.fd = oldfd ∧ e.proc = proc then
            copyEnds oldfd newfd proc rounds (index + 1) (ends ++ [{ fd := newfd, proc := e.proc }])
          else copyEnds oldfd newfd proc rounds (index + 1) ends

namespace World

section

variable {H : Type} (w : World H)

/-- Both ends of a pipe lose the closed descriptor; a pipe without ends is freed. -/
def closePipe (proc : Pid) (fd : Int) (pipe : PipeId) : World H :=
  let ends := w.pipes.cell pipe
  let readEnd := removeEnds fd proc ends.readEnd.length 0 ends.readEnd
  let writeEnd := removeEnds fd proc ends.writeEnd.length 0 ends.writeEnd
  let pipes := w.pipes.modify pipe fun _ => { readEnd, writeEnd }
  { w with pipes := if readEnd.isEmpty && writeEnd.isEmpty then pipes.free pipe else pipes }

/-- The last part of `dup` and `dup2`: a duplicated pipe descriptor is one more end. -/
def dupPipe (proc : Pid) (oldfd newfd : Int) (ref : DescRef) : Result (World H) :=
  if (w.fileDesc ref).type = .pipe then
    match (w.fileDesc ref).pipe with
    | none => .error .segfault
    | some pipe =>
        let ends := w.pipes.cell pipe
        match copyEnds oldfd newfd proc (2 * ends.readEnd.length + 1) 0 ends.readEnd,
            copyEnds oldfd newfd proc (2 * ends.writeEnd.length + 1) 0 ends.writeEnd with
        | some readEnd, some writeEnd =>
            .ok { w with pipes := w.pipes.modify pipe fun _ => { readEnd, writeEnd } }
        | _, _ => .error .endless
  else .ok w

/-- `syscall_dup_post`; `newfd` is the kernel's result, looked at by no test. -/
def syscallDupPost (proc : Pid) (oldfd newfd : Int) : Result (World H) :=
  match w.processDescriptorGetFd proc oldfd with
  | none => .error .segfault
  | some ref =>
      ((w.addRefcount ref 1).processDescriptorSetFd proc newfd (some ref)).dupPipe proc oldfd newfd ref

end

variable {H : Type} [DecidableEq H] (w : World H)

/-- The test in the middle of `socket_close`. -/
def detachSocket (proc : Pid) (fd : Int) (is : SockId) : Result (World H) :=
  if w.socketNetwork proc fd then w.commClose is else .ok (w.freeSocket is)

/-- `socket_close` -/
def socketClose (proc : Pid) (fd : Int) : Result (World H) :=
  match w.getInfosSocket proc fd with
  | none => .ok w
  | some is => do
      let w := (w.addRefcount (.socket is) (-1)).addRefNb is (-1)
      let w ← w.detachSocket proc fd is
      return w.processDescriptorSetFd proc fd none

/-- The tests of `process_close_call` on the type of the descriptor. -/
def closeByType (proc : Pid) (fd : Int) (ref : DescRef) : Result (World H) :=
  match (w.fileDesc ref).type, (w.fileDesc ref).pipe, ref with
  | .socket, _, .socket _ => w.socketClose proc fd
  -- a plain record with the tag of a socket, which `get_infos_socket` casts to one
  | .socket, _, .plain _ => .error .outOfBounds
  | .pipe, some pipe, _ => .ok (w.closePipe proc fd pipe)
  | .pipe, none, _ => .error .xbtAssert
  | _, _, _ => .ok w

/-- `process_close_call` -/
def processCloseCall (proc : Pid) (fd : Int) : Result (World H) :=
  match w.processDescriptorGetFd proc fd with
  | none => .ok w
  | some ref => do
      let w ← (w.addRefcount ref 1).closeByType proc fd ref
      return (w.addRefcount ref (-1)).processDescriptorSetFd proc fd none

/-- The descriptor `dup2` finds at its target is closed first. -/
def closeTarget (proc : Pid) (newfd : Int) : Result (World H) :=
  match w.processDescriptorGetFd proc newfd with
  | some old => (w.addRefcount old (-1)).processCloseCall proc newfd
  | none => .ok w

/-- `syscall_dup2_post`; the kernel's result is not looked at. -/
def syscallDup2Post (proc : Pid) (oldfd newfd : Int) : Result (World H) :=
  match w.processDescriptorGetFd proc oldfd with
  | none => .error .segfault
  | some ref => do
      let w ← (w.addRefcount ref 1).closeTarget proc newfd
      (w.processDescriptorSetFd proc newfd (some ref)).dupPipe proc oldfd newfd ref

end World

end Simterpose

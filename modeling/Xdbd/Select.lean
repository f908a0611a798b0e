import Xdbd.State

/-!
# The select module

`xdbd_select.c`: the registry `event_index` with the back index in each event, the two
master descriptor sets, the cached `max_fd`, and the posting of ready events.
-/
namespace Xdbd

/-- `XDBD_READ_EVENT` or `XDBD_WRITE_EVENT`. -/
inductive Dir
  | read
  | write
  deriving DecidableEq, Repr

/-- One answer of the kernel to `select`: an error, or the number of ready descriptors with
the two working sets. -/
inductive SelectResult
  | fail (ebadf : Bool)
  | ready (n : ℤ) (readSet writeSet : Finset ℤ)

/-- The kernel under the select module: `select` of the descriptor bound and the two master
sets, and whether `getsockopt` accepts a descriptor. -/
structure Kernel where
  select : ℤ → Finset ℤ → Finset ℤ → SelectResult
  getsockopt : ℤ → Bool

namespace World

/-- A descriptor is passed to `FD_SET`, `FD_CLR` or `FD_ISSET`. Descriptor sets are sets of integers
here; outside of 0 to `FD_SETSIZE` these macros are undefined, so each argument is kept. -/
def useFd (w : World) (s : ℤ) : World := { w with fdArgs := insert s w.fdArgs }

def fdSet (w : World) (s : ℤ) : Dir → World
  | .read => { w.useFd s with masterRead := insert s w.masterRead }
  | .write => { w.useFd s with masterWrite := insert s w.masterWrite }

def fdClr (w : World) (s : ℤ) : Dir → World
  | .read => { w.useFd s with masterRead := w.masterRead.erase s }
  | .write => { w.useFd s with masterWrite := w.masterWrite.erase s }

/-- `xdbd_select_init`, with the memory of `event_index` or `none` if its allocation fails. -/
def selectInit (w : World) (index : Option (ℕ → Ev)) : Except Fault (Rc × World) :=
  if w.nevents ≠ 0 then .error .assertion
  else
    let w := { w with masterRead := ∅, masterWrite := ∅ }
    match index with
    | none => .ok (.err, w)
    | some arr => .ok (.ok, { w with eventIndex := arr, maxFd := -1 })

def selectAddEvent (w : World) (ev : Ev) (event : Dir) : Rc × World :=
  if (w.event ev).index ≠ none then (.ok, w)
  else
    let fd := w.fd ev
    let w := w.fdSet fd event
    let w := { w with maxFd := if w.maxFd ≠ -1 ∧ w.maxFd < fd then fd else w.maxFd }
    let w := w.modEvent ev fun e => { e with active := true }
    let w := { w with eventIndex := Function.update w.eventIndex w.nevents ev }
    let w := w.modEvent ev fun e => { e with index := some w.nevents }
    (.ok, { w with nevents := w.nevents + 1 })

/-- `xdbd_select_del_event`; the last entry of the index moves into the hole, and `active`
is left as it is. -/
def selectDelEvent (w : World) (ev : Ev) (event : Dir) : Rc × World :=
  match (w.event ev).index with
  | none => (.err, w)
  | some k =>
    let fd := w.fd ev
    let w := w.fdClr fd event
    let w := { w with maxFd := if fd = w.maxFd then -1 else w.maxFd }
    let w := { w with nevents := w.nevents - 1 }
    let w :=
      if k < w.nevents then
        let e := w.eventIndex w.nevents
        let w := { w with eventIndex := Function.update w.eventIndex k e }
        w.modEvent e fun x => { x with index := some k }
      else w
    (.ok, w.modEvent ev fun e => { e with index := none })

/-- `xdbd_handle_read_event`, with `closeEvent` for `flags & XDBD_CLOSE_EVENT`. -/
def handleReadEvent (w : World) (rev : Ev) (closeEvent : Bool) : Rc × World :=
  if (w.event rev).active = false ∧ (w.event rev).ready = false then
    match w.selectAddEvent rev .read with
    | (.err, w) => (.err, w)
    | (_, w) =>
      if (w.event rev).active ∧ ((w.event rev).ready ∨ closeEvent) then
        match w.selectDelEvent rev .read with
        | (.err, w) => (.err, w)
        | (_, w) => (.ok, w)
      else (.ok, w)
  else (.ok, w)

def handleWriteEvent (w : World) (wev : Ev) : Rc × World :=
  if (w.event wev).active = false ∧ (w.event wev).ready = false then
    match w.selectAddEvent wev .write with
    | (.err, w) => (.err, w)
    | (_, w) => (.ok, w)
  else if (w.event wev).active ∧ (w.event wev).ready then
    match w.selectDelEvent wev .write with
    | (.err, w) => (.err, w)
    | (_, w) => (.ok, w)
  else (.ok, w)

/-- The loops of `xdbd_select_repair_fd_sets` over `0 .. max_fd`. -/
def selectRepairFdSets (w : World) (getsockopt : ℤ → Bool) : World :=
  { w with
    masterRead := w.masterRead.filter fun s => s < 0 ∨ w.maxFd < s ∨ getsockopt s
    masterWrite := w.masterWrite.filter fun s => s < 0 ∨ w.maxFd < s ∨ getsockopt s
    fdArgs := w.fdArgs ∪ (Finset.range (w.maxFd + 1).toNat).image fun s : ℕ => (s : ℤ)
    maxFd := -1 }

def registered (w : World) : List Ev := (List.range w.nevents).map w.eventIndex

/-- The recomputation of `max_fd` at the head of `xdbd_select_process_events`. -/
def refreshMaxFd (w : World) : World :=
  if w.maxFd = -1 then
    { w with maxFd := w.registered.foldl (fun m e => if m < w.fd e then w.fd e else m) (-1) }
  else w

/-- `nfds` as it is passed to `select`. -/
def nfds (w : World) : ℤ := w.refreshMaxFd.maxFd + 1

/-- Whether the working sets have the bit of an event. -/
def found (w : World) (readSet writeSet : Finset ℤ) (ev : Ev) : Bool :=
  if (w.event ev).write then w.fd ev ∈ writeSet else w.fd ev ∈ readSet

def postEvent (w : World) (ev : Ev) : World :=
  if (w.event ev).posted then w
  else
    let w := w.modEvent ev fun e => { e with posted := true }
    if (w.event ev).accepted then
      { w with postedAcceptEvents := w.postedAcceptEvents ++ [ev] }
    else { w with postedEvents := w.postedEvents ++ [ev] }

/-- One round of the posting loop; `nready` counts the events found. -/
def postFound (readSet writeSet : Finset ℤ) (state : ℕ × World) (ev : Ev) : ℕ × World :=
  let (nready, w) := state
  let w := w.useFd (w.fd ev)
  if w.found readSet writeSet ev then
    (nready + 1, (w.modEvent ev fun e => { e with ready := true }).postEvent ev)
  else (nready, w)

/-- `xdbd_select_process_events` with an infinite timer. -/
def selectProcessEvents (w : World) (kernel : Kernel) : Rc × World :=
  let w := w.refreshMaxFd
  match kernel.select (w.maxFd + 1) w.masterRead w.masterWrite with
  | .fail ebadf => (.err, if ebadf then w.selectRepairFdSets kernel.getsockopt else w)
  | .ready n readSet writeSet =>
    if n = 0 then (.err, w)
    else
      let (nready, w) := w.registered.foldl (postFound readSet writeSet) (0, w)
      (.ok, if n ≠ nready then w.selectRepairFdSets kernel.getsockopt else w)

/-- The contract of `select` for the call made in `w`: it returns subsets of the sets it was
given, below its bound, with the number of their bits. -/
def SelectContract (w : World) (kernel : Kernel) : Prop :=
  ∀ n readSet writeSet,
    kernel.select w.nfds w.masterRead w.masterWrite = .ready n readSet writeSet →
      readSet ⊆ w.masterRead ∧ writeSet ⊆ w.masterWrite ∧
      (∀ s ∈ readSet ∪ writeSet, 0 ≤ s ∧ s < w.nfds) ∧
      n = (readSet.card + writeSet.card : ℕ)

end World
end Xdbd

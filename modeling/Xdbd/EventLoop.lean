import Xdbd.ConnectionTable

/-!
# Start-up and the event loop

`xdbd_event.c` and the listening sockets of `connection.c`: accepting a connection, the
dispatch of posted events, one turn of the worker loop, and the start-up that builds the
first state. A run of the daemon is a start-up followed by turns of the loop, between which
the kernel and the peers choose their next answers.
-/
namespace Xdbd
open Interaction

namespace World

/-- `xdbd_close_accepted_connection`. It follows `c->listening`, which `xdbd_event_accept`
has not set at either of its two calls. -/
def closeAcceptedConnection (w : World) (i : ℕ) : Except Fault World :=
  match (w.slots i).conn.listening with
  | none => .error .nullDeref
  | some _ => do
    let w := w.freeConnection i
    let s := (w.slots i).conn.fd
    let w := (w.modConn i fun c => { c with fd := -1 }).closeSocket s
    let w ← match (w.slots i).conn.pool with
      | none => pure w
      | some p => w.destroyPool (some p)
    match (w.slots i).conn.tempPool with
    | none => pure w
    | some p => w.destroyPool (some p)

def adbInitConnection (w : World) (i : ℕ) : Except Fault World :=
  let w := w.modEvent (.read i) fun e => { e with handler := some (.adb .adbWaitApacketHandler) }
  let w := w.modEvent (.write i) fun e => { e with handler := some (.adb .adbEmptyHandler) }
  match w.handleReadEvent (.read i) false with
  | (.ok, w) => .ok w
  | (_, w) => w.adbCloseConnection i

/-- The steps of `xdbd_event_accept` on the slot `i` it has taken for the answer `a`. -/
def setUpAccepted (w : World) (i ls : ℕ) (a : AcceptResult) : Except Fault World :=
  let (pool, w) := w.createPool a.pool
  let w := w.modConn i fun c => { c with pool := pool }
  if pool = none then .ok w
  else
    let (tempPool, w) := w.createPool a.tempPool
    let w := w.modConn i fun c => { c with tempPool := tempPool }
    if tempPool = none then .ok w
    else if a.sockaddr = false then w.closeAcceptedConnection i
    else if a.nonblocking = false then w.closeAcceptedConnection i
    else
      let w := w.modConn i fun c => { c with listening := some ls, unixIo := true }
      let w := w.modEvent (.write i) fun e => { e with ready := true }
      w.adbInitConnection i

/-- `xdbd_event_accept` on the listening slot `l`. The kernel never returns a negative
descriptor or one that is open; such an answer stands for a failed `accept`. -/
def eventAccept (w : World) (l : ℕ) : Except Fault World :=
  let w := w.modEvent (.read l) fun e => { e with timeout := false, ready := false }
  match (w.slots l).conn.listening, (w.slots l).wire.accepts with
  | none, _ => .error .nullDeref
  | some _, [] => .ok w
  | some ls, a :: rest => do
    let w := w.modSlot l fun s => { s with wire := { s.wire with accepts := rest } }
    if a.fd < 0 ∨ a.fd ∈ w.openFds then return w
    else
      let w := { w with openFds := insert a.fd w.openFds }.note l
        (.accept a w.freeConnections.isSome)
      match ← w.getConnection a.fd with
      | (none, w) => return w
      | (some i, w) => w.setUpAccepted i ls a

/-- `ev->handler(ev)`. -/
def callHandler (w : World) (ev : Ev) : Except Fault World :=
  match (w.event ev).handler with
  | none => .error .nullCall
  | some .eventAccept => w.eventAccept ev.slot
  | some (.adb h) => (Prog.run (exec ev.slot) (code h) w).map Prod.snd

def deletePostedEvent (w : World) (ev : Ev) : World :=
  let w := w.modEvent ev fun e => { e with posted := false }
  { w with
    postedAcceptEvents := w.postedAcceptEvents.erase ev
    postedEvents := w.postedEvents.erase ev }

/-- `xdbd_event_process_posted` over the events of a posted list, with the calls it makes:
each event and the state its handler is called in. Handlers do not post, so the safe
iteration visits the list as it is at the start. -/
def eventProcessPosted : List Ev → World → List (Ev × World) × Except Fault World
  | [], w => ([], .ok w)
  | ev :: evs, w =>
    match w.callHandler ev with
    | .error f => ([(ev, w)], .error f)
    | .ok w' =>
      let r := eventProcessPosted evs (w'.deletePostedEvent ev)
      ((ev, w) :: r.1, r.2)

/-- `xdbd_process_events_and_timers`, with the handler calls it makes. -/
def processEventsAndTimers (w : World) (kernel : Kernel) :
    List (Ev × World) × Except Fault World :=
  let w := (w.selectProcessEvents kernel).2
  let accepted := eventProcessPosted w.postedAcceptEvents w
  match accepted.2 with
  | .error f => (accepted.1, .error f)
  | .ok w =>
    let others := eventProcessPosted w.postedEvents w
    (accepted.1 ++ others.1, others.2)

end World

/-! ## Start-up -/

/-- Outcomes of `socket`, `fcntl`, `bind` and `listen` for one listening entry. -/
structure SocketResult where
  fd : ℤ
  nonblocking : Bool
  bind : Bool
  listen : Bool
  deriving DecidableEq, Repr

/-- What start-up depends on: the table size, the listening entries with the outcomes of
their system calls, the allocations of `xdbd_event_init_connections`, the descriptors open
before it, and the memory that the tables are allocated in. -/
structure Boot where
  connectionN : ℕ
  entries : List SocketResult
  eventIndex : Option (ℕ → Ev)
  connections : Bool
  readEvents : Bool
  writeEvents : Bool
  openFds : Finset ℤ
  memory : ℕ → Slot

namespace World

/-- One round of the loop of `xdbd_open_listening_sockets` over entries whose `fd` is -1. -/
def openListeningSocket (w : World) (e : SocketResult) : Rc × Listening × World :=
  if e.fd < 0 ∨ e.fd ∈ w.openFds then (.err, ⟨-1, false, none⟩, w)
  else
    let w := { w with openFds := insert e.fd w.openFds }
    if e.nonblocking = false then (.err, ⟨-1, false, none⟩, w.closeSocket e.fd)
    else if e.bind = false then (.ok, ⟨-1, false, none⟩, w)
    else if e.listen = false then (.ok, ⟨-1, false, none⟩, w)
    else (.ok, ⟨e.fd, true, none⟩, { w with boundFds := insert e.fd w.boundFds })

/-- `xdbd_open_listening_sockets`; it stops at the first error. -/
def openListeningSockets : List SocketResult → World → Rc × World
  | [], w => (.ok, w)
  | e :: es, w =>
    match w.openListeningSocket e with
    | (.ok, ls, w) => openListeningSockets es { w with listening := w.listening ++ [ls] }
    | (_, _, w) => (.err, w)

/-- The loop of `xdbd_event_init_connections` that threads the free list, downwards from
`c[n - 1]`. -/
def linkConnections : ℕ → Option ℕ → World → World
  | 0, next, w => { w with freeConnections := next }
  | i + 1, next, w =>
    linkConnections i (some i) (w.modConn i fun c => { c with data := nextData next, fd := -1 })

/-- The loop of `xdbd_event_init_connections` over the listening entries from `k` on. -/
def registerListening : ℕ → List Listening → World → Except Fault (Rc × World)
  | _, [], w => .ok (.ok, w)
  | k, ls :: rest, w => do
    match ← w.getConnection ls.fd with
    | (none, w) => return (.err, w)
    | (some i, w) =>
      let w := w.modConn i fun c => { c with listening := some k }
      let w := { w with listening := w.listening.modify k fun l => { l with connection := some i } }
      let w := w.modEvent (.read i) fun e =>
        { e with accepted := true, handler := some .eventAccept }
      match w.selectAddEvent (.read i) .read with
      | (.err, w) => return (.err, w)
      | (_, w) => registerListening (k + 1) rest w

/-- The events of a fresh table are marked closed; the rest of them is not written. -/
def markClosed (n : ℕ) (memory : ℕ → Slot) (i : ℕ) : Slot :=
  if i < n then
    { memory i with
      read := { (memory i).read with closed := true }
      write := { (memory i).write with closed := true } }
  else memory i

/-- The tables of `xdbd_event_init_connections`, with every slot on the free list. -/
def initTables (boot : Boot) (w : World) : World :=
  let w := { w with slots := markClosed boot.connectionN boot.memory }
  { linkConnections boot.connectionN none w with freeConnectionN := boot.connectionN }

def eventInitConnections (boot : Boot) (w : World) : Except Fault (Rc × World) := do
  match ← w.selectInit boot.eventIndex with
  | (.ok, w) =>
    if boot.connections = false ∨ boot.readEvents = false ∨ boot.writeEvents = false then
      return (.err, w)
    else
      let w := initTables boot w
      if w.listening = [] then .error .assertion
      else registerListening 0 w.listening w
  | (_, w) => return (.err, w)

/-- The globals before start-up. -/
def blank (boot : Boot) : World where
  slots := boot.memory
  connectionN := boot.connectionN
  freeConnections := none
  freeConnectionN := 0
  listening := []
  postedAcceptEvents := []
  postedEvents := []
  masterRead := ∅
  masterWrite := ∅
  maxFd := 0
  nevents := 0
  eventIndex := fun _ => .read 0
  openFds := boot.openFds
  boundFds := ∅
  livePools := ∅
  nextPool := 0
  fdArgs := ∅
  issued := ∅

/-- `xdbd_event_post_configration`: the listening sockets, then the tables. -/
def postConfiguration (boot : Boot) : Except Fault (Rc × World) :=
  match openListeningSockets boot.entries (blank boot) with
  | (.ok, w) => eventInitConnections boot w
  | (rc, w) => .ok (rc, w)

end World

/-! ## Runs -/

/-- What the kernel and the allocator will answer to the calls for one connection. -/
structure Script where
  recvs : List RecvResult
  sends : List SendResult
  accepts : List AcceptResult
  allocs : List (Option Mem)

def World.feed (w : World) (i : ℕ) (s : Script) : World :=
  w.modSlot i fun slot => { slot with
    wire := ⟨s.recvs, s.sends, s.accepts, s.allocs, slot.wire.history⟩ }

/-- The kernel keeps its contract, and it knows the open descriptors to be valid. -/
structure Allowed (w : World) (kernel : Kernel) : Prop where
  ready : w.SelectContract kernel
  valid : ∀ s ∈ w.openFds, kernel.getsockopt s = true

/-- One step of a run: the next answers of the kernel are chosen, or the worker loop turns. -/
inductive Step : World → World → Prop
  | feed (w : World) (i : ℕ) (s : Script) : Step w (w.feed i s)
  | turn {w w' : World} (kernel : Kernel) (allowed : Allowed w kernel)
      (finished : (w.processEventsAndTimers kernel).2 = .ok w') : Step w w'

/-- A successful start-up. -/
structure Started (boot : Boot) (w : World) : Prop where
  size : 1 ≤ boot.connectionN ∧ boot.connectionN < 2^32
  fds : ∀ s ∈ boot.openFds, 0 ≤ s
  success : World.postConfiguration boot = .ok (.ok, w)

/-- The states at the top of the worker loop, after the start-up `boot`. -/
inductive Run (boot : Boot) : World → Prop
  | start {w : World} (started : Started boot w) : Run boot w
  | step {w w' : World} (prior : Run boot w) (next : Step w w') : Run boot w'

end Xdbd

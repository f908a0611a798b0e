import Xdbd.Header

/-!
# State of the daemon

Connections with their two events, the select registry, the posted lists and the free
list, as the daemon keeps them. Beside each connection stands its wire: what the kernel
and the allocator will answer to the calls made for it, and what they answered so far.

Here and in the modules of the handlers, of the select module, of the table and of the loop, a
definition that models a C function has its name, without the prefix `xdbd_`.
-/
namespace Xdbd

/-- How an execution can leave the defined behaviour of the language. -/
inductive Fault
  | nullDeref
  | outOfBounds
  | nullCall
  | badLink
  | doubleFree
  | afterClose
  | assertion
  deriving DecidableEq, Repr

/-- The int codes `XDBD_OK`, `XDBD_ERR` and `XDBD_AGAIN`. -/
inductive Rc
  | ok
  | err
  | again
  deriving DecidableEq, Repr

/-- `XDBD_ERR` and `XDBD_AGAIN` where they share a variable with a byte count. -/
def xdbdErr : ℤ := -1
def xdbdAgain : ℤ := -2

/-- Conversion to `size_t`. -/
def sizeT (n : ℤ) : ℕ := (n % 2^64).toNat

/-- Conversion to `unsigned`. -/
def unsigned (n : ℤ) : ℕ := (n % 2^32).toNat

/-- The bytes of one allocation, by distance from its first byte. -/
abbrev Mem : Type := ℕ → UInt8

/-- `xdbd_buf_t` with its storage: `pos` and `last` count from `start`, and `cap` is
`end - start`. -/
structure Buf where
  mem : Mem
  cap : ℕ
  pos : ℤ
  last : ℤ

structure Packet where
  header : Header
  payload : Buf

/-- `xdbd_adb_request_t`. Its pools and its receive buffer are those of the connection it
was created for. -/
structure Request where
  h : Header
  p : Packet
  out : Option Buf

/-- What the `void *data` of a connection points to: the next free connection, or the
current request. -/
inductive Data
  | null
  | conn (i : ℕ)
  | request (r : Request)

/-- The handlers of an accepted connection. -/
inductive AdbHandler
  | adbWaitApacketHandler
  | adbProcessAdbHeader
  | adbProcessAdbPayload
  | adbBlockReading
  | adbEmptyHandler
  deriving DecidableEq, Repr

/-- The handler of an event: `xdbd_event_accept`, or one of an accepted connection. -/
inductive Handler
  | eventAccept
  | adb (h : AdbHandler)
  deriving DecidableEq, Repr

/-- `xdbd_event_t`; `index = none` is `XDBD_INVALID_INDEX`. -/
structure Event where
  index : Option ℕ
  handler : Option Handler
  write : Bool
  ready : Bool
  closed : Bool
  accepted : Bool
  posted : Bool
  timeout : Bool
  active : Bool
  eof : Bool
  error : Bool
  deriving DecidableEq, Repr

/-- An event after `xdbd_memzero`, with the invalid index written over it. -/
def Event.zero : Event :=
  ⟨none, none, false, false, false, false, false, false, false, false, false⟩

/-- `xdbd_connection_t`; pools are named by the order of their creation, and `unixIo` says
that `send` and `recv` point to `xdbd_unix_send` and `xdbd_unix_recv`. -/
structure Connection where
  pool : Option ℕ
  tempPool : Option ℕ
  fd : ℤ
  unixIo : Bool
  data : Data
  listening : Option ℕ
  sent : ℤ
  buffer : Option Buf
  destroyed : Bool
  timeout : Bool

/-- A connection after `xdbd_memzero`, with the descriptor written over it. -/
def Connection.zero (s : ℤ) : Connection :=
  ⟨none, none, s, false, .null, none, 0, none, false, false⟩

/-- One answer of the kernel to `recv`. An empty run of bytes is end of stream. -/
inductive RecvResult
  | bytes (bs : List UInt8)
  | again
  | intr
  | fail
  deriving DecidableEq, Repr

/-- One answer of the kernel to `send`. -/
inductive SendResult
  | full
  | short (n : ℕ)
  | again
  | intr
  | fail
  deriving DecidableEq, Repr

/-- One answer to `accept` with the outcomes of the steps that set the descriptor up;
`fd = -1` is a failed `accept`. -/
structure AcceptResult where
  fd : ℤ
  pool : Bool
  tempPool : Bool
  sockaddr : Bool
  nonblocking : Bool
  deriving DecidableEq, Repr

/-- One call of `c->recv`: the caller, the state of the receive buffer, the window offered
and the result. -/
structure RecvCall where
  handler : Option Handler
  dlen : ℕ
  pos : ℤ
  last : ℤ
  cap : ℕ
  off : ℤ
  size : ℕ
  result : ℤ
  bytes : List UInt8
  deriving DecidableEq, Repr

/-- What happened on a connection. `dispatch` is a call of `xdbd_process_packet`, `append` a
call of `xdbd_buf_append_mem` by `xdbd_buf_append_buf`, `put` the bytes a packet handler added
to `r->out`, and `accept` an answer of the kernel and whether a slot was free for it. -/
inductive Obs
  | recv (call : RecvCall)
  | alloc (size : ℕ) (success : Bool)
  | append (pos last : ℤ) (len : ℕ)
  | dispatch (h : Header) (payload : List UInt8)
  | put (bs : List UInt8)
  | send (bs : List UInt8) (result : ℤ)
  | accept (a : AcceptResult) (slot : Bool)
  deriving DecidableEq, Repr

/-- The kernel and the allocator as one connection sees them. Each list holds the answers
to come; an exhausted `recv` would block, an exhausted `accept` fails, and an exhausted
`send` or allocation succeeds. -/
structure Wire where
  recvs : List RecvResult
  sends : List SendResult
  accepts : List AcceptResult
  allocs : List (Option Mem)
  history : List Obs

def Wire.fresh : Wire := ⟨[], [], [], [], []⟩

/-- `connections[i]` with `read_events[i]` and `write_events[i]`, which `c->read` and
`c->write` point to for good. -/
structure Slot where
  conn : Connection
  read : Event
  write : Event
  wire : Wire

/-- One of the two events of a slot. -/
inductive Ev
  | read (i : ℕ)
  | write (i : ℕ)
  deriving DecidableEq, Repr

def Ev.slot : Ev → ℕ
  | .read i => i
  | .write i => i

/-- `xdbd_listening_t`; its handler is `xdbd_adb_init_connection`. -/
structure Listening where
  fd : ℤ
  listen : Bool
  connection : Option ℕ
  deriving DecidableEq, Repr

/-- `xdbd_t`, the posted lists, and the state of the select module. The last five fields
are not the daemon's: the descriptors the process has open, those bound and listening, the
pools not yet destroyed, the descriptors handed to the `FD_*` macros and the slots that
`xdbd_get_connection` has handed out so far. -/
@[ext]
structure World where
  slots : ℕ → Slot
  connectionN : ℕ
  freeConnections : Option ℕ
  freeConnectionN : ℕ
  listening : List Listening
  postedAcceptEvents : List Ev
  postedEvents : List Ev
  masterRead : Finset ℤ
  masterWrite : Finset ℤ
  maxFd : ℤ
  nevents : ℕ
  eventIndex : ℕ → Ev
  openFds : Finset ℤ
  boundFds : Finset ℤ
  livePools : Finset ℕ
  nextPool : ℕ
  fdArgs : Finset ℤ
  issued : Finset ℕ

namespace World
variable (w : World)

def event : Ev → Event
  | .read i => (w.slots i).read
  | .write i => (w.slots i).write

/-- `ev->data->fd`. -/
def fd (e : Ev) : ℤ := (w.slots e.slot).conn.fd

def modSlot (i : ℕ) (f : Slot → Slot) : World :=
  { w with slots := Function.update w.slots i (f (w.slots i)) }

def modConn (i : ℕ) (f : Connection → Connection) : World :=
  w.modSlot i fun s => { s with conn := f s.conn }

def modEvent (e : Ev) (f : Event → Event) : World :=
  w.modSlot e.slot fun s =>
    match e with
    | .read _ => { s with read := f s.read }
    | .write _ => { s with write := f s.write }

def note (i : ℕ) (o : Obs) : World :=
  w.modSlot i fun s => { s with wire := { s.wire with history := s.wire.history ++ [o] } }

variable {w}

@[simp] lemma slots_modSlot (i j : ℕ) (f : Slot → Slot) :
    (w.modSlot i f).slots j = if j = i then f (w.slots i) else w.slots j := by
  by_cases h : j = i
  · subst h; simp [modSlot]
  · simp [modSlot, h]

@[simp] lemma conn_modConn (i j : ℕ) (f : Connection → Connection) :
    ((w.modConn i f).slots j).conn = if j = i then f (w.slots i).conn else (w.slots j).conn := by
  unfold modConn
  rw [slots_modSlot]
  split_ifs <;> rfl

@[simp] lemma event_modConn (i : ℕ) (f : Connection → Connection) (e : Ev) :
    (w.modConn i f).event e = w.event e := by
  cases e <;> simp only [event, modConn, slots_modSlot] <;> split_ifs with h <;> simp [h]

@[simp] lemma wire_modConn (i j : ℕ) (f : Connection → Connection) :
    ((w.modConn i f).slots j).wire = (w.slots j).wire := by
  unfold modConn
  rw [slots_modSlot]
  split_ifs with h <;> simp [h]

@[simp] lemma conn_modEvent (e : Ev) (f : Event → Event) (j : ℕ) :
    ((w.modEvent e f).slots j).conn = (w.slots j).conn := by
  cases e <;> simp only [modEvent, Ev.slot, slots_modSlot] <;> split_ifs with h <;> simp [h]

@[simp] lemma wire_modEvent (e : Ev) (f : Event → Event) (j : ℕ) :
    ((w.modEvent e f).slots j).wire = (w.slots j).wire := by
  cases e <;> simp only [modEvent, Ev.slot, slots_modSlot] <;> split_ifs with h <;> simp [h]

@[simp] lemma event_modEvent (e e' : Ev) (f : Event → Event) :
    (w.modEvent e f).event e' = if e' = e then f (w.event e) else w.event e' := by
  cases e with
  | read i =>
    cases e' with
    | read j =>
      simp only [event, modEvent, Ev.slot, slots_modSlot, Ev.read.injEq]
      split_ifs <;> rfl
    | write j => simp only [event, modEvent, Ev.slot, slots_modSlot]; split_ifs with h <;> simp_all
  | write i =>
    cases e' with
    | read j => simp only [event, modEvent, Ev.slot, slots_modSlot]; split_ifs with h <;> simp_all
    | write j =>
      simp only [event, modEvent, Ev.slot, slots_modSlot, Ev.write.injEq]
      split_ifs <;> rfl

lemma slot_ext {s t : Slot} (hc : s.conn = t.conn) (hr : s.read = t.read)
    (hw : s.write = t.write) (hx : s.wire = t.wire) : s = t := by
  cases s; cases t; simp_all

lemma slots_ext {w' : World} (hc : ∀ j, (w.slots j).conn = (w'.slots j).conn)
    (he : ∀ e, w.event e = w'.event e) (hx : ∀ j, (w.slots j).wire = (w'.slots j).wire) :
    w.slots = w'.slots :=
  funext fun j => slot_ext (hc j) (he (.read j)) (he (.write j)) (hx j)

end World
end Xdbd

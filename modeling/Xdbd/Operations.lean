import Xdbd.Interaction
import Xdbd.Memory
import Xdbd.SocketIo

/-!
# What a read handler can do

The adb handlers and everything they call are programs over the operations below: they
read and write their connection, its request and its receive buffer, allocate from its
pools, call `c->recv` and `c->send`, and call into the event and connection modules. An
operation on a connection that `xdbd_adb_close_connection` has released is a fault.
-/
namespace Xdbd
open Interaction

/-- The bits of an event that the handlers test. -/
structure Flags where
  ready : Bool
  timeout : Bool
  active : Bool
  deriving DecidableEq, Repr

/-- The operations that stay inside the handler's own connection. -/
inductive SlotOp
  | readEvent
  | setHandler (h : AdbHandler)
  | setTimeout
  | getBuffer
  | setBuffer (b : Buf)
  | getRequest
  | setRequest (r : Request)
  | setData (r : Option Request)
  | palloc (size : ℕ)
  | recv (off : ℤ) (size : ℕ)
  | send (bs : List UInt8)
  | note (o : Obs)
  | fault (f : Fault)

def SlotOp.Res : SlotOp → Type
  | .readEvent => Flags
  | .getBuffer => Option Buf
  | .getRequest => Request
  | .palloc _ => Option Mem
  | .recv _ _ => ℤ
  | .send _ => ℤ
  | .fault _ => Empty
  | _ => Unit

/-- All operations: the last three are the calls into other modules. -/
inductive Op
  | slot (o : SlotOp)
  | handleReadEvent (flags : ℕ)
  | delReadEvent
  | closeConnection

def Op.Res : Op → Type
  | .slot o => o.Res
  | .handleReadEvent _ => Rc
  | .delReadEvent => Rc
  | .closeConnection => Unit

/-- The code of a handler, returning a value of type `α`. -/
abbrev Code (α : Type) : Type := Prog Op Op.Res α

namespace Code

/-- The bits of the read event `rev` of the connection. -/
def readEvent : Code Flags := Prog.ask (Op.slot .readEvent)

/-- `rev->handler = h`. -/
def setHandler (h : AdbHandler) : Code Unit := Prog.ask (Op.slot (.setHandler h))

/-- `c->timeout = 1`. -/
def setTimeout : Code Unit := Prog.ask (Op.slot .setTimeout)

/-- The pointer `c->buffer`, which is also `r->buffer`. -/
def getBuffer : Code (Option Buf) := Prog.ask (Op.slot .getBuffer)

def setBuffer (b : Buf) : Code Unit := Prog.ask (Op.slot (.setBuffer b))

/-- The request that `c->data` points to. -/
def getRequest : Code Request := Prog.ask (Op.slot .getRequest)

def setRequest (r : Request) : Code Unit := Prog.ask (Op.slot (.setRequest r))

/-- `c->data = r`, with `none` for `NULL`. -/
def setData (r : Option Request) : Code Unit := Prog.ask (Op.slot (.setData r))

/-- `xdbd_palloc(c->pool, size)`. -/
def palloc (size : ℕ) : Code (Option Mem) := Prog.ask (Op.slot (.palloc size))

/-- `c->recv(c, c->buffer->start + off, size)`. -/
def recv (off : ℤ) (size : ℕ) : Code ℤ := Prog.ask (Op.slot (.recv off size))

/-- `c->send` of the bytes `bs`. -/
def send (bs : List UInt8) : Code ℤ := Prog.ask (Op.slot (.send bs))

def note (o : Obs) : Code Unit := Prog.ask (Op.slot (.note o))

def fault {α : Type} (f : Fault) : Code α := .call (.slot (.fault f)) fun e => nomatch e

/-- `xdbd_handle_read_event(rev, flags)`. -/
def handleReadEvent (flags : ℕ) : Code Rc := Prog.ask (Op.handleReadEvent flags)

/-- `xdbd_del_event(c->read, XDBD_READ_EVENT, 0)`. -/
def delReadEvent : Code Rc := Prog.ask Op.delReadEvent

/-- `xdbd_adb_close_connection(c)`. -/
def closeConnection : Code Unit := Prog.ask Op.closeConnection

/-- A pointer that must not be `NULL`. -/
def deref {α : Type} : Option α → Code α
  | some a => pure a
  | none => fault .nullDeref

end Code

/-- `r->h.dlen` as a call of `recv` finds it. -/
def Slot.dlen (s : Slot) : ℕ :=
  match s.conn.data with
  | .request r => r.h.dlen.toNat
  | _ => 0

def Slot.log (s : Slot) (o : Obs) : Slot :=
  { s with wire := { s.wire with history := s.wire.history ++ [o] } }

/-- One allocation answered from the wire; `xdbd_palloc` of nothing returns `NULL`. -/
def Slot.palloc (s : Slot) (size : ℕ) : Option Mem × Slot :=
  if size = 0 then (none, s)
  else
    match s.wire.allocs with
    | [] => (some fun _ => 0, s.log (.alloc size true))
    | m :: rest =>
      (m, { s with wire := { s.wire with allocs := rest } }.log (.alloc size m.isSome))

def Slot.recv (s : Slot) (b : Buf) (off : ℤ) (size : ℕ) : Except Fault (ℤ × Slot) :=
  let r := unixRecv s.read size s.wire.recvs
  if r.bytes ≠ [] ∧ (off < 0 ∨ (b.cap : ℤ) < off + r.bytes.length) then .error .outOfBounds
  else .ok (r.n,
    { s with
      conn := { s.conn with
        buffer := some { b with mem := Block.write b.mem off.toNat r.bytes } },
      read := r.rev,
      wire := { s.wire with recvs := r.rest } }.log
        (.recv ⟨s.read.handler, s.dlen, b.pos, b.last, b.cap, off, size, r.n, r.bytes⟩))

def Slot.send (s : Slot) (bs : List UInt8) : ℤ × Slot :=
  let r := unixSend s.write s.conn.sent bs.length s.wire.sends
  (r.n, { s with
    conn := { s.conn with sent := r.sent },
    write := r.wev,
    wire := { s.wire with sends := r.rest } }.log (.send bs r.n))

/-- The effect of an operation on its own connection. -/
def SlotOp.exec : (o : SlotOp) → Slot → Except Fault (o.Res × Slot)
  | .readEvent, s => .ok (⟨s.read.ready, s.read.timeout, s.read.active⟩, s)
  | .setHandler h, s => .ok ((), { s with read := { s.read with handler := some (.adb h) } })
  | .setTimeout, s => .ok ((), { s with conn := { s.conn with timeout := true } })
  | .getBuffer, s =>
    if s.conn.destroyed then .error .afterClose else .ok (s.conn.buffer, s)
  | .setBuffer b, s =>
    if s.conn.destroyed then .error .afterClose
    else .ok ((), { s with conn := { s.conn with buffer := some b } })
  | .getRequest, s =>
    if s.conn.destroyed then .error .afterClose
    else
      match s.conn.data with
      | .request r => .ok (r, s)
      | .null => .error .nullDeref
      | .conn _ => .error .badLink
  | .setRequest r, s =>
    if s.conn.destroyed then .error .afterClose
    else .ok ((), { s with conn := { s.conn with data := .request r } })
  | .setData r, s =>
    if s.conn.destroyed then .error .afterClose
    else .ok ((), { s with conn := { s.conn with data := r.elim .null .request } })
  | .palloc size, s =>
    if s.conn.destroyed then .error .afterClose else .ok (s.palloc size)
  | .recv off size, s =>
    if s.conn.destroyed then .error .afterClose
    else if s.conn.unixIo then
      match s.conn.buffer with
      | none => .error .nullDeref
      | some b => s.recv b off size
    else .error .nullCall
  | .send bs, s =>
    if s.conn.destroyed then .error .afterClose
    else if s.conn.unixIo then .ok (s.send bs)
    else .error .nullCall
  | .note o, s => .ok ((), s.log o)
  | .fault f, _ => .error f

end Xdbd

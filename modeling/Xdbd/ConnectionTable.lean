import Xdbd.AdbHandlers
import Xdbd.Select

/-!
# The connection table

`connection.c` and the closing half of `xdbd_adb.c`: the free list threaded through
`c->data`, taking and releasing slots, the pools of a connection, and the operations of
the read handlers carried out on the whole daemon.
-/
namespace Xdbd
namespace World

/-- The link that the free list reads from a connection; a request pointer is no link. -/
def link (w : World) (i : ℕ) : Option (Option ℕ) :=
  match (w.slots i).conn.data with
  | .null => some none
  | .conn j => some (some j)
  | .request _ => none

def getConnection (w : World) (s : ℤ) : Except Fault (Option ℕ × World) :=
  match w.freeConnections with
  | none => .ok (none, w)
  | some i =>
    match w.link i with
    | none => .error .badLink
    | some next =>
      let slot : Slot :=
        ⟨Connection.zero s, Event.zero, { Event.zero with write := true }, Wire.fresh⟩
      .ok (some i, { w with
        freeConnections := next
        freeConnectionN := (w.freeConnectionN + (2^32 - 1)) % 2^32
        slots := Function.update w.slots i slot
        issued := insert i w.issued })

/-- The `c->data` that links to `next`. -/
def nextData : Option ℕ → Data
  | none => .null
  | some j => .conn j

def freeConnection (w : World) (i : ℕ) : World :=
  { w.modConn i fun c => { c with data := nextData w.freeConnections } with
    freeConnections := some i
    freeConnectionN := (w.freeConnectionN + 1) % 2^32 }

/-- `close(fd)`. -/
def closeSocket (w : World) (fd : ℤ) : World :=
  { w with openFds := w.openFds.erase fd, boundFds := w.boundFds.erase fd }

def closeConnection (w : World) (i : ℕ) : World :=
  if (w.slots i).conn.fd = -1 then w
  else
    let w := if (w.event (.read i)).active then (w.selectDelEvent (.read i) .read).2 else w
    let w := if (w.event (.write i)).active then (w.selectDelEvent (.write i) .write).2 else w
    let w := w.modEvent (.read i) fun e => { e with closed := true }
    let w := w.modEvent (.write i) fun e => { e with closed := true }
    let w := w.freeConnection i
    let fd := (w.slots i).conn.fd
    (w.modConn i fun c => { c with fd := -1 }).closeSocket fd

/-- `xdbd_create_pool`, when the allocation of the pool succeeds or not. -/
def createPool (w : World) (success : Bool) : Option ℕ × World :=
  if success then
    (some w.nextPool, { w with
      livePools := insert w.nextPool w.livePools
      nextPool := w.nextPool + 1 })
  else (none, w)

def destroyPool (w : World) : Option ℕ → Except Fault World
  | none => .error .nullDeref
  | some p =>
    if p ∈ w.livePools then .ok { w with livePools := w.livePools.erase p }
    else .error .doubleFree

def adbCloseConnection (w : World) (i : ℕ) : Except Fault World :=
  let pool := (w.slots i).conn.pool
  let tempPool := (w.slots i).conn.tempPool
  let w := w.modConn i fun c => { c with destroyed := true }
  match (w.slots i).conn.listening with
  | none => .error .nullDeref
  | some _ => do
    let w ← (w.closeConnection i).destroyPool pool
    w.destroyPool tempPool

/-- One operation of a read handler of slot `i`, on the whole daemon. -/
def exec (i : ℕ) : Interaction.Prog.Interp Op Op.Res Fault World
  | .slot o, w => do
    let (a, s) ← o.exec (w.slots i)
    return (a, w.modSlot i fun _ => s)
  | .handleReadEvent flags, w => .ok (w.handleReadEvent (.read i) (flags % 2 = 1))
  | .delReadEvent, w => .ok (w.selectDelEvent (.read i) .read)
  | .closeConnection, w => do
    let w ← w.adbCloseConnection i
    return ((), w)

end World
end Xdbd

import Xdbd.PacketHandlers

/-!
# Read handlers of an adb connection

`xdbd_adb.c` and `xdbd_adb_request.c`: a connection waits for a packet, then collects a
header, then a payload, and hands the packet to `xdbd_process_packet`. Byte counts and the
codes `XDBD_AGAIN` and `XDBD_ERR` travel through one `size_t`. The `for (;;)` loops of the
source leave their body on every path, so each is written as its body.
-/
namespace Xdbd
open Interaction Code

/-- `sizeof(xdbd_adb_request_t)`. -/
def sizeofRequest : ℕ := 80

def Header.zero : Header := ⟨0, 0, 0, 0, 0, 0⟩

def adbCreateRequest : Code (Option Request) := do
  match ← palloc sizeofRequest with
  | none => return none
  | some _ =>
    match ← palloc sizeofPacket with
    | none => return none
    | some _ =>
      match ← createBuf adbMaxPacketSize with
      | none => return none
      | some payload => return some ⟨Header.zero, ⟨Header.zero, payload⟩, none⟩

def adbCloseRequest : Code Unit := closeConnection

/-- `c->recv` into the free part of the receive buffer, if the event is ready. -/
def recvIfReady (b : Buf) : Code ℤ := do
  let rev ← readEvent
  if rev.ready then recv b.last (sizeT (b.cap - b.last)) else return xdbdAgain

def adbReadAdbHeader : Code ℕ := do
  let _ ← getRequest
  let b ← deref (← getBuffer)
  if headerSize ≤ sizeT (bufSize b) then return sizeT (bufSize b)
  else
    let n ← recvIfReady b
    if n = xdbdAgain then
      match ← handleReadEvent 0 with
      | .ok => return sizeT xdbdAgain
      | _ =>
        adbCloseRequest
        return sizeT xdbdErr
    else if n = 0 ∨ n = xdbdErr then
      adbCloseRequest
      return sizeT xdbdErr
    else
      let b ← deref (← getBuffer)
      setBuffer { b with last := b.last + n }
      return sizeT n

/-- `xdbd_adb_parse_adb_header`; the header is copied from `start`. -/
def adbParseAdbHeader : Code Rc := do
  let b ← deref (← getBuffer)
  if sizeT (bufSize b) < headerSize then return .again
  else
    let r ← getRequest
    let h := Header.ofBytes (Block.read b.mem 0 headerSize)
    setRequest { r with h := h, p := { r.p with header := h } }
    setBuffer { b with pos := b.pos + headerSize }
    return .ok

/-- `xdbd_adb_read_adb_payload`. A would-block result is not returned at once: it goes on to
the update of `last`. -/
def adbReadAdbPayload : Code ℕ := do
  let r ← getRequest
  let b ← deref (← getBuffer)
  if (r.h.dlen.toNat : ℤ) ≤ bufSize b then return sizeT (bufSize b)
  else
    let n ← recvIfReady b
    let armed ← if n = xdbdAgain then handleReadEvent 0 else pure .ok
    if armed ≠ .ok then
      adbCloseRequest
      return sizeT xdbdErr
    else if n = 0 ∨ n = xdbdErr then
      adbCloseRequest
      return sizeT xdbdErr
    else
      let b ← deref (← getBuffer)
      setBuffer { b with last := b.last + n }
      return sizeT n

/-- `xdbd_adb_parse_adb_payload`: everything between `pos` and `last` is appended to the
payload, and `pos` moves by `dlen`. -/
def adbParseAdbPayload : Code Rc := do
  let r ← getRequest
  let b ← deref (← getBuffer)
  match ← bufAppendBuf r.p.payload b with
  | none => pure ()
  | some payload => setRequest { r with p := { r.p with payload } }
  let r ← getRequest
  dumpAdbPacket r.p
  let b ← deref (← getBuffer)
  setBuffer { b with pos := b.pos + r.p.header.dlen.toNat }
  return .ok

/-- What `xdbd_adb_process_adb_payload` does after `xdbd_process_packet` returned. -/
def sendReply : Rc → Code Unit
  | .again => return ()
  | .err => return ()
  | .ok => do
    let r ← getRequest
    let out ← deref r.out
    if bufSize out = 0 then setHandler .adbWaitApacketHandler
    else
      let _ ← send (Src.take (Src.ofBuf out) (sizeT (bufSize out)))
      setHandler .adbWaitApacketHandler

def adbProcessAdbPayload : Code Unit := do
  let rev ← readEvent
  if rev.timeout then
    setTimeout
    adbCloseRequest
  else
    let n ← adbReadAdbPayload
    if n = sizeT xdbdAgain ∨ n = sizeT xdbdErr then return ()
    else
      match ← adbParseAdbPayload with
      | .ok =>
        setHandler .adbBlockReading
        let r ← getRequest
        note (.dispatch r.p.header r.p.payload.live)
        sendReply (← processPacket)
      | .again => return ()
      | .err => adbCloseRequest

def adbProcessAdbHeader : Code Unit := do
  let rev ← readEvent
  if rev.timeout then
    setTimeout
    adbCloseRequest
  else
    let n ← adbReadAdbHeader
    if n = sizeT xdbdAgain ∨ n = sizeT xdbdErr then return ()
    else
      match ← adbParseAdbHeader with
      | .ok =>
        setHandler .adbProcessAdbPayload
        adbProcessAdbPayload
      | .again => return ()
      | .err => adbCloseRequest

/-- The part of `xdbd_adb_wait_apacket_handler` after the receive buffer is there. -/
def waitApacket (b : Buf) : Code Unit := do
  setBuffer (resetBuf b)
  let n ← recv 0 b.cap
  if sizeT n = sizeT xdbdErr then closeConnection
  else if sizeT n = sizeT xdbdAgain then
    match ← handleReadEvent 0 with
    | .ok => return ()
    | _ => closeConnection
  else if sizeT n = 0 then closeConnection
  else
    let b ← deref (← getBuffer)
    setBuffer { b with last := b.last + n }
    match ← adbCreateRequest with
    | none =>
      setData none
      closeConnection
    | some r =>
      setData (some r)
      setHandler .adbProcessAdbHeader
      adbProcessAdbHeader

def adbWaitApacketHandler : Code Unit := do
  match ← getBuffer with
  | some b => waitApacket b
  | none =>
    match ← createBuf adbMaxPacketSize with
    | none => closeConnection
    | some b =>
      setBuffer b
      waitApacket b

/-- `xdbd_adb_block_reading`; the select module is a level-triggered one. -/
def adbBlockReading : Code Unit := do
  let rev ← readEvent
  if rev.active then
    let _ ← delReadEvent

def adbEmptyHandler : Code Unit := return ()

/-- The program of a handler. -/
def code : AdbHandler → Code Unit
  | .adbWaitApacketHandler => adbWaitApacketHandler
  | .adbProcessAdbHeader => adbProcessAdbHeader
  | .adbProcessAdbPayload => adbProcessAdbPayload
  | .adbBlockReading => adbBlockReading
  | .adbEmptyHandler => adbEmptyHandler

end Xdbd

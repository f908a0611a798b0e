import Xdbd.Buffer

/-!
# Packet handlers

`packet.c` and `command.c`: the dispatch on the command of a packet and the replies, each
a header and a payload appended to `r->out`. The debug dump allocates, so it is part of
the code here; the text it formats goes to the log only.
-/
namespace Xdbd
open Interaction Code

/-- `ADB_MAX_PACKET_SIZE`. -/
def adbMaxPacketSize : ℕ := 1024 * 1024

/-- `sizeof(xdbd_adb_packet_t)`. -/
def sizeofPacket : ℕ := 32

def adbAuthToken : UInt32 := 1
def adbVersion : UInt32 := 0x01000001

def hexDigit (n : ℕ) : UInt8 := UInt8.ofNat (if n < 10 then 48 + n else 87 + n)

/-- `"%02x"`. -/
def hexByte (x : UInt8) : List UInt8 := [hexDigit (x.toNat / 16), hexDigit (x.toNat % 16)]

/-- The loop of `xdbd_dump_hex`, with `n` bytes from `i` on still to print. -/
def dumpHexLoop (src : Src) : ℕ → ℕ → Buf → Code (Option Buf)
  | 0, _, b => return some b
  | n + 1, i, b => do
    if i < src.avail then
      match ← bufAppendCstring b (hexByte (src.bytes i)) with
      | none => return none
      | some b => dumpHexLoop src n (i + 1) b
    else fault .outOfBounds

def dumpHex (src : Src) (size : ℕ) : Code (Option Buf) := do
  match ← createBuf 1024 with
  | none => return none
  | some b => dumpHexLoop src size 0 b

/-- `xdbd_dump_adb_packet`: the dump is read without a check for `NULL`. -/
def dumpAdbPacket (p : Packet) : Code Unit := do
  let dump ← dumpHex (Src.ofBuf p.payload) (sizeT (bufSize p.payload))
  let _ ← deref dump

/-- `xdbd_palloc` of a packet, whose header is not written yet, and its payload buffer. -/
def allocPacket : Code (Option Packet) := do
  match ← palloc sizeofPacket with
  | none => return none
  | some m =>
    match ← createBuf adbMaxPacketSize with
    | none => return none
    | some payload => return some ⟨Header.ofBytes (Block.read m 0 headerSize), payload⟩

def fillPacket (out : Packet) : Packet :=
  { out with header := { out.header with
      magic := ~~~out.header.pcmd
      dchecksum := 0
      dlen := UInt32.ofNat (unsigned (bufSize out.payload)) } }

/-- An append to the payload of a packet whose result the caller ignores. -/
def appendPayload (out : Packet) (str : List UInt8) : Code Packet := do
  match ← bufAppendCstring out.payload str with
  | none => return out
  | some payload => return { out with payload }

/-- `xdbd_buf_append_mem(r->out, r->pool, &out->header, sizeof(xdbd_adb_header_t))`. -/
def appendOutHeader (h : Header) : Code Unit := do
  let r ← getRequest
  let out ← deref r.out
  match ← bufAppendMem out (Src.ofList h.bytes) headerSize with
  | none => return ()
  | some out =>
    setRequest { r with out := some out }
    note (.put h.bytes)

/-- `xdbd_buf_append_buf(r->out, r->pool, out->payload)`. -/
def appendOutPayload (payload : Buf) : Code Unit := do
  let r ← getRequest
  let out ← deref r.out
  match ← bufAppendBuf out payload with
  | none => return ()
  | some out =>
    setRequest { r with out := some out }
    note (.put payload.live)

/-- The two appends that end every packet handler. -/
def appendOut (out : Packet) : Code Rc := do
  appendOutHeader out.header
  appendOutPayload out.payload
  return .ok

def okeyPacket (out : Packet) : Code Packet := do
  let r ← getRequest
  let out := fillPacket { out with header := { out.header with
    pcmd := pcmdOkay, arg0 := 1, arg1 := r.p.header.arg0 } }
  dumpAdbPacket out
  return out

/-- `xdbd_write_packet`; on a failed append the header is left half written. -/
def writePacket (out : Packet) (str : List UInt8) : Code Packet := do
  let r ← getRequest
  let out := { out with header := { out.header with
    pcmd := pcmdWrte, arg0 := 1, arg1 := r.p.header.arg0 } }
  match ← bufAppendCstring out.payload str with
  | none => return out
  | some payload =>
    let out := fillPacket { out with payload }
    dumpAdbPacket out
    return out

def authToken : List UInt8 := cstring "randomstring12345678"

def processCnxnPacket : Code Rc := do
  match ← allocPacket with
  | none => return .err
  | some out =>
    let out := { out with header := { out.header with
      pcmd := pcmdAuth, arg0 := adbAuthToken, arg1 := 0 } }
    let out := fillPacket (← appendPayload out authToken)
    dumpAdbPacket out
    appendOut out

def indent : List UInt8 := List.replicate 28 32

/-- The feature list; the source continues its string literal over four lines, and the
indentation of these lines is part of it. -/
def features : List UInt8 :=
  cstring "shell_v2,cmd,stat_v2,ls_v2,fixed_push_mkdir," ++ indent ++
  cstring "apex,abb,fixed_push_symlink_timestamp,abb_exec,remount_shell,track_app," ++ indent ++
  cstring "sendrecv_v2,sendrecv_v2_brotli,sendrecv_v2_lz4," ++ indent ++
  cstring "sendrecv_v2_zstd,sendrecv_v2_dry_run_send,openscreen_mdns;"

/-- The strings of a CNXN payload, in the order they are appended. -/
def cnxnStrings : List (List UInt8) :=
  [cstring "device::", cstring "ro.product.name=ffashion;", cstring "ro.product.model=ffashion;",
    cstring "ro.product.device=ffashion;", cstring "features=", features]

def appendAll (out : Packet) : List (List UInt8) → Code Packet
  | [] => return out
  | str :: strs => do appendAll (← appendPayload out str) strs

/-- `xdbd_process_auth_packet`; it does not dump its reply. -/
def processAuthPacket : Code Rc := do
  match ← allocPacket with
  | none => return .err
  | some out =>
    let out := { out with header := { out.header with
      pcmd := pcmdCnxn, arg0 := adbVersion, arg1 := UInt32.ofNat adbMaxPacketSize } }
    let out := fillPacket (← appendAll out cnxnStrings)
    appendOut out

/-- `xdbd_process_shell_cmd`, the only command, which `xddb_process_cmd` runs for every
payload. -/
def processShellCmd : Code Rc := do
  match ← allocPacket with
  | none => return .err
  | some out => appendOut (← okeyPacket out)

def processOpenPacket (p : Packet) : Code Rc :=
  if p.header.arg0 = 0 then return .err else processShellCmd

def processOkayPacket : Code Rc := do
  match ← allocPacket with
  | none => return .err
  | some out => appendOut (← okeyPacket out)

def writeData : List UInt8 := cstring "helloworld" ++ [13, 10]

def processWritePacket : Code Rc := do
  match ← allocPacket with
  | none => return .err
  | some out => appendOut (← writePacket out writeData)

def processClosePacket : Code Rc := do
  closeConnection
  return .err

def processBugOnPacket : Code Rc := return .err

/-- The table `pcmds`. -/
def pcmds (p : Packet) : List (UInt32 × Code Rc) :=
  [(pcmdSync, processBugOnPacket), (pcmdCnxn, processCnxnPacket), (pcmdOpen, processOpenPacket p),
    (pcmdOkay, processOkayPacket), (pcmdClse, processClosePacket), (pcmdWrte, processWritePacket),
    (pcmdAuth, processAuthPacket), (pcmdStls, processBugOnPacket)]

/-- The search through `pcmds` for the command of `p`. -/
def processPcmd (p : Packet) : Code Rc :=
  match (pcmds p).find? fun entry => entry.1 = p.header.pcmd with
  | some entry => entry.2
  | none => return .err

/-- `xdbd_process_packet(r, r->p)`. -/
def processPacket : Code Rc := do
  let r ← getRequest
  if r.p.header.magic ≠ ~~~r.p.header.pcmd then return .err
  else
    match r.out with
    | some _ => processPcmd r.p
    | none =>
      match ← createBuf 1024 with
      | none => return .err
      | some out =>
        setRequest { r with out := some out }
        processPcmd r.p

end Xdbd

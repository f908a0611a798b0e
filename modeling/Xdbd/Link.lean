import Xdbd.ConnectionTable

/-!
# One connection by itself

The programs of the read handlers, run on a single slot. The registry and the free list
are gone: what is left of them is whether the events are registered and that a closed
connection has no descriptor. A slot of the daemon is seen through `norm`, which forgets
the position of its events in the registry and the link to the next free slot.
-/
namespace Xdbd
open Interaction

def Event.norm (e : Event) : Event := { e with index := e.index.map fun _ => 0 }

def Data.norm : Data → Data
  | .conn _ => .null
  | d => d

def Slot.norm (s : Slot) : Slot :=
  { s with
    conn := { s.conn with data := s.conn.data.norm }
    read := s.read.norm
    write := s.write.norm }

namespace Slot

/-- `xdbd_select_add_event` of the read event. -/
def addRead (s : Slot) : Slot :=
  if s.read.index ≠ none then s
  else { s with read := { s.read with active := true, index := some 0 } }

/-- `xdbd_select_del_event` of the read event. -/
def delRead (s : Slot) : Rc × Slot :=
  if s.read.index = none then (.err, s) else (.ok, { s with read := { s.read with index := none } })

def handleReadEvent (s : Slot) (closeEvent : Bool) : Rc × Slot :=
  if s.read.active = false ∧ s.read.ready = false then
    if s.addRead.read.active ∧ (s.addRead.read.ready ∨ closeEvent) then s.addRead.delRead
    else (.ok, s.addRead)
  else (.ok, s)

/-- The slot after `xdbd_adb_close_connection`. -/
def closed (s : Slot) : Slot :=
  { s with
    conn := { s.conn with data := .null, fd := -1, destroyed := true }
    read := { s.read with index := if s.read.active then none else s.read.index, closed := true }
    write :=
      { s.write with index := if s.write.active then none else s.write.index, closed := true } }

/-- The operations of a read handler on its own slot. -/
def exec : Prog.Interp Op Op.Res Fault Slot
  | .slot o, s => o.exec s
  | .handleReadEvent flags, s => .ok (s.handleReadEvent (flags % 2 = 1))
  | .delReadEvent, s => .ok s.delRead
  | .closeConnection, s =>
    if s.conn.listening = none then .error .nullDeref
    else if s.conn.fd = -1 then .error .doubleFree
    else .ok ((), s.closed)

end Slot

/-! ## What an operation leaves -/

namespace Slot

def received (s : Slot) (b : Buf) (off : ℤ) (size : ℕ) : Slot :=
  let r := unixRecv s.read size s.wire.recvs
  { s with
    conn := { s.conn with buffer := some { b with mem := Block.write b.mem off.toNat r.bytes } }
    read := r.rev
    wire := { s.wire with recvs := r.rest } }.log
      (.recv ⟨s.read.handler, s.dlen, b.pos, b.last, b.cap, off, size, r.n, r.bytes⟩)

def sentOut (s : Slot) (bs : List UInt8) : Slot := (s.send bs).2

end Slot

/-- The slot after an operation that is no fault. -/
def SlotOp.after : SlotOp → Slot → Slot
  | .setHandler h, s => { s with read := { s.read with handler := some (.adb h) } }
  | .setTimeout, s => { s with conn := { s.conn with timeout := true } }
  | .setBuffer b, s => { s with conn := { s.conn with buffer := some b } }
  | .setRequest r, s => { s with conn := { s.conn with data := .request r } }
  | .setData r, s => { s with conn := { s.conn with data := r.elim .null .request } }
  | .palloc size, s => (s.palloc size).2
  | .recv off size, s => s.conn.buffer.elim s fun b => s.received b off size
  | .send bs, s => s.sentOut bs
  | .note o, s => s.log o
  | _, s => s

/-- The operations that a released connection is a fault for. -/
def SlotOp.NeedsConnection : SlotOp → Prop
  | .readEvent | .setHandler _ | .setTimeout | .note _ => False
  | _ => True

lemma SlotOp.exec_alive (o : SlotOp) {s t : Slot} {a : o.Res} (h : o.exec s = .ok (a, t))
    (ho : o.NeedsConnection) : s.conn.destroyed = false := by
  cases o with
  | readEvent | setHandler _ | setTimeout | note _ => exact ho.elim
  | fault _ => cases h
  | _ =>
    simp only [exec] at h
    split_ifs at h with hd
    exact Bool.eq_false_iff.mpr hd

lemma SlotOp.getRequest_data {s t : Slot} {r : Request}
    (h : SlotOp.exec .getRequest s = .ok (r, t)) : s.conn.data = .request r := by
  simp only [exec] at h
  split_ifs at h
  split at h
  · rename_i r' hr
    cases h
    exact hr
  · cases h
  · cases h

lemma Slot.recv_received {s t : Slot} {b : Buf} {off : ℤ} {size : ℕ} {n : ℤ}
    (h : s.recv b off size = .ok (n, t)) : t = s.received b off size := by
  unfold Slot.recv at h
  simp only at h
  split_ifs at h
  cases h
  rfl

theorem SlotOp.exec_after {o : SlotOp} {s t : Slot} {a : o.Res} (h : o.exec s = .ok (a, t)) :
    t = o.after s := by
  have hsnd : ∀ {x : o.Res × Slot}, Except.ok x = (Except.ok (a, t) : Except Fault _) → t = x.2 :=
    fun hx => congrArg Prod.snd (Except.ok.inj hx).symm
  cases o with
  | readEvent | setHandler _ | setTimeout | note _ => exact hsnd h
  | getBuffer | setBuffer _ | setRequest _ | setData _ | palloc _ | send _ =>
    simp only [exec] at h
    split_ifs at h
    exact hsnd h
  | getRequest =>
    simp only [exec] at h
    split_ifs at h
    split at h
    · exact hsnd h
    · cases h
    · cases h
  | recv off size =>
    simp only [exec] at h
    split_ifs at h
    split at h
    · cases h
    · rename_i b hb
      rw [after, hb]
      exact Slot.recv_received h
  | fault f => cases h

/-! ## What the operations of a handler leave alone -/

/-- The fields of a slot that its own operations write; a handler is replaced by another one
of an accepted connection, and `c->data` of a released connection is not written. -/
structure SameFrame (s t : Slot) : Prop where
  conn : t.conn = { s.conn with data := t.conn.data, sent := t.conn.sent,
                                buffer := t.conn.buffer, timeout := t.conn.timeout }
  read : t.read = { s.read with handler := t.read.handler, ready := t.read.ready,
                                eof := t.read.eof, error := t.read.error }
  write : t.write = { s.write with ready := t.write.ready, error := t.write.error }
  handler : t.read.handler = s.read.handler ∨ ∃ h, t.read.handler = some (.adb h)
  data : s.conn.destroyed = true → t.conn.data = s.conn.data

lemma SameFrame.refl (s : Slot) : SameFrame s s := ⟨rfl, rfl, rfl, .inl rfl, fun _ => rfl⟩

lemma SameFrame.log (s : Slot) (o : Obs) : SameFrame s (s.log o) :=
  ⟨rfl, rfl, rfl, .inl rfl, fun _ => rfl⟩

lemma Slot.palloc_frame (s : Slot) (size : ℕ) : SameFrame s (s.palloc size).2 := by
  unfold Slot.palloc
  split_ifs
  · exact SameFrame.refl s
  · cases s.wire.allocs with
    | nil => exact SameFrame.log s _
    | cons m rest =>
      exact ⟨rfl, rfl, rfl, .inl rfl, fun _ => rfl⟩

lemma Slot.received_frame (s : Slot) (b : Buf) (off : ℤ) (size : ℕ) :
    SameFrame s (s.received b off size) := by
  have hrev := unixRecv_rev s.read size s.wire.recvs
  unfold Slot.received
  refine ⟨rfl, ?_, rfl, .inl ?_, fun _ => rfl⟩ <;> simp only [Slot.log] <;> rw [hrev]

lemma Slot.send_frame (s : Slot) (bs : List UInt8) : SameFrame s (s.send bs).2 := by
  have hwev := unixSend_wev s.write s.conn.sent bs.length s.wire.sends
  unfold Slot.send
  refine ⟨rfl, rfl, ?_, .inl rfl, fun _ => rfl⟩
  simp only [Slot.log]
  rw [hwev]

theorem SlotOp.exec_frame {o : SlotOp} {s t : Slot} {a : o.Res} (h : o.exec s = .ok (a, t)) :
    SameFrame s t := by
  have halive := fun hd => o.exec_alive h hd
  rw [exec_after h]
  cases o with
  | readEvent | getBuffer | getRequest | fault _ => exact SameFrame.refl s
  | setHandler h' => exact ⟨rfl, rfl, rfl, .inr ⟨h', rfl⟩, fun _ => rfl⟩
  | setTimeout | setBuffer _ => exact ⟨rfl, rfl, rfl, .inl rfl, fun _ => rfl⟩
  | setRequest _ | setData _ =>
    exact ⟨rfl, rfl, rfl, .inl rfl, fun hd => absurd (halive trivial) (by simp [hd])⟩
  | note o => exact SameFrame.log s o
  | palloc size => exact Slot.palloc_frame s size
  | recv off size =>
    simp only [after]
    cases s.conn.buffer with
    | none => exact SameFrame.refl s
    | some b => exact s.received_frame b off size
  | send bs => exact s.send_frame bs

/-! ## Seen through `norm` -/

lemma Event.norm_index_none (e : Event) : e.norm.index = none ↔ e.index = none := by
  simp [Event.norm]

@[simp] lemma Slot.norm_dlen (s : Slot) : s.norm.dlen = s.dlen := by
  cases h : s.conn.data <;> simp [Slot.dlen, Slot.norm, Data.norm, h]

lemma unixRecv_norm (rev : Event) (size : ℕ) (ks : List RecvResult) :
    unixRecv rev.norm size ks =
      { unixRecv rev size ks with rev := (unixRecv rev size ks).rev.norm } :=
  unixRecv_map (fun _ => rfl) (fun _ => rfl) (fun _ => rfl) rev size ks

lemma unixSend_norm (wev : Event) (sent : ℤ) (size : ℕ) (ks : List SendResult) :
    unixSend wev.norm sent size ks =
      { unixSend wev sent size ks with wev := (unixSend wev sent size ks).wev.norm } := by
  have ht : ∀ (v : Event) (n : ℕ) (rest : List SendResult),
      transmitted v.norm sent size n rest =
        { transmitted v sent size n rest with
          wev := (transmitted v sent size n rest).wev.norm } := by
    intro v n rest
    unfold transmitted
    split_ifs <;> rfl
  induction ks generalizing wev with
  | nil => exact ht _ _ _
  | cons k ks ih =>
    cases k with
    | full => exact ht _ _ _
    | short n => exact ht _ _ _
    | again => rfl
    | intr => exact ih { wev with ready := false }
    | fail => rfl

/-- Two results on a slot and on its normal form agree. -/
def NormAgree {α : Type} (x y : Except Fault (α × Slot)) : Prop :=
  Prog.Agree (fun s t => t = s.norm) x y

lemma Slot.palloc_norm (s : Slot) (size : ℕ) :
    s.norm.palloc size = ((s.palloc size).1, (s.palloc size).2.norm) := by
  have hw : s.norm.wire = s.wire := rfl
  unfold Slot.palloc
  rw [hw]
  split_ifs
  · rfl
  · cases s.wire.allocs <;> rfl

lemma Slot.recv_norm (s : Slot) (b : Buf) (off : ℤ) (size : ℕ) :
    NormAgree (s.recv b off size) (s.norm.recv b off size) := by
  have hr : unixRecv s.norm.read size s.norm.wire.recvs =
      { unixRecv s.read size s.wire.recvs with
        rev := (unixRecv s.read size s.wire.recvs).rev.norm } :=
    unixRecv_norm s.read size s.wire.recvs
  unfold Slot.recv
  simp only [hr, Slot.norm_dlen]
  split_ifs
  · trivial
  · exact ⟨rfl, rfl⟩

lemma Slot.send_norm (s : Slot) (bs : List UInt8) :
    s.norm.send bs = ((s.send bs).1, (s.send bs).2.norm) := by
  have hr : unixSend s.norm.write s.norm.conn.sent bs.length s.norm.wire.sends =
      { unixSend s.write s.conn.sent bs.length s.wire.sends with
        wev := (unixSend s.write s.conn.sent bs.length s.wire.sends).wev.norm } :=
    unixSend_norm s.write s.conn.sent bs.length s.wire.sends
  unfold Slot.send
  simp only [hr]
  rfl

/-- The operations of a handler on its slot do not look at what `norm` forgets. -/
theorem SlotOp.exec_norm (o : SlotOp) (s : Slot) : NormAgree (o.exec s) (o.exec s.norm) := by
  have hd : s.norm.conn.destroyed = s.conn.destroyed := rfl
  cases o with
  | readEvent => exact ⟨rfl, rfl⟩
  | setHandler _ | setTimeout | note _ => exact ⟨rfl, rfl⟩
  | getBuffer | setBuffer _ | setRequest _ =>
    simp only [SlotOp.exec, hd]
    split_ifs
    · trivial
    · exact ⟨rfl, rfl⟩
  | setData r =>
    simp only [SlotOp.exec, hd]
    split_ifs
    · trivial
    · cases r <;> exact ⟨rfl, rfl⟩
  | getRequest =>
    simp only [SlotOp.exec, hd]
    split_ifs
    · trivial
    · rw [show s.norm.conn.data = s.conn.data.norm from rfl]
      cases s.conn.data with
      | null => trivial
      | conn j => trivial
      | request r => exact ⟨rfl, rfl⟩
  | palloc size =>
    simp only [SlotOp.exec, hd, Slot.palloc_norm]
    split_ifs
    · trivial
    · exact ⟨rfl, rfl⟩
  | recv off size =>
    have hu : s.norm.conn.unixIo = s.conn.unixIo := rfl
    have hb : s.norm.conn.buffer = s.conn.buffer := rfl
    simp only [SlotOp.exec, hd, hu, hb]
    split_ifs
    · trivial
    · split
      · trivial
      · exact Slot.recv_norm s _ off size
    · trivial
  | send bs =>
    have hu : s.norm.conn.unixIo = s.conn.unixIo := rfl
    simp only [SlotOp.exec, hd, hu, Slot.send_norm]
    split_ifs
    · trivial
    · exact ⟨rfl, rfl⟩
    · trivial
  | fault f => trivial

end Xdbd

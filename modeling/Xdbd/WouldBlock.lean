import Xdbd.Paused
import Xdbd.ReplyRuns
import Xdbd.Interrupts
import Xdbd.Progress

/-!
# Reads that would block

A read event whose `recv` would block, put between the other read events of a connection: where it
changes nothing, and what the events after it do.
-/
namespace Xdbd
open Interaction Code

variable {s t u v : Slot} {b : Buf} {h : List Obs} {ks : List RecvResult}

/-! ## The past of a connection -/

/-- The slot with a longer past. -/
def Slot.prior (h : List Obs) (s : Slot) : Slot :=
  { s with wire := { s.wire with history := h ++ s.wire.history } }

lemma Slot.prior_log (h : List Obs) (s : Slot) (o : Obs) :
    (s.prior h).log o = (s.log o).prior h := by
  unfold Slot.prior Slot.log
  simp only [List.append_assoc]

lemma Slot.prior_delRead (h : List Obs) (s : Slot) :
    (s.prior h).delRead = (s.delRead.1, s.delRead.2.prior h) := by
  unfold Slot.delRead
  rw [show (s.prior h).read = s.read from rfl]
  split_ifs <;> rfl

lemma Slot.prior_addRead (h : List Obs) (s : Slot) : (s.prior h).addRead = s.addRead.prior h := by
  unfold Slot.addRead
  rw [show (s.prior h).read = s.read from rfl]
  split_ifs <;> rfl

lemma Slot.prior_handleReadEvent (h : List Obs) (s : Slot) (closeEvent : Bool) :
    (s.prior h).handleReadEvent closeEvent =
      ((s.handleReadEvent closeEvent).1, (s.handleReadEvent closeEvent).2.prior h) := by
  unfold Slot.handleReadEvent
  rw [s.prior_addRead h, Slot.prior_delRead, show (s.prior h).read = s.read from rfl,
    show (s.addRead.prior h).read = s.addRead.read from rfl]
  split_ifs <;> rfl

theorem prior_simulates (h : List Obs) :
    Prog.Simulates Slot.exec Slot.exec fun s t => t = s.prior h := by
  rintro op s _ rfl
  have hd : (s.prior h).conn = s.conn := rfl
  cases op with
  | handleReadEvent flags =>
    simp only [Slot.exec, s.prior_handleReadEvent h]
    exact ⟨rfl, rfl⟩
  | delReadEvent =>
    simp only [Slot.exec, s.prior_delRead h]
    exact ⟨rfl, rfl⟩
  | closeConnection =>
    simp only [Slot.exec, hd]
    split_ifs
    · trivial
    · trivial
    · exact ⟨rfl, rfl⟩
  | slot o =>
    show Prog.Agree _ (o.exec s) (o.exec (s.prior h))
    cases o with
    | readEvent | setHandler _ | setTimeout => exact ⟨rfl, rfl⟩
    | note o => exact ⟨rfl, s.prior_log h o⟩
    | fault f => trivial
    | getBuffer | setBuffer _ | setRequest _ | setData _ =>
      simp only [SlotOp.exec, hd]
      split_ifs
      · trivial
      · exact ⟨rfl, rfl⟩
    | getRequest =>
      simp only [SlotOp.exec, hd]
      split_ifs
      · trivial
      · cases s.conn.data with
        | null | conn _ => trivial
        | request r => exact ⟨rfl, rfl⟩
    | palloc size =>
      simp only [SlotOp.exec, hd]
      split_ifs
      · trivial
      · unfold Slot.palloc
        split_ifs
        · exact ⟨rfl, rfl⟩
        · rw [show (s.prior h).wire.allocs = s.wire.allocs from rfl]
          cases s.wire.allocs with
          | nil => exact ⟨rfl, s.prior_log h _⟩
          | cons m rest =>
            exact ⟨rfl, Slot.prior_log h { s with wire := { s.wire with allocs := rest } } _⟩
    | recv off size =>
      simp only [SlotOp.exec, hd]
      split_ifs
      · trivial
      · cases s.conn.buffer with
        | none => trivial
        | some b =>
          show Prog.Agree _ (s.recv b off size) ((s.prior h).recv b off size)
          unfold Slot.recv
          rw [show (s.prior h).wire.recvs = s.wire.recvs from rfl,
            show (s.prior h).read = s.read from rfl, show (s.prior h).dlen = s.dlen from rfl]
          dsimp only
          split_ifs
          · trivial
          · exact ⟨rfl, Slot.prior_log h { s with
              conn := { s.conn with buffer := some { b with mem := _ } }
              read := _
              wire := { s.wire with recvs := _ } } _⟩
      · trivial
    | send bs =>
      simp only [SlotOp.exec, hd]
      split_ifs
      · trivial
      · exact ⟨rfl, Slot.prior_log h { s with
          conn := { s.conn with sent := _ }
          write := _
          wire := { s.wire with sends := _ } } _⟩
      · trivial

/-- The slot without its past, and with a read event that is not ready. -/
def Slot.core (s : Slot) : Slot :=
  { s with
    read := { s.read with ready := false }
    wire := { s.wire with history := [] } }

lemma Slot.readied_core (s : Slot) : s.readied = s.core.readied.prior s.wire.history := by
  unfold Slot.readied Slot.core Slot.prior
  simp only [List.append_nil]

theorem Slot.readEvent_core (s : Slot) :
    (∃ e e', s.readEvent = .error e ∧ s.core.readEvent = .error e') ∨
      ∃ t u, s.readEvent = .ok t ∧ s.core.readEvent = .ok u ∧ t.core = u.core ∧
        t.wire.history = s.wire.history ++ u.wire.history := by
  have hrest : s.readEvent = .ok s → s.core.readEvent = .ok s.core → ∃ t u, s.readEvent = .ok t ∧
      s.core.readEvent = .ok u ∧ t.core = u.core ∧
        t.wire.history = s.wire.history ++ u.wire.history := fun h h' =>
    ⟨s, s.core, h, h', rfl, (List.append_nil _).symm⟩
  unfold Slot.readEvent at hrest ⊢
  rw [show s.core.read.index = s.read.index from rfl,
    show s.core.read.handler = s.read.handler from rfl] at hrest ⊢
  split_ifs at hrest ⊢ with hi
  · exact .inr (hrest rfl rfl)
  · cases hh : s.read.handler with
    | none =>
      rw [hh] at hrest
      exact .inr (hrest rfl rfl)
    | some hd =>
      cases hd with
      | eventAccept =>
        rw [hh] at hrest
        exact .inr (hrest rfl rfl)
      | adb hd =>
        dsimp only
        have hrun := (prior_simulates s.wire.history).run (code hd) s.readied_core
        rcases hrun.cases with ⟨e, e', hx, hy⟩ | ⟨a, u, t, hx, hy, hu⟩
        · rw [hx, hy]
          exact .inl ⟨e', e, rfl, rfl⟩
        · rw [hx, hy]
          refine .inr ⟨t, u, rfl, rfl, ?_, ?_⟩
          · rw [hu]
            rfl
          · rw [hu]
            rfl

/-! ## A call that would block -/

/-- The slot after a call of `c->recv` that would block. -/
def Slot.deferred (s : Slot) (b : Buf) (off : ℤ) (size : ℕ) (ks : List RecvResult) : Slot :=
  { s with
    read := { s.read with ready := false }
    wire := { s.wire with recvs := ks } }.log
      (.recv ⟨s.read.handler, s.dlen, b.pos, b.last, b.cap, off, size, xdbdAgain, []⟩)

lemma run_getBuffer (hs : s.conn.destroyed = false) :
    Prog.run Slot.exec getBuffer s = .ok (s.conn.buffer, s) := by
  refine (Prog.run_ask _ _ _).trans ?_
  simp only [Slot.exec, SlotOp.exec, hs]
  rfl

lemma run_setBuffer (b : Buf) (hs : s.conn.destroyed = false) :
    Prog.run Slot.exec (setBuffer b) s = .ok ((), s.withBuffer b) :=
  (Prog.run_ask _ _ _).trans (if_neg (by rw [hs]; exact Bool.false_ne_true))

lemma run_recv_blocked (hs : s.Open) (hb : s.conn.buffer = some b)
    (hr : s.wire.recvs = .again :: ks) (off : ℤ) (size : ℕ) :
    Prog.run Slot.exec (recv off size) s = .ok (xdbdAgain, s.deferred b off size ks) := by
  have hd := hs.alive
  have hu := hs.unixIo
  have he : Slot.exec (.slot (.recv off size)) s = s.recv b off size := by
    simp only [Slot.exec, SlotOp.exec, hd, hu, hb]
    rfl
  have ht : unixRecv s.read size s.wire.recvs =
    ⟨{ s.read with ready := false }, xdbdAgain, [], ks⟩ := by
    rw [hr, unixRecv]
  have hsame : ({ s.conn with buffer := some b } : Connection) = s.conn := by rw [← hb]
  refine (Prog.run_ask _ _ _).trans (he.trans ?_)
  unfold Slot.recv Slot.deferred
  rw [ht]
  dsimp only
  rw [if_neg (fun hne => hne.1 rfl), Block.write_nil, hsame]

lemma run_handleReadEvent (hs : s.read.active = true) :
    Prog.run Slot.exec (Code.handleReadEvent 0) s = .ok (.ok, s) := by
  have hn : s.handleReadEvent (decide (0 % 2 = 1)) = (.ok, s) := by
    simp [Slot.handleReadEvent, hs]
  exact (Prog.run_ask _ _ _).trans (congrArg Except.ok hn)

lemma run_recvIfReady_blocked (hs : s.Open) (hready : s.read.ready = true)
    (hb : s.conn.buffer = some b) (hr : s.wire.recvs = .again :: ks) :
    Prog.run Slot.exec (recvIfReady b) s =
      .ok (xdbdAgain, s.deferred b b.last (sizeT (b.cap - b.last)) ks) := by
  unfold recvIfReady
  rw [Prog.run_bind_of_ok (show Prog.run Slot.exec readEvent s = .ok (_, s) from rfl),
    if_pos hready]
  exact run_recv_blocked hs hb hr _ _

lemma run_processHeader_blocked (hs : s.Open) (hready : s.read.ready = true)
    (htimeout : s.read.timeout = false) {r : Request} (hdata : s.conn.data = .request r)
    (hb : s.conn.buffer = some b) (hlt : sizeT (bufSize b) < headerSize)
    (hr : s.wire.recvs = .again :: ks) :
    Prog.run Slot.exec adbProcessAdbHeader s =
      .ok ((), s.deferred b b.last (sizeT (b.cap - b.last)) ks) := by
  have hread : Prog.run Slot.exec adbReadAdbHeader s =
      .ok (sizeT xdbdAgain, s.deferred b b.last (sizeT (b.cap - b.last)) ks) := by
    unfold adbReadAdbHeader
    rw [Prog.run_bind_of_ok (run_getRequest hs.alive hdata),
      Prog.run_bind_of_ok (run_getBuffer hs.alive), hb]
    show Prog.run Slot.exec (if _ then _ else _) s = _
    rw [if_neg (by omega), Prog.run_bind_of_ok (run_recvIfReady_blocked hs hready hb hr),
      if_pos rfl,
      Prog.run_bind_of_ok (run_handleReadEvent (s := s.deferred b b.last _ ks) hs.active)]
    rfl
  unfold adbProcessAdbHeader
  rw [Prog.run_bind_of_ok (show Prog.run Slot.exec readEvent s = .ok (_, s) from rfl)]
  dsimp only
  rw [if_neg (by rw [htimeout]; exact Bool.false_ne_true), Prog.run_bind_of_ok hread,
    if_pos (.inl rfl)]
  rfl

lemma run_processPayload_blocked (hs : s.Open) (hready : s.read.ready = true)
    (htimeout : s.read.timeout = false) {r : Request} (hdata : s.conn.data = .request r)
    (hb : s.conn.buffer = some b) (hlt : bufSize b < r.h.dlen.toNat)
    (hr : s.wire.recvs = .again :: ks) :
    Prog.run Slot.exec adbProcessAdbPayload s =
      .ok ((), (s.deferred b b.last (sizeT (b.cap - b.last)) ks).withBuffer
        { b with last := b.last + xdbdAgain }) := by
  have hread : Prog.run Slot.exec adbReadAdbPayload s =
      .ok (sizeT xdbdAgain, (s.deferred b b.last (sizeT (b.cap - b.last)) ks).withBuffer
        { b with last := b.last + xdbdAgain }) := by
    set t := s.deferred b b.last (sizeT (b.cap - b.last)) ks with ht
    have halive : t.conn.destroyed = false := hs.alive
    have hbuf : t.conn.buffer = some b := hb
    unfold adbReadAdbPayload
    rw [Prog.run_bind_of_ok (run_getRequest hs.alive hdata),
      Prog.run_bind_of_ok (run_getBuffer hs.alive), hb]
    show Prog.run Slot.exec (if _ then _ else _) s = _
    rw [if_neg (by omega), Prog.run_bind_of_ok (run_recvIfReady_blocked hs hready hb hr),
      if_pos rfl,
      ← ht, Prog.run_bind_of_ok (run_handleReadEvent (s := t) hs.active)]
    dsimp only
    rw [if_neg (not_not_intro rfl),
      if_neg again_not_failed,
      Prog.run_bind_of_ok (run_getBuffer halive), hbuf]
    show Prog.run Slot.exec (setBuffer _ >>= _) t = _
    rw [Prog.run_bind_of_ok (run_setBuffer _ halive)]
    rfl
  unfold adbProcessAdbPayload
  rw [Prog.run_bind_of_ok (show Prog.run Slot.exec readEvent s = .ok (_, s) from rfl)]
  dsimp only
  rw [if_neg (by rw [htimeout]; exact Bool.false_ne_true), Prog.run_bind_of_ok hread,
    if_pos (.inl rfl)]
  rfl

lemma run_receiveApacket_blocked (hs : s.Open) (hb : s.conn.buffer = some b)
    (hr : s.wire.recvs = .again :: ks) :
    Prog.run Slot.exec (receiveApacket b) s = .ok ((), s.deferred b 0 b.cap ks) := by
  unfold receiveApacket
  rw [Prog.run_bind_of_ok (run_recv_blocked hs hb hr _ _), if_neg (by decide), if_pos rfl,
    Prog.run_bind_of_ok (run_handleReadEvent (s := s.deferred b 0 b.cap ks) hs.active)]
  rfl

/-! ## The receive buffer of a connection that waits -/

/-- `xdbd_adb_wait_apacket_handler` up to the call of `c->recv`. -/
def prepare : Code (Option Buf) := do
  match ← getBuffer with
  | some b =>
    setBuffer (resetBuf b)
    return some (resetBuf b)
  | none =>
    match ← createBuf adbMaxPacketSize with
    | none => return none
    | some b =>
      setBuffer b
      setBuffer (resetBuf b)
      return some (resetBuf b)

def receiveInto : Option Buf → Code Unit
  | none => Code.closeConnection
  | some b => receiveApacket b

lemma adbWaitApacketHandler_eq : adbWaitApacketHandler = prepare >>= receiveInto := by
  unfold adbWaitApacketHandler prepare
  rw [bind_assoc]
  congr 1
  funext b
  cases b with
  | some b =>
    simp only [bind_assoc, pure_bind, waitApacket_eq]
    rfl
  | none =>
    simp only [bind_assoc]
    congr 1
    funext b
    cases b with
    | none => rfl
    | some b =>
      simp only [bind_assoc, pure_bind, waitApacket_eq]
      rfl

/-- The receive buffer `b` is there and empty, and nothing but memory was asked for. -/
structure Prepared (s : Slot) (b : Buf) (u : Slot) : Prop where
  made : ∃ t, Quiet s t ∧ u = t.withBuffer b
  pos : b.pos = 0
  last : b.last = 0

lemma run_prepare (hs : s.conn.destroyed = false) : ∃ ob u,
    Prog.run Slot.exec prepare s = .ok (ob, u) ∧ ∀ b, ob = some b → Prepared s b u := by
  have hspec : Prog.Ensures Slot.exec (calm False)
      (fun ob u => ∀ b, ob = some b → Prepared s b u) prepare s := by
    unfold prepare
    refine getBuffer_rule (κ := calm False) trivial (.inr hs) fun _ => ?_
    cases s.conn.buffer with
    | some b =>
      refine setBuffer_rule (κ := calm False) _ trivial (.inr hs) fun _ _ =>
        .pure trivial fun b' hb' => ?_
      obtain rfl := Option.some.inj hb'
      exact ⟨⟨s, .refl s, rfl⟩, rfl, rfl⟩
    | none =>
      refine (createBuf_spec (κ := calm False) settled_calm (.inr hs) (by decide)).andThen
        fun res t ⟨ht, hres⟩ => ?_
      have halive : t.conn.destroyed = false := by
        rw [ht.quiet.conn]
        exact hs
      cases res with
      | none => exact .pure trivial fun b hb => (nomatch hb)
      | some b =>
        refine setBuffer_rule (κ := calm False) _ trivial (.inr halive) fun _ _ =>
          setBuffer_rule (κ := calm False) _ trivial (.inr halive) fun _ _ =>
            .pure trivial fun b' hb' => ?_
        obtain rfl := Option.some.inj hb'
        exact ⟨⟨t, ht.quiet, rfl⟩, rfl, rfl⟩
  obtain ⟨ob, u, hrun, hend⟩ := hspec.finishes (fun _ => trivial) id
  exact ⟨ob, u, hrun, hend⟩

lemma run_prepare_empty (hs : s.conn.destroyed = false) (hb : s.conn.buffer = some b)
    (hpos : b.pos = 0) (hlast : b.last = 0) :
    Prog.run Slot.exec prepare s = .ok (some b, s) := by
  have hreset : resetBuf b = b := by
    cases b
    cases hpos
    cases hlast
    rfl
  have hsame : s.withBuffer b = s := by
    unfold Slot.withBuffer
    rw [← hb]
  unfold prepare
  rw [Prog.run_bind_of_ok (run_getBuffer hs), hb]
  show Prog.run Slot.exec (setBuffer (resetBuf b) >>= _) s = _
  rw [Prog.run_bind_of_ok (run_setBuffer _ hs), hreset, hsame]
  rfl

lemma Prepared.again (h : Prepared s b u) (hs : s.conn.destroyed = false) :
    Prog.run Slot.exec prepare u.core.readied = .ok (some b, u.core.readied) := by
  obtain ⟨t, hq, rfl⟩ := h.made
  refine run_prepare_empty ?_ rfl h.pos h.last
  show t.conn.destroyed = false
  rw [hq.conn]
  exact hs

/-- The requests of `prepare`, which are not those for bytes. -/
def Op.Prepares : Op → Prop
  | .slot .getBuffer | .slot (.setBuffer _) | .slot (.palloc _) => True
  | _ => False

lemma prepare_obeys : Prog.Obeys Op.Prepares (fun _ _ => True) (fun _ => True) prepare := by
  unfold prepare createBuf
  refine .ask trivial fun b _ => ?_
  cases b with
  | some b => exact .ask trivial fun _ _ => .pure trivial
  | none =>
    refine .bind (Q := fun _ => True) ?_ fun ob _ => ?_
    · refine .ask trivial fun m _ => ?_
      cases m with
      | none => exact .pure trivial
      | some m =>
        refine .ask trivial fun m' _ => ?_
        cases m' <;> exact .pure trivial
    · cases ob with
      | none => exact .pure trivial
      | some b => exact .ask trivial fun _ _ => .ask trivial fun _ _ => .pure trivial

lemma run_prepare_hearing (ks : List RecvResult) {ob : Option Buf}
    (h : Prog.run Slot.exec prepare s = .ok (ob, u)) :
    Prog.run Slot.exec prepare (s.hearing ks) = .ok (ob, u.hearing ks) := by
  have hagree : Prog.Agree (fun s t => t = s.hearing ks) (Prog.run Slot.exec prepare s)
      (Prog.run Slot.exec prepare (s.hearing ks)) :=
    prepare_obeys.agree (fun _ _ => trivial) (fun op s t hop ht => ?_) rfl
  · rcases hagree.cases with ⟨e, e', hx, -⟩ | ⟨a, x, y, hx, hy, hxy⟩
    · rw [h] at hx
      cases hx
    · rw [h] at hx
      cases hx
      rw [hy, hxy]
  · subst ht
    have hd : (s.hearing ks).conn = s.conn := rfl
    cases op with
    | handleReadEvent _ | delReadEvent | closeConnection => exact hop.elim
    | slot o =>
      show Prog.Agree _ (o.exec s) (o.exec (s.hearing ks))
      cases o with
      | getBuffer | setBuffer _ =>
        simp only [SlotOp.exec, hd]
        split_ifs
        · trivial
        · exact ⟨rfl, rfl⟩
      | palloc size =>
        simp only [SlotOp.exec, hd]
        split_ifs
        · trivial
        · unfold Slot.palloc
          rw [show (s.hearing ks).wire.allocs = s.wire.allocs from rfl]
          split_ifs
          · exact ⟨rfl, rfl⟩
          · cases s.wire.allocs <;> exact ⟨rfl, rfl⟩
      | _ => exact hop.elim

end Xdbd

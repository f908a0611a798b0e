import Xdbd.Progress

/-!
# After a connection was closed

`xdbd_adb_close_connection` is called from inside the readers and from the handler of `CLSE`, up
to four calls deep, and is reported upwards by return codes. In every handler it is the last thing
that happens: each caller turns the code it gets into a return.
-/
namespace Xdbd
open Interaction Code

/-- The calls of `xdbd_adb_close_connection`. -/
def Op.Closes : Op → Prop
  | .closeConnection => True
  | _ => False

/-- Programs that close their connection at most at their end, with a result of `C` then. -/
abbrev ClosesLast {α : Type} (C : α → Prop) (p : Code α) : Prop := Prog.EndsWith Op.Closes C p

/-- Programs that do not close their connection. -/
abbrev KeepsOpen {α : Type} (p : Code α) : Prop :=
  Prog.Obeys (fun op => ¬ op.Closes) (fun _ _ => True) (fun _ => True) p

lemma KeepsOpen.closesLast {α : Type} {C : α → Prop} {p : Code α} (h : KeepsOpen p) :
    ClosesLast C p := h.endsWith fun _ _ => trivial

lemma KeepsOpen.andThen {α β : Type} {C : β → Prop} {p : Code α} {f : α → Code β}
    (h : KeepsOpen p) (hf : ∀ a, ClosesLast C (f a)) : ClosesLast C (p >>= f) :=
  (h.closesLast : ClosesLast (fun _ => False) p).bind (fun _ ha => ha.elim) hf

lemma Op.Builds.keepsOpen {op : Op} (h : op.Builds) : ¬ op.Closes := by
  match op, h with
  | .slot .readEvent, _ | .slot (.palloc _), _ | .slot (.recv _ _), _ | .slot (.fault _), _ =>
    exact id

/-! ## The packet handlers -/

lemma allocPacket_keepsOpen : KeepsOpen allocPacket := by
  refine .ask id fun m _ => ?_
  cases m with
  | none => exact .pure trivial
  | some m =>
    refine (createBuf_obeys Op.Builds.keepsOpen adbMaxPacketSize).bind fun b _ => ?_
    cases b <;> exact .pure trivial

lemma appendPayload_keepsOpen (out : Packet) (str : List UInt8) :
    KeepsOpen (appendPayload out str) := by
  refine (bufAppendMem_obeys Op.Builds.keepsOpen _ _ _).bind fun r _ => ?_
  cases r <;> exact .pure trivial

lemma appendAll_keepsOpen (strs : List (List UInt8)) (out : Packet) :
    KeepsOpen (appendAll out strs) := by
  induction strs generalizing out with
  | nil => exact .pure trivial
  | cons str strs ih => exact (appendPayload_keepsOpen out str).bind fun out' _ => ih out'

lemma appendOutHeader_keepsOpen (h : Header) : KeepsOpen (appendOutHeader h) := by
  refine .ask id fun r _ => deref_obeys Op.Builds.keepsOpen fun out => ?_
  refine (bufAppendMem_obeys Op.Builds.keepsOpen _ _ _).bind fun r' _ => ?_
  cases r' with
  | none => exact .pure trivial
  | some out' => exact .ask id fun _ _ => .ask id fun _ _ => .pure trivial

lemma appendOutPayload_keepsOpen (payload : Buf) : KeepsOpen (appendOutPayload payload) := by
  refine .ask id fun r _ => deref_obeys Op.Builds.keepsOpen fun out => ?_
  refine .bind (.ask id fun _ _ => bufAppendMem_obeys Op.Builds.keepsOpen _ _ _) fun r' _ => ?_
  cases r' with
  | none => exact .pure trivial
  | some out' => exact .ask id fun _ _ => .ask id fun _ _ => .pure trivial

lemma appendOut_keepsOpen (out : Packet) : KeepsOpen (appendOut out) :=
  (appendOutHeader_keepsOpen _).bind fun _ _ => (appendOutPayload_keepsOpen _).bind fun _ _ =>
    .pure trivial

lemma dumpAdbPacket_keepsOpen (p : Packet) : KeepsOpen (dumpAdbPacket p) :=
  dumpAdbPacket_obeys Op.Builds.keepsOpen p

lemma okeyPacket_keepsOpen (out : Packet) : KeepsOpen (okeyPacket out) :=
  .ask id fun _ _ => (dumpAdbPacket_keepsOpen _).bind fun _ _ => .pure trivial

lemma writePacket_keepsOpen (out : Packet) (str : List UInt8) :
    KeepsOpen (writePacket out str) := by
  refine .ask id fun r _ => (bufAppendMem_obeys Op.Builds.keepsOpen _ _ _).bind fun b _ => ?_
  cases b with
  | none => exact .pure trivial
  | some b => exact (dumpAdbPacket_keepsOpen _).bind fun _ _ => .pure trivial

lemma allocPacket_then {f : Option Packet → Code Rc} (hnone : KeepsOpen (f none))
    (hsome : ∀ out, KeepsOpen (f (some out))) : KeepsOpen (allocPacket >>= f) :=
  allocPacket_keepsOpen.bind fun r _ => by
    cases r with
    | none => exact hnone
    | some out => exact hsome out

lemma processCnxnPacket_keepsOpen : KeepsOpen processCnxnPacket :=
  allocPacket_then (.pure trivial) fun _ => (appendPayload_keepsOpen _ _).bind fun _ _ =>
    (dumpAdbPacket_keepsOpen _).bind fun _ _ => appendOut_keepsOpen _

lemma processAuthPacket_keepsOpen : KeepsOpen processAuthPacket :=
  allocPacket_then (.pure trivial) fun _ => (appendAll_keepsOpen _ _).bind fun _ _ =>
    appendOut_keepsOpen _

lemma processShellCmd_keepsOpen : KeepsOpen processShellCmd :=
  allocPacket_then (.pure trivial) fun _ => (okeyPacket_keepsOpen _).bind fun _ _ =>
    appendOut_keepsOpen _

lemma processWritePacket_keepsOpen : KeepsOpen processWritePacket :=
  allocPacket_then (.pure trivial) fun _ => (writePacket_keepsOpen _ _).bind fun _ _ =>
    appendOut_keepsOpen _

lemma pcmds_closesLast (p : Packet) : ∀ entry ∈ pcmds p, ClosesLast (· = .err) entry.2 := by
  have herr : ClosesLast (· = .err) (pure .err : Code Rc) := .pure
  have hopen : ClosesLast (· = .err) (processOpenPacket p) := by
    unfold processOpenPacket
    split_ifs
    · exact herr
    · exact processShellCmd_keepsOpen.closesLast
  intro entry hmem
  simp only [pcmds, List.mem_cons, List.not_mem_nil, or_false] at hmem
  rcases hmem with rfl | rfl | rfl | rfl | rfl | rfl | rfl | rfl
  · exact herr
  · exact processCnxnPacket_keepsOpen.closesLast
  · exact hopen
  · exact processShellCmd_keepsOpen.closesLast
  · exact .last (fun _ => rfl) rfl
  · exact processWritePacket_keepsOpen.closesLast
  · exact processAuthPacket_keepsOpen.closesLast
  · exact herr

lemma processPcmd_closesLast (p : Packet) : ClosesLast (· = .err) (processPcmd p) := by
  rcases processPcmd_eq p with ⟨entry, hmem, -, heq⟩ | ⟨-, heq⟩
  · rw [heq]
    exact pcmds_closesLast p entry hmem
  · rw [heq]
    exact .pure

lemma processPacket_closesLast : ClosesLast (· = .err) processPacket := by
  refine .ask id fun r => ?_
  split_ifs
  · exact .pure
  · split
    · exact processPcmd_closesLast _
    · refine KeepsOpen.andThen (createBuf_obeys Op.Builds.keepsOpen 1024) fun b => ?_
      cases b with
      | none => exact .pure
      | some b => exact .ask id fun _ => processPcmd_closesLast _

/-! ## The read handlers -/

lemma sendReply_keepsOpen (rc : Rc) : KeepsOpen (sendReply rc) := by
  cases rc with
  | again | err => exact .pure trivial
  | ok =>
    refine .ask id fun r _ => deref_obeys Op.Builds.keepsOpen fun out => ?_
    split_ifs
    · exact ⟨id, fun _ _ => trivial⟩
    · exact .ask id fun _ _ => ⟨id, fun _ _ => trivial⟩

lemma updateLast_keepsOpen (n : ℤ) : KeepsOpen (do
    let b ← deref (← getBuffer)
    setBuffer { b with last := b.last + n }
    return sizeT n) :=
  .ask id fun _ _ => deref_obeys Op.Builds.keepsOpen fun _ => .ask id fun _ _ => .pure trivial

lemma closeRequest_closesLast : ClosesLast (· = sizeT xdbdErr) (do
    adbCloseRequest
    return sizeT xdbdErr) := .last (fun _ => rfl) rfl

lemma deref_closesLast {α β : Type} {C : β → Prop} {f : α → Code β} {o : Option α}
    (hf : ∀ a, ClosesLast C (f a)) : ClosesLast C (deref o >>= f) := by
  cases o with
  | none => exact ⟨fun hl => hl.elim, fun _ r => nomatch r⟩
  | some a => exact hf a

lemma adbReadAdbHeader_closesLast : ClosesLast (· = sizeT xdbdErr) adbReadAdbHeader := by
  refine .ask id fun _ => .ask id fun b => deref_closesLast fun b => ?_
  split_ifs
  · exact .pure
  · refine KeepsOpen.andThen (recvIfReady_obeys Op.Builds.keepsOpen b) fun n => ?_
    split_ifs
    · refine .ask id fun rc => ?_
      cases rc with
      | ok => exact .pure
      | err | again => exact closeRequest_closesLast
    · exact closeRequest_closesLast
    · exact (updateLast_keepsOpen n).closesLast

lemma adbReadAdbPayload_closesLast : ClosesLast (· = sizeT xdbdErr) adbReadAdbPayload := by
  refine .ask id fun _ => .ask id fun b => deref_closesLast fun b => ?_
  split_ifs
  · exact .pure
  · refine KeepsOpen.andThen (recvIfReady_obeys Op.Builds.keepsOpen b) fun n => ?_
    have hrest : ∀ armed : Rc, ClosesLast (· = sizeT xdbdErr) (if armed ≠ .ok then (do
          adbCloseRequest
          return sizeT xdbdErr)
        else if n = 0 ∨ n = xdbdErr then (do
          adbCloseRequest
          return sizeT xdbdErr)
        else (do
          let b ← deref (← getBuffer)
          setBuffer { b with last := b.last + n }
          return sizeT n)) := by
      intro armed
      split_ifs
      · exact closeRequest_closesLast
      · exact closeRequest_closesLast
      · exact (updateLast_keepsOpen n).closesLast
    by_cases hn : n = xdbdAgain
    · rw [if_pos hn]
      exact .ask id fun armed => hrest armed
    · rw [if_neg hn]
      exact hrest .ok

lemma adbParseAdbHeader_keepsOpen : KeepsOpen adbParseAdbHeader := by
  refine .ask id fun b _ => deref_obeys Op.Builds.keepsOpen fun b => ?_
  split_ifs
  · exact .pure trivial
  · exact .ask id fun _ _ => .ask id fun _ _ => .ask id fun _ _ => .pure trivial

lemma adbParseAdbPayload_keepsOpen : KeepsOpen adbParseAdbPayload := by
  refine .ask id fun r _ => .ask id fun b _ => deref_obeys Op.Builds.keepsOpen fun b => ?_
  have hrest : KeepsOpen (do
      let r ← getRequest
      dumpAdbPacket r.p
      let b ← deref (← getBuffer)
      setBuffer { b with pos := b.pos + r.p.header.dlen.toNat }
      return Rc.ok) :=
    .ask id fun r _ => (dumpAdbPacket_keepsOpen _).bind fun _ _ => .ask id fun _ _ =>
      deref_obeys Op.Builds.keepsOpen fun _ => .ask id fun _ _ => .pure trivial
  refine .bind (.ask id fun _ _ => bufAppendMem_obeys Op.Builds.keepsOpen _ _ _) fun payload _ => ?_
  cases payload with
  | none => exact hrest
  | some payload => exact .ask id fun _ _ => hrest

lemma timeout_closesLast : ClosesLast (fun _ => True) (do setTimeout; adbCloseRequest) :=
  .ask id fun _ => ⟨fun _ _ => ⟨(), rfl, trivial⟩, fun _ _ => trivial⟩

lemma close_closesLast : ClosesLast (fun _ => True) Code.closeConnection :=
  ⟨fun _ _ => ⟨(), rfl, trivial⟩, fun _ _ => trivial⟩

lemma adbProcessAdbPayload_closesLast : ClosesLast (fun _ => True) adbProcessAdbPayload := by
  refine .ask id fun rev => ?_
  split_ifs
  · exact timeout_closesLast
  · refine adbReadAdbPayload_closesLast.bind (fun n hn => ⟨(), if_pos (.inr hn), trivial⟩)
      fun n => ?_
    split_ifs
    · exact .pure
    · refine adbParseAdbPayload_keepsOpen.andThen fun rc => ?_
      cases rc with
      | ok =>
        refine .ask id fun _ => .ask id fun r => .ask id fun _ => ?_
        refine processPacket_closesLast.bind (fun rc hrc => ?_) fun rc =>
          (sendReply_keepsOpen rc).closesLast
        rw [hrc]
        exact ⟨(), rfl, trivial⟩
      | again => exact .pure
      | err => exact close_closesLast

lemma adbProcessAdbHeader_closesLast : ClosesLast (fun _ => True) adbProcessAdbHeader := by
  refine .ask id fun rev => ?_
  split_ifs
  · exact timeout_closesLast
  · refine adbReadAdbHeader_closesLast.bind (fun n hn => ⟨(), if_pos (.inr hn), trivial⟩)
      fun n => ?_
    split_ifs
    · exact .pure
    · refine adbParseAdbHeader_keepsOpen.andThen fun rc => ?_
      cases rc with
      | ok => exact .ask id fun _ => adbProcessAdbPayload_closesLast
      | again => exact .pure
      | err => exact close_closesLast

lemma waitApacket_closesLast (b : Buf) : ClosesLast (fun _ => True) (waitApacket b) := by
  refine .ask id fun _ => .ask id fun n => ?_
  split_ifs
  · exact close_closesLast
  · refine .ask id fun rc => ?_
    cases rc with
    | ok => exact .pure
    | err | again => exact close_closesLast
  · exact close_closesLast
  · refine .ask id fun b => deref_closesLast fun b => .ask id fun _ => ?_
    refine KeepsOpen.andThen ((adbCreateRequest_obeys Op.Builds.keepsOpen).mono fun _ _ => trivial)
      fun r => ?_
    cases r with
    | none => exact .ask id fun _ => close_closesLast
    | some r => exact .ask id fun _ => .ask id fun _ => adbProcessAdbHeader_closesLast

theorem code_closesLast (h : AdbHandler) : ClosesLast (fun _ => True) (code h) := by
  cases h with
  | adbWaitApacketHandler =>
    refine .ask id fun b => ?_
    cases b with
    | some b => exact waitApacket_closesLast b
    | none =>
      refine KeepsOpen.andThen (createBuf_obeys Op.Builds.keepsOpen adbMaxPacketSize) fun b => ?_
      cases b with
      | none => exact close_closesLast
      | some b => exact .ask id fun _ => waitApacket_closesLast b
  | adbProcessAdbHeader => exact adbProcessAdbHeader_closesLast
  | adbProcessAdbPayload => exact adbProcessAdbPayload_closesLast
  | adbBlockReading =>
    refine .ask id fun rev => ?_
    split_ifs
    · exact .ask id fun _ => .pure
    · exact .pure
  | adbEmptyHandler => exact .pure

/-! ## The close is carried out -/

section
variable {s t : Slot}

structure Slot.Closable (s : Slot) : Prop where
  alive : s.conn.destroyed = false
  listening : s.conn.listening ≠ none
  fd : s.conn.fd ≠ -1

lemma Slot.Closable.exec {op : Op} {r : op.Res} (h : s.Closable)
    (ho : Slot.exec op s = .ok (r, t)) (hop : ¬ op.Closes) : t.Closable := by
  have hconn : t.conn.destroyed = s.conn.destroyed ∧ t.conn.listening = s.conn.listening ∧
      t.conn.fd = s.conn.fd := by
    cases op with
    | slot o =>
      rw [(SlotOp.exec_frame (show o.exec s = .ok (r, t) from ho)).conn]
      exact ⟨rfl, rfl, rfl⟩
    | handleReadEvent flags =>
      obtain rfl : (s.handleReadEvent (flags % 2 = 1)).2 = t := congrArg Prod.snd (Except.ok.inj ho)
      unfold Slot.handleReadEvent Slot.delRead Slot.addRead
      split_ifs <;> exact ⟨rfl, rfl, rfl⟩
    | delReadEvent =>
      obtain rfl : s.delRead.2 = t := congrArg Prod.snd (Except.ok.inj ho)
      unfold Slot.delRead
      split_ifs <;> exact ⟨rfl, rfl, rfl⟩
    | closeConnection => exact absurd trivial hop
  exact ⟨hconn.1.trans h.alive, hconn.2.1 ▸ h.listening, hconn.2.2 ▸ h.fd⟩

lemma ClosesLast.finishes {α : Type} {C : α → Prop} {p : Code α} (hp : ClosesLast C p)
    (hs : s.Closable) (hc : Op.closeConnection ∈ Prog.requests Slot.exec p s) :
    ∃ a t, Prog.run Slot.exec p s = .ok (a, t) ∧ t.conn.destroyed = true := by
  induction p generalizing s with
  | pure a => cases hc
  | call op k ih =>
    rw [Prog.requests] at hc
    rw [Prog.run]
    by_cases hop : op.Closes
    · obtain rfl : op = .closeConnection := by
        cases op with
        | closeConnection => rfl
        | _ => exact hop.elim
      have he : Slot.exec .closeConnection s = .ok ((), s.closed) := by
        simp [Slot.exec, hs.listening, hs.fd]
      obtain ⟨a, hk, -⟩ := hp.1 hop ()
      refine ⟨a, s.closed, ?_, rfl⟩
      rw [he]
      show Prog.run Slot.exec (k ()) s.closed = _
      rw [hk]
      rfl
    · have hmem := (List.mem_cons.mp hc).resolve_left fun he => hop (he ▸ trivial)
      cases ho : Slot.exec op s with
      | error e =>
        rw [ho] at hmem
        cases hmem
      | ok r =>
        rw [ho] at hmem
        exact ih r.1 (hp.2 hop r.1) (hs.exec ho hop) hmem

end

namespace World
variable {w w' : World} {free : List ℕ}

/-- The slot `i` is an accepted connection with the pools `p` and `q`, not closed so far. -/
structure Owns (w : World) (i p q : ℕ) : Prop where
  peer : w.Peer i
  alive : (w.slots i).conn.destroyed = false
  pool : (w.slots i).conn.pool = some p
  tempPool : (w.slots i).conn.tempPool = some q

/-- The two pools live as long as the connection, and not longer. -/
inductive PoolsOf (w : World) (i p q : ℕ) : Prop
  | live (owns : w.Owns i p q) (pool : p ∈ w.livePools) (tempPool : q ∈ w.livePools)
  | destroyed (owns : ¬ w.Owns i p q) (pool : p ∉ w.livePools) (tempPool : q ∉ w.livePools)

lemma Owns.notMem_free {i p q : ℕ} (h : w.Owns i p q) (ht : Table w free) : i ∉ free := fun hi => by
  have := ht.released i hi h.peer.issued
  rw [h.alive] at this
  cases this

lemma Owns.pools {i p q : ℕ} (h : w.Owns i p q) : (w.slots i).pools = [p, q] := by
  simp [Slot.pools, h.pool, h.tempPool]

lemma Owns.live {i p q : ℕ} (h : w.Owns i p q) (ht : Table w free) :
    p ≠ q ∧ p ∈ w.livePools ∧ q ∈ w.livePools := by
  have hentry := ht.entry i ⟨h.peer.issued, h.notMem_free ht⟩
  have hp := hentry.pools
  have hn := hentry.nodup
  rw [h.pools] at hp hn
  exact ⟨by simpa using hn, hp p (by simp), hp q (by simp)⟩

/-- Both pools are there with the connection, or both are gone for good. -/
def Tied (i p q : ℕ) (w : World) : Prop :=
  w.Owns i p q ∨ p ∉ w.livePools ∧ q ∉ w.livePools ∧ p < w.nextPool ∧ q < w.nextPool

lemma Tied.poolsOf {i p q : ℕ} (h : Tied i p q w) (ht : Table w free) : w.PoolsOf i p q := by
  rcases h with h | ⟨hp, hq, -⟩
  · exact .live h (h.live ht).2.1 (h.live ht).2.2
  · exact .destroyed (fun ho => hp (ho.live ht).2.1) hp hq

lemma Owns.congr {i p q : ℕ} (h : w.Owns i p q) (hissued : i ∈ w'.issued)
    (hacc : (w'.slots i).read.accepted = (w.slots i).read.accepted)
    (hlisten : (w'.slots i).conn.listening = (w.slots i).conn.listening)
    (hdest : (w'.slots i).conn.destroyed = (w.slots i).conn.destroyed)
    (hpool : (w'.slots i).conn.pool = (w.slots i).conn.pool)
    (htemp : (w'.slots i).conn.tempPool = (w.slots i).conn.tempPool) : w'.Owns i p q where
  peer := ⟨hissued, hacc.trans h.peer.accepted, by rw [hlisten]; exact h.peer.listening⟩
  alive := hdest.trans h.alive
  pool := hpool.trans h.pool
  tempPool := htemp.trans h.tempPool

lemma Tied.delete {i p q : ℕ} (h : Tied i p q w) (k : ℕ) :
    Tied i p q (w.deletePostedEvent (.read k)) := by
  refine h.imp_left fun ho => ho.congr ho.peer.issued ?_ ?_ ?_ ?_ ?_ <;>
    rw [slots_deletePostedEvent] <;> split_ifs with hk <;> simp [hk]

lemma Tied.accept {i p q l : ℕ} {free' : List ℕ} (h : Tied i p q w) (ht : Table w free)
    (hl : (w.slots l).read.accepted = true) (hacc : Accepting l free free' w w') :
    Tied i p q w' := by
  rcases h with ho | ⟨hp, hq, hpl, hql⟩
  · have hil : i ≠ l := fun he => by
      have := ho.peer.accepted
      rw [he, hl] at this
      cases this
    have hs : w'.slots i = w.slots i :=
      hacc.others i hil fun hf => absurd hf (ho.notMem_free ht)
    refine .inl (ho.congr ((hacc.issued i).mpr (.inl ho.peer.issued)) ?_ ?_ ?_ ?_ ?_) <;> rw [hs]
  · have hnext := hacc.nextPool
    exact .inr ⟨fun hm => hp ((hacc.livePools p hpl).mp hm),
      fun hm => hq ((hacc.livePools q hql).mp hm), by omega, by omega⟩

lemma Tied.handler {i p q k : ℕ} (h : Tied i p q w) (ht : Table w free) (hf : Frame k w w') :
    Tied i p q w' := by
  have hsub : w'.livePools ⊆ w.livePools := by
    rcases hf.livePools with ⟨hl, -⟩ | ⟨hl, -⟩
    · rw [hl]
    · rw [hl]
      exact Finset.sdiff_subset
  rcases h with ho | ⟨hp, hq, hpl, hql⟩
  · by_cases hik : i = k
    · subst hik
      rcases hf.livePools with ⟨hl, hd⟩ | ⟨hl, -⟩
      · exact .inl (ho.congr (hf.issued ▸ ho.peer.issued) hf.accepted hf.listeningOf hd hf.pool
          hf.tempPool)
      · -- its own handler has closed it
        obtain ⟨-, hp, hq⟩ := ho.live ht
        have hgone : ∀ x ∈ (w.slots i).pools, x ∉ w'.livePools := fun x hx hm => by
          rw [hl] at hm
          exact (Finset.mem_sdiff.mp hm).2 (List.mem_toFinset.mpr hx)
        rw [ho.pools] at hgone
        rw [Tied, hf.nextPool]
        exact .inr ⟨hgone p (by simp), hgone q (by simp), ht.poolsLt p hp, ht.poolsLt q hq⟩
    · have hs := hf.others i hik
      exact .inl (ho.congr (hf.issued ▸ ho.peer.issued) hs.similar.accepted
        (by rw [hs.conn]) (by rw [hs.conn]) (by rw [hs.conn]) (by rw [hs.conn]))
  · exact .inr ⟨fun hm => hp (hsub hm), fun hm => hq (hsub hm), hf.nextPool ▸ hpl,
      hf.nextPool ▸ hql⟩

lemma Tied.select {i p q : ℕ} {kernel : Kernel} {v : World} (h : Tied i p q w)
    (hsel : Selected w free kernel v) : Tied i p q v := by
  cases hsel with
  | failed _ hslots hissued _ hpools =>
    rcases h with ho | h
    · refine .inl (ho.congr (hissued ▸ ho.peer.issued) ?_ ?_ ?_ ?_ ?_) <;> rw [hslots]
    · right
      rw [hpools.1, hpools.2]
      exact h
  | @ready n readSet writeSet _ _ =>
    obtain ⟨hlive, hnext⟩ := w.pools_refreshMaxFd
    rcases h with ho | h
    · have hiss : i ∈ w.refreshMaxFd.issued := w.issued_refreshMaxFd ▸ ho.peer.issued
      refine .inl (ho.congr hiss ?_ ?_ ?_ ?_ ?_) <;> rw [slots_scanned, slots_refreshMaxFd]
      split_ifs <;> rfl
    · right
      show p ∉ w.refreshMaxFd.livePools ∧ q ∉ w.refreshMaxFd.livePools ∧
        p < w.refreshMaxFd.nextPool ∧ q < w.refreshMaxFd.nextPool
      rw [hlive, hnext]
      exact h

lemma tied_invariant (i p q : ℕ) : StepInvariant (Tied i p q) where
  accept {w w' free free' l} hj hb hl hacc := by
    obtain ⟨_, he, hu, hla⟩ := hb.accepts _ hl
    obtain rfl := Ev.read.inj he
    exact (hj.accept hb.table hla hacc).delete l
  handler hj hb _ _ hf _ := (hj.handler hb.table hf).delete _
  feed k x hj := by
    refine hj.imp_left fun ho => ho.congr ho.peer.issued
      (congrArg Event.accepted (event_feed k x (.read i))) ?_ ?_ ?_ ?_ <;> rw [conn_feed]
  select hj hidle hk := hj.select (hidle.selected hk)

/-- In a batch a handler that asks for the close carries it out, and destroys both pools. -/
lemma Batch.close_finishes {u : World} (h : Batch u free) {i : ℕ} (hi : .read i ∈ u.postedEvents)
    {hd : AdbHandler} (hc : Op.closeConnection ∈ Prog.requests (World.exec i) (code hd) u) :
    ∃ v p q, Prog.run (World.exec i) (code hd) u = .ok ((), v) ∧ u.Owns i p q ∧
      p ∈ u.livePools ∧ q ∈ u.livePools ∧ p ∉ v.livePools ∧ q ∉ v.livePools := by
  obtain ⟨_, he, hp, hf, -⟩ := h.others _ hi
  obtain rfl := Ev.read.inj he
  obtain ⟨-, -, hfd, hpool, htemp, -⟩ := h.table.peer_entry hp hf
  obtain ⟨p, hp'⟩ := Option.ne_none_iff_exists'.mp hpool
  obtain ⟨q, hq'⟩ := Option.ne_none_iff_exists'.mp htemp
  have halive := (h.table.entry i ⟨hp.issued, hf⟩).alive
  have hown : u.Owns i p q := ⟨hp, halive, hp', hq'⟩
  have hlinked : Linked i u u (u.slots i).norm :=
    ⟨⟨free, h.table, fun hi' => absurd hi' hf⟩, hp, .refl i u, rfl⟩
  rw [(linked_simulates i u).requests (code hd) hlinked] at hc
  have hclosable : (u.slots i).norm.Closable :=
    ⟨halive, hp.listening, fun hn => by rw [show (u.slots i).conn.fd = -1 from hn] at hfd; omega⟩
  obtain ⟨a, t, hrun, hdest⟩ := (code_closesLast hd).finishes hclosable hc
  rcases (h.table.run hp hf (code hd)).cases with ⟨e, e', hx, hy⟩ | ⟨a', v, t', hx, hy, hlink⟩
  · rw [hrun] at hy
    cases hy
  · rw [hrun] at hy
    cases hy
    have hv : (v.slots i).conn.destroyed = true := by
      rw [hlink.norm] at hdest
      exact hdest
    rcases hlink.frame.livePools with ⟨-, hd'⟩ | ⟨hl, -⟩
    · rw [hd', halive] at hv
      cases hv
    · have hgone : ∀ x ∈ (u.slots i).pools, x ∉ v.livePools := fun x hx hm => by
        rw [hl] at hm
        exact (Finset.mem_sdiff.mp hm).2 (List.mem_toFinset.mpr hx)
      rw [hown.pools] at hgone
      obtain ⟨-, hpl, hql⟩ := hown.live h.table
      exact ⟨v, p, q, hx, hown, hpl, hql, hgone p (by simp), hgone q (by simp)⟩

end World

open World

/-- The close is the last thing that a handler does, in every state. In a run it is carried out
once for each connection: while the connection is there both pools are live, a handler that closes
it destroys them, and they are never live again. -/
theorem Run.closed_once {boot : Boot} {w : World} (h : Run boot w) :
    (∀ (hd : AdbHandler) (i : ℕ) (u : World) (before after : List Op),
      Prog.requests (World.exec i) (code hd) u = before ++ .closeConnection :: after →
        after = []) ∧
    (∀ (kernel : Kernel) (i : ℕ) (u : World) (hd : AdbHandler), Allowed w kernel →
      (.read i, u) ∈ (w.processEventsAndTimers kernel).1 →
      (u.slots i).read.handler = some (.adb hd) →
      Op.closeConnection ∈ Prog.requests (World.exec i) (code hd) u →
        ∃ v p q, Prog.run (World.exec i) (code hd) u = .ok ((), v) ∧ u.Owns i p q ∧
          p ∈ u.livePools ∧ q ∈ u.livePools ∧ p ∉ v.livePools ∧ q ∉ v.livePools) ∧
    ∀ (i p q : ℕ) (v : World), w.Owns i p q → Relation.ReflTransGen Step w v →
      p ≠ q ∧ v.PoolsOf i p q := by
  refine ⟨fun hd i u before after hr => (code_closesLast hd).requests hr trivial,
    fun kernel i u hd hk hc hhd hclose => ?_, fun i p q v ho hsteps => ?_⟩
  · have hcalled := (RunInvariant.trivial boot).called h hk _ hc
    obtain ⟨free, hb⟩ := hcalled.batch
    have hposted : Ev.read i ∈ u.postedEvents := by
      refine (List.mem_append.mp hcalled.posted).resolve_left fun hm => ?_
      obtain ⟨l, he, hl, hacc⟩ := hb.accepts _ hm
      obtain rfl := Ev.read.inj he
      have := ((hb.table.entry i hl).listener hacc).1
      rw [hhd] at this
      cases this
    exact hb.close_finishes hposted hclose
  · have hkeep : ∀ v, Relation.ReflTransGen Step w v → (∃ free, Idle v free) ∧ Tied i p q v := by
      intro v hv
      induction hv with
      | refl => exact ⟨h.idle, .inl ho⟩
      | tail _ hstep ih =>
        obtain ⟨⟨free, hidle⟩, hj⟩ := ih
        exact (tied_invariant i p q).step hidle hj hstep
    obtain ⟨free, hidle⟩ := h.idle
    obtain ⟨⟨free', hidle'⟩, hj⟩ := hkeep v hsteps
    exact ⟨(ho.live hidle.table).1, hj.poolsOf hidle'.table⟩

theorem Run.closed_once_hungUp : 0 ≠ 1 ∧ hungUp.PoolsOf 1 0 1 :=
  (run_oneClient ⟨[.bytes []], [], [], []⟩).closed_once.2.2 1 0 1 hungUp
    ⟨⟨by decide, by decide, by decide⟩, rfl, rfl, rfl⟩
    (.single (.reporting {4} (by decide) (by decide) rfl))

end Xdbd

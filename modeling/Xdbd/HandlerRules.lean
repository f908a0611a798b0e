import Xdbd.Runs

/-!
# Rules for the operations of a handler

One rule for each operation on a slot: what its answer is, what it changes and when it is a
fault. Allocations and the copies between buffers change nothing that the rest of the daemon
or the peer can see, so they are collected into one relation.
-/
namespace Xdbd
open Interaction Code

/-! ## Quiet steps -/

/-- Allocations, and copies between buffers with cursors in order. -/
def Obs.Quiet : Obs → Prop
  | .alloc _ _ => True
  | .append pos last len => 0 ≤ pos ∧ pos ≤ last ∧ (len : ℤ) = last - pos
  | _ => False

/-- From `s` to `t` memory was allocated and copied, and nothing else happened. -/
structure Quiet (s t : Slot) : Prop where
  same : t = { s with wire := { s.wire with allocs := t.wire.allocs, history := t.wire.history } }
  allocs : t.wire.allocs <:+ s.wire.allocs
  history : ∃ new, t.wire.history = s.wire.history ++ new ∧ ∀ o ∈ new, o.Quiet

variable {s t u : Slot}

lemma Quiet.refl (s : Slot) : Quiet s s :=
  ⟨rfl, List.suffix_rfl, [], by simp, fun _ ho => by cases ho⟩

lemma Quiet.trans (h : Quiet s t) (h' : Quiet t u) : Quiet s u := by
  obtain ⟨new, hnew, hq⟩ := h.history
  obtain ⟨new', hnew', hq'⟩ := h'.history
  refine ⟨?_, h'.allocs.trans h.allocs, new ++ new', ?_, fun o ho => ?_⟩
  · rw [h'.same, h.same]
  · rw [hnew', hnew, List.append_assoc]
  · exact (List.mem_append.mp ho).elim (hq o) (hq' o)

lemma Quiet.conn (h : Quiet s t) : t.conn = s.conn := by rw [h.same]
lemma Quiet.read (h : Quiet s t) : t.read = s.read := by rw [h.same]
lemma Quiet.recvs (h : Quiet s t) : t.wire.recvs = s.wire.recvs := by rw [h.same]

lemma Quiet.log (s : Slot) {o : Obs} (ho : o.Quiet) : Quiet s (s.log o) :=
  ⟨rfl, List.suffix_rfl, [o], rfl, fun _ ho' => by rw [List.mem_singleton.mp ho']; exact ho⟩

/-- The contract holds in `s` and after any quiet steps from there. -/
structure Settled (κ : Prog.Contract Slot) (s : Slot) : Prop where
  assume : κ.assume s
  keep : ∀ t, Quiet s t → κ.assume t → κ.keep t

variable {κ : Prog.Contract Slot}

lemma Settled.holds (h : Settled κ s) : κ.keep s := h.keep s (.refl s) h.assume

lemma Settled.next (h : Settled κ s) (hq : Quiet s t) (ht : κ.assume t) : Settled κ t :=
  ⟨ht, fun u hu ha => h.keep u (hq.trans hu) ha⟩

/-- No allocation to come fails. -/
def Slot.AllocsSucceed (s : Slot) : Prop := ∀ m ∈ s.wire.allocs, m ≠ none

lemma Quiet.allocsSucceed (h : Quiet s t) (hs : s.AllocsSucceed) : t.AllocsSucceed :=
  fun m hm => hs m (h.allocs.subset hm)

/-! ## The operations -/

section
variable {α : Type} {Q : α → Slot → Prop}

lemma readEvent_rule {f : Flags → Code α} (hs : κ.keep s)
    (hk : Prog.Ensures Slot.exec κ Q (f ⟨s.read.ready, s.read.timeout, s.read.active⟩) s) :
    Prog.Ensures Slot.exec κ Q (readEvent >>= f) s := .step hs rfl fun _ => hk

lemma setHandler_rule {f : Unit → Code α} (h : AdbHandler) (hs : κ.keep s)
    (hk : κ.assume { s with read := { s.read with handler := some (.adb h) } } →
      Prog.Ensures Slot.exec κ Q (f ()) { s with read :=
        { s.read with handler := some (.adb h) } }) :
    Prog.Ensures Slot.exec κ Q (setHandler h >>= f) s := .step hs rfl hk

lemma setTimeout_rule {f : Unit → Code α} (hs : κ.keep s)
    (hk : κ.assume { s with conn := { s.conn with timeout := true } } →
      Prog.Ensures Slot.exec κ Q (f ()) { s with conn := { s.conn with timeout := true } }) :
    Prog.Ensures Slot.exec κ Q (setTimeout >>= f) s := .step hs rfl hk

lemma note_rule {f : Unit → Code α} (o : Obs) (hs : κ.keep s)
    (hk : κ.assume (s.log o) → Prog.Ensures Slot.exec κ Q (f ()) (s.log o)) :
    Prog.Ensures Slot.exec κ Q (note o >>= f) s := .step hs rfl hk

lemma fault_rule {β : Type} {f : β → Code α} {e : Fault} (hs : κ.keep s) (hf : κ.fail) :
    Prog.Ensures Slot.exec κ Q (fault e >>= f) s :=
  .bind (.call hs (fun _ _ => hf) fun _ _ h => nomatch h)

lemma deref_rule {β : Type} {f : β → Code α} {o : Option β} (hs : κ.keep s)
    (hf : κ.fail ∨ o ≠ none) (hk : ∀ b, o = some b → Prog.Ensures Slot.exec κ Q (f b) s) :
    Prog.Ensures Slot.exec κ Q (deref o >>= f) s := by
  cases o with
  | none => exact .bind (.call hs (fun _ _ => hf.resolve_right (· rfl)) fun _ _ h => nomatch h)
  | some b => exact hk b rfl

lemma alive_rule {op : Op} {f : op.Res → Code α} {r : op.Res} (hs : κ.keep s)
    (hf : κ.fail ∨ s.conn.destroyed = false)
    (hdead : s.conn.destroyed = true → Slot.exec op s = .error .afterClose)
    (halive : s.conn.destroyed = false → Slot.exec op s = .ok (r, t))
    (hk : s.conn.destroyed = false → κ.assume t → Prog.Ensures Slot.exec κ Q (f r) t) :
    Prog.Ensures Slot.exec κ Q (Prog.ask op >>= f) s := by
  cases hd : s.conn.destroyed with
  | false => exact .step hs (halive hd) (hk hd)
  | true => exact .stuck hs (hdead hd) (hf.resolve_right (by simp [hd]))

lemma getBuffer_rule {f : Option Buf → Code α} (hs : κ.keep s)
    (hf : κ.fail ∨ s.conn.destroyed = false)
    (hk : s.conn.destroyed = false → Prog.Ensures Slot.exec κ Q (f s.conn.buffer) s) :
    Prog.Ensures Slot.exec κ Q (getBuffer >>= f) s :=
  alive_rule hs hf (fun hd => if_pos hd) (fun hd => if_neg (by simp [hd])) fun hd _ => hk hd

lemma setBuffer_rule {f : Unit → Code α} (b : Buf) (hs : κ.keep s)
    (hf : κ.fail ∨ s.conn.destroyed = false)
    (hk : s.conn.destroyed = false → κ.assume { s with conn := { s.conn with buffer := some b } } →
      Prog.Ensures Slot.exec κ Q (f ()) { s with conn := { s.conn with buffer := some b } }) :
    Prog.Ensures Slot.exec κ Q (setBuffer b >>= f) s :=
  alive_rule hs hf (fun hd => if_pos hd) (fun hd => if_neg (by simp [hd])) hk

lemma getRequest_rule {f : Request → Code α} (hs : κ.keep s)
    (hf : κ.fail ∨ s.conn.destroyed = false ∧ ∃ r, s.conn.data = .request r)
    (hk : ∀ r, s.conn.destroyed = false → s.conn.data = .request r →
      Prog.Ensures Slot.exec κ Q (f r) s) :
    Prog.Ensures Slot.exec κ Q (getRequest >>= f) s := by
  cases hd : s.conn.destroyed with
  | false =>
    cases hr : s.conn.data with
    | request r =>
      have he : Slot.exec (.slot .getRequest) s = .ok (r, s) := by
        simp only [Slot.exec, SlotOp.exec, hd, hr]
        rfl
      exact .step hs he fun _ => hk r hd hr
    | null =>
      have he : Slot.exec (.slot .getRequest) s = .error .nullDeref := by
        simp only [Slot.exec, SlotOp.exec, hd, hr]
        rfl
      exact .stuck hs he (hf.resolve_right (by simp [hr]))
    | conn j =>
      have he : Slot.exec (.slot .getRequest) s = .error .badLink := by
        simp only [Slot.exec, SlotOp.exec, hd, hr]
        rfl
      exact .stuck hs he (hf.resolve_right (by simp [hr]))
  | true =>
    have he : Slot.exec (.slot .getRequest) s = .error .afterClose := by
      simp only [Slot.exec, SlotOp.exec, hd]
      rfl
    exact .stuck hs he (hf.resolve_right (by simp [hd]))

lemma setRequest_rule {f : Unit → Code α} (r : Request) (hs : κ.keep s)
    (hf : κ.fail ∨ s.conn.destroyed = false)
    (hk : s.conn.destroyed = false →
      κ.assume { s with conn := { s.conn with data := .request r } } →
      Prog.Ensures Slot.exec κ Q (f ()) { s with conn := { s.conn with data := .request r } }) :
    Prog.Ensures Slot.exec κ Q (setRequest r >>= f) s :=
  alive_rule hs hf (fun hd => if_pos hd) (fun hd => if_neg (by simp [hd])) hk

lemma setData_rule {f : Unit → Code α} (r : Option Request) (hs : κ.keep s)
    (hf : κ.fail ∨ s.conn.destroyed = false)
    (hk : s.conn.destroyed = false →
      κ.assume { s with conn := { s.conn with data := r.elim .null .request } } →
      Prog.Ensures Slot.exec κ Q (f ())
        { s with conn := { s.conn with data := r.elim .null .request } }) :
    Prog.Ensures Slot.exec κ Q (setData r >>= f) s :=
  alive_rule hs hf (fun hd => if_pos hd) (fun hd => if_neg (by simp [hd])) hk

lemma recv_rule {f : ℤ → Code α} (off : ℤ) (size : ℕ) (hs : κ.keep s)
    (hf : κ.fail ∨ s.conn.destroyed = false ∧ s.conn.unixIo = true ∧
      ∃ b, s.conn.buffer = some b ∧ ((unixRecv s.read size s.wire.recvs).bytes ≠ [] →
        0 ≤ off ∧ off + (unixRecv s.read size s.wire.recvs).bytes.length ≤ b.cap))
    (hk : ∀ b, s.conn.destroyed = false → s.conn.buffer = some b →
      ((unixRecv s.read size s.wire.recvs).bytes ≠ [] →
        0 ≤ off ∧ off + (unixRecv s.read size s.wire.recvs).bytes.length ≤ b.cap) →
      κ.assume (s.received b off size) →
      Prog.Ensures Slot.exec κ Q (f (unixRecv s.read size s.wire.recvs).n)
        (s.received b off size)) :
    Prog.Ensures Slot.exec κ Q (recv off size >>= f) s := by
  cases hd : s.conn.destroyed with
  | true =>
    have he : Slot.exec (.slot (.recv off size)) s = .error .afterClose := by
      simp only [Slot.exec, SlotOp.exec, hd]
      rfl
    exact .stuck hs he (hf.resolve_right (by simp [hd]))
  | false =>
    cases hu : s.conn.unixIo with
    | false =>
      have he : Slot.exec (.slot (.recv off size)) s = .error .nullCall := by
        simp only [Slot.exec, SlotOp.exec, hd, hu]
        rfl
      exact .stuck hs he (hf.resolve_right (by simp [hu]))
    | true =>
      cases hb : s.conn.buffer with
      | none =>
        have he : Slot.exec (.slot (.recv off size)) s = .error .nullDeref := by
          simp only [Slot.exec, SlotOp.exec, hd, hu, hb]
          rfl
        exact .stuck hs he (hf.resolve_right (by simp [hb]))
      | some b =>
        have he : Slot.exec (.slot (.recv off size)) s = s.recv b off size := by
          simp only [Slot.exec, SlotOp.exec, hd, hu, hb]
          rfl
        unfold Slot.recv at he
        simp only at he
        split_ifs at he with hbad
        · refine .stuck hs he (hf.resolve_right ?_)
          rintro ⟨-, -, b', hb', hin⟩
          obtain rfl : b = b' := Option.some.inj (hb.symm.trans hb')
          have hfit := hin hbad.1
          rcases hbad.2 with h | h <;> omega
        · refine .step hs he (hk b hd hb fun hne => ?_)
          have hin := not_and.mp hbad hne
          omega

lemma send_rule {f : ℤ → Code α} (bs : List UInt8) (hs : κ.keep s)
    (hf : κ.fail ∨ s.conn.destroyed = false ∧ s.conn.unixIo = true)
    (hk : s.conn.destroyed = false → κ.assume (s.sentOut bs) →
      Prog.Ensures Slot.exec κ Q (f (s.send bs).1) (s.sentOut bs)) :
    Prog.Ensures Slot.exec κ Q (send bs >>= f) s := by
  cases hd : s.conn.destroyed with
  | true =>
    have he : Slot.exec (.slot (.send bs)) s = .error .afterClose := by
      simp only [Slot.exec, SlotOp.exec, hd]
      rfl
    exact .stuck hs he (hf.resolve_right (by simp [hd]))
  | false =>
    cases hu : s.conn.unixIo with
    | false =>
      have he : Slot.exec (.slot (.send bs)) s = .error .nullCall := by
        simp only [Slot.exec, SlotOp.exec, hd, hu]
        rfl
      exact .stuck hs he (hf.resolve_right (by simp [hu]))
    | true =>
      have he : Slot.exec (.slot (.send bs)) s = .ok ((s.send bs).1, s.sentOut bs) := by
        simp only [Slot.exec, SlotOp.exec, hd, hu, Slot.sentOut]
        rfl
      exact .step hs he (hk hd)

lemma handleReadEvent_rule {f : Rc → Code α} (hs : κ.keep s) (ha : s.read.active = true)
    (hk : Prog.Ensures Slot.exec κ Q (f .ok) s) :
    Prog.Ensures Slot.exec κ Q (Code.handleReadEvent 0 >>= f) s := by
  have he : Slot.exec (.handleReadEvent 0) s = .ok (.ok, s) := by
    have hn : s.handleReadEvent (decide (0 % 2 = 1)) = (.ok, s) := by
      simp [Slot.handleReadEvent, ha]
    exact congrArg Except.ok hn
  exact .step hs he fun _ => hk

lemma delReadEvent_rule {f : Rc → Code α} (hs : κ.keep s)
    (hk : κ.assume s.delRead.2 → Prog.Ensures Slot.exec κ Q (f s.delRead.1) s.delRead.2) :
    Prog.Ensures Slot.exec κ Q (Code.delReadEvent >>= f) s := .step hs rfl hk

lemma closeConnection_rule {f : Unit → Code α} (hs : κ.keep s)
    (hf : κ.fail ∨ s.conn.listening ≠ none ∧ s.conn.fd ≠ -1)
    (hk : κ.assume s.closed → Prog.Ensures Slot.exec κ Q (f ()) s.closed) :
    Prog.Ensures Slot.exec κ Q (Code.closeConnection >>= f) s := by
  by_cases hl : s.conn.listening = none
  · have he : Slot.exec .closeConnection s = .error .nullDeref := by simp [Slot.exec, hl]
    exact .stuck hs he (hf.resolve_right fun h => h.1 hl)
  · by_cases hfd : s.conn.fd = -1
    · have he : Slot.exec .closeConnection s = .error .doubleFree := by
        simp [Slot.exec, hl, hfd]
      exact .stuck hs he (hf.resolve_right fun h => h.2 hfd)
    · have he : Slot.exec .closeConnection s = .ok ((), s.closed) := by
        simp [Slot.exec, hl, hfd]
      exact .step hs he hk

lemma palloc_spec (h : Settled κ s) (hf : κ.fail ∨ s.conn.destroyed = false) (n : ℕ) :
    Prog.Ensures Slot.exec κ (fun m t => Settled κ t ∧ Quiet s t ∧
      (n ≠ 0 → t.wire.history = s.wire.history ++ [.alloc n m.isSome] ∧
        (s.AllocsSucceed → m ≠ none))) (palloc n) s := by
  refine .of_bind_pure ?_
  refine alive_rule (r := (s.palloc n).1) (t := (s.palloc n).2) h.holds hf (fun hd => if_pos hd)
    (fun hd => if_neg (by simp [hd])) fun _ ht => ?_
  have hquiet : Quiet s (s.palloc n).2 ∧
      (n ≠ 0 → (s.palloc n).2.wire.history = s.wire.history ++ [.alloc n (s.palloc n).1.isSome] ∧
        (s.AllocsSucceed → (s.palloc n).1 ≠ none)) := by
    unfold Slot.palloc
    split_ifs with hn
    · exact ⟨.refl s, fun h => absurd hn h⟩
    · cases ha : s.wire.allocs with
      | nil => exact ⟨.log s trivial, fun _ => ⟨rfl, fun _ => by simp⟩⟩
      | cons m rest =>
        refine ⟨⟨rfl, ?_, [_], rfl, fun o ho => ?_⟩, fun _ => ⟨rfl, fun hs => ?_⟩⟩
        · rw [ha]
          exact List.suffix_cons m rest
        · rw [List.mem_singleton.mp ho]
          trivial
        · exact hs m (by simp [ha])
  have hsettled := h.next hquiet.1 ht
  exact ⟨hsettled.holds, hsettled, hquiet⟩

end

/-! ## Buffers -/

/-- A buffer with its cursors in order. -/
structure Buf.Ok (b : Buf) : Prop where
  pos : 0 ≤ b.pos
  size : b.pos ≤ b.last
  last : b.last ≤ b.cap
  cap : b.cap < 2^32

lemma sizeT_of_nat {n : ℤ} (h : 0 ≤ n) (h' : n < 2^64) : (sizeT n : ℤ) = n := by
  unfold sizeT
  rw [Int.emod_eq_of_lt h h', Int.toNat_of_nonneg h]

lemma unsigned_of_nat {n : ℤ} (h : 0 ≤ n) (h' : n < 2^32) : (unsigned n : ℤ) = n := by
  unfold unsigned
  rw [Int.emod_eq_of_lt h h', Int.toNat_of_nonneg h]

section
variable {b : Buf}

lemma Buf.Ok.bufSize_nonneg (h : b.Ok) : 0 ≤ bufSize b := by
  have := h.size
  unfold bufSize
  omega

lemma Buf.Ok.bufSize_le (h : b.Ok) : bufSize b ≤ b.cap := by
  have := h.pos
  have := h.last
  unfold bufSize
  omega

lemma Buf.Ok.sizeT (h : b.Ok) : (sizeT (bufSize b) : ℤ) = bufSize b := by
  have := h.bufSize_le
  have := h.cap
  exact sizeT_of_nat h.bufSize_nonneg (by omega)

lemma Buf.Ok.unsigned (h : b.Ok) : (unsigned (bufSize b) : ℤ) = bufSize b := by
  have := h.bufSize_le
  have := h.cap
  exact unsigned_of_nat h.bufSize_nonneg (by omega)

lemma Buf.Ok.live_length (h : b.Ok) : (b.live.length : ℤ) = bufSize b := by
  unfold Buf.live
  rw [Block.read_length, Int.toNat_of_nonneg h.bufSize_nonneg]

lemma Buf.ok_of_new {m : Mem} {n : ℕ} (hn : n < 2^32) : Buf.Ok ⟨m, n, 0, 0⟩ :=
  ⟨le_rfl, le_rfl, Int.natCast_nonneg n, hn⟩

lemma Src.take_ofBuf (h : b.Ok) (n : ℕ) :
    (Src.ofBuf b).take n = Block.read b.mem b.pos.toNat n := by
  have hpos := h.pos
  unfold Src.take Src.ofBuf Block.read
  refine List.map_congr_left fun k _ => ?_
  dsimp only
  congr 1
  omega

lemma Src.take_live (h : b.Ok) {n : ℕ} (hn : (n : ℤ) = bufSize b) :
    (Src.ofBuf b).take n = b.live := by
  rw [Src.take_ofBuf h, Buf.live]
  congr 1
  omega

lemma Src.avail_ofBuf (h : b.Ok) : ((Src.ofBuf b).avail : ℤ) = b.cap - b.pos := by
  have hpos := h.pos
  have hsize := h.size
  have hlast := h.last
  unfold Src.ofBuf
  simp only [if_pos hpos]
  omega

lemma Src.take_ofList (bs : List UInt8) : (Src.ofList bs).take bs.length = bs := by
  unfold Src.take Src.ofList Block.read
  refine List.ext_getElem (by simp) fun k hk hk' => ?_
  simp [List.getElem?_eq_getElem hk']

@[simp] lemma Src.take_length (src : Src) (n : ℕ) : (src.take n).length = n :=
  Block.read_length _ _ _

lemma Buf.live_append (h : b.Ok) (bs : List UInt8) :
    Buf.live { b with mem := Block.write b.mem b.last.toNat bs, last := b.last + bs.length } =
      b.live ++ bs := by
  have hpos := h.pos
  have hsize := h.size
  have hlast : b.last.toNat = b.pos.toNat + (bufSize b).toNat := by
    unfold bufSize
    omega
  have hn : (b.last + bs.length - b.pos).toNat = (bufSize b).toNat + bs.length := by
    unfold bufSize
    omega
  have := Block.read_write_append b.mem b.pos.toNat (bufSize b).toNat bs
  unfold Buf.live
  rw [show bufSize { b with mem := Block.write b.mem b.last.toNat bs, last := b.last + bs.length } =
    b.last + bs.length - b.pos from rfl, hn, hlast]
  exact this

end

section
variable {α : Type} {Q : α → Slot → Prop}

lemma cpymem_rule {f : Buf → Code α} (b : Buf) (src : Src) (len : ℕ) (hs : κ.keep s)
    (hf : κ.fail ∨ len ≤ src.avail ∧ 0 ≤ b.last ∧ b.last + len ≤ b.cap)
    (hk : (0 < len → 0 ≤ b.last ∧ b.last + len ≤ b.cap ∧ len ≤ src.avail) →
      Prog.Ensures Slot.exec κ Q (f { b with
        mem := Block.write b.mem b.last.toNat (src.take len), last := b.last + len }) s) :
    Prog.Ensures Slot.exec κ Q (cpymem b src len >>= f) s := by
  unfold cpymem
  split_ifs with hbad
  · refine fault_rule hs (hf.resolve_right fun h => ?_)
    rcases hbad.2 with h' | h' | h' <;> omega
  · exact hk fun hpos => by
      refine ⟨?_, ?_, ?_⟩ <;> by_contra hc <;> exact hbad ⟨hpos, by omega⟩

end
end Xdbd

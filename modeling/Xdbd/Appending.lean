import Xdbd.BufferSpecs

/-!
# Append is concatenation

A buffer as its users see it: the bytes between `pos` and `last`. It is created empty, an append
adds the bytes of its source behind, and an advance of `pos` drops bytes in front, whatever the
storage does meanwhile.
-/
namespace Xdbd
open Interaction Code

variable {s t : Slot} {b : Buf}

def Slot.nextStorage (s : Slot) : Option Mem := s.wire.allocs.headD (some fun _ => 0)

lemma Slot.palloc_fst (s : Slot) {n : ℕ} (hn : n ≠ 0) : (s.palloc n).1 = s.nextStorage := by
  unfold Slot.palloc Slot.nextStorage
  rw [if_neg hn]
  cases s.wire.allocs <;> rfl

lemma run_palloc (hs : s.conn.destroyed = false) (n : ℕ) :
    Prog.run Slot.exec (palloc n) s = .ok (s.palloc n) := by
  refine (Prog.run_ask _ _ _).trans ?_
  simp only [Slot.exec, SlotOp.exec, hs]
  rfl

lemma cpymem_eq {src : Src} {len : ℕ} (h : len ≤ src.avail) (hlast : 0 ≤ b.last)
    (hfit : b.last + len ≤ b.cap) : cpymem b src len = pure (b.extend (src.take len)) := by
  unfold cpymem
  rw [if_neg (by omega), Buf.extend, Src.take_length]

/-- The storage `p` of `n` bytes with the live bytes of `b` moved to its start. -/
def Buf.movedTo (b : Buf) (p : Mem) (n : ℕ) : Buf := Buf.extend ⟨p, n, 0, 0⟩ b.live

lemma run_bufAppendMem (hs : s.conn.destroyed = false) (hb : b.Ok) {src : Src} {len : ℕ}
    (hsrc : len ≤ src.avail) (hlen : bufSize b + len < 2^32) :
    Prog.run Slot.exec (bufAppendMem b src len) s =
      if b.last + len ≤ b.cap then .ok (some (b.extend (src.take len)), s)
      else .ok (s.nextStorage.map fun p =>
        (b.movedTo p (grownCapacity b len)).extend (src.take len),
          (s.palloc (grownCapacity b len)).2) := by
  have hpos := hb.pos
  have hsize := hb.size
  have hlast := hb.last
  have hcap := hb.cap
  have hroom : (sizeT (b.cap - b.last) : ℤ) = b.cap - b.last := sizeT_of_nat (by omega) (by omega)
  have hgrown := le_grownCapacity hb.bufSize_nonneg hlen
  have hnn := hb.bufSize_nonneg
  unfold bufAppendMem
  by_cases hfit : b.last + len ≤ b.cap
  · rw [if_neg (by omega), if_pos hfit, cpymem_eq hsrc (by omega) hfit]
    rfl
  · have hlive := Src.take_live hb hb.unsigned
    have havail := Src.avail_ofBuf hb
    have hus := hb.unsigned
    have hmove : ∀ p, cpymem ⟨p, grownCapacity b len, 0, 0⟩ (Src.ofBuf b) (unsigned (bufSize b)) =
        pure (b.movedTo p (grownCapacity b len)) := fun p => by
      rw [cpymem_eq, hlive]
      · rfl
      · have : bufSize b = b.last - b.pos := rfl
        omega
      · exact le_rfl
      · show (0 : ℤ) + _ ≤ (grownCapacity b len : ℤ)
        omega
    have hcopy : ∀ p, cpymem (b.movedTo p (grownCapacity b len)) src len =
        pure ((b.movedTo p (grownCapacity b len)).extend (src.take len)) := fun p => by
      have hl : (b.movedTo p (grownCapacity b len)).last = bufSize b := by
        show (0 : ℤ) + b.live.length = _
        rw [hb.live_length, zero_add]
      refine cpymem_eq hsrc ?_ ?_ <;> rw [hl]
      · exact hnn
      · exact_mod_cast hgrown
    rw [if_pos (by omega), if_neg hfit, Prog.run_bind, run_palloc hs]
    have hfst := s.palloc_fst (show grownCapacity b len ≠ 0 by omega)
    simp only [Except.bind]
    rw [hfst]
    cases s.nextStorage with
    | none => rfl
    | some p =>
      simp only [hmove, hcopy, pure_bind]
      rfl

/-! ## One append -/

/-- `b` became `b'` in the storage `base`: the bytes `bs` are added, and nothing is written
outside the storage. -/
structure Concatenated (b : Buf) (bs : List UInt8) (base : Mem) (b' : Buf) : Prop where
  ok : b'.Ok
  live : b'.live = b.live ++ bs
  outside : ∀ k, b'.cap ≤ k → b'.mem k = base k

/-- How an append of `bs` to `b` ends in `s`: in the old storage, in storage that the pool gave,
or without a change because the pool gave none. -/
inductive AppendResult (s : Slot) (b : Buf) (bs : List UInt8) : Option Buf → Prop
  | stored {b' : Buf} (cap : b'.cap = b.cap) (result : Concatenated b bs b.mem b') :
    AppendResult s b bs (some b')
  | grown {b' : Buf} {p : Mem} (storage : s.nextStorage = some p)
    (result : Concatenated b bs p b') : AppendResult s b bs (some b')
  | failed (storage : s.nextStorage = none) : AppendResult s b bs none

lemma Buf.extend_outside (b : Buf) {bs : List UInt8} (hlast : 0 ≤ b.last)
    (hfit : b.last + bs.length ≤ b.cap) {k : ℕ} (hk : b.cap ≤ k) :
    (b.extend bs).mem k = b.mem k :=
  Block.write_above b.mem bs (by omega)

/-- `xdbd_buf_append_mem`: it finishes, and the result is a concatenation. -/
theorem bufAppendMem_concatenates (hs : s.conn.destroyed = false) (hb : b.Ok) {src : Src} {len : ℕ}
    (hsrc : len ≤ src.avail) (hlen : bufSize b + len < 2^32) :
    ∃ r t, Prog.run Slot.exec (bufAppendMem b src len) s = .ok (r, t) ∧
      AppendResult s b (src.take len) r := by
  have hpos := hb.pos
  have hsize := hb.size
  have hgrown := le_grownCapacity hb.bufSize_nonneg hlen
  have hnn := hb.bufSize_nonneg
  rw [run_bufAppendMem hs hb hsrc hlen]
  by_cases hfit : b.last + len ≤ b.cap
  · rw [if_pos hfit]
    refine ⟨_, s, rfl, .stored rfl ⟨hb.extend fun _ => ?_, Buf.live_append hb _, fun k hk => ?_⟩⟩
    · rw [Src.take_length]
      exact hfit
    · exact b.extend_outside (by omega) (by rw [Src.take_length]; exact hfit) hk
  · rw [if_neg hfit]
    refine ⟨_, _, rfl, ?_⟩
    cases hp : s.nextStorage with
    | none => exact .failed hp
    | some p =>
      have hnew : Buf.Ok ⟨p, grownCapacity b len, 0, 0⟩ := Buf.ok_of_new (grownCapacity_lt b len)
      have hlength := hb.live_length
      have hmoved : (0 : ℤ) + b.live.length ≤ grownCapacity b len := by omega
      have hok : (b.movedTo p (grownCapacity b len)).Ok := hnew.extend fun _ => hmoved
      have hlast : (b.movedTo p (grownCapacity b len)).last = bufSize b := by
        show (0 : ℤ) + b.live.length = _
        omega
      have hlive : (b.movedTo p (grownCapacity b len)).live = b.live := Buf.live_append hnew b.live
      have hroom : (b.movedTo p (grownCapacity b len)).last + (src.take len).length ≤
          grownCapacity b len := by
        rw [hlast, Src.take_length]
        exact hgrown
      refine .grown hp ⟨hok.extend fun _ => hroom, ?_, fun k hk => ?_⟩
      · rw [← hlive]
        exact Buf.live_append hok _
      · have hk' : grownCapacity b len ≤ k := hk
        refine (Buf.extend_outside _ (by omega) hroom hk').trans ?_
        exact Buf.extend_outside ⟨p, grownCapacity b len, 0, 0⟩ le_rfl hmoved hk'

/-! ## Sequences of operations -/

/-- An operation on a buffer; `appendBuf none` appends the buffer to itself. -/
inductive BufOp
  | appendMem (mem : Src) (len : ℕ)
  | appendCstring (str : List UInt8)
  | appendString (data : Src) (size : ℕ)
  | appendBuf (buf : Option Buf)
  | advance (n : ℕ)

namespace BufOp

/-- The code of the operation on `b`; `none` is a `NULL` result. -/
def code (b : Buf) : BufOp → Code (Option Buf)
  | appendMem mem len => bufAppendMem b mem len
  | appendCstring str => bufAppendCstring b str
  | appendString data size => bufAppendString b data size
  | appendBuf buf => bufAppendBuf b (buf.getD b)
  | advance n => pure (some { b with pos := b.pos + n })

/-- The source is memory that can be read, a C string ends at its first zero, sizes stay below
`2^32`, and `pos` stays at or before `last`. -/
def Fits (b : Buf) : BufOp → Prop
  | appendMem mem len => len ≤ mem.avail ∧ bufSize b + len < 2^32
  | appendCstring str => 0 ∉ str ∧ bufSize b + str.length < 2^32
  | appendString data size => size ≤ data.avail ∧ bufSize b + size < 2^32
  | appendBuf buf => (buf.getD b).Ok ∧ bufSize b + bufSize (buf.getD b) < 2^32
  | advance n => b.pos + n ≤ b.last

def source (b : Buf) : BufOp → List UInt8
  | appendMem mem len => mem.take len
  | appendCstring str => str
  | appendString data size => data.take size
  | appendBuf buf => (buf.getD b).live
  | advance _ => []

def target (b : Buf) : BufOp → Buf
  | advance n => { b with pos := b.pos + n }
  | _ => b

end BufOp

/-- The buffers made by `xdbd_create_buf` and any operations on them; between them the rest of
the daemon may do what it likes with the pool. -/
inductive BufRun : Buf → Prop
  | create {n : ℕ} {s t : Slot} {b : Buf} (size : n < 2^32) (pool : s.conn.destroyed = false)
    (created : Prog.run Slot.exec (createBuf n) s = .ok (some b, t)) : BufRun b
  | step {b : Buf} {op : BufOp} {s t : Slot} {r : Option Buf} (prior : BufRun b)
    (pool : s.conn.destroyed = false) (fits : op.Fits b)
    (finished : Prog.run Slot.exec (op.code b) s = .ok (r, t)) : BufRun (r.getD b)

lemma Slot.palloc_alive (hs : s.conn.destroyed = false) (n : ℕ) :
    (s.palloc n).2.conn.destroyed = false := by
  rw [(s.palloc_frame n).conn]
  exact hs

lemma createBuf_new {n : ℕ} (hs : s.conn.destroyed = false)
    (h : Prog.run Slot.exec (createBuf n) s = .ok (some b, t)) : ∃ m, b = ⟨m, n, 0, 0⟩ := by
  unfold createBuf at h
  rw [Prog.run_bind, run_palloc hs] at h
  simp only [Except.bind] at h
  cases hm : (s.palloc sizeofBuf).1 with
  | none =>
    rw [hm] at h
    cases h
  | some m =>
    rw [hm] at h
    dsimp only at h
    rw [Prog.run_bind, run_palloc (Slot.palloc_alive hs _)] at h
    simp only [Except.bind] at h
    cases hm' : ((s.palloc sizeofBuf).2.palloc n).1 with
    | none =>
      rw [hm'] at h
      cases h
    | some m' =>
      rw [hm'] at h
      cases h
      exact ⟨m', rfl⟩

lemma Buf.Ok.skip (hb : b.Ok) {n : ℕ} (hn : b.pos + n ≤ b.last) :
    Buf.Ok { b with pos := b.pos + n } := by
  have hpos := hb.pos
  exact ⟨by show 0 ≤ b.pos + n; omega, hn, hb.last, hb.cap⟩

lemma BufOp.concatenates (hb : b.Ok) (hs : s.conn.destroyed = false) (op : BufOp) (hf : op.Fits b) :
    ∃ r t, Prog.run Slot.exec (op.code b) s = .ok (r, t) ∧
      AppendResult s (op.target b) (op.source b) r := by
  cases op with
  | appendMem mem len => exact bufAppendMem_concatenates hs hb hf.1 hf.2
  | appendString data size => exact bufAppendMem_concatenates hs hb hf.1 hf.2
  | appendCstring str =>
    obtain ⟨r, t, hr, happ⟩ := bufAppendMem_concatenates hs hb
      (show str.length ≤ (Src.ofList str).avail from le_rfl) hf.2
    rw [Src.take_ofList] at happ
    exact ⟨r, t, hr, happ⟩
  | appendBuf buf =>
    obtain ⟨hok, hlen⟩ := hf
    have hsize := hok.sizeT
    have havail := Src.avail_ofBuf hok
    have hlast := hok.last
    have hlogged : ∀ o, (s.log o).conn.destroyed = false := fun _ => hs
    have hsrc : sizeT (bufSize (buf.getD b)) ≤ (Src.ofBuf (buf.getD b)).avail := by
      have : bufSize (buf.getD b) = (buf.getD b).last - (buf.getD b).pos := rfl
      omega
    obtain ⟨r, t, hr, happ⟩ := bufAppendMem_concatenates
      (hlogged (.append (buf.getD b).pos (buf.getD b).last (sizeT (bufSize (buf.getD b))))) hb hsrc
        (by omega)
    rw [Src.take_live hok hsize] at happ
    refine ⟨r, t, hr, ?_⟩
    cases happ with
    | stored hcap h => exact .stored hcap h
    | grown hp h => exact .grown hp h
    | failed hp => exact .failed hp
  | advance n =>
    refine ⟨_, s, rfl, .stored rfl ⟨hb.skip hf, ?_, fun _ _ => rfl⟩⟩
    exact (List.append_nil _).symm

/-- The cursors of a buffer are always in order. -/
theorem BufRun.ok (h : BufRun b) : b.Ok := by
  induction h with
  | create size pool created =>
    obtain ⟨m, rfl⟩ := createBuf_new pool created
    exact Buf.ok_of_new size
  | step prior pool fits finished ih =>
    obtain ⟨r, t, hr, happ⟩ := BufOp.concatenates ih pool _ fits
    rw [hr] at finished
    cases finished
    cases happ with
    | stored _ h => exact h.ok
    | grown _ h => exact h.ok
    | failed _ => exact ih

/-- Whatever was done to a buffer before, the next operation finishes, and appends its source
behind the bytes there are; if it fails the pool gave no storage. -/
theorem BufRun.next_concatenates (h : BufRun b) {op : BufOp} (hf : op.Fits b)
    (hs : s.conn.destroyed = false) :
    b.Ok ∧ ∃ r t, Prog.run Slot.exec (op.code b) s = .ok (r, t) ∧
      AppendResult s (op.target b) (op.source b) r :=
  ⟨h.ok, op.concatenates h.ok hs hf⟩

def openSlot : Slot := ⟨Connection.zero 5, Event.zero, Event.zero, Wire.fresh⟩

/-- Two bytes in a buffer of two, and the buffer appended to itself. -/
theorem BufRun.next_concatenates_self :
    ∃ r t, Prog.run Slot.exec (BufOp.code ⟨Block.write (fun _ => 0) 0 [7, 9], 2, 0, 2⟩
      (.appendBuf none)) openSlot = .ok (r, t) ∧
        AppendResult openSlot ⟨Block.write (fun _ => 0) 0 [7, 9], 2, 0, 2⟩ [7, 9] r := by
  have hnew : BufRun ⟨fun _ => 0, 2, 0, 0⟩ :=
    @BufRun.create 2 openSlot (((openSlot.palloc sizeofBuf).2.palloc 2).2) _ (by decide) rfl rfl
  have hfull : BufRun ⟨Block.write (fun _ => 0) 0 [7, 9], 2, 0, 2⟩ :=
    @BufRun.step _ (.appendCstring [7, 9]) openSlot openSlot
      (some ⟨Block.write (fun _ => 0) 0 [7, 9], 2, 0, 2⟩) hnew rfl ⟨by decide, by decide⟩ rfl
  exact (hfull.next_concatenates (show BufOp.Fits _ (.appendBuf none) from
    ⟨hfull.ok, by decide⟩) (show openSlot.conn.destroyed = false from rfl)).2

end Xdbd

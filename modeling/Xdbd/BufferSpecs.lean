import Xdbd.HandlerRules

/-!
# Buffers and packets of a handler

What creation, append and dump of a buffer guarantee: they are quiet, a failed allocation
shows in the result, and an append adds its bytes behind the bytes already there. A copy
that stays inside its source and keeps all sizes in 32 bits is no fault.
-/
namespace Xdbd
open Interaction Code

variable {s t u : Slot} {κ : Prog.Contract Slot}

/-- From `s` to `t` at most `k` allocations were made, and one of them failed unless `ok`. -/
structure Allocated (κ : Prog.Contract Slot) (k : ℕ) (s t : Slot) (ok : Bool) : Prop where
  settled : Settled κ t
  quiet : Quiet s t
  few : ∃ new, t.wire.history = s.wire.history ++ new ∧ new.length ≤ k ∧
    (ok = false → ∃ n, Obs.alloc n false ∈ new)
  succeeds : s.AllocsSucceed → ok = true

lemma Allocated.next {k l : ℕ} {ok : Bool} (h : Allocated κ k s t true)
    (h' : Allocated κ l t u ok) : Allocated κ (k + l) s u ok := by
  obtain ⟨new, hnew, hk, -⟩ := h.few
  obtain ⟨new', hnew', hl, hbad⟩ := h'.few
  refine ⟨h'.settled, h.quiet.trans h'.quiet, ⟨new ++ new', ?_, ?_, fun hok => ?_⟩, fun hs =>
    h'.succeeds (h.quiet.allocsSucceed hs)⟩
  · rw [hnew', hnew, List.append_assoc]
  · rw [List.length_append]
    omega
  · obtain ⟨n, hn⟩ := hbad hok
    exact ⟨n, List.mem_append_right _ hn⟩

lemma Allocated.mono {k l : ℕ} {ok : Bool} (h : Allocated κ k s t ok) (hkl : k ≤ l) :
    Allocated κ l s t ok :=
  { h with few := h.few.imp fun _ hn => ⟨hn.1, hn.2.1.trans hkl, hn.2.2⟩ }

lemma palloc_allocated (h : Settled κ s) (hf : κ.fail ∨ s.conn.destroyed = false) {n : ℕ}
    (hn : n ≠ 0) :
    Prog.Ensures Slot.exec κ (fun m t => Allocated κ 1 s t m.isSome) (palloc n) s := by
  refine (palloc_spec h hf n).mono fun m t ⟨hset, hq, hm⟩ => ?_
  obtain ⟨hhist, hsucc⟩ := hm hn
  refine ⟨hset, hq, ⟨_, hhist, by simp, fun hok => ⟨n, by simp [hok]⟩⟩, fun hs => ?_⟩
  exact Option.isSome_iff_ne_none.mpr (hsucc hs)

lemma Quiet.alive (h : Quiet s t) (hf : κ.fail ∨ s.conn.destroyed = false) :
    κ.fail ∨ t.conn.destroyed = false := by
  rw [h.conn]
  exact hf

lemma createBuf_spec (h : Settled κ s) (hf : κ.fail ∨ s.conn.destroyed = false) {n : ℕ}
    (hn : n ≠ 0) :
    Prog.Ensures Slot.exec κ (fun r t => Allocated κ 2 s t r.isSome ∧
      ∀ b, r = some b → ∃ m, b = ⟨m, n, 0, 0⟩) (createBuf n) s := by
  unfold createBuf
  refine (palloc_allocated h hf (by decide)).andThen fun m t ht => ?_
  cases m with
  | none => exact .pure ht.settled.holds ⟨ht.mono (by omega), fun b hb => by cases hb⟩
  | some m =>
    refine (palloc_allocated ht.settled (ht.quiet.alive hf) hn).andThen fun m' u hu => ?_
    cases m' with
    | none => exact .pure hu.settled.holds ⟨ht.next hu, fun b hb => by cases hb⟩
    | some m' =>
      refine .pure hu.settled.holds ⟨ht.next hu, fun b hb => ?_⟩
      cases hb
      exact ⟨m', rfl⟩

lemma allocPacket_spec (h : Settled κ s) (hf : κ.fail ∨ s.conn.destroyed = false) :
    Prog.Ensures Slot.exec κ (fun r t => Allocated κ 3 s t r.isSome ∧
      ∀ p, r = some p → ∃ m, p.payload = ⟨m, adbMaxPacketSize, 0, 0⟩) allocPacket s := by
  unfold allocPacket
  refine (palloc_allocated h hf (by decide)).andThen fun m t ht => ?_
  cases m with
  | none => exact .pure ht.settled.holds ⟨ht.mono (by omega), fun b hb => by cases hb⟩
  | some m =>
    refine (createBuf_spec ht.settled (ht.quiet.alive hf) (by decide)).andThen
      fun b u ⟨hu, hb⟩ => ?_
    cases b with
    | none => exact .pure hu.settled.holds ⟨ht.next hu, fun b hb => by cases hb⟩
    | some b =>
      refine .pure hu.settled.holds ⟨ht.next hu, fun p hp => ?_⟩
      cases hp
      obtain ⟨m', rfl⟩ := hb b rfl
      exact ⟨m', rfl⟩

/-! ## Append -/

/-- What an append to `b` left: nothing, when an allocation failed, or `b` with `bs` added. -/
structure Appended (κ : Prog.Contract Slot) (b : Buf) (bs : List UInt8) (s : Slot)
    (r : Option Buf) (t : Slot) : Prop where
  settled : Settled κ t
  quiet : Quiet s t
  succeeds : s.AllocsSucceed → bufSize b + bs.length < 2^32 → r ≠ none
  ok : ∀ b', r = some b' → b'.Ok
  live : ∀ b', r = some b' → b'.live = b.live ++ bs

lemma le_grownCapacity {b : Buf} (hb : 0 ≤ bufSize b) {len : ℕ} (hlen : bufSize b + len < 2^32) :
    bufSize b + len ≤ grownCapacity b len := by
  have hsize : (unsigned (bufSize b) : ℤ) = bufSize b := unsigned_of_nat hb (by omega)
  unfold grownCapacity
  have hmod : (unsigned (bufSize b) + len) % 2^64 = unsigned (bufSize b) + len :=
    Nat.mod_eq_of_lt (by omega)
  have hmod' : (unsigned (bufSize b) + len) % 2^32 = unsigned (bufSize b) + len :=
    Nat.mod_eq_of_lt (by omega)
  simp only [hmod, hmod']
  split_ifs <;> omega

lemma grownCapacity_lt (b : Buf) (len : ℕ) : grownCapacity b len < 2^32 := by
  unfold grownCapacity
  simp only
  split_ifs
  · exact Nat.mod_lt _ (by norm_num)
  · exact Nat.mod_lt _ (by norm_num)

/-- The buffer after a copy behind `last`. -/
def Buf.extend (b : Buf) (bs : List UInt8) : Buf :=
  { b with mem := Block.write b.mem b.last.toNat bs, last := b.last + bs.length }

lemma Buf.Ok.extend {b : Buf} (hb : b.Ok) {bs : List UInt8}
    (hfit : 0 < bs.length → b.last + bs.length ≤ b.cap) : (b.extend bs).Ok where
  pos := hb.pos
  size := by
    have := hb.size
    show b.pos ≤ b.last + bs.length
    omega
  last := by
    show b.last + bs.length ≤ b.cap
    by_cases h : 0 < bs.length
    · exact hfit h
    · have := hb.last
      omega
  cap := hb.cap

lemma cpymem_spec (h : Settled κ s) {b : Buf} (hb : b.Ok) (src : Src) (len : ℕ)
    (hf : κ.fail ∨ len ≤ src.avail ∧ b.last + len ≤ b.cap) :
    Prog.Ensures Slot.exec κ (fun b' t => t = s ∧ b' = b.extend (src.take len) ∧ b'.Ok)
      (cpymem b src len) s := by
  refine .of_bind_pure (cpymem_rule b src len h.holds
    (hf.imp_right fun hf => ⟨hf.1, ?_, hf.2⟩) fun hfit => ?_)
  · have := hb.pos
    have := hb.size
    omega
  · have hlen : b.extend (src.take len) = { b with
        mem := Block.write b.mem b.last.toNat (src.take len), last := b.last + len } := by
      rw [Buf.extend, Src.take_length]
    rw [← hlen]
    refine .pure h.holds ⟨rfl, rfl, hb.extend fun hpos => ?_⟩
    rw [Src.take_length] at hpos ⊢
    exact (hfit hpos).2.1

lemma bufAppendMem_spec (h : Settled κ s) {b : Buf} (hb : b.Ok) (src : Src) (len : ℕ)
    (hf : κ.fail ∨ s.conn.destroyed = false ∧ len ≤ src.avail ∧ bufSize b + len < 2^32) :
    Prog.Ensures Slot.exec κ (Appended κ b (src.take len) s) (bufAppendMem b src len) s := by
  have hlive := hf.imp_right And.left
  unfold bufAppendMem
  split_ifs with hgrow
  · refine (palloc_spec h hlive _).andThen fun m t ⟨hset, hq, hm⟩ => ?_
    have hlenpos : 0 < len := by omega
    cases m with
    | none =>
      refine .pure hset.holds ⟨hset, hq, fun hs hlen => ?_, fun _ hb' => (nomatch hb'),
        fun _ hb' => (nomatch hb')⟩
      rw [Src.take_length] at hlen
      have hcap := le_grownCapacity hb.bufSize_nonneg hlen
      have hsize := hb.bufSize_nonneg
      exact absurd rfl ((hm (by omega)).2 hs)
    | some p =>
      have hnew : Buf.Ok ⟨p, grownCapacity b len, 0, 0⟩ := Buf.ok_of_new (grownCapacity_lt b len)
      have hus := hb.unsigned
      refine (cpymem_spec hset hnew (Src.ofBuf b) (unsigned (bufSize b))
        (hf.imp_right fun hf => ⟨?_, ?_⟩)).andThen fun moved u ⟨hu, hmoved, hok⟩ => ?_
      · have := Src.avail_ofBuf hb
        have := hb.last
        have : bufSize b = b.last - b.pos := rfl
        omega
      · have := le_grownCapacity hb.bufSize_nonneg hf.2.2
        show (0 : ℤ) + _ ≤ (grownCapacity b len : ℤ)
        omega
      rw [hu]
      have hlive' : moved.live = b.live := by
        rw [hmoved, Src.take_live hb hus]
        exact Buf.live_append hnew b.live
      refine (cpymem_spec hset hok src len (hf.imp_right fun hf => ⟨hf.2.1, ?_⟩)).andThen
        fun b' v ⟨hv, hb', hok'⟩ => ?_
      · have := le_grownCapacity hb.bufSize_nonneg hf.2.2
        rw [hmoved, Buf.extend, Src.take_length]
        show (0 : ℤ) + _ + _ ≤ (grownCapacity b len : ℤ)
        omega
      rw [hv]
      refine .pure hset.holds ⟨hset, hq, fun _ _ => by simp, fun b'' hb'' => ?_, fun b'' hb'' => ?_⟩
      · cases hb''
        exact hok'
      · cases hb''
        rw [hb', ← hlive']
        exact Buf.live_append hok _
  · refine (cpymem_spec h hb src len (hf.imp_right fun hf => ⟨hf.2.1, ?_⟩)).andThen
      fun b' t ⟨ht, hb', hok⟩ => ?_
    · have hl := hb.last
      have hp := hb.pos
      have hs := hb.size
      have hc := hb.cap
      have : (sizeT (b.cap - b.last) : ℤ) = b.cap - b.last := sizeT_of_nat (by omega) (by omega)
      omega
    rw [ht]
    refine .pure h.holds ⟨h, .refl s, fun _ _ => by simp, fun b'' hb'' => ?_, fun b'' hb'' => ?_⟩
    · cases hb''
      exact hok
    · cases hb''
      rw [hb']
      exact Buf.live_append hb _

lemma Appended.bufSize {b b' : Buf} {bs : List UInt8} {r : Option Buf}
    (h : Appended κ b bs s r t) (hb : b.Ok) (hr : r = some b') :
    bufSize b' = bufSize b + bs.length := by
  rw [← (h.ok b' hr).live_length, h.live b' hr, List.length_append, Nat.cast_add, hb.live_length]

lemma bufAppendCstring_spec (h : Settled κ s) {b : Buf} (hb : b.Ok) (str : List UInt8)
    (hf : κ.fail ∨ s.conn.destroyed = false ∧ bufSize b + str.length < 2^32) :
    Prog.Ensures Slot.exec κ (Appended κ b str s) (bufAppendCstring b str) s := by
  have := bufAppendMem_spec h hb (Src.ofList str) str.length
    (hf.imp_right fun hf => ⟨hf.1, le_rfl, hf.2⟩)
  rwa [Src.take_ofList] at this

/-! ## The debug dump -/

lemma dumpHexLoop_spec (src : Src) (n : ℕ) (i : ℕ) {b : Buf} (h : Settled κ s) (hb : b.Ok)
    (hf : κ.fail ∨ s.conn.destroyed = false ∧ s.AllocsSucceed ∧ i + n ≤ src.avail ∧
      bufSize b + 2 * n < 2^32) :
    Prog.Ensures Slot.exec κ (fun r t => Settled κ t ∧ Quiet s t ∧ (κ.fail ∨ r ≠ none))
      (dumpHexLoop src n i b) s := by
  induction n generalizing i b s with
  | zero => exact .pure h.holds ⟨h, .refl s, .inr (by simp)⟩
  | succ n ih =>
    rw [dumpHexLoop]
    split_ifs with hi
    · refine (bufAppendCstring_spec h hb _ (hf.imp_right fun hf => ⟨hf.1, ?_⟩)).andThen
        fun r t ht => ?_
      · have hlen : (hexByte (src.bytes i)).length = 2 := rfl
        rw [hlen]
        omega
      cases r with
      | none =>
        refine .pure ht.settled.holds ⟨ht.settled, ht.quiet, hf.imp_right fun hf => ?_⟩
        refine ht.succeeds hf.2.1 ?_
        have hlen : (hexByte (src.bytes i)).length = 2 := rfl
        rw [hlen]
        omega
      | some b' =>
        refine (ih (i + 1) ht.settled (ht.ok b' rfl) (hf.imp_right fun hf => ?_)).mono
          fun r u ⟨hu, hq, hr⟩ => ⟨hu, ht.quiet.trans hq, hr⟩
        have hsize := ht.bufSize hb rfl
        have hlen : (hexByte (src.bytes i)).length = 2 := rfl
        rw [hlen] at hsize
        refine ⟨?_, ht.quiet.allocsSucceed hf.2.1, by omega, by omega⟩
        rw [ht.quiet.conn]
        exact hf.1
    · refine .of_bind_pure (fault_rule h.holds (hf.resolve_right fun hf => hi ?_))
      omega

/-- `xdbd_dump_adb_packet` reads a payload and allocates, and is a fault where an allocation
fails. -/
lemma dumpAdbPacket_spec (h : Settled κ s) {p : Packet} (hp : p.payload.Ok)
    (hf : κ.fail ∨ s.conn.destroyed = false ∧ s.AllocsSucceed ∧ 2 * bufSize p.payload < 2^32) :
    Prog.Ensures Slot.exec κ (fun _ t => Settled κ t ∧ Quiet s t) (dumpAdbPacket p) s := by
  unfold dumpAdbPacket dumpHex
  refine @Prog.Ensures.andThen _ _ _ _ _ _ _ _
    (fun r t => Settled κ t ∧ Quiet s t ∧ (κ.fail ∨ r ≠ none)) _ _ _ _ ?_ fun r t ⟨ht, hq, hr⟩ => ?_
  · refine (createBuf_spec h (hf.imp_right And.left) (by decide)).andThen fun r t ⟨ht, hb⟩ => ?_
    cases r with
    | none =>
      refine .pure ht.settled.holds ⟨ht.settled, ht.quiet, hf.imp_right fun hf => ?_⟩
      exact absurd (ht.succeeds hf.2.1) (by simp)
    | some b =>
      obtain ⟨m, rfl⟩ := hb b rfl
      refine (dumpHexLoop_spec _ _ 0 ht.settled (Buf.ok_of_new (by norm_num))
        (hf.imp_right fun hf => ⟨?_, ht.quiet.allocsSucceed hf.2.1, ?_, ?_⟩)).mono
          fun r u ⟨hu, hq, hr⟩ => ⟨hu, ht.quiet.trans hq, hr⟩
      · rw [ht.quiet.conn]
        exact hf.1
      · have := Src.avail_ofBuf hp
        have := hp.sizeT
        have := hp.last
        have : bufSize p.payload = p.payload.last - p.payload.pos := rfl
        omega
      · have := hp.sizeT
        have hzero : bufSize ⟨m, 1024, 0, 0⟩ = 0 := rfl
        omega
  · refine deref_rule ht.holds hr fun b _ => ?_
    exact .pure ht.holds ⟨ht, hq⟩

end Xdbd

import Xdbd.Appending
import Xdbd.PacketSpecs

/-!
# The run of a packet handler

`xdbd_process_packet` followed through with every answer of the pool: which allocations it makes,
where it gives up, and what `r->out` holds after it.
-/
namespace Xdbd
open Interaction Code

variable {s t u : Slot}

/-! ## Allocations -/

/-- The `k`-th allocation from now on succeeds. -/
def Slot.granted (s : Slot) (k : ℕ) : Bool := (s.wire.allocs.getD k (some fun _ => 0)).isSome

lemma Slot.AllocsSucceed.granted (h : s.AllocsSucceed) (k : ℕ) : s.granted k = true := by
  unfold Slot.granted
  rw [List.getD_eq_getElem?_getD]
  cases hm : s.wire.allocs[k]? with
  | none => rfl
  | some m => exact Option.isSome_iff_ne_none.mpr (h m (List.mem_of_getElem? hm))

lemma Slot.nextStorage_isSome (s : Slot) : s.nextStorage.isSome = s.granted 0 := by
  unfold Slot.nextStorage Slot.granted
  cases s.wire.allocs <;> rfl

/-- From `s` to `t` memory was allocated `k` times, and nothing else happened. -/
structure Spent (k : ℕ) (s t : Slot) : Prop where
  same : t = { s with wire := { s.wire with
    allocs := s.wire.allocs.drop k, history := t.wire.history } }

namespace Spent

lemma refl (s : Slot) : Spent 0 s s := ⟨rfl⟩

lemma trans {j k : ℕ} (h : Spent j s t) (h' : Spent k t u) : Spent (j + k) s u := by
  refine ⟨?_⟩
  rw [h'.same, h.same, List.drop_drop]

lemma conn {k : ℕ} (h : Spent k s t) : t.conn = s.conn := by rw [h.same]

lemma alive {k : ℕ} (h : Spent k s t) (hs : s.conn.destroyed = false) :
    t.conn.destroyed = false := by
  rw [h.conn]
  exact hs

lemma granted {k : ℕ} (h : Spent k s t) (j : ℕ) : t.granted j = s.granted (k + j) := by
  unfold Slot.granted
  rw [h.same]
  simp only [List.getD_eq_getElem?_getD, List.getElem?_drop]

lemma allocsSucceed {k : ℕ} (h : Spent k s t) (hs : s.AllocsSucceed) : t.AllocsSucceed := by
  intro m hm
  rw [h.same] at hm
  exact hs m (List.mem_of_mem_drop hm)

end Spent

lemma Slot.palloc_spent (s : Slot) {n : ℕ} (hn : n ≠ 0) : Spent 1 s (s.palloc n).2 := by
  unfold Slot.palloc
  rw [if_neg hn]
  cases ha : s.wire.allocs with
  | nil =>
    refine ⟨?_⟩
    simp [Slot.log, ha]
  | cons m rest =>
    refine ⟨?_⟩
    simp [Slot.log, ha]

/-- `k` allocations in a row made something, or one of them failed and nothing was made. -/
inductive Obtained {α : Type} (k : ℕ) (s : Slot) (made : α → Prop) : Option α → Slot → Prop
  | given {a : α} {t : Slot} (granted : ∀ j < k, s.granted j = true) (spent : Spent k s t)
    (result : made a) : Obtained k s made (some a) t
  | denied {j : ℕ} {t : Slot} (refused : ∃ j < k, s.granted j = false) (spent : Spent j s t) :
    Obtained k s made none t

lemma palloc_obtained (hs : s.conn.destroyed = false) {n : ℕ} (hn : n ≠ 0) :
    ∃ m t, Prog.run Slot.exec (palloc n) s = .ok (m, t) ∧ Obtained 1 s (fun _ => True) m t := by
  refine ⟨(s.palloc n).1, (s.palloc n).2, run_palloc hs n, ?_⟩
  have hspent := s.palloc_spent hn
  have hsome := s.nextStorage_isSome
  rw [s.palloc_fst hn]
  cases hm : s.nextStorage with
  | none =>
    rw [hm] at hsome
    exact .denied ⟨0, Nat.one_pos, hsome.symm⟩ hspent
  | some m =>
    rw [hm] at hsome
    refine .given (fun j hj => ?_) hspent trivial
    obtain rfl : j = 0 := by omega
    exact hsome.symm

lemma Obtained.after {α : Type} {i k : ℕ} {made : α → Prop} {r : Option α}
    (hg : ∀ j < i, s.granted j = true) (hi : Spent i s t) (h : Obtained k t made r u) :
    Obtained (i + k) s made r u := by
  cases h with
  | given granted spent result =>
    refine .given (fun j hj => ?_) (hi.trans spent) result
    by_cases hji : j < i
    · exact hg j hji
    · have := granted (j - i) (by omega)
      rwa [hi.granted, show i + (j - i) = j by omega] at this
  | denied refused spent =>
    obtain ⟨j, hj, hr⟩ := refused
    rw [hi.granted] at hr
    exact .denied ⟨i + j, by omega, hr⟩ (hi.trans spent)

lemma createBuf_obtained (hs : s.conn.destroyed = false) {n : ℕ} (hn : n ≠ 0) :
    ∃ b t, Prog.run Slot.exec (createBuf n) s = .ok (b, t) ∧
      Obtained 2 s (fun b => ∃ m, b = ⟨m, n, 0, 0⟩) b t := by
  obtain ⟨m, t, hrun, hm⟩ := @palloc_obtained s hs sizeofBuf (by decide)
  unfold createBuf
  rw [Prog.run_bind_of_ok hrun]
  cases hm with
  | denied refused spent =>
    obtain ⟨j, hj, hr⟩ := refused
    exact ⟨none, t, rfl, .denied ⟨j, by omega, hr⟩ spent⟩
  | given granted spent =>
    obtain ⟨m', u, hrun', hm'⟩ := palloc_obtained (spent.alive hs) hn
    dsimp only
    rw [Prog.run_bind_of_ok hrun']
    refine ⟨_, u, ?_, .after granted spent (k := 1) (r := m'.map fun m => ⟨m, n, 0, 0⟩) ?_⟩
    · cases m' <;> rfl
    · cases hm' with
      | denied refused spent => exact .denied refused spent
      | given granted spent => exact .given granted spent ⟨_, rfl⟩

lemma allocPacket_obtained (hs : s.conn.destroyed = false) :
    ∃ p t, Prog.run Slot.exec allocPacket s = .ok (p, t) ∧
      Obtained 3 s (fun p => ∃ m, p.payload = ⟨m, adbMaxPacketSize, 0, 0⟩) p t := by
  obtain ⟨m, t, hrun, hm⟩ := @palloc_obtained s hs sizeofPacket (by decide)
  unfold allocPacket
  rw [Prog.run_bind_of_ok hrun]
  cases hm with
  | denied refused spent =>
    obtain ⟨j, hj, hr⟩ := refused
    exact ⟨none, t, rfl, .denied ⟨j, by omega, hr⟩ spent⟩
  | @given m _ granted spent =>
    obtain ⟨b, u, hrun', hb⟩ := @createBuf_obtained t (spent.alive hs) adbMaxPacketSize (by decide)
    dsimp only
    rw [Prog.run_bind_of_ok hrun']
    refine ⟨_, u, ?_, .after granted spent (k := 2)
      (r := b.map fun b => ⟨Header.ofBytes (Block.read m 0 headerSize), b⟩) ?_⟩
    · cases b <;> rfl
    · cases hb with
      | denied refused spent => exact .denied refused spent
      | given granted spent result =>
        obtain ⟨m', rfl⟩ := result
        exact .given granted spent ⟨m', rfl⟩

/-! ## Appends -/

/-- The bytes `bs` were added to `b`, in place where they fit. -/
structure Grown (b : Buf) (bs : List UInt8) (b' : Buf) : Prop where
  ok : b'.Ok
  live : b'.live = b.live ++ bs
  inPlace : b.last + bs.length ≤ b.cap → b'.last = b.last + bs.length ∧ b'.cap = b.cap

lemma Grown.trans {b b' b'' : Buf} {bs bs' : List UInt8} (h : Grown b bs b')
    (h' : Grown b' bs' b'') : Grown b (bs ++ bs') b'' where
  ok := h'.ok
  live := by rw [h'.live, h.live, List.append_assoc]
  inPlace hfit := by
    rw [List.length_append] at hfit ⊢
    obtain ⟨hlast, hcap⟩ := h.inPlace (by omega)
    obtain ⟨hlast', hcap'⟩ := h'.inPlace (by omega)
    omega

lemma bufAppendMem_grown {b : Buf} (hs : s.conn.destroyed = false) (hb : b.Ok) {src : Src} {len : ℕ}
    (hsrc : len ≤ src.avail) (hlen : bufSize b + len < 2^32)
    (hroom : b.last + len ≤ b.cap ∨ s.AllocsSucceed) :
    ∃ b' k t, Prog.run Slot.exec (bufAppendMem b src len) s = .ok (some b', t) ∧ Spent k s t ∧
      Grown b (src.take len) b' := by
  have hrun := run_bufAppendMem hs hb hsrc hlen
  obtain ⟨r, t, hrun', happ⟩ := bufAppendMem_concatenates hs hb hsrc hlen
  rw [hrun] at hrun'
  by_cases hfit : b.last + len ≤ b.cap
  · rw [if_pos hfit] at hrun hrun'
    cases hrun'
    refine ⟨_, 0, s, hrun, .refl s, ?_⟩
    cases happ with
    | stored _ h =>
      exact ⟨h.ok, h.live, fun _ => ⟨rfl, rfl⟩⟩
    | grown _ h => exact ⟨h.ok, h.live, fun _ => ⟨rfl, rfl⟩⟩
  · rw [if_neg hfit] at hrun hrun'
    have hgranted := (hroom.resolve_left hfit).granted 0
    rw [← s.nextStorage_isSome] at hgranted
    have hgrown := le_grownCapacity hb.bufSize_nonneg hlen
    have hpos := hb.bufSize_nonneg
    have hsize : bufSize b = b.last - b.pos := rfl
    have hcap := hb.cap
    have hne : grownCapacity b len ≠ 0 := by
      have := hb.last
      have := hb.pos
      omega
    cases hm : s.nextStorage with
    | none =>
      rw [hm] at hgranted
      cases hgranted
    | some p =>
      rw [hm] at hrun hrun'
      cases hrun'
      refine ⟨_, 1, _, hrun, s.palloc_spent hne, ?_⟩
      have hfit' : ¬ b.last + (src.take len).length ≤ b.cap := by rwa [Src.take_length]
      cases happ with
      | stored _ h => exact ⟨h.ok, h.live, fun hc => absurd hc hfit'⟩
      | grown _ h => exact ⟨h.ok, h.live, fun hc => absurd hc hfit'⟩

lemma run_bufAppendCstring {b : Buf} (hs : s.conn.destroyed = false) (hb : b.Ok) {str : List UInt8}
    (hfit : b.last + str.length ≤ b.cap) :
    Prog.run Slot.exec (bufAppendCstring b str) s = .ok (some (b.extend str), s) := by
  have hpos := hb.pos
  have hcap := hb.cap
  have hsize : bufSize b = b.last - b.pos := rfl
  have := run_bufAppendMem hs hb (show str.length ≤ (Src.ofList str).avail from le_rfl) (by omega)
  rwa [if_pos hfit, Src.take_ofList] at this

lemma Buf.extend_grown {b : Buf} (hb : b.Ok) {str : List UInt8}
    (hfit : b.last + str.length ≤ b.cap) : Grown b str (b.extend str) where
  ok := hb.extend fun _ => hfit
  live := Buf.live_append hb str
  inPlace _ := ⟨rfl, rfl⟩

/-! ## The dump -/

lemma run_dumpHexLoop (hs : s.conn.destroyed = false) (src : Src) (n i : ℕ) {b : Buf} (hb : b.Ok)
    (hsrc : i + n ≤ src.avail) (hfit : b.last + 2 * n ≤ b.cap) :
    ∃ b', Prog.run Slot.exec (dumpHexLoop src n i b) s = .ok (some b', s) := by
  induction n generalizing i b with
  | zero => exact ⟨b, rfl⟩
  | succ n ih =>
    have hlen : (hexByte (src.bytes i)).length = 2 := rfl
    have hroom : b.last + (hexByte (src.bytes i)).length ≤ b.cap := by
      rw [hlen]
      omega
    have hgrown := Buf.extend_grown hb hroom
    have hlast := (hgrown.inPlace hroom).1
    rw [hlen] at hlast
    rw [dumpHexLoop, if_pos (by omega), Prog.run_bind_of_ok (run_bufAppendCstring hs hb hroom)]
    exact ih (i + 1) hgrown.ok (by omega) (by
      rw [hlast, (hgrown.inPlace hroom).2]
      omega)

lemma run_dumpAdbPacket (hs : s.conn.destroyed = false) {p : Packet} (hp : p.payload.Ok)
    (hsmall : 2 * bufSize p.payload ≤ 1024) :
    (∃ t, Prog.run Slot.exec (dumpAdbPacket p) s = .ok ((), t) ∧ Spent 2 s t ∧
        ∀ j < 2, s.granted j = true) ∨
      Prog.run Slot.exec (dumpAdbPacket p) s = .error .nullDeref ∧
        ∃ j < 2, s.granted j = false := by
  obtain ⟨r, t, hrun, hr⟩ := @createBuf_obtained s hs 1024 (by decide)
  unfold dumpAdbPacket dumpHex
  cases hr with
  | denied refused spent =>
    refine .inr ⟨?_, refused⟩
    rw [bind_assoc, Prog.run_bind_of_ok hrun]
    rfl
  | given granted spent result =>
    obtain ⟨m, rfl⟩ := result
    have hsize := hp.sizeT
    have havail := Src.avail_ofBuf hp
    have hlast := hp.last
    have hbuf : bufSize p.payload = p.payload.last - p.payload.pos := rfl
    obtain ⟨b', hloop⟩ := @run_dumpHexLoop t (spent.alive hs) (Src.ofBuf p.payload)
      (sizeT (bufSize p.payload)) 0 ⟨m, 1024, 0, 0⟩ (Buf.ok_of_new (by norm_num)) (by omega) (by
        show (0 : ℤ) + _ ≤ ((1024 : ℕ) : ℤ)
        push_cast
        omega)
    refine .inl ⟨t, ?_, spent, granted⟩
    rw [bind_assoc, Prog.run_bind_of_ok hrun]
    dsimp only
    rw [Prog.run_bind_of_ok hloop]
    rfl

/-! ## The reply -/

lemma run_getRequest {r : Request} (hs : s.conn.destroyed = false)
    (hr : s.conn.data = .request r) : Prog.run Slot.exec getRequest s = .ok (r, s) := by
  refine (Prog.run_ask _ _ _).trans ?_
  simp only [Slot.exec, SlotOp.exec, hs, hr]
  rfl

lemma run_setRequest (r : Request) (hs : s.conn.destroyed = false) :
    Prog.run Slot.exec (setRequest r) s =
      .ok ((), { s with conn := { s.conn with data := .request r } }) := by
  refine (Prog.run_ask _ _ _).trans ?_
  simp only [Slot.exec, SlotOp.exec, hs]
  rfl

/-- The bytes `bs` were added to the buffer `o` of the request `r` that is current in `s`. -/
structure PutOut (s : Slot) (r : Request) (o : Buf) (bs : List UInt8) (o' : Buf) (t : Slot) :
    Prop where
  conn : t.conn = { s.conn with data := .request { r with out := some o' } }
  grown : Grown o bs o'
  allocs : s.AllocsSucceed → t.AllocsSucceed

lemma PutOut.alive {r : Request} {o o' : Buf} {bs : List UInt8} (h : PutOut s r o bs o' t)
    (hs : s.conn.destroyed = false) : t.conn.destroyed = false := by
  rw [h.conn]
  exact hs

lemma run_setOut {r : Request} {o o' : Buf} {bs : List UInt8} {k : ℕ}
    (hs : s.conn.destroyed = false) (ht : Spent k s t) (hg : Grown o bs o') :
    ∃ u, Prog.run Slot.exec (do setRequest { r with out := some o' }; note (.put bs)) t =
    .ok ((), u) ∧
      PutOut s r o bs o' u := by
  refine ⟨_, (Prog.run_bind_of_ok (run_setRequest _ (ht.alive hs))).trans rfl, ?_, hg, fun ha =>
    ht.allocsSucceed ha⟩
  show ({ t.conn with data := _ } : Connection) = _
  rw [ht.conn]

/-- There are `n` bytes of room in `o`, or memory for more. -/
def Slot.Room (s : Slot) (o : Buf) (n : ℕ) : Prop :=
  bufSize o + n < 2^32 ∧ (o.last + n ≤ o.cap ∨ s.AllocsSucceed)

lemma run_appendOutHeader {r : Request} {o : Buf} {h : Header} (hs : s.conn.destroyed = false)
    (hr : s.conn.data = .request r) (ho : r.out = some o) (hok : o.Ok)
    (hroom : s.Room o headerSize) :
    ∃ o' t, Prog.run Slot.exec (appendOutHeader h) s = .ok ((), t) ∧ PutOut s r o h.bytes o' t := by
  obtain ⟨o', k, t, hrun, ht, hg⟩ := bufAppendMem_grown hs hok
    (show headerSize ≤ (Src.ofList h.bytes).avail from le_rfl) hroom.1 hroom.2
  rw [show (Src.ofList h.bytes).take headerSize = h.bytes from Src.take_ofList h.bytes] at hg
  obtain ⟨u, hset, hu⟩ := @run_setOut s t r o o' h.bytes k hs ht hg
  refine ⟨o', u, ?_, hu⟩
  unfold appendOutHeader
  rw [Prog.run_bind_of_ok (run_getRequest hs hr), ho]
  show Prog.run Slot.exec (bufAppendMem o (Src.ofList h.bytes) headerSize >>= _) s = _
  rw [Prog.run_bind_of_ok hrun]
  exact hset

lemma run_appendOutPayload {r : Request} {o payload : Buf} (hs : s.conn.destroyed = false)
    (hr : s.conn.data = .request r) (ho : r.out = some o) (hok : o.Ok) (hp : payload.Ok)
    (hroom : s.Room o payload.live.length) :
    ∃ o' t, Prog.run Slot.exec (appendOutPayload payload) s = .ok ((), t) ∧
      PutOut s r o payload.live o' t := by
  have hlen := hp.live_length
  have hsize := hp.sizeT
  have havail := Src.avail_ofBuf hp
  have hlast := hp.last
  have hbuf : bufSize payload = payload.last - payload.pos := rfl
  have hroom1 := hroom.1
  obtain ⟨o', k, t, hrun, ht, hg⟩ := @bufAppendMem_grown
    (s.log (.append payload.pos payload.last (sizeT (bufSize payload)))) o hs hok
    (Src.ofBuf payload) (sizeT (bufSize payload)) (by omega) (by omega)
    (hroom.2.imp_left fun hfit => by omega)
  rw [Src.take_live hp hsize] at hg
  have hset : ∃ u, Prog.run Slot.exec
      (do setRequest { r with out := some o' }; note (.put payload.live)) t = .ok ((), u) ∧
        PutOut s r o payload.live o' u := by
    obtain ⟨u, hset, hu⟩ := @run_setOut
      (s.log (.append payload.pos payload.last (sizeT (bufSize payload)))) t r o o' payload.live k
        hs ht hg
    exact ⟨u, hset, hu.conn, hu.grown, hu.allocs⟩
  obtain ⟨u, hset, hu⟩ := hset
  refine ⟨o', u, ?_, hu⟩
  unfold appendOutPayload bufAppendBuf
  rw [Prog.run_bind_of_ok (run_getRequest hs hr), ho]
  show Prog.run Slot.exec ((note _ >>= fun _ => bufAppendMem o _ _) >>= _) s = _
  rw [bind_assoc]
  refine (Prog.run_bind_of_ok (show Prog.run Slot.exec (note _) s =
    .ok ((), s.log (.append payload.pos payload.last (sizeT (bufSize payload)))) from rfl)).trans ?_
  rw [Prog.run_bind_of_ok hrun]
  exact hset

lemma run_appendOut {r : Request} {o : Buf} {out : Packet} (hs : s.conn.destroyed = false)
    (hr : s.conn.data = .request r) (ho : r.out = some o) (hok : o.Ok) (hp : out.payload.Ok)
    (hroom : s.Room o (headerSize + out.payload.live.length)) :
    ∃ o' t, Prog.run Slot.exec (appendOut out) s = .ok (.ok, t) ∧
      PutOut s r o (out.header.bytes ++ out.payload.live) o' t := by
  obtain ⟨hsize, hmem⟩ := hroom
  push_cast at hsize hmem
  obtain ⟨o₁, t, hrun, h₁⟩ := @run_appendOutHeader s r o out.header hs hr ho hok
    ⟨by omega, hmem.imp_left fun h => by omega⟩
  have hlen : (o₁.live.length : ℤ) = bufSize o + headerSize := by
    rw [h₁.grown.live, List.length_append, Header.bytes_length, Nat.cast_add, hok.live_length]
  rw [h₁.grown.ok.live_length] at hlen
  have hr₁ : t.conn.data = .request { r with out := some o₁ } := by rw [h₁.conn]
  have hroom₁ : t.Room o₁ out.payload.live.length := by
    refine ⟨by omega, ?_⟩
    rcases hmem with hfit | ha
    · have hput := h₁.grown.inPlace (by rw [Header.bytes_length]; omega)
      rw [Header.bytes_length] at hput
      exact .inl (by omega)
    · exact .inr (h₁.allocs ha)
  obtain ⟨o₂, u, hrun', h₂⟩ := @run_appendOutPayload t { r with out := some o₁ } o₁ out.payload
    (h₁.alive hs) hr₁ rfl h₁.grown.ok hp hroom₁
  refine ⟨o₂, u, ?_, ?_, h₁.grown.trans h₂.grown, fun ha => h₂.allocs (h₁.allocs ha)⟩
  · unfold appendOut
    rw [Prog.run_bind_of_ok hrun, Prog.run_bind_of_ok hrun']
    rfl
  · rw [h₂.conn, h₁.conn]

/-! ## The packet of a reply -/

/-- The payload of `p` holds the bytes `bs`, and nothing of it was consumed. -/
structure Composed (p : Packet) (bs : List UInt8) : Prop where
  ok : p.payload.Ok
  live : p.payload.live = bs
  cap : p.payload.cap = adbMaxPacketSize
  last : p.payload.last = bs.length

lemma Composed.bufSize {p : Packet} {bs : List UInt8} (h : Composed p bs) :
    bufSize p.payload = bs.length := by
  rw [← h.ok.live_length, h.live]

lemma composed_new {p : Packet} (h : ∃ m, p.payload = ⟨m, adbMaxPacketSize, 0, 0⟩) :
    Composed p [] := by
  obtain ⟨m, hm⟩ := h
  refine ⟨?_, ?_, ?_, ?_⟩ <;> rw [hm]
  · exact Buf.ok_of_new (by norm_num [adbMaxPacketSize])
  · rfl
  · rfl

lemma Composed.header {p : Packet} {bs : List UInt8} (h : Composed p bs) (hdr : Header) :
    Composed { p with header := hdr } bs := ⟨h.ok, h.live, h.cap, h.last⟩

lemma run_appendPayload {p : Packet} {bs : List UInt8} (str : List UInt8)
    (hs : s.conn.destroyed = false) (h : Composed p bs) (hlen : bs.length + str.length ≤ 2^20) :
    ∃ payload, Prog.run Slot.exec (bufAppendCstring p.payload str) s = .ok (some payload, s) ∧
      Prog.run Slot.exec (appendPayload p str) s = .ok ({ p with payload }, s) ∧
        Composed { p with payload } (bs ++ str) := by
  have hfit : p.payload.last + str.length ≤ p.payload.cap := by
    rw [h.last, h.cap]
    norm_num [adbMaxPacketSize] at hlen ⊢
    exact_mod_cast hlen
  have hrun := run_bufAppendCstring hs h.ok hfit
  have hg := Buf.extend_grown h.ok hfit
  refine ⟨_, hrun, (Prog.run_bind_of_ok hrun).trans rfl, hg.ok, ?_, ?_, ?_⟩
  · rw [hg.live, h.live]
  · rw [(hg.inPlace hfit).2, h.cap]
  · rw [(hg.inPlace hfit).1, h.last, List.length_append, Nat.cast_add]

lemma run_appendAll (hs : s.conn.destroyed = false) (strs : List (List UInt8)) {p : Packet}
    {bs : List UInt8} (h : Composed p bs) (hlen : bs.length + strs.flatten.length ≤ 2^20) :
    ∃ payload, Prog.run Slot.exec (appendAll p strs) s = .ok ({ p with payload }, s) ∧
      Composed { p with payload } (bs ++ strs.flatten) := by
  induction strs generalizing p bs with
  | nil => exact ⟨p.payload, rfl, by rwa [List.flatten_nil, List.append_nil]⟩
  | cons str strs ih =>
    rw [List.flatten_cons, List.length_append] at hlen
    obtain ⟨payload, -, hrun, h'⟩ := run_appendPayload str hs h (by omega)
    obtain ⟨payload', hrun', h''⟩ := ih h' (by rw [List.length_append]; omega)
    refine ⟨payload', ?_, ?_⟩
    · rw [appendAll, Prog.run_bind_of_ok hrun]
      exact hrun'
    · rwa [List.flatten_cons, ← List.append_assoc]

/-- The payload of the reply to a packet with the header `h`. -/
def Header.replyPayload (h : Header) : List UInt8 :=
  if h.pcmd = pcmdCnxn then authToken
  else if h.pcmd = pcmdAuth then cnxnStrings.flatten
  else if h.pcmd = pcmdWrte then writeData
  else []

/-- A header `h` with a payload answers a packet with the header `p`. -/
structure Frame (p h : Header) (payload : List UInt8) : Prop where
  magic : h.magic = ~~~h.pcmd
  dlen : h.dlen.toNat = payload.length
  arg1 : p.pcmd ∈ [pcmdOpen, pcmdOkay, pcmdWrte] → h.arg1 = p.arg0

lemma Composed.fill {out : Packet} {bs : List UInt8} (h : Composed out bs)
    (hlen : bs.length < 2^32) {p : Header}
    (harg : p.pcmd ∈ [pcmdOpen, pcmdOkay, pcmdWrte] → out.header.arg1 = p.arg0) :
    Composed (fillPacket out) bs ∧ Frame p (fillPacket out).header bs := by
  refine ⟨⟨h.ok, h.live, h.cap, h.last⟩, rfl, ?_, harg⟩
  show (UInt32.ofNat (unsigned (Xdbd.bufSize out.payload))).toNat = _
  have hunsigned := h.ok.unsigned
  rw [h.bufSize] at hunsigned ⊢
  rw [UInt32.toNat_ofNat', Nat.mod_eq_of_lt (by omega)]
  omega

/-! ## The handlers -/

/-- How a packet handler ends that starts in `s` for the request `r`: it refuses the packet, it
finds no memory for the reply, the dump of the reply faults, or the reply `out` is appended. -/
inductive Served (s : Slot) (r : Request) : Except Fault (Rc × Slot) → Prop
  | refused (unsupported : ¬ r.p.header.Supported) : Served s r (.ok (.err, s))
  | starved {k : ℕ} {t : Slot} (supported : r.p.header.Supported)
    (denied : ∃ j < 3, s.granted j = false) (spent : Spent k s t) : Served s r (.ok (.err, t))
  | crashed {e : Fault} (supported : r.p.header.Supported) (dumps : r.p.header.pcmd ≠ pcmdAuth)
    (granted : ∀ j < 3, s.granted j = true) (denied : ∃ j < 5, s.granted j = false) :
    Served s r (.error e)
  | replied {out : Packet} {k : ℕ} {t : Slot} (supported : r.p.header.Supported)
    (granted : ∀ j < 3, s.granted j = true)
    (dumped : r.p.header.pcmd ≠ pcmdAuth → ∀ j < 5, s.granted j = true)
    (frame : Frame r.p.header out.header r.p.header.replyPayload)
    (composed : Composed out r.p.header.replyPayload) (spent : Spent k s t) :
    Served s r (Prog.run Slot.exec (appendOut out) t)

/-- A packet handler starts in `s` for the request `r`, whose packet it supports. -/
structure Begun (s : Slot) (r : Request) : Prop where
  alive : s.conn.destroyed = false
  data : s.conn.data = .request r
  supported : r.p.header.Supported

namespace Begun
variable {r : Request} {out : Packet} {k : ℕ}

lemma next (h : Begun s r) (ht : Spent k s t) : Begun t r where
  alive := ht.alive h.alive
  data := by rw [ht.conn, h.data]
  supported := h.supported

lemma dumped (h : Begun s r) (ht : Spent 3 s t) (hg : ∀ j < 3, s.granted j = true)
    (hd : r.p.header.pcmd ≠ pcmdAuth) (hc : Composed out r.p.header.replyPayload)
    (hsmall : r.p.header.replyPayload.length ≤ 512)
    (hf : Frame r.p.header out.header r.p.header.replyPayload) :
    Served s r (Prog.run Slot.exec (dumpAdbPacket out >>= fun _ => appendOut out) t) := by
  have hsize := hc.bufSize
  rcases run_dumpAdbPacket (ht.alive h.alive) hc.ok (by omega) with
    ⟨u, hrun, hu, hgu⟩ | ⟨hrun, j, hj, hden⟩
  · rw [Prog.run_bind_of_ok hrun]
    refine .replied h.supported hg (fun _ j hj => ?_) hf hc (ht.trans hu)
    by_cases hj3 : j < 3
    · exact hg j hj3
    · have := hgu (j - 3) (by omega)
      rwa [ht.granted, show 3 + (j - 3) = j by omega] at this
  · rw [Prog.run_bind_of_error hrun]
    rw [ht.granted] at hden
    exact .crashed h.supported hd hg ⟨3 + j, by omega, hden⟩

lemma allocPacket {f : Option Packet → Code Rc} (h : Begun s r) (hnone : f none = pure .err)
    (hsome : ∀ out t, Spent 3 s t → (∀ j < 3, s.granted j = true) → Composed out [] →
      Served s r (Prog.run Slot.exec (f (some out)) t)) :
    Served s r (Prog.run Slot.exec (Xdbd.allocPacket >>= f) s) := by
  obtain ⟨p, t, hrun, hp⟩ := allocPacket_obtained h.alive
  rw [Prog.run_bind_of_ok hrun]
  cases hp with
  | denied refused spent =>
    rw [hnone]
    exact .starved h.supported refused spent
  | given granted spent result => exact hsome _ t spent granted (composed_new result)

lemma processCnxnPacket (h : Begun s r) (hp : r.p.header.pcmd = pcmdCnxn) :
    Served s r (Prog.run Slot.exec processCnxnPacket s) := by
  have hreply : r.p.header.replyPayload = authToken := if_pos hp
  refine h.allocPacket rfl fun out t ht hg hc => ?_
  obtain ⟨payload, -, hrun, hc'⟩ := run_appendPayload authToken (ht.alive h.alive)
    (hc.header { out.header with pcmd := pcmdAuth, arg0 := adbAuthToken, arg1 := 0 })
    (by decide)
  dsimp only
  rw [Prog.run_bind_of_ok hrun]
  rw [List.nil_append, ← hreply] at hc'
  obtain ⟨hc'', hf⟩ := @Composed.fill _ _ hc' (by rw [hreply]; decide) r.p.header
    fun hm => absurd (hp ▸ hm) (by decide)
  exact h.dumped ht hg (by rw [hp]; decide) hc'' (by rw [hreply]; decide) hf

lemma processAuthPacket (h : Begun s r) (hp : r.p.header.pcmd = pcmdAuth) :
    Served s r (Prog.run Slot.exec processAuthPacket s) := by
  have hreply : r.p.header.replyPayload = cnxnStrings.flatten := by
    unfold Header.replyPayload
    rw [hp]
    rfl
  have hlen : cnxnStrings.flatten.length ≤ 512 := by
    set_option maxRecDepth 10000 in decide
  refine h.allocPacket rfl fun out t ht hg hc => ?_
  obtain ⟨payload, hrun, hc'⟩ := run_appendAll (ht.alive h.alive) cnxnStrings
    (hc.header { out.header with
      pcmd := pcmdCnxn, arg0 := adbVersion, arg1 := UInt32.ofNat adbMaxPacketSize })
    (by rw [List.length_nil]; omega)
  dsimp only
  rw [Prog.run_bind_of_ok hrun]
  rw [List.nil_append, ← hreply] at hc'
  obtain ⟨hc'', hf⟩ := @Composed.fill _ _ hc' (by rw [hreply]; omega) r.p.header
    fun hm => absurd (hp ▸ hm) (by decide)
  exact .replied h.supported hg (fun hn => absurd hp hn) hf hc'' ht

lemma processShellCmd (h : Begun s r) (hp : r.p.header.pcmd ∈ [pcmdOpen, pcmdOkay]) :
    Served s r (Prog.run Slot.exec processShellCmd s) := by
  have hreply : r.p.header.replyPayload = [] := by
    unfold Header.replyPayload
    rcases List.mem_pair.mp hp with hp | hp <;> rw [hp] <;> rfl
  refine h.allocPacket rfl fun out t ht hg hc => ?_
  have hb := h.next ht
  dsimp only
  unfold okeyPacket
  rw [bind_assoc, Prog.run_bind_of_ok (run_getRequest hb.alive hb.data), bind_assoc]
  obtain ⟨hc', hf⟩ := @Composed.fill _ _ (hc.header { out.header with
    pcmd := pcmdOkay, arg0 := 1, arg1 := r.p.header.arg0 }) (by decide) r.p.header fun _ => rfl
  rw [← hreply] at hc' hf
  exact h.dumped ht hg (by rcases List.mem_pair.mp hp with hp | hp <;> rw [hp] <;> decide) hc'
    (by rw [hreply]; decide) hf

lemma processWritePacket (h : Begun s r) (hp : r.p.header.pcmd = pcmdWrte) :
    Served s r (Prog.run Slot.exec processWritePacket s) := by
  have hreply : r.p.header.replyPayload = writeData := by
    unfold Header.replyPayload
    rw [hp]
    rfl
  refine h.allocPacket rfl fun out t ht hg hc => ?_
  have hb := h.next ht
  obtain ⟨payload, hrun, -, hc'⟩ := run_appendPayload writeData hb.alive
    (hc.header { out.header with
    pcmd := pcmdWrte, arg0 := 1, arg1 := r.p.header.arg0 }) (by decide)
  dsimp only
  unfold writePacket
  rw [bind_assoc, Prog.run_bind_of_ok (run_getRequest hb.alive hb.data), bind_assoc,
    Prog.run_bind_of_ok hrun]
  dsimp only
  rw [bind_assoc]
  rw [List.nil_append, ← hreply] at hc'
  obtain ⟨hc'', hf⟩ := @Composed.fill _ _ hc' (by rw [hreply]; decide) r.p.header fun _ => rfl
  exact h.dumped ht hg (by rw [hp]; decide) hc'' (by rw [hreply]; decide) hf

end Begun

lemma Header.supported_of {h : Header} (hm : h.magic = ~~~h.pcmd) {c : UInt32} (hp : h.pcmd = c)
    (hc : c ∈ [pcmdCnxn, pcmdOkay, pcmdClse, pcmdWrte, pcmdAuth]) : h.Supported := by
  refine ⟨hm, ?_, fun hopen => ?_⟩
  · rw [hp]
    exact List.Subset.trans (show _ ⊆ [pcmdCnxn, pcmdOpen, pcmdOkay, pcmdClse, pcmdWrte, pcmdAuth]
      by decide) (List.Subset.refl _) hc
  · rw [hp.symm.trans hopen] at hc
    exact absurd hc (by decide)

lemma served_processPcmd {r : Request} (hs : s.conn.destroyed = false)
    (hr : s.conn.data = .request r) (hm : r.p.header.magic = ~~~r.p.header.pcmd)
    (hclse : r.p.header.pcmd ≠ pcmdClse) :
    Served s r (Prog.run Slot.exec (processPcmd r.p) s) := by
  have hbegun : r.p.header.Supported → Begun s r := fun hsup => ⟨hs, hr, hsup⟩
  rcases processPcmd_eq r.p with ⟨entry, hmem, hcmd, heq⟩ | ⟨hnone, heq⟩
  · rw [heq]
    simp only [pcmds, List.mem_cons, List.not_mem_nil, or_false] at hmem
    rcases hmem with rfl | rfl | rfl | rfl | rfl | rfl | rfl | rfl
    · exact .refused fun hsup => absurd (hcmd ▸ hsup.2.1) (by decide)
    · exact (hbegun (Header.supported_of hm hcmd.symm (by decide))).processCnxnPacket hcmd.symm
    · by_cases ha : r.p.header.arg0 = 0
      · simp only [processOpenPacket, if_pos ha]
        exact .refused fun hsup => hsup.2.2 hcmd.symm ha
      · simp only [processOpenPacket, if_neg ha]
        have hp : r.p.header.pcmd = pcmdOpen := hcmd.symm
        have hsup : r.p.header.Supported := ⟨hm, by rw [hp]; decide, fun _ => ha⟩
        exact (hbegun hsup).processShellCmd (by rw [hp]; decide)
    · have hp : r.p.header.pcmd = pcmdOkay := hcmd.symm
      exact (hbegun (Header.supported_of hm hp (by decide))).processShellCmd (by rw [hp]; decide)
    · exact absurd hcmd.symm hclse
    · exact (hbegun (Header.supported_of hm hcmd.symm (by decide))).processWritePacket hcmd.symm
    · exact (hbegun (Header.supported_of hm hcmd.symm (by decide))).processAuthPacket hcmd.symm
    · exact .refused fun hsup => absurd (hcmd ▸ hsup.2.1) (by decide)
  · rw [heq]
    exact .refused (not_supported_of_pcmds hnone)

/-- How `xdbd_process_packet` ends that is called in `s` for the request `r`. -/
inductive Answered (s : Slot) (r : Request) : Except Fault (Rc × Slot) → Prop
  | invalid (magic : r.p.header.magic ≠ ~~~r.p.header.pcmd) : Answered s r (.ok (.err, s))
  | noBuffer {t : Slot} {k : ℕ} (magic : r.p.header.magic = ~~~r.p.header.pcmd) (out : r.out = none)
    (denied : ∃ j < 2, s.granted j = false) (spent : Spent k s t) : Answered s r (.ok (.err, t))
  | created {t u : Slot} {m : Mem} {x : Except Fault (Rc × Slot)} (out : r.out = none)
    (granted : ∀ j < 2, s.granted j = true) (spent : Spent 2 s t)
    (set : u = { t with conn := { t.conn with
      data := .request { r with out := some ⟨m, 1024, 0, 0⟩ } } })
    (served : Served u { r with out := some ⟨m, 1024, 0, 0⟩ } x) : Answered s r x
  | reused {o : Buf} {x : Except Fault (Rc × Slot)} (out : r.out = some o) (served : Served s r x) :
    Answered s r x

lemma Header.replyPayload_length (h : Header) : h.replyPayload.length ≤ 512 := by
  have hlen : cnxnStrings.flatten.length ≤ 512 := by
    set_option maxRecDepth 10000 in decide
  unfold Header.replyPayload
  split_ifs
  · decide
  · exact hlen
  · decide
  · decide

theorem answered_processPacket {r : Request} (hs : s.conn.destroyed = false)
    (hr : s.conn.data = .request r) (hclse : r.p.header.pcmd ≠ pcmdClse) :
    Answered s r (Prog.run Slot.exec processPacket s) := by
  unfold processPacket
  rw [Prog.run_bind_of_ok (run_getRequest hs hr)]
  by_cases hm : r.p.header.magic = ~~~r.p.header.pcmd
  · rw [if_neg (not_not_intro hm)]
    cases ho : r.out with
    | some o => exact .reused ho (served_processPcmd hs hr hm hclse)
    | none =>
      dsimp only
      obtain ⟨b, t, hrun, hb⟩ := @createBuf_obtained s hs 1024 (by decide)
      rw [Prog.run_bind_of_ok hrun]
      cases hb with
      | denied refused spent => exact .noBuffer hm ho refused spent
      | given granted spent result =>
        obtain ⟨m, rfl⟩ := result
        dsimp only
        rw [Prog.run_bind_of_ok (run_setRequest _ (spent.alive hs))]
        exact .created ho granted spent rfl (served_processPcmd (spent.alive hs) rfl hm hclse)
  · rw [if_pos hm]
    exact .invalid hm

lemma Slot.room_new (s : Slot) (m : Mem) (h : Header) :
    s.Room ⟨m, 1024, 0, 0⟩ (headerSize + h.replyPayload.length) := by
  have hlen := h.replyPayload_length
  have h24 : headerSize = 24 := rfl
  refine ⟨?_, .inl ?_⟩
  · show (0 : ℤ) - 0 + _ < _
    push_cast
    omega
  · show (0 : ℤ) + _ ≤ ((1024 : ℕ) : ℤ)
    push_cast
    omega

lemma Composed.appendOut {r : Request} {o : Buf} {out : Packet} {k : ℕ}
    (hs : s.conn.destroyed = false) (hr : s.conn.data = .request r) (ho : r.out = some o)
    (hok : o.Ok) (hroom : s.Room o (headerSize + r.p.header.replyPayload.length))
    (hc : Composed out r.p.header.replyPayload) (ht : Spent k s t) :
    ∃ o' u, Prog.run Slot.exec (Xdbd.appendOut out) t = .ok (.ok, u) ∧
      PutOut s r o (out.header.bytes ++ r.p.header.replyPayload) o' u := by
  have hdata : t.conn.data = .request r := by rw [ht.conn, hr]
  obtain ⟨o', u, hrun, hput⟩ := run_appendOut (ht.alive hs) hdata ho hok hc.ok
    (by rw [hc.live]; exact ⟨hroom.1, hroom.2.imp_right ht.allocsSucceed⟩)
  rw [hc.live] at hput
  refine ⟨o', u, hrun, ?_, hput.grown, fun ha => hput.allocs (ht.allocsSucceed ha)⟩
  rw [hput.conn, ht.conn]

end Xdbd

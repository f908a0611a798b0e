import Xdbd.BufferSpecs

/-!
# What a packet handler does

From the dispatch of a packet on, a handler allocates, extends `r->out` and nothing else,
until it returns or closes the connection. At every moment `r->out` holds what it held at
the dispatch, the replies put since, and perhaps the bytes of the one being put.
-/
namespace Xdbd
open Interaction Code

variable {s t u : Slot} {κ : Prog.Contract Slot}

def putBytes : Obs → List UInt8
  | .put bs => bs
  | _ => []

def puts (h : List Obs) : List UInt8 := h.flatMap putBytes

lemma puts_append (h h' : List Obs) : puts (h ++ h') = puts h ++ puts h' := List.flatMap_append

/-- The observations inside a packet handler. -/
def Obs.Inner (o : Obs) : Prop := o.Quiet ∨ ∃ bs, o = .put bs

lemma puts_quiet {h : List Obs} (hq : ∀ o ∈ h, o.Quiet) : puts h = [] := by
  refine List.flatMap_eq_nil_iff.mpr fun o ho => ?_
  have := hq o ho
  cases o with
  | put bs => exact this.elim
  | _ => rfl

def Request.held (r : Request) : List UInt8 := r.out.elim [] Buf.live

/-- A packet handler that was entered in `s` has reached `t`; the bytes `e` are in `r->out`
but not noted yet. -/
structure Working (s : Slot) (e : List UInt8) (t : Slot) : Prop where
  same : t = { s with
    conn := { s.conn with data := t.conn.data }
    wire := { s.wire with allocs := t.wire.allocs, history := t.wire.history } }
  allocs : t.wire.allocs <:+ s.wire.allocs
  request : ∃ r out new, s.conn.data = .request r ∧ t.conn.data = .request { r with out } ∧
    t.wire.history = s.wire.history ++ new ∧ (∀ o ∈ new, o.Inner) ∧
    (∀ o, out = some o → o.Ok) ∧ Request.held { r with out } = r.held ++ puts new ++ e

lemma Working.start {r : Request} (hr : s.conn.data = .request r)
    (hout : ∀ o, r.out = some o → o.Ok) : Working s [] s where
  same := rfl
  allocs := List.suffix_rfl
  request := ⟨r, r.out, [], hr, hr, by simp, by simp, hout, by simp [puts]⟩

lemma Working.quiet {e : List UInt8} (h : Working s e t) (hq : Quiet t u) : Working s e u where
  same := by rw [hq.same, h.same]
  allocs := hq.allocs.trans h.allocs
  request := by
    obtain ⟨r, out, new, hr, ht, hnew, hin, hok, hheld⟩ := h.request
    obtain ⟨new', hnew', hq'⟩ := hq.history
    refine ⟨r, out, new ++ new', hr, by rw [hq.conn]; exact ht, ?_, fun o ho => ?_, hok, ?_⟩
    · rw [hnew', hnew, List.append_assoc]
    · exact (List.mem_append.mp ho).elim (hin o) fun ho => .inl (hq' o ho)
    · rw [hheld, puts_append, puts_quiet hq', List.append_nil]

lemma Working.setOut {e bs : List UInt8} (h : Working s e t) {r : Request} {o o' : Buf}
    (hr : t.conn.data = .request r) (ho : r.out = some o) (hok : o'.Ok)
    (hlive : o'.live = o.live ++ bs) :
    Working s (e ++ bs) { t with conn :=
    { t.conn with data := .request { r with out := some o' } } }
    where
  same := by rw [h.same]
  allocs := h.allocs
  request := by
    obtain ⟨r', out, new, hr', ht, hnew, hin, -, hheld⟩ := h.request
    obtain rfl : r = { r' with out } := Data.request.inj (hr.symm.trans ht)
    refine ⟨r', some o', new, hr', rfl, hnew, hin, fun o'' ho'' => ?_, ?_⟩
    · rw [← Option.some.inj ho'']
      exact hok
    · obtain rfl : out = some o := ho
      change o.live = _ at hheld
      show o'.live = _
      rw [hlive, hheld, List.append_assoc]

lemma Working.newOut (h : Working s [] t) {r : Request} {m : Mem} {n : ℕ} (hn : n < 2^32)
    (hr : t.conn.data = .request r) (ho : r.out = none) :
    Working s [] { t with
      conn := { t.conn with data := .request { r with out := some ⟨m, n, 0, 0⟩ } } } where
  same := by rw [h.same]
  allocs := h.allocs
  request := by
    obtain ⟨r', out, new, hr', ht, hnew, hin, -, hheld⟩ := h.request
    obtain rfl : r = { r' with out } := Data.request.inj (hr.symm.trans ht)
    refine ⟨r', some ⟨m, n, 0, 0⟩, new, hr', rfl, hnew, hin, fun o'' ho'' => ?_, ?_⟩
    · rw [← Option.some.inj ho'']
      exact Buf.ok_of_new hn
    · obtain rfl : out = none := ho
      rw [← hheld]
      rfl

lemma Working.put {bs : List UInt8} (h : Working s bs t) : Working s [] (t.log (.put bs)) where
  same := by rw [h.same]; rfl
  allocs := h.allocs
  request := by
    obtain ⟨r, out, new, hr, ht, hnew, hin, hok, hheld⟩ := h.request
    refine ⟨r, out, new ++ [.put bs], hr, ht, ?_, fun o ho => ?_, hok, ?_⟩
    · show t.wire.history ++ _ = _
      rw [hnew, List.append_assoc]
    · rcases List.mem_append.mp ho with ho | ho
      · exact hin o ho
      · rw [List.mem_singleton.mp ho]
        exact .inr ⟨bs, rfl⟩
    · have hput : puts [.put bs] = bs := by simp [puts, putBytes]
      rw [hheld, puts_append, hput, List.append_nil, List.append_assoc]

/-- The contract holds all along a packet handler that is entered in `s`. -/
structure Engaged (κ : Prog.Contract Slot) (s : Slot) : Prop where
  assume : κ.assume s
  keep : ∀ e t, Working s e t → κ.assume t → κ.keep t
  close : ∀ t, Working s [] t → κ.assume t.closed → κ.keep t.closed

lemma Engaged.settled {e : List UInt8} (h : Engaged κ s) (hw : Working s e t) (ht : κ.assume t) :
    Settled κ t := ⟨ht, fun u hq hu => h.keep e u (hw.quiet hq) hu⟩

/-- What keeps the operations of a handler from being faults. -/
structure Slot.Usable (s : Slot) : Prop where
  alive : s.conn.destroyed = false
  unixIo : s.conn.unixIo = true
  listening : s.conn.listening ≠ none
  fd : s.conn.fd ≠ -1
  allocs : s.AllocsSucceed

lemma Slot.Usable.quiet (h : s.Usable) (hq : Quiet s t) : t.Usable where
  alive := by rw [hq.conn]; exact h.alive
  unixIo := by rw [hq.conn]; exact h.unixIo
  listening := by rw [hq.conn]; exact h.listening
  fd := by rw [hq.conn]; exact h.fd
  allocs := hq.allocsSucceed h.allocs

lemma Slot.Usable.working {e : List UInt8} (h : s.Usable) (hw : Working s e t) : t.Usable := by
  refine ⟨?_, ?_, ?_, ?_, fun m hm => h.allocs m (hw.allocs.subset hm)⟩
  · rw [hw.same]
    exact h.alive
  · rw [hw.same]
    exact h.unixIo
  · rw [hw.same]
    exact h.listening
  · rw [hw.same]
    exact h.fd

/-- `r->out` is there and holds at most `n` bytes. -/
def OutWithin (n : ℕ) (t : Slot) : Prop :=
  ∃ r o, t.conn.data = .request r ∧ r.out = some o ∧ bufSize o ≤ n

lemma OutWithin.quiet {n : ℕ} (h : OutWithin n t) (hq : Quiet t u) : OutWithin n u := by
  unfold OutWithin
  rw [hq.conn]
  exact h

lemma OutWithin.request {n : ℕ} (h : OutWithin n t) : ∃ r, t.conn.data = .request r :=
  h.imp fun _ ⟨_, hr, _⟩ => hr

lemma OutWithin.out_ne_none {n : ℕ} (h : OutWithin n t) {r : Request}
    (hr : t.conn.data = .request r) : r.out ≠ none := by
  obtain ⟨r', o, hr', ho, -⟩ := h
  rw [Data.request.inj (hr.symm.trans hr'), ho]
  simp

lemma OutWithin.bufSize_le {n : ℕ} (h : OutWithin n t) {r : Request} {o : Buf}
    (hr : t.conn.data = .request r) (ho : r.out = some o) : bufSize o ≤ n := by
  obtain ⟨r', o', hr', ho', hle⟩ := h
  obtain rfl : r = r' := Data.request.inj (hr.symm.trans hr')
  obtain rfl : o = o' := Option.some.inj (ho.symm.trans ho')
  exact hle

lemma Working.out_ok {e : List UInt8} (h : Working s e t) {r : Request} {o : Buf}
    (hr : t.conn.data = .request r) (ho : r.out = some o) : o.Ok := by
  obtain ⟨r', out, new, -, ht, -, -, hok, -⟩ := h.request
  obtain rfl : r = { r' with out } := Data.request.inj (hr.symm.trans ht)
  exact hok o ho

/-! ## The two appends -/

/-- What an append to `r->out` leaves. -/
structure Put (κ : Prog.Contract Slot) (s : Slot) (bs : List UInt8) (t u : Slot) : Prop where
  assume : κ.assume u
  working : Working s [] u
  within : ∀ n, OutWithin n t → s.AllocsSucceed → n + bs.length < 2^32 →
    OutWithin (n + bs.length) u

lemma put_rule (he : Engaged κ s) (hw : Working s [] t) {r : Request} {o o' : Buf}
    (hr : t.conn.data = .request r) (ho : r.out = some o) {bs : List UInt8}
    (ha : Appended κ o bs t (some o') u) (hf : κ.fail ∨ s.Usable) :
    Prog.Ensures Slot.exec κ (fun _ v => Put κ s bs t v)
      (do setRequest { r with out := some o' }; note (.put bs)) u := by
  have hwu : Working s [] u := hw.quiet ha.quiet
  have hru : u.conn.data = .request r := by rw [ha.quiet.conn]; exact hr
  refine setRequest_rule _ ha.settled.holds (hf.imp_right fun hf => (hf.working hwu).alive)
    fun _ hv => ?_
  set v : Slot := { u with conn := { u.conn with data := .request { r with out := some o' } } }
  have hwv : Working s bs v := hwu.setOut hru ho (ha.ok o' rfl) (ha.live o' rfl)
  refine .of_bind_pure (note_rule _ (he.keep bs v hwv hv) fun hx => ?_)
  refine .pure (he.keep [] _ hwv.put hx) ⟨hx, hwv.put, fun n hn _ _ => ?_⟩
  refine ⟨{ r with out := some o' }, o', rfl, rfl, ?_⟩
  have hle := hn.bufSize_le hr ho
  rw [ha.bufSize (hw.out_ok hr ho) rfl]
  push_cast
  omega

lemma put_none (he : Engaged κ s) (hw : Working s [] t) {r : Request} {o : Buf}
    (hr : t.conn.data = .request r) (ho : r.out = some o) {bs : List UInt8}
    (ha : Appended κ o bs t none u) :
    Prog.Ensures Slot.exec κ (fun _ v => Put κ s bs t v) (pure ()) u := by
  have hwu : Working s [] u := hw.quiet ha.quiet
  have hu := ha.settled.assume
  refine .pure (he.keep [] u hwu hu) ⟨hu, hwu, fun n hle hs hn => ?_⟩
  have hle := hle.bufSize_le hr ho
  exact absurd rfl (ha.succeeds (fun m hm => hs m (hw.allocs.subset hm)) (by omega))

lemma appendOutHeader_spec (he : Engaged κ s) (hw : Working s [] t) (ht : κ.assume t) (h : Header)
    (hf : κ.fail ∨ s.Usable ∧ OutWithin (2^16) t) :
    Prog.Ensures Slot.exec κ (fun _ u => Put κ s h.bytes t u) (appendOutHeader h) t := by
  have hset := he.settled hw ht
  have halive := hf.imp_right fun hf => (hf.1.working hw).alive
  unfold appendOutHeader
  refine getRequest_rule hset.holds (hf.imp_right fun hf =>
    ⟨(hf.1.working hw).alive, hf.2.request⟩) fun r _ hr => ?_
  refine deref_rule hset.holds (hf.imp_right fun hf => hf.2.out_ne_none hr) fun o ho => ?_
  have hfit : κ.fail ∨ t.conn.destroyed = false ∧ headerSize ≤ (Src.ofList h.bytes).avail ∧
      bufSize o + headerSize < 2^32 := by
    refine hf.imp_right fun hf => ⟨(hf.1.working hw).alive, le_rfl, ?_⟩
    have := hf.2.bufSize_le hr ho
    have : headerSize = 24 := rfl
    omega
  have happ := bufAppendMem_spec hset (hw.out_ok hr ho) (Src.ofList h.bytes) headerSize hfit
  rw [show (Src.ofList h.bytes).take headerSize = h.bytes from Src.take_ofList h.bytes] at happ
  refine happ.andThen fun r' u ha => ?_
  cases r' with
  | none => exact put_none he hw hr ho ha
  | some o' => exact put_rule he hw hr ho ha (hf.imp_right And.left)

lemma Obs.quiet_append {b : Buf} (hb : b.Ok) :
    (Obs.append b.pos b.last (sizeT (bufSize b))).Quiet :=
  ⟨hb.pos, hb.size, hb.sizeT⟩

lemma appendOutPayload_spec (he : Engaged κ s) (hw : Working s [] t) (ht : κ.assume t)
    {payload : Buf} (hp : payload.Ok)
    (hf : κ.fail ∨ s.Usable ∧ OutWithin (2^17) t ∧ bufSize payload ≤ 2^16) :
    Prog.Ensures Slot.exec κ (fun _ u => Put κ s payload.live t u) (appendOutPayload payload)
      t := by
  have hset := he.settled hw ht
  unfold appendOutPayload bufAppendBuf
  refine getRequest_rule hset.holds (hf.imp_right fun hf =>
    ⟨(hf.1.working hw).alive, hf.2.1.request⟩) fun r _ hr => ?_
  refine deref_rule hset.holds (hf.imp_right fun hf => hf.2.1.out_ne_none hr) fun o ho => ?_
  -- the note of the append is a quiet step, and the append goes on from there
  have hlog : Quiet t (t.log (.append payload.pos payload.last (sizeT (bufSize payload)))) :=
    .log t (Obs.quiet_append hp)
  rw [bind_assoc]
  refine note_rule _ hset.holds fun hn => ?_
  have hw' := hw.quiet hlog
  have hfit : κ.fail ∨ t.conn.destroyed = false ∧
      sizeT (bufSize payload) ≤ (Src.ofBuf payload).avail ∧
        bufSize o + sizeT (bufSize payload) < 2^32 := by
    refine hf.imp_right fun hf => ⟨(hf.1.working hw).alive, ?_, ?_⟩
    · have := Src.avail_ofBuf hp
      have := hp.sizeT
      have := hp.last
      have : bufSize payload = payload.last - payload.pos := rfl
      omega
    · have := hf.2.1.bufSize_le hr ho
      have := hf.2.2
      have := hp.sizeT
      omega
  have happ := bufAppendMem_spec (hset.next hlog hn) (hw.out_ok hr ho) (Src.ofBuf payload)
    (sizeT (bufSize payload)) hfit
  rw [Src.take_live hp hp.sizeT] at happ
  refine happ.andThen fun r' u ha => ?_
  have hmono : ∀ v, Put κ s payload.live
      (t.log (.append payload.pos payload.last (sizeT (bufSize payload)))) v →
      Put κ s payload.live t v := fun v hv =>
    ⟨hv.assume, hv.working, fun n hn => hv.within n (hn.quiet hlog)⟩
  cases r' with
  | none => exact (put_none he hw' hr ho ha).mono fun _ => hmono
  | some o' => exact (put_rule he hw' hr ho ha (hf.imp_right And.left)).mono fun _ => hmono

lemma OutWithin.mono {n m : ℕ} (h : OutWithin n t) (hnm : n ≤ m) : OutWithin m t :=
  h.imp fun _ ⟨o, hr, ho, hle⟩ => ⟨o, hr, ho, by omega⟩

/-- The end of every packet handler: the reply is in `r->out`, as far as there was memory. -/
lemma appendOut_spec (he : Engaged κ s) (hw : Working s [] t) (ht : κ.assume t) {out : Packet}
    (hp : out.payload.Ok) (hn : bufSize out.payload ≤ 2^16)
    (hf : κ.fail ∨ s.Usable ∧ OutWithin 0 t) :
    Prog.Ensures Slot.exec κ (fun rc u => rc = .ok ∧ κ.assume u ∧ Working s [] u ∧
      (κ.fail ∨ OutWithin (2^17) u)) (appendOut out) t := by
  have hlive := hp.live_length
  unfold appendOut
  refine (appendOutHeader_spec he hw ht out.header (hf.imp_right fun hf =>
    ⟨hf.1, hf.2.mono (by norm_num)⟩)).andThen fun _ u hu => ?_
  have hwithin : κ.fail ∨ s.Usable ∧ OutWithin 24 u := hf.imp_right fun hf =>
    ⟨hf.1, hu.within 0 hf.2 hf.1.allocs (by norm_num [headerSize])⟩
  refine (appendOutPayload_spec he hu.working hu.assume hp (hwithin.imp_right fun hf =>
    ⟨hf.1, hf.2.mono (by norm_num), hn⟩)).andThen fun _ v hv => ?_
  refine .pure (he.keep [] v hv.working hv.assume) ⟨rfl, hv.assume, hv.working, ?_⟩
  exact hwithin.imp_right fun hf =>
    (hv.within 24 hf.2 hf.1.allocs (by omega)).mono (by omega)

/-! ## The packet handlers -/

/-- A reply packet was built from `t` to `u`. -/
structure Built (κ : Prog.Contract Slot) (n : ℕ) (t : Slot) (out : Packet) (u : Slot) : Prop where
  settled : Settled κ u
  quiet : Quiet t u
  ok : out.payload.Ok
  size : bufSize out.payload ≤ n

lemma appendPayload_spec {n : ℕ} {out : Packet} (h : Built κ n s out t) (str : List UInt8)
    (hf : κ.fail ∨ s.conn.destroyed = false ∧ n + str.length < 2^32) :
    Prog.Ensures Slot.exec κ (Built κ (n + str.length) s) (appendPayload out str) t := by
  unfold appendPayload
  refine (bufAppendCstring_spec h.settled h.ok str (hf.imp_right fun hf => ⟨?_, ?_⟩)).andThen
    fun r u hu => ?_
  · rw [h.quiet.conn]
    exact hf.1
  · have := h.size
    omega
  have hsize := h.size
  cases r with
  | none => exact .pure hu.settled.holds ⟨hu.settled, h.quiet.trans hu.quiet, h.ok, by omega⟩
  | some b =>
    refine .pure hu.settled.holds ⟨hu.settled, h.quiet.trans hu.quiet, hu.ok b rfl, ?_⟩
    have := hu.bufSize h.ok rfl
    push_cast
    omega

lemma appendAll_spec (strs : List (List UInt8)) {n : ℕ} {out : Packet} (h : Built κ n s out t)
    (hf : κ.fail ∨ s.conn.destroyed = false ∧ n + (strs.map List.length).sum < 2^32) :
    Prog.Ensures Slot.exec κ (Built κ (n + (strs.map List.length).sum) s) (appendAll out strs)
      t := by
  induction strs generalizing n out t with
  | nil => exact .pure h.settled.holds h
  | cons str strs ih =>
    rw [List.map_cons, List.sum_cons] at hf ⊢
    rw [appendAll, ← Nat.add_assoc]
    exact (appendPayload_spec h str (hf.imp_right fun hf => ⟨hf.1, by omega⟩)).andThen
      fun out' u hu => ih hu (hf.imp_right fun hf => ⟨hf.1, by omega⟩)

/-- A failed allocation is among the first `k` observations from `s` to `t`. -/
def FailedWithin (k : ℕ) (s t : Slot) : Prop :=
  ∃ new, t.wire.history = s.wire.history ++ new ∧ new.length ≤ k ∧ ∃ n, Obs.alloc n false ∈ new

lemma FailedWithin.mono {k l : ℕ} (h : FailedWithin k s t) (hkl : k ≤ l) : FailedWithin l s t :=
  h.imp fun _ hn => ⟨hn.1, hn.2.1.trans hkl, hn.2.2⟩

lemma Allocated.failedWithin {k : ℕ} (h : Allocated κ k s t false) : FailedWithin k s t := by
  obtain ⟨new, hnew, hk, hbad⟩ := h.few
  exact ⟨new, hnew, hk, hbad rfl⟩

/-- How a packet handler that was entered in `s` ends, seen from `t`. -/
inductive Outcome (κ : Prog.Contract Slot) (s t : Slot) : Rc → Slot → Prop
  | replied {u : Slot} (assume : κ.assume u) (working : Working s [] u)
      (within : κ.fail ∨ OutWithin (2^17) u) : Outcome κ s t .ok u
  | refused {u : Slot} (assume : κ.assume u) (working : Working s [] u)
      (failed : FailedWithin 3 t u) : Outcome κ s t .err u

lemma Working.data {e : List UInt8} (h : Working s e t) : ∃ r, t.conn.data = .request r := by
  obtain ⟨r, out, _, _, ht, _⟩ := h.request
  exact ⟨_, ht⟩

/-- A packet handler that was entered in `s` goes on from `t`, with nothing in `r->out` yet if
it must succeed. -/
structure Serving (κ : Prog.Contract Slot) (s t : Slot) : Prop where
  engaged : Engaged κ s
  working : Working s [] t
  assume : κ.assume t
  able : κ.fail ∨ s.Usable ∧ OutWithin 0 t

namespace Serving

lemma usable (h : Serving κ s t) (hq : Quiet t u) : κ.fail ∨ u.Usable :=
  h.able.imp_right fun hf => hf.1.working (h.working.quiet hq)

lemma alive (h : Serving κ s t) : κ.fail ∨ t.conn.destroyed = false :=
  (h.usable (.refl t)).imp_right Slot.Usable.alive

lemma allocPacket_rule (h : Serving κ s t) {f : Option Packet → Code Rc}
    (hnone : f none = pure .err)
    (hsome : ∀ out u, Built κ 0 t out u →
    Prog.Ensures Slot.exec κ (Outcome κ s t) (f (some out)) u) :
    Prog.Ensures Slot.exec κ (Outcome κ s t) (allocPacket >>= f) t := by
  refine (allocPacket_spec (h.engaged.settled h.working h.assume) h.alive).andThen
    fun r u ⟨hu, hp⟩ => ?_
  cases r with
  | none =>
    rw [hnone]
    exact .pure hu.settled.holds
      (.refused hu.settled.assume (h.working.quiet hu.quiet) hu.failedWithin)
  | some out =>
    obtain ⟨m, hm⟩ := hp out rfl
    refine hsome out u ⟨hu.settled, hu.quiet, ?_, ?_⟩
    · rw [hm]
      exact Buf.ok_of_new (by norm_num [adbMaxPacketSize])
    · rw [hm]
      exact le_rfl

lemma appendOut_outcome (h : Serving κ s t) {n : ℕ} {out : Packet} (hb : Built κ n t out u)
    (hn : n ≤ 2^16) : Prog.Ensures Slot.exec κ (Outcome κ s t) (appendOut out) u := by
  have hsize := hb.size
  refine (appendOut_spec h.engaged (h.working.quiet hb.quiet) hb.settled.assume hb.ok (by omega)
    (h.able.imp_right fun hf => ⟨hf.1, hf.2.quiet hb.quiet⟩)).mono fun rc v ⟨hrc, hv, hwv, hout⟩ =>
      ?_
  rw [hrc]
  exact .replied hv hwv hout

lemma dump_built (h : Serving κ s t) {n : ℕ} {out : Packet} (hb : Built κ n t out u)
    (hn : n ≤ 2^16) :
    Prog.Ensures Slot.exec κ (fun _ => Built κ n t out) (dumpAdbPacket out) u := by
  have hsize := hb.size
  exact (dumpAdbPacket_spec hb.settled hb.ok ((h.usable hb.quiet).imp_right fun hf =>
    ⟨hf.alive, hf.allocs, by omega⟩)).mono
      fun _ v ⟨hv, hq⟩ => ⟨hv, hb.quiet.trans hq, hb.ok, hb.size⟩

lemma getRequest_rule (h : Serving κ s t) {f : Request → Code Packet} {n : ℕ}
    {Q : Packet → Slot → Prop} {out : Packet} (hb : Built κ n t out u)
    (hk : ∀ r, Prog.Ensures Slot.exec κ Q (f r) u) :
    Prog.Ensures Slot.exec κ Q (getRequest >>= f) u :=
  Xdbd.getRequest_rule hb.settled.holds ((h.usable hb.quiet).imp_right fun hf =>
    ⟨hf.alive, (h.working.quiet hb.quiet).data⟩) fun r _ _ => hk r

lemma okeyPacket_spec (h : Serving κ s t) {out : Packet} (hb : Built κ 0 t out u) :
    Prog.Ensures Slot.exec κ (Built κ 0 t) (okeyPacket out) u := by
  unfold okeyPacket
  refine h.getRequest_rule hb fun r => ?_
  have hfill : Built κ 0 t (fillPacket { out with header := { out.header with
      pcmd := pcmdOkay, arg0 := 1, arg1 := r.p.header.arg0 } }) u :=
    ⟨hb.settled, hb.quiet, hb.ok, hb.size⟩
  exact (h.dump_built hfill (by norm_num)).andThen fun _ v hv => .pure hv.settled.holds hv

lemma writePacket_spec (h : Serving κ s t) {out : Packet} (hb : Built κ 0 t out u)
    {str : List UInt8} (hstr : str.length ≤ 2^16) :
    Prog.Ensures Slot.exec κ (Built κ str.length t) (writePacket out str) u := by
  have hsize : bufSize out.payload ≤ 0 := hb.size
  unfold writePacket
  refine h.getRequest_rule hb fun r => ?_
  refine (@bufAppendCstring_spec u κ hb.settled out.payload hb.ok str
    ((h.usable hb.quiet).imp_right fun hf => ⟨hf.alive, by omega⟩)).andThen fun b v hv => ?_
  cases b with
  | none =>
    refine .pure hv.settled.holds ⟨hv.settled, hb.quiet.trans hv.quiet, hb.ok, ?_⟩
    show bufSize out.payload ≤ _
    omega
  | some b =>
    have hb' : Built κ str.length t (fillPacket ⟨{ out.header with
        pcmd := pcmdWrte, arg0 := 1, arg1 := r.p.header.arg0 }, b⟩) v := by
      refine ⟨hv.settled, hb.quiet.trans hv.quiet, hv.ok b rfl, ?_⟩
      have : bufSize b = _ := hv.bufSize hb.ok rfl
      show bufSize b ≤ _
      omega
    exact (h.dump_built hb' hstr).andThen fun _ x hx => .pure hx.settled.holds hx

lemma processCnxnPacket_outcome (h : Serving κ s t) :
    Prog.Ensures Slot.exec κ (Outcome κ s t) processCnxnPacket t := by
  refine h.allocPacket_rule rfl fun out u hb => ?_
  have hbase : Built κ 0 t { out with header := { out.header with
      pcmd := pcmdAuth, arg0 := adbAuthToken, arg1 := 0 } } u :=
    ⟨hb.settled, hb.quiet, hb.ok, hb.size⟩
  refine (appendPayload_spec hbase authToken
    (h.alive.imp_right fun h => ⟨h, by decide⟩)).andThen fun out' v hv => ?_
  have hfill : Built κ (0 + authToken.length) t (fillPacket out') v :=
    ⟨hv.settled, hv.quiet, hv.ok, hv.size⟩
  exact (h.dump_built hfill (by decide)).andThen fun _ x hx => h.appendOut_outcome hx (by decide)

lemma cnxnStrings_size : (cnxnStrings.map List.length).sum < 2^9 := by
  set_option maxRecDepth 10000 in decide

lemma processAuthPacket_outcome (h : Serving κ s t) :
    Prog.Ensures Slot.exec κ (Outcome κ s t) processAuthPacket t := by
  refine h.allocPacket_rule rfl fun out u hb => ?_
  have hbase : Built κ 0 t { out with header := { out.header with
      pcmd := pcmdCnxn, arg0 := adbVersion, arg1 := UInt32.ofNat adbMaxPacketSize } } u :=
    ⟨hb.settled, hb.quiet, hb.ok, hb.size⟩
  have hsum := cnxnStrings_size
  refine (appendAll_spec cnxnStrings hbase
    (h.alive.imp_right fun h => ⟨h, by omega⟩)).andThen fun out' v hv => ?_
  have hfill : Built κ _ t (fillPacket out') v := ⟨hv.settled, hv.quiet, hv.ok, hv.size⟩
  exact h.appendOut_outcome hfill (by omega)

lemma processShellCmd_outcome (h : Serving κ s t) :
    Prog.Ensures Slot.exec κ (Outcome κ s t) processShellCmd t := by
  refine h.allocPacket_rule rfl fun out u hb => ?_
  exact (h.okeyPacket_spec hb).andThen fun out' v hv => h.appendOut_outcome hv (by norm_num)

lemma processWritePacket_outcome (h : Serving κ s t) :
    Prog.Ensures Slot.exec κ (Outcome κ s t) processWritePacket t := by
  refine h.allocPacket_rule rfl fun out u hb => ?_
  exact (h.writePacket_spec hb (by decide)).andThen fun out' v hv =>
    h.appendOut_outcome hv (by decide)

end Serving

/-! ## The dispatch -/

/-- The packets that have a handler which does not refuse them. -/
def Header.Supported (h : Header) : Prop :=
  h.magic = ~~~h.pcmd ∧ h.pcmd ∈ [pcmdCnxn, pcmdOpen, pcmdOkay, pcmdClse, pcmdWrte, pcmdAuth] ∧
    (h.pcmd = pcmdOpen → h.arg0 ≠ 0)

instance (h : Header) : Decidable h.Supported := by
  unfold Header.Supported
  infer_instance

/-- How `xdbd_process_packet` ends for a packet with the header `h`, when called in `s`. -/
inductive Processed (κ : Prog.Contract Slot) (s : Slot) (h : Header) : Rc → Slot → Prop
  | replied {u : Slot} (assume : κ.assume u) (working : Working s [] u)
      (within : κ.fail ∨ OutWithin (2^17) u) : Processed κ s h .ok u
  | refused {u : Slot} (assume : κ.assume u) (working : Working s [] u)
      (reason : ¬ h.Supported ∨ FailedWithin 5 s u) : Processed κ s h .err u
  | closed {v : Slot} (assume : κ.assume v.closed) (working : Working s [] v)
      (supported : h.Supported) (clse : h.pcmd = pcmdClse) : Processed κ s h .err v.closed

lemma processPcmd_eq (p : Packet) : (∃ entry ∈ pcmds p, entry.1 = p.header.pcmd ∧
    processPcmd p = entry.2) ∨ (∀ entry ∈ pcmds p, entry.1 ≠ p.header.pcmd) ∧
      processPcmd p = pure .err := by
  unfold processPcmd
  cases hfind : (pcmds p).find? fun entry => entry.1 = p.header.pcmd with
  | none =>
    refine .inr ⟨fun entry he hc => ?_, rfl⟩
    simpa [hc] using List.find?_eq_none.mp hfind entry he
  | some entry =>
    exact .inl ⟨entry, List.mem_of_find?_eq_some hfind, by simpa using List.find?_some hfind, rfl⟩

lemma not_supported_of_pcmds {p : Packet} (hnone : ∀ entry ∈ pcmds p, entry.1 ≠ p.header.pcmd) :
    ¬ p.header.Supported := fun hs => by
  have hsub : p.header.pcmd ∈ (pcmds p).map Prod.fst :=
    List.Subset.trans (show _ ⊆ [pcmdSync, pcmdCnxn, pcmdOpen, pcmdOkay, pcmdClse, pcmdWrte,
      pcmdAuth, pcmdStls] by decide) (List.Subset.refl _) hs.2.1
  obtain ⟨entry, hmem, hcmd⟩ := List.mem_map.mp hsub
  exact hnone entry hmem hcmd

lemma FailedWithin.after {k l : ℕ} (h : FailedWithin k t u) {new : List Obs}
    (hnew : t.wire.history = s.wire.history ++ new) (hlen : new.length ≤ l) :
    FailedWithin (l + k) s u := by
  obtain ⟨new', hnew', hlen', n, hn⟩ := h
  refine ⟨new ++ new', ?_, ?_, n, List.mem_append_right _ hn⟩
  · rw [hnew', hnew, List.append_assoc]
  · rw [List.length_append]
    omega

lemma Processed.of_outcome {h : Header} {rc : Rc} (ho : Outcome κ s t rc u) {new : List Obs}
    (hnew : t.wire.history = s.wire.history ++ new) (hlen : new.length ≤ 2) :
    Processed κ s h rc u := by
  cases ho with
  | replied hu hw hn => exact .replied hu hw hn
  | refused hu hw hbad => exact .refused hu hw (.inr (hbad.after hnew hlen))

namespace Serving

lemma processClosePacket_processed (h : Serving κ s t) {hdr : Header} (hs : hdr.Supported)
    (hc : hdr.pcmd = pcmdClse) :
    Prog.Ensures Slot.exec κ (Processed κ s hdr) processClosePacket t := by
  unfold processClosePacket
  refine closeConnection_rule (h.engaged.keep [] t h.working h.assume)
    ((h.usable (.refl t)).imp_right fun hf => ⟨hf.listening, hf.fd⟩) fun hv => ?_
  exact .pure (h.engaged.close t h.working hv) (.closed hv h.working hs hc)

lemma refuse (h : Serving κ s t) {hdr : Header} (hs : ¬ hdr.Supported) :
    Prog.Ensures Slot.exec κ (Processed κ s hdr) (pure .err) t :=
  .pure (h.engaged.keep [] t h.working h.assume) (.refused h.assume h.working (.inl hs))

lemma processPcmd_processed (h : Serving κ s t) {p : Packet}
    (hm : p.header.magic = ~~~p.header.pcmd) {new : List Obs}
    (hnew : t.wire.history = s.wire.history ++ new) (hlen : new.length ≤ 2) :
    Prog.Ensures Slot.exec κ (Processed κ s p.header) (processPcmd p) t := by
  have hout : ∀ {c}, Prog.Ensures Slot.exec κ (Outcome κ s t) c t →
      Prog.Ensures Slot.exec κ (Processed κ s p.header) c t := fun hc =>
    hc.mono fun _ _ ho => .of_outcome ho hnew hlen
  rcases processPcmd_eq p with ⟨entry, hmem, hcmd, heq⟩ | ⟨hnone, heq⟩
  · rw [heq]
    simp only [pcmds, List.mem_cons, List.not_mem_nil, or_false] at hmem
    rcases hmem with rfl | rfl | rfl | rfl | rfl | rfl | rfl | rfl
    · exact h.refuse fun hs => absurd (hcmd ▸ hs.2.1) (by decide)
    · exact hout h.processCnxnPacket_outcome
    · by_cases ha : p.header.arg0 = 0
      · simp only [processOpenPacket, if_pos ha]
        exact h.refuse fun hs => hs.2.2 hcmd.symm ha
      · simp only [processOpenPacket, if_neg ha]
        exact hout h.processShellCmd_outcome
    · exact hout h.processShellCmd_outcome
    · have hsup : p.header.Supported :=
        ⟨hm, hcmd ▸ (by decide), fun ho => absurd (hcmd.trans ho) (by decide)⟩
      exact h.processClosePacket_processed hsup hcmd.symm
    · exact hout h.processWritePacket_outcome
    · exact hout h.processAuthPacket_outcome
    · exact h.refuse fun hs => absurd (hcmd ▸ hs.2.1) (by decide)
  · rw [heq]
    exact h.refuse (not_supported_of_pcmds hnone)

end Serving

theorem processPacket_spec {r : Request} (he : Engaged κ s) (hr : s.conn.data = .request r)
    (hok : ∀ o, r.out = some o → o.Ok) (hf : κ.fail ∨ s.Usable ∧ r.out = none) :
    Prog.Ensures Slot.exec κ (Processed κ s r.p.header) processPacket s := by
  have hw : Working s [] s := .start hr hok
  have hs := he.keep [] s hw he.assume
  unfold processPacket
  refine getRequest_rule hs (hf.imp_right fun hf => ⟨hf.1.alive, r, hr⟩) fun r' _ hr' => ?_
  obtain rfl : r = r' := Data.request.inj (hr.symm.trans hr')
  split_ifs with hmagic
  · exact .pure hs (.refused he.assume hw (.inl fun hsup => hmagic hsup.1))
  · have hm : r.p.header.magic = ~~~r.p.header.pcmd := not_not.mp hmagic
    cases ho : r.out with
    | some o =>
      have hserve : Serving κ s s :=
        ⟨he, hw, he.assume, hf.imp_right fun hf => absurd (ho.symm.trans hf.2) (by simp)⟩
      exact hserve.processPcmd_processed hm (List.append_nil _).symm (Nat.zero_le _)
    | none =>
      -- the first buffer for replies
      refine (createBuf_spec (he.settled hw he.assume) (hf.imp_right fun hf => hf.1.alive)
        (by decide)).andThen fun b t ⟨ht, hb⟩ => ?_
      have hwt := hw.quiet ht.quiet
      cases b with
      | none =>
        refine .pure ht.settled.holds (.refused ht.settled.assume hwt (.inr ?_))
        exact (Allocated.failedWithin ht).mono (by norm_num)
      | some b =>
        obtain ⟨m, rfl⟩ := hb b rfl
        have hrt : t.conn.data = .request r := by rw [ht.quiet.conn]; exact hr
        have hwu := @Working.newOut s t hwt r m 1024 (by norm_num) hrt ho
        refine setRequest_rule _ ht.settled.holds (hf.imp_right fun hf =>
          (hf.1.working hwt).alive) fun _ hu => ?_
        obtain ⟨new, hnew, hlen, -⟩ := ht.few
        have hserve : Serving κ s _ := ⟨he, hwu, hu, hf.imp_right fun hf =>
          ⟨hf.1, _, _, rfl, rfl, le_rfl⟩⟩
        exact hserve.processPcmd_processed hm hnew hlen

end Xdbd

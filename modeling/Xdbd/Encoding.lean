import Xdbd.ReplyRuns
import Xdbd.OnePacket

/-!
# Encoding of replies

The bytes a packet adds to `r->out`: one frame, which the receiving side takes apart again, as long
as the size of `r->out` stays in 32 bits.
-/
namespace Xdbd
open Interaction Code

variable {s t u : Slot} {r : Request} {o : Buf}

/-- A frame that arrives in one result on a connection that waits is dispatched as it is. -/
def RoundTrips (h : Header) (payload : List UInt8) : Prop :=
  ∀ s : Slot, s.Waits → s.wire.recvs = [.bytes (h.bytes ++ payload)] →
    s.Reassembles 1 s.wire.history h payload

lemma Frame.roundTrips {p h : Header} {payload : List UInt8} (hf : Frame p h payload)
    (hfit : headerSize + payload.length ≤ adbMaxPacketSize) : RoundTrips h payload := by
  intro s hw hr
  have hlen : (h.bytes ++ payload).length = headerSize + payload.length := by
    rw [List.length_append, Header.bytes_length]
  have h24 : headerSize = 24 := rfl
  refine (hw.reassembles_iff ⟨[], (List.append_nil _).symm, rfl, rfl⟩ hr ⟨fun k hk => ?_, ?_,
    hf.dlen.symm, hfit⟩ le_rfl).mpr ?_
  · rw [List.mem_singleton.mp hk]
    exact .inr ⟨_, by omega, rfl⟩
  · exact List.append_nil _
  · rw [prompt_bytes, Whole, Nat.zero_add, if_neg (by omega)]
    exact .inl hlen

/-- The request `r` was processed with the code `rc`: one frame was added to `r->out`, or the packet
is not supported and nothing was added. -/
inductive Answers (r : Request) : Rc → Request → Prop
  | replied {r' : Request} {h : Header} {payload : List UInt8} (supported : r.p.header.Supported)
    (frame : Frame r.p.header h payload) (back : RoundTrips h payload)
    (bytes : r'.held = r.held ++ (h.bytes ++ payload)) : Answers r .ok r'
  | refused {r' : Request} (unsupported : ¬ r.p.header.Supported) (bytes : r'.held = r.held) :
    Answers r .err r'

/-! ## Sizes beyond 32 bits -/

/-- The bytes `bs` were added to `o`, or they do not fit into 32 bits with those of `o`. -/
structure PutOrLost (s : Slot) (r : Request) (o : Buf) (bs : List UInt8) (o' : Buf) (t : Slot) :
    Prop where
  conn : t.conn = { s.conn with data := .request { r with out := some o' } }
  allocs : t.AllocsSucceed
  ok : o'.Ok
  live : o'.live = o.live ++ bs ∨ o'.live = o.live ∧ 2^32 ≤ bufSize o + bs.length

lemma bufAppendMem_ended {b : Buf} {src : Src} {len : ℕ} {res : Option Buf} (hb : b.Ok)
    (ha : s.AllocsSucceed) (hrun : Prog.run Slot.exec (bufAppendMem b src len) s = .ok (res, t)) :
    Quiet s t ∧ (∀ b', res = some b' → b'.Ok ∧ b'.live = b.live ++ src.take len) ∧
      (res = none → 2^32 ≤ bufSize b + len) := by
  have happ := (bufAppendMem_spec (κ := calm True) settled_calm hb src len (.inl trivial)).result
    (fun _ _ _ _ _ _ => trivial) hrun trivial
  refine ⟨happ.quiet, fun b' hb' => ⟨happ.ok b' hb', happ.live b' hb'⟩, fun hn => ?_⟩
  by_contra hlt
  exact happ.succeeds ha (by rw [Src.take_length]; omega) hn

lemma put_ended {bs : List UInt8} {res : Option Buf} (hs : s.conn.destroyed = false)
    (hr : s.conn.data = .request r) (ho : r.out = some o) (hok : o.Ok) (ha : s.AllocsSucceed)
    (hq : Quiet s t) (hsome : ∀ o', res = some o' → o'.Ok ∧ o'.live = o.live ++ bs)
    (hnone : res = none → 2^32 ≤ bufSize o + bs.length)
    (hrun : Prog.run Slot.exec (match res with
      | none => return ()
      | some out => do
        setRequest { r with out := some out }
        note (.put bs)) t = .ok ((), u)) : ∃ o', PutOrLost s r o bs o' u := by
  have hat : t.AllocsSucceed := hq.allocsSucceed ha
  cases res with
  | none =>
    cases hrun
    refine ⟨o, ?_, hat, hok, .inr ⟨rfl, hnone rfl⟩⟩
    rw [hq.conn, show ({ r with out := some o } : Request) = r by rw [← ho], ← hr]
  | some o' =>
    obtain ⟨hok', hlive⟩ := hsome o' rfl
    dsimp only at hrun
    rw [Prog.run_bind_of_ok (run_setRequest _ (by rw [hq.conn]; exact hs))] at hrun
    cases hrun
    refine ⟨o', ?_, hat, hok', .inl hlive⟩
    show ({ t.conn with data := _ } : Connection) = _
    rw [hq.conn]

lemma appendOutHeader_ended {h : Header} (hs : s.conn.destroyed = false)
    (hr : s.conn.data = .request r) (ho : r.out = some o) (hok : o.Ok) (ha : s.AllocsSucceed)
    (hrun : Prog.run Slot.exec (appendOutHeader h) s = .ok ((), u)) :
    ∃ o', PutOrLost s r o h.bytes o' u := by
  unfold appendOutHeader at hrun
  rw [Prog.run_bind_of_ok (run_getRequest hs hr), ho] at hrun
  obtain ⟨res, t, happ, hrest⟩ := Prog.run_bind_ok
    (show Prog.run Slot.exec (bufAppendMem o (Src.ofList h.bytes) headerSize >>= _) s = _ from hrun)
  obtain ⟨hq, hsome, hnone⟩ := bufAppendMem_ended hok ha happ
  rw [show (Src.ofList h.bytes).take headerSize = h.bytes from Src.take_ofList h.bytes] at hsome
  exact put_ended hs hr ho hok ha hq hsome hnone hrest

lemma appendOutPayload_ended {payload : Buf} (hs : s.conn.destroyed = false)
    (hr : s.conn.data = .request r) (ho : r.out = some o) (hok : o.Ok) (ha : s.AllocsSucceed)
    (hp : payload.Ok) (hrun : Prog.run Slot.exec (appendOutPayload payload) s = .ok ((), u)) :
    ∃ o', PutOrLost s r o payload.live o' u := by
  have hlen := hp.live_length
  have hsize := hp.sizeT
  unfold appendOutPayload bufAppendBuf at hrun
  rw [Prog.run_bind_of_ok (run_getRequest hs hr), ho] at hrun
  change Prog.run Slot.exec ((note _ >>= fun _ => bufAppendMem o _ _) >>= _) s = _ at hrun
  rw [bind_assoc] at hrun
  set v := s.log (.append payload.pos payload.last (sizeT (bufSize payload)))
  have hlog : Quiet s v := .log s (Obs.quiet_append hp)
  obtain ⟨res, t, happ, hrest⟩ := Prog.run_bind_ok
    (show Prog.run Slot.exec (bufAppendMem o (Src.ofBuf payload) (sizeT (bufSize payload)) >>= _)
      v = _
      from hrun)
  obtain ⟨hq, hsome, hnone⟩ := bufAppendMem_ended hok (s := v) ha happ
  rw [Src.take_live hp hsize] at hsome
  exact put_ended hs hr ho hok ha (hlog.trans hq) hsome (fun hn => by have := hnone hn; omega) hrest

lemma not_framed_of_large {out : Packet} {p : Header} {payload : List UInt8} {rc : Rc}
    (hs : s.conn.destroyed = false) (hr : s.conn.data = .request r) (ho : r.out = some o)
    (hok : o.Ok)
    (ha : s.AllocsSucceed) (hc : Composed out payload) (hf : Frame p out.header payload)
    (hover : 2^32 ≤ bufSize o + (headerSize + payload.length))
    (hrun : Prog.run Slot.exec (appendOut out) s = .ok (rc, u)) {r' : Request}
    (hr' : u.conn.data = .request r') {h' : Header} {payload' : List UInt8}
    (hf' : Frame p h' payload') : r'.held ≠ r.held ++ (h'.bytes ++ payload') := fun hheld => by
  unfold appendOut at hrun
  obtain ⟨_, t, hrun₁, hrest⟩ := Prog.run_bind_ok hrun
  obtain ⟨_, v, hrun₂, hend⟩ := Prog.run_bind_ok hrest
  cases hend
  obtain ⟨o₁, h₁⟩ := appendOutHeader_ended hs hr ho hok ha hrun₁
  have hs₁ : t.conn.destroyed = false := by
    rw [h₁.conn]
    exact hs
  have hdata₁ : t.conn.data = .request { r with out := some o₁ } := by rw [h₁.conn]
  obtain ⟨o₂, h₂⟩ := appendOutPayload_ended hs₁ hdata₁ rfl h₁.ok h₁.allocs hc.ok hrun₂
  have hdata₂ : u.conn.data = .request { r with out := some o₂ } := by rw [h₂.conn]
  obtain rfl := Data.request.inj (hr'.symm.trans hdata₂)
  have hlive : o₂.live = o.live ++ (h'.bytes ++ payload') := by
    have hro : r.held = o.live := by
      rw [Request.held, ho]
      rfl
    rw [← hro, ← hheld]
    rfl
  have hlen := congrArg List.length hlive
  have hbytes' := h'.bytes_length
  have hbytes := out.header.bytes_length
  have hpay := hc.live
  have hl := hok.live_length
  have hl₁ := h₁.ok.live_length
  have hl₂ := h₂.ok.live_length
  have hmax₁ := h₁.ok.bufSize_le
  have hmax₂ := h₂.ok.bufSize_le
  have hcap₁ := h₁.ok.cap
  have hcap₂ := h₂.ok.cap
  have hlive₂ := h₂.live
  rw [hpay] at hlive₂
  rw [List.length_append, List.length_append] at hlen
  rcases h₁.live with hput | ⟨hkept, hbig⟩ <;> rcases hlive₂ with hput₂ | ⟨hkept₂, hbig₂⟩
  · -- both were appended, and the result is too long
    rw [hput₂, hput, List.length_append, List.length_append] at hl₂
    omega
  · -- only the header was appended, and it announces a payload
    rw [hkept₂, hput] at hlive
    have hsame := List.append_cancel_left hlive
    have hnil : payload' = [] := by
      have := congrArg List.length hsame
      rw [List.length_append] at this
      exact List.length_eq_zero_iff.mp (by omega)
    rw [hnil, List.append_nil] at hsame
    have hhdr : out.header = h' := by
      rw [← Header.ofBytes_bytes out.header [], ← Header.ofBytes_bytes h' [], hsame]
    have hd := hf.dlen
    have hd' := hf'.dlen
    rw [hhdr, hd', hnil, List.length_nil] at hd
    rw [hput, List.length_append] at hl₁
    omega
  · -- only the payload was appended, and it is not as long as a header
    rw [hput₂, hkept, List.length_append] at hl₂ hlen
    rw [hbytes] at hbig
    omega
  · rw [hkept₂, hkept] at hlen
    have h24 : headerSize = 24 := rfl
    omega

/-! ## The reply to a packet -/

/-- What `xdbd_process_packet` does for the request `r`: a CLSE packet does not return `XDBD_OK`,
and any other one is answered by one frame or refused. -/
structure Slot.RepliesTo (s : Slot) (r : Request) : Prop where
  close : r.p.header.pcmd = pcmdClse → ∀ rc t, Prog.run Slot.exec processPacket s = .ok (rc, t) →
    rc ≠ .ok
  reply : r.p.header.pcmd ≠ pcmdClse → ∃ rc t r',
    Prog.run Slot.exec processPacket s = .ok (rc, t) ∧ t.conn.data = .request r' ∧ Answers r rc r'

/-- The reply to the packet of `r` keeps the size of `r->out` in 32 bits. -/
def Request.ReplyFits (r : Request) : Prop :=
  r.p.header.Supported → ∀ o, r.out = some o →
    bufSize o + (headerSize + r.p.header.replyPayload.length) < 2^32

lemma processPcmd_clse {p : Packet} {rc : Rc} (hp : p.header.pcmd = pcmdClse)
    (hrun : Prog.run Slot.exec (processPcmd p) s = .ok (rc, t)) : rc ≠ .ok := by
  have hclose : processPcmd p = processClosePacket := by
    unfold processPcmd
    rw [hp]
    rfl
  rw [hclose] at hrun
  unfold processClosePacket at hrun
  obtain ⟨_, u, -, hend⟩ := Prog.run_bind_ok hrun
  cases hend
  decide

lemma Slot.clse_not_ok (hs : s.conn.destroyed = false) (hr : s.conn.data = .request r) {rc : Rc}
    (hp : r.p.header.pcmd = pcmdClse)
    (hrun : Prog.run Slot.exec processPacket s = .ok (rc, t)) : rc ≠ .ok := by
  unfold processPacket at hrun
  rw [Prog.run_bind_of_ok (run_getRequest hs hr)] at hrun
  by_cases hm : r.p.header.magic = ~~~r.p.header.pcmd
  · rw [if_neg (not_not_intro hm)] at hrun
    cases ho : r.out with
    | some o =>
      rw [ho] at hrun
      exact processPcmd_clse hp hrun
    | none =>
      rw [ho] at hrun
      obtain ⟨b, u, -, hrest⟩ := Prog.run_bind_ok hrun
      cases b with
      | none =>
        cases hrest
        decide
      | some b =>
        obtain ⟨_, v, -, hrest'⟩ := Prog.run_bind_ok hrest
        exact processPcmd_clse hp hrest'
  · rw [if_pos hm] at hrun
    cases hrun
    decide

lemma Answers.of_frame {r' : Request} {h : Header} (hsup : r.p.header.Supported)
    (hf : Frame r.p.header h r.p.header.replyPayload)
    (hb : r'.held = r.held ++ (h.bytes ++ r.p.header.replyPayload)) : Answers r .ok r' := by
  refine .replied hsup hf (hf.roundTrips ?_) hb
  have hlen := r.p.header.replyPayload_length
  have h24 : headerSize = 24 := rfl
  norm_num [adbMaxPacketSize]
  omega

lemma Served.answers {x : Except Fault (Rc × Slot)} (h : Served s r x)
    (hs : s.conn.destroyed = false) (hr : s.conn.data = .request r) (ho : r.out = some o)
    (hok : o.Ok)
    (ha : s.AllocsSucceed) (hroom : r.ReplyFits) :
    ∃ rc t r', x = .ok (rc, t) ∧ t.conn.data = .request r' ∧ Answers r rc r' := by
  cases h with
  | refused unsupported => exact ⟨_, _, r, rfl, hr, .refused unsupported rfl⟩
  | starved supported denied spent =>
    obtain ⟨j, -, hd⟩ := denied
    rw [ha.granted] at hd
    cases hd
  | crashed supported dumps granted denied =>
    obtain ⟨j, -, hd⟩ := denied
    rw [ha.granted] at hd
    cases hd
  | @replied out k t supported granted dumped frame composed spent =>
    obtain ⟨o', u, hrun, hput⟩ := composed.appendOut hs hr ho hok
      ⟨by exact_mod_cast hroom supported o ho, .inr ha⟩ spent
    refine ⟨_, _, { r with out := some o' }, hrun, by rw [hput.conn], .of_frame supported frame ?_⟩
    have hheld : r.held = o.live := by
      rw [Request.held, ho]
      rfl
    rw [hheld]
    exact hput.grown.live

lemma Slot.fits_of_repliesTo (hs : s.conn.destroyed = false) (ha : s.AllocsSucceed)
    (hr : s.conn.data = .request r) (hok : ∀ o, r.out = some o → o.Ok)
    (hclse : r.p.header.pcmd ≠ pcmdClse) (h : s.RepliesTo r) : r.ReplyFits := by
  intro hsup o ho
  by_contra hover
  obtain ⟨rc, t, r', hrun, hr', hans⟩ := h.reply hclse
  have hanswered := answered_processPacket hs hr hclse
  rw [hrun] at hanswered
  cases hans with
  | refused unsupported => exact unsupported hsup
  | @replied _ h' payload' supported frame back bytes =>
    cases hanswered with
    | created out =>
      rw [ho] at out
      cases out
    | reused out served =>
      generalize hx : (Except.ok (Rc.ok, t) : Except Fault (Rc × Slot)) = x at served
      cases served with
      | refused unsupported => exact unsupported hsup
      | starved => cases hx
      | crashed => cases hx
      | @replied out k u supported granted dumped frame' composed spent =>
        exact not_framed_of_large (spent.alive hs) (by rw [spent.conn, hr]) ho (hok o ho)
          (spent.allocsSucceed ha) composed frame' (by omega) hx.symm hr' frame bytes

/-- With memory for every allocation, a packet is answered by one frame that decodes to itself, or
refused, exactly if the size of `r->out` stays in 32 bits. -/
theorem Slot.reply_encoded_iff (hs : s.conn.destroyed = false) (ha : s.AllocsSucceed)
    (hr : s.conn.data = .request r) (hok : ∀ o, r.out = some o → o.Ok) :
    s.RepliesTo r ↔ (r.p.header.pcmd ≠ pcmdClse → r.ReplyFits) := by
  refine ⟨fun h hclse => Slot.fits_of_repliesTo hs ha hr hok hclse h, fun hfits =>
    ⟨fun hclse rc t hrun => Slot.clse_not_ok hs hr hclse hrun, fun hclse => ?_⟩⟩
  have h := answered_processPacket hs hr hclse
  generalize Prog.run Slot.exec processPacket s = x at h ⊢
  cases h with
  | invalid magic => exact ⟨_, _, r, rfl, hr, .refused (fun hsup => magic hsup.1) rfl⟩
  | noBuffer magic out denied spent =>
    obtain ⟨j, -, hd⟩ := denied
    rw [ha.granted] at hd
    cases hd
  | reused out served => exact served.answers hs hr out (hok _ out) ha (hfits hclse)
  | @created t u m x out granted spent set served =>
    have hsame : ({ r with out := some ⟨m, 1024, 0, 0⟩ } : Request).ReplyFits := fun _ o ho => by
      obtain rfl := Option.some.inj ho
      exact_mod_cast (s.room_new m r.p.header).1
    obtain ⟨rc, v, r', hx, hr', hans⟩ := served.answers (by rw [set]; exact spent.alive hs)
      (by rw [set]) rfl (Buf.ok_of_new (by norm_num)) (by
        rw [set]
        exact spent.allocsSucceed ha) hsame
    refine ⟨rc, v, r', hx, hr', ?_⟩
    have hheld : r.held = [] := by
      rw [Request.held, out]
      rfl
    cases hans with
    | replied supported frame back bytes =>
      exact .replied supported frame back (by rw [hheld]; exact bytes)
    | refused unsupported bytes => exact .refused unsupported (by rw [hheld]; exact bytes)

/-- An OKAY packet on a connection whose `r->out` is `out`. -/
def okayRequest (out : Option Buf) : Request :=
  ⟨Header.zero, ⟨{ Header.zero with pcmd := pcmdOkay, magic := ~~~pcmdOkay },
    ⟨fun _ => 0, 0, 0, 0⟩⟩,
    out⟩

def servingSlot (r : Request) : Slot :=
  ⟨{ Connection.zero 5 with data := .request r }, Event.zero, Event.zero, Wire.fresh⟩

lemma servingSlot_allocsSucceed (r : Request) : (servingSlot r).AllocsSucceed := fun _ hm =>
  absurd hm List.not_mem_nil

theorem Slot.reply_encoded_iff_first :
    (servingSlot (okayRequest none)).RepliesTo (okayRequest none) :=
  (Slot.reply_encoded_iff (s := servingSlot (okayRequest none)) rfl (servingSlot_allocsSucceed _)
    rfl
    (fun _ ho => by cases ho)).mpr fun _ _ _ ho => by cases ho

/-- A reply to a connection for which `2^32 - 1` bytes are still to be sent is lost. -/
theorem Slot.reply_lost : ¬ ∀ (s : Slot) (r : Request), s.conn.destroyed = false → s.AllocsSucceed →
    s.conn.data = .request r → (∀ o, r.out = some o → o.Ok) → s.RepliesTo r := fun h => by
  have hok : (⟨fun _ => 0, 2^32 - 1, 0, 2^32 - 1⟩ : Buf).Ok := by
    constructor <;> norm_num
  have hokay : ∀ o, (okayRequest (some ⟨fun _ => 0, 2^32 - 1, 0, 2^32 - 1⟩)).out = some o → o.Ok :=
    fun o ho => by
      obtain rfl := Option.some.inj ho
      exact hok
  have hfits := Slot.fits_of_repliesTo (s := servingSlot _) rfl (servingSlot_allocsSucceed _) rfl
    hokay
    (by decide) (h (servingSlot _) _ rfl (servingSlot_allocsSucceed _) rfl hokay)
    (by decide) _ rfl
  revert hfits
  decide

end Xdbd

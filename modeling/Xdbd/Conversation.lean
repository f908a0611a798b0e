import Xdbd.Dialogue
import Xdbd.Outbound
import Xdbd.Encoding
import Xdbd.Sessions

/-!
# The conversation on a connection

The packets dispatched on a connection and the frames handed to `send`. Whatever the kernel and
the pools answer, each packet is answered by one frame, complete and handed over at once, before
the next packet is dispatched. A packet that gets no answer is the last one.
-/
namespace Xdbd
open Interaction Code Dialogue World

variable {boot : Boot} {s t u : Slot} {r : Request} {out : Packet} {bs : List UInt8}

/-! ## The reply to a packet -/

/-- The command of the reply to a packet with the header `h`, and its two arguments. -/
def Header.replyCommand (h : Header) : UInt32 × UInt32 × UInt32 :=
  if h.pcmd = pcmdCnxn then (pcmdAuth, adbAuthToken, 0)
  else if h.pcmd = pcmdAuth then (pcmdCnxn, adbVersion, UInt32.ofNat adbMaxPacketSize)
  else if h.pcmd = pcmdWrte then (pcmdWrte, 1, h.arg0)
  else (pcmdOkay, 1, h.arg0)

def Header.filled (c : UInt32 × UInt32 × UInt32) (n : ℕ) : Header :=
  ⟨c.1, c.2.1, c.2.2, UInt32.ofNat n, 0, ~~~c.1⟩

/-- The frame that answers a packet with the header `h`. -/
def Header.reply (h : Header) : List UInt8 :=
  (Header.filled h.replyCommand h.replyPayload.length).bytes ++ h.replyPayload

lemma Header.reply_ne_nil (h : Header) : h.reply ≠ [] := by
  intro hn
  have := congrArg List.length hn
  rw [Header.reply, List.length_append, Header.bytes_length, List.length_nil, headerSize] at this
  omega

/-- The packet `out` is the reply to the packet of `r`. -/
structure IsReply (r : Request) (out : Packet) : Prop where
  header : out.header = .filled r.p.header.replyCommand r.p.header.replyPayload.length
  payload : Composed out r.p.header.replyPayload

lemma Composed.reply {c : UInt32 × UInt32 × UInt32} (hc : Composed out bs)
    (hlen : bs.length < 2^32)
    (hout : out.header.pcmd = c.1 ∧ out.header.arg0 = c.2.1 ∧ out.header.arg1 = c.2.2)
    (hr : r.p.header.replyCommand = c ∧ r.p.header.replyPayload = bs) :
    IsReply r (fillPacket out) := by
  obtain ⟨rfl, rfl⟩ := hr
  refine ⟨?_, ⟨hc.ok, hc.live, hc.cap, hc.last⟩⟩
  have hunsigned := hc.ok.unsigned
  rw [hc.bufSize] at hunsigned
  have hsize : unsigned (Xdbd.bufSize out.payload) = r.p.header.replyPayload.length := by
    rw [hc.bufSize]
    omega
  simp only [fillPacket, Header.filled, hsize, hout.1, hout.2.1, hout.2.2]

/-- What is left of the handler is the append of the reply. -/
def Replying (s : Slot) (r : Request) (u : Slot) : Prop :=
  ∃ out k t, IsReply r out ∧ Spent k s t ∧ Prog.run Slot.exec (appendOut out) t = .ok (.ok, u)

lemma allocPacket_ok {f : Option Packet → Code Rc} (hs : s.conn.destroyed = false)
    (hnone : f none = pure .err)
    (hrun : Prog.run Slot.exec (allocPacket >>= f) s = .ok (.ok, u)) :
    ∃ out t, Spent 3 s t ∧ Composed out [] ∧
    Prog.run Slot.exec (f (some out)) t = .ok (.ok, u) := by
  obtain ⟨p, t, hp, hobtained⟩ := allocPacket_obtained hs
  rw [Prog.run_bind_of_ok hp] at hrun
  cases hobtained with
  | denied refused spent =>
    rw [hnone] at hrun
    cases hrun
  | given granted spent result => exact ⟨_, t, spent, composed_new result, hrun⟩

lemma dumped_ok {k : ℕ} (hs : s.conn.destroyed = false) (ht : Spent k s t) (hr : IsReply r out)
    (hrun : Prog.run Slot.exec (dumpAdbPacket out >>= fun _ => appendOut out) t = .ok (.ok, u)) :
    Replying s r u := by
  have hsize := hr.payload.bufSize
  have hlen := r.p.header.replyPayload_length
  rcases run_dumpAdbPacket (ht.alive hs) hr.payload.ok (by omega) with
    ⟨v, hv, hspent, -⟩ | ⟨hv, -⟩
  · rw [Prog.run_bind_of_ok hv] at hrun
    exact ⟨out, _, v, hr, ht.trans hspent, hrun⟩
  · rw [Prog.run_bind_of_error hv] at hrun
    cases hrun

lemma processCnxnPacket_ok (h : Begun s r) (hp : r.p.header.pcmd = pcmdCnxn)
    (hrun : Prog.run Slot.exec processCnxnPacket s = .ok (.ok, u)) : Replying s r u := by
  obtain ⟨out, t, ht, hc, hrun⟩ := allocPacket_ok h.alive rfl hrun
  obtain ⟨payload, -, happ, hc'⟩ := run_appendPayload authToken (ht.alive h.alive)
    (hc.header { out.header with pcmd := pcmdAuth, arg0 := adbAuthToken, arg1 := 0 })
    (by decide)
  dsimp only at hrun
  rw [Prog.run_bind_of_ok happ] at hrun
  refine dumped_ok h.alive ht (hc'.reply (c := (pcmdAuth, adbAuthToken, 0)) (by decide)
    ⟨rfl, rfl, rfl⟩ ⟨?_, ?_⟩) hrun
  · simp [Header.replyCommand, hp]
  · simp [Header.replyPayload, hp]

lemma processAuthPacket_ok (h : Begun s r) (hp : r.p.header.pcmd = pcmdAuth)
    (hrun : Prog.run Slot.exec processAuthPacket s = .ok (.ok, u)) : Replying s r u := by
  have hne : ¬ pcmdAuth = pcmdCnxn := by decide
  have hreply : r.p.header.replyPayload = cnxnStrings.flatten := by
    simp [Header.replyPayload, hp, hne]
  have hlen := hreply ▸ r.p.header.replyPayload_length
  obtain ⟨out, t, ht, hc, hrun⟩ := allocPacket_ok h.alive rfl hrun
  obtain ⟨payload, happ, hc'⟩ := run_appendAll (ht.alive h.alive) cnxnStrings
    (hc.header { out.header with
      pcmd := pcmdCnxn, arg0 := adbVersion, arg1 := UInt32.ofNat adbMaxPacketSize })
    (by rw [List.length_nil]; omega)
  dsimp only at hrun
  rw [Prog.run_bind_of_ok happ] at hrun
  refine ⟨_, _, t, hc'.reply (c := (pcmdCnxn, adbVersion, UInt32.ofNat adbMaxPacketSize))
    (by rw [List.nil_append]; omega) ⟨rfl, rfl, rfl⟩ ⟨?_, ?_⟩, ht, hrun⟩
  · simp [Header.replyCommand, hp, hne]
  · rw [hreply, List.nil_append]

lemma processShellCmd_ok (h : Begun s r) (hp : r.p.header.pcmd ∈ [pcmdOpen, pcmdOkay])
    (hrun : Prog.run Slot.exec processShellCmd s = .ok (.ok, u)) : Replying s r u := by
  obtain ⟨out, t, ht, hc, hrun⟩ := allocPacket_ok h.alive rfl hrun
  have hb := h.next ht
  dsimp only at hrun
  unfold okeyPacket at hrun
  rw [bind_assoc, Prog.run_bind_of_ok (run_getRequest hb.alive hb.data), bind_assoc] at hrun
  refine dumped_ok h.alive ht ((hc.header { out.header with
    pcmd := pcmdOkay, arg0 := 1, arg1 := r.p.header.arg0 }).reply
      (c := (pcmdOkay, 1, r.p.header.arg0)) (by decide) ⟨rfl, rfl, rfl⟩ ⟨?_, ?_⟩) hrun
  · rcases List.mem_pair.mp hp with hp | hp <;> unfold Header.replyCommand <;> rw [hp] <;> rfl
  · rcases List.mem_pair.mp hp with hp | hp <;> unfold Header.replyPayload <;> rw [hp] <;> rfl

lemma processWritePacket_ok (h : Begun s r) (hp : r.p.header.pcmd = pcmdWrte)
    (hrun : Prog.run Slot.exec processWritePacket s = .ok (.ok, u)) : Replying s r u := by
  obtain ⟨out, t, ht, hc, hrun⟩ := allocPacket_ok h.alive rfl hrun
  have hb := h.next ht
  obtain ⟨payload, happ, -, hc'⟩ := run_appendPayload writeData hb.alive
    (hc.header { out.header with
    pcmd := pcmdWrte, arg0 := 1, arg1 := r.p.header.arg0 }) (by decide)
  dsimp only at hrun
  unfold writePacket at hrun
  rw [bind_assoc, Prog.run_bind_of_ok (run_getRequest hb.alive hb.data), bind_assoc,
    Prog.run_bind_of_ok happ] at hrun
  dsimp only at hrun
  rw [bind_assoc] at hrun
  refine dumped_ok h.alive ht (hc'.reply (c := (pcmdWrte, 1, r.p.header.arg0)) (by decide)
    ⟨rfl, rfl, rfl⟩ ⟨?_, ?_⟩) hrun
  · unfold Header.replyCommand
    rw [hp]
    rfl
  · unfold Header.replyPayload
    rw [hp]
    rfl

lemma processPcmd_ok (hs : s.conn.destroyed = false) (hr : s.conn.data = .request r)
    (hm : r.p.header.magic = ~~~r.p.header.pcmd)
    (hrun : Prog.run Slot.exec (processPcmd r.p) s = .ok (.ok, u)) :
    r.p.header.Supported ∧ r.p.header.pcmd ≠ pcmdClse ∧ Replying s r u := by
  have hbegun : r.p.header.Supported → Begun s r := fun hsup => ⟨hs, hr, hsup⟩
  have hclse : r.p.header.pcmd ≠ pcmdClse := fun hc => processPcmd_clse hc hrun rfl
  rcases processPcmd_eq r.p with ⟨entry, hmem, hcmd, heq⟩ | ⟨-, heq⟩
  · rw [heq] at hrun
    simp only [pcmds, List.mem_cons, List.not_mem_nil, or_false] at hmem
    rcases hmem with rfl | rfl | rfl | rfl | rfl | rfl | rfl | rfl
    · cases hrun
    · have hsup := Header.supported_of hm hcmd.symm (by decide)
      exact ⟨hsup, hclse, processCnxnPacket_ok (hbegun hsup) hcmd.symm hrun⟩
    · have hp : r.p.header.pcmd = pcmdOpen := hcmd.symm
      by_cases ha : r.p.header.arg0 = 0
      · simp only [processOpenPacket, if_pos ha] at hrun
        cases hrun
      · simp only [processOpenPacket, if_neg ha] at hrun
        have hsup : r.p.header.Supported := ⟨hm, by rw [hp]; decide, fun _ => ha⟩
        exact ⟨hsup, hclse, processShellCmd_ok (hbegun hsup) (by rw [hp]; decide) hrun⟩
    · have hp : r.p.header.pcmd = pcmdOkay := hcmd.symm
      have hsup := Header.supported_of hm hp (by decide)
      exact ⟨hsup, hclse, processShellCmd_ok (hbegun hsup) (by rw [hp]; decide) hrun⟩
    · exact absurd hcmd.symm hclse
    · have hsup := Header.supported_of hm hcmd.symm (by decide)
      exact ⟨hsup, hclse, processWritePacket_ok (hbegun hsup) hcmd.symm hrun⟩
    · have hsup := Header.supported_of hm hcmd.symm (by decide)
      exact ⟨hsup, hclse, processAuthPacket_ok (hbegun hsup) hcmd.symm hrun⟩
    · cases hrun
  · rw [heq] at hrun
    cases hrun

/-- `xdbd_process_packet` for a new request: where it returns `XDBD_OK`, the whole reply is in
`r->out`, also if allocations failed. -/
theorem processPacket_replied (hs : s.conn.destroyed = false) (hr : s.conn.data = .request r)
    (hout : r.out = none) (hrun : Prog.run Slot.exec processPacket s = .ok (.ok, u)) :
    r.p.header.Supported ∧ r.p.header.pcmd ≠ pcmdClse ∧ u.held = r.p.header.reply := by
  unfold processPacket at hrun
  rw [Prog.run_bind_of_ok (run_getRequest hs hr)] at hrun
  split_ifs at hrun with hmagic
  · cases hrun
  · have hm : r.p.header.magic = ~~~r.p.header.pcmd := not_not.mp hmagic
    rw [hout] at hrun
    obtain ⟨b, t, hcreate, hb⟩ := @createBuf_obtained s hs 1024 (by decide)
    rw [Prog.run_bind_of_ok hcreate] at hrun
    cases hb with
    | denied refused spent => cases hrun
    | given granted spent result =>
      obtain ⟨m, rfl⟩ := result
      dsimp only at hrun
      rw [Prog.run_bind_of_ok (run_setRequest _ (spent.alive hs))] at hrun
      set v : Slot := { t with conn := { t.conn with
        data := .request { r with out := some ⟨m, 1024, 0, 0⟩ } } }
      have hv : v.conn.destroyed = false := spent.alive hs
      obtain ⟨hsup, hclse, out, k, x, hreply, hx, happ⟩ := processPcmd_ok hv
        (r := { r with out := some ⟨m, 1024, 0, 0⟩ }) rfl hm hrun
      obtain ⟨o, y, happ', hput⟩ := hreply.payload.appendOut hv rfl rfl
        (Buf.ok_of_new (by norm_num)) (v.room_new m r.p.header) hx
      obtain ⟨-, rfl⟩ := Prod.mk.inj (Except.ok.inj (happ.symm.trans happ'))
      refine ⟨hsup, hclse, ?_⟩
      rw [Slot.held_request (show u.conn.data = .request _ by rw [hput.conn])]
      show o.live = _
      rw [hput.grown.live, hreply.header]
      rfl

/-! ## The conversation -/

def Obs.turn : Obs → Option (Turn (Header × List UInt8) (List UInt8))
  | .dispatch h payload => some (.ask (h, payload))
  | .send bs _ => some (.reply bs)
  | _ => none

/-- The packets dispatched and the frames handed to `send`. -/
def conversation (h : List Obs) : List (Turn (Header × List UInt8) (List UInt8)) :=
  h.filterMap Obs.turn

lemma conversation_append (h h' : List Obs) :
    conversation (h ++ h') = conversation h ++ conversation h' := List.filterMap_append

lemma questions_conversation (h : List Obs) : questions (conversation h) = dispatches h := by
  unfold questions conversation dispatches
  rw [List.filterMap_filterMap]
  congr 1
  funext o
  cases o <;> rfl

lemma conversation_incoming {h : List Obs} (hin : ∀ o ∈ h, o.Incoming) : conversation h = [] := by
  refine List.filterMap_eq_nil_iff.mpr fun o ho => ?_
  have := hin o ho
  cases o with
  | dispatch | send => exact this.elim
  | _ => rfl

lemma conversation_inner {h : List Obs} (hin : ∀ o ∈ h, o.Inner) : conversation h = [] := by
  refine List.filterMap_eq_nil_iff.mpr fun o ho => ?_
  rcases hin o ho with hq | ⟨bs, rfl⟩
  · cases o with
    | dispatch | send => exact hq.elim
    | _ => rfl
  · rfl

/-- The frame `bs` answers the packet `q`. -/
def Replies (q : Header × List UInt8) (bs : List UInt8) : Prop :=
  q.1.Supported ∧ q.1.pcmd ≠ pcmdClse ∧ bs = q.1.reply

/-- The last packet was not answered: it has no handler, it is a CLSE packet, or one of the five
allocations for its reply failed. -/
def Unanswered (h : List Obs) : Prop :=
  ∃ pre hdr payload post, h = pre ++ .dispatch hdr payload :: post ∧ conversation post = [] ∧
    (¬ hdr.Supported ∨ hdr.pcmd = pcmdClse ∨ ∃ n, Obs.alloc n false ∈ post.take 5)

abbrev Slot.talk (s : Slot) : List (Turn (Header × List UInt8) (List UInt8)) :=
  conversation s.wire.history

/-- Between the calls of the handlers: every packet is answered, or the connection is closed or
blocked. -/
structure Conversing (s : Slot) : Prop where
  orderly : Orderly Replies s.talk
  complete : s.conn.destroyed = false → s.read.handler ≠ some (.adb .adbBlockReading) →
    Complete Replies s.talk
  reason : Complete Replies s.talk ∨ Unanswered s.wire.history
  staged : Staged s

/-- Nothing is assumed, and the conversation is orderly all along. -/
def talking : Prog.Contract Slot := ⟨fun _ => True, fun s => Orderly Replies s.talk, True⟩

lemma Receiving.talk (h : Receiving s t) : t.talk = s.talk := by
  obtain ⟨new, hnew, hin⟩ := h.history
  rw [Slot.talk, hnew, conversation_append, conversation_incoming hin, List.append_nil]

lemma Working.talk {e : List UInt8} (h : Working s e t) : t.talk = s.talk := by
  obtain ⟨new, hnew, hin, -⟩ := h.held
  rw [Slot.talk, hnew, conversation_append, conversation_inner hin, List.append_nil]

lemma Slot.talk_dispatching (s : Slot) (r : Request) : (s.dispatching r).talk =
    s.talk ++ [.ask (r.p.header, r.p.payload.live)] := conversation_append _ _

lemma conversing_waiting (h : Complete Replies s.talk) :
    Conversing (s.handledBy .adbWaitApacketHandler) :=
  ⟨.complete h, fun _ _ => h, .inl h, staged_waiting s⟩

lemma conversing_refused (h : Complete Replies s.talk)
    (hw : Working (s.dispatching r) [] u) (hstop : t.conn.destroyed = true ∨
      t.read.handler = some (.adb .adbBlockReading)) (hhist : t.wire.history = u.wire.history)
    (hst : Staged t) (hreason : ¬ r.p.header.Supported ∨ r.p.header.pcmd = pcmdClse ∨
      FailedWithin 5 (s.dispatching r) u) : Conversing t := by
  have htalk : t.talk = s.talk ++ [.ask (r.p.header, r.p.payload.live)] := by
    rw [← s.talk_dispatching r, ← hw.talk, Slot.talk, hhist]
  obtain ⟨new, hnew, hin, -⟩ := hw.held
  refine ⟨?_, fun ha hh => ?_, .inr ⟨s.wire.history, r.p.header, r.p.payload.live, new, ?_,
    conversation_inner hin, hreason.imp_right (Or.imp_right fun hf => ?_)⟩, hst⟩
  · rw [htalk]
    exact .pending h _
  · rcases hstop with hd | hb
    · rw [ha] at hd
      cases hd
    · exact absurd hb hh
  · rw [hhist, hnew]
    exact List.append_assoc _ [_] new
  · obtain ⟨new', hnew', hlen, n, hn⟩ := hf
    obtain rfl := List.append_cancel_left (hnew'.symm.trans hnew)
    exact ⟨n, by rwa [List.take_of_length_le hlen]⟩

lemma sendReply_held {κ : Prog.Contract Slot} {Q : Slot → Prop} (hw : Working s bs u)
    (hne : u.held ≠ []) (hk : κ.keep u) (hsent : κ.keep (u.sentOut u.held))
    (hwait : κ.keep ((u.sentOut u.held).handledBy .adbWaitApacketHandler)) (hf : κ.fail ∨ u.Usable)
    (hq : Q ((u.sentOut u.held).handledBy .adbWaitApacketHandler)) :
    Prog.Ensures Slot.exec κ (fun _ => Q) (sendReply .ok) u := by
  refine getRequest_rule hk (hf.imp_right fun hf => ⟨hf.alive, hw.data⟩) fun r' _ hr' => ?_
  have hheld : ∀ o, r'.out = some o → u.held = o.live := fun o ho => by
    rw [Slot.held_request hr', Request.held, ho]
    rfl
  refine deref_rule hk (.inr fun hn => hne ?_) fun o ho => ?_
  · rw [Slot.held_request hr', Request.held, hn]
    rfl
  have hok := hw.out_ok hr' ho
  have hlen := hok.live_length
  split_ifs with hsize
  · refine absurd ?_ hne
    rw [hheld o ho]
    exact List.length_eq_zero_iff.mp (by omega)
  · rw [Src.take_live hok hok.sizeT, ← hheld o ho]
    refine send_rule _ hk (hf.imp_right fun hf => ⟨hf.alive, hf.unixIo⟩) fun _ _ => ?_
    exact .of_bind_pure (setHandler_rule _ hsent fun _ => .pure hwait hq)

lemma sendReply_conversing (h : Complete Replies s.talk) (hw : Working (s.dispatching r) [] u)
    (hq : Replies (r.p.header, r.p.payload.live) u.held) (hne : u.held ≠ []) :
    Prog.Ensures Slot.exec talking (fun _ => Conversing) (sendReply .ok) u := by
  have hpending : Orderly Replies u.talk := by
    rw [hw.talk, Slot.talk_dispatching]
    exact .pending h _
  have hsent : Complete Replies (u.sentOut u.held).talk := by
    have htalk : (u.sentOut u.held).talk =
        s.talk ++ [.ask (r.p.header, r.p.payload.live), .reply u.held] := by
      rw [show (u.sentOut u.held).talk = u.talk ++ [.reply u.held] from conversation_append _ _,
        hw.talk, Slot.talk_dispatching, List.append_assoc]
      rfl
    rw [htalk]
    exact h.exchange hq
  exact sendReply_held hw hne hpending (.complete hsent) (.complete hsent) (.inl trivial)
    (conversing_waiting hsent)

lemma alive_of_processPacket {rc : Rc} (hrun : Prog.run Slot.exec processPacket s = .ok (rc, u)) :
    s.conn.destroyed = false := by
  unfold processPacket at hrun
  obtain ⟨r, t, hget, -⟩ := Prog.run_bind_ok hrun
  have hexec : SlotOp.exec .getRequest s = .ok (r, t) :=
    (Prog.run_ask Slot.exec (.slot .getRequest) s).symm.trans hget
  exact SlotOp.exec_alive .getRequest hexec trivial

lemma dispatchPayload_conversing (h : Complete Replies s.talk) (hn : NoReply s) :
    Prog.Ensures Slot.exec talking (fun _ => Conversing) dispatchPayload s := by
  have hs : Orderly Replies s.talk := .complete h
  unfold dispatchPayload
  refine setHandler_rule _ hs fun _ => ?_
  refine getRequest_rule hs (.inl trivial) fun r _ hr => ?_
  refine note_rule _ hs fun _ => ?_
  have hdata : (s.dispatching r).conn.data = .request r := hr
  have hout : r.out = none := hn r hr
  have hpending : Orderly Replies (s.dispatching r).talk := by
    rw [Slot.talk_dispatching]
    exact .pending h _
  have hengaged : Engaged talking (s.dispatching r) :=
    ⟨trivial, fun e u hw _ => show Orderly Replies u.talk by rw [hw.talk]; exact hpending,
      fun u hw _ => show Orderly Replies u.talk by rw [hw.talk]; exact hpending⟩
  refine (processPacket_spec hengaged hdata (fun o ho => absurd (hout.symm.trans ho) (by simp))
    (.inl trivial)).with_run.andThen fun rc u ⟨hu, hrun⟩ => ?_
  cases hu with
  | replied _ hw _ =>
    obtain ⟨hsup, hclse, hheld⟩ := processPacket_replied (alive_of_processPacket hrun) hdata hout
      hrun
    exact sendReply_conversing h hw ⟨hsup, hclse, hheld⟩
      (by rw [hheld]; exact Header.reply_ne_nil _)
  | refused _ hw hreason =>
    have hblock : u.read.handler = some (.adb .adbBlockReading) := by
      rw [hw.same]
      rfl
    refine .pure (hengaged.keep [] u hw trivial) (conversing_refused h hw (.inr hblock) rfl ?_
      (hreason.imp_right .inr))
    rintro (hc | hc) <;> rw [hblock] at hc <;> cases hc
  | closed _ hw _ hclse =>
    exact .pure (hengaged.close _ hw trivial) (conversing_refused h hw (.inl rfl) rfl
      (fun _ r hr => by cases hr) (.inr (.inl hclse)))

lemma attends_conversing (hs : Complete Replies s.talk) (hst : Staged s) :
    Attends talking s Conversing where
  fail := trivial
  keep t ht _ := show Orderly Replies t.talk by
    rw [ht.talk]
    exact .complete hs
  rest t ht _ := by
    have htalk : Complete Replies t.talk := by
      rw [ht.talk]
      exact hs
    exact ⟨.complete htalk, fun _ _ => htalk, .inl htalk, ht.staged hst⟩
  dispatch t ht hn _ := dispatchPayload_conversing (by rw [ht.talk]; exact hs) hn

lemma blockReading_conversing (h : Conversing s) :
    Prog.Ensures Slot.exec talking (fun _ => Conversing) adbBlockReading s := by
  unfold adbBlockReading
  refine readEvent_rule h.orderly ?_
  split_ifs
  · have hdel : Conversing s.delRead.2 := by
      unfold Slot.delRead
      split_ifs
      · exact h
      · exact ⟨h.orderly, h.complete, h.reason, h.staged⟩
    exact delReadEvent_rule h.orderly fun _ => .pure hdel.orderly hdel
  · exact .pure h.orderly h

theorem conversing_invariant :
    PeerInvariant (fun _ => True) Conversing fun s => Orderly Replies s.talk where
  closed _ _ := trivial
  accepted s ls p q k :=
    ⟨.complete .nil, fun _ _ => .nil, .inl .nil, by rintro (hc | hc) <;> cases hc⟩
  feed _ hs := ⟨hs.orderly, hs.complete, hs.reason, hs.staged⟩
  flags _ _ hs := ⟨hs.orderly, hs.complete, hs.reason, hs.staged⟩
  keep hs := hs.orderly
  run {s hd} _ hs hopen hhd _ := by
    by_cases hb : hd = .adbBlockReading
    · subst hb
      exact blockReading_conversing hs
    · have hatt := attends_conversing (hs.complete hopen.alive (by rw [hhd]; simpa using hb))
        hs.staged
      cases hd with
      | adbWaitApacketHandler => exact hatt.waitApacketHandler (.refl s) trivial
      | adbProcessAdbHeader => exact hatt.processAdbHeader (.refl s) (hs.staged (.inl hhd)) trivial
      | adbProcessAdbPayload =>
        exact hatt.processAdbPayload (.refl s) (hs.staged (.inr hhd)) trivial
      | adbBlockReading => exact absurd rfl hb
      | adbEmptyHandler => exact .pure hs.orderly hs

/-- In every state of a run, also inside the handlers, the packets dispatched on a connection and
the frames handed to `send` for them alternate: each frame is the whole reply to the packet before
it, and of the packets only the last may be without one. -/
theorem Moment.conversation_orderly {v : World} (h : Moment boot v) {i : ℕ} (hp : v.Peer i) :
    Orderly Replies (conversation (v.slots i).wire.history) :=
  conversing_invariant.moment h i hp trivial

theorem Moment.conversation_orderly_okeyed :
    Orderly Replies (conversation (okeyed.slots 1).wire.history) :=
  @Moment.conversation_orderly (.single 2 3) okeyed (.top run_okeyed) 1
    ⟨by decide, by decide, by decide⟩

/-- A packet without a reply, at the top of the loop: there was a reason, and the connection is
closed or blocked for good. -/
theorem Run.unanswered {w : World} (h : Run boot w) {i : ℕ} (hp : w.Peer i)
    (hc : ¬ Complete Replies (conversation (w.slots i).wire.history)) :
    Unanswered (w.slots i).wire.history ∧
      ((w.slots i).conn.destroyed = true ∨
        (w.slots i).read.handler = some (.adb .adbBlockReading)) := by
  have hr := conversing_invariant.rest h i hp trivial
  refine ⟨hr.reason.resolve_left hc, ?_⟩
  by_contra hn
  obtain ⟨hd, hh⟩ := not_or.mp hn
  exact hc (hr.complete (Bool.eq_false_iff.mpr hd) hh)

theorem Run.unanswered_refused : Unanswered (refused.slots 1).wire.history ∧
    ((refused.slots 1).conn.destroyed = true ∨
      (refused.slots 1).read.handler = some (.adb .adbBlockReading)) :=
  Run.unanswered run_refused ⟨by decide, by decide, by decide⟩ fun hc =>
    absurd hc.forall₂.length_eq (by decide)

/-- The frames handed to `send` are the replies to the packets dispatched, in their order: to all of
them, or to all but the last. -/
theorem Moment.replies_in_order {v : World} (h : Moment boot v) {i : ℕ} (hp : v.Peer i) :
    ∃ answered, replies (conversation (v.slots i).wire.history) =
        answered.map (fun q => q.1.reply) ∧
      (questions (conversation (v.slots i).wire.history) = answered ∨
        ∃ q, questions (conversation (v.slots i).wire.history) = answered ++ [q]) :=
  (conversing_invariant.moment h i hp trivial).replies_eq fun _ _ hq => hq.2.2

end Xdbd

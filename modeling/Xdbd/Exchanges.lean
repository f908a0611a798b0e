import Xdbd.Conversation
import Xdbd.OnePacket

/-!
# Exchanges

A client that sends its packets one at a time. Each arrives in parts, as long as the header is
completed by the part that completes the packet or by the one before it, and then it is answered:
the reply is handed to `send` as a whole and the connection waits for the next packet, whatever
the other clients do.
-/
namespace Xdbd
open Interaction Code Dialogue Components World

variable {boot : Boot} {s t u : Slot} {hdr : Header} {payload bs c : List UInt8}
  {ks : List RecvResult} {h : List Obs} {n : ℕ}

/-! ## What a call comes to -/

lemma processPacket_granted {r : Request} {rc : Rc} (hs : s.conn.destroyed = false)
    (ha : s.AllocsSucceed) (hr : s.conn.data = .request r) (hout : r.out = none)
    (hsup : r.p.header.Supported) (hclse : r.p.header.pcmd ≠ pcmdClse)
    (hrun : Prog.run Slot.exec processPacket s = .ok (rc, u)) : rc = .ok := by
  have hanswered := answered_processPacket hs hr hclse
  rw [hrun] at hanswered
  cases hanswered with
  | invalid magic => exact absurd hsup.1 magic
  | noBuffer _ _ denied _ =>
    obtain ⟨j, -, hd⟩ := denied
    rw [ha.granted] at hd
    cases hd
  | @created t v m x _ _ spent set served =>
    have hlen := r.p.header.replyPayload_length
    have hsize : bufSize (⟨m, 1024, 0, 0⟩ : Buf) = 0 := rfl
    obtain ⟨rc', t', r', hx, -, hans⟩ := served.answers (o := ⟨m, 1024, 0, 0⟩)
      (by rw [set]; exact spent.alive hs) (by rw [set]) rfl (Buf.ok_of_new (by norm_num))
      (by rw [set]; exact spent.allocsSucceed ha) fun _ o ho => by
        have hho : headerSize = 24 := rfl
        rw [← Option.some.inj ho, hsize]
        show (0 : ℤ) + (headerSize + r.p.header.replyPayload.length) < 2^32
        omega
    obtain ⟨rfl, -⟩ := Prod.mk.inj (Except.ok.inj hx)
    cases hans with
    | refused unsupported => exact absurd hsup unsupported
    | replied => rfl
  | reused out _ =>
    rw [hout] at out
    cases out

/-- What a call of a handler for `s` comes to: no packet is dispatched, or one is and the reply to
it is handed over, or one is that gets no reply. -/
inductive Responds (s t : Slot) : Prop
  | silent (talk : t.talk = s.talk) : Responds s t
  | answered (q : Header × List UInt8) (talk : t.talk = s.talk ++ [.ask q, .reply q.1.reply])
      (waits : t.read.handler = some (.adb .adbWaitApacketHandler))
      (registered : s.read.index ≠ none → t.read.index ≠ none) : Responds s t
  | refused (q : Header × List UInt8) (talk : t.talk = s.talk ++ [.ask q])
      (reason : ¬ q.1.Supported ∨ q.1.pcmd = pcmdClse) : Responds s t

def granting : Prog.Contract Slot := ⟨Slot.AllocsSucceed, fun _ => True, True⟩

lemma Slot.exec_allocs {op : Op} {r : op.Res} (hx : Slot.exec op s = .ok (r, t)) :
    t.wire.allocs <:+ s.wire.allocs := by
  cases op with
  | slot o =>
    rw [SlotOp.exec_after (show o.exec s = .ok (r, t) from hx)]
    cases o with
    | palloc size =>
      simp only [SlotOp.after, Slot.palloc]
      split_ifs
      · exact List.suffix_rfl
      · cases ha : s.wire.allocs with
        | nil => simp [Slot.log, ha]
        | cons m rest => exact List.suffix_cons m rest
    | recv off size =>
      simp only [SlotOp.after]
      cases s.conn.buffer <;> exact List.suffix_rfl
    | _ => exact List.suffix_rfl
  | handleReadEvent flags =>
    change Except.ok (s.handleReadEvent (flags % 2 = 1)) = .ok (r, t) at hx
    obtain rfl : (s.handleReadEvent (flags % 2 = 1)).2 = t := congrArg Prod.snd (Except.ok.inj hx)
    unfold Slot.handleReadEvent Slot.addRead Slot.delRead
    split_ifs <;> exact List.suffix_rfl
  | delReadEvent =>
    change Except.ok s.delRead = .ok (r, t) at hx
    obtain rfl : s.delRead.2 = t := congrArg Prod.snd (Except.ok.inj hx)
    unfold Slot.delRead
    split_ifs <;> exact List.suffix_rfl
  | closeConnection =>
    simp only [Slot.exec] at hx
    split_ifs at hx
    cases hx
    exact List.suffix_rfl

lemma states_allocs {α : Type} (p : Code α) (s : Slot) :
    ∀ u ∈ Prog.states Slot.exec p s, u.wire.allocs <:+ s.wire.allocs :=
  have htrans : ∀ {s t u : Slot}, t.wire.allocs <:+ s.wire.allocs →
      u.wire.allocs <:+ t.wire.allocs → u.wire.allocs <:+ s.wire.allocs := fun h h' => h'.trans h
  (Prog.states_pairwise (R := fun s t => t.wire.allocs <:+ s.wire.allocs)
    (fun _ => List.suffix_rfl) htrans (fun _ _ _ _ => Slot.exec_allocs) p s).2

lemma Receiving.answered (ht : Receiving s t) {r : Request} (halive : t.conn.destroyed = false)
    (hw : Working (t.dispatching r) [] u) (hheld : u.held = r.p.header.reply) :
    Responds s ((u.sentOut u.held).handledBy .adbWaitApacketHandler) := by
  refine .answered (r.p.header, r.p.payload.live) ?_ rfl fun hi => ?_
  · have htalk : (u.sentOut u.held).talk = u.talk ++ [.reply u.held] := conversation_append _ _
    show (u.sentOut u.held).talk = _
    rw [htalk, hw.talk, Slot.talk_dispatching, ht.talk, hheld, List.append_assoc]
    rfl
  · show u.read.index ≠ none
    rw [hw.same]
    exact ht.registered halive hi

lemma dispatchPayload_responds (ht : Receiving s t) (hn : NoReply t) (ha : t.AllocsSucceed) :
    Prog.Ensures Slot.exec granting (fun _ => Responds s) dispatchPayload t := by
  unfold dispatchPayload
  refine setHandler_rule _ trivial fun _ => ?_
  refine getRequest_rule trivial (.inl trivial) fun r halive hr => ?_
  refine note_rule _ trivial fun _ => ?_
  have halive : (t.dispatching r).conn.destroyed = false := halive
  have hdata : (t.dispatching r).conn.data = .request r := hr
  have hout : r.out = none := hn r hr
  have hengaged : Engaged granting (t.dispatching r) :=
    ⟨ha, fun _ _ _ _ => trivial, fun _ _ _ => trivial⟩
  have htalk : ∀ {u}, Working (t.dispatching r) [] u →
      u.talk = s.talk ++ [.ask (r.p.header, r.p.payload.live)] := fun hw => by
    rw [hw.talk, Slot.talk_dispatching, ht.talk]
  refine (processPacket_spec hengaged hdata (fun o ho => absurd (hout.symm.trans ho) (by simp))
    (.inl trivial)).with_run.andThen fun rc u ⟨hu, hrun⟩ => ?_
  cases hu with
  | replied _ hw _ =>
    obtain ⟨-, -, hheld⟩ := processPacket_replied halive hdata hout hrun
    exact sendReply_held hw (by rw [hheld]; exact Header.reply_ne_nil _) trivial trivial trivial
      (.inl trivial) (ht.answered halive hw hheld)
  | refused _ hw _ =>
    refine .pure trivial (.refused _ (htalk hw) ?_)
    by_contra hn
    obtain ⟨hsup, hclse⟩ := not_or.mp hn
    exact Rc.noConfusion (processPacket_granted halive ha hdata hout (not_not.mp hsup) hclse hrun)
  | @closed v _ hw _ hclse => exact .pure trivial (.refused _ (@htalk v hw) (.inr hclse))

lemma attends_responds (s : Slot) : Attends granting s (Responds s) where
  fail := trivial
  keep _ _ _ := trivial
  rest _ ht _ := .silent ht.talk
  dispatch _ ht hn ha := dispatchPayload_responds ht hn ha

lemma Slot.readEvent_responds (ha : s.AllocsSucceed) (hi : s.read.index ≠ none)
    (hh : s.read.handler = some (.adb .adbWaitApacketHandler) ∨
      s.read.handler = some (.adb .adbProcessAdbHeader) ∧ NoReply s)
    (ht : s.readEvent = .ok t) : Responds s t := by
  have hatt := attends_responds s.readied
  have hready : ∀ {hd : AdbHandler}, s.read.handler = some (.adb hd) →
      Prog.Ensures Slot.exec granting (fun _ => Responds s.readied) (code hd) s.readied →
      Responds s.readied t := fun {hd} hhd hens => by
    have hall := fun u hu m hm => ha m ((states_allocs (code hd) s.readied u hu).subset hm)
    rw [Slot.readEvent_eq hi hhd] at ht
    rcases hens.completes hall with ⟨a, v, hrun, hv⟩ | ⟨-, e, hrun⟩
    · rw [hrun] at ht
      obtain rfl : v = t := Except.ok.inj ht
      exact hv
    · rw [hrun] at ht
      cases ht
  have hresult : Responds s.readied t := by
    rcases hh with hh | ⟨hh, hn⟩
    · exact hready hh (hatt.waitApacketHandler (.refl _) ha)
    · exact hready hh (hatt.processAdbHeader (.refl _) hn ha)
  cases hresult with
  | silent talk => exact .silent talk
  | answered q talk waits registered => exact .answered q talk waits registered
  | refused q talk reason => exact .refused q talk reason

/-! ## One packet -/

lemma Heard.questions (hh : Heard h bs s) : questions s.talk = dispatches h := by
  obtain ⟨new, hnew, hd, -⟩ := hh
  rw [questions_conversation, hnew, dispatches_append, hd, List.append_nil]

lemma Dispatched.questions (hd : Dispatched h hdr payload bs t) :
    questions t.talk = dispatches h ++ [(hdr, payload)] := by
  obtain ⟨pre, post, ht, hpre, hpost, -⟩ := hd
  have hpacket : dispatches (Obs.dispatch hdr payload :: post) =
    (hdr, payload) :: dispatches post :=
    rfl
  rw [questions_conversation, ht, dispatches_append, dispatches_append, hpre, hpacket, hpost,
    List.append_nil]

lemma Responds.of_heard (hr : Responds s t) (hs : Heard h bs s) (ht : Heard h c t) :
    t.talk = s.talk := by
  have hq : questions t.talk = questions s.talk := ht.questions.trans hs.questions.symm
  cases hr with
  | silent talk => exact talk
  | answered q talk => simp [talk, Dialogue.questions, Turn.question] at hq
  | refused q talk => simp [talk, Dialogue.questions, Turn.question] at hq

lemma Responds.of_dispatched (hr : Responds s t) (hs : Heard h bs s)
    (ht : Dispatched h hdr payload c t) (hsup : hdr.Supported) (hclse : hdr.pcmd ≠ pcmdClse) :
    t.talk = s.talk ++ [.ask (hdr, payload), .reply hdr.reply] ∧
      t.read.handler = some (.adb .adbWaitApacketHandler) ∧
        (s.read.index ≠ none → t.read.index ≠ none) := by
  have hq : questions t.talk = questions s.talk ++ [(hdr, payload)] := by
    rw [ht.questions, hs.questions]
  cases hr with
  | silent talk => simp [talk] at hq
  | answered q talk waits registered =>
    obtain rfl : q = (hdr, payload) := by
      simpa [talk, Dialogue.questions, Turn.question] using hq
    exact ⟨talk, waits, registered⟩
  | refused q talk reason =>
    obtain rfl : q = (hdr, payload) := by
      simpa [talk, Dialogue.questions, Turn.question] using hq
    rcases reason with hn | hc
    · exact absurd hsup hn
    · exact absurd hc hclse

/-- Events of a connection that stays open in all of them. -/
def Slot.Attended : ℕ → Slot → Slot → Prop
  | 0, s, t => t = s
  | n + 1, s, t => ∃ u, s.readEvent = .ok u ∧ u.Live ∧ Slot.Attended n u t

/-- The connection has answered a packet and no bytes are left. -/
structure Exchanged (hdr : Header) (payload : List UInt8) (s t : Slot) : Prop where
  waits : t.Waits
  talk : t.talk = s.talk ++ [.ask (hdr, payload), .reply hdr.reply]
  again : ∀ k ∈ t.wire.recvs, k = .again

lemma Exchanged.of_talk (he : Exchanged hdr payload u t) (hs : u.talk = s.talk) :
    Exchanged hdr payload s t := ⟨he.waits, hs ▸ he.talk, he.again⟩

lemma Slot.Waits.idle (hw : s.Waits) (hs : ∀ k ∈ s.wire.recvs, k = .again) (n : ℕ) :
    ∃ t, Slot.Attended n s t ∧ t.Waits ∧ t.talk = s.talk ∧ ∀ k ∈ t.wire.recvs, k = .again := by
  induction n generalizing s with
  | zero => exact ⟨s, rfl, hw, rfl, hs⟩
  | succ n ih =>
    have hpend : pending s.wire.recvs = [] := List.flatMap_eq_nil_iff.mpr fun k hk => by
      rw [hs k hk]
      rfl
    have hheard : Heard s.wire.history [] s := ⟨[], (List.append_nil _).symm, rfl, rfl⟩
    obtain ⟨u, hu, hres⟩ := hw.readEvent hheard
      ⟨fun k hk => .inl (hs k hk), by rw [hpend]; exact Nat.zero_le _⟩
    have hresp := Slot.readEvent_responds hw.live.usable.allocs hw.live.index (.inl hw.handler) hu
    cases hres with
    | @blocked ks' hks hwu hrest hh =>
      have hsub : ∀ k ∈ u.wire.recvs, k = .again := fun k hk => by
        rw [hrest] at hk
        rcases hks with hks | ⟨-, hnil⟩
        · exact hs k (hks ▸ List.mem_cons_of_mem _ hk)
        · rw [hnil] at hk
          cases hk
      obtain ⟨t, ht, hwt, htalk, hagain⟩ := ih hwu hsub
      exact ⟨t, ⟨u, hu, hwu.live, ht⟩, hwt, htalk.trans (hresp.of_heard hheard hh), hagain⟩
    | started hks _ => cases hs _ (hks ▸ List.mem_cons_self)

lemma Exchanged.attended (he : Exchanged hdr payload s t) (ht : s.readEvent = .ok t) (n : ℕ) :
    ∃ u, Slot.Attended (n + 1) s u ∧ Exchanged hdr payload s u := by
  obtain ⟨u, hu, hw, htalk, hagain⟩ := he.waits.idle he.again n
  exact ⟨u, ⟨t, ht, he.waits.live, hu⟩, hw, htalk.trans he.talk, hagain⟩

section
variable (hsup : hdr.Supported) (hclse : hdr.pcmd ≠ pcmdClse)
include hsup hclse

lemma Delivered.exchanged (hd : Delivered h hdr payload c ks t) (hs : Heard h bs s)
    (hr : Responds s t) (hi : s.read.index ≠ none) (hks : ∀ k ∈ ks, k = .again) :
    Exchanged hdr payload s t := by
  obtain ⟨htalk, hwaits, hreg⟩ := hr.of_dispatched hs hd.dispatched hsup hclse
  refine ⟨?_, htalk, by rw [hd.rested.recvs]; exact hks⟩
  rcases hd.rested.rests with hn | hblock | hw
  · exact absurd hn (hreg hi)
  · rw [hwaits] at hblock
    cases hblock
  · exact hw

lemma Headed.exchanged (hh : Headed h bs ks t) (hp : Parts hdr payload bs ks) (hs : Heard h c s)
    (hr : Responds s t) (hi : s.read.index ≠ none)
    (hw : Whole (headerSize + payload.length) bs.length ks) :
    (Gathered h bs ks t ∧ Prompt (headerSize + payload.length) bs.length ks) ∨
      Exchanged hdr payload s t := by
  have hlength := hp.length
  have hdlen := hp.dlen
  unfold Whole at hw
  cases hh with
  | short gathered =>
    rw [if_pos gathered.short] at hw
    exact .inl ⟨gathered, hw⟩
  | opened long opened =>
    rw [if_neg (by omega)] at hw
    rw [hp.headerOf long] at opened
    refine .inr ?_
    cases opened with
    | whole enough delivered =>
      obtain ⟨-, hpay, hagain⟩ := hp.complete (by omega)
      rw [hpay] at delivered
      exact delivered.exchanged hsup hclse hs hr hi hagain
    | @joined c ks' recvs short delivered =>
      have hp' := hp.next recvs
      rcases hw with he | ⟨c', ks'', he, hlen⟩
      · omega
      · obtain ⟨rfl, rfl⟩ : c = c' ∧ ks' = ks'' := by simpa [recvs] using he
        obtain ⟨-, hpay, hagain⟩ := hp'.complete (by rw [List.length_append]; omega)
        rw [hpay] at delivered
        exact delivered.exchanged hsup hclse hs hr hi hagain
    | @lagging ks' recvs short lags =>
      exfalso
      rcases hw with he | ⟨c', ks'', he, -⟩
      · omega
      · rcases recvs with hks | ⟨hks, -⟩ <;> rw [hks] at he <;> cases he

lemma Continued.exchanged (hc : Continued h bs ks t) (hp : Parts hdr payload bs ks)
    (hs : Heard h c s) (hr : Responds s t) (hi : s.read.index ≠ none)
    (hw : Prompt (headerSize + payload.length) bs.length ks) :
    (∃ bs' ks', Gathered h bs' ks' t ∧ Parts hdr payload bs' ks' ∧
      Prompt (headerSize + payload.length) bs'.length ks' ∧ ks'.length ≤ ks.length - 1) ∨
        Exchanged hdr payload s t := by
  cases hc with
  | @blocked ks' recvs gathered =>
    refine .inl ⟨bs, ks', gathered, hp.again recvs, ?_, ?_⟩ <;>
      rcases recvs with rfl | ⟨rfl, rfl⟩ <;> first | exact hw | simp
  | @filled c ks' recvs headed =>
    have hp' := hp.next recvs
    subst recvs
    rw [prompt_bytes, ← List.length_append] at hw
    exact (headed.exchanged hsup hclse hp' hs hr hi hw).imp_left fun hg =>
      ⟨_, _, hg.1, hp', hg.2, by simp⟩

lemma Gathered.exchanged (hg : Gathered h bs ks s) (hp : Parts hdr payload bs ks)
    (hw : Prompt (headerSize + payload.length) bs.length ks) (hn : ks.length ≤ n) :
    ∃ t, Slot.Attended n s t ∧ Exchanged hdr payload s t := by
  induction n generalizing s bs ks with
  | zero =>
    obtain rfl : ks = [] := List.length_eq_zero_iff.mp (by omega)
    exact hw.elim
  | succ n ih =>
    obtain ⟨b, m, -, -, hdata⟩ := hg.held
    have hnone : NoReply s := fun r hr => by
      rw [← Data.request.inj (hdata.symm.trans hr)]
      rfl
    obtain ⟨t, ht, hc⟩ := hg.readEvent hp.supply
    have hr := Slot.readEvent_responds hg.live.usable.allocs hg.live.index
      (.inr ⟨hg.handler, hnone⟩) ht
    rcases hc.exchanged hsup hclse hp hg.heard hr hg.live.index hw with
      ⟨bs', ks', hg', hp', hw', hle⟩ | he
    · obtain ⟨u, hu, he⟩ := ih hg' hp' hw' (by omega)
      exact ⟨u, ⟨t, ht, hg'.live, hu⟩, he.of_talk (hr.of_heard hg.heard hg'.heard)⟩
    · exact he.attended ht n

lemma Slot.Waits.exchanged (hs : s.Waits) (hh : Heard h [] s) (hr : s.wire.recvs = ks)
    (hp : Parts hdr payload [] ks) (hw : Prompt (headerSize + payload.length) 0 ks)
    (hn : ks.length ≤ n) : ∃ t, Slot.Attended n s t ∧ Exchanged hdr payload s t := by
  induction n generalizing s ks with
  | zero =>
    obtain rfl : ks = [] := List.length_eq_zero_iff.mp (by omega)
    exact hw.elim
  | succ n ih =>
    obtain ⟨t, ht, ha⟩ := hs.readEvent hh (hr ▸ hp.supply)
    rw [hr] at ha
    have hresp := Slot.readEvent_responds hs.live.usable.allocs hs.live.index (.inl hs.handler) ht
    have hnext : ∀ bs' ks', Gathered h bs' ks' t → Parts hdr payload bs' ks' →
        Prompt (headerSize + payload.length) bs'.length ks' → ks'.length ≤ n →
          ∃ u, Slot.Attended (n + 1) s u ∧ Exchanged hdr payload s u :=
      fun bs' ks' hg hp' hw' hn' => by
        obtain ⟨u, hu, he⟩ := hg.exchanged hsup hclse hp' hw' hn'
        exact ⟨u, ⟨t, ht, hg.live, hu⟩, he.of_talk (hresp.of_heard hh hg.heard)⟩
    cases ha with
    | @blocked ks' recvs waits rest heard =>
      obtain ⟨u, hu, he⟩ := ih waits heard rest (hp.again recvs)
        (by rcases recvs with rfl | ⟨rfl, rfl⟩ <;> exact hw)
        (by rcases recvs with rfl | ⟨rfl, rfl⟩ <;> simp_all)
      exact ⟨u, ⟨t, ht, waits.live, hu⟩, he.of_talk (hresp.of_heard hh heard)⟩
    | @started c ks' recvs result =>
      have hp' := hp.next recvs
      subst recvs
      rw [prompt_bytes, Nat.zero_add] at hw
      have hlen : ks'.length ≤ n := by simpa using hn
      rcases result with ⟨-, headed⟩ | ⟨hshort, continued⟩
      · rcases headed.exchanged hsup hclse hp' hh hresp hs.live.index hw with ⟨hg, hw'⟩ | he
        · exact hnext _ _ hg hp' hw' hlen
        · exact he.attended ht n
      · rw [Whole, if_pos hshort] at hw
        rcases continued.exchanged hsup hclse hp' hh hresp hs.live.index hw with
          ⟨bs', ks'', hg, hp'', hw', hle⟩ | he
        · exact hnext _ _ hg hp'' hw' (by omega)
        · exact he.attended ht n

end

/-! ## The session by itself -/

lemma preserves_handler : Prog.Preserves Slot.exec fun s =>
    s.read.accepted = false ∧ ∃ hd, s.read.handler = some (.adb hd) := by
  rintro op s r t ⟨hacc, hd, hhd⟩ hx
  cases op with
  | slot o =>
    have hf := SlotOp.exec_frame (show o.exec s = .ok (r, t) from hx)
    refine ⟨by rw [hf.read]; exact hacc, ?_⟩
    rcases hf.handler with hh | hh
    · exact ⟨hd, hh.trans hhd⟩
    · exact hh
  | handleReadEvent flags =>
    change Except.ok (s.handleReadEvent (flags % 2 = 1)) = .ok (r, t) at hx
    obtain rfl : (s.handleReadEvent (flags % 2 = 1)).2 = t := congrArg Prod.snd (Except.ok.inj hx)
    unfold Slot.handleReadEvent Slot.addRead Slot.delRead
    split_ifs <;> exact ⟨hacc, hd, hhd⟩
  | delReadEvent =>
    change Except.ok s.delRead = .ok (r, t) at hx
    obtain rfl : s.delRead.2 = t := congrArg Prod.snd (Except.ok.inj hx)
    unfold Slot.delRead
    split_ifs <;> exact ⟨hacc, hd, hhd⟩
  | closeConnection =>
    simp only [Slot.exec] at hx
    split_ifs at hx
    cases hx
    exact ⟨hacc, hd, hhd⟩

lemma Slot.Live.living (hs : s.Live) (hacc : s.read.accepted = false) : s.living = some s :=
  if_pos ⟨hacc, hs.usable.listening, hs.usable.alive⟩

lemma Slot.Attended.alone (ha : Slot.Attended n s t) (hi : s.read.index ≠ none)
    (hacc : s.read.accepted = false) (hh : ∃ hd, s.read.handler = some (.adb hd)) :
    alone Action.next (List.replicate n .event) (some s.readied) = some (some t.readied) ∧
      t.read.accepted = false := by
  induction n generalizing s with
  | zero => exact ⟨by rw [ha]; rfl, by rw [ha]; exact hacc⟩
  | succ n ih =>
    obtain ⟨u, hu, hlive, hrest⟩ := ha
    obtain ⟨hd, hhd⟩ := hh
    have hcall : s.readied.call = .ok u := by
      rw [← hu, Slot.readEvent_eq hi hhd]
      unfold Slot.call
      rw [show s.readied.read.handler = some (.adb hd) from hhd]
    obtain ⟨hacc', hh'⟩ : u.read.accepted = false ∧ ∃ hd, u.read.handler = some (.adb hd) := by
      rw [Slot.readEvent_eq hi hhd] at hu
      cases hrun : Prog.run Slot.exec (code hd) s.readied with
      | error e =>
        rw [hrun] at hu
        cases hu
      | ok x =>
        rw [hrun] at hu
        obtain rfl : x.2 = u := Except.ok.inj hu
        exact preserves_handler.run (code hd) (s := s.readied) ⟨hacc, hd, hhd⟩ hrun
    have hnext : Action.event.next (some s.readied) = some (some u.readied) := by
      show (s.readied.call.toOption.map fun t => t.readied.living) = _
      rw [hcall, ← hlive.readied.living hacc']
      rfl
    rw [List.replicate_succ, Components.alone, hnext]
    exact ih hrest hlive.index hacc' hh'

/-- A packet, the answers of the kernel with which it comes in, and how often the descriptor is
reported from then on. -/
structure Exchange where
  script : Script
  events : ℕ
  header : Header
  payload : List UInt8

namespace Exchange

def actions (e : Exchange) : List Action := .feed e.script :: List.replicate e.events .event

def turns (e : Exchange) : List (Turn (Header × List UInt8) (List UInt8)) :=
  [.ask (e.header, e.payload), .reply e.header.reply]

/-- The packet is well formed and supported, it comes in alone and its header together with the
last of it or in the result before, there is memory, and there are enough events. -/
structure Fair (e : Exchange) : Prop where
  cut : Cut (e.header.bytes ++ e.payload) e.script.recvs
  prompt : Prompt (headerSize + e.payload.length) 0 e.script.recvs
  dlen : e.payload.length = e.header.dlen.toNat
  fits : headerSize + e.payload.length ≤ adbMaxPacketSize
  supported : e.header.Supported
  clse : e.header.pcmd ≠ pcmdClse
  allocs : ∀ m ∈ e.script.allocs, m ≠ none
  enough : e.script.recvs.length ≤ e.events

end Exchange

/-- The session waits for a packet. -/
structure Slot.Attentive (s : Slot) : Prop extends s.Waits where
  ready : s.read.ready = true
  accepted : s.read.accepted = false

lemma Slot.Waits.fed (hs : s.Waits) {x : Script} (hx : ∀ m ∈ x.allocs, m ≠ none) :
    (s.fed x).Waits where
  live := ⟨⟨hs.live.usable.alive, hs.live.usable.unixIo, hs.live.usable.listening,
    hs.live.usable.fd, hx⟩, hs.live.active, hs.live.timeout, hs.live.index⟩
  handler := hs.handler
  cap := hs.cap

lemma Slot.Attentive.exchange (hs : s.Attentive) {e : Exchange} (he : e.Fair) :
    ∃ t, alone Action.next e.actions (some s) = some (some t) ∧ t.Attentive ∧
      t.talk = s.talk ++ e.turns := by
  have hw := hs.toWaits.fed he.allocs
  obtain ⟨t, ht, hdone⟩ := hw.exchanged he.supported he.clse
    ⟨[], (List.append_nil _).symm, rfl, rfl⟩ rfl ⟨he.cut.kinds, he.cut.bytes, he.dlen, he.fits⟩
    he.prompt he.enough
  obtain ⟨halone, hacc⟩ := ht.alone hw.live.index hs.accepted ⟨_, hw.handler⟩
  refine ⟨t.readied, ?_, ⟨⟨hdone.waits.live.readied, hdone.waits.handler, hdone.waits.cap⟩, rfl,
    hacc⟩, hdone.talk⟩
  rw [Slot.readied_self (show (s.fed e.script).read.ready = true from hs.ready)] at halone
  exact halone

theorem Slot.Attentive.exchanges (hs : s.Attentive) (es : List Exchange)
    (hfair : ∀ e ∈ es, e.Fair) :
    ∃ t, alone Action.next (es.flatMap Exchange.actions) (some s) = some (some t) ∧ t.Attentive ∧
      t.talk = s.talk ++ es.flatMap Exchange.turns := by
  induction es generalizing s with
  | nil => exact ⟨s, rfl, hs, (List.append_nil _).symm⟩
  | cons e es ih =>
    obtain ⟨u, hu, hattentive, htalk⟩ := hs.exchange (hfair e List.mem_cons_self)
    obtain ⟨t, ht, hattentive', htalk'⟩ := ih hattentive fun e' he' =>
      hfair e' (List.mem_cons_of_mem _ he')
    refine ⟨t, ?_, hattentive', ?_⟩
    · rw [List.flatMap_cons, alone_append, hu]
      exact ht
    · rw [htalk', htalk, List.flatMap_cons, List.append_assoc]

lemma newborn_attentive : newborn.Attentive where
  live := ⟨⟨rfl, rfl, by simp [newborn, Slot.session, Slot.readied, Slot.veiled, Slot.norm,
    acceptedSlot], by decide, fun m hm => absurd hm List.not_mem_nil⟩, rfl, rfl, by decide⟩
  handler := rfl
  cap b hb := by cases hb
  ready := rfl
  accepted := rfl

/-! ## The daemon -/

variable {u w : World} {l : List (ℕ × Action)} {i : ℕ} {es : List Exchange}

/-- Whatever the other clients do: a client that is accepted and sends its packets one by one
gets the reply to each of them, in their order, and its connection stays open. -/
theorem Run.exchanges_answered (hu : Run boot u) (h : Acts u l w) (hnone : u.session i = none)
    (hown : own i l = .accept :: es.flatMap Exchange.actions) (hfair : ∀ e ∈ es, e.Fair) :
    w.session i ≠ none ∧
      conversation (w.slots i).wire.history = es.flatMap Exchange.turns := by
  obtain ⟨t, ht, -, htalk⟩ := newborn_attentive.exchanges es hfair
  have hpath := (h.path hu).component i
  rw [hown, hnone, Components.alone] at hpath
  have hw : w.session i = some t := Option.some.inj (hpath.symm.trans ht)
  refine ⟨by rw [hw]; exact Option.some_ne_none t, ?_⟩
  obtain ⟨free, hidle⟩ := (h.run hu).idle
  obtain ⟨hp, hfree⟩ := hidle.table.session_some (by rw [hw]; exact Option.some_ne_none t)
  rw [hidle.table.session_peer hp hfree] at hw
  obtain rfl := Option.some.inj hw
  exact htalk

def okayExchange : Exchange :=
  ⟨⟨[.bytes okayPacket], [], [], []⟩, 1, ⟨pcmdOkay, 7, 9, 0, 0, ~~~pcmdOkay⟩, []⟩

lemma okayExchange_fair : okayExchange.Fair where
  cut := ⟨fun k hk => .inr ⟨okayPacket, by decide, List.mem_singleton.mp hk⟩, by decide⟩
  prompt := .inl (by decide)
  dlen := by decide
  fits := by decide
  supported := ⟨by decide, by decide, by decide⟩
  clse := by decide
  allocs := by decide
  enough := by decide

theorem Run.exchanges_answered_okay : okeyed.session 1 ≠ none ∧
    conversation (okeyed.slots 1).wire.history =
      [.ask (okayExchange.header, []), .reply okayExchange.header.reply] := by
  have hu : Started (.single 2 3) (afterStart (.single 2 3)) := ⟨by decide, by decide, rfl⟩
  have hacts := (acts_oneClient okayExchange.script).reporting {4} (by decide) (by decide) rfl
  exact @Run.exchanges_answered _ _ _ _ 1 [okayExchange] (.start hu) hacts (hu.session 1) rfl
    fun e he => List.mem_singleton.mp he ▸ okayExchange_fair

end Xdbd

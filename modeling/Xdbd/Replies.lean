import Xdbd.PacketSpecs

/-!
# From the dispatch to the reply

The rest of a payload handler once the packet is complete: the packet is dispatched with
reading blocked, and reading is unblocked after the bytes of `r->out` were passed to `send`.
-/
namespace Xdbd
open Interaction Code

variable {s t u : Slot} {κ : Prog.Contract Slot}

/-- `xdbd_adb_process_adb_payload` from the dispatch on. -/
def dispatchPayload : Code Unit := do
  setHandler .adbBlockReading
  let r ← getRequest
  note (.dispatch r.p.header r.p.payload.live)
  sendReply (← processPacket)

def Slot.handledBy (s : Slot) (h : AdbHandler) : Slot :=
  { s with read := { s.read with handler := some (.adb h) } }

/-- The slot in which `xdbd_process_packet` is called for the request `r`. -/
def Slot.dispatching (s : Slot) (r : Request) : Slot :=
  (s.handledBy .adbBlockReading).log (.dispatch r.p.header r.p.payload.live)

def Slot.held (s : Slot) : List UInt8 :=
  match s.conn.data with
  | .request r => r.held
  | _ => []

lemma Slot.held_request {r : Request} (h : s.conn.data = .request r) : s.held = r.held := by
  unfold Slot.held
  rw [h]

lemma Working.held {e : List UInt8} (h : Working s e t) : ∃ new,
    t.wire.history = s.wire.history ++ new ∧ (∀ o ∈ new, o.Inner) ∧
      t.held = s.held ++ puts new ++ e := by
  obtain ⟨r, out, new, hr, ht, hnew, hin, -, hheld⟩ := h.request
  refine ⟨new, hnew, hin, ?_⟩
  rw [Slot.held_request hr, Slot.held_request ht, hheld]

/-- What holds when the handler returns: after a refused packet, and after the reply to a packet
with the header `h` that was dispatched in `v`. -/
structure Sends (κ : Prog.Contract Slot) (v : Slot) (h : Header) (Q : Slot → Prop) : Prop where
  refused : ∀ u, Processed κ v h .err u → Q u
  nothing : ∀ u, Working v [] u → u.held = [] → κ.assume (u.handledBy .adbWaitApacketHandler) →
    κ.keep (u.handledBy .adbWaitApacketHandler) ∧ Q (u.handledBy .adbWaitApacketHandler)
  sent : ∀ u, Working v [] u → u.held ≠ [] → κ.assume (u.sentOut u.held) →
    κ.keep (u.sentOut u.held) ∧
      (κ.assume ((u.sentOut u.held).handledBy .adbWaitApacketHandler) →
        κ.keep ((u.sentOut u.held).handledBy .adbWaitApacketHandler) ∧
          Q ((u.sentOut u.held).handledBy .adbWaitApacketHandler))

lemma Processed.keep {h : Header} {rc : Rc} (hp : Processed κ s h rc u) (he : Engaged κ s) :
    κ.keep u := by
  cases hp with
  | replied ha hw _ => exact he.keep [] u hw ha
  | refused ha hw _ => exact he.keep [] u hw ha
  | closed ha hw _ _ => exact he.close _ hw ha

lemma sendReply_spec {Q : Slot → Prop} {h : Header} {rc : Rc} (hs : Sends κ s h Q)
    (he : Engaged κ s) (hp : Processed κ s h rc u) (hf : κ.fail ∨ s.Usable) :
    Prog.Ensures Slot.exec κ (fun _ => Q) (sendReply rc) u := by
  have hkeep := hp.keep he
  cases hp with
  | refused ha hw hr => exact .pure hkeep (hs.refused u (.refused ha hw hr))
  | closed ha hw hr hc => exact .pure hkeep (hs.refused _ (.closed ha hw hr hc))
  | replied ha hw hout =>
    refine getRequest_rule hkeep (hf.imp_right fun hf => ⟨(hf.working hw).alive, hw.data⟩)
      fun r _ hr => ?_
    refine deref_rule hkeep (hout.imp_right fun hn => hn.out_ne_none hr) fun o ho => ?_
    have hok := hw.out_ok hr ho
    have hheld : u.held = o.live := by
      rw [Slot.held_request hr, Request.held, ho]
      rfl
    have hlen := hok.live_length
    split_ifs with hsize
    · have hnil : u.held = [] := by
        rw [hheld]
        exact List.length_eq_zero_iff.mp (by omega)
      refine .of_bind_pure (setHandler_rule _ hkeep fun hx => ?_)
      obtain ⟨hk, hq⟩ := hs.nothing u hw hnil hx
      exact .pure hk hq
    · have hne : u.held ≠ [] := by
        rw [hheld]
        rintro hnil
        rw [hnil] at hlen
        exact hsize (by simpa using hlen.symm)
      rw [Src.take_live hok hok.sizeT, ← hheld]
      refine send_rule _ hkeep (hf.imp_right fun hf =>
        ⟨(hf.working hw).alive, (hf.working hw).unixIo⟩) fun _ hx => ?_
      obtain ⟨hk, hnext⟩ := hs.sent u hw hne hx
      refine .of_bind_pure (setHandler_rule _ hk fun hy => ?_)
      obtain ⟨hk', hq⟩ := hnext hy
      exact .pure hk' hq

theorem dispatchPayload_spec {Q : Slot → Prop} (hn : ∀ r, s.conn.data = .request r → r.out = none)
    (hs : κ.keep s)
    (hb : κ.assume (s.handledBy .adbBlockReading) → κ.keep (s.handledBy .adbBlockReading))
    (hd : ∀ r, s.conn.data = .request r → κ.assume (s.dispatching r) →
      Engaged κ (s.dispatching r) ∧ Sends κ (s.dispatching r) r.p.header Q)
    (hf : κ.fail ∨ s.Usable ∧ ∃ r, s.conn.data = .request r) :
    Prog.Ensures Slot.exec κ (fun _ => Q) dispatchPayload s := by
  unfold dispatchPayload
  refine setHandler_rule _ hs fun hab => ?_
  refine getRequest_rule (hb hab) (hf.imp_right fun hf => ⟨hf.1.alive, hf.2⟩) fun r _ hr => ?_
  refine note_rule _ (hb hab) fun had => ?_
  obtain ⟨he, hsend⟩ := hd r hr had
  have hout := hn r hr
  have hable : κ.fail ∨ (s.dispatching r).Usable ∧ r.out = none := hf.imp_right fun hf =>
    ⟨⟨hf.1.alive, hf.1.unixIo, hf.1.listening, hf.1.fd, hf.1.allocs⟩, hout⟩
  have hok : ∀ o, r.out = some o → o.Ok := fun o ho => absurd (hout.symm.trans ho) (by simp)
  exact (processPacket_spec he hr hok hable).andThen fun rc u hu =>
    sendReply_spec hsend he hu (hable.imp_right And.left)

end Xdbd

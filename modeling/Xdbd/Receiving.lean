import Xdbd.Replies

/-!
# From a read event to the dispatch

Up to the call of `xdbd_process_packet` a handler asks for bytes, allocates and moves
cursors, whatever the cursors are. None of this touches the replies or the registration of
the connection, which is all that some properties depend on.
-/
namespace Xdbd
open Interaction Code

variable {s t u : Slot} {κ : Prog.Contract Slot}

/-- What is seen of a connection before a dispatch. -/
def Obs.Incoming : Obs → Prop
  | .recv _ | .alloc _ _ | .append _ _ _ => True
  | _ => False

/-- The request, if there is one, has no reply buffer yet. -/
def NoReply (s : Slot) : Prop := ∀ r, s.conn.data = .request r → r.out = none

/-- What the code before a dispatch asks for. -/
def Op.Receives : Op → Prop
  | .slot (.setHandler _) | .slot (.send _) | .delReadEvent => False
  | .slot (.setRequest r) => r.out = none
  | .slot (.setData r) => ∀ r', r = some r' → r'.out = none
  | .slot (.note o) => o.Incoming
  | .handleReadEvent flags => flags = 0
  | _ => True

/-- A request that it reads has no reply buffer. -/
def Op.Fresh : (op : Op) → op.Res → Prop
  | .slot .getRequest, r => Request.out r = none
  | _, _ => True

/-- What that code can do to its connection. -/
structure Receiving (s t : Slot) : Prop where
  history : ∃ new, t.wire.history = s.wire.history ++ new ∧ ∀ o ∈ new, o.Incoming
  alive : t.conn.destroyed = false → s.conn.destroyed = false
  registered : t.conn.destroyed = false → s.read.index ≠ none → t.read.index ≠ none
  handler : t.read.handler = s.read.handler ∨
    t.read.handler = some (.adb .adbProcessAdbHeader) ∨
    t.read.handler = some (.adb .adbProcessAdbPayload)
  request : NoReply t ∨ t.conn.data = s.conn.data ∧ t.read.handler = s.read.handler

lemma Receiving.refl (s : Slot) : Receiving s s :=
  ⟨⟨[], by simp, by simp⟩, id, fun _ h => h, .inl rfl, .inr ⟨rfl, rfl⟩⟩

lemma NoReply.congr (h : NoReply s) (hd : t.conn.data = s.conn.data) : NoReply t :=
  fun r hr => h r (hd ▸ hr)

lemma Receiving.trans (h : Receiving s t) (h' : Receiving t u) : Receiving s u where
  history := by
    obtain ⟨new, hnew, hin⟩ := h.history
    obtain ⟨new', hnew', hin'⟩ := h'.history
    refine ⟨new ++ new', ?_, fun o ho => (List.mem_append.mp ho).elim (hin o) (hin' o)⟩
    rw [hnew', hnew, List.append_assoc]
  alive hu := h.alive (h'.alive hu)
  registered hu hi := h'.registered hu (h.registered (h'.alive hu) hi)
  handler := by
    rcases h'.handler with hh | hh
    · rw [hh]
      exact h.handler
    · exact .inr hh
  request := by
    rcases h'.request with hn | ⟨hd, hh⟩
    · exact .inl hn
    · exact h.request.imp (NoReply.congr · hd) fun ⟨hd', hh'⟩ => ⟨hd.trans hd', hh.trans hh'⟩

/-- After a new handler was set, or where it was so before, the request has no reply buffer. -/
lemma Receiving.noReply (h : Receiving s t) (hs : NoReply s) : NoReply t :=
  h.request.elim id fun hd => hs.congr hd.1

/-- A step that leaves everything but the buffer, the kernel's answers and the flags alone. -/
lemma Receiving.of_fields {new : List Obs} (hh : t.wire.history = s.wire.history ++ new)
    (hnew : ∀ o ∈ new, o.Incoming) (hd : t.conn.destroyed = s.conn.destroyed)
    (hi : t.read.index = s.read.index) (hr : t.read.handler = s.read.handler)
    (hn : NoReply t ∨ t.conn.data = s.conn.data) : Receiving s t :=
  ⟨⟨new, hh, hnew⟩, fun h => hd ▸ h, fun _ h => hi ▸ h, .inl hr, hn.imp_right fun h => ⟨h, hr⟩⟩

lemma Receiving.palloc (s : Slot) (size : ℕ) : Receiving s (s.palloc size).2 := by
  unfold Slot.palloc
  split_ifs
  · exact .refl s
  · cases s.wire.allocs with
    | nil => exact .of_fields rfl (by simp [Obs.Incoming]) rfl rfl rfl (.inr rfl)
    | cons m rest => exact .of_fields rfl (by simp [Obs.Incoming]) rfl rfl rfl (.inr rfl)

lemma Receiving.received (s : Slot) (b : Buf) (off : ℤ) (size : ℕ) :
    Receiving s (s.received b off size) := by
  have hrev := unixRecv_rev s.read size s.wire.recvs
  unfold Slot.received
  refine .of_fields rfl (by simp [Obs.Incoming]) rfl ?_ ?_ (.inr rfl) <;>
    simp only [Slot.log] <;> rw [hrev]

lemma Receiving.handleReadEvent (s : Slot) : Receiving s (s.handleReadEvent false).2 := by
  unfold Slot.handleReadEvent
  split_ifs with hidle hready
  · unfold Slot.addRead at hready
    split_ifs at hready <;> simp [hidle.2] at hready
  · unfold Slot.addRead
    split_ifs
    · exact .refl s
    · exact ⟨⟨[], by simp, by simp⟩, id, fun _ _ => by simp, .inl rfl, .inr ⟨rfl, rfl⟩⟩
  · exact .refl s

lemma Receiving.closed (s : Slot) : Receiving s s.closed :=
  ⟨⟨[], by simp [Slot.closed], by simp⟩, fun h => absurd h (by simp [Slot.closed]),
    fun h => absurd h (by simp [Slot.closed]), .inl rfl, .inl fun r hr => by cases hr⟩

theorem Op.Receives.receiving {op : Op} {r : op.Res} (ho : op.Receives)
    (h : Slot.exec op s = .ok (r, t)) : Receiving s t ∧ (NoReply s → op.Fresh r) := by
  cases op with
  | slot o =>
    have ht : t = o.after s := SlotOp.exec_after h
    cases o with
    | setHandler _ | send _ => exact ho.elim
    | getRequest =>
      refine ⟨ht ▸ .refl s, fun hn => ?_⟩
      exact hn r (SlotOp.getRequest_data h)
    | setRequest r' =>
      refine ⟨ht ▸ .of_fields (List.append_nil _).symm (by simp) rfl rfl rfl (.inl ?_),
        fun _ => trivial⟩
      rintro _ ⟨⟩
      exact ho
    | setData r' =>
      refine ⟨ht ▸ .of_fields (List.append_nil _).symm (by simp) rfl rfl rfl (.inl ?_),
        fun _ => trivial⟩
      intro r'' hr
      cases r' with
      | none => cases hr
      | some r' => exact Data.request.inj hr ▸ ho r' rfl
    | note o =>
      refine ⟨ht ▸ .of_fields rfl (fun o' ho' => ?_) rfl rfl rfl (.inr rfl), fun _ => trivial⟩
      rw [List.mem_singleton.mp ho']
      exact ho
    | palloc size => exact ⟨ht ▸ .palloc s size, fun _ => trivial⟩
    | recv off size =>
      refine ⟨ht ▸ ?_, fun _ => trivial⟩
      simp only [SlotOp.after]
      cases s.conn.buffer with
      | none => exact .refl s
      | some b => exact .received s b off size
    | readEvent | getBuffer | fault _ => exact ⟨ht ▸ .refl s, fun _ => trivial⟩
    | setTimeout | setBuffer _ =>
      exact ⟨ht ▸ .of_fields (List.append_nil _).symm (by simp) rfl rfl rfl (.inr rfl),
        fun _ => trivial⟩
  | handleReadEvent flags =>
    obtain rfl : flags = 0 := ho
    have ht : t = (s.handleReadEvent false).2 := congrArg Prod.snd (Except.ok.inj h).symm
    exact ⟨ht ▸ .handleReadEvent s, fun _ => trivial⟩
  | delReadEvent => exact ho.elim
  | closeConnection =>
    simp only [Slot.exec] at h
    split_ifs at h
    cases h
    exact ⟨.closed s, fun _ => trivial⟩

/-! ## The functions before a dispatch -/

/-- What it takes to build a buffer, and to receive. -/
def Op.Builds : Op → Prop
  | .slot .readEvent | .slot (.palloc _) | .slot (.recv _ _) | .slot (.fault _) => True
  | _ => False

lemma Op.Builds.receives {op : Op} (h : op.Builds) : op.Receives := by
  match op, h with
  | .slot .readEvent, _ | .slot (.palloc _), _ | .slot (.recv _ _), _ | .slot (.fault _), _ =>
    trivial

section
variable {α : Type} {P : Op → Prop} (hP : ∀ {op : Op}, op.Builds → P op)
  {A : (op : Op) → op.Res → Prop} {Q : α → Prop}
include hP

lemma deref_obeys {β : Type} {f : β → Code α} {o : Option β}
    (hf : ∀ b, Prog.Obeys P A Q (f b)) : Prog.Obeys P A Q (deref o >>= f) := by
  cases o with
  | none => exact .bind (show Prog.Obeys P A (fun _ => True) (deref none) from
      ⟨hP trivial, fun r => nomatch r⟩) fun b _ => hf b
  | some b => exact hf b

lemma createBuf_obeys (n : ℕ) :
    Prog.Obeys P A (fun _ => True) (createBuf n) := by
  refine .ask (hP trivial) fun m _ => ?_
  cases m with
  | none => exact .pure trivial
  | some m =>
    refine .ask (hP trivial) fun m' _ => ?_
    cases m' <;> exact .pure trivial

lemma adbCreateRequest_obeys :
    Prog.Obeys P A (fun r => ∀ r', r = some r' → r'.out = none) adbCreateRequest := by
  refine .ask (hP trivial) fun m _ => ?_
  cases m with
  | none => exact .pure fun r' hr => by cases hr
  | some m =>
    refine .ask (hP trivial) fun m' _ => ?_
    cases m' with
    | none => exact .pure fun r' hr => by cases hr
    | some m' =>
      refine (createBuf_obeys hP adbMaxPacketSize).bind fun b _ => ?_
      cases b with
      | none => exact .pure fun r' hr => by cases hr
      | some b =>
        refine .pure fun r' hr => ?_
        cases hr
        rfl

lemma cpymem_obeys (b : Buf) (src : Src) (len : ℕ) :
    Prog.Obeys P A (fun _ => True) (cpymem b src len) := by
  unfold cpymem
  split_ifs
  · exact ⟨hP trivial, fun r => nomatch r⟩
  · exact .pure trivial

lemma bufAppendMem_obeys (b : Buf) (src : Src) (len : ℕ) :
    Prog.Obeys P A (fun _ => True) (bufAppendMem b src len) := by
  unfold bufAppendMem
  split_ifs
  · refine .ask (hP trivial) fun m _ => ?_
    cases m with
    | none => exact .pure trivial
    | some m =>
      exact (cpymem_obeys hP _ _ _).bind fun b' _ =>
        (cpymem_obeys hP _ _ _).bind fun _ _ => .pure trivial
  · exact (cpymem_obeys hP _ _ _).bind fun _ _ => .pure trivial

lemma dumpHexLoop_obeys (src : Src) (n i : ℕ) (b : Buf) :
    Prog.Obeys P A (fun _ => True) (dumpHexLoop src n i b) := by
  induction n generalizing i b with
  | zero => exact .pure trivial
  | succ n ih =>
    rw [dumpHexLoop]
    split_ifs
    · refine (bufAppendMem_obeys hP b _ _).bind fun r _ => ?_
      cases r with
      | none => exact .pure trivial
      | some b' => exact ih (i + 1) b'
    · exact ⟨hP trivial, fun r => Empty.elim r⟩

lemma dumpAdbPacket_obeys (p : Packet) :
    Prog.Obeys P A (fun _ => True) (dumpAdbPacket p) := by
  unfold dumpAdbPacket dumpHex
  refine .bind (?_ : Prog.Obeys P A (fun _ => True) _) fun r _ =>
    deref_obeys hP fun _ => .pure trivial
  refine (createBuf_obeys hP 1024).bind fun b _ => ?_
  cases b with
  | none => exact .pure trivial
  | some b => exact dumpHexLoop_obeys hP _ _ _ b

lemma recvIfReady_obeys (b : Buf) :
    Prog.Obeys P A (fun _ => True) (recvIfReady b) := by
  refine .ask (hP trivial) fun rev _ => ?_
  split_ifs
  · exact ⟨hP trivial, fun _ _ => trivial⟩
  · exact .pure trivial

end

/-- Programs that receive and leave the replies alone. -/
abbrev Receiver {α : Type} (p : Code α) : Prop :=
  Prog.Obeys Op.Receives Op.Fresh (fun _ => True) p

lemma adbReadAdbHeader_receiver : Receiver adbReadAdbHeader := by
  refine .ask trivial fun _ _ => .ask trivial fun b _ => deref_obeys Op.Builds.receives fun b => ?_
  split_ifs
  · exact .pure trivial
  · refine (recvIfReady_obeys Op.Builds.receives b).bind fun n _ => ?_
    split_ifs
    · refine .ask rfl fun rc _ => ?_
      cases rc
      · exact .pure trivial
      · exact .ask trivial fun _ _ => .pure trivial
      · exact .ask trivial fun _ _ => .pure trivial
    · exact .ask trivial fun _ _ => .pure trivial
    · exact .ask trivial fun b' _ => deref_obeys Op.Builds.receives fun b' =>
        .ask trivial fun _ _ => .pure trivial

lemma adbParseAdbHeader_receiver : Receiver adbParseAdbHeader := by
  refine .ask trivial fun b _ => deref_obeys Op.Builds.receives fun b => ?_
  split_ifs
  · exact .pure trivial
  · exact .ask trivial fun r hr => .ask hr fun _ _ => .ask trivial fun _ _ => .pure trivial

lemma adbReadAdbPayload_receiver : Receiver adbReadAdbPayload := by
  refine .ask trivial fun r _ => .ask trivial fun b _ => deref_obeys Op.Builds.receives fun b => ?_
  split_ifs
  · exact .pure trivial
  · refine (recvIfReady_obeys Op.Builds.receives b).bind fun n _ => ?_
    have hafter : ∀ armed : Rc, Receiver (if armed ≠ .ok then (do
          adbCloseRequest
          return sizeT xdbdErr)
        else if n = 0 ∨ n = xdbdErr then (do
          adbCloseRequest
          return sizeT xdbdErr)
        else (do
          let b ← deref (← getBuffer)
          setBuffer { b with last := b.last + n }
          return sizeT n)) := by
      intro armed
      split_ifs
      · exact .ask trivial fun _ _ => .pure trivial
      · exact .ask trivial fun _ _ => .pure trivial
      · exact .ask trivial fun b' _ => deref_obeys Op.Builds.receives fun b' =>
        .ask trivial fun _ _ => .pure trivial
    by_cases hn : n = xdbdAgain
    · rw [if_pos hn]
      exact .ask rfl fun rc _ => hafter rc
    · rw [if_neg hn]
      exact hafter .ok

lemma adbParseAdbPayload_receiver : Receiver adbParseAdbPayload := by
  refine .ask trivial fun r hr => .ask trivial fun b _ => deref_obeys Op.Builds.receives fun b => ?_
  have hrest : Receiver (do
      let r ← getRequest
      dumpAdbPacket r.p
      let b ← deref (← getBuffer)
      setBuffer { b with pos := b.pos + r.p.header.dlen.toNat }
      return Rc.ok) :=
    .ask trivial fun r' _ => (dumpAdbPacket_obeys Op.Builds.receives r'.p).bind fun _ _ =>
      .ask trivial fun b' _ => deref_obeys Op.Builds.receives fun b' =>
        .ask trivial fun _ _ => .pure trivial
  have happ : Receiver (bufAppendBuf r.p.payload b) :=
    .ask trivial fun _ _ => bufAppendMem_obeys Op.Builds.receives _ _ _
  refine happ.bind fun payload _ => ?_
  cases payload with
  | none => exact hrest
  | some payload => exact .ask hr fun _ _ => hrest

/-! ## The handlers -/

/-- The contract holds while bytes are received from `s` on, and `Q` holds when a handler
returns. -/
structure Attends (κ : Prog.Contract Slot) (s : Slot) (Q : Slot → Prop) : Prop where
  fail : κ.fail
  keep : ∀ t, Receiving s t → κ.assume t → κ.keep t
  rest : ∀ t, Receiving s t → κ.assume t → Q t
  dispatch : ∀ t, Receiving s t → NoReply t → κ.assume t →
    Prog.Ensures Slot.exec κ (fun _ => Q) dispatchPayload t

namespace Attends
variable {Q : Slot → Prop} (h : Attends κ s Q)
include h

lemma gather {α β : Type} {P : α → Prop} {p : Code α} {f : α → Code β} {Q' : β → Slot → Prop}
    (hp : Prog.Obeys Op.Receives (fun _ _ => True) P p) (ht : Receiving s t) (ha : κ.assume t)
    (hf : ∀ a u, P a → Receiving s u → κ.assume u → Prog.Ensures Slot.exec κ Q' (f a) u) :
    Prog.Ensures Slot.exec κ Q' (p >>= f) t :=
  (@Prog.Obeys.ensures _ _ _ _ _ _ _ _ _ _ (Receiving s) _ hp h.fail h.keep
    (fun _ _ _ _ ho hu hr => ⟨hu.trans (ho.receiving hr).1, trivial⟩) _ ht ha).andThen
      fun a u ⟨hq, hu, hau⟩ => hf a u hq hu hau

lemma ask {op : Op} {β : Type} {f : op.Res → Code β} {Q' : β → Slot → Prop} (ho : op.Receives)
    (ht : Receiving s t) (ha : κ.assume t)
    (hf : ∀ r u, Receiving s u → κ.assume u → Prog.Ensures Slot.exec κ Q' (f r) u) :
    Prog.Ensures Slot.exec κ Q' (Prog.ask op >>= f) t :=
  h.gather (show Prog.Obeys Op.Receives _ (fun _ => True) (Prog.ask op) from
    ⟨ho, fun _ _ => trivial⟩) ht ha fun r u _ hu hau => hf r u hu hau

lemma receive {α β : Type} {p : Code α} {f : α → Code β} {Q' : β → Slot → Prop}
    (hp : Receiver p) (ht : Receiving s t) (hn : NoReply t) (ha : κ.assume t)
    (hf : ∀ a u, Receiving s u → NoReply u → κ.assume u → Prog.Ensures Slot.exec κ Q' (f a) u) :
    Prog.Ensures Slot.exec κ Q' (p >>= f) t :=
  (@Prog.Obeys.ensures _ _ _ _ _ _ _ _ _ _ (fun u => Receiving s u ∧ NoReply u) _ hp h.fail
    (fun u hu => h.keep u hu.1)
    (fun _ _ _ _ ho hu hr => ⟨⟨hu.1.trans (ho.receiving hr).1, (ho.receiving hr).1.noReply hu.2⟩,
      (ho.receiving hr).2 hu.2⟩) _ ⟨ht, hn⟩ ha).andThen
        fun a u ⟨_, hu, hau⟩ => hf a u hu.1 hu.2 hau

lemma done (ht : Receiving s t) (ha : κ.assume t) :
    Prog.Ensures Slot.exec κ (fun _ => Q) (pure ()) t :=
  .pure (h.keep t ht ha) (h.rest t ht ha)

lemma finish {p : Code Unit} (hp : Prog.Obeys Op.Receives (fun _ _ => True) (fun _ => True) p)
    (ht : Receiving s t) (ha : κ.assume t) : Prog.Ensures Slot.exec κ (fun _ => Q) p t :=
  .of_bind_pure (h.gather hp ht ha fun _ _ _ hu hau => h.done hu hau)

lemma close (ht : Receiving s t) (ha : κ.assume t) :
    Prog.Ensures Slot.exec κ (fun _ => Q) Code.closeConnection t :=
  h.finish (show Prog.Obeys Op.Receives _ _ (Prog.ask Op.closeConnection) from
    ⟨trivial, fun _ _ => trivial⟩) ht ha

lemma timeout (ht : Receiving s t) (ha : κ.assume t) :
    Prog.Ensures Slot.exec κ (fun _ => Q) (do setTimeout; adbCloseRequest) t :=
  h.finish (.ask trivial fun _ _ => ⟨trivial, fun _ _ => trivial⟩) ht ha

lemma setHandler (ht : Receiving s t) (hn : NoReply t) (ha : κ.assume t) {hd : AdbHandler}
    (hhd : hd = .adbProcessAdbHeader ∨ hd = .adbProcessAdbPayload) {f : Unit → Code Unit}
    (hf : ∀ u, Receiving s u → NoReply u → κ.assume u →
      Prog.Ensures Slot.exec κ (fun _ => Q) (f ()) u) :
    Prog.Ensures Slot.exec κ (fun _ => Q) (Code.setHandler hd >>= f) t := by
  refine setHandler_rule hd (h.keep t ht ha) fun hau => hf _ (ht.trans ?_) hn hau
  exact ⟨⟨[], by simp, by simp⟩, id, fun _ hi => hi,
    .inr (hhd.imp (fun h => by rw [h]) fun h => by rw [h]), .inl hn⟩

theorem processAdbPayload (ht : Receiving s t) (hn : NoReply t) (ha : κ.assume t) :
    Prog.Ensures Slot.exec κ (fun _ => Q) adbProcessAdbPayload t := by
  unfold adbProcessAdbPayload
  refine readEvent_rule (h.keep t ht ha) ?_
  split_ifs
  · exact h.timeout ht ha
  · refine h.receive adbReadAdbPayload_receiver ht hn ha fun n u hu hnu hau => ?_
    split_ifs
    · exact h.done hu hau
    · refine h.receive adbParseAdbPayload_receiver hu hnu hau fun rc v hv hnv hav => ?_
      cases rc
      · exact h.dispatch v hv hnv hav
      · exact h.close hv hav
      · exact h.done hv hav

theorem processAdbHeader (ht : Receiving s t) (hn : NoReply t) (ha : κ.assume t) :
    Prog.Ensures Slot.exec κ (fun _ => Q) adbProcessAdbHeader t := by
  unfold adbProcessAdbHeader
  refine readEvent_rule (h.keep t ht ha) ?_
  split_ifs
  · exact h.timeout ht ha
  · refine h.receive adbReadAdbHeader_receiver ht hn ha fun n u hu hnu hau => ?_
    split_ifs
    · exact h.done hu hau
    · refine h.receive adbParseAdbHeader_receiver hu hnu hau fun rc v hv hnv hav => ?_
      cases rc
      · exact h.setHandler hv hnv hav (.inr rfl) fun x hx hnx hax =>
          h.processAdbPayload hx hnx hax
      · exact h.close hv hav
      · exact h.done hv hav

lemma waitApacket (b : Buf) (ht : Receiving s t) (ha : κ.assume t) :
    Prog.Ensures Slot.exec κ (fun _ => Q) (waitApacket b) t := by
  unfold Xdbd.waitApacket
  refine h.ask trivial ht ha fun _ u hu hau => ?_
  refine h.ask trivial hu hau fun n v hv hav => ?_
  split_ifs
  · exact h.close hv hav
  · refine h.ask rfl hv hav fun rc x hx hax => ?_
    cases rc
    · exact h.done hx hax
    · exact h.close hx hax
    · exact h.close hx hax
  · exact h.close hv hav
  · refine h.ask trivial hv hav fun b' x hx hax => ?_
    refine deref_rule (h.keep x hx hax) (.inl h.fail) fun b _ => ?_
    refine h.ask trivial hx hax fun _ y hy hay => ?_
    refine h.gather (adbCreateRequest_obeys Op.Builds.receives) hy hay fun r z hr hz haz => ?_
    cases r with
    | none =>
      refine h.ask (show Op.Receives (.slot (.setData none)) from fun _ hr => nomatch hr) hz haz
        fun _ x' hx' hax' => ?_
      exact h.close hx' hax'
    | some r =>
      refine setData_rule _ (h.keep z hz haz) (.inl h.fail) fun hd hay' => ?_
      have hout : r.out = none := hr r rfl
      have hstep : Receiving z { z with conn := { z.conn with data := .request r } } := by
        refine .of_fields (List.append_nil _).symm (by simp) rfl rfl rfl (.inl ?_)
        rintro _ ⟨⟩
        exact hout
      refine h.setHandler (hz.trans hstep) ?_ hay' (.inl rfl) fun x' hx' hnx' hax' =>
        h.processAdbHeader hx' hnx' hax'
      rintro _ ⟨⟩
      exact hout

theorem waitApacketHandler (ht : Receiving s t) (ha : κ.assume t) :
    Prog.Ensures Slot.exec κ (fun _ => Q) adbWaitApacketHandler t := by
  unfold adbWaitApacketHandler
  refine h.ask trivial ht ha fun b u hu hau => ?_
  cases b with
  | some b => exact h.waitApacket b hu hau
  | none =>
    refine h.gather (createBuf_obeys Op.Builds.receives adbMaxPacketSize) hu hau
      fun b v _ hv hav => ?_
    cases b with
    | none => exact h.close hv hav
    | some b =>
      exact h.ask trivial hv hav fun _ x hx hax =>
        h.waitApacket b hx hax

end Attends

end Xdbd

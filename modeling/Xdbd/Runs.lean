import Xdbd.Startup

/-!
# Runs

What start-up establishes and the select module, the handlers and the choices of the kernel
preserve, holds at the top of every turn and in every state that a turn passes through.
-/
namespace Xdbd
open Interaction World

variable {boot : Boot} {w w' : World} {free : List ℕ}

namespace World

/-! ## The choices of the kernel -/

lemma slots_feed (i : ℕ) (x : Script) (j : ℕ) :
    (w.feed i x).slots j =
      if j = i then
        { w.slots i with wire := ⟨x.recvs, x.sends, x.accepts, x.allocs, (w.slots i).wire.history⟩ }
      else w.slots j := slots_modSlot i j _

lemma conn_feed (i : ℕ) (x : Script) (j : ℕ) :
    ((w.feed i x).slots j).conn = (w.slots j).conn := by
  rw [slots_feed]
  split_ifs with hj
  · rw [hj]
  · rfl

lemma event_feed (i : ℕ) (x : Script) (e : Ev) : (w.feed i x).event e = w.event e := by
  cases e with
  | read j =>
    simp only [event, slots_feed]
    split_ifs with hj
    · rw [hj]
    · rfl
  | write j =>
    simp only [event, slots_feed]
    split_ifs with hj
    · rw [hj]
    · rfl

theorem Idle.feed (h : Idle w free) (i : ℕ) (x : Script) : Idle (w.feed i x) free where
  table := by
    refine h.table.similar ⟨rfl, rfl, rfl, rfl⟩ (fun j _ => link_congr (by rw [conn_feed]))
      (fun j => ?_) subset_rfl rfl rfl (h.table.registry.congr (fun e _ => by rw [event_feed])
        (fun e _ => fd_congr (conn_feed i x e.slot)) rfl rfl rfl rfl rfl)
    rw [slots_feed]
    split_ifs with hj
    · rw [hj]
      exact ⟨rfl, rfl, rfl, rfl, Iff.rfl, rfl, rfl, Iff.rfl, .inl rfl⟩
    · exact .refl _
  noAccepts := h.noAccepts
  noOthers := h.noOthers
  posted e he := by
    rw [event_feed]
    exact h.posted e he

end World

/-! ## Invariants of runs -/

lemma Started.idle (h : Started boot w) : ∃ free, Idle w free := by
  obtain ⟨-, free, -, -, hr⟩ :=
    @Started.registering boot w (fun _ => True) h fun _ _ _ _ => trivial
  exact ⟨free, hr.idle⟩

/-- A property that every step of a run preserves. -/
structure StepInvariant (J : World → Prop) : Prop extends BatchInvariant J where
  feed : ∀ {w : World} (i : ℕ) (x : Script), J w → J (w.feed i x)
  select : ∀ {w : World} {free : List ℕ} {kernel : Kernel}, J w → Idle w free →
    Allowed w kernel → J (w.selectProcessEvents kernel).2

/-- A property that start-up establishes and everything later preserves. -/
structure RunInvariant (boot : Boot) (J : World → Prop) : Prop extends StepInvariant J where
  start : ∀ {w : World}, Started boot w → J w

theorem StepInvariant.turn {J : World → Prop} (hJ : StepInvariant J) (h : Idle w free) (hj : J w)
    {kernel : Kernel} (hk : Allowed w kernel) :
    (∀ c ∈ (w.processEventsAndTimers kernel).1, Called J c) ∧
      ∀ w', (w.processEventsAndTimers kernel).2 = .ok w' → (∃ free', Idle w' free') ∧ J w' := by
  have hbatch := (h.selected hk).batch h
  obtain ⟨hcalls, -, hend⟩ := hbatch.rounds hJ.toBatchInvariant (hJ.select hj h hk) kernel rfl
  exact ⟨hcalls, fun w' hw' => (hend w' hw').2⟩

theorem StepInvariant.step {J : World → Prop} (hJ : StepInvariant J) (h : Idle w free) (hj : J w)
    (hw : Step w w') : (∃ free', Idle w' free') ∧ J w' := by
  cases hw with
  | feed i x => exact ⟨⟨free, h.feed i x⟩, hJ.feed i x hj⟩
  | turn kernel allowed finished => exact (hJ.turn h hj allowed).2 _ finished

section
variable {J : World → Prop} (hJ : RunInvariant boot J)
include hJ

theorem RunInvariant.holds (h : Run boot w) : (∃ free, Idle w free) ∧ J w := by
  induction h with
  | start started => exact ⟨started.idle, hJ.start started⟩
  | step prior next ih =>
    obtain ⟨⟨free, hidle⟩, hj⟩ := ih
    exact hJ.toStepInvariant.step hidle hj next

theorem RunInvariant.called (h : Run boot w) {kernel : Kernel} (hk : Allowed w kernel) :
    ∀ c ∈ (w.processEventsAndTimers kernel).1, Called J c := by
  obtain ⟨⟨free, hidle⟩, hj⟩ := hJ.holds h
  exact (hJ.toStepInvariant.turn hidle hj hk).1

end

lemma RunInvariant.trivial (boot : Boot) : RunInvariant boot fun _ => True where
  accept _ _ _ _ := True.intro
  handler _ _ _ _ _ _ := True.intro
  start _ := True.intro
  feed _ _ _ := True.intro
  select _ _ _ := True.intro

theorem Run.idle (h : Run boot w) : ∃ free, Idle w free :=
  ((RunInvariant.trivial boot).holds h).1

theorem Run.called (h : Run boot w) {kernel : Kernel} (hk : Allowed w kernel) {c : Ev × World}
    (hc : c ∈ (w.processEventsAndTimers kernel).1) : ∃ free, Batch c.2 free :=
  ((RunInvariant.trivial boot).called h hk c hc).batch

/-! ## Every state of a turn -/

/-- The states that the call of an event's handler passes through; those inside
`xdbd_event_accept` are left out. -/
def passed (c : Ev × World) : List World :=
  match (c.2.event c.1).handler with
  | some (.adb h) => Prog.states (exec c.1.slot) (code h) c.2
  | _ => [c.2]

/-- The states at the top of the loop and inside the handlers it calls, also where the
handler does not come to its end. -/
inductive Moment (boot : Boot) : World → Prop
  | top {w : World} (run : Run boot w) : Moment boot w
  | inside {w v : World} {kernel : Kernel} {c : Ev × World} (run : Run boot w)
      (allowed : Allowed w kernel) (call : c ∈ (w.processEventsAndTimers kernel).1)
      (state : v ∈ passed c) : Moment boot v

lemma World.Batch.passed {u : World} (h : Batch u free) {e : Ev}
    (he : e ∈ u.postedAcceptEvents ++ u.postedEvents) {v : World} (hv : v ∈ passed (e, u)) :
    v = u ∨ ∃ i hd s, e = .read i ∧ e ∈ u.postedEvents ∧ u.Peer i ∧ i ∉ free ∧
      (u.slots i).read.handler = some (.adb hd) ∧ Linked i u v s ∧
      s ∈ Prog.states Slot.exec (code hd) (u.slots i).norm := by
  unfold Xdbd.passed at hv
  rcases List.mem_append.mp he with hA | hP
  · obtain ⟨l, rfl, hl, hacc⟩ := h.accepts e hA
    have hh : (u.event (.read l)).handler = some .eventAccept :=
      ((h.table.entry l hl).listener hacc).1
    rw [hh] at hv
    exact .inl (List.mem_singleton.mp hv)
  · obtain ⟨i, rfl, hp, hi, -⟩ := h.others e hP
    obtain ⟨-, -, -, -, -, hd, hhd⟩ := h.table.peer_entry hp hi
    rw [show (u.event (.read i)).handler = some (.adb hd) from hhd] at hv
    obtain ⟨s, hs, hlink⟩ := (linked_simulates i u).states (code hd)
      ⟨⟨free, h.table, fun hi' => absurd hi' hi⟩, hp, .refl i u, rfl⟩ v hv
    exact .inr ⟨i, hd, s, rfl, hP, hp, hi, hhd, hlink, hs⟩

/-! ## Invariants of accepted connections -/

/-- An accepted connection that is not closed. -/
structure Slot.Open (s : Slot) : Prop where
  alive : s.conn.destroyed = false
  unixIo : s.conn.unixIo = true
  listening : s.conn.listening ≠ none
  fd : 0 ≤ s.conn.fd
  active : s.read.active = true

lemma Slot.Open.congr {s t : Slot} (h : s.Open) (hc : t.conn = s.conn)
    (hr : t.read.active = s.read.active) : t.Open :=
  ⟨hc ▸ h.alive, hc ▸ h.unixIo, hc ▸ h.listening, hc ▸ h.fd, hr ▸ h.active⟩

lemma open_preserved :
    Prog.Preserves Slot.exec fun s => s.read.active = true ∧ (s.read.index = none ∨ s.Open) := by
  intro op s r t ⟨hactive, hs⟩ hrun
  cases op with
  | slot o =>
    have hf : SameFrame s t := SlotOp.exec_frame hrun
    refine ⟨?_, hs.imp (fun hi => ?_) fun ho => ⟨?_, ?_, ?_, ?_, ?_⟩⟩
    · rw [hf.read]
      exact hactive
    · rw [hf.read]
      exact hi
    · rw [hf.conn]
      exact ho.alive
    · rw [hf.conn]
      exact ho.unixIo
    · rw [hf.conn]
      exact ho.listening
    · rw [hf.conn]
      exact ho.fd
    · rw [hf.read]
      exact ho.active
  | handleReadEvent flags =>
    have hn : s.handleReadEvent (flags % 2 = 1) = (.ok, s) := by
      simp [Slot.handleReadEvent, hactive]
    have ht : t = s := by
      have := congrArg Prod.snd (Except.ok.inj hrun)
      rw [hn] at this
      exact this.symm
    rw [ht]
    exact ⟨hactive, hs⟩
  | delReadEvent =>
    have ht : t = s.delRead.2 := congrArg Prod.snd (Except.ok.inj hrun).symm
    rw [ht]
    unfold Slot.delRead
    split_ifs with hi
    · exact ⟨hactive, hs⟩
    · exact ⟨hactive, .inl rfl⟩
  | closeConnection =>
    simp only [Slot.exec] at hrun
    split_ifs at hrun
    cases hrun
    exact ⟨hactive, .inl (if_pos hactive)⟩

/-- What an accepted connection keeps, as long as `H` holds of what happened on it: `R` between
the calls of its handlers, and `K` all along. -/
structure PeerInvariant (H : List Obs → Prop) (R K : Slot → Prop) : Prop where
  closed : ∀ {h h' : List Obs}, h <+: h' → H h' → H h
  accepted : ∀ s ls p q k, R (acceptedSlot s ls p q k).norm
  feed : ∀ {s : Slot} (x : Script), R s →
    R { s with wire := ⟨x.recvs, x.sends, x.accepts, x.allocs, s.wire.history⟩ }
  flags : ∀ {s : Slot} (ready posted : Bool), R s →
    R { s with read := { s.read with ready, posted } }
  keep : ∀ {s : Slot}, R s → K s
  run : ∀ {s : Slot} {hd : AdbHandler}, H s.wire.history → R s → s.Open →
    s.read.handler = some (.adb hd) → s.read.ready = true →
      Prog.Ensures Slot.exec ⟨fun t => H t.wire.history, K, True⟩ (fun _ t => R t) (code hd) s

lemma Slot.palloc_history (s : Slot) (size : ℕ) :
    s.wire.history <+: (s.palloc size).2.wire.history := by
  unfold Slot.palloc
  split_ifs
  · exact List.prefix_rfl
  · cases s.wire.allocs <;> exact List.prefix_append _ _

theorem Slot.exec_history {op : Op} {s t : Slot} {r : op.Res}
    (h : Slot.exec op s = .ok (r, t)) : s.wire.history <+: t.wire.history := by
  cases op with
  | slot o =>
    rw [SlotOp.exec_after (show o.exec s = .ok (r, t) from h)]
    cases o with
    | note _ | send _ => exact List.prefix_append _ _
    | palloc size => exact s.palloc_history size
    | recv off size =>
      simp only [SlotOp.after]
      cases s.conn.buffer with
      | none => exact List.prefix_rfl
      | some b => exact List.prefix_append _ _
    | _ => exact List.prefix_rfl
  | handleReadEvent flags =>
    change Except.ok (s.handleReadEvent (flags % 2 = 1)) = .ok (r, t) at h
    have ht : t = (s.handleReadEvent (flags % 2 = 1)).2 :=
      congrArg Prod.snd (Except.ok.inj h).symm
    rw [ht]
    unfold Slot.handleReadEvent Slot.addRead Slot.delRead
    split_ifs <;> exact List.prefix_rfl
  | delReadEvent =>
    change Except.ok s.delRead = .ok (r, t) at h
    have ht : t = s.delRead.2 := congrArg Prod.snd (Except.ok.inj h).symm
    rw [ht]
    unfold Slot.delRead
    split_ifs <;> exact List.prefix_rfl
  | closeConnection =>
    simp only [Slot.exec] at h
    split_ifs at h
    cases h
    exact List.prefix_rfl

lemma lasting_history {H : List Obs → Prop} (hH : ∀ {h h' : List Obs}, h <+: h' → H h' → H h) :
    Prog.Lasting Slot.exec fun s => H s.wire.history :=
  fun _ _ _ _ ho ht => hH (Slot.exec_history ho) ht

namespace World

lemma Table.open (h : Table w free) {i : ℕ} (hp : w.Peer i) (hi : i ∉ free) :
    (w.slots i).norm.Open := by
  obtain ⟨ha, hu, hf, -⟩ := h.peer_entry hp hi
  exact ⟨(h.entry i ⟨hp.issued, hi⟩).alive, hu, hp.listening, hf, ha⟩

lemma peer_congr {i : ℕ} (hi : w'.issued = w.issued) (hn : (w'.slots i).norm = (w.slots i).norm)
    (hp : w'.Peer i) : w.Peer i where
  issued := hi ▸ hp.issued
  accepted := (congrArg (fun s => s.read.accepted) hn).symm.trans hp.accepted
  listening hl := hp.listening ((congrArg (fun s => s.conn.listening) hn).trans hl)

lemma Frame.of_peer {i j : ℕ} (h : Frame i w w') (hp : w'.Peer j) : w.Peer j := by
  by_cases hj : j = i
  · subst hj
    exact ⟨h.issued ▸ hp.issued, h.accepted ▸ hp.accepted, fun hl =>
      hp.listening (h.listeningOf.trans hl)⟩
  · exact peer_congr h.issued (h.others j hj).norm hp

end World

lemma World.Frame.peers {H : List Obs → Prop} {S : Slot → Prop} {u v : World} {i : ℕ}
    (hf : Frame i u v) (hj : ∀ j, u.Peer j → H (u.slots j).wire.history → S (u.slots j).norm)
    (hi : H (v.slots i).wire.history → S (v.slots i).norm) :
    ∀ j, v.Peer j → H (v.slots j).wire.history → S (v.slots j).norm := by
  intro j hp hh
  by_cases hji : j = i
  · rw [hji] at hh ⊢
    exact hi hh
  · rw [(hf.others j hji).wire] at hh
    rw [(hf.others j hji).norm]
    exact hj j (hf.of_peer hp) hh

section
variable {H : List Obs → Prop} {R K : Slot → Prop} (hP : PeerInvariant H R K)
include hP

lemma PeerInvariant.delete {i : ℕ}
    (hj : ∀ j, w.Peer j → H (w.slots j).wire.history → R (w.slots j).norm) :
    ∀ j, (w.deletePostedEvent (.read i)).Peer j →
      H ((w.deletePostedEvent (.read i)).slots j).wire.history →
        R ((w.deletePostedEvent (.read i)).slots j).norm := by
  intro j hp hh
  have hs := @slots_deletePostedEvent w i j
  by_cases hji : j = i
  · subst hji
    rw [if_pos rfl] at hs
    have hpeer : w.Peer j := by
      refine ⟨hp.issued, ?_, ?_⟩
      · have := hp.accepted
        rw [hs] at this
        exact this
      · have := hp.listening
        rw [hs] at this
        exact this
    rw [hs] at hh ⊢
    exact hP.flags (w.slots j).norm.read.ready false (hj j hpeer hh)
  · rw [if_neg hji] at hs
    rw [hs] at hh ⊢
    exact hj j (@peer_congr w (w.deletePostedEvent (.read i)) j rfl (by rw [hs]) hp) hh

/-- The runs of the daemon keep what the connections keep one by one. -/
theorem PeerInvariant.runInvariant (boot : Boot) :
    RunInvariant boot fun w => ∀ i, w.Peer i → H (w.slots i).wire.history →
      R (w.slots i).norm where
  accept {w w' free free' l} hj hb hl hacc := by
    refine hP.delete fun j hp hh => ?_
    obtain ⟨_, he, hlu, hlacc⟩ := hb.accepts _ hl
    obtain rfl := Ev.read.inj he
    by_cases hjl : j = l
    · -- the listening connection is no accepted one
      have := hp.accepted
      rw [hjl, hacc.read] at this
      exact absurd (hlacc.symm.trans this) (by simp)
    · by_cases hfresh : j ∈ free ∧ j ∉ free'
      · rcases hacc.fresh j hfresh.1 hfresh.2 with ⟨hn, -⟩ | ⟨a, ls, p, q, k, -, hs⟩
        · exact absurd hn hp.listening
        · rw [hs]
          exact hP.accepted a.fd ls p q k
      · have hs := hacc.others j hjl fun hf => by_contra fun hf' => hfresh ⟨hf, hf'⟩
        rw [hs] at hh ⊢
        refine hj j ⟨((hacc.issued j).mp hp.issued).resolve_right hfresh, ?_, ?_⟩ hh
        · rw [← hs]
          exact hp.accepted
        · rw [← hs]
          exact hp.listening
  handler {w w' free i hd} hj hb hi hhd hframe hrun := by
    obtain ⟨_, he, hp, hf, hr⟩ := hb.others _ hi
    obtain rfl := Ev.read.inj he
    refine hP.delete (hframe.peers hj fun hh => ?_)
    have hlast := lasting_history hP.closed
    have hstart : H (w.slots _).norm.wire.history :=
      hlast.states _ _ (Prog.mem_states hrun) hh
    exact (hP.run hstart (hj _ hp hstart) (hb.table.open hp hf) hhd hr).result hlast hrun hh
  start {w} hs := by
    obtain ⟨-, free, -, -, hr⟩ :=
      @Started.registering boot w (fun _ => True) hs fun _ _ _ _ => trivial
    intro i hp
    exact absurd ((hr.listeners i hp.issued).2.symm.trans hp.accepted) (by simp)
  feed {w} i x hj j hp hh := by
    have hpeer : w.Peer j := by
      refine ⟨hp.issued, ?_, ?_⟩
      · rw [← hp.accepted]
        exact congrArg Event.accepted (event_feed i x (.read j)).symm
      · rw [← conn_feed i x j]
        exact hp.listening
    rw [slots_feed] at hh ⊢
    split_ifs at hh ⊢ with hji
    · rw [← hji] at hh ⊢
      exact hP.feed x (hj j hpeer hh)
    · exact hj j hpeer hh
  select {w free kernel} hj hidle hk := by
    intro j hp hh
    have hsel := hidle.selected hk
    generalize (w.selectProcessEvents kernel).2 = v at hsel hp hh ⊢
    cases hsel with
    | failed _ hslots hissued _ _ =>
      rw [hslots] at hh ⊢
      exact hj j (peer_congr hissued (by rw [hslots]) hp) hh
    | @ready n readSet writeSet _ _ =>
      have hslot : (w.refreshMaxFd.slots j) = w.slots j := by rw [w.slots_refreshMaxFd]
      have hnot : Ev.write j ∉ w.readyEvents readSet writeSet := fun hm => by
        obtain ⟨i, hi⟩ := hidle.table.registered_read (List.mem_filter.mp hm).1
        cases hi
      have hiss := w.issued_refreshMaxFd ▸ hp.issued
      have hl := hp.listening
      have hacc := hp.accepted
      rw [slots_scanned, hslot] at hl hacc hh ⊢
      rw [if_neg hnot]
      split_ifs at hacc ⊢ with hm
      · exact hP.flags true true (hj j ⟨hiss, hacc, hl⟩ hh)
      · exact hj j ⟨hiss, hacc, hl⟩ hh

theorem PeerInvariant.rest (h : Run boot w) :
    ∀ i, w.Peer i → H (w.slots i).wire.history → R (w.slots i).norm :=
  ((hP.runInvariant boot).holds h).2

theorem PeerInvariant.moment {v : World} (h : Moment boot v) :
    ∀ i, v.Peer i → H (v.slots i).wire.history → K (v.slots i).norm := by
  have hJ := hP.runInvariant boot
  cases h with
  | top run => exact fun i hp hh => hP.keep (hP.rest run i hp hh)
  | @inside w _ kernel c run allowed call state =>
    have hc := hJ.called run allowed c call
    obtain ⟨free, hb⟩ := hc.batch
    have hcall : ∀ i, c.2.Peer i → H (c.2.slots i).wire.history → K (c.2.slots i).norm :=
      fun i hp hh => hP.keep (hc.holds i hp hh)
    rcases hb.passed hc.posted state with rfl | ⟨i, hd, s, he, hi, hp, hf, hhd, hlink, hs⟩
    · exact hcall
    · obtain ⟨_, hei, -, -, hr⟩ := hb.others _ hi
      obtain rfl := Ev.read.inj (he.symm.trans hei)
      refine hlink.frame.peers hcall fun hh => ?_
      have hlast := lasting_history hP.closed
      have hwire : s.wire = (v.slots i).norm.wire := congrArg Slot.wire hlink.norm
      have hs' : H s.wire.history := by
        rw [hwire]
        exact hh
      have hstart : H (c.2.slots i).norm.wire.history := hlast.states _ _ hs hs'
      rw [← hlink.norm]
      exact (hP.run hstart (hc.holds i hp hstart) (hb.table.open hp hf) hhd hr).states hlast s hs
        hs'

end

/-! ## A daemon with one listening socket -/

/-- The memory that its start-up finds. -/
def rawSlot : Slot := ⟨Connection.zero 0, Event.zero, Event.zero, Wire.fresh⟩

/-- One listening entry, which gets the descriptor `fd`, and a table of `n` slots. -/
def Boot.single (n : ℕ) (fd : ℤ) : Boot where
  connectionN := n
  entries := [⟨fd, true, true, true⟩]
  eventIndex := some fun _ => .read 0
  connections := true
  readEvents := true
  writeEvents := true
  openFds := {0, 1, 2}
  memory := fun _ => rawSlot

/-- A kernel that finds the descriptors `S` readable. -/
def Kernel.reporting (S : Finset ℤ) : Kernel where
  select _ _ _ := .ready S.card S ∅
  getsockopt _ := true

namespace World

def afterStart (boot : Boot) : World :=
  match postConfiguration boot with
  | .ok (_, w) => w
  | .error _ => blank boot

def afterTurn (w : World) (S : Finset ℤ) : World :=
  match (w.processEventsAndTimers (.reporting S)).2 with
  | .ok w' => w'
  | .error _ => w

end World

lemma Allowed.reporting (S : Finset ℤ) (hS : S ⊆ w.masterRead)
    (hfds : ∀ s ∈ S, 0 ≤ s ∧ s < w.nfds) :
    Allowed w (.reporting S) where
  ready n readSet writeSet h := by
    cases h
    exact ⟨hS, Finset.empty_subset _, fun s hs => hfds s (by simpa using hs), by simp⟩
  valid _ _ := rfl

lemma Step.reporting (S : Finset ℤ) (hS : S ⊆ w.masterRead)
    (hfds : ∀ s ∈ S, 0 ≤ s ∧ s < w.nfds)
    (hok : (w.processEventsAndTimers (.reporting S)).2 = .ok (w.afterTurn S)) :
    Step w (w.afterTurn S) := .turn _ (.reporting S hS hfds) hok

/-- A client on the descriptor 4, whose next answers are those of `x`. -/
def oneClient (x : Script) : World :=
  (((afterStart (.single 2 3)).feed 0 ⟨[], [], [⟨4, true, true, true, true⟩], []⟩).afterTurn
    {3}).feed 1 x

lemma run_oneClient (x : Script) : Run (.single 2 3) (oneClient x) := by
  have h₀ : Run (.single 2 3) (afterStart (.single 2 3)) := .start ⟨by decide, by decide, rfl⟩
  have h₁ := h₀.step (.feed _ 0 ⟨[], [], [⟨4, true, true, true, true⟩], []⟩)
  have h₂ := h₁.step (.reporting {3} (by decide) (by decide) rfl)
  exact h₂.step (.feed _ 1 x)

lemma allowed_oneClient (x : Script) : Allowed (oneClient x) (.reporting {4}) := by
  have hread : (oneClient x).masterRead = (oneClient ⟨[], [], [], []⟩).masterRead := rfl
  have hnfds : (oneClient x).nfds = 5 := by with_unfolding_all rfl
  refine .reporting {4} ?_ fun s hs => ?_
  · rw [hread]
    decide
  · rw [hnfds, Finset.mem_singleton.mp hs]
    decide

/-- The client sends nothing and closes its end. -/
def hungUp : World := (oneClient ⟨[.bytes []], [], [], []⟩).afterTurn {4}

lemma run_hungUp : Run (.single 2 3) hungUp :=
  (run_oneClient _).step (.reporting {4} (by decide) (by decide) rfl)

/-- Two clients were accepted on the descriptors 4 and 5. -/
def twoAccepted : World :=
  (((afterStart (.single 3 3)).feed 0 ⟨[], [],
    [⟨4, true, true, true, true⟩, ⟨5, true, true, true, true⟩], []⟩).afterTurn {3}).afterTurn {3}

lemma run_twoAccepted : Run (.single 3 3) twoAccepted := by
  have h₀ : Run (.single 3 3) (afterStart (.single 3 3)) := .start ⟨by decide, by decide, rfl⟩
  have h₁ := h₀.step (.feed _ 0 ⟨[], [],
    [⟨4, true, true, true, true⟩, ⟨5, true, true, true, true⟩], []⟩)
  have h₂ := h₁.step (.reporting {3} (by decide) (by decide) rfl)
  exact h₂.step (.reporting {3} (by decide) (by decide) rfl)

end Xdbd
